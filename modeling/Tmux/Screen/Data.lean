import Tmux.Grid.Data
import Tmux.Screen.Characters
import Tmux.Screen.Pane
import Tmux.Screen.Text

/-!
# The UTF-8 cells of a screen

Whatever is written to a screen, all its UTF-8 cells have their data (`Screen.Backed`): each
operation on a screen keeps it so, and so do resizing it and entering and leaving the alternate
screen, for the lines saved as well (`PaneScreen.Backed`).
-/

namespace Tmux

open Exec (Meets uadd usub meets_usub meets_all)

variable {s s' : Screen} {g : Grid} {gc : GridCell} {px py n : ℕ}

/-- All UTF-8 cells of a screen have their data. -/
def Screen.Backed (s : Screen) : Prop := s.grid.Every GridLine.Backed

/-! ## Inserting and deleting -/

theorem setCells_backed (h : g.Every GridLine.Backed) (hgc : gc.isUtf8 = false) (yy n : ℕ) :
    Meets .all (Grid.Every GridLine.Backed) (setCells g yy gc n) :=
  Meets.foldlM h fun _ xx _ h₁ => gridViewSetCell_plain h₁ hgc xx yy

theorem screenWriteAlignmenttest_backed (h : s.Backed) : Meets .all Screen.Backed (screenWriteAlignmenttest s) := by
  have hgrid : Meets .all (Grid.Every GridLine.Backed) ((List.range s.grid.sy).foldlM
      (fun gd yy => setCells gd yy { gridDefaultCell with data := 69 } s.grid.sx) s.grid) :=
    Meets.foldlM h fun g₁ yy _ h₁ => setCells_backed h₁ rfl yy _
  exact hgrid.bind fun gd hgd => (meets_all _).bind fun rlower _ => .pure hgd

theorem editCharacters_backed {f : Grid → ℕ → ℕ → ℕ → Exec Grid}
    (hf : ∀ px py nx, Meets .all (Grid.Every GridLine.Backed) (f s.grid px py nx)) (h : s.Backed) (nx : ℕ) :
    Meets .all Screen.Backed (editCharacters f s nx) := by
  refine (meets_all _).bind fun available _ => ?_
  dsimp only
  split_ifs
  · exact .pure h
  · refine (meets_all _).bind fun last _ => ?_
    split_ifs
    · exact (hf _ _ _).bind fun gd hgd => .pure hgd
    · exact .pure h

theorem screenWriteInsertcharacter_backed (h : s.Backed) (nx : ℕ) :
    Meets .all Screen.Backed (screenWriteInsertcharacter s nx) :=
  editCharacters_backed (gridViewInsertCells_backed h) h nx

theorem screenWriteDeletecharacter_backed (h : s.Backed) (nx : ℕ) :
    Meets .all Screen.Backed (screenWriteDeletecharacter s nx) :=
  editCharacters_backed (gridViewDeleteCells_backed h) h nx

theorem editLines_backed {f : Grid → ℕ → ℕ → Exec Grid} {region : Grid → ℕ → ℕ → ℕ → Exec Grid}
    (hf : ∀ py ny, Meets .all (Grid.Every GridLine.Backed) (f s.grid py ny))
    (hregion : ∀ rlower py ny, Meets .all (Grid.Every GridLine.Backed) (region s.grid rlower py ny)) (h : s.Backed)
    (ny : ℕ) : Meets .all Screen.Backed (editLines f region s ny) := by
  unfold editLines
  by_cases hout : s.cy < s.rupper ∨ s.cy > s.rlower
  · rw [if_pos hout]
    refine (meets_all _).bind fun available _ => ?_
    dsimp only
    split_ifs
    · exact .pure h
    · exact (hf _ _).bind fun gd hgd => .pure hgd
  · rw [if_neg hout]
    refine (meets_all _).bind fun available _ => ?_
    dsimp only
    split_ifs
    · exact .pure h
    · exact (hregion _ _ _).bind fun gd hgd => .pure hgd

theorem screenWriteInsertline_backed (h : s.Backed) (ny : ℕ) : Meets .all Screen.Backed (screenWriteInsertline s ny) :=
  .forget <| editLines_backed (gridViewInsertLines_every .empty h) (gridViewInsertLinesRegion_backed h) h ny

theorem screenWriteDeleteline_backed (h : s.Backed) (ny : ℕ) : Meets .all Screen.Backed (screenWriteDeleteline s ny) :=
  .forget <| editLines_backed (gridViewDeleteLines_backed h) (gridViewDeleteLinesRegion_backed h) h ny

/-! ## Clearing -/

theorem gridViewClear_backed (h : g.Every GridLine.Backed) (px py nx ny : ℕ) :
    Meets .all (Grid.Every GridLine.Backed) (gridViewClear g px py nx ny) := gridClear_backed h px _ nx ny

theorem screenWriteClearline_backed (h : s.Backed) : Meets .all Screen.Backed (screenWriteClearline s) :=
  (gridViewClear_backed h _ _ _ _).bind fun _ hgd => .pure hgd

theorem clearRight_backed (h : s.Backed) : Meets .all (Grid.Every GridLine.Backed) (clearRight s) := by
  refine (meets_all _).bind fun last _ => ?_
  split_ifs
  · exact (meets_all _).bind fun nx _ => gridViewClear_backed h _ _ _ _
  · exact .pure h

theorem clearLeft_backed (hg : g.Every GridLine.Backed) (s : Screen) :
    Meets .all (Grid.Every GridLine.Backed) (clearLeft s g) := by
  refine (meets_all _).bind fun last _ => ?_
  split_ifs
  · exact gridViewClear_backed hg _ _ _ _
  · exact gridViewClear_backed hg _ _ _ _

theorem screenWriteClearendofline_backed (h : s.Backed) : Meets .all Screen.Backed (screenWriteClearendofline s) :=
  (clearRight_backed h).bind fun _ hgd => .pure hgd

theorem screenWriteClearstartofline_backed (h : s.Backed) :
    Meets .all Screen.Backed (screenWriteClearstartofline s) :=
  (clearLeft_backed h s).bind fun _ hgd => .pure hgd

theorem screenWriteClearendofscreen_backed (h : s.Backed) :
    Meets .all Screen.Backed (screenWriteClearendofscreen s) := by
  unfold screenWriteClearendofscreen
  split_ifs
  · exact (Meets.forget (w := .all) (gridViewClearHistory_every .empty h)).bind fun _ hgd => .pure hgd
  · refine (clearRight_backed h).bind fun gd₁ h₁ => (meets_all _).bind fun ny _ => ?_
    exact (gridViewClear_backed h₁ _ _ _ _).bind fun _ hgd => .pure hgd

theorem screenWriteClearstartofscreen_backed (h : s.Backed) :
    Meets .all Screen.Backed (screenWriteClearstartofscreen s) :=
  (gridViewClear_backed h _ _ _ _).bind fun _ h₁ => (clearLeft_backed h₁ s).bind fun _ hgd => .pure hgd

theorem screenWriteClearscreen_backed (h : s.Backed) : Meets .all Screen.Backed (screenWriteClearscreen s) := by
  unfold screenWriteClearscreen
  split_ifs
  · exact (Meets.forget (w := .all) (gridViewClearHistory_every .empty h)).bind fun _ hgd => .pure hgd
  · exact (gridViewClear_backed h _ _ _ _).bind fun _ hgd => .pure hgd

theorem screenWriteClearhistory_backed (h : s.Backed) : Meets .all Screen.Backed (screenWriteClearhistory s) :=
  (gridMoveLines_every .empty h _ _ _).bind fun _ hgd => .pure hgd

/-! ## Scrolling -/

theorem screenWriteReverseindex_backed (h : s.Backed) : Meets .all Screen.Backed (screenWriteReverseindex s) := by
  unfold screenWriteReverseindex
  split_ifs
  · exact (Meets.forget (w := .all) (gridViewScrollRegionDown_every .empty h _ _)).bind fun _ hgd => .pure hgd
  · exact .pure h
  · exact .pure h

theorem screenWriteScrollregion_backed (h : s.Backed) (rupper rlower : ℕ) :
    Meets .all Screen.Backed (screenWriteScrollregion s rupper rlower) := by
  refine (meets_all _).bind fun last _ => ?_
  dsimp only
  split_ifs
  · exact .pure h
  · exact .pure h

theorem screenWriteLinefeed_backed (h : s.Backed) (wrapped : Bool) :
    Meets .all Screen.Backed (screenWriteLinefeed s wrapped) := by
  refine (updateRow_every (f := fun gl => pure { gl with wrapped }) (fun gl hgl => .pure hgl) h _).bind fun gd hgd => ?_
  refine (meets_all _).bind fun last _ => ?_
  split_ifs
  · exact (Meets.forget (w := .all) (gridViewScrollRegionUp_every .empty hgd _ _)).bind fun _ hgd' => .pure hgd'
  · exact .pure hgd
  · exact .pure hgd

theorem screenWriteReset_backed (h : s.Backed) : Meets .all Screen.Backed (screenWriteReset s) := by
  refine (meets_all _).bind fun last _ => ?_
  have h₁ : (screenResetTabs s).Backed := h
  refine (screenWriteScrollregion_backed h₁ 0 last).bind fun s₂ h₂ => ?_
  have h₃ : (screenWriteMousemodeOff (screenWriteKkeypadmode (screenWriteKcursormode
    (screenWriteInsertmode s₂ false) false) false)).Backed := h₂
  refine (screenWriteClearscreen_backed h₃).bind fun s₄ h₄ => ?_
  exact (meets_all _).bind fun _ _ => (meets_all _).bind fun _ _ => .pure h₄

/-! ## Combining characters -/

/-- The UTF-8 data of a column of the row of the screen was written. -/
abbrev Grid.ViewData (g : Grid) (px py : ℕ) : Prop := g.HasData (gridViewY g py) px

theorem utf8Cell_backed (h : g.Every GridLine.Backed) (hr : gridCheckY g (gridViewY g py) = true)
    (hgc : gc.isUtf8 = true → g.ViewData px py) :
    Meets .all (fun p => p.1.Every GridLine.Backed ∧ p.1.ViewData px py) (utf8Cell g px py gc) := by
  unfold utf8Cell
  split_ifs with hutf8
  · exact .pure ⟨h, hgc hutf8⟩
  · refine (gridViewSetUtf8_backed h hr _).bind fun g₁ h₁ => ?_
    exact (gridViewSetCell_backed h₁.1 fun _ => h₁.2).bind fun g₂ h₂ => .pure ⟨h₂.1, h₂.2 h₁.2⟩

theorem putCombined_backed (h : g.Every GridLine.Backed) (hr : gridCheckY g (gridViewY g py) = true)
    (gc : GridCell) (gu : GridUtf8) (utf8data : Utf8Data) :
    Meets .all (Grid.Every GridLine.Backed) (putCombined g px py gc gu utf8data) := by
  unfold putCombined
  cases gridUtf8Append gu utf8data with
  | some gu' => exact (gridViewSetUtf8_backed h hr gu').mono fun _ h₁ => h₁.1
  | none => exact gridViewSetCell_gridViewSetUtf8_backed h px py _ _

theorem screenWriteCombine_backed (h : s.Backed) (utf8data : Utf8Data) :
    Meets .all Screen.Backed (screenWriteCombine s utf8data) := by
  unfold screenWriteCombine
  split_ifs
  · exact .pure h
  · trivial
  · refine (gridViewGetCell_backed h _ _).bind fun found hfound => ?_
    refine (Exec.meets_follow trivial hfound).bind fun p₁ h₁ => ?_
    refine (utf8Cell_backed h₁.1 h₁.2.1 h₁.2.2).bind fun p₂ h₂ => ?_
    refine (gridViewGetUtf8_backed h₂.1 _ _).bind fun found hfound => ?_
    refine (Exec.meets_follow trivial hfound).bind fun p₃ h₃ => (meets_all _).bind fun gu _ => ?_
    exact (putCombined_backed h₃.1 h₃.2.1 _ gu utf8data).bind fun gd hgd => .pure hgd

/-! ## Drawing -/

theorem isUtf8_default : gridDefaultCell.isUtf8 = false := rfl

theorem clearPadding_backed (h : g.Every GridLine.Backed) (py xx : ℕ) :
    Meets .all (fun p => p.1.Every GridLine.Backed) (clearPadding g py xx) := by
  induction xx generalizing g with
  | zero => exact .pure h
  | succ xx ih =>
    refine (meets_all _).bind fun gc _ => ?_
    split_ifs
    · exact .pure h
    · exact (gridViewSetCell_plain h isUtf8_default _ _).bind fun g₁ h₁ => ih h₁

theorem clearPaddingAfter_backed (h : g.Every GridLine.Backed) (py n xx : ℕ) :
    Meets .all (Grid.Every GridLine.Backed) (clearPaddingAfter g py n xx) := by
  induction n generalizing g xx with
  | zero => exact .pure h
  | succ n ih =>
    refine (meets_all _).bind fun gc _ => ?_
    split_ifs
    · exact .pure h
    · exact (gridViewSetCell_plain h isUtf8_default _ _).bind fun g₁ h₁ => ih h₁ _

theorem screenWriteOverwrite_backed (h : s.Backed) (width : ℕ) :
    Meets .all Screen.Backed (screenWriteOverwrite s width) := by
  have hoverwrite : Meets .all (Grid.Every GridLine.Backed) (overwritePadding s) := by
    refine (meets_all _).bind fun gc _ => ?_
    split_ifs
    · refine (clearPadding_backed h _ _).bind fun p hp => ?_
      exact gridViewSetCell_plain hp isUtf8_default _ _
    · exact .pure h
  exact hoverwrite.bind fun gd hgd => (clearPaddingAfter_backed hgd _ _ _).bind fun gd' hgd' => .pure hgd'

theorem isUtf8_pad (gc : GridCell) : GridCell.isUtf8 { gc with flags := gc.flags ||| gridFlagPadding } = gc.isUtf8 := by
  rw [GridCell.isUtf8, GridCell.isUtf8, flags_set (by decide)]

/-- A cell that becomes padding keeps its data. -/
theorem padCell_backed (h : g.Every GridLine.Backed) (py xx : ℕ) :
    Meets .all (Grid.Every GridLine.Backed) (padCell py g xx) := by
  refine (gridViewGetCell_backed h xx py).bind fun found hfound => ?_
  cases found with
  | none => exact .pure h
  | some p =>
    have hp := hfound p rfl
    exact (gridViewSetCell_backed hp.1 fun hutf8 => hp.2.2 (by rwa [isUtf8_pad] at hutf8)).mono fun _ h₁ => h₁.1

/-- A UTF-8 cell is put with its data. -/
theorem putCharacter_backed (h : g.Every GridLine.Backed) (px py : ℕ) (gc : GridCell) (utf8data : Option Utf8Data) :
    Meets .all (Grid.Every GridLine.Backed) (putCharacter g px py gc utf8data) := by
  unfold putCharacter
  by_cases hutf8 : gc.isUtf8 = true
  · simp only [hutf8, if_true]
    cases utf8data with
    | none => exact (meets_all _).bind fun _ _ => trivial
    | some u =>
      simp only [Exec.follow_some, pure_bind, gridUtf8Set]
      split_ifs
      · exact (meets_all _).bind fun _ _ => trivial
      · exact (meets_all _).bind fun _ _ => trivial
      · simp only [pure_bind]
        exact gridViewSetCell_gridViewSetUtf8_backed h px py gc _
  · simp only [hutf8]
    exact (gridViewSetCell_plain h (by simpa using hutf8) px py).bind fun gd hgd => .pure hgd

theorem drawCharacter_backed (h : s.Backed) (gc : GridCell) (utf8data : Option Utf8Data) (width : ℕ) :
    Meets .all Screen.Backed (drawCharacter s gc utf8data width) := by
  refine (screenWriteOverwrite_backed h width).bind fun s₁ h₁ => ?_
  have hpad : Meets .all (Grid.Every GridLine.Backed)
      ((List.range' (s₁.cx + 1) (width - 1)).foldlM (padCell s₁.cy) s₁.grid) :=
    Meets.foldlM h₁ fun _ xx _ hgd => padCell_backed hgd s₁.cy xx
  exact hpad.bind fun gd₂ h₂ => (putCharacter_backed h₂ _ _ gc utf8data).bind fun gd₃ h₃ => .pure h₃

/-! ## Writing -/

theorem insertSpace_backed (h : s.Backed) (width : ℕ) : Meets .all Screen.Backed (insertSpace s width) := by
  unfold insertSpace
  split_ifs
  · refine (meets_all _).bind fun last _ => ?_
    split_ifs
    · refine (meets_all _).bind fun _ _ => (meets_all _).bind fun _ _ => ?_
      exact (gridMoveCells_backed h _ _ _ _).bind fun gd hgd => .pure hgd
    · exact .pure h
  · exact .pure h

theorem wrapLine_backed (h : s.Backed) (width : ℕ) : Meets .all Screen.Backed (wrapLine s width) := by
  refine (meets_all _).bind fun spills _ => ?_
  cases spills with
  | false => exact .pure h
  | true => exact (screenWriteLinefeed_backed h true).bind fun s₁ h₁ => .pure h₁

theorem writeCharacter_backed (h : s.Backed) (gc : GridCell) (utf8data : Option Utf8Data) (width : ℕ) :
    Meets .all Screen.Backed (writeCharacter s gc utf8data width) := by
  refine (meets_all _).bind fun _ _ => (insertSpace_backed h width).bind fun s₁ h₁ => ?_
  refine (wrapLine_backed h₁ width).bind fun s₂ h₂ => (meets_all _).bind fun spills _ => (meets_all _).bind fun last _ => ?_
  split_ifs
  · exact .pure h₂
  · exact drawCharacter_backed h₂ gc utf8data width

theorem screenWriteCell_backed (h : s.Backed) (gc : GridCell) (utf8data : Option Utf8Data) :
    Meets .all Screen.Backed (screenWriteCell s gc utf8data) := by
  unfold screenWriteCell
  split_ifs
  · exact .pure h
  · refine (meets_all _).bind fun width _ => (meets_all _).bind fun full _ => ?_
    split_ifs
    · exact .pure h
    · exact (meets_all _).bind fun u _ => screenWriteCombine_backed h u
    · exact writeCharacter_backed h gc utf8data width

/-! ## Text and copies -/

theorem nputsFrom_backed (h : s.Backed) (defgc : Option GridCell) (maxlen : ℤ) (utf8flag : Bool) (n : ℕ)
    (msg : List UInt8) (size : ℕ) (gc : GridCell) :
    Meets .all Screen.Backed (nputsFrom defgc maxlen utf8flag n msg size gc s) :=
  nputsFrom_meets (fun _ gc utf8data h => screenWriteCell_backed h gc utf8data) defgc maxlen utf8flag n msg size gc h

theorem screenWriteCursormove_backed (h : s.Backed) (px py : ℕ) :
    Meets .all Screen.Backed (screenWriteCursormove s px py) :=
  (meets_all _).bind fun _ _ => (meets_all _).bind fun _ _ => .pure h

/-- Copying from any screen, whether its cells have their data or not. -/
theorem screenWriteCopy_backed (h : s.Backed) (src : Screen) (px py nx ny : ℕ) :
    Meets .all Screen.Backed (screenWriteCopy s src px py nx ny) :=
  screenWriteCopy_meets (fun _ gc utf8data h => screenWriteCell_backed h gc utf8data)
    (fun _ h => screenWriteClearendofline_backed h) (fun _ h => screenWriteClearline_backed h)
    (fun _ px py h => screenWriteCursormove_backed h px py) h src px py nx ny

/-! ## Other sizes -/

theorem screenReinit_backed (h : s.Backed) : Meets .all Screen.Backed (screenReinit s) :=
  (meets_all _).bind fun _ _ => (gridClearLines_every .empty h _ _).bind fun _ hgd => .pure hgd

theorem screenInit_backed (title : List UInt8) (sx sy hlimit : ℕ) :
    Meets .all Screen.Backed (screenInit title sx sy hlimit) := screenReinit_backed (gridCreate_every .empty sx sy hlimit)

theorem changeX_backed (h : s.Backed) (sx : ℕ) : Meets .all Screen.Backed (changeX s sx) := by
  have hresize : Meets .all Screen.Backed (screenResizeX s sx) := by
    unfold screenResizeX
    split_ifs
    · trivial
    · exact (meets_all _).bind fun _ _ => .pure h
    · exact (meets_all _).bind fun _ _ => .pure h
  unfold changeX
  split_ifs
  · exact hresize.bind fun s₁ h₁ => .pure h₁
  · exact .pure h

theorem takeTop_backed (s : Screen) (hg : g.Every GridLine.Backed) (needed : ℕ) :
    Meets .all (Grid.Every GridLine.Backed) (takeTop s g needed) := by
  unfold takeTop
  extract_lets available
  by_cases hon : g.history = true
  · rw [if_pos hon]
    exact .pure hg
  · rw [if_neg hon]
    by_cases htop : needed > 0 ∧ available > 0
    · rw [if_pos htop]
      exact gridViewDeleteLines_backed hg _ _
    · rw [if_neg htop]
      exact .pure hg

theorem shrinkY_backed (h : s.Backed) (sy : ℕ) : Meets .all Screen.Backed (shrinkY s sy) := by
  have hbottom : ∀ needed, Meets .all (fun p => p.1.Every GridLine.Backed) (deleteBottom s needed) := fun needed => by
    refine (meets_all _).bind fun last _ => (meets_all _).bind fun available _ => ?_
    by_cases h0 : available = 0
    · rw [if_pos h0]
      exact .pure h
    · rw [if_neg h0]
      exact (meets_all _).bind fun py _ => (gridViewDeleteLines_backed h _ _).bind fun gd hgd => .pure hgd
  unfold shrinkY
  split_ifs
  · refine (meets_all _).bind fun needed _ => (hbottom needed).bind fun p hp => (meets_all _).bind fun rest _ => ?_
    exact (takeTop_backed s hp rest).bind fun gd hgd => (meets_all _).bind fun cy _ => .pure hgd
  · exact .pure h

theorem growY_backed (h : s.Backed) (oldy sy : ℕ) : Meets .all Screen.Backed (growY s oldy sy) := by
  unfold growY
  by_cases hlt : sy > oldy
  · rw [if_pos hlt]
    refine (meets_all _).bind fun _ _ => (meets_all _).bind fun _ _ => (meets_all _).bind fun _ _ => ?_
    exact (meets_all _).bind fun _ _ => (Block.fill_forall trivial h .empty _ _ _).bind fun l hl => .pure hl
  · rw [if_neg hlt]
    exact .pure h

theorem screenResize_backed (h : s.Backed) (sx sy : ℕ) : Meets .all Screen.Backed (screenResize s sx sy) := by
  unfold screenResize
  extract_lets sx₁ sy₁
  refine (changeX_backed h sx₁).bind fun s₁ h₁ => ?_
  split_ifs
  · refine Meets.forget (w := .all) ?_
    unfold screenResizeY
    split_ifs
    · trivial
    · refine (shrinkY_backed h₁ sy₁).bind fun s₂ h₂ => ?_
      have hresized : Screen.Backed { s₂ with grid := { s₂.grid with
        linedata := Block.resize {} s₂.grid.linedata (uadd s₂.grid.hsize sy₁) } } := h₂.resize .empty _
      exact (growY_backed hresized _ _).bind fun s₃ h₃ => (meets_all _).bind fun _ _ => .pure h₃
  · exact .pure h₁

/-! ## The screens of a pane -/

/-- All UTF-8 cells of the screen of a pane have their data, and so do those of the lines saved. -/
structure PaneScreen.Backed (wp : PaneScreen) : Prop where
  base : wp.base.Backed
  saved : ∀ g ∈ wp.savedGrid, g.Every GridLine.Backed

variable {wp : PaneScreen}

theorem windowPaneResize_backed (h : wp.Backed) (sx sy : ℕ) :
    Meets .all PaneScreen.Backed (windowPaneResize wp sx sy) := by
  unfold windowPaneResize
  split_ifs
  · exact .pure h
  · exact (screenResize_backed h.base sx sy).bind fun s₁ h₁ => .pure ⟨h₁, h.saved⟩

theorem windowPaneAlternateOn_backed (h : wp.Backed) (gc : GridCell) :
    Meets .all PaneScreen.Backed (windowPaneAlternateOn wp gc) := by
  unfold windowPaneAlternateOn
  split_ifs
  · exact .pure h
  · exact .pure h
  · refine (Meets.forget (w := .all) (gridDuplicateLines_every .empty (gridCreate_every .empty _ _ _) h.base _ _ _)).bind
      fun saved hsaved => ?_
    exact (gridViewClear_backed h.base _ _ _ _).bind fun gd hgd => .pure ⟨hgd, by rintro _ ⟨⟩; exact hsaved⟩

theorem fitY_backed (h : s.Backed) (saved : Grid) (sy height : ℕ) : Meets .all Screen.Backed (fitY s saved sy height) := by
  unfold fitY
  split_ifs
  · exact screenResize_backed h _ _
  · exact .pure h

theorem windowPaneAlternateOff_backed (h : wp.Backed) :
    Meets .all (fun p => p.1.Backed) (windowPaneAlternateOff wp) := by
  unfold windowPaneAlternateOff
  split
  · exact .pure h
  · next saved hsaved =>
    split_ifs
    · exact .pure h
    · refine (fitY_backed h.base _ _ _).bind fun s₁ h₁ => ?_
      refine (Meets.forget (w := .all) (gridDuplicateLines_every .empty h₁ (h.saved saved hsaved) _ _ _)).bind
        fun gd hgd => ?_
      have hrestore : Meets .all Screen.Backed (restoreCursor { s₁ with grid := gd } wp.savedCx wp.savedCy) :=
        (meets_all _).bind fun _ _ => (meets_all _).bind fun _ _ => .pure hgd
      refine hrestore.bind fun s₂ h₂ => ?_
      have h₂' : Screen.Backed { s₂ with grid := { s₂.grid with history := true } } := h₂
      exact (fitY_backed h₂' _ _ _).bind fun s₃ h₃ => .pure ⟨h₃, by simp⟩

end Tmux
