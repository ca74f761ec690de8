import Tmux.Grid.Lines
import Tmux.Grid.Shape
import Tmux.Screen.Write

/-!
# What an operation on a screen keeps

The cursor and the scroll region of a screen are on it (`Screen.InRows`), and every
operation on the screen keeps them there. It keeps the size of the grid, the number of
tabs and the mode for wrapping as well (`Screen.Kept`), and, but for writing
characters and for moving the cursor right, it does not move the cursor past the last
column (`Screen.Stays`).
-/

namespace Tmux

open Exec (Meets uadd usub meets_usub)

variable {w : Exec.Allowed} {s s' s'' : Screen}

/-- The cursor and the scroll region are on the screen, and the region has two rows if the screen
    has. -/
structure Screen.InRows (s : Screen) : Prop where
  cursor : s.cy < s.grid.sy
  region : s.rupper ≤ s.rlower
  bottom : s.rlower < s.grid.sy
  lines : 2 ≤ s.grid.sy → s.rupper < s.rlower

/-- The cursor and the scroll region are on the screen, and its lines are in the grid. -/
structure Screen.Sound (s : Screen) : Prop where
  rows : s.InRows
  width : 1 ≤ s.grid.sx
  whole : s.grid.Whole

/-- What an operation keeps of a screen, wherever it puts the cursor in its row. -/
structure Screen.Kept (s s' : Screen) : Prop where
  grid : s.grid.Kept s'.grid
  rows : s'.InRows
  tabs : s'.tabs.length = s.tabs.length ∨ s'.tabs.length = s.grid.sx
  wrap : s'.hasMode modeWrap = s.hasMode modeWrap

/-- An operation that does not move the cursor past the last column. -/
structure Screen.Stays (s s' : Screen) : Prop extends Screen.Kept s s' where
  cols : s'.cx ≤ s.cx ∨ s'.cx < s.grid.sx

theorem Screen.Kept.refl (h : s.InRows) : s.Kept s := ⟨.refl _, h, .inl rfl, rfl⟩

theorem Screen.Stays.refl (h : s.InRows) : s.Stays s := ⟨.refl h, .inl (le_refl _)⟩

theorem Screen.Kept.trans (h : s.Kept s') (h' : s'.Kept s'') : s.Kept s'' := by
  refine ⟨h.grid.trans h'.grid, h'.rows, ?_, h'.wrap.trans h.wrap⟩
  rcases h'.tabs with ht | ht
  · rw [ht]
    exact h.tabs
  · exact .inr (ht.trans h.grid.sx)

theorem Screen.Stays.trans (h : s.Stays s') (h' : s'.Stays s'') : s.Stays s'' := by
  refine ⟨h.toKept.trans h'.toKept, ?_⟩
  rcases h'.cols with hc | hc
  · exact h.cols.imp hc.trans hc.trans_lt
  · exact .inr (h.grid.sx ▸ hc)

/-- Another grid on a screen. -/
theorem Screen.stays_grid (h : s.InRows) {gd : Grid} (hgd : s.grid.Kept gd) : s.Stays { s with grid := gd } where
  grid := hgd
  rows := ⟨hgd.sy ▸ h.cursor, h.region, hgd.sy ▸ h.bottom, hgd.sy ▸ h.lines⟩
  tabs := .inl rfl
  wrap := rfl
  cols := .inl (le_refl _)

/-- The cursor elsewhere on a screen. -/
theorem Screen.stays_cursor (h : s.InRows) {cx cy : ℕ} (hcx : cx ≤ s.cx ∨ cx < s.grid.sx)
    (hcy : cy < s.grid.sy) : s.Stays { s with cx, cy } where
  grid := .refl _
  rows := ⟨hcy, h.region, h.bottom, h.lines⟩
  tabs := .inl rfl
  wrap := rfl
  cols := hcx

theorem limit_eq_min (n available : ℕ) : limit n available = min n available := by
  unfold limit
  split_ifs <;> omega

theorem limit_le (n available : ℕ) : limit n available ≤ available := by
  rw [limit_eq_min]
  exact min_le_right _ _

theorem uadd_le (a b : ℕ) : uadd a b ≤ a + b := Nat.mod_le _ _

/-! ## Moving the cursor -/

theorem rowsAbove_meets (hwraps : w.wraps) (s : Screen) : Meets w (· ≤ s.cy) (rowsAbove s) := by
  unfold rowsAbove
  split_ifs with habove
  · exact .pure (le_refl _)
  · exact (meets_usub (.inl hwraps)).mono fun n hn => by omega

theorem screenWriteCursorup_stays (h : s.InRows) (ny : ℕ) : Meets w s.Stays (screenWriteCursorup s ny) := by
  refine (rowsAbove_meets (w := w.wrapping) trivial s).forget.bind fun available hav => ?_
  refine (meets_usub (w := w.wrapping) (.inl trivial)).forget.bind fun cy hcy => .pure ?_
  have hle := limit_le (atLeastOne ny) available
  have hcursor := h.cursor
  exact Screen.stays_cursor h (.inl (le_refl _)) (by omega)

theorem rowsBelow_meets (hwraps : w.wraps) (h : s.InRows) :
    Meets w (fun n => s.cy + n < s.grid.sy) (rowsBelow s) := by
  have hcursor := h.cursor
  have hbottom := h.bottom
  unfold rowsBelow
  split_ifs with hbelow
  · refine (meets_usub (.inl hwraps)).bind fun last hlast => ?_
    exact (meets_usub (.inl hwraps)).mono fun n hn => by omega
  · exact (meets_usub (.inl hwraps)).mono fun n hn => by omega

theorem screenWriteCursordown_stays (h : s.InRows) (ny : ℕ) :
    Meets w s.Stays (screenWriteCursordown s ny) := by
  refine (rowsBelow_meets (w := w.wrapping) trivial h).forget.bind fun available hav => .pure ?_
  have hle := limit_le (atLeastOne ny) available
  have hadd := uadd_le s.cy (limit (atLeastOne ny) available)
  exact Screen.stays_cursor h (.inl (le_refl _)) (by omega)

/-- Moving the cursor right keeps it on the screen, unless it is past the last column: then the
    room there is wraps. -/
theorem screenWriteCursorright_kept (h : s.InRows) (hwraps : w.wraps ∨ s.cx < s.grid.sx) (nx : ℕ) :
    Meets w (fun s' => s.Kept s' ∧ (s.cx < s.grid.sx → s'.cx < s.grid.sx)) (screenWriteCursorright s nx) := by
  refine (meets_usub (hwraps.imp_right fun hcx => by omega)).bind fun last hlast => ?_
  refine (meets_usub (hwraps.imp_right fun hcx => by omega)).bind fun available hav => .pure ⟨?_, fun hcx => ?_⟩
  · exact ⟨.refl _, ⟨h.cursor, h.region, h.bottom, h.lines⟩, .inl rfl, rfl⟩
  · have hle := limit_le (atLeastOne nx) available
    have hadd := uadd_le s.cx (limit (atLeastOne nx) available)
    dsimp only
    omega

theorem screenWriteCursorleft_stays (h : s.InRows) (nx : ℕ) :
    Meets w s.Stays (screenWriteCursorleft s nx) := by
  have hle := limit_le (atLeastOne nx) s.cx
  refine (meets_usub (.inr hle)).bind fun cx hcx => .pure ?_
  exact Screen.stays_cursor h (.inl (by omega)) h.cursor

theorem screenWriteBackspace_stays (hw : w.faults .overread) (h : s.InRows) (hx : 1 ≤ s.grid.sx) :
    Meets w s.Stays (screenWriteBackspace s) := by
  have hcursor := h.cursor
  unfold screenWriteBackspace
  split_ifs
  · exact .pure (.refl h)
  · refine (Block.meets_load hw _).bind fun gl _ => ?_
    split_ifs
    · refine (meets_usub (.inr hx)).bind fun cx hcx => .pure ?_
      exact Screen.stays_cursor h (.inr (by omega)) (by omega)
    · exact .pure (.refl h)
  · exact .pure (Screen.stays_cursor h (.inl (by omega)) hcursor)

theorem screenWriteCursormove_stays (h : s.InRows) (hx : 1 ≤ s.grid.sx) (px py : ℕ) :
    Meets w s.Stays (screenWriteCursormove s px py) := by
  have hcursor := h.cursor
  refine (meets_usub (.inr hx)).bind fun lastx hlastx => ?_
  refine (meets_usub (w := w.wrapping) (.inl trivial)).forget.bind fun lasty hlasty => .pure ?_
  have hlex := limit_le px lastx
  have hley := limit_le py lasty
  exact Screen.stays_cursor h (.inr (by omega)) (by omega)

theorem screenWriteCarriagereturn_stays (h : s.InRows) : s.Stays (screenWriteCarriagereturn s) :=
  Screen.stays_cursor h (.inl (Nat.zero_le _)) h.cursor

/-! ## Modes -/

theorem or_and_eq_of_disjoint {a b m : UInt16} (hb : b &&& m = 0) : (a ||| b) &&& m = a &&& m := by
  apply UInt16.toBitVec_inj.1
  ext i hi
  have hi := congrArg (fun x : UInt16 => x.toBitVec[i]) hb
  simp only [UInt16.toBitVec_and, UInt16.toBitVec_or, BitVec.getElem_and, BitVec.getElem_or,
    UInt16.toBitVec_ofNat, BitVec.getElem_zero] at hi ⊢
  grind

theorem and_not_and_eq_of_disjoint {a b m : UInt16} (hb : b &&& m = 0) : a &&& ~~~b &&& m = a &&& m := by
  apply UInt16.toBitVec_inj.1
  ext i hi
  have hi := congrArg (fun x : UInt16 => x.toBitVec[i]) hb
  simp only [UInt16.toBitVec_and, UInt16.toBitVec_not, BitVec.getElem_and, BitVec.getElem_not,
    UInt16.toBitVec_ofNat, BitVec.getElem_zero] at hi ⊢
  grind

/-- Changing another mode leaves a mode as it is. -/
theorem hasMode_setMode {mode mode' : UInt16} (h : mode &&& mode' = 0) (s : Screen) (state : Bool) :
    (s.setMode mode state).hasMode mode' = s.hasMode mode' := by
  cases state with
  | false => rw [Screen.hasMode, Screen.hasMode, Screen.setMode, if_neg (by decide), and_not_and_eq_of_disjoint h]
  | true => rw [Screen.hasMode, Screen.hasMode, Screen.setMode, if_pos rfl, or_and_eq_of_disjoint h]

theorem setMode_stays (h : s.InRows) {mode : UInt16} (hmode : mode &&& modeWrap = 0) (state : Bool) :
    s.Stays (s.setMode mode state) :=
  ⟨⟨.refl _, ⟨h.cursor, h.region, h.bottom, h.lines⟩, .inl rfl, hasMode_setMode hmode s state⟩,
    .inl (le_refl _)⟩

theorem screenWriteMousemodeOff_stays (h : s.InRows) : s.Stays (screenWriteMousemodeOff s) :=
  setMode_stays h (by decide) false

theorem screenWriteMousemodeOn_stays (h : s.InRows) {mode : UInt16} (hmode : mode &&& modeWrap = 0) :
    s.Stays (screenWriteMousemodeOn s mode) :=
  (screenWriteMousemodeOff_stays h).trans
    (setMode_stays (screenWriteMousemodeOff_stays h).rows hmode true)

theorem screenResetTabs_stays (h : s.InRows) : s.Stays (screenResetTabs s) where
  grid := .refl _
  rows := ⟨h.cursor, h.region, h.bottom, h.lines⟩
  tabs := .inr (by simp [screenResetTabs])
  wrap := rfl
  cols := .inl (le_refl _)

/-! ## Inserting and deleting -/

section

variable (hw : w.faults .overread)

include hw

theorem setCells_edits (gd : Grid) (yy : ℕ) (gc : GridCell) (n : ℕ) :
    Meets w (gd.Edited 0) (setCells gd yy gc n) :=
  Meets.foldlM (.refl gd) fun gd₁ xx _ h₁ =>
    (gridSetCell_edits hw gd₁ xx _ gc).mono fun _ h₂ => h₁.trans (h₂.toEdited.weaken (Nat.zero_le _))

theorem screenWriteAlignmenttest_stays (h : s.InRows) :
    Meets w s.Stays (screenWriteAlignmenttest s) := by
  have hcursor := h.cursor
  have hgrid : Meets w s.grid.Kept ((List.range s.grid.sy).foldlM
      (fun gd yy => setCells gd yy { gridDefaultCell with data := 69 } s.grid.sx) s.grid) :=
    Meets.foldlM (.refl _) fun gd₁ yy _ h₁ => (setCells_edits hw gd₁ yy _ _).mono fun _ h₂ => h₁.trans h₂.kept
  refine hgrid.bind fun gd hgd => ?_
  refine (meets_usub (w := w.wrapping) (.inl trivial)).forget.bind fun rlower hr => .pure ?_
  have hsy := hgd.sy
  refine ⟨⟨hgd, ⟨?_, Nat.zero_le _, ?_, ?_⟩, .inl rfl, rfl⟩, .inl (Nat.zero_le _)⟩
  all_goals dsimp only
  all_goals omega

omit hw in
/-- Editing characters at the cursor, as many as there are. -/
theorem editCharacters_stays {f : Grid → ℕ → ℕ → ℕ → Exec Grid} {nx : ℕ} (h : s.InRows)
    (hx : 1 ≤ s.grid.sx) (hcx : w.wraps ∨ s.cx ≤ s.grid.sx)
    (hf : s.cx < s.grid.sx →
      Meets w s.grid.Kept (f s.grid s.cx s.cy (limit (atLeastOne nx) (s.grid.sx - s.cx)))) :
    Meets w s.Stays (editCharacters f s nx) := by
  refine (meets_usub hcx).bind fun available hav => ?_
  dsimp only
  split_ifs
  · exact .pure (.refl h)
  · refine (meets_usub (.inr hx)).bind fun last hlast => ?_
    split_ifs
    · rw [hav (by omega)]
      exact (hf (by omega)).bind fun gd hgd => .pure (Screen.stays_grid h hgd)
    · exact .pure (.refl h)

theorem screenWriteInsertcharacter_stays (h : s.InRows) (hx : 1 ≤ s.grid.sx)
    (hcx : w.wraps ∨ s.cx ≤ s.grid.sx) (nx : ℕ) : Meets w s.Stays (screenWriteInsertcharacter s nx) := by
  refine editCharacters_stays h hx hcx fun hlt => ?_
  have hle := limit_le (atLeastOne nx) (s.grid.sx - s.cx)
  exact (gridViewInsertCells_edits hw s.grid _ (.inr ⟨hx, by omega⟩)).mono fun _ hgd => hgd.kept

/-- Deleting characters wraps, unless as many are deleted as are left after them. -/
theorem screenWriteDeletecharacter_stays (h : s.InRows) (hx : 1 ≤ s.grid.sx)
    (hcx : w.wraps ∨ s.cx ≤ s.grid.sx) {nx : ℕ}
    (hnx : w.wraps ∨ s.grid.sx < Exec.word ∧ (s.cx < s.grid.sx →
      s.grid.sx ≤ s.cx + 2 * limit (atLeastOne nx) (s.grid.sx - s.cx))) :
    Meets w s.Stays (screenWriteDeletecharacter s nx) := by
  refine editCharacters_stays h hx hcx fun hlt => ?_
  have hle := limit_le (atLeastOne nx) (s.grid.sx - s.cx)
  refine (gridViewDeleteCells_edits hw s.grid _ (hnx.imp_right fun hnx => ?_)).mono fun _ hgd => hgd.kept
  exact ⟨hnx.1, by omega, hnx.2 hlt⟩

omit hw in
theorem editLines_stays {f : Grid → ℕ → ℕ → Exec Grid} {region : Grid → ℕ → ℕ → ℕ → Exec Grid}
    (hwraps : w.wraps) (h : s.InRows) (hf : ∀ py ny, Meets w s.grid.Kept (f s.grid py ny))
    (hregion : ∀ rlower py ny, Meets w s.grid.Kept (region s.grid rlower py ny)) (ny : ℕ) :
    Meets w s.Stays (editLines f region s ny) := by
  unfold editLines
  by_cases hout : s.cy < s.rupper ∨ s.cy > s.rlower
  · rw [if_pos hout]
    refine (meets_usub (.inl hwraps)).bind fun available _ => ?_
    dsimp only
    split_ifs
    · exact .pure (.refl h)
    · exact (hf _ _).bind fun gd hgd => .pure (Screen.stays_grid h hgd)
  · rw [if_neg hout]
    refine (meets_usub (.inl hwraps)).bind fun available _ => ?_
    dsimp only
    split_ifs
    · exact .pure (.refl h)
    · exact (hregion _ _ _).bind fun gd hgd => .pure (Screen.stays_grid h hgd)

theorem screenWriteInsertline_stays (h : s.InRows) (ny : ℕ) : Meets w s.Stays (screenWriteInsertline s ny) := by
  refine (editLines_stays trivial h (fun py ny => ?_) (fun rlower py ny => ?_) ny).forget
  · exact (gridViewInsertLines_edits (w := w.wrapping) hw trivial s.grid py ny).mono fun _ hgd => hgd.kept
  · exact (gridViewInsertLinesRegion_edits (w := w.wrapping) hw trivial s.grid rlower py ny).mono fun _ hgd => hgd.kept

theorem screenWriteDeleteline_stays (h : s.InRows) (ny : ℕ) : Meets w s.Stays (screenWriteDeleteline s ny) := by
  refine (editLines_stays trivial h (fun py ny => ?_) (fun rlower py ny => ?_) ny).forget
  · exact (gridViewDeleteLines_edits (w := w.wrapping) hw trivial s.grid py ny).mono fun _ hgd => hgd.kept
  · exact (gridViewDeleteLinesRegion_edits (w := w.wrapping) hw trivial s.grid rlower py ny).mono fun _ hgd => hgd.kept

/-! ## Clearing -/

theorem screenWriteClearline_stays (h : s.InRows) : Meets w s.Stays (screenWriteClearline s) :=
  (gridViewClear_edits hw s.grid _ _ _ _).bind fun _ hgd => .pure (Screen.stays_grid h hgd.kept)

theorem clearRight_kept (hx : 1 ≤ s.grid.sx) : Meets w s.grid.Kept (clearRight s) := by
  refine (meets_usub (.inr hx)).bind fun last hlast => ?_
  split_ifs with hcx
  · refine (meets_usub (.inr (by omega))).bind fun nx _ => ?_
    exact (gridViewClear_edits hw s.grid _ _ _ _).mono fun _ hgd => hgd.kept
  · exact .pure (.refl _)

theorem clearLeft_kept (hx : 1 ≤ s.grid.sx) (gd : Grid) : Meets w gd.Kept (clearLeft s gd) := by
  refine (meets_usub (.inr hx)).bind fun last hlast => ?_
  split_ifs
  · exact (gridViewClear_edits hw gd _ _ _ _).mono fun _ hgd => hgd.kept
  · exact (gridViewClear_edits hw gd _ _ _ _).mono fun _ hgd => hgd.kept

theorem screenWriteClearendofline_stays (h : s.InRows) (hx : 1 ≤ s.grid.sx) :
    Meets w s.Stays (screenWriteClearendofline s) :=
  (clearRight_kept hw hx).bind fun _ hgd => .pure (Screen.stays_grid h hgd)

theorem screenWriteClearstartofline_stays (h : s.InRows) (hx : 1 ≤ s.grid.sx) :
    Meets w s.Stays (screenWriteClearstartofline s) :=
  (clearLeft_kept hw hx s.grid).bind fun _ hgd => .pure (Screen.stays_grid h hgd)

/-- Scrolling the screen into the history, if it is on. -/
theorem gridViewClearHistory_kept (hon : s.grid.history = true) :
    Meets w s.grid.Kept (Exec.forget (gridViewClearHistory s.grid)) :=
  .forget <| (gridViewClearHistory_shape (w := w.wrapping) hw trivial s.grid).mono fun _ hgd =>
    ⟨hgd, fun hoff => absurd hon (by simp [hoff]), fun hoff => absurd hon (by simp [hoff])⟩

theorem screenWriteClearendofscreen_stays (h : s.InRows) (hx : 1 ≤ s.grid.sx) :
    Meets w s.Stays (screenWriteClearendofscreen s) := by
  unfold screenWriteClearendofscreen
  split_ifs with hon
  · exact (gridViewClearHistory_kept hw hon.2).bind fun _ hgd => .pure (Screen.stays_grid h hgd)
  · refine (clearRight_kept hw hx).bind fun gd₁ h₁ => ?_
    refine (meets_usub (w := w.wrapping) (.inl trivial)).forget.bind fun ny _ => ?_
    refine (gridViewClear_edits hw gd₁ _ _ _ _).bind fun gd₂ h₂ => .pure ?_
    exact Screen.stays_grid h (h₁.trans h₂.kept)

theorem screenWriteClearstartofscreen_stays (h : s.InRows) (hx : 1 ≤ s.grid.sx) :
    Meets w s.Stays (screenWriteClearstartofscreen s) := by
  refine (gridViewClear_edits hw s.grid _ _ _ _).bind fun gd₁ h₁ => ?_
  exact (clearLeft_kept hw hx gd₁).bind fun gd₂ h₂ => .pure (Screen.stays_grid h (h₁.kept.trans h₂))

theorem screenWriteClearscreen_stays (h : s.InRows) : Meets w s.Stays (screenWriteClearscreen s) := by
  unfold screenWriteClearscreen
  split_ifs with hon
  · exact (gridViewClearHistory_kept hw hon).bind fun _ hgd => .pure (Screen.stays_grid h hgd)
  · exact (gridViewClear_edits hw s.grid _ _ _ _).bind fun _ hgd => .pure (Screen.stays_grid h hgd.kept)

theorem screenWriteClearhistory_stays (h : s.InRows) : Meets w s.Stays (screenWriteClearhistory s) := by
  refine (gridMoveLines_edits hw s.grid _ _ _).bind fun gd hgd => .pure (Screen.stays_grid h ?_)
  exact ⟨⟨hgd.history, hgd.sx, hgd.sy, hgd.hlimit⟩, fun _ => hgd.length, fun _ => .inr rfl⟩

/-! ## Scrolling -/

theorem screenWriteReverseindex_stays (h : s.InRows) : Meets w s.Stays (screenWriteReverseindex s) := by
  have hcursor := h.cursor
  unfold screenWriteReverseindex
  split_ifs
  · exact (gridViewScrollRegionDown_edits (w := w.wrapping) hw trivial s.grid _ _).forget.bind
      fun gd hgd => .pure (Screen.stays_grid h hgd.kept)
  · exact .pure (Screen.stays_cursor h (.inl (le_refl _)) (by omega))
  · exact .pure (.refl h)

omit hw in
theorem screenWriteScrollregion_stays (h : s.InRows) (rupper rlower : ℕ) :
    Meets w s.Stays (screenWriteScrollregion s rupper rlower) := by
  have hcursor := h.cursor
  refine (meets_usub (w := w.wrapping) (.inl trivial)).forget.bind fun last hlast => ?_
  have hle := limit_le rlower last
  dsimp only
  split_ifs with hone
  · exact .pure (.refl h)
  · refine .pure ⟨⟨.refl _, ⟨?_, ?_, ?_, fun _ => ?_⟩, .inl rfl, rfl⟩, .inl (Nat.zero_le _)⟩
    all_goals dsimp only
    all_goals omega

theorem screenWriteLinefeed_stays (h : s.InRows) (wrapped : Bool) :
    Meets w s.Stays (screenWriteLinefeed s wrapped) := by
  have hcursor := h.cursor
  refine (updateRow_edits hw (fun _ => .pure trivial) s.grid _).bind fun gd hgd => ?_
  refine (meets_usub (w := w.wrapping) (.inl trivial)).forget.bind fun last hlast => ?_
  have hrow := Screen.stays_grid h hgd.kept
  split_ifs
  · refine (gridViewScrollRegionUp_kept (w := w.wrapping) hw trivial gd _ _).forget.bind fun gd' hgd' => .pure ?_
    exact Screen.stays_grid h (hgd.kept.trans hgd')
  · refine .pure (hrow.trans (Screen.stays_cursor hrow.rows (.inl (le_refl _)) ?_))
    rw [hgd.sy]
    omega
  · exact .pure hrow

end

end Tmux
