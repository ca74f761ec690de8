import Tmux.Copy.Copied
import Tmux.Input.Operation
import Tmux.Screen.Data

/-!
# The UTF-8 cells of a pane

Whatever is done to the screen of a pane and to its grids (`PaneOperation`), starting from an
empty screen, every UTF-8 cell has its data, in the history, on the screen and in the lines saved
for after the alternate screen (`paneRun_backed`). So none of what reads the data of a cell
without looking whether it is there ever reads data that is missing.

A grid operation that sets a UTF-8 cell sets its data as well, as all writers do.
-/

namespace Tmux

open Exec (Meets usub meets_all)

variable {s : Screen} {g : Grid} {wp : PaneScreen}

/-- A cell that has no UTF-8 data. -/
abbrev PlainCell : Type := { gc : GridCell // gc.isUtf8 = false }

/-- The operations on a grid. -/
inductive GridOperation
  | getCell (px py : ℕ)
  | setCell (px py : ℕ) (gc : PlainCell)
  | getUtf8 (px py : ℕ)
  | setUtf8 (px py : ℕ) (gu : GridUtf8)
  /-- Set a cell on the screen, and its data if it has any. -/
  | putCharacter (px py : ℕ) (gc : GridCell) (utf8data : Option Utf8Data)
  | clear (px py nx ny : ℕ)
  | clearLines (py ny : ℕ)
  | moveLines (dy py ny : ℕ)
  | moveCells (dx px py nx : ℕ)
  | collectHistory
  | scrollHistory
  | scrollHistoryRegion (upper lower : ℕ)
  deriving DecidableEq

/-- Carry out an operation on a grid. -/
def performGrid (g : Grid) : GridOperation → Exec Grid
  | .getCell px py => do
    let found ← gridGetCell g px py
    pure ((found.map Prod.fst).getD g)
  | .setCell px py gc => gridSetCell g px py gc
  | .getUtf8 px py => do
    let found ← gridGetUtf8 g px py
    pure ((found.map Prod.fst).getD g)
  | .setUtf8 px py gu => gridSetUtf8 g px py gu
  | .putCharacter px py gc utf8data => putCharacter g px py gc utf8data
  | .clear px py nx ny => gridClear g px py nx ny
  | .clearLines py ny => gridClearLines g py ny
  | .moveLines dy py ny => gridMoveLines g dy py ny
  | .moveCells dx px py nx => gridMoveCells g dx px py nx
  | .collectHistory => gridCollectHistory g
  | .scrollHistory => gridScrollHistory g
  | .scrollHistoryRegion upper lower => gridScrollHistoryRegion g upper lower

/-- What is done to the screen of a pane and to its grids. -/
inductive PaneOperation
  /-- An operation that input asks for. -/
  | input (op : Operation)
  | vnputs (maxlen : ℤ) (gc : GridCell) (utf8flag : Bool) (msg : List UInt8)
  | cnputs (maxlen : ℤ) (gc : GridCell) (utf8flag : Bool) (msg : List UInt8)
  | copy (src : Screen) (px py nx ny : ℕ)
  | reinit
  | resize (sx sy : ℕ)
  | grid (op : GridOperation)
  | savedGrid (op : GridOperation)
  /-- Duplicate lines of the grid in the one saved. -/
  | save (dy sy ny : ℕ)
  /-- Duplicate lines of the grid saved. -/
  | restore (dy sy ny : ℕ)
  deriving DecidableEq

/-- Do something to the grid saved, if there is one. -/
def PaneScreen.updateSaved (wp : PaneScreen) (f : Grid → Exec Grid) : Exec PaneScreen :=
  match wp.savedGrid with
  | none => pure wp
  | some saved => do
    let saved ← f saved
    pure { wp with savedGrid := some saved }

/-- Do something to the screen of a pane. -/
def PaneScreen.updateBase (wp : PaneScreen) (f : Screen → Exec Screen) : Exec PaneScreen := do
  let base ← f wp.base
  pure { wp with base }

/-- Do something to the grid of a pane. -/
def PaneScreen.updateGrid (wp : PaneScreen) (f : Grid → Exec Grid) : Exec PaneScreen :=
  wp.updateBase fun s => do
    let grid ← f s.grid
    pure { s with grid }

/-- Carry out an operation on a pane. -/
def performPane (wp : PaneScreen) : PaneOperation → Exec PaneScreen
  | .input op => perform wp op
  | .vnputs maxlen gc utf8flag msg => wp.updateBase (screenWriteVnputs · maxlen gc utf8flag msg)
  | .cnputs maxlen gc utf8flag msg => wp.updateBase (screenWriteCnputs · maxlen gc utf8flag msg)
  | .copy src px py nx ny => wp.updateBase (screenWriteCopy · src px py nx ny)
  | .reinit => wp.updateBase screenReinit
  | .resize sx sy => windowPaneResize wp sx sy
  | .grid op => wp.updateGrid (performGrid · op)
  | .savedGrid op => wp.updateSaved (performGrid · op)
  | .save dy sy ny => wp.updateSaved fun saved => gridDuplicateLines saved dy wp.base.grid sy ny
  | .restore dy sy ny =>
    match wp.savedGrid with
    | none => pure wp
    | some saved => wp.updateGrid fun g => gridDuplicateLines g dy saved sy ny

/-- A run of operations on the screen of a new pane. -/
def paneRun (title : List UInt8) (sx sy hlimit : ℕ) (alternateScreen : Bool) (ops : List PaneOperation) :
    Exec PaneScreen := do
  let wp ← paneScreenCreate title sx sy hlimit alternateScreen
  ops.foldlM performPane wp

/-! ## Operations that input asks for -/

theorem screenWriteCursorup_backed (h : s.Backed) (ny : ℕ) : Meets .all Screen.Backed (screenWriteCursorup s ny) :=
  (meets_all _).bind fun _ _ => (meets_all _).bind fun _ _ => .pure h

theorem screenWriteCursordown_backed (h : s.Backed) (ny : ℕ) :
    Meets .all Screen.Backed (screenWriteCursordown s ny) := (meets_all _).bind fun _ _ => .pure h

theorem screenWriteBackspace_backed (h : s.Backed) : Meets .all Screen.Backed (screenWriteBackspace s) := by
  unfold screenWriteBackspace
  split_ifs
  · exact .pure h
  · refine (meets_all _).bind fun gl _ => ?_
    split_ifs
    · exact (meets_all _).bind fun _ _ => .pure h
    · exact .pure h
  · exact .pure h

theorem tabRight_backed (h : s.Backed) : Meets .all Screen.Backed (tabRight s) := by
  refine (meets_all _).bind fun last _ => ?_
  split_ifs
  · exact .pure h
  · exact (meets_all _).bind fun _ _ => .pure h

theorem putTab_backed (h : s.Backed) (b : Bool) : Meets .all Screen.Backed (putTab s b) := by
  unfold putTab
  split_ifs
  · exact (meets_all _).bind fun _ _ => .pure h
  · exact .pure h

theorem setScreenMode_backed (h : s.Backed) (mode : ℤ) (state : Bool) :
    Meets .all Screen.Backed (setScreenMode s mode state) := by
  unfold setScreenMode
  split
  case h_2 => exact (screenWriteCursormove_backed h 0 0).bind fun _ h₁ => screenWriteClearscreen_backed h₁
  all_goals try split_ifs
  all_goals exact .pure h

theorem eraseDisplay_backed (h : s.Backed) (params : List ℤ) : Meets .all Screen.Backed (eraseDisplay s params) := by
  unfold eraseDisplay
  split
  · exact screenWriteClearendofscreen_backed h
  · exact screenWriteClearstartofscreen_backed h
  · exact screenWriteClearscreen_backed h
  · split_ifs
    · exact screenWriteClearhistory_backed h
    · exact .pure h
  · exact .pure h

theorem eraseLine_backed (h : s.Backed) (params : List ℤ) : Meets .all Screen.Backed (eraseLine s params) := by
  unfold eraseLine
  split
  · exact screenWriteClearendofline_backed h
  · exact screenWriteClearstartofline_backed h
  · exact screenWriteClearline_backed h
  · exact .pure h

theorem tabClear_backed (h : s.Backed) (params : List ℤ) : Meets .all Screen.Backed (tabClear s params) := by
  unfold tabClear
  split
  · exact putTab_backed h false
  · exact (meets_all _).bind fun _ _ => (meets_all _).bind fun _ _ => .pure h
  · exact .pure h

theorem screenCsi_backed (h : s.Backed) (params : List ℤ) (type : InputCsiType) :
    Meets .all Screen.Backed (screenCsi s params type) := by
  have hreturn : (screenWriteCarriagereturn s).Backed := h
  cases type with
  | cbt => exact (meets_all _).bind fun _ _ => .pure h
  | cub => exact (meets_all _).bind fun _ _ => .pure h
  | cud => exact screenWriteCursordown_backed h _
  | cuf => exact (meets_all _).bind fun _ _ => (meets_all _).bind fun _ _ => .pure h
  | cup => exact screenWriteCursormove_backed h _ _
  | cuu => exact screenWriteCursorup_backed h _
  | cnl => exact screenWriteCursordown_backed hreturn _
  | cpl => exact screenWriteCursorup_backed hreturn _
  | dch => exact screenWriteDeletecharacter_backed h _
  | decstbm => exact screenWriteScrollregion_backed h _ _
  | dl => exact screenWriteDeleteline_backed h _
  | ed => exact eraseDisplay_backed h params
  | el => exact eraseLine_backed h params
  | hpa => exact screenWriteCursormove_backed h _ _
  | ich => exact screenWriteInsertcharacter_backed h _
  | il => exact screenWriteInsertline_backed h _
  | tbc => exact tabClear_backed h params
  | vpa => exact screenWriteCursormove_backed h _ _
  | decscusr =>
    refine .pure ?_
    unfold screenSetCursorStyle
    split_ifs
    · exact h
    · exact h
  | da | daTwo | dsr | rcp | rm | rmPrivate | scp | sgr | sm | smPrivate => exact .pure h

theorem performScreen_backed (h : s.Backed) (op : Operation) : Meets .all Screen.Backed (performScreen s op) := by
  have hreturn : (screenWriteCarriagereturn s).Backed := h
  cases op with
  | command type params => exact screenCsi_backed h params type
  | write gc utf8data => exact screenWriteCell_backed h gc utf8data
  | backspace => exact screenWriteBackspace_backed h
  | tab => exact tabRight_backed h
  | linefeed => exact screenWriteLinefeed_backed h false
  | nextLine => exact screenWriteLinefeed_backed hreturn false
  | setTab => exact putTab_backed h true
  | reverseIndex => exact screenWriteReverseindex_backed h
  | cursorTo cx cy => exact screenWriteCursormove_backed h cx cy
  | alignmentTest => exact screenWriteAlignmenttest_backed h
  | reset => exact screenWriteReset_backed h
  | privateMode mode state => exact setScreenMode_backed h mode state
  | keypad _ | insertMode _ | carriageReturn | keep | alternateOn _ | alternateOff => exact .pure h

theorem perform_backed (h : wp.Backed) (op : Operation) : Meets .all PaneScreen.Backed (perform wp op) := by
  have hbase : ∀ op, Meets .all PaneScreen.Backed ((fun base => { wp with base }) <$> performScreen wp.base op) :=
    fun op => Exec.meets_map.2 <| (performScreen_backed h.base op).mono fun _ h₁ => ⟨h₁, h.saved⟩
  cases op with
  | alternateOn gc => exact windowPaneAlternateOn_backed h gc
  | alternateOff => exact Exec.meets_map.2 (windowPaneAlternateOff_backed h)
  | _ => exact hbase _

/-! ## Runs -/

/-- Putting a found grid in the place of a grid. -/
theorem found_backed {α : Type} {Q : Grid × α → Prop} {found : Option (Grid × α)} (h : g.Every GridLine.Backed)
    (hfound : ∀ p ∈ found, p.1.Every GridLine.Backed ∧ Q p) : ((found.map Prod.fst).getD g).Every GridLine.Backed := by
  cases found with
  | none => exact h
  | some p => exact (hfound p rfl).1

theorem performGrid_backed (h : g.Every GridLine.Backed) (op : GridOperation) :
    Meets .all (Grid.Every GridLine.Backed) (performGrid g op) := by
  cases op with
  | getCell px py => exact (gridGetCell_backed h px py).bind fun found hfound => .pure (found_backed h hfound)
  | setCell px py gc =>
    exact (gridSetCell_backed h fun hutf8 => by rw [gc.2] at hutf8; cases hutf8).mono fun _ hg => hg.1
  | getUtf8 px py => exact (gridGetUtf8_backed h px py).bind fun found hfound => .pure (found_backed h hfound)
  | setUtf8 px py gu => exact gridSetUtf8_keeps h px py gu
  | putCharacter px py gc utf8data => exact putCharacter_backed h px py gc utf8data
  | clear px py nx ny => exact gridClear_backed h px py nx ny
  | clearLines py ny => exact gridClearLines_every .empty h py ny
  | moveLines dy py ny => exact gridMoveLines_every .empty h dy py ny
  | moveCells dx px py nx => exact gridMoveCells_backed h dx px py nx
  | collectHistory => exact gridCollectHistory_every .empty h
  | scrollHistory => exact gridScrollHistory_every .empty h
  | scrollHistoryRegion upper lower => exact gridScrollHistoryRegion_every .empty h upper lower

theorem PaneScreen.Backed.updateBase (h : wp.Backed) {f : Screen → Exec Screen}
    (hf : Meets .all Screen.Backed (f wp.base)) : Meets .all PaneScreen.Backed (wp.updateBase f) :=
  hf.bind fun _ h₁ => .pure ⟨h₁, h.saved⟩

theorem PaneScreen.Backed.updateGrid (h : wp.Backed) {f : Grid → Exec Grid}
    (hf : Meets .all (Grid.Every GridLine.Backed) (f wp.base.grid)) : Meets .all PaneScreen.Backed (wp.updateGrid f) :=
  h.updateBase (hf.bind fun _ hg => .pure hg)

theorem PaneScreen.Backed.updateSaved (h : wp.Backed) {f : Grid → Exec Grid}
    (hf : ∀ g, g.Every GridLine.Backed → Meets .all (Grid.Every GridLine.Backed) (f g)) :
    Meets .all PaneScreen.Backed (wp.updateSaved f) := by
  unfold PaneScreen.updateSaved
  split
  · exact .pure h
  · next saved hsaved =>
    refine (hf saved (h.saved saved hsaved)).bind fun g hg => .pure ⟨h.base, ?_⟩
    rintro _ ⟨⟩
    exact hg

theorem performPane_backed (h : wp.Backed) (op : PaneOperation) : Meets .all PaneScreen.Backed (performPane wp op) := by
  cases op with
  | input op => exact perform_backed h op
  | vnputs maxlen gc utf8flag msg => exact h.updateBase (nputsFrom_backed h.base none maxlen utf8flag _ msg 0 gc)
  | cnputs maxlen gc utf8flag msg => exact h.updateBase (nputsFrom_backed h.base (some gc) maxlen utf8flag _ msg 0 gc)
  | copy src px py nx ny => exact h.updateBase (screenWriteCopy_backed h.base src px py nx ny)
  | reinit => exact h.updateBase (screenReinit_backed h.base)
  | resize sx sy => exact windowPaneResize_backed h sx sy
  | grid op => exact h.updateGrid (f := (performGrid · op)) (performGrid_backed h.base op)
  | savedGrid op => exact h.updateSaved fun _ hg => performGrid_backed hg op
  | save dy sy ny => exact h.updateSaved fun _ hg => gridDuplicateLines_every .empty hg h.base dy sy ny
  | restore dy sy ny =>
    cases hsaved : wp.savedGrid with
    | none =>
      simp only [performPane, hsaved]
      exact .pure h
    | some saved =>
      simp only [performPane, hsaved]
      exact h.updateGrid (f := (gridDuplicateLines · dy saved sy ny))
        (gridDuplicateLines_every .empty h.base (h.saved saved hsaved) dy sy ny)

theorem paneRun_meets (title : List UInt8) (sx sy hlimit : ℕ) (alternateScreen : Bool) (ops : List PaneOperation) :
    Meets .all PaneScreen.Backed (paneRun title sx sy hlimit alternateScreen ops) := by
  have hcreate : Meets .all PaneScreen.Backed (paneScreenCreate title sx sy hlimit alternateScreen) :=
    (screenInit_backed title sx sy hlimit).bind fun s h => .pure ⟨h, by simp⟩
  exact hcreate.bind fun wp h => Meets.foldlM h fun _ op _ h₁ => performPane_backed h₁ op

/-- The grids of a pane. -/
def PaneScreen.grids (wp : PaneScreen) : List Grid := wp.base.grid :: wp.savedGrid.toList

/-- After any operations on a new pane, the UTF-8 data of every UTF-8 cell of its grids was written,
    and reading it gives the data. -/
theorem paneRun_backed {title : List UInt8} {sx sy hlimit : ℕ} {alternateScreen : Bool} {ops : List PaneOperation}
    (hrun : (paneRun title sx sy hlimit alternateScreen ops).value? = some wp) :
    ∀ g ∈ wp.grids,
      (∀ gl ∈ g.linedata, ∀ x gc, gl.celldata[x]? = some gc → gc.isUtf8 = true →
        x < gl.utf8data.length ∧ ∃ gu, gl.utf8data[x]? = some (some gu)) ∧
      ∀ px py gc, (gridPeekCell g px py).value? = some gc → gc.isUtf8 = true →
        ∃ gu, gridPeekUtf8 g px py = pure (some (some gu)) := by
  have h := (paneRun_meets title sx sy hlimit alternateScreen ops).value hrun
  have hgrids : ∀ g ∈ wp.grids, g.Every GridLine.Backed := fun g hg => by
    rcases List.mem_cons.1 hg with rfl | hg
    · exact h.base
    · exact h.saved g (by simpa using hg)
  refine fun g hg => ⟨fun gl hgl x gc hgc hutf8 => ?_, fun px py gc hgc hutf8 => gridPeekUtf8_backed (hgrids g hg) hgc hutf8⟩
  obtain ⟨gu, hgu⟩ := hgrids g hg gl hgl x (by rwa [GridLine.cell, hgc, Option.getD_some])
  exact ⟨(List.getElem?_eq_some_iff.1 hgu).1, gu, hgu⟩

/-- A wide character is written, a mark is combined onto a letter, cells are moved over them, the
    alternate screen is entered, another character is written there and the line saved is copied back. -/
def sampleRun : Exec PaneScreen :=
  paneRun [] 6 2 10 true
    [.input (.write { gridDefaultCell with flags := gridFlagUtf8 } (some { data := [0xe4, 0xb8, 0xad], size := 3, width := 2 })),
      .input (.write { gridDefaultCell with data := 97 } none),
      .input (.write { gridDefaultCell with flags := gridFlagUtf8 } (some { data := [0xcc, 0x81], size := 2, width := 0 })),
      .grid (.moveCells 1 0 0 3), .input (.alternateOn gridDefaultCell),
      .input (.write { gridDefaultCell with flags := gridFlagUtf8 } (some { data := [0xc3, 0xa9], size := 2, width := 1 })),
      .restore 1 0 1]

theorem paneRun_backed_sample : ∃ wp, sampleRun.value? = some wp ∧
    (∃ g ∈ wp.grids, ∃ gl ∈ g.linedata, ((gl.cell 1).isUtf8 && (gl.cell 3).isUtf8) = true) ∧
    ∀ g ∈ wp.grids, (∀ gl ∈ g.linedata, ∀ x gc, gl.celldata[x]? = some gc → gc.isUtf8 = true →
        x < gl.utf8data.length ∧ ∃ gu, gl.utf8data[x]? = some (some gu)) ∧
      ∀ px py gc, (gridPeekCell g px py).value? = some gc → gc.isUtf8 = true →
        ∃ gu, gridPeekUtf8 g px py = pure (some (some gu)) := by
  have hwide : sampleRun.value?.any (fun wp => wp.grids.any fun g => g.linedata.any fun gl =>
      (gl.cell 1).isUtf8 && (gl.cell 3).isUtf8) = true := by decide +kernel
  obtain ⟨wp, hwp, hwide⟩ := (Option.any_eq_true _ _).1 hwide
  obtain ⟨g, hg, hwide⟩ := List.any_eq_true.1 hwide
  exact ⟨wp, hwp, ⟨g, hg, List.any_eq_true.1 hwide⟩, paneRun_backed hwp⟩

end Tmux
