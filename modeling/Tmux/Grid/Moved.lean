import Tmux.Grid.Rows

/-!
# Moving lines and cells

A group of lines, or of cells of a line, is moved to a place that may overlap its old one
on either side. Each position is then in one of four classes: those of the destination
have the old content of the source, whether they were in the source or not, those of the
source only are default, and the others are unchanged (`LinesMoved`, `CellsMoved`). Both
moves have this result for every source and destination in the grid (`gridMove_moved`).
-/

namespace Tmux

/-- What moving `ny` lines from `py` to `dy` makes of a grid. -/
structure LinesMoved (g g' : Grid) (dy py ny : ℕ) : Prop where
  /-- Nothing but the lines changes, and none is added or lost. -/
  grid : ∃ linedata, g' = { g with linedata } ∧ linedata.length = g.linedata.length
  moved : ∀ i < ny, g'.linedata[dy + i]? = g.linedata[py + i]?
  vacated : ∀ y, py ≤ y ∧ y < py + ny → ¬(dy ≤ y ∧ y < dy + ny) → g'.linedata[y]? = some {}
  kept : ∀ y, ¬(py ≤ y ∧ y < py + ny) → ¬(dy ≤ y ∧ y < dy + ny) → g'.linedata[y]? = g.linedata[y]?

/-- What moving `nx` cells from `px` to `dx` makes of a line. -/
structure CellsMoved (gl gl' : GridLine) (dx px nx : ℕ) : Prop where
  wrapped : gl'.wrapped = gl.wrapped
  moved : ∀ i < nx, gl'.cell (dx + i) = gl.cell (px + i) ∧
    gl'.utf8data[dx + i]?.join = gl.utf8data[px + i]?.join
  /-- The UTF-8 data left behind is not shown, as the cell is none that has such data. -/
  vacated : ∀ x, px ≤ x ∧ x < px + nx → ¬(dx ≤ x ∧ x < dx + nx) →
    gl'.cell x = gridDefaultCell ∧ gl'.shown x = defaultShown
  kept : ∀ x, ¬(px ≤ x ∧ x < px + nx) → ¬(dx ≤ x ∧ x < dx + nx) →
    gl'.cell x = gl.cell x ∧ gl'.utf8data[x]?.join = gl.utf8data[x]?.join

variable {g : Grid} {gl : GridLine}

theorem gridMoveLines_moved (hlen : g.hsize + g.sy ≤ g.linedata.length) (hroom : g.hsize + g.sy < Exec.word)
    {dy py ny : ℕ} (hpy : py + ny ≤ g.hsize + g.sy) (hdy : dy + ny ≤ g.hsize + g.sy) :
    ∃ g', gridMoveLines g dy py ny = pure g' ∧ LinesMoved g g' dy py ny := by
  obtain ⟨linedata, hmove, hlen', hget⟩ := gridMoveLines_linedata hlen hroom dy py ny hpy hdy
  refine ⟨_, hmove, ⟨_, rfl, hlen'⟩, fun i hi => ?_, fun y hsrc hdst => ?_, fun y hsrc hdst => ?_⟩
  · have hdst : dy ≤ dy + i ∧ dy + i < dy + ny := by omega
    exact (hget (dy + i)).trans (by rw [if_pos hdst, Nat.add_sub_cancel_left])
  · exact (hget y).trans (by rw [if_neg hdst, if_pos hsrc])
  · exact (hget y).trans (by rw [if_neg hdst, if_neg hsrc])

theorem CellsMoved.refl (gl : GridLine) {dx px nx : ℕ} (h : nx = 0 ∨ px = dx) : CellsMoved gl gl dx px nx := by
  refine ⟨rfl, fun i hi => ?_, fun x hsrc hdst => ?_, fun _ _ _ => ⟨rfl, rfl⟩⟩
  · obtain rfl : px = dx := h.resolve_left (by omega)
    exact ⟨rfl, rfl⟩
  · rcases h with rfl | rfl
    · omega
    · exact absurd hsrc hdst

theorem moveCells_moved (gl : GridLine) {dx px nx : ℕ} (hdx : dx + nx < Exec.word)
    (hpx : px + nx < Exec.word) : ∃ gl', moveCells gl dx px nx = pure gl' ∧ CellsMoved gl gl' dx px nx := by
  obtain ⟨gl', hmove, hwrapped, -, hcell, hdata⟩ := moveCells_cells gl hdx hpx
  refine ⟨gl', hmove, hwrapped, fun i hi => ?_, fun x hsrc hdst => ?_, fun x hsrc hdst => ?_⟩
  · have hdst : dx ≤ dx + i ∧ dx + i < dx + nx := by omega
    rw [hcell, hdata, Splice.move, if_pos hdst, if_pos hdst, Nat.add_sub_cancel_left]
    exact ⟨rfl, rfl⟩
  · have hdefault : gl'.cell x = gridDefaultCell := by rw [hcell, Splice.move, if_neg hdst, if_pos hsrc]
    exact ⟨hdefault, GridLine.shown_of_cell hdefault⟩
  · rw [hcell, hdata, Splice.move, if_neg hdst, if_neg hsrc, if_neg hdst]
    exact ⟨rfl, rfl⟩

theorem gridMoveCells_moved (hroom : g.hsize + g.sy < Exec.word) {dx px py nx : ℕ}
    (hgl : g.linedata[py]? = some gl) (hpy : py < g.hsize + g.sy) (hdx : dx + nx < Exec.word)
    (hpx : px + nx < Exec.word) :
    ∃ gl', gridMoveCells g dx px py nx = pure (g.withLine py gl') ∧ CellsMoved gl gl' dx px nx := by
  unfold gridMoveCells
  by_cases hnone : nx = 0 ∨ px = dx
  · rw [if_pos hnone]
    exact ⟨gl, by rw [Grid.withLine_self hgl], .refl gl hnone⟩
  · rw [if_neg hnone, gridCheckY, Exec.uadd_of_lt hroom, decide_eq_true hpy, if_neg (by simp)]
    obtain ⟨gl', hmove, hmoved⟩ := moveCells_moved gl hdx hpx
    exact ⟨gl', updateRow_eq hgl hmove, hmoved⟩

/-- **Moves may overlap**: whatever lines or cells of a grid are moved, the destination has what the
    source had, the rest of the source is default, and the other positions are unchanged. -/
theorem gridMove_moved (hlen : g.hsize + g.sy ≤ g.linedata.length) (hroom : g.hsize + g.sy < Exec.word) :
    (∀ dy py ny, py + ny ≤ g.hsize + g.sy → dy + ny ≤ g.hsize + g.sy →
      ∃ g', gridMoveLines g dy py ny = pure g' ∧ LinesMoved g g' dy py ny) ∧
    ∀ dx px py nx, py < g.hsize + g.sy → px + nx < Exec.word → dx + nx < Exec.word →
      ∃ gl gl', g.linedata[py]? = some gl ∧ gridMoveCells g dx px py nx = pure (g.withLine py gl') ∧
        CellsMoved gl gl' dx px nx := by
  refine ⟨fun dy py ny hpy hdy => gridMoveLines_moved hlen hroom hpy hdy, fun dx px py nx hpy hpx hdx => ?_⟩
  have hlength : py < g.linedata.length := by omega
  have hgl : g.linedata[py]? = some g.linedata[py] := List.getElem?_eq_getElem hlength
  obtain ⟨gl', hmove, hmoved⟩ := gridMoveCells_moved hroom hgl hpy hdx hpx
  exact ⟨_, gl', hgl, hmove, hmoved⟩

/-- Three lines moved down by one, and two columns moved left by one. -/
theorem gridMove_moved_overlap :
    (∃ g', gridMoveLines (gridCreate 4 5 0) 1 0 3 = pure g' ∧ LinesMoved (gridCreate 4 5 0) g' 1 0 3) ∧
    ∃ gl gl', (gridCreate 4 5 0).linedata[2]? = some gl ∧
      gridMoveCells (gridCreate 4 5 0) 1 2 2 2 = pure ((gridCreate 4 5 0).withLine 2 gl') ∧
      CellsMoved gl gl' 1 2 2 := by
  have h := @gridMove_moved (gridCreate 4 5 0) (by decide) (by decide)
  exact ⟨h.1 1 0 3 (by decide) (by decide), h.2 1 2 2 2 (by decide) (by decide) (by decide)⟩

end Tmux
