import Tmux.Grid.Copy
import Tmux.Library.Splice

/-!
# What a line shows

A column of a line shows its cell, and its UTF-8 data if the cell has any
(`GridLine.shown`). The operations on the cells of a line are described by what they make
its columns show: expanding a line shows nothing else, moving cells (`moveCells_eq`) moves
what they show, and clearing them (`clearCells_eq`) makes them show a default cell.
-/

namespace Tmux

open Exec (uadd usub)

variable {gl : GridLine} {g : Grid} {dx px nx py ny n : ℕ}

/-- The cell read at a column of a line. -/
def GridLine.cell (gl : GridLine) (px : ℕ) : GridCell := gl.celldata[px]?.getD gridDefaultCell

/-- What a column of a line shows. -/
def GridLine.shown (gl : GridLine) (px : ℕ) : GridCell × Option GridUtf8 :=
  (gl.cell px, if (gl.cell px).isUtf8 then gl.utf8data[px]?.join else none)

/-- What a default cell shows. -/
def defaultShown : GridCell × Option GridUtf8 := (gridDefaultCell, none)

/-- Whether all columns of a line are default cells. -/
def GridLine.isBlank (gl : GridLine) : Bool := gl.celldata.all (· = gridDefaultCell)

theorem GridLine.shown_of_cell (h : gl.cell px = gridDefaultCell) : gl.shown px = defaultShown := by
  rw [shown, h]
  rfl

theorem GridLine.cell_of_length_le (h : gl.celldata.length ≤ px) : gl.cell px = gridDefaultCell := by
  rw [cell, List.getElem?_eq_none h, Option.getD_none]

/-- Two lines with the same cells and the same data show the same. -/
theorem GridLine.shown_congr {gl' : GridLine} (hcell : gl'.cell px = gl.cell px)
    (hdata : gl'.utf8data[px]?.join = gl.utf8data[px]?.join) : gl'.shown px = gl.shown px := by
  rw [shown, shown, hcell, hdata]

/-! ## Expanding a line -/

@[simp] theorem gridExpandLine_utf8data (gl : GridLine) (n : ℕ) : (gridExpandLine gl n).utf8data = gl.utf8data := by
  unfold gridExpandLine
  split_ifs <;> rfl

@[simp] theorem gridExpandLine_wrapped (gl : GridLine) (n : ℕ) : (gridExpandLine gl n).wrapped = gl.wrapped := by
  unfold gridExpandLine
  split_ifs <;> rfl

@[simp] theorem gridExpandLine_length (gl : GridLine) (n : ℕ) :
    (gridExpandLine gl n).celldata.length = max gl.celldata.length n := by
  unfold gridExpandLine
  split_ifs with hn
  · omega
  · rw [Block.length_resize]
    omega

@[simp] theorem gridExpandLine_cell (gl : GridLine) (n px : ℕ) : (gridExpandLine gl n).cell px = gl.cell px := by
  unfold gridExpandLine
  split_ifs with hn
  · rfl
  · rw [GridLine.cell, GridLine.cell, Block.getElem?_resize]
    split_ifs with hpx
    · rfl
    · rw [List.getElem?_eq_none (by omega)]

@[simp] theorem gridExpandLineUtf8_length (gl : GridLine) (n : ℕ) :
    (gridExpandLineUtf8 gl n).utf8data.length = max gl.utf8data.length n := by
  unfold gridExpandLineUtf8
  split_ifs with hn
  · omega
  · rw [Block.length_resize]
    omega

@[simp] theorem gridExpandLineUtf8_data (gl : GridLine) (n px : ℕ) :
    (gridExpandLineUtf8 gl n).utf8data[px]?.join = gl.utf8data[px]?.join := by
  unfold gridExpandLineUtf8
  split_ifs with hn
  · rfl
  · rw [Block.getElem?_resize]
    rcases lt_or_ge px gl.utf8data.length with hpx | hpx
    · rw [if_pos (by omega), List.getElem?_eq_getElem hpx, Option.getD_some]
    · rw [List.getElem?_eq_none hpx, Option.getD_none]
      split_ifs <;> rfl

/-! ## Setting cells -/

/-- A line with another cell in a column. -/
def GridLine.setCell (gl : GridLine) (px : ℕ) (gc : GridCell) : GridLine :=
  { gridExpandLine gl (px + 1) with celldata := (gridExpandLine gl (px + 1)).celldata.set px gc }

/-- A line with other UTF-8 data in a column. -/
def GridLine.setUtf8 (gl : GridLine) (px : ℕ) (gu : GridUtf8) : GridLine :=
  { gridExpandLineUtf8 gl (px + 1) with utf8data := (gridExpandLineUtf8 gl (px + 1)).utf8data.set px (some gu) }

@[simp] theorem gridExpandLineUtf8_celldata (gl : GridLine) (n : ℕ) :
    (gridExpandLineUtf8 gl n).celldata = gl.celldata := by
  unfold gridExpandLineUtf8
  split_ifs <;> rfl

@[simp] theorem gridExpandLineUtf8_cell (gl : GridLine) (n px : ℕ) : (gridExpandLineUtf8 gl n).cell px = gl.cell px := by
  rw [GridLine.cell, GridLine.cell, gridExpandLineUtf8_celldata]

@[simp] theorem GridLine.setCell_utf8data (gl : GridLine) (px : ℕ) (gc : GridCell) :
    (gl.setCell px gc).utf8data = gl.utf8data := gridExpandLine_utf8data gl (px + 1)

@[simp] theorem GridLine.setCell_length (gl : GridLine) (px : ℕ) (gc : GridCell) :
    (gl.setCell px gc).celldata.length = max gl.celldata.length (px + 1) := by
  rw [setCell, List.length_set, gridExpandLine_length]

theorem GridLine.setCell_cell (gl : GridLine) (px : ℕ) (gc : GridCell) (x : ℕ) :
    (gl.setCell px gc).cell x = if x = px then gc else gl.cell x := by
  have hpx : px < (gridExpandLine gl (px + 1)).celldata.length := by
    rw [gridExpandLine_length]
    omega
  rw [setCell, cell]
  dsimp only
  split_ifs with hx
  · rw [hx, List.getElem?_set_self hpx, Option.getD_some]
  · rw [List.getElem?_set_ne (Ne.symm hx), ← cell, gridExpandLine_cell]

@[simp] theorem GridLine.setUtf8_cell (gl : GridLine) (px : ℕ) (gu : GridUtf8) (x : ℕ) :
    (gl.setUtf8 px gu).cell x = gl.cell x := gridExpandLineUtf8_cell gl (px + 1) x

@[simp] theorem GridLine.setUtf8_celldata (gl : GridLine) (px : ℕ) (gu : GridUtf8) :
    (gl.setUtf8 px gu).celldata = gl.celldata := gridExpandLineUtf8_celldata gl (px + 1)

theorem GridLine.setUtf8_data (gl : GridLine) (px : ℕ) (gu : GridUtf8) (x : ℕ) :
    (gl.setUtf8 px gu).utf8data[x]?.join = if x = px then some gu else gl.utf8data[x]?.join := by
  have hpx : px < (gridExpandLineUtf8 gl (px + 1)).utf8data.length := by
    rw [gridExpandLineUtf8_length]
    omega
  rw [setUtf8]
  dsimp only
  split_ifs with hx
  · rw [hx, List.getElem?_set_self hpx]
    rfl
  · rw [List.getElem?_set_ne (Ne.symm hx), gridExpandLineUtf8_data]

theorem gridPutCell_eq (gl : GridLine) (px : ℕ) (gc : GridCell) :
    gridPutCell (gridExpandLine gl (px + 1)) px gc = pure (gl.setCell px gc) := by
  rw [gridPutCell, Block.store_eq (by rw [gridExpandLine_length]; omega), pure_bind, GridLine.setCell]

theorem gridPutUtf8_eq (gl : GridLine) (px : ℕ) (gu : GridUtf8) :
    gridPutUtf8 (gridExpandLineUtf8 gl (px + 1)) px gu = pure (gl.setUtf8 px gu) := by
  rw [gridPutUtf8, Block.store_eq (by rw [gridExpandLineUtf8_length]; omega), pure_bind, GridLine.setUtf8]

/-! ## Moving cells -/

theorem moveUtf8_eq (gl : GridLine) (hdx : dx + nx < Exec.word) (hpx : px + nx < Exec.word) :
    ∃ utf8data, moveUtf8 gl dx px nx = pure utf8data ∧ ∀ x, utf8data[x]?.join =
      if dx ≤ x ∧ x < dx + nx then gl.utf8data[px + (x - dx)]?.join else gl.utf8data[x]?.join := by
  unfold moveUtf8
  split_ifs with hnone
  · refine ⟨[], rfl, fun x => ?_⟩
    rw [hnone]
    split_ifs <;> rfl
  · rw [Exec.uadd_of_lt hpx, Exec.uadd_of_lt hdx]
    obtain ⟨l, hmove, -, hget⟩ := Block.move_eq
      (gridExpandLineUtf8 (gridExpandLineUtf8 gl (px + nx)) (dx + nx)).utf8data dx px nx
      (by rw [gridExpandLineUtf8_length]; omega)
      (by rw [gridExpandLineUtf8_length, gridExpandLineUtf8_length]; omega)
    refine ⟨l, hmove, fun x => ?_⟩
    rw [hget]
    split_ifs <;> simp

/-- Moving cells of a line moves their UTF-8 data with them, and leaves default cells. -/
theorem moveCells_cells (gl : GridLine) (hdx : dx + nx < Exec.word) (hpx : px + nx < Exec.word) :
    ∃ gl', moveCells gl dx px nx = pure gl' ∧ gl'.wrapped = gl.wrapped ∧
      gl'.celldata.length = max gl.celldata.length (max (dx + nx) (px + nx)) ∧
      gl'.cell = Splice.move gridDefaultCell dx px nx gl.cell ∧ ∀ x, gl'.utf8data[x]?.join =
        if dx ≤ x ∧ x < dx + nx then gl.utf8data[px + (x - dx)]?.join else gl.utf8data[x]?.join := by
  unfold moveCells
  rw [Exec.uadd_of_lt hpx, Exec.uadd_of_lt hdx]
  dsimp only
  obtain ⟨l₁, h₁, hlen₁, hget₁⟩ := Block.move_eq
    (gridExpandLine (gridExpandLine gl (px + nx)) (dx + nx)).celldata dx px nx
    (by rw [gridExpandLine_length]; omega)
    (by rw [gridExpandLine_length, gridExpandLine_length]; omega)
  obtain ⟨u, hu, hdata⟩ := moveUtf8_eq (gridExpandLine (gridExpandLine gl (px + nx)) (dx + nx)) hdx hpx
  obtain ⟨l₂, h₂, hlen₂, hget₂⟩ := Block.fill_eq (a := gridDefaultCell) (l := l₁)
    (p := fun xx => !(decide (dx ≤ xx) && decide (xx < dx + nx))) (i := px) (n := nx)
    (by rw [hlen₁, gridExpandLine_length, gridExpandLine_length]; omega)
  refine ⟨_, by rw [h₁, pure_bind, hu, pure_bind, Nat.add_sub_cancel_left, h₂, pure_bind], by simp, ?_, ?_,
    fun x => by simpa using hdata x⟩
  · rw [hlen₂, hlen₁, gridExpandLine_length, gridExpandLine_length]
    omega
  · funext x
    have hcell : ∀ y, (gridExpandLine (gridExpandLine gl (px + nx)) (dx + nx)).celldata[y]?.getD gridDefaultCell =
        gl.cell y := fun y => by
      rw [← GridLine.cell, gridExpandLine_cell, gridExpandLine_cell]
    rw [Splice.move, GridLine.cell]
    dsimp only
    rw [hget₂]
    by_cases hdst : dx ≤ x ∧ x < dx + nx
    · rw [if_pos hdst, if_neg (by simp; omega), hget₁, if_pos hdst, hcell]
    · rw [if_neg hdst]
      split_ifs with hfill hsrc hsrc
      · rfl
      · exact absurd ⟨hfill.1, hfill.2.1⟩ hsrc
      · exact absurd ⟨hsrc.1, hsrc.2, by simp; omega⟩ hfill
      · rw [hget₁, if_neg hdst, hcell]

/-- Moving cells moves what they show, and leaves default cells. -/
theorem moveCells_eq (gl : GridLine) (hdx : dx + nx < Exec.word) (hpx : px + nx < Exec.word) :
    ∃ gl', moveCells gl dx px nx = pure gl' ∧
      gl'.celldata.length = max gl.celldata.length (max (dx + nx) (px + nx)) ∧
      gl'.shown = Splice.move defaultShown dx px nx gl.shown := by
  obtain ⟨gl', hmove, -, hlen, hcell, hdata⟩ := moveCells_cells gl hdx hpx
  refine ⟨gl', hmove, hlen, funext fun x => ?_⟩
  have hcell := congrFun hcell x
  have hdata := hdata x
  rw [Splice.move] at hcell ⊢
  split_ifs at hcell hdata ⊢ with hdst hsrc
  · rw [GridLine.shown, GridLine.shown, hcell, hdata]
  · exact GridLine.shown_of_cell hcell
  · exact GridLine.shown_congr hcell hdata

/-! ## Clearing cells -/

/-- Clearing cells of a line, up to a column that is not before the first one. -/
theorem clearCells_eq (gl : GridLine) (px : ℕ) {hi : ℕ} (hpx : px ≤ hi) (hhi : hi < Exec.word) :
    ∃ gl', clearCells gl px (hi - px) = pure gl' ∧ gl'.shown = Splice.fill defaultShown px hi gl.shown := by
  unfold clearCells
  rw [Exec.uadd_of_lt (by omega), Nat.add_sub_cancel' hpx]
  by_cases hstart : px ≥ gl.celldata.length
  · rw [if_pos hstart]
    refine ⟨gl, rfl, funext fun x => ?_⟩
    rw [Splice.fill]
    split_ifs with hx
    · exact GridLine.shown_of_cell (GridLine.cell_of_length_le (by omega))
    · rfl
  · rw [if_neg hstart]
    by_cases hend : hi ≥ gl.celldata.length
    · rw [if_pos hend]
      refine ⟨_, rfl, funext fun x => ?_⟩
      rw [Splice.fill]
      rcases lt_or_ge x px with hx | hx
      · rw [if_neg (by omega)]
        refine GridLine.shown_congr ?_ rfl
        rw [GridLine.cell, GridLine.cell]
        dsimp only
        rw [List.getElem?_take, if_pos hx]
      · have hcut : (⟨gl.celldata.take px, gl.utf8data, gl.wrapped⟩ : GridLine).shown x = defaultShown := by
          refine GridLine.shown_of_cell (GridLine.cell_of_length_le ?_)
          rw [List.length_take]
          omega
        rw [hcut]
        split_ifs with hhi
        · rfl
        · exact (GridLine.shown_of_cell (GridLine.cell_of_length_le (by omega))).symm
    · rw [if_neg hend]
      obtain ⟨l, hfill, -, hget⟩ := Block.fill_eq (a := gridDefaultCell) (p := fun _ => true)
        (l := gl.celldata) (i := px) (n := hi - px) (by omega)
      refine ⟨_, by rw [hfill, pure_bind], funext fun x => ?_⟩
      rw [Splice.fill]
      split_ifs with hx
      · refine GridLine.shown_of_cell ?_
        rw [GridLine.cell]
        dsimp only
        rw [hget, if_pos ⟨hx.1, by omega, rfl⟩, Option.getD_some]
      · refine GridLine.shown_congr ?_ rfl
        rw [GridLine.cell, GridLine.cell]
        dsimp only
        rw [hget, if_neg (by omega)]

end Tmux
