import Tmux.Grid.Rows

/-!
# Inserting and deleting cells

Inserting and deleting cells of a row of the screen moves the others up to the right edge,
and what they show with them. Deleting clears the cells left alone
(`gridViewDeleteCells_row`), inserting does so in the last column only: cells that are
neither moved nor written over stay, if more are inserted than there are after them
(`cellEdit_iff`).
-/

namespace Tmux

open Exec (uadd usub)

variable {g g' : Grid} {gl gl' : GridLine} {px py nx : ℕ}

/-- Insert or delete cells of a row of the screen. -/
def gridViewEditCells (gd : Grid) (px py nx : ℕ) : Splice.Edit → Exec Grid
  | .insert => gridViewInsertCells gd px py nx
  | .delete => gridViewDeleteCells gd px py nx

/-- What inserting or deleting cells makes of a grid. -/
structure Grid.CellsEdited (g : Grid) (px py nx : ℕ) (edit : Splice.Edit) (g' : Grid) : Prop
    extends Grid.LineEdited (g.hsize + py) g g' where
  cells : ∃ gl ∈ g.row py, ∃ gl' ∈ g'.row py, edit.Done (· = defaultShown) px nx g.sx gl.shown gl'.shown

/-- A cell is left as it is where a default one is inserted, not in the last column. -/
def Grid.KeepsCell (g : Grid) (px py nx : ℕ) : Prop :=
  px + 1 ≠ g.sx ∧ ∃ gl ∈ g.row py, ∃ x, g.sx ≤ x + nx ∧ x < px + nx ∧ gl.shown x ≠ defaultShown

section

variable (h : g.Whole) (hsx : g.sx < Exec.word) (hpy : py < g.sy) (hgl : g.row py = some gl)
  (hpos : 1 ≤ nx) (hnx : px + nx ≤ g.sx)

include h hsx hpy hgl hpos hnx

/-- In the last column, inserting a cell clears it. -/
theorem gridViewInsertCells_last (hlast : px + 1 = g.sx) :
    ∃ gl', (gridViewInsertCells g px py nx).value? = some (g.withLine (g.hsize + py) gl') ∧
      ∀ x < g.sx, gl'.shown x = Splice.fill defaultShown px (px + nx) gl.shown x := by
  obtain ⟨gl', hval, hshown⟩ := gridClear_row h hsx hpy hgl (by omega : px < g.sx) (by omega : px + 1 ≤ g.sx)
  rw [Exec.usub_of_le (by omega), pure_bind, Nat.add_sub_cancel_left] at hval
  refine ⟨gl', ?_, by rwa [show nx = 1 by omega]⟩
  rw [gridViewInsertCells, gridViewY_eq h hpy.le, Exec.usub_of_le (by omega), pure_bind, if_pos (by omega)]
  exact hval

/-- In other columns, inserting cells moves others but clears none. -/
theorem gridViewInsertCells_row (hlast : px + 1 ≠ g.sx) :
    ∃ gl', (gridViewInsertCells g px py nx).value? = some (g.withLine (g.hsize + py) gl') ∧
      gl'.shown = Splice.move defaultShown (px + nx) px (g.sx - px - nx) gl.shown := by
  obtain ⟨gl', hmove, hshown⟩ := gridMoveCells_row h hpy hgl
    (by omega : px + nx + (g.sx - px - nx) < Exec.word) (by omega : px + (g.sx - px - nx) < Exec.word)
  refine ⟨gl', ?_, hshown⟩
  rw [gridViewInsertCells, gridViewY_eq h hpy.le, Exec.usub_of_le (by omega), pure_bind, if_neg (by omega),
    Exec.usub_of_le (by omega), pure_bind, Exec.usub_of_le (by omega), pure_bind, Exec.uadd_of_lt (by omega), hmove]
  rfl

/-- Deleting cells moves those after them, and clears the others. -/
theorem gridViewDeleteCells_row :
    ∃ gl', (gridViewDeleteCells g px py nx).value? = some (g.withLine (g.hsize + py) gl') ∧
      ∀ x < g.sx, gl'.shown x = Splice.fill defaultShown (g.sx - nx) (px + nx)
        (Splice.move defaultShown px (px + nx) (g.sx - px - nx) gl.shown) x := by
  obtain ⟨gl₁, hmove, hshown₁⟩ := gridMoveCells_row h hpy hgl
    (by omega : px + (g.sx - px - nx) < Exec.word) (by omega : px + nx + (g.sx - px - nx) < Exec.word)
  have hload : (g.withLine (g.hsize + py) gl₁).row py = some gl₁ := Grid.withLine_load (h.lt_length hpy)
  obtain ⟨gl₂, hclear, hshown₂⟩ := gridClear_row (h.withLine _ gl₁) hsx hpy hload
    (by rw [Grid.withLine_sx]; omega : g.sx - nx < _) hnx
  rw [Grid.withLine_hsize, Grid.withLine_withLine] at hclear
  refine ⟨gl₂, ?_, fun x hx => by rw [hshown₂ x hx, hshown₁]⟩
  rw [gridViewDeleteCells, gridViewY_eq h hpy.le, Exec.usub_of_le (by omega), pure_bind,
    Exec.usub_of_le (by omega), pure_bind, Exec.uadd_of_lt (by omega), hmove, pure_bind, Grid.withLine_sx,
    Exec.usub_of_le (by omega), pure_bind]
  exact hclear

end

/-- Another line in a row of the screen edits its cells, if it shows them edited. -/
theorem Grid.cellsEdited_withLine (h : g.Whole) (hpy : py < g.sy) (hgl : g.row py = some gl) {edit : Splice.Edit}
    (hdone : edit.Done (· = defaultShown) px nx g.sx gl.shown gl'.shown) :
    g.CellsEdited px py nx edit (g.withLine (g.hsize + py) gl') where
  toLineEdited := g.withLine_edited _ gl'
  cells := ⟨gl, hgl, gl', Grid.withLine_load (h.lt_length hpy), hdone⟩

/-- Inserting and deleting cells moves those from there up to the right edge, and leaves default
    ones, unless a cell is kept where a default one is inserted: this is so only for cells that
    are not moved. -/
theorem cellEdit_iff (h : g.Whole) (hsx : g.sx < Exec.word) (hpy : py < g.sy) (hpos : 1 ≤ nx)
    (hnx : px + nx ≤ g.sx) (edit : Splice.Edit) :
    (∃ g', (gridViewEditCells g px py nx edit).value? = some g' ∧ g.CellsEdited px py nx edit g') ↔
      ¬ (edit = .insert ∧ g.KeepsCell px py nx) := by
  obtain ⟨gl, hgl⟩ := h.exists_row hpy
  cases edit with
  | delete =>
    obtain ⟨gl', hval, hshown⟩ := gridViewDeleteCells_row h hsx hpy hgl hpos hnx
    refine iff_of_true ⟨_, hval, Grid.cellsEdited_withLine h hpy hgl ?_⟩ (by simp)
    have hdeleted : Splice.Deleted (· = defaultShown) px nx g.sx gl.shown _ := Splice.deleted_fill rfl hnx
    exact hdeleted.congr hshown (by omega)
  | insert =>
    by_cases hlast : px + 1 = g.sx
    · obtain ⟨gl', hval, hshown⟩ := gridViewInsertCells_last h hsx hpy hgl hpos hnx hlast
      refine iff_of_true ⟨_, hval, Grid.cellsEdited_withLine h hpy hgl ?_⟩ fun hkeeps => hkeeps.2.1 hlast
      refine ⟨fun x hx => ?_, fun x hx hxn => ?_, fun x hx hxs => by omega⟩
      · rw [hshown x (by omega), Splice.fill, if_neg (by omega)]
      · rw [hshown x (by omega), Splice.fill, if_pos (by omega)]
    · obtain ⟨gl', hval, hshown⟩ := gridViewInsertCells_row h hsx hpy hgl hpos hnx hlast
      have hiff : Splice.Inserted (· = defaultShown) px nx g.sx gl.shown _ ↔ _ := Splice.inserted_move_iff rfl hnx
      rw [← hshown] at hiff
      constructor
      · rintro ⟨g', hval', hedited⟩ ⟨-, -, gl₁, hgl₁, x, hx, hxn, hkept⟩
        obtain rfl := Option.some.inj (hval.symm.trans hval')
        obtain ⟨gl₂, hgl₂, gl₃, hgl₃, hdone⟩ := hedited.cells
        obtain rfl := Option.some.inj (hgl.symm.trans hgl₁)
        obtain rfl := Option.some.inj (hgl.symm.trans hgl₂)
        obtain rfl := Option.some.inj ((Grid.withLine_load (h.lt_length hpy)).symm.trans hgl₃)
        exact hkept (hiff.1 hdone x hx hxn)
      · intro hkeeps
        refine ⟨_, hval, Grid.cellsEdited_withLine h hpy hgl (hiff.2 fun x hx hxn => ?_)⟩
        by_contra hkept
        exact hkeeps ⟨rfl, hlast, gl, hgl, x, hx, hxn, hkept⟩

/-- A grid of one row with four characters. -/
def fourCells : Grid :=
  { gridCreate 4 1 0 with linedata := [{ celldata := [97, 98, 99, 100].map fun data => { gridDefaultCell with data } }] }

theorem fourCells_whole : fourCells.Whole := ⟨by decide, by decide⟩

/-- A cell is inserted before three others. -/
theorem cellEdit_small :
    ∃ g', (gridViewEditCells fourCells 0 0 1 .insert).value? = some g' ∧ fourCells.CellsEdited 0 0 1 .insert g' :=
  (cellEdit_iff fourCells_whole (by decide) (by decide) (by decide) (by decide) .insert).2 (by
    rintro ⟨-, -, gl, hgl, x, hx, hx', -⟩
    have hsx : fourCells.sx = 4 := rfl
    omega)

/-- Inserting three cells before them leaves two as they are. -/
theorem cellEdit_keeps : fourCells.Whole ∧
    ¬ ∃ g', (gridViewEditCells fourCells 0 0 3 .insert).value? = some g' ∧ fourCells.CellsEdited 0 0 3 .insert g' := by
  refine ⟨fourCells_whole, ?_⟩
  rintro ⟨g', hval, hedited⟩
  have hrun : (gridViewEditCells fourCells 0 0 3 .insert).value? = some { gridCreate 4 1 0 with
      linedata := [{ celldata := [32, 98, 99, 97].map fun data => { gridDefaultCell with data } }] } := by decide
  obtain rfl := Option.some.inj (hrun.symm.trans hval)
  obtain ⟨gl, -, gl', hgl', hdone⟩ := hedited.cells
  obtain rfl := Option.some.inj (hgl' : some _ = some gl')
  exact absurd (hdone.fresh 1 (by decide) (by decide)) (by decide)

end Tmux
