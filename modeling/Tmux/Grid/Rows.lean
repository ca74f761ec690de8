import Tmux.Grid.Shape
import Tmux.Grid.Shown

/-!
# Rows of the screen

What the operations on a grid make of the rows of the screen. Those on lines move whole
rows (`gridMoveLines_rows`) or make them blank (`gridClear_rows`), all lines of the history
being left alone; those on cells put another line in one row (`Grid.withLine`), and are
described by what it shows.

The number of lines or columns to clear is a difference that goes round if there is nothing
to clear: the loop then ends at once.
-/

namespace Tmux

open Exec (uadd usub)

variable {g g' : Grid} {gl gl' : GridLine} {y r d p n px dx nx lo hi : ℕ}

/-! ## Lines -/

theorem Grid.Edited.row_eq (h : g.Edited n g') (r : ℕ) : g'.row r = g'.linedata[g.hsize + r]? := by
  rw [Grid.row, h.hsize]

theorem Grid.Edited.whole (h : g.Edited n g') (hg : g.Whole) : g'.Whole := by
  have hlength := hg.length
  have hroom := hg.room
  exact ⟨by rw [h.hsize, h.sy, h.length]; exact hlength, by rw [h.hsize, h.sy]; exact hroom⟩

/-- Moving lines of the screen moves its rows, and leaves blank ones. -/
theorem gridMoveLines_rows (h : g.Whole) (hp : p + n ≤ g.sy) (hd : d + n ≤ g.sy) :
    ∃ g', gridMoveLines g (g.hsize + d) (g.hsize + p) n = pure g' ∧ g.Edited g.hsize g' ∧
      g'.row = Splice.move (some {}) d p n g.row := by
  obtain ⟨l, hmove, hlen, hget⟩ := gridMoveLines_eq h (g.hsize + d) (g.hsize + p) n (by omega) (by omega)
  have hedited : g.Edited g.hsize { g with linedata := l } :=
    Grid.edited_linedata ⟨hlen, fun i hi => by rw [hget, if_neg (by omega), if_neg (by omega)]⟩
  refine ⟨_, hmove, hedited, funext fun r => ?_⟩
  rw [hedited.row_eq]
  dsimp only
  rw [hget, Splice.move, Grid.row, Grid.row]
  split_ifs <;> first | rfl | omega | (congr 1; omega)

/-- A difference that goes round, counted on from where it was taken. -/
theorem uadd_usub {a b : ℕ} (h : a < b) (hb : b < Exec.word) :
    ∃ m, usub a b = .done true m ∧ m ≠ 0 ∧ m < Exec.word ∧ b + m = a + Exec.word := by
  refine ⟨a + Exec.word - b, ?_, ?_, ?_, ?_⟩
  · rw [usub, if_neg (by omega), Nat.mod_eq_of_lt hb, Nat.mod_eq_of_lt (by omega)]
    congr 1
    omega
  all_goals omega

theorem usub_add_left {a b c : ℕ} (hb : c + b < Exec.word) :
    usub (c + a) (c + b) = usub a b := by
  rcases le_or_gt b a with hle | hlt
  · rw [Exec.usub_of_le hle, Exec.usub_of_le (by omega)]
    congr 1
    omega
  · obtain ⟨m, hm, -, -, hsum⟩ := uadd_usub hlt (by omega)
    obtain ⟨m', hm', -, -, hsum'⟩ := uadd_usub (by omega : c + a < c + b) hb
    rw [hm, hm']
    congr 1
    omega

/-- Clearing the rows from one on up to another one makes them blank. -/
theorem gridClear_rows (h : g.Whole) (hx : 1 ≤ g.sx) (hlo : lo < g.sy) (hpos : 1 ≤ hi) (hhi : hi ≤ g.sy) :
    ∃ g', (usub hi lo >>= gridClear g 0 (g.hsize + lo) g.sx).value? = some g' ∧ g.Edited g.hsize g' ∧
      g'.row = Splice.fill (some {}) lo hi g.row := by
  have hlength := h.length
  have hroom := h.room
  rcases le_or_gt lo hi with hle | hlt
  · rw [Exec.usub_of_le hle, pure_bind, gridClear]
    by_cases hnone : hi - lo = 0
    · rw [if_pos (.inr hnone), Splice.fill_of_le (by omega)]
      exact ⟨g, rfl, .refl g, rfl⟩
    · rw [if_neg (by omega), if_pos ⟨rfl, rfl⟩]
      obtain ⟨l, hclear, hlen, hget⟩ := gridClearLines_eq h (g.hsize + lo) (hi - lo) (by omega)
      have hedited : g.Edited g.hsize { g with linedata := l } :=
        Grid.edited_linedata ⟨hlen, fun i hi => by rw [hget, if_neg (by omega)]⟩
      refine ⟨_, by rw [hclear]; rfl, hedited, funext fun r => ?_⟩
      rw [hedited.row_eq]
      dsimp only
      rw [hget, Splice.fill, Grid.row]
      split_ifs <;> first | rfl | omega
  · -- The number of rows goes round, and so does the end of the loop.
    obtain ⟨m, hm, hzero, hword, hsum⟩ := uadd_usub hlt (by omega)
    have hwrap : ∀ k, k ≤ m → g.hsize + lo + (m - k) = g.hsize + hi - k + Exec.word → k ≤ 1 →
        uadd (g.hsize + lo) (m - k) = g.hsize + hi - k := fun k _ hk _ => by
      rw [uadd, hk, Nat.add_mod_right, Nat.mod_eq_of_lt (by omega)]
    have hlast := hwrap 1 (by omega) (by omega) le_rfl
    have hend := hwrap 0 (Nat.zero_le _) (by omega) (Nat.zero_le _)
    rw [Nat.sub_zero] at hend
    refine ⟨g, ?_, .refl g, by rw [Splice.fill_of_le hlt.le]⟩
    rw [hm, Exec.done_bind, gridClear, if_neg (by omega), if_pos ⟨rfl, rfl⟩, gridClearLines, if_neg hzero, hlast,
      hend, gridCheckY_eq h, gridCheckY_eq h, decide_eq_true (by omega : g.hsize + lo < g.hsize + g.sy),
      decide_eq_true (by omega : g.hsize + hi - 1 < g.hsize + g.sy), if_neg (by simp),
      show g.hsize + hi - 0 - (g.hsize + lo) = 0 by omega]
    rfl

/-! ## Another line in a row -/

/-- A grid with another line in its array. -/
def Grid.withLine (g : Grid) (y : ℕ) (gl : GridLine) : Grid := { g with linedata := g.linedata.set y gl }

@[simp] theorem Grid.withLine_sx (g : Grid) (y : ℕ) (gl : GridLine) : (g.withLine y gl).sx = g.sx := rfl

@[simp] theorem Grid.withLine_sy (g : Grid) (y : ℕ) (gl : GridLine) : (g.withLine y gl).sy = g.sy := rfl

@[simp] theorem Grid.withLine_hsize (g : Grid) (y : ℕ) (gl : GridLine) : (g.withLine y gl).hsize = g.hsize := rfl

@[simp] theorem Grid.withLine_withLine (g : Grid) (y : ℕ) (gl gl' : GridLine) :
    (g.withLine y gl).withLine y gl' = g.withLine y gl' := by
  simp only [withLine, List.set_set]

theorem Grid.withLine_self (h : g.linedata[y]? = some gl) : g.withLine y gl = g := by
  obtain ⟨hy, rfl⟩ := List.getElem?_eq_some_iff.1 h
  rw [withLine, List.set_getElem_self]

theorem Grid.withLine_edited (g : Grid) (y : ℕ) (gl : GridLine) : g.LineEdited y (g.withLine y gl) :=
  Grid.lineEdited_linedata ⟨List.length_set, fun _ hk => List.getElem?_set_ne hk.symm⟩

theorem Grid.withLine_load (h : y < g.linedata.length) : (g.withLine y gl).linedata[y]? = some gl := by
  rw [withLine, List.getElem?_set_self h]

theorem Grid.Whole.withLine (h : g.Whole) (y : ℕ) (gl : GridLine) : (g.withLine y gl).Whole :=
  (g.withLine_edited y gl).toEdited.whole h

theorem Grid.Whole.exists_row (h : g.Whole) (hr : r < g.sy) : ∃ gl, g.row r = some gl := by
  have hlength := h.length
  exact ⟨_, List.getElem?_eq_getElem (by omega)⟩

theorem Grid.Whole.lt_length (h : g.Whole) (hr : r < g.sy) : g.hsize + r < g.linedata.length := by
  have hlength := h.length
  omega

theorem updateRow_eq {f : GridLine → Exec GridLine} (hgl : g.linedata[y]? = some gl) (hf : f gl = pure gl') :
    updateRow g y f = pure (g.withLine y gl') := by
  obtain ⟨hy, -⟩ := List.getElem?_eq_some_iff.1 hgl
  rw [updateRow, Block.load_eq hgl, pure_bind, hf, pure_bind, Block.store_eq hy, pure_bind]
  rfl

/-! ## Single cells -/

section

variable (h : g.Whole) (hr : r < g.sy) (hgl : g.row r = some gl) (hpx : px + 1 < Exec.word)

include h hr hgl

theorem gridViewPeekCell_row (px : ℕ) : gridViewPeekCell g px r = pure (gl.cell px) := by
  rw [gridViewPeekCell, gridPeekCell, gridViewY_eq h hr.le, gridCheckY_eq h,
    decide_eq_true (by omega : g.hsize + r < g.hsize + g.sy), if_neg (by simp), Block.load_eq hgl, pure_bind,
    ← GridLine.cell]

include hpx

theorem gridViewGetCell_row : gridViewGetCell g px r =
    pure (some (g.withLine (g.hsize + r) (gridExpandLine gl (px + 1)), gl.cell px)) := by
  have hlen := h.lt_length hr
  have hcell : (gridExpandLine gl (px + 1)).celldata[px]? = some (gl.cell px) := by
    have hlt : px < (gridExpandLine gl (px + 1)).celldata.length := by
      rw [gridExpandLine_length]
      omega
    rw [← gridExpandLine_cell gl (px + 1) px, GridLine.cell, List.getElem?_eq_getElem hlt, Option.getD_some]
  rw [gridViewGetCell, gridGetCell, gridViewY_eq h hr.le, gridCheckY_eq h,
    decide_eq_true (by omega : g.hsize + r < g.hsize + g.sy), if_neg (by simp), Exec.uadd_of_lt hpx,
    updateRow_eq (f := fun gl => pure (gridExpandLine gl (px + 1))) hgl rfl, pure_bind,
    Block.load_eq (Grid.withLine_load hlen), pure_bind, Block.load_eq hcell, pure_bind]

theorem gridViewSetCell_row (gc : GridCell) :
    gridViewSetCell g px r gc = pure (g.withLine (g.hsize + r) (gl.setCell px gc)) := by
  rw [gridViewSetCell, gridSetCell, gridViewY_eq h hr.le, gridCheckY_eq h,
    decide_eq_true (by omega : g.hsize + r < g.hsize + g.sy), if_neg (by simp), Exec.uadd_of_lt hpx,
    updateRow_eq hgl (gridPutCell_eq gl px gc)]

theorem gridViewGetUtf8_row : gridViewGetUtf8 g px r =
    pure (some (g.withLine (g.hsize + r) (gridExpandLineUtf8 gl (px + 1)), gl.utf8data[px]?.join)) := by
  have hlen := h.lt_length hr
  have hdata : (gridExpandLineUtf8 gl (px + 1)).utf8data[px]? = some gl.utf8data[px]?.join := by
    have hlt : px < (gridExpandLineUtf8 gl (px + 1)).utf8data.length := by
      rw [gridExpandLineUtf8_length]
      omega
    rw [← gridExpandLineUtf8_data gl (px + 1) px, List.getElem?_eq_getElem hlt]
    rfl
  rw [gridViewGetUtf8, gridGetUtf8, gridViewY_eq h hr.le, gridCheckY_eq h,
    decide_eq_true (by omega : g.hsize + r < g.hsize + g.sy), if_neg (by simp), Exec.uadd_of_lt hpx,
    updateRow_eq (f := fun gl => pure (gridExpandLineUtf8 gl (px + 1))) hgl rfl, pure_bind,
    Block.load_eq (Grid.withLine_load hlen), pure_bind, Block.load_eq hdata, pure_bind]

theorem gridViewSetUtf8_row (gu : GridUtf8) :
    gridViewSetUtf8 g px r gu = pure (g.withLine (g.hsize + r) (gl.setUtf8 px gu)) := by
  rw [gridViewSetUtf8, gridSetUtf8, gridViewY_eq h hr.le, gridCheckY_eq h,
    decide_eq_true (by omega : g.hsize + r < g.hsize + g.sy), if_neg (by simp), Exec.uadd_of_lt hpx,
    updateRow_eq hgl (gridPutUtf8_eq gl px gu)]

end

/-! ## Cells of another line in a row -/

section

variable (h : g.Whole) (hr : r < g.sy) (gl : GridLine) (hpx : px + 1 < Exec.word)

include h hr

theorem Grid.withLine_row_self : (g.withLine (g.hsize + r) gl).row r = some gl := Grid.withLine_load (h.lt_length hr)

include hpx

theorem gridViewGetCell_withLine : gridViewGetCell (g.withLine (g.hsize + r) gl) px r =
    pure (some (g.withLine (g.hsize + r) (gridExpandLine gl (px + 1)), gl.cell px)) := by
  rw [gridViewGetCell_row (h.withLine _ gl) hr (Grid.withLine_row_self h hr gl) hpx, Grid.withLine_hsize,
    Grid.withLine_withLine]

theorem gridViewSetCell_withLine (gc : GridCell) : gridViewSetCell (g.withLine (g.hsize + r) gl) px r gc =
    pure (g.withLine (g.hsize + r) (gl.setCell px gc)) := by
  rw [gridViewSetCell_row (h.withLine _ gl) hr (Grid.withLine_row_self h hr gl) hpx, Grid.withLine_hsize,
    Grid.withLine_withLine]

theorem gridViewGetUtf8_withLine : gridViewGetUtf8 (g.withLine (g.hsize + r) gl) px r =
    pure (some (g.withLine (g.hsize + r) (gridExpandLineUtf8 gl (px + 1)), gl.utf8data[px]?.join)) := by
  rw [gridViewGetUtf8_row (h.withLine _ gl) hr (Grid.withLine_row_self h hr gl) hpx, Grid.withLine_hsize,
    Grid.withLine_withLine]

theorem gridViewSetUtf8_withLine (gu : GridUtf8) : gridViewSetUtf8 (g.withLine (g.hsize + r) gl) px r gu =
    pure (g.withLine (g.hsize + r) (gl.setUtf8 px gu)) := by
  rw [gridViewSetUtf8_row (h.withLine _ gl) hr (Grid.withLine_row_self h hr gl) hpx, Grid.withLine_hsize,
    Grid.withLine_withLine]

end

/-! ## Cells of a row -/

section

variable (h : g.Whole) (hsx : g.sx < Exec.word) (hr : r < g.sy) (hgl : g.row r = some gl)

include h hr hgl

/-- Moving cells of a row. -/
theorem gridMoveCells_row (hdx : dx + nx < Exec.word) (hpx : px + nx < Exec.word) :
    ∃ gl', gridMoveCells g dx px (g.hsize + r) nx = pure (g.withLine (g.hsize + r) gl') ∧
      gl'.shown = Splice.move defaultShown dx px nx gl.shown := by
  unfold gridMoveCells
  by_cases hnone : nx = 0 ∨ px = dx
  · rw [if_pos hnone]
    refine ⟨gl, by rw [Grid.withLine_self hgl], funext fun x => ?_⟩
    rw [Splice.move]
    rcases hnone with rfl | rfl
    · rw [if_neg (by omega), if_neg (by omega)]
    · split_ifs with hx
      · rw [Nat.add_sub_cancel' hx.1]
      · rfl
  · rw [if_neg hnone, gridCheckY_eq h, decide_eq_true (by omega : g.hsize + r < g.hsize + g.sy), if_neg (by simp)]
    obtain ⟨gl', hmove, -, hshown⟩ := moveCells_eq gl hdx hpx
    exact ⟨gl', updateRow_eq hgl hmove, hshown⟩

include hsx

/-- Clearing the cells of a row from a column on up to another one. -/
theorem gridClear_row (hpx : px < g.sx) (hhi : hi ≤ g.sx) :
    ∃ gl', (usub hi px >>= fun nx => gridClear g px (g.hsize + r) nx 1).value? =
        some (g.withLine (g.hsize + r) gl') ∧
      ∀ x < g.sx, gl'.shown x = Splice.fill defaultShown px hi gl.shown x := by
  have hroom := h.room
  have hlen := h.lt_length hr
  have hcheck : (!gridCheckY g (g.hsize + r) || !gridCheckY g (uadd (g.hsize + r) (1 - 1))) = false := by
    rw [Nat.sub_self, Exec.uadd_of_lt (by omega), Nat.add_zero, gridCheckY_eq h,
      decide_eq_true (by omega : g.hsize + r < g.hsize + g.sy)]
    rfl
  have hone : List.range' (g.hsize + r) (uadd (g.hsize + r) 1 - (g.hsize + r)) = [g.hsize + r] := by
    rw [Exec.uadd_of_lt (by omega), Nat.add_sub_cancel_left]
    rfl
  have hnone : hi ≤ px → ∀ x < g.sx, gl.shown x = Splice.fill defaultShown px hi gl.shown x := fun hle x _ => by
    rw [Splice.fill_of_le hle]
  rcases lt_trichotomy px hi with hlt | rfl | hgt
  · rw [Exec.usub_of_le hlt.le, pure_bind, gridClear, if_neg (by omega)]
    by_cases hall : px = 0 ∧ hi - px = g.sx
    · -- All columns of the row are cleared.
      rw [if_pos hall]
      obtain ⟨l, hclear, hlen', hget⟩ := gridClearLines_eq h (g.hsize + r) 1 (by omega)
      refine ⟨{}, ?_, fun x hx => ?_⟩
      · have hset : l = g.linedata.set (g.hsize + r) {} := List.ext_getElem? fun i => by
          rw [hget, List.getElem?_set]
          split_ifs <;> first | rfl | omega
        rw [hclear, hset]
        rfl
      · rw [Splice.fill, if_pos (by omega)]
        exact GridLine.shown_of_cell rfl
    · rw [if_neg hall, hcheck, if_neg (by simp), hone, List.foldlM_cons]
      obtain ⟨gl', hclear, hshown⟩ := clearCells_eq gl px hlt.le (hhi.trans_lt hsx)
      rw [updateRow_eq hgl hclear, pure_bind]
      exact ⟨gl', rfl, fun x _ => congrFun hshown x⟩
  · rw [Exec.usub_of_le le_rfl, pure_bind, Nat.sub_self, gridClear, if_pos (.inl rfl)]
    exact ⟨gl, by rw [Grid.withLine_self hgl]; rfl, hnone le_rfl⟩
  · -- The number of columns goes round, and so does the end of the loop.
    obtain ⟨m, hm, hzero, hword, hsum⟩ := uadd_usub hgt (by omega)
    have hend : uadd px m = hi := by rw [uadd, hsum, Nat.add_mod_right, Nat.mod_eq_of_lt (by omega)]
    have hclear : clearCells gl px m = pure gl := by
      rw [clearCells, hend]
      split_ifs with h₁ h₂
      · rfl
      · omega
      · rw [show hi - px = 0 by omega]
        rfl
    refine ⟨gl, ?_, hnone hgt.le⟩
    rw [hm, Exec.done_bind, gridClear, if_neg (by omega), if_neg (by omega), hcheck, if_neg (by simp), hone,
      List.foldlM_cons, updateRow_eq hgl hclear, pure_bind]
    rfl

end

end Tmux
