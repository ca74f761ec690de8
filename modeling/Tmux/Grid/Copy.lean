import Tmux.Grid.Lines

/-!
# Copying lines between grids

Clearing a group of lines of a grid (`gridClearLines_eq`), and copying lines of another
grid over them (`gridDuplicateLines_eq`), row by row.
-/

namespace Tmux

open Exec (uadd usub)

variable {g dst src : Grid}

theorem gridClearLines_eq (h : g.Whole) (py ny : ℕ) (hny : py + ny ≤ g.hsize + g.sy) :
    ∃ linedata, gridClearLines g py ny = pure { g with linedata } ∧
      linedata.length = g.linedata.length ∧
      ∀ i, linedata[i]? = if py ≤ i ∧ i < py + ny then some {} else g.linedata[i]? := by
  have hlen := h.length
  have hroom := h.room
  unfold gridClearLines
  by_cases hzero : ny = 0
  · rw [if_pos hzero]
    exact ⟨_, rfl, rfl, fun i => by rw [if_neg (by omega)]⟩
  · rw [if_neg hzero, Exec.uadd_of_lt (b := ny - 1) (by omega), gridCheckY_eq h, gridCheckY_eq h,
      decide_eq_true (by omega : py < g.hsize + g.sy),
      decide_eq_true (by omega : py + (ny - 1) < g.hsize + g.sy), Exec.uadd_of_lt (by omega),
      Nat.add_sub_cancel_left]
    obtain ⟨l, hfill, hlen', hget⟩ := Block.fill_eq (a := ({} : GridLine)) (p := fun _ => true)
      (hny.trans hlen)
    refine ⟨l, ?_, hlen', fun i => ?_⟩
    · rw [if_neg (by simp), hfill, pure_bind]
    · simp only [hget, and_true]

theorem copyLines_eq (dst src : Grid) (dy sy n : ℕ) (hdy : dy + n ≤ dst.linedata.length)
    (hsy : sy + n ≤ src.linedata.length) :
    ∃ linedata, copyLines dst dy src sy n = pure { dst with linedata } ∧
      linedata.length = dst.linedata.length ∧
      ∀ i, linedata[i]? = if dy ≤ i ∧ i < dy + n then src.linedata[sy + (i - dy)]? else dst.linedata[i]? := by
  induction n generalizing dst dy sy with
  | zero => exact ⟨dst.linedata, rfl, rfl, fun i => by rw [if_neg (by omega)]⟩
  | succ n ih =>
    have hload := Block.load_eq (List.getElem?_eq_getElem (by omega : sy < src.linedata.length))
    obtain ⟨l, hcopy, hlen, hget⟩ := ih { dst with linedata := dst.linedata.set dy src.linedata[sy] }
      (dy + 1) (sy + 1) (by rw [List.length_set]; omega) (by omega)
    refine ⟨l, ?_, by rw [hlen, List.length_set], fun i => ?_⟩
    · rw [copyLines, hload, pure_bind, Block.store_eq (by omega), pure_bind, hcopy]
    · rw [hget]
      dsimp only
      rw [List.getElem?_set]
      rcases eq_or_ne dy i with rfl | hne
      · rw [if_neg (by omega), if_pos rfl, if_pos (by omega), if_pos (by omega), Nat.sub_self, Nat.add_zero,
          List.getElem?_eq_getElem (by omega)]
      · rw [if_neg hne]
        by_cases hi : dy + 1 ≤ i ∧ i < dy + 1 + n
        · rw [if_pos hi, if_pos (by omega)]
          congr 1
          omega
        · rw [if_neg hi, if_neg (by omega)]

theorem limitLines_eq (h : g.Whole) {y ny : ℕ} (hny : y + ny ≤ g.hsize + g.sy) :
    limitLines g y ny = pure ny := by
  have hroom := h.room
  rw [limitLines, Exec.uadd_of_lt (by omega), Exec.uadd_of_lt (by omega), if_neg (by omega)]

/-- Duplicating as many lines as there are puts them over those of the other grid. -/
theorem gridDuplicateLines_eq (hdst : dst.Whole) (hsrc : src.Whole) (dy sy ny : ℕ)
    (hdy : dy + ny ≤ dst.hsize + dst.sy) (hsy : sy + ny ≤ src.hsize + src.sy) :
    ∃ linedata, gridDuplicateLines dst dy src sy ny = pure { dst with linedata } ∧
      linedata.length = dst.linedata.length ∧
      ∀ i, linedata[i]? = if dy ≤ i ∧ i < dy + ny then src.linedata[sy + (i - dy)]? else dst.linedata[i]? := by
  have hdlen := hdst.length
  have hslen := hsrc.length
  obtain ⟨l₁, hclear, hlen₁, hget₁⟩ := gridClearLines_eq hdst dy ny hdy
  obtain ⟨l₂, hcopy, hlen₂, hget₂⟩ := copyLines_eq { dst with linedata := l₁ } src dy sy ny
    (by dsimp only; omega) (by omega)
  refine ⟨l₂, ?_, hlen₂.trans hlen₁, fun i => ?_⟩
  · rw [gridDuplicateLines, limitLines_eq hdst hdy, pure_bind, limitLines_eq hsrc hsy, pure_bind, hclear,
      pure_bind, hcopy]
  · rw [hget₂]
    split_ifs with hi
    · rfl
    · dsimp only
      rw [hget₁, if_neg hi]

end Tmux
