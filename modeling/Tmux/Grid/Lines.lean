import Tmux.Grid.View

/-!
# Lines of a grid

What the operations that move lines leave at every row of the array: moving a group of
lines (`gridMoveLines_eq`), collecting the oldest lines of the history
(`gridCollectHistory_eq`), and the ways a line gets into it (`gridScrollHistory_eq`,
`gridScrollHistoryRegion_eq`).
-/

namespace Tmux

open Exec (uadd usub)

/-- The lines of a grid are in its array, and their rows are words. -/
structure Grid.Whole (g : Grid) : Prop where
  length : g.hsize + g.sy ≤ g.linedata.length
  room : g.hsize + g.sy + 1 < Exec.word

/-- The line at a row of the screen. -/
def Grid.row (g : Grid) (r : ℕ) : Option GridLine := g.linedata[g.hsize + r]?

/-- The lines of the history, the oldest one first. -/
def Grid.scrollback (g : Grid) : List GridLine := g.linedata.take g.hsize

variable {g : Grid}

theorem gridCheckY_eq (h : g.Whole) (py : ℕ) : gridCheckY g py = decide (py < g.hsize + g.sy) := by
  have := h.room
  rw [gridCheckY, Exec.uadd_of_lt (by omega)]

theorem gridViewY_eq (h : g.Whole) {y : ℕ} (hy : y ≤ g.sy) : gridViewY g y = g.hsize + y := by
  have := h.room
  rw [gridViewY, Exec.uadd_of_lt (by omega)]

/-- Moving a group of lines leaves blank lines where they were. -/
theorem gridMoveLines_linedata (hlen : g.hsize + g.sy ≤ g.linedata.length)
    (hroom : g.hsize + g.sy < Exec.word) (dy py ny : ℕ) (hpy : py + ny ≤ g.hsize + g.sy)
    (hdy : dy + ny ≤ g.hsize + g.sy) :
    ∃ linedata, gridMoveLines g dy py ny = pure { g with linedata } ∧
      linedata.length = g.linedata.length ∧ ∀ i, linedata[i]? =
        if dy ≤ i ∧ i < dy + ny then g.linedata[py + (i - dy)]?
        else if py ≤ i ∧ i < py + ny then some {} else g.linedata[i]? := by
  have hcheck : ∀ y, gridCheckY g y = decide (y < g.hsize + g.sy) := fun y => by
    rw [gridCheckY, Exec.uadd_of_lt hroom]
  unfold gridMoveLines
  by_cases hmove : ny = 0 ∨ py = dy
  · rw [if_pos hmove]
    refine ⟨g.linedata, rfl, rfl, fun i => ?_⟩
    rcases hmove with rfl | rfl
    · rw [if_neg (by omega), if_neg (by omega)]
    · split_ifs with hi
      · rw [Nat.add_sub_cancel' hi.1]
      · rfl
  · rw [if_neg hmove, Exec.uadd_of_lt (b := ny - 1) (by omega), Exec.uadd_of_lt (b := ny - 1) (by omega),
      hcheck, hcheck, hcheck, hcheck,
      decide_eq_true (by omega : py < g.hsize + g.sy),
      decide_eq_true (by omega : py + (ny - 1) < g.hsize + g.sy),
      decide_eq_true (by omega : dy < g.hsize + g.sy),
      decide_eq_true (by omega : dy + (ny - 1) < g.hsize + g.sy), Exec.uadd_of_lt (by omega),
      Exec.uadd_of_lt (by omega), Nat.add_sub_cancel_left, Nat.add_sub_cancel_left]
    obtain ⟨l₁, h₁, hlen₁, hget₁⟩ := Block.fill_eq (a := ({} : GridLine))
      (p := fun yy => !(decide (py ≤ yy) && decide (yy < py + ny))) (hdy.trans hlen)
    obtain ⟨l₂, h₂, hlen₂, hget₂⟩ := Block.move_eq l₁ dy py ny (by omega) (by omega)
    obtain ⟨l₃, h₃, hlen₃, hget₃⟩ := Block.fill_eq (a := ({} : GridLine)) (l := l₂)
      (p := fun yy => !(decide (dy ≤ yy) && decide (yy < dy + ny))) (i := py) (n := ny) (by omega)
    refine ⟨l₃, ?_, by omega, fun i => ?_⟩
    · rw [if_neg (by simp), h₁, pure_bind, h₂, pure_bind, h₃, pure_bind]
    · rw [hget₃, hget₂, hget₁, hget₁]
      simp only [Bool.not_eq_true', Bool.and_eq_false_iff, decide_eq_false_iff_not]
      split_ifs <;> first | rfl | omega

theorem gridMoveLines_eq (h : g.Whole) (dy py ny : ℕ) (hpy : py + ny ≤ g.hsize + g.sy)
    (hdy : dy + ny ≤ g.hsize + g.sy) :
    ∃ linedata, gridMoveLines g dy py ny = pure { g with linedata } ∧
      linedata.length = g.linedata.length ∧ ∀ i, linedata[i]? =
        if dy ≤ i ∧ i < dy + ny then g.linedata[py + (i - dy)]?
        else if py ≤ i ∧ i < py + ny then some {} else g.linedata[i]? :=
  gridMoveLines_linedata h.length (Nat.lt_of_succ_lt h.room) dy py ny hpy hdy

/-- How many lines are collected from the history. -/
def collected (g : Grid) : ℕ := if g.hsize < g.hlimit then 0 else max 1 (g.hlimit / 10)

theorem collected_le (hlimit : 1 ≤ g.hlimit) : collected g ≤ g.hsize := by
  unfold collected
  split_ifs <;> omega

/-- Collecting lines from the history shifts the others up. -/
theorem gridCollectHistory_eq (h : g.Whole) (hle : collected g ≤ g.hsize) :
    ∃ linedata, gridCollectHistory g =
        pure { g with linedata, hsize := g.hsize - collected g } ∧
      linedata.length = g.linedata.length ∧
      ∀ i < g.hsize - collected g + g.sy, linedata[i]? = g.linedata[collected g + i]? := by
  have hroom := h.room
  unfold gridCollectHistory
  by_cases hmore : g.hsize < g.hlimit
  · have hnone : collected g = 0 := if_pos hmore
    rw [if_pos hmore, hnone]
    exact ⟨g.linedata, rfl, rfl, fun i _ => by rw [Nat.zero_add]⟩
  · have hsome : collected g = if g.hlimit / 10 < 1 then 1 else g.hlimit / 10 := by
      rw [collected, if_neg hmore]
      split_ifs <;> omega
    rw [if_neg hmore, ← hsome]
    dsimp only
    obtain ⟨linedata, hmove, hlen, hget⟩ := gridMoveLines_eq h 0 (collected g)
      (g.hsize + g.sy - collected g) (by omega) (by omega)
    refine ⟨linedata, ?_, hlen, fun i hi => ?_⟩
    · rw [Exec.uadd_of_lt (by omega), Exec.usub_of_le (by omega), pure_bind, hmove, pure_bind]
      dsimp only
      rw [Exec.usub_of_le hle, pure_bind]
    · rw [hget, if_pos (by omega), Nat.sub_zero]

/-- Scrolling a line into the history leaves a blank one at the bottom. -/
theorem gridScrollHistory_eq (h : g.Whole) :
    ∃ linedata, gridScrollHistory g = pure { g with linedata, hsize := g.hsize + 1 } ∧
      linedata.length = g.hsize + 1 + g.sy ∧
      ∀ i ≤ g.hsize + g.sy, linedata[i]? =
        if i < g.hsize + g.sy then g.linedata[i]? else some {} := by
  have hlen := h.length
  have hroom := h.room
  unfold gridScrollHistory
  dsimp only
  rw [Exec.uadd_of_lt (a := g.hsize) (b := g.sy) (by omega), Exec.uadd_of_lt (by omega),
    Exec.uadd_of_lt (by omega), Block.store_eq (by rw [Block.length_resize]; omega), pure_bind]
  refine ⟨_, rfl, by rw [List.length_set, Block.length_resize]; omega, fun i hi => ?_⟩
  rw [List.getElem?_set, Block.length_resize, Block.getElem?_resize]
  split_ifs with h₁ h₂ h₃ h₄ h₅
  any_goals first | rfl | omega
  rw [List.getElem?_eq_getElem (by omega), Option.getD_some]

/-- Scrolling the top line of a region into the history leaves a blank one at the bottom of the
    region. -/
theorem gridScrollHistoryRegion_eq (h : g.Whole) {upper lower : ℕ} (hupper : upper ≤ lower)
    (hlower : lower < g.sy) :
    ∃ linedata, gridScrollHistoryRegion g (g.hsize + upper) (g.hsize + lower) =
        pure { g with linedata, hsize := g.hsize + 1 } ∧
      linedata.length = g.hsize + 1 + g.sy ∧
      (∀ i < g.hsize, linedata[i]? = g.linedata[i]?) ∧
      linedata[g.hsize]? = g.row upper ∧
      ∀ r < g.sy, linedata[g.hsize + 1 + r]? =
        if r < upper ∨ lower < r then g.row r else if r < lower then g.row (r + 1)
        else some {} := by
  have hlen := h.length
  have hroom := h.room
  unfold gridScrollHistoryRegion
  dsimp only
  rw [Exec.uadd_of_lt (a := g.hsize) (b := g.sy) (by omega), Exec.uadd_of_lt (by omega),
    Exec.uadd_of_lt (by omega), Exec.uadd_of_lt (by omega), Exec.uadd_of_lt (by omega)]
  -- The array with space for a new line, the screen having moved down to free it.
  obtain ⟨l₁, h₁, hlen₁, hget₁⟩ := Block.move_eq
    (Block.resize ({} : GridLine) g.linedata (g.hsize + g.sy + 1)) (g.hsize + 1) g.hsize g.sy
    (by rw [Block.length_resize]; omega) (by rw [Block.length_resize]; omega)
  rw [Block.length_resize] at hlen₁
  have hold : ∀ i < g.hsize + g.sy,
      (Block.resize ({} : GridLine) g.linedata (g.hsize + g.sy + 1))[i]? = g.linedata[i]? :=
    fun i hi => by
      rw [Block.getElem?_resize, if_pos (by omega), List.getElem?_eq_getElem (by omega),
        Option.getD_some]
  have hscreen : ∀ r < g.sy, l₁[g.hsize + 1 + r]? = g.row r := fun r hr => by
    rw [hget₁, if_pos (by omega), hold _ (by omega), Grid.row]
    congr 1
    omega
  obtain ⟨line, hline⟩ : ∃ line, g.row upper = some line :=
    ⟨_, List.getElem?_eq_getElem (by omega)⟩
  have hload : Block.load l₁ (g.hsize + upper + 1) = pure line := by
    refine Block.load_eq ?_
    rw [← hline, ← hscreen upper (by omega)]
    congr 1
    omega
  obtain ⟨l₂, h₂, hlen₂, hget₂⟩ := Block.move_eq (l₁.set g.hsize line)
    (g.hsize + upper + 1) (g.hsize + upper + 1 + 1) (lower - upper)
    (by rw [List.length_set]; omega) (by rw [List.length_set]; omega)
  rw [List.length_set] at hlen₂
  refine ⟨l₂.set (g.hsize + lower + 1) {}, ?_, by rw [List.length_set]; omega, fun i hi => ?_, ?_,
    fun r hr => ?_⟩
  · rw [h₁, pure_bind, hload, pure_bind, Block.store_eq (by omega), pure_bind,
      Exec.usub_of_le (by omega), pure_bind,
      show g.hsize + lower + 1 - (g.hsize + upper + 1) = lower - upper by omega, h₂, pure_bind,
      Block.store_eq (by omega), pure_bind]
  · rw [List.getElem?_set_ne (by omega), hget₂, if_neg (by omega), List.getElem?_set_ne (by omega),
      hget₁, if_neg (by omega), hold i (by omega)]
  · rw [List.getElem?_set_ne (by omega), hget₂, if_neg (by omega), List.getElem?_set_self (by omega),
      hline]
  · rcases lt_trichotomy r lower with hlt | rfl | hgt
    · rw [List.getElem?_set_ne (by omega), hget₂]
      by_cases hr' : r < upper
      · rw [if_neg (by omega), List.getElem?_set_ne (by omega), hscreen r hr, if_pos (.inl hr')]
      · rw [if_pos (by omega), List.getElem?_set_ne (by omega), if_neg (by omega), if_pos hlt,
          ← hscreen (r + 1) (by omega)]
        congr 1
        omega
    · rw [show g.hsize + 1 + r = g.hsize + r + 1 by omega, List.getElem?_set_self (by omega),
        if_neg (by omega), if_neg (by omega)]
    · rw [List.getElem?_set_ne (by omega), hget₂, if_neg (by omega), List.getElem?_set_ne (by omega),
        hscreen r hr, if_pos (.inr hgt)]

/-- Setting a cell changes at most the line of its row. -/
theorem gridSetCell_eq (h : g.Whole) {px : ℕ} (hpx : px + 1 < Exec.word) (py : ℕ) (gc : GridCell) :
    ∃ linedata, gridSetCell g px py gc = pure { g with linedata } ∧
      linedata.length = g.linedata.length ∧ ∀ i, i ≠ py → linedata[i]? = g.linedata[i]? := by
  have hlen := h.length
  unfold gridSetCell
  rw [gridCheckY_eq h]
  by_cases hpy : py < g.hsize + g.sy
  · obtain ⟨gl, hgl⟩ : ∃ gl, g.linedata[py]? = some gl := ⟨_, List.getElem?_eq_getElem (by omega)⟩
    have hreach : px < (gridExpandLine gl (px + 1)).celldata.length := by
      unfold gridExpandLine
      split_ifs with hle
      · exact hle
      · rw [Block.length_resize]
        exact Nat.lt_succ_self px
    rw [decide_eq_true hpy, if_neg (by simp), updateRow, Block.load_eq hgl, pure_bind,
      Exec.uadd_of_lt hpx, gridPutCell, Block.store_eq hreach, pure_bind, pure_bind,
      Block.store_eq (by omega), pure_bind]
    exact ⟨_, rfl, List.length_set, fun i hi => List.getElem?_set_ne hi.symm⟩
  · rw [decide_eq_false hpy, if_pos Bool.not_false]
    exact ⟨g.linedata, rfl, rfl, fun _ _ => rfl⟩

/-- Whether anything was written to a line. -/
def GridLine.used (gl : GridLine) : Bool := gl.celldata.length ≠ 0 ∨ gl.utf8data.length ≠ 0

/-- The number of rows up to the last used one. -/
theorem lastUsed_eq (h : g.Whole) {n : ℕ} (hn : n ≤ g.sy) :
    ∃ last ≤ n, lastUsed g n = pure last ∧
      (last = 0 ↔ ¬ ∃ r < n, (g.row r).any GridLine.used = true) ∧
      ∀ r, last ≤ r → r < n → (g.row r).any GridLine.used = false := by
  have hlen := h.length
  induction n with
  | zero => exact ⟨0, le_rfl, rfl, by simp, fun r _ hr => absurd hr (by omega)⟩
  | succ n ih =>
    obtain ⟨last, hle, hlast, hzero, hunused⟩ := ih (by omega)
    obtain ⟨gl, hgl⟩ : ∃ gl, g.row n = some gl := ⟨_, List.getElem?_eq_getElem (by omega)⟩
    rw [lastUsed, hlast, pure_bind, gridViewY_eq h (by omega), Block.load_eq hgl, pure_bind]
    by_cases hused : gl.celldata.length ≠ 0 ∨ gl.utf8data.length ≠ 0
    · rw [if_pos hused]
      refine ⟨n + 1, le_rfl, rfl, iff_of_false (Nat.succ_ne_zero n) (not_not.2 ⟨n, by omega, ?_⟩),
        fun r _ hr => absurd hr (by omega)⟩
      rw [hgl, Option.any_some, GridLine.used]
      exact decide_eq_true hused
    · have hrow : (g.row n).any GridLine.used = false := by
        rw [hgl, Option.any_some, GridLine.used]
        exact decide_eq_false hused
      rw [if_neg hused]
      refine ⟨last, by omega, rfl, hzero.trans (not_congr ⟨fun ⟨r, hr, hrow⟩ => ⟨r, by omega, hrow⟩, ?_⟩),
        fun r hr hrn => ?_⟩
      · rintro ⟨r, hr, hrow'⟩
        rcases Nat.lt_succ_iff_lt_or_eq.1 hr with hr | rfl
        · exact ⟨r, hr, hrow'⟩
        · rw [hrow] at hrow'
          cases hrow'
      · rcases Nat.lt_succ_iff_lt_or_eq.1 hrn with hrn | rfl
        · exact hunused r hr hrn
        · exact hrow

end Tmux
