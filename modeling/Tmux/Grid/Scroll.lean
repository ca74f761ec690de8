import Tmux.Arguments
import Tmux.Grid.Lines

/-!
# Scrolling

A region of the screen scrolls up in one of three ways: as the whole screen or as a
region, its top line going into the history, or without a history.

* `gridViewScrollRegionUp_agrees`: all three leave the same rows on the screen, and with
  a history the top line of the region at its end;
* `historyRun_iff`: the sizes of the history neither wrap nor leave the array, nor does
  the history outgrow its limit, in every run of a grid with a limit of at least one. With
  a limit of zero the first line scrolled makes them wrap.
-/

namespace Tmux

open Exec (uadd usub)

variable {g : Grid}

/-- The line at a row of the screen after a region of it scrolled up. -/
def scrolledRow (g : Grid) (rupper rlower r : ℕ) : Option GridLine :=
  if r < rupper ∨ rlower < r then g.row r
  else if r < rlower then g.row (r + 1)
  else some {}

/-- Scrolling a region up with the history on. -/
theorem gridViewScrollRegionUp_on (h : g.Whole) (hon : g.history = true) (hle : collected g ≤ g.hsize)
    {rupper rlower : ℕ} (hupper : rupper ≤ rlower) (hlower : rlower < g.sy) :
    ∃ linedata, gridViewScrollRegionUp g rupper rlower =
        pure { g with linedata, hsize := g.hsize - collected g + 1 } ∧
      linedata.length = g.hsize - collected g + 1 + g.sy ∧
      (∀ i < g.hsize - collected g, linedata[i]? = g.linedata[collected g + i]?) ∧
      linedata[g.hsize - collected g]? = g.row rupper ∧
      ∀ r < g.sy, linedata[g.hsize - collected g + 1 + r]? = scrolledRow g rupper rlower r := by
  have hlen := h.length
  have hroom := h.room
  obtain ⟨l₁, hcollect, hlen₁, hget₁⟩ := gridCollectHistory_eq h hle
  obtain ⟨g₁, hg₁⟩ : ∃ g₁ : Grid, g₁ = { g with
    linedata := l₁
    hsize := g.hsize - collected g } := ⟨_, rfl⟩
  rw [← hg₁] at hcollect
  have hsy₁ : g₁.sy = g.sy := by rw [hg₁]
  have hhsize₁ : g₁.hsize = g.hsize - collected g := by rw [hg₁]
  have hwhole₁ : g₁.Whole := by
    rw [hg₁]
    exact ⟨by dsimp only; omega, by dsimp only; omega⟩
  have hline₁ : ∀ i < g₁.hsize + g₁.sy, g₁.linedata[i]? = g.linedata[collected g + i]? := by
    rw [hg₁]
    exact hget₁
  have hrow₁ : ∀ r < g.sy, g₁.row r = g.row r := fun r hr => by
    rw [Grid.row, hline₁ _ (by omega), Grid.row]
    congr 1
    omega
  have hrest : ∀ linedata, { g₁ with linedata, hsize := g₁.hsize + 1 } =
      { g with linedata, hsize := g.hsize - collected g + 1 } := fun linedata => by rw [hg₁]
  unfold gridViewScrollRegionUp
  rw [if_pos hon, hcollect, pure_bind, Exec.usub_of_le (by omega), pure_bind]
  by_cases hwhole : rupper = 0 ∧ rlower = g₁.sy - 1
  · obtain ⟨l₂, hscroll, hlen₂, hget₂⟩ := gridScrollHistory_eq hwhole₁
    have hline₂ : ∀ i < g₁.hsize + g₁.sy, l₂[i]? = g₁.linedata[i]? := fun i hi => by
      rw [hget₂ i hi.le, if_pos hi]
    rw [if_pos hwhole, hscroll, hrest, hwhole.1]
    refine ⟨l₂, rfl, by rw [hlen₂, hhsize₁, hsy₁], fun i hi => ?_, ?_, fun r hr => ?_⟩
    · rw [hline₂ i (by omega), hline₁ i (by omega)]
    · rw [← hhsize₁, hline₂ _ (by omega), ← hrow₁ 0 (by omega), Grid.row, Nat.add_zero]
    · rw [scrolledRow, if_neg (by omega), ← hhsize₁]
      split_ifs with hlt
      · rw [hline₂ _ (by omega), ← hrow₁ (r + 1) (by omega), Grid.row]
        congr 1
        omega
      · rw [hget₂ _ (by omega), if_neg (by omega)]
  · obtain ⟨l₂, hscroll, hlen₂, hold, htop, hscreen⟩ :=
      gridScrollHistoryRegion_eq hwhole₁ hupper (by omega)
    rw [if_neg hwhole, gridViewY_eq hwhole₁ (by omega), gridViewY_eq hwhole₁ (by omega), hscroll, hrest]
    refine ⟨l₂, rfl, by rw [hlen₂, hhsize₁, hsy₁], fun i hi => ?_, ?_, fun r hr => ?_⟩
    · rw [hold i (by omega), hline₁ i (by omega)]
    · rw [← hhsize₁, htop, hrow₁ _ (by omega)]
    · rw [← hhsize₁, hscreen r (by omega), scrolledRow, hrow₁ r hr]
      split_ifs with hout hlt
      · rfl
      · exact hrow₁ _ (by omega)
      · rfl

/-- Scrolling a region up with the history off. -/
theorem gridViewScrollRegionUp_off (h : g.Whole) (hoff : g.history = false) {rupper rlower : ℕ}
    (hupper : rupper ≤ rlower) (hlower : rlower < g.sy) :
    ∃ linedata, gridViewScrollRegionUp g rupper rlower = pure { g with linedata } ∧
      linedata.length = g.linedata.length ∧ (∀ i < g.hsize, linedata[i]? = g.linedata[i]?) ∧
      (rupper < rlower → ∀ r < g.sy, linedata[g.hsize + r]? = scrolledRow g rupper rlower r) := by
  have hroom := h.room
  obtain ⟨linedata, hmove, hlen, hget⟩ := gridMoveLines_eq h (g.hsize + rupper)
    (g.hsize + rupper + 1) (rlower - rupper) (by omega) (by omega)
  unfold gridViewScrollRegionUp
  rw [if_neg (by simp [hoff]), gridViewY_eq h (by omega), gridViewY_eq h (by omega),
    Exec.usub_of_le (by omega), pure_bind, Exec.uadd_of_lt (by omega), Nat.add_sub_add_left, hmove]
  refine ⟨linedata, rfl, hlen, fun i hi => ?_, fun hlt r hr => ?_⟩
  · rw [hget, if_neg (by omega), if_neg (by omega)]
  · rw [hget, scrolledRow, Grid.row, Grid.row]
    split_ifs <;> first | rfl | omega | (congr 1; omega)

/-- All the ways of scrolling a region up agree: they leave the rows outside it unchanged, those
    in it one row up, and a blank one at its bottom. With the history on the history has the
    top row of the region at its end, after some of its oldest lines are collected if it was at
    the limit; with the history off it is unchanged. -/
theorem gridViewScrollRegionUp_agrees (h : g.Whole) (hlimit : 1 ≤ g.hlimit) {rupper rlower : ℕ}
    (hregion : rupper < rlower) (hlower : rlower < g.sy) :
    ∃ on off, gridViewScrollRegionUp { g with history := true } rupper rlower = pure on ∧
      gridViewScrollRegionUp { g with history := false } rupper rlower = pure off ∧
      (∀ r < g.sy, on.row r = off.row r ∧ on.row r =
        if r < rupper ∨ rlower < r then g.row r else if r < rlower then g.row (r + 1) else some {}) ∧
      on.scrollback = g.scrollback.drop (collected g) ++ (g.row rupper).toList ∧
      off.scrollback = g.scrollback := by
  have hlen := h.length
  have hle := collected_le hlimit
  obtain ⟨l₁, hon, hlen₁, hold, htop, hrows₁⟩ := gridViewScrollRegionUp_on
    (g := { g with history := true }) ⟨h.length, h.room⟩ rfl (collected_le hlimit) hregion.le hlower
  obtain ⟨l₂, hoff, hlen₂, hkept, hrows₂⟩ := gridViewScrollRegionUp_off
    (g := { g with history := false }) ⟨h.length, h.room⟩ rfl hregion.le hlower
  refine ⟨_, _, hon, hoff, fun r hr => ⟨?_, hrows₁ r hr⟩, ?_, ?_⟩
  · exact (hrows₁ r hr).trans (hrows₂ hregion r hr).symm
  · obtain ⟨line, hline⟩ : ∃ line, g.row rupper = some line :=
      ⟨_, List.getElem?_eq_getElem (by omega)⟩
    have hcollected : collected { g with history := true } = collected g := rfl
    rw [hcollected] at hlen₁ hold htop
    dsimp only at hlen₁ hold htop
    rw [hline]
    refine List.ext_getElem? fun i => ?_
    dsimp only [Grid.scrollback]
    rw [hcollected, List.getElem?_take, List.getElem?_append, List.length_drop, List.length_take,
      List.getElem?_drop, List.getElem?_take, Nat.min_eq_left (by omega)]
    rcases lt_trichotomy i (g.hsize - collected g) with hlt | rfl | hgt
    · rw [if_pos (by omega), if_pos hlt, if_pos (by omega), hold i hlt]
    · rw [if_pos (by omega), if_neg (by omega), htop, Nat.sub_self]
      exact hline
    · rw [if_neg (by omega), if_neg (by omega), Option.toList_some, List.getElem?_eq_none]
      rw [List.length_singleton]
      omega
  · refine List.ext_getElem? fun i => ?_
    dsimp only [Grid.scrollback]
    rw [List.getElem?_take, List.getElem?_take]
    split_ifs with hi
    · exact hkept i hi
    · rfl

/-- A screen of two rows, its history at the limit. -/
theorem gridViewScrollRegionUp_agrees_small : ∃ on off,
    gridViewScrollRegionUp ⟨true, 1, 2, 1, 1, [{ wrapped := true }, { celldata := [{}] }, {}]⟩ 0 1 =
      pure on ∧
    gridViewScrollRegionUp ⟨false, 1, 2, 1, 1, [{ wrapped := true }, { celldata := [{}] }, {}]⟩ 0 1 =
      pure off ∧
    on.row 0 = off.row 0 ∧ on.scrollback = [{ celldata := [{}] }] := by
  obtain ⟨on, off, hon, hoff, hrows, hback, -⟩ := gridViewScrollRegionUp_agrees
    (g := ⟨true, 1, 2, 1, 1, [{ wrapped := true }, { celldata := [{}] }, {}]⟩)
    ⟨by decide, by decide⟩ (by decide) (by decide : 0 < 1) (by decide : 1 < 2)
  exact ⟨on, off, hon, hoff, (hrows 0 (by decide)).1, hback⟩

/-! ## Runs -/

/-- What writes to a grid and what scrolls it. -/
inductive HistoryOp
  | print (px py : ℕ) (gc : GridCell)
  /-- The region of a line feed scrolls up. -/
  | scroll (rupper rlower : ℕ)
  /-- The whole screen is cleared. -/
  | clear

/-- Do an operation. Cells are printed, and regions lie, within the screen. -/
def historyStep (gd : Grid) : HistoryOp → Exec Grid
  | .print px py gc => if px < gd.sx then gridViewSetCell gd px py gc else pure gd
  | .scroll rupper rlower =>
    if rupper ≤ rlower ∧ rlower < gd.sy then gridViewScrollRegionUp gd rupper rlower else pure gd
  | .clear => gridViewClearHistory gd

/-- Create a grid and run a sequence of operations on it. -/
def historyRun (sx sy hlimit : ℕ) (ops : List HistoryOp) : Exec Grid :=
  ops.foldlM historyStep (gridCreate sx sy hlimit)

/-- Whether an operation scrolls a line into the history. -/
def HistoryOp.Scrolls (gd : Grid) : HistoryOp → Prop
  | .print _ _ _ => False
  | .scroll rupper rlower => rupper ≤ rlower ∧ rlower < gd.sy
  | .clear => ∃ r < gd.sy, (gd.row r).any GridLine.used = true

instance (gd : Grid) : DecidablePred (HistoryOp.Scrolls gd)
  | .print _ _ _ => inferInstanceAs (Decidable False)
  | .scroll rupper rlower => inferInstanceAs (Decidable (rupper ≤ rlower ∧ rlower < gd.sy))
  | .clear => inferInstanceAs (Decidable (∃ r < gd.sy, (gd.row r).any GridLine.used = true))

/-- A grid with a history within its limit, and nothing else in its array. -/
structure Grid.Limited (g : Grid) (hlimit : ℕ) : Prop where
  on : g.history = true
  limit : g.hlimit = hlimit
  hsize : g.hsize ≤ hlimit
  length : g.linedata.length = g.hsize + g.sy
  room : hlimit + g.sy + 1 < Exec.word
  sx : g.sx < Exec.word
  sy : 1 ≤ g.sy

variable {hlimit : ℕ}

theorem Grid.Limited.whole (h : g.Limited hlimit) : g.Whole := by
  have := h.room
  have := h.hsize
  exact ⟨h.length.ge, by omega⟩

/-- With a limit of at least one, a line that comes in leaves the history within it. -/
theorem collected_succ_le (hlimit : 1 ≤ g.hlimit) (h : g.hsize ≤ g.hlimit) :
    g.hsize - collected g + 1 ≤ g.hlimit := by
  unfold collected
  split_ifs <;> omega

theorem Grid.Limited.scroll (h : g.Limited hlimit) (hlimit' : 1 ≤ hlimit) {rupper rlower : ℕ}
    (hupper : rupper ≤ rlower) (hlower : rlower < g.sy) :
    ∃ g', gridViewScrollRegionUp g rupper rlower = pure g' ∧ g'.Limited hlimit := by
  obtain ⟨linedata, hscroll, hlen, -⟩ :=
    gridViewScrollRegionUp_on h.whole h.on (collected_le (h.limit ▸ hlimit')) hupper hlower
  refine ⟨_, hscroll, h.on, h.limit, ?_, hlen, h.room, h.sx, h.sy⟩
  have := collected_succ_le (g := g) (h.limit ▸ hlimit') (h.limit ▸ h.hsize)
  rwa [h.limit] at this

theorem Grid.Limited.scrollLines (h : g.Limited hlimit) (hlimit' : 1 ≤ hlimit) (n : ℕ) :
    ∃ g', Tmux.scrollLines g n = pure g' ∧ g'.Limited hlimit := by
  induction n generalizing g with
  | zero => exact ⟨g, rfl, h⟩
  | succ n ih =>
    have hroom := h.room
    have hsize := h.hsize
    have hle := collected_le (g := g) (h.limit ▸ hlimit')
    obtain ⟨l₁, hcollect, hlen₁, -⟩ := gridCollectHistory_eq h.whole hle
    have hwhole₁ : Grid.Whole { g with linedata := l₁, hsize := g.hsize - collected g } :=
      ⟨by dsimp only; rw [hlen₁, h.length]; omega, by dsimp only; omega⟩
    obtain ⟨l₂, hscroll, hlen₂, -⟩ := gridScrollHistory_eq hwhole₁
    have h₂ : Grid.Limited { g with linedata := l₂, hsize := g.hsize - collected g + 1 } hlimit := by
      refine ⟨h.on, h.limit, ?_, hlen₂, h.room, h.sx, h.sy⟩
      have := collected_succ_le (g := g) (h.limit ▸ hlimit') (h.limit ▸ h.hsize)
      rwa [h.limit] at this
    obtain ⟨g', hrest, h'⟩ := ih h₂
    refine ⟨g', ?_, h'⟩
    rw [Tmux.scrollLines, hcollect, pure_bind, hscroll, pure_bind]
    exact hrest

theorem Grid.Limited.print (h : g.Limited hlimit) (px py : ℕ) (gc : GridCell) :
    ∃ g', historyStep g (.print px py gc) = pure g' ∧ g'.Limited hlimit := by
  rw [historyStep]
  split_ifs with hpx
  · have := h.sx
    obtain ⟨linedata, hset, hlen, -⟩ := gridSetCell_eq h.whole (by omega : px + 1 < Exec.word) (gridViewY g py) gc
    exact ⟨_, hset, h.on, h.limit, h.hsize, hlen.trans h.length, h.room, h.sx, h.sy⟩
  · exact ⟨g, rfl, h⟩

/-- With a limit of at least one, an operation keeps the history within it. -/
theorem historyStep_limited (h : g.Limited hlimit) (hlimit' : 1 ≤ hlimit) (op : HistoryOp) :
    ∃ g', historyStep g op = pure g' ∧ g'.Limited hlimit := by
  cases op with
  | print px py gc => exact h.print px py gc
  | scroll rupper rlower =>
    rw [historyStep]
    split_ifs with hregion
    · exact h.scroll hlimit' hregion.1 hregion.2
    · exact ⟨g, rfl, h⟩
  | clear =>
    obtain ⟨last, -, hlast, -⟩ := lastUsed_eq h.whole le_rfl
    obtain ⟨g', hscroll, h'⟩ := h.scrollLines hlimit' last
    exact ⟨g', by rw [historyStep, gridViewClearHistory, hlast, pure_bind, hscroll], h'⟩

/-- An operation that scrolls no line into the history leaves it as it is. -/
theorem historyStep_still (h : g.Limited hlimit) {op : HistoryOp} (hop : ¬ op.Scrolls g) :
    ∃ g', historyStep g op = pure g' ∧ g'.Limited hlimit := by
  cases op with
  | print px py gc => exact h.print px py gc
  | scroll rupper rlower => exact ⟨g, if_neg hop, h⟩
  | clear =>
    obtain ⟨last, -, hlast, hzero, -⟩ := lastUsed_eq h.whole le_rfl
    refine ⟨g, ?_, h⟩
    rw [historyStep, gridViewClearHistory, hlast, pure_bind, hzero.2 hop, scrollLines]

/-- With a limit of zero, collecting lines takes one away from a history that has none. -/
theorem gridCollectHistory_wraps (h : g.Limited 0) (g' : Grid) : gridCollectHistory g ≠ pure g' := by
  have hsy := h.sy
  have hroom := h.whole.room
  have hzero : g.hsize = 0 := Nat.le_zero.1 h.hsize
  obtain ⟨linedata, hmove, -⟩ := gridMoveLines_eq h.whole 0 1 (g.sy - 1) (by omega) (by omega)
  intro hpure
  rw [gridCollectHistory, if_neg (by rw [h.limit]; omega), h.limit] at hpure
  dsimp only at hpure
  rw [if_pos (by decide), hzero, Exec.uadd_of_lt (by omega), Nat.zero_add, Exec.usub_of_le hsy, pure_bind,
    hmove, pure_bind] at hpure
  obtain ⟨hsize, hsub, -⟩ := Exec.bind_eq_pure.1 hpure
  have hwraps : (usub g.hsize 1).wraps = true := Exec.usub_wraps.2 (by omega)
  rw [hsub, Exec.wraps_pure] at hwraps
  cases hwraps

/-- With a limit of zero, an operation that scrolls a line into the history makes its size wrap. -/
theorem historyStep_wraps (h : g.Limited 0) {op : HistoryOp} (hop : op.Scrolls g) (g' : Grid) :
    historyStep g op ≠ pure g' := by
  intro hpure
  cases op with
  | print px py gc => exact hop
  | scroll rupper rlower =>
    rw [HistoryOp.Scrolls] at hop
    rw [historyStep, if_pos hop, gridViewScrollRegionUp, if_pos h.on] at hpure
    obtain ⟨g₁, hcollect, -⟩ := Exec.bind_eq_pure.1 hpure
    exact gridCollectHistory_wraps h g₁ hcollect
  | clear =>
    obtain ⟨last, -, hlast, hzero, -⟩ := lastUsed_eq h.whole le_rfl
    obtain ⟨n, rfl⟩ := Nat.exists_eq_succ_of_ne_zero fun e => hzero.1 e hop
    rw [historyStep, gridViewClearHistory, hlast, pure_bind, scrollLines] at hpure
    obtain ⟨g₁, hcollect, -⟩ := Exec.bind_eq_pure.1 hpure
    exact gridCollectHistory_wraps h g₁ hcollect

/-- With a limit of zero, a run that stays in range scrolls no line into the history. -/
theorem along_of_prefixes {ops : List HistoryOp} (h : g.Limited 0)
    (hrun : ∀ l, l <+: ops → ∃ g', l.foldlM historyStep g = pure g') :
    Exec.Along historyStep (fun g op => ¬ op.Scrolls g) g ops := by
  induction ops generalizing g with
  | nil => trivial
  | cons op ops ih =>
    have hop : ¬ op.Scrolls g := fun hop => by
      obtain ⟨g', hg'⟩ := hrun [op] (List.prefix_append [op] ops)
      rw [List.foldlM_cons] at hg'
      obtain ⟨g₁, hstep, -⟩ := Exec.bind_eq_pure.1 hg'
      exact historyStep_wraps h hop g₁ hstep
    obtain ⟨g₁, hstep, h₁⟩ := historyStep_still h hop
    refine ⟨hop, fun g₂ hg₂ => ?_⟩
    rw [hstep, Exec.value?_pure] at hg₂
    obtain rfl := Option.some.inj hg₂
    refine ih h₁ fun l hl => ?_
    obtain ⟨g', hg'⟩ := hrun (op :: l) (List.cons_prefix_cons.2 ⟨rfl, hl⟩)
    rw [List.foldlM_cons, hstep, pure_bind] at hg'
    exact ⟨g', hg'⟩

/-- A run of a grid returns without its sizes wrapping or its array being left, with a history
    within its limit after every operation, exactly if the limit is at least one or no line is
    ever scrolled into the history. -/
theorem historyRun_iff {sx sy hlimit : ℕ} (hsx : sx ≤ intMax) (hsy : sy ≤ intMax) (hsy' : 1 ≤ sy)
    (hlimit' : hlimit ≤ intMax) (ops : List HistoryOp) :
    (∀ l, l <+: ops → ∃ g, historyRun sx sy hlimit l = pure g ∧ g.hsize ≤ max hlimit 1 ∧
        g.linedata.length = g.hsize + g.sy) ↔
      1 ≤ hlimit ∨
        Exec.Along historyStep (fun g op => ¬ op.Scrolls g) (gridCreate sx sy hlimit) ops := by
  have hword : intMax + intMax + 1 < Exec.word := by decide
  have h₀ : (gridCreate sx sy hlimit).Limited hlimit :=
    ⟨rfl, rfl, Nat.zero_le _, by simp [gridCreate], by dsimp only [gridCreate]; omega,
      by dsimp only [gridCreate]; omega, hsy'⟩
  constructor
  · intro hrun
    rcases Nat.eq_zero_or_pos hlimit with rfl | hpos
    · exact .inr <| along_of_prefixes h₀ fun l hl => (hrun l hl).imp fun _ hg => hg.1
    · exact .inl hpos
  · intro hcond l hl
    obtain ⟨r, rfl⟩ := hl
    obtain ⟨g, hrun, hg⟩ : ∃ g, l.foldlM historyStep (gridCreate sx sy hlimit) = pure g ∧
        g.Limited hlimit := by
      rcases hcond with hpos | halong
      · exact Exec.foldlM_invariant (fun _ op h => historyStep_limited h hpos op) l h₀
      · exact Exec.foldlM_along (fun _ _ hop h => historyStep_still h hop) halong.left h₀
    exact ⟨g, hrun, hg.hsize.trans (le_max_left _ _), hg.length⟩

/-- Lines are scrolled and the screen is cleared with room for one line in the history. -/
theorem historyRun_small : ∃ g, historyRun 2 2 1 [.print 0 1 {}, .scroll 0 1, .clear, .scroll 0 1] = pure g ∧
    g.hsize ≤ max 1 1 ∧ g.linedata.length = g.hsize + g.sy :=
  (historyRun_iff (by decide) (by decide) (by decide) (by decide) _).2 (.inl le_rfl) _ List.prefix_rfl

/-- With a limit of zero, a line feed at the bottom of the screen makes the size of the history
    wrap. -/
theorem historyRun_wraps : ¬ ∀ (sx sy hlimit : ℕ) (ops : List HistoryOp), sx ≤ intMax → sy ≤ intMax →
    1 ≤ sx → 1 ≤ sy → hlimit ≤ intMax → ∀ l, l <+: ops → ∃ g, historyRun sx sy hlimit l = pure g ∧
      g.hsize ≤ max hlimit 1 ∧ g.linedata.length = g.hsize + g.sy := by
  intro h
  obtain ⟨g, hg, -⟩ := h 80 24 0 [.scroll 0 23] (by decide) (by decide) (by decide) (by decide) (by decide)
    _ List.prefix_rfl
  have hwraps : (historyRun 80 24 0 [.scroll 0 23]).wraps = true := by decide +kernel
  rw [hg] at hwraps
  cases hwraps

end Tmux
