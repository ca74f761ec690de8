import Mathlib.Order.Bounds.Basic
import Tmux.Copy.Search
import Tmux.Copy.Copied

/-!
# What a search finds

The cells of a search grid are looked for in a line from left to right (`windowCopySearchLr`) or
from right to left (`windowCopySearchRlFrom`). Where they are in the line is a column with room
for them up to its end (`IsMatch`).

From right to left the last one of these columns is found, and from left to right the first one,
but for the column in which they end at the end of the line (`searchLine_agrees_iff`).
-/

namespace Tmux

open Exec (uadd usub uadd_of_lt usub_of_le)

variable {gd sgd : Grid} {py : ℕ}

/-! ## Cells -/

/-- The lines of a grid are there, and the data of their characters. -/
structure Grid.Readable (g : Grid) : Prop where
  whole : g.Whole
  backed : g.Every GridLine.Backed

/-- A line of a grid, an empty one past its end. -/
def Grid.line (g : Grid) (py : ℕ) : GridLine := if py < g.hsize + g.sy then g.linedata[py]?.getD {} else {}

/-- The bytes of the UTF-8 character in a column. -/
def GridLine.utf8Bytes (gl : GridLine) (px : ℕ) : List UInt8 :=
  match gl.utf8data[px]? with
  | some (some gu) => gu.data.take (gridUtf8Size gu)
  | _ => []

/-- Whether cells have the same character. -/
def sameCell (gl : GridLine) (px : ℕ) (sgl : GridLine) (spx : ℕ) : Bool :=
  if (gl.cell px).isUtf8 ≠ (sgl.cell spx).isUtf8 then false
  else if (gl.cell px).isUtf8 then gl.utf8Bytes px = sgl.utf8Bytes spx
  else (gl.cell px).data = (sgl.cell spx).data

theorem Grid.Readable.peekCell (h : gd.Readable) (px py : ℕ) : gridPeekCell gd px py = pure ((gd.line py).cell px) := by
  have hlength := h.whole.length
  rw [gridPeekCell, gridCheckY_eq h.whole, Grid.line]
  by_cases hpy : py < gd.hsize + gd.sy
  · rw [if_pos hpy, decide_eq_true hpy, if_neg (by simp), List.getElem?_eq_getElem (by omega),
      Block.load_eq (List.getElem?_eq_getElem (by omega)), pure_bind]
    rfl
  · rw [if_neg hpy, decide_eq_false hpy, if_pos (by simp)]
    rfl

theorem Grid.Readable.peekUtf8 (h : gd.Readable) {px : ℕ} (hutf8 : ((gd.line py).cell px).isUtf8 = true) :
    ∃ gu, gridPeekUtf8 gd px py = pure (some (some gu)) ∧ (gd.line py).utf8Bytes px = gu.data.take (gridUtf8Size gu) := by
  have hlength := h.whole.length
  rw [gridPeekUtf8, gridCheckY_eq h.whole]
  unfold Grid.line at hutf8 ⊢
  by_cases hpy : py < gd.hsize + gd.sy
  · have hload : gd.linedata[py]? = some gd.linedata[py] := List.getElem?_eq_getElem (by omega)
    rw [if_pos hpy, hload, Option.getD_some] at hutf8 ⊢
    obtain ⟨gu, hgu⟩ := h.backed _ (List.mem_of_getElem? hload) px hutf8
    refine ⟨gu, ?_, by rw [GridLine.utf8Bytes, hgu]⟩
    rw [decide_eq_true hpy, if_neg (by simp), Block.load_eq hload, pure_bind, hgu]
  · rw [if_neg hpy] at hutf8
    exact absurd (show gridDefaultCell.isUtf8 = true from hutf8) (by decide)

theorem windowCopySearchCompare_eq (hgd : gd.Readable) (hsgd : sgd.Readable) (px py spx : ℕ) :
    windowCopySearchCompare gd px py sgd spx = pure (sameCell (gd.line py) px (sgd.line 0) spx) := by
  rw [windowCopySearchCompare, hgd.peekCell, pure_bind, hsgd.peekCell, pure_bind, sameCell]
  by_cases hflags : ((gd.line py).cell px).isUtf8 ≠ ((sgd.line 0).cell spx).isUtf8
  · rw [if_pos hflags, if_pos hflags]
  rw [if_neg hflags, if_neg hflags]
  by_cases hutf8 : ((gd.line py).cell px).isUtf8 = true
  · rw [if_pos hutf8, if_pos hutf8]
    obtain ⟨gu, hpeek, hbytes⟩ := hgd.peekUtf8 hutf8
    obtain ⟨sgu, hspeek, hsbytes⟩ := hsgd.peekUtf8 ((not_ne_iff.1 hflags).symm.trans hutf8)
    simp only [hpeek, hspeek, Exec.follow_some, pure_bind, hbytes, hsbytes, gridUtf8Compare]
  · rw [if_neg hutf8, if_neg hutf8]

/-! ## Lines -/

/-- The cells of a search grid are in a line from a column on, up to its end. -/
def IsMatch (gd sgd : Grid) (py ax : ℕ) : Prop :=
  ax + sgd.sx ≤ gd.sx ∧ ∀ i < sgd.sx, sameCell (gd.line py) (ax + i) (sgd.line 0) i = true

instance (gd sgd : Grid) (py ax : ℕ) : Decidable (IsMatch gd sgd py ax) := inferInstanceAs (Decidable (_ ∧ _))

theorem matchesFrom_eq (hgd : gd.Readable) (hsgd : sgd.Readable) {ax n bx : ℕ} (hroom : ax + (bx + n) ≤ Exec.word) :
    matchesFrom gd sgd ax py n bx =
      pure (decide (∀ i, bx ≤ i → i < bx + n → sameCell (gd.line py) (ax + i) (sgd.line 0) i = true)) := by
  induction n generalizing bx with
  | zero => exact congrArg pure (decide_eq_true fun i h₁ h₂ => absurd h₂ (by omega)).symm
  | succ n ih =>
    rw [matchesFrom, uadd_of_lt (by omega), windowCopySearchCompare_eq hgd hsgd, pure_bind, ih (by omega)]
    by_cases hsame : sameCell (gd.line py) (ax + bx) (sgd.line 0) bx = true
    · rw [if_pos hsame]
      refine congrArg pure (decide_eq_decide.2 ⟨fun h i h₁ h₂ => ?_, fun h i h₁ h₂ => h i (by omega) (by omega)⟩)
      rcases Nat.eq_or_lt_of_le h₁ with rfl | h₁
      · exact hsame
      · exact h i h₁ (by omega)
    · rw [if_neg hsame]
      exact congrArg pure (decide_eq_false fun h => hsame (h bx (le_refl _) (by omega))).symm

/-- Whether the cells are in a line is found out where there is room for them. -/
theorem matchesFrom_isMatch (hgd : gd.Readable) (hsgd : sgd.Readable) {ax : ℕ} (hroom : ax + sgd.sx ≤ gd.sx)
    (hwidth : gd.sx ≤ Exec.word) : matchesFrom gd sgd ax py sgd.sx 0 = pure (decide (IsMatch gd sgd py ax)) := by
  rw [matchesFrom_eq hgd hsgd (by omega)]
  exact congrArg pure (decide_eq_decide.2 ⟨fun h => ⟨hroom, fun i hi => h i (Nat.zero_le _) (by omega)⟩,
    fun h i _ hi => h.2 i (by omega)⟩)

/-- The last column, from `first` on and before `ax`, where a line has the cells searched for. -/
def windowCopySearchRlFrom (gd sgd : Grid) (py first : ℕ) : ℕ → Exec (Option ℕ)
  | 0 => pure none
  | ax + 1 =>
    if ax + 1 ≤ first then pure none
    else do
      let room ← usub gd.sx ax
      if room < sgd.sx then windowCopySearchRlFrom gd sgd py first ax
      else do
        let found ← matchesFrom gd sgd ax py sgd.sx 0
        if found then pure (some ax) else windowCopySearchRlFrom gd sgd py first ax

/-- All searches from right to left look at the columns from the first one on. -/
theorem windowCopySearchRl_eq (gd sgd : Grid) (py ax : ℕ) :
    windowCopySearchRl gd sgd py ax = windowCopySearchRlFrom gd sgd py 0 ax := by
  induction ax with
  | zero => rfl
  | succ ax ih =>
    rw [windowCopySearchRl, windowCopySearchRlFrom, if_neg (by omega)]
    simp only [ih]

/-- From left to right the first column is found where the cells are and do not end the line. -/
theorem windowCopySearchLr_least (hgd : gd.Readable) (hsgd : sgd.Readable) (hwidth : gd.sx + sgd.sx < Exec.word)
    (py n ax : ℕ) (hn : ax + n ≤ gd.sx) : ∃ found, windowCopySearchLr gd sgd py n ax = pure found ∧
      ∀ x, found = some x ↔
        IsLeast {x | ax ≤ x ∧ x < ax + n ∧ IsMatch gd sgd py x ∧ x + sgd.sx ≠ gd.sx} x := by
  induction n generalizing ax with
  | zero => exact ⟨none, rfl, fun x => iff_of_false nofun fun h => absurd h.1.2.1 (Nat.not_lt.2 h.1.1)⟩
  | succ n ih =>
    rw [windowCopySearchLr, uadd_of_lt (by omega)]
    by_cases hroom : ax + sgd.sx ≥ gd.sx
    · -- There is no room from here on.
      rw [if_pos hroom]
      refine ⟨none, rfl, fun x => iff_of_false nofun fun h => ?_⟩
      obtain ⟨⟨hx, -, hmatch, hend⟩, -⟩ := h
      exact absurd hmatch.1 (by omega)
    rw [if_neg hroom, matchesFrom_isMatch hgd hsgd (by omega) (by omega), pure_bind]
    by_cases hmatch : IsMatch gd sgd py ax
    · rw [if_pos (decide_eq_true hmatch)]
      have hleast : IsLeast {x | ax ≤ x ∧ x < ax + (n + 1) ∧ IsMatch gd sgd py x ∧ x + sgd.sx ≠ gd.sx} ax :=
        ⟨⟨le_refl _, by omega, hmatch, by omega⟩, fun x hx => hx.1⟩
      exact ⟨some ax, rfl, fun x => ⟨fun hx => Option.some.inj hx ▸ hleast, fun hx => by rw [hleast.unique hx]⟩⟩
    · rw [if_neg (by simpa using hmatch)]
      obtain ⟨found, heq, hfound⟩ := ih (ax + 1) (by omega)
      refine ⟨found, heq, fun x => (hfound x).trans (Iff.of_eq (congrArg (IsLeast · x) (Set.ext fun y => ?_)))⟩
      constructor
      · rintro ⟨h₁, h₂, h₃⟩
        exact ⟨by omega, by omega, h₃⟩
      · rintro ⟨h₁, h₂, h₃⟩
        refine ⟨Nat.succ_le_of_lt (lt_of_le_of_ne h₁ ?_), by omega, h₃⟩
        rintro rfl
        exact hmatch h₃.1

/-- From right to left the last column is found where the cells are. -/
theorem windowCopySearchRlFrom_greatest (hgd : gd.Readable) (hsgd : sgd.Readable) (hwidth : gd.sx ≤ Exec.word)
    (py first ax : ℕ) (hax : ax ≤ gd.sx + 1) : ∃ found, windowCopySearchRlFrom gd sgd py first ax = pure found ∧
      ∀ x, found = some x ↔ IsGreatest {x | first ≤ x ∧ x < ax ∧ IsMatch gd sgd py x} x := by
  induction ax with
  | zero => exact ⟨none, rfl, fun x => iff_of_false nofun fun h => absurd h.1.2.1 (Nat.not_lt_zero _)⟩
  | succ ax ih =>
    rw [windowCopySearchRlFrom]
    by_cases hfirst : ax + 1 ≤ first
    · rw [if_pos hfirst]
      exact ⟨none, rfl, fun x => iff_of_false nofun fun h => absurd h.1.1 (by have := h.1.2.1; omega)⟩
    obtain ⟨found, heq, hfound⟩ := ih (by omega)
    -- Where the cells are not at the last column, it is left out.
    have hskip : ¬ IsMatch gd sgd py ax → ∀ x, found = some x ↔
        IsGreatest {x | first ≤ x ∧ x < ax + 1 ∧ IsMatch gd sgd py x} x := fun hmatch x => by
      refine (hfound x).trans (Iff.of_eq (congrArg (IsGreatest · x) (Set.ext fun y => ?_)))
      constructor
      · rintro ⟨h₁, h₂, h₃⟩
        exact ⟨h₁, by omega, h₃⟩
      · rintro ⟨h₁, h₂, h₃⟩
        refine ⟨h₁, lt_of_le_of_ne (Nat.le_of_lt_succ h₂) ?_, h₃⟩
        rintro rfl
        exact hmatch h₃
    rw [if_neg hfirst, usub_of_le (by omega), pure_bind]
    by_cases hroom : gd.sx - ax < sgd.sx
    · rw [if_pos hroom]
      exact ⟨found, heq, hskip fun hmatch => absurd hmatch.1 (by omega)⟩
    rw [if_neg hroom, matchesFrom_isMatch hgd hsgd (by omega) hwidth, pure_bind]
    by_cases hmatch : IsMatch gd sgd py ax
    · rw [if_pos (decide_eq_true hmatch)]
      have hgreatest : IsGreatest {x | first ≤ x ∧ x < ax + 1 ∧ IsMatch gd sgd py x} ax :=
        ⟨⟨by omega, by omega, hmatch⟩, fun x hx => Nat.le_of_lt_succ hx.2.1⟩
      exact ⟨some ax, rfl, fun x => ⟨fun hx => Option.some.inj hx ▸ hgreatest, fun hx => by rw [hgreatest.unique hx]⟩⟩
    · rw [if_neg (by simpa using hmatch)]
      exact ⟨found, heq, hskip hmatch⟩

/-- The searches of a line in both directions accept the same columns, those where the cells are, and find the first
    one of them and the last one, whatever columns are looked at. -/
structure SearchAgrees (gd sgd : Grid) (py : ℕ) : Prop where
  accepts : ∀ ax < gd.sx, (windowCopySearchLr gd sgd py 1 ax = pure (some ax) ↔ IsMatch gd sgd py ax) ∧
    (windowCopySearchRlFrom gd sgd py ax (ax + 1) = pure (some ax) ↔ IsMatch gd sgd py ax)
  lr : ∀ first last, last ≤ gd.sx → ∃ found,
    windowCopySearchLr gd sgd py (last - first) first = pure found ∧
      ∀ x, found = some x ↔ IsLeast {x | first ≤ x ∧ x < last ∧ IsMatch gd sgd py x} x
  rl : ∀ first last, last ≤ gd.sx → ∃ found,
    windowCopySearchRlFrom gd sgd py first (last + 1) = pure found ∧
      ∀ x, found = some x ↔ IsGreatest {x | first ≤ x ∧ x ≤ last ∧ IsMatch gd sgd py x} x

/-- Where the cells do not end the line, the first column where they are is found. -/
theorem windowCopySearchLr_isLeast (hgd : gd.Readable) (hsgd : sgd.Readable) (hwidth : gd.sx + sgd.sx < Exec.word)
    (hend : ¬ IsMatch gd sgd py (gd.sx - sgd.sx)) {first last : ℕ} (hlast : last ≤ gd.sx) :
    ∃ found, windowCopySearchLr gd sgd py (last - first) first = pure found ∧
      ∀ x, found = some x ↔ IsLeast {x | first ≤ x ∧ x < last ∧ IsMatch gd sgd py x} x := by
  rcases le_or_gt last first with hle | hlt
  · rw [show last - first = 0 by omega]
    refine ⟨none, rfl, fun x => iff_of_false nofun fun h => ?_⟩
    have hx := h.1
    exact absurd hx.1 (by have := hx.2.1; omega)
  obtain ⟨found, heq, hfound⟩ := windowCopySearchLr_least hgd hsgd hwidth py (last - first) first (by omega)
  refine ⟨found, heq, fun x => (hfound x).trans (Iff.of_eq (congrArg (IsLeast · x) (Set.ext fun y => ?_)))⟩
  rw [show first + (last - first) = last by omega]
  constructor
  · exact fun ⟨h₁, h₂, h₃, _⟩ => ⟨h₁, h₂, h₃⟩
  · refine fun ⟨h₁, h₂, h₃⟩ => ⟨h₁, h₂, h₃, fun hy => hend ?_⟩
    rwa [show gd.sx - sgd.sx = y by omega]

/-- The searches of a line agree if and only if the cells searched for do not end it. -/
theorem searchLine_agrees_iff (hgd : gd.Readable) (hsgd : sgd.Readable) (hwidth : gd.sx + sgd.sx < Exec.word)
    (hsx : 1 ≤ sgd.sx) (py : ℕ) : SearchAgrees gd sgd py ↔ ¬ IsMatch gd sgd py (gd.sx - sgd.sx) := by
  constructor
  · intro h hmatch
    have hroom := hmatch.1
    obtain ⟨found, heq, hfound⟩ := windowCopySearchLr_least hgd hsgd hwidth py 1 (gd.sx - sgd.sx) (by omega)
    have haccepts := (h.accepts (gd.sx - sgd.sx) (by omega)).1.2 hmatch
    rw [heq, Exec.pure_inj, hfound] at haccepts
    exact haccepts.1.2.2.2 (by omega)
  · intro hend
    have hlr : ∀ first last, last ≤ gd.sx → ∃ found, windowCopySearchLr gd sgd py (last - first) first = pure found ∧
        ∀ x, found = some x ↔ IsLeast {x | first ≤ x ∧ x < last ∧ IsMatch gd sgd py x} x := fun first last hlast =>
      windowCopySearchLr_isLeast hgd hsgd hwidth hend hlast
    have hrl : ∀ first last, last ≤ gd.sx → ∃ found,
        windowCopySearchRlFrom gd sgd py first (last + 1) = pure found ∧
          ∀ x, found = some x ↔ IsGreatest {x | first ≤ x ∧ x ≤ last ∧ IsMatch gd sgd py x} x := fun first last hlast => by
      have hgreatest := windowCopySearchRlFrom_greatest hgd hsgd (by omega) py first (last + 1) (by omega)
      simpa only [Nat.lt_succ_iff] using hgreatest
    refine ⟨fun ax hax => ⟨?_, ?_⟩, hlr, hrl⟩
    · obtain ⟨found, heq, hfound⟩ := hlr ax (ax + 1) (by omega)
      rw [Nat.add_sub_cancel_left] at heq
      rw [heq, Exec.pure_inj, hfound]
      exact ⟨fun h => h.1.2.2, fun h => ⟨⟨le_refl _, Nat.lt_succ_self _, h⟩, fun x hx => hx.1⟩⟩
    · obtain ⟨found, heq, hfound⟩ := hrl ax ax hax.le
      rw [heq, Exec.pure_inj, hfound]
      exact ⟨fun h => h.1.2.2, fun h => ⟨⟨le_refl _, le_refl _, h⟩, fun x hx => hx.2.1⟩⟩

/-! ## A line with a word at its end -/

/-- A grid with lines, as wide as given. -/
def gridOfLines (sx : ℕ) (lines : List GridLine) : Grid := { gridCreate sx lines.length 0 with linedata := lines }

theorem gridOfLines_readable {sx : ℕ} {lines : List GridLine} (hlines : lines.length + 1 < Exec.word)
    (hascii : ∀ gl ∈ lines, ∀ gc ∈ gl.celldata, gc.isUtf8 = false) : (gridOfLines sx lines).Readable where
  whole := ⟨by simp [gridOfLines, gridCreate], by simpa [gridOfLines, gridCreate] using hlines⟩
  backed gl hgl px hutf8 := by
    rw [GridLine.cell] at hutf8
    rcases hcell : gl.celldata[px]? with _ | gc
    · rw [hcell] at hutf8
      exact absurd (show gridDefaultCell.isUtf8 = true from hutf8) (by decide)
    · rw [hcell, Option.getD_some, hascii gl hgl gc (List.mem_of_getElem? hcell)] at hutf8
      cases hutf8

theorem searchLine_agrees_small :
    SearchAgrees (gridOfLines 4 [lineOfText [97, 98, 97, 98]]) (gridOfLines 2 [lineOfText [97, 98]]) 0 = False ∧
      SearchAgrees (gridOfLines 5 [lineOfText [97, 98, 97, 98]]) (gridOfLines 2 [lineOfText [97, 98]]) 0 :=
  ⟨eq_false fun h => (searchLine_agrees_iff (gridOfLines_readable (by decide) (by decide))
      (gridOfLines_readable (by decide) (by decide)) (by decide) (by decide) 0).1 h (by decide +kernel),
    (searchLine_agrees_iff (gridOfLines_readable (by decide) (by decide))
      (gridOfLines_readable (by decide) (by decide)) (by decide) (by decide) 0).2 (by decide +kernel)⟩

/-- What ends a line is found from right to left, and is not from left to right. -/
theorem searchLine_at_end :
    windowCopySearchRlFrom (gridOfLines 4 [lineOfText [97, 97, 98, 99]]) (gridOfLines 2 [lineOfText [98, 99]]) 0 0 5 =
        pure (some 2) ∧
      windowCopySearchLr (gridOfLines 4 [lineOfText [97, 97, 98, 99]]) (gridOfLines 2 [lineOfText [98, 99]]) 0 4 0 =
        pure none := by
  decide +kernel

end Tmux
