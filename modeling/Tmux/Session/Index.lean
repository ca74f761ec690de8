import Tmux.Session.References

/-!
# The index of a new window

A window goes to the first free index from a given one on, going round after the
largest (`winlinkNextIndexInt`, with the loop and the signed arithmetic as the code has
them). The loop ends, with the first free index or with -1 if there is none
(`FirstFree`, `winlinkNextIndexInt_eq`).

A negative index asks for that search: `-1 - base` starts it at `base`. Undoing that
sum stays within the signed words for every base index but the largest
(`winlinkAddBase_exact`).
-/

namespace Tmux

/-! ## The search -/

/-- The index after one, going round after the largest. -/
def nextIndex (i : ℤ) : Exec ℤ := if i = intMax then pure 0 else Exec.sint (i + 1)

/-- Search from `i` for a free index, in so many turns, until back at `idx`. -/
def nextIndexLoop (wwl : Winlinks) (idx : ℤ) : ℕ → ℤ → Exec ℤ
  | 0, _ => .fault .hang
  | n + 1, i => do
    match ← winlinkFindByIndex wwl i with
    | none => pure i
    | some _ =>
      let i ← nextIndex i
      if i = idx then pure (-1) else nextIndexLoop wwl idx n i

/-- The first free index from `idx` on, or -1, as signed words. -/
def winlinkNextIndexInt (wwl : Winlinks) (idx : ℤ) : Exec ℤ := nextIndexLoop wwl idx (intMax + 1) idx

/-- Put a link in the tree, unless its index is there already. -/
def putLink (wwl : Winlinks) (idx : ℕ) : Winlinks :=
  if h : wwl.find? idx = none then wwl.insert { idx } h else wwl

/-- Add a link, at the first free index from `-idx - 1` on if `idx` is negative, as signed
    words. -/
def winlinkAddInt (wwl : Winlinks) (idx : ℤ) : Exec (Option (Winlinks × ℕ)) :=
  if idx < 0 then do
    let n ← Exec.sint (-idx)
    let n ← Exec.sint (n - 1)
    let idx ← winlinkNextIndexInt wwl n
    if idx = -1 then pure none
    else pure (some (putLink wwl idx.toNat, idx.toNat))
  else do
    match ← winlinkFindByIndex wwl idx with
    | some _ => pure none
    | none => pure (some (putLink wwl idx.toNat, idx.toNat))

/-- Add a link from a base index on, as new windows do. -/
def winlinkAddBase (wwl : Winlinks) (base : ℕ) : Exec (Option (Winlinks × ℕ)) := do
  let idx ← Exec.sint (-1 - base)
  winlinkAddInt wwl idx

/-- The index `n` places after `idx`, going round after the largest. -/
def indexAfter (idx n : ℕ) : ℕ := (idx + n) % (intMax + 1)

/-- A result of the search from `idx`: the first free index going round from there, or -1, every
    index being used. -/
inductive FirstFree (wwl : Winlinks) (idx : ℕ) : ℤ → Prop
  | free (n : ℕ) (hn : n ≤ intMax) (hfree : indexAfter idx n ∉ wwl.keys)
      (hused : ∀ m < n, indexAfter idx m ∈ wwl.keys) : FirstFree wwl idx (indexAfter idx n)
  | used (hused : ∀ i ≤ intMax, i ∈ wwl.keys) : FirstFree wwl idx (-1)

theorem indexAfter_zero {idx : ℕ} (h : idx ≤ intMax) : indexAfter idx 0 = idx :=
  Nat.mod_eq_of_lt (by omega)

theorem indexAfter_le (idx n : ℕ) : indexAfter idx n ≤ intMax :=
  Nat.lt_succ_iff.1 (Nat.mod_lt _ (by omega))

/-- Going round from any index comes by every one. -/
theorem indexAfter_surj {idx i : ℕ} (hidx : idx ≤ intMax) (hi : i ≤ intMax) :
    ∃ n ≤ intMax, indexAfter idx n = i := by
  unfold indexAfter
  by_cases h : idx ≤ i
  · exact ⟨i - idx, by omega, by rw [Nat.mod_eq_of_lt] <;> omega⟩
  · refine ⟨i + (intMax + 1) - idx, by omega, ?_⟩
    rw [show idx + (i + (intMax + 1) - idx) = i + (intMax + 1) by omega, Nat.add_mod_right,
      Nat.mod_eq_of_lt (by omega)]

theorem indexAfter_succ (idx n : ℕ) :
    indexAfter idx (n + 1) = if indexAfter idx n = intMax then 0 else indexAfter idx n + 1 := by
  have hle := indexAfter_le idx n
  have hmod : indexAfter idx (n + 1) = (indexAfter idx n + 1) % (intMax + 1) := by
    rw [indexAfter, indexAfter, Nat.mod_add_mod, Nat.add_assoc]
  rw [hmod]
  split_ifs with h
  · rw [h, Nat.mod_self]
  · rw [Nat.mod_eq_of_lt (by omega)]

theorem nextIndex_indexAfter (idx n : ℕ) :
    nextIndex (indexAfter idx n) = pure (indexAfter idx (n + 1) : ℤ) := by
  have hle := indexAfter_le idx n
  rw [nextIndex, indexAfter_succ]
  by_cases h : indexAfter idx n = intMax
  · rw [if_pos (by omega), if_pos h]
    rfl
  · rw [if_neg (by omega), if_neg h,
      Exec.sint_of_mem (by omega) (by unfold intMax at hle h; omega)]
    rfl

/-- Going round comes back to the start after all indices, and not before. -/
theorem indexAfter_eq {idx n : ℕ} (hidx : idx ≤ intMax) (hn : n ≤ intMax + 1) (hpos : 0 < n) :
    indexAfter idx n = idx ↔ n = intMax + 1 := by
  unfold indexAfter
  constructor
  · intro h
    by_contra hne
    by_cases hlt : idx + n < intMax + 1
    · rw [Nat.mod_eq_of_lt hlt] at h
      omega
    · rw [Nat.mod_eq_sub_mod (by omega), Nat.mod_eq_of_lt (by omega)] at h
      omega
  · rintro rfl
    rw [Nat.add_mod_right, Nat.mod_eq_of_lt (by omega)]

/-! ## The search finds the first free index -/

theorem winlinkFindByIndex_natCast (wwl : Winlinks) (i : ℕ) :
    winlinkFindByIndex wwl i = pure (wwl.find? i) := by
  rw [winlinkFindByIndex, if_neg (by omega), Int.toNat_natCast]

/-- The number of an index found, or -1. -/
def foundIndex (i : Option ℕ) : ℤ := i.elim (-1) Nat.cast

/-- The turns that are left are those before the search is back at its start. -/
theorem nextIndexLoop_eq (wwl : Winlinks) {idx : ℕ} (hidx : idx ≤ intMax) {n k : ℕ}
    (hn : n + 1 + k = intMax + 1) :
    nextIndexLoop wwl idx (n + 1) (indexAfter idx k) =
      pure (foundIndex (freeIndex wwl (n + 1) (indexAfter idx k))) := by
  induction n generalizing k with
  | zero =>
    rw [nextIndexLoop, winlinkFindByIndex_natCast, pure_bind, freeIndex]
    cases hfind : wwl.find? (indexAfter idx k) with
    | none => rfl
    | some wl =>
      have hback := (indexAfter_eq hidx (by omega) (by omega)).2 (show k + 1 = intMax + 1 by omega)
      simp only
      rw [nextIndex_indexAfter, pure_bind, if_pos (by rw [hback]), if_neg (by simp)]
      rfl
  | succ n ih =>
    rw [nextIndexLoop, winlinkFindByIndex_natCast, pure_bind, freeIndex]
    cases hfind : wwl.find? (indexAfter idx k) with
    | none => rfl
    | some wl =>
      have hback : indexAfter idx (k + 1) ≠ idx := fun h => by
        have := (indexAfter_eq hidx (by omega) (by omega)).1 h
        omega
      simp only
      rw [nextIndex_indexAfter, pure_bind, if_neg (by exact_mod_cast hback), if_neg (by simp), ih (by omega),
        indexAfter_succ]

/-- The search goes round, over used indices only, to the first free one. -/
theorem freeIndex_first {wwl : Winlinks} {idx : ℕ} (hidx : idx ≤ intMax) {n k : ℕ}
    (hn : n + k = intMax + 1) (hused : ∀ m < k, indexAfter idx m ∈ wwl.keys) :
    FirstFree wwl idx (foundIndex (freeIndex wwl n (indexAfter idx k))) := by
  induction n generalizing k with
  | zero =>
    refine .used fun i hi => ?_
    obtain ⟨m, hm, rfl⟩ := indexAfter_surj hidx hi
    exact hused m (by omega)
  | succ n ih =>
    rw [freeIndex]
    by_cases hfree : wwl.find? (indexAfter idx k) = none
    · rw [if_pos hfree]
      exact .free k (by omega) (Keyed.find?_eq_none.1 hfree) hused
    · rw [if_neg hfree, ← indexAfter_succ]
      refine ih (by omega) fun m hm => ?_
      rcases Nat.lt_succ_iff_lt_or_eq.1 hm with hm | rfl
      · exact hused m hm
      · exact not_not.1 fun h => hfree (Keyed.find?_eq_none.2 h)

theorem winlinkNextIndexInt_eq (wwl : Winlinks) {idx : ℕ} (hidx : idx ≤ intMax) :
    winlinkNextIndexInt wwl idx = pure (foundIndex (winlinkNextIndex wwl idx)) := by
  have h := nextIndexLoop_eq wwl hidx (Nat.add_zero (intMax + 1))
  rwa [indexAfter_zero hidx] at h

theorem winlinkNextIndex_first (wwl : Winlinks) {idx : ℕ} (hidx : idx ≤ intMax) :
    FirstFree wwl idx (foundIndex (winlinkNextIndex wwl idx)) := by
  have h := @freeIndex_first wwl idx hidx (intMax + 1) 0 (Nat.add_zero _) (by simp)
  rwa [indexAfter_zero hidx] at h

theorem FirstFree.natCast {wwl : Winlinks} {idx i : ℕ} (h : FirstFree wwl idx i) : i ∉ wwl.keys := by
  generalize hr : (i : ℤ) = r at h
  cases h with
  | free n hn hfree hused =>
    obtain rfl : i = indexAfter idx n := by exact_mod_cast hr
    exact hfree
  | used hused => omega

/-! ## Adding a link -/

/-- What is added to a tree from a base index on: nothing, every index being used, or a link at
    the first free index. -/
inductive LinkedFrom (wwl : Winlinks) (base : ℕ) : Option (Winlinks × ℕ) → Prop
  | none (hused : ∀ i ≤ intMax, i ∈ wwl.keys) : LinkedFrom wwl base none
  | some (wwl' : Winlinks) (i : ℕ) (hfirst : FirstFree wwl base i) (hfree : i ∉ wwl.keys)
      (hentries : wwl'.entries.Perm ({ idx := i } :: wwl.entries)) : LinkedFrom wwl base (some (wwl', i))

/-- Where the signed words suffice, adding a link is as without them. -/
theorem winlinkAddInt_eq (wwl : Winlinks) {idx : ℤ} (hidx : -intMax ≤ idx) :
    winlinkAddInt wwl idx = pure (winlinkAdd wwl idx) := by
  have hput : ∀ i, wwl.find? i = none → some (putLink wwl i, i) = insertLink wwl i := fun i hi => by
    rw [putLink, dif_pos hi, insertLink, dif_pos hi]
  by_cases hneg : idx < 0
  · obtain ⟨n, rfl⟩ : ∃ n : ℕ, idx = -1 - n := ⟨(-idx - 1).toNat, by omega⟩
    have hn : n ≤ intMax := by omega
    have hmax : (n : ℤ) ≤ 2147483646 := by
      unfold intMax at hidx
      omega
    rw [winlinkAddInt, if_pos hneg, Exec.sint_of_mem (by omega) (by omega), pure_bind,
      Exec.sint_of_mem (by omega) (by omega), pure_bind, winlinkAdd, if_pos hneg,
      show -(-1 - (n : ℤ)) - 1 = n by omega, Int.toNat_natCast, winlinkNextIndexInt_eq wwl hn, pure_bind]
    have hfirst := winlinkNextIndex_first wwl hn
    cases hfound : winlinkNextIndex wwl n with
    | none => rfl
    | some i =>
      rw [hfound] at hfirst
      show (if (i : ℤ) = -1 then pure none else pure (some (putLink wwl i, i))) = pure (insertLink wwl i)
      rw [if_neg (by omega), hput i (Keyed.find?_eq_none.2 hfirst.natCast)]
  · obtain ⟨i, rfl⟩ : ∃ i : ℕ, idx = i := ⟨idx.toNat, by omega⟩
    rw [winlinkAddInt, if_neg hneg, winlinkFindByIndex_natCast, pure_bind, winlinkAdd, if_neg hneg,
      Int.toNat_natCast]
    cases hfind : wwl.find? i with
    | none =>
      rw [← hput i hfind]
    | some wl =>
      rw [insertLink, dif_neg (by simp [hfind])]

theorem winlinkAdd_linkedFrom (wwl : Winlinks) {base : ℕ} (hbase : base ≤ intMax) :
    LinkedFrom wwl base (winlinkAdd wwl (-1 - base)) := by
  have hfirst := winlinkNextIndex_first wwl hbase
  have hadd : winlinkAdd wwl (-1 - base) = (winlinkNextIndex wwl base).bind (insertLink wwl) := by
    rw [winlinkAdd, if_pos (by omega), show -(-1 - (base : ℤ)) - 1 = base by omega, Int.toNat_natCast]
  cases hfound : winlinkNextIndex wwl base with
  | none =>
    rw [hadd, hfound]
    rw [hfound] at hfirst
    cases hfirst with
    | used hused => exact .none hused
  | some i =>
    rw [hfound] at hfirst
    have hfree : wwl.find? i = none := Keyed.find?_eq_none.2 hfirst.natCast
    have hsome : winlinkAdd wwl (-1 - base) = some (wwl.insert { idx := i } hfree, i) := by
      rw [hadd, hfound, Option.bind_some, insertLink, dif_pos hfree]
    rw [hsome]
    exact .some _ _ hfirst hfirst.natCast (winlinkAdd_eq hsome).2

/-- Undoing the sum overflows for the largest base index. -/
theorem winlinkAddBase_intMax (wwl : Winlinks) (r : Option (Winlinks × ℕ)) :
    winlinkAddBase wwl intMax ≠ pure r := by
  intro h
  have hidx : Exec.sint (-1 - (intMax : ℤ)) = pure (-2147483648) := rfl
  have hneg : Exec.sint (- -2147483648) = .done true (-2147483648) := by decide
  rw [winlinkAddBase, hidx, pure_bind, winlinkAddInt, if_pos (by omega), hneg] at h
  obtain ⟨a, ha, -⟩ := Exec.bind_eq_pure.1 h
  exact absurd ha (by simp [Exec.pure_eq_done])

/-- **A new index is the first free one from the base index on**: the search ends with the first
    free index, and adding a link at such an index from a base index on overflows exactly when the
    base index is the largest. -/
theorem winlinkAddBase_exact (wwl : Winlinks) {idx base : ℕ} (hidx : idx ≤ intMax)
    (hbase : base ≤ intMax) :
    ((∃ r, winlinkNextIndexInt wwl idx = pure r ∧ FirstFree wwl idx r) ∧
      ∃ r, winlinkAddBase wwl base = pure r ∧ LinkedFrom wwl base r) ↔ base < intMax := by
  constructor
  · rintro ⟨-, r, hr, -⟩
    by_contra hlt
    obtain rfl : base = intMax := by omega
    exact winlinkAddBase_intMax wwl r hr
  · intro hlt
    have hsint : Exec.sint (-1 - (base : ℤ)) = pure (-1 - (base : ℤ)) :=
      Exec.sint_of_mem (by unfold intMax at hbase; omega) (by omega)
    refine ⟨⟨_, winlinkNextIndexInt_eq wwl hidx, winlinkNextIndex_first wwl hidx⟩, _, ?_,
      winlinkAdd_linkedFrom wwl hbase⟩
    rw [winlinkAddBase, hsint, pure_bind, winlinkAddInt_eq wwl (by omega)]

theorem winlinkAddBase_exact_one :
    (∃ r, winlinkNextIndexInt (putLink {} 1) 0 = pure r ∧ FirstFree (putLink {} 1) 0 r) ∧
      ∃ r, winlinkAddBase (putLink {} 1) 1 = pure r ∧ LinkedFrom (putLink {} 1) 1 r :=
  (@winlinkAddBase_exact (putLink {} 1) 0 1 (by decide) (by decide)).2 (by decide)

/-- The first window of a session whose base index is the largest. -/
theorem winlinkAddBase_overflows : intMax ≤ intMax ∧
    ¬∃ r, winlinkAddBase {} intMax = pure r ∧ LinkedFrom {} intMax r :=
  ⟨le_rfl, fun ⟨r, hr, _⟩ => winlinkAddBase_intMax {} r hr⟩

end Tmux
