import Mathlib.Data.Set.Finite.Lemmas
import Mathlib.Order.Lattice.Nat

/-!
# The nearest element of a set

From a place in a linear order, the nearest element of a set before it is the greatest one
before it or, if there is none, the greatest one of all (`Nearest.Before`): the search goes on
from the other end. The nearest one after it is found the other way (`Nearest.After`). The
place itself is nearest only if there is nothing else (`Nearest.Before.eq_iff`).

A search gives the greatest element of a set, or nothing if there is none (`Nearest.Greatest`).
-/

namespace Nearest

variable {α : Type*} [LinearOrder α] {S T M : Set α} {c p q : α} {found : Option α}

/-- What is found is the greatest element, or nothing is. -/
def Greatest (S : Set α) (found : Option α) : Prop := (∀ p ∈ found, IsGreatest S p) ∧ (found = none → S = ∅)

/-- What is found is the least element, or nothing is. -/
def Least (S : Set α) (found : Option α) : Prop := (∀ p ∈ found, IsLeast S p) ∧ (found = none → S = ∅)

/-- The nearest element before a place, cyclically. -/
def Before (M : Set α) (c p : α) : Prop := IsGreatest {q | q ∈ M ∧ q < c} p ∨ (∀ q ∈ M, c ≤ q) ∧ IsGreatest M p

/-- The nearest element after a place, cyclically. -/
def After (M : Set α) (c p : α) : Prop := IsLeast {q | q ∈ M ∧ c < q} p ∨ (∀ q ∈ M, q ≤ c) ∧ IsLeast M p

theorem greatest_some (h : IsGreatest S p) : Greatest S (some p) := ⟨fun _ hq => Option.some.inj hq ▸ h, nofun⟩

theorem least_some (h : IsLeast S p) : Least S (some p) := ⟨fun _ hq => Option.some.inj hq ▸ h, nofun⟩

/-- A bounded set of numbers has a greatest one, unless it is empty. -/
theorem greatest_of_iff {S : Set ℕ} {n : ℕ} {found : Option ℕ} (hbound : ∀ x ∈ S, x < n)
    (h : ∀ x, found = some x ↔ IsGreatest S x) : Greatest S found := by
  refine ⟨fun x hx => (h x).1 hx, fun hnone => ?_⟩
  by_contra hne
  have hnonempty := Set.nonempty_iff_ne_empty.2 hne
  have hbdd : BddAbove S := ⟨n, fun x hx => (hbound x hx).le⟩
  have hsome := (h (sSup S)).2 ⟨Nat.sSup_mem hnonempty hbdd, fun x hx => le_csSup hbdd hx⟩
  rw [hnone] at hsome
  cases hsome

/-- A set of numbers has a least one, unless it is empty. -/
theorem least_of_iff {S : Set ℕ} {found : Option ℕ} (h : ∀ x, found = some x ↔ IsLeast S x) : Least S found := by
  refine ⟨fun x hx => (h x).1 hx, fun hnone => ?_⟩
  by_contra hne
  have hsome := (h (sInf S)).2 ⟨Nat.sInf_mem (Set.nonempty_iff_ne_empty.2 hne), fun x hx => Nat.sInf_le hx⟩
  rw [hnone] at hsome
  cases hsome

/-! ## Before and after -/

theorem Before.mem (h : Before M c p) : p ∈ M := h.elim (fun h => h.1.1) fun h => h.2.1

theorem After.mem (h : After M c p) : p ∈ M := h.elim (fun h => h.1.1) fun h => h.2.1

theorem Before.unique (hp : Before M c p) (hq : Before M c q) : p = q := by
  rcases hp with hp | ⟨hnone, hp⟩ <;> rcases hq with hq | ⟨hnone', hq⟩
  · exact hp.unique hq
  · exact absurd hp.1.2 (not_lt.2 (hnone' p hp.1.1))
  · exact absurd hq.1.2 (not_lt.2 (hnone q hq.1.1))
  · exact hp.unique hq

theorem After.unique (hp : After M c p) (hq : After M c q) : p = q := by
  rcases hp with hp | ⟨hnone, hp⟩ <;> rcases hq with hq | ⟨hnone', hq⟩
  · exact hp.unique hq
  · exact absurd hp.1.2 (not_lt.2 (hnone' p hp.1.1))
  · exact absurd hq.1.2 (not_lt.2 (hnone q hq.1.1))
  · exact hp.unique hq

/-- A finite set has a nearest element, unless it is empty. -/
theorem exists_before (hM : M.Finite) (hne : M.Nonempty) (c : α) : ∃ p, Before M c p := by
  rcases Set.eq_empty_or_nonempty {q | q ∈ M ∧ q < c} with hnone | hsome
  · obtain ⟨p, hp, hle⟩ := Set.exists_max_image M id hM hne
    refine ⟨p, .inr ⟨fun q hq => not_lt.1 fun hlt => ?_, hp, hle⟩⟩
    exact Set.notMem_empty q (hnone ▸ (⟨hq, hlt⟩ : q ∈ {q | q ∈ M ∧ q < c}))
  · obtain ⟨p, hp, hle⟩ := Set.exists_max_image _ id (hM.subset fun q hq => hq.1) hsome
    exact ⟨p, .inl ⟨hp, hle⟩⟩

theorem exists_after (hM : M.Finite) (hne : M.Nonempty) (c : α) : ∃ p, After M c p := by
  rcases Set.eq_empty_or_nonempty {q | q ∈ M ∧ c < q} with hnone | hsome
  · obtain ⟨p, hp, hle⟩ := Set.exists_min_image M id hM hne
    refine ⟨p, .inr ⟨fun q hq => not_lt.1 fun hlt => ?_, hp, hle⟩⟩
    exact Set.notMem_empty q (hnone ▸ (⟨hq, hlt⟩ : q ∈ {q | q ∈ M ∧ c < q}))
  · obtain ⟨p, hp, hle⟩ := Set.exists_min_image _ id (hM.subset fun q hq => hq.1) hsome
    exact ⟨p, .inl ⟨hp, hle⟩⟩

/-- The place itself is nearest only if there is nothing else. -/
theorem Before.eq_iff (h : Before M c p) : p = c ↔ ∀ q ∈ M, q = c := by
  refine ⟨fun heq q hq => ?_, fun hall => hall p h.mem⟩
  subst heq
  rcases h with hp | ⟨hnone, hp⟩
  · exact absurd hp.1.2 (lt_irrefl p)
  · exact le_antisymm (hp.2 hq) (hnone q hq)

theorem After.eq_iff (h : After M c p) : p = c ↔ ∀ q ∈ M, q = c := by
  refine ⟨fun heq q hq => ?_, fun hall => hall p h.mem⟩
  subst heq
  rcases h with hp | ⟨hnone, hp⟩
  · exact absurd hp.1.2 (lt_irrefl p)
  · exact le_antisymm (hnone q hq) (hp.2 hq)

/-- The nearest element of a set is nearest in all parts of the set that it is in. -/
theorem Before.mono (h : Before M c p) (hS : S ⊆ M) (hp : p ∈ S) : Before S c p := by
  rcases h with h | ⟨hnone, h⟩
  · exact .inl ⟨⟨hp, h.1.2⟩, fun q hq => h.2 ⟨hS hq.1, hq.2⟩⟩
  · exact .inr ⟨fun q hq => hnone q (hS hq), hp, fun q hq => h.2 (hS hq)⟩

theorem After.mono (h : After M c p) (hS : S ⊆ M) (hp : p ∈ S) : After S c p := by
  rcases h with h | ⟨hnone, h⟩
  · exact .inl ⟨⟨hp, h.1.2⟩, fun q hq => h.2 ⟨hS hq.1, hq.2⟩⟩
  · exact .inr ⟨fun q hq => hnone q (hS hq), hp, fun q hq => h.2 (hS hq)⟩

/-- What is found from the other end, where nothing is found before the place, is nearest. -/
theorem Before.of_again (hnone : Greatest {q | q ∈ M ∧ q < c} none) (h : Greatest M found) (hp : p ∈ found) :
    Before M c p := by
  refine .inr ⟨fun q hq => not_lt.1 fun hlt => ?_, h.1 p hp⟩
  exact Set.notMem_empty q (hnone.2 rfl ▸ (⟨hq, hlt⟩ : q ∈ {q | q ∈ M ∧ q < c}))

theorem After.of_again (hnone : Least {q | q ∈ M ∧ c < q} none) (h : Least M found) (hp : p ∈ found) :
    After M c p := by
  refine .inr ⟨fun q hq => not_lt.1 fun hlt => ?_, h.1 p hp⟩
  exact Set.notMem_empty q (hnone.2 rfl ▸ (⟨hq, hlt⟩ : q ∈ {q | q ∈ M ∧ c < q}))

end Nearest
