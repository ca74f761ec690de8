import Mathlib.Data.List.Range
import Tmux.Library.Exec

/-!
# Scans

A scan tests the entries of a list in order and stops at the first that passes (`List.anyM`). It returns true
exactly if some entry passes and all entries before it return that they do not, and false exactly if all do.
-/

namespace Exec

universe u

variable {α : Type u} {f : α → Exec Bool} {l : List α}

theorem anyM_cons_of_true {a : α} (h : f a = pure true) : (a :: l).anyM f = pure true := by
  rw [List.anyM, h, pure_bind]

theorem anyM_cons_of_false {a : α} (h : f a = pure false) : (a :: l).anyM f = l.anyM f := by
  rw [List.anyM, h, pure_bind]

/-- The head of a scan that returns returns. -/
theorem anyM_cons_cases {a : α} {b : Bool} (h : (a :: l).anyM f = pure b) :
    (f a = pure true ∧ b = true) ∨ (f a = pure false ∧ l.anyM f = pure b) := by
  obtain ⟨c, hc, hrest⟩ := bind_eq_pure.1 h
  cases c with
  | true => exact .inl ⟨hc, (pure_inj.1 hrest).symm⟩
  | false => exact .inr ⟨hc, hrest⟩

theorem anyM_eq_false : l.anyM f = pure false ↔ ∀ a ∈ l, f a = pure false := by
  induction l with
  | nil => exact iff_of_true rfl fun _ h => absurd h List.not_mem_nil
  | cons a l ih =>
    rw [List.forall_mem_cons, ← ih]
    constructor
    · intro h
      rcases anyM_cons_cases h with ⟨-, hfalse⟩ | ⟨ha, hl⟩
      · cases hfalse
      · exact ⟨ha, hl⟩
    · rintro ⟨ha, hl⟩
      rw [anyM_cons_of_false ha, hl]

theorem anyM_eq_true : l.anyM f = pure true ↔ ∃ p a s, l = p ++ a :: s ∧ (∀ b ∈ p, f b = pure false) ∧ f a = pure true := by
  induction l with
  | nil =>
    refine iff_of_false (fun h => ?_) ?_
    · exact Bool.false_ne_true (pure_inj.1 h)
    · rintro ⟨p, a, s, h, -⟩
      cases p <;> cases h
  | cons a l ih =>
    constructor
    · intro h
      rcases anyM_cons_cases h with ⟨ha, -⟩ | ⟨ha, hl⟩
      · exact ⟨[], a, l, rfl, fun _ h => absurd h List.not_mem_nil, ha⟩
      · obtain ⟨p, b, s, rfl, hp, hb⟩ := ih.1 hl
        exact ⟨a :: p, b, s, rfl, List.forall_mem_cons.2 ⟨ha, hp⟩, hb⟩
    · rintro ⟨p, b, s, h, hp, hb⟩
      cases p with
      | nil =>
        obtain ⟨rfl, rfl⟩ := List.cons.inj h
        exact anyM_cons_of_true hb
      | cons c p =>
        obtain ⟨rfl, rfl⟩ := List.cons.inj h
        obtain ⟨hc, hp⟩ := List.forall_mem_cons.1 hp
        rw [anyM_cons_of_false hc, ih]
        exact ⟨p, b, s, rfl, hp, hb⟩

theorem anyM_range_eq_false {f : ℕ → Exec Bool} {n : ℕ} :
    (List.range n).anyM f = pure false ↔ ∀ i < n, f i = pure false := by
  rw [anyM_eq_false]
  exact forall_congr' fun i => by rw [List.mem_range]

theorem anyM_range_eq_true {f : ℕ → Exec Bool} {n : ℕ} :
    (List.range n).anyM f = pure true ↔ ∃ i < n, (∀ j < i, f j = pure false) ∧ f i = pure true := by
  rw [anyM_eq_true, List.range_eq_range']
  constructor
  · rintro ⟨p, i, s, h, hp, hi⟩
    obtain ⟨k, hk, rfl, hs⟩ := List.range'_eq_append_iff.1 h
    obtain ⟨rfl, hpos, -⟩ := List.range'_eq_cons_iff.1 hs.symm
    have hindex : 0 + k * 1 = k := by omega
    rw [hindex] at hi
    exact ⟨k, by omega, fun j hj => hp j (List.mem_range'_1.2 (by omega)), hi⟩
  · rintro ⟨i, hin, hfirst, hi⟩
    refine ⟨List.range' 0 i, i, List.range' (i + 1) (n - i - 1), ?_, fun j hj => hfirst j ?_, hi⟩
    · refine List.range'_eq_append_iff.2 ⟨i, hin.le, rfl, (List.range'_eq_cons_iff.2 ⟨?_, ?_, rfl⟩).symm⟩ <;> omega
    · have := List.mem_range'_1.1 hj
      omega

end Exec
