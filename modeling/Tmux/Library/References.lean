import Mathlib.Data.Multiset.Count
import Mathlib.Data.Nat.Notation
import Tmux.Library.Exec

/-!
# Counted references

Objects are freed when the last reference to them is dropped. The state is the count
of the references to each object (`References`), none for an object that is freed
or not there yet; a reference is taken (`retain`) and dropped (`release`).

The counts are right for a multiset of holders if the count of every object is its
multiplicity in it (`Counts`). An object that is held is then there, so that it can
be used; taking a reference adds a holder, and dropping one that is held removes it.
-/

open Exec

/-- How many references there are to an object, if it is there. -/
abbrev References (α : Type*) := α → Option ℕ

namespace References

variable {α : Type} [DecidableEq α]

/-- Use an object. -/
def use (c : References α) (a : α) : Exec ℕ :=
  match c a with
  | none => .fault .freed
  | some n => pure n

/-- Take a reference to an object. -/
def retain (c : References α) (a : α) : Exec (References α) := do
  let n ← c.use a
  pure (Function.update c a (some (n + 1)))

/-- Drop a reference to an object, and free it with the last one. -/
def release (c : References α) (a : α) : Exec (References α) := do
  match ← c.use a with
  | 0 => .fault .fatal
  | 1 => pure (Function.update c a none)
  | n + 2 => pure (Function.update c a (some (n + 1)))

/-- The count of every object is how often it is held. -/
def Counts (c : References α) (held : Multiset α) : Prop := ∀ a, (c a).getD 0 = held.count a

variable {c : References α} {held : Multiset α} {a : α} {w : Allowed}

/-- What is held is there. -/
theorem Counts.eq_some (h : c.Counts held) (ha : a ∈ held) : ∃ n, c a = some (n + 1) := by
  have hpos : 0 < held.count a := Multiset.count_pos.2 ha
  have hcount := h a
  cases hc : c a with
  | none =>
    rw [hc, Option.getD_none] at hcount
    omega
  | some n =>
    rw [hc, Option.getD_some] at hcount
    exact ⟨n - 1, by rw [Nat.sub_add_cancel (by omega)]⟩

theorem Counts.ne_none (h : c.Counts held) (ha : a ∈ held) : c a ≠ none := by
  obtain ⟨n, hn⟩ := h.eq_some ha
  simp [hn]

/-- An object that is not there is not held. -/
theorem Counts.not_mem (h : c.Counts held) (ha : c a = none) : a ∉ held :=
  fun hmem => h.ne_none hmem ha

/-- An object that is not held can be there, with no reference. -/
theorem Counts.create (h : c.Counts held) (ha : c a = none) :
    Counts (Function.update c a (some 0)) held := by
  intro b
  by_cases hb : b = a
  · rw [hb, Function.update_self, ← h a, ha]
    rfl
  · rw [Function.update_of_ne hb, h b]

/-- An object that is not held can be freed. -/
theorem Counts.destroy (h : c.Counts held) (ha : a ∉ held) : Counts (Function.update c a none) held := by
  intro b
  by_cases hb : b = a
  · rw [hb, Function.update_self, Option.getD_none, Multiset.count_eq_zero_of_notMem ha]
  · rw [Function.update_of_ne hb, h b]

/-- A reference to an object that is there has one more holder, and nothing else comes to be there. -/
theorem Counts.retain (h : c.Counts held) (ha : c a ≠ none) :
    Meets w (fun c' => Counts c' (a ::ₘ held) ∧ ∀ b, c b = none → c' b = none) (c.retain a) := by
  obtain ⟨n, hn⟩ := Option.ne_none_iff_exists'.1 ha
  rw [References.retain, use, hn]
  dsimp only
  rw [pure_bind]
  refine .pure ⟨fun b => ?_, fun b hb => ?_⟩
  · by_cases hba : b = a
    · rw [hba, Function.update_self, Option.getD_some, Multiset.count_cons_self, ← h a, hn,
        Option.getD_some]
    · rw [Function.update_of_ne hba, Multiset.count_cons_of_ne hba, h b]
  · rwa [Function.update_of_ne (by rintro rfl; exact ha hb)]

/-- A holder drops its reference. -/
theorem Counts.release (h : c.Counts (a ::ₘ held)) :
    Meets w (fun c' => Counts c' held ∧ ∀ b, c b = none → c' b = none) (c.release a) := by
  obtain ⟨n, hn⟩ := h.eq_some (Multiset.mem_cons_self a held)
  have hcount : held.count a = n := by
    have := h a
    rw [hn, Option.getD_some, Multiset.count_cons_self] at this
    omega
  have hupdate : ∀ x : Option ℕ, x.getD 0 = n →
      Counts (Function.update c a x) held ∧ ∀ b, c b = none → Function.update c a x b = none := by
    refine fun x hx => ⟨fun b => ?_, fun b hb => ?_⟩
    · by_cases hba : b = a
      · rw [hba, Function.update_self, hx, hcount]
      · rw [Function.update_of_ne hba, h b, Multiset.count_cons_of_ne hba]
    · have hba : b ≠ a := by
        rintro rfl
        rw [hn] at hb
        cases hb
      rwa [Function.update_of_ne hba]
  rw [References.release, use, hn]
  dsimp only
  rw [pure_bind]
  match n, hupdate with
  | 0, hupdate => exact .pure (hupdate none rfl)
  | n + 1, hupdate => exact .pure (hupdate _ rfl)

end References
