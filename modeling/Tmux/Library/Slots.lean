import Mathlib.Data.List.DropRight
import Mathlib.Data.List.ReduceOption
import Mathlib.Data.List.Nodup
import Mathlib.Data.List.Perm.Basic

/-!
# Tables with empty slots

A table whose slots may be empty, as the list of its slots. An entry is put into the first empty slot, or
into a new one at the end (`put`); a slot is emptied (`List.set`), and empty slots at the end are removed
(`trim`). The entries of a table (`entries`) are those in its slots, in order.
-/

namespace Slots

universe u

variable {α : Type u} {a : α} {l : List (Option α)} {i : ℕ}

/-- The entries in the slots. -/
def entries (l : List (Option α)) : List α := l.reduceOption

/-- Put an entry into the first empty slot, or a new one. -/
def put (a : α) : List (Option α) → List (Option α)
  | [] => [some a]
  | none :: l => some a :: l
  | some b :: l => some b :: put a l

/-- Remove the empty slots at the end. -/
def trim (l : List (Option α)) : List (Option α) := l.rdropWhile Option.isNone

theorem mem_entries : a ∈ entries l ↔ ∃ i : ℕ, l[i]? = some (some a) := by
  rw [entries, List.reduceOption_mem_iff, List.mem_iff_getElem?]

theorem entries_put (a : α) (l : List (Option α)) : (entries (put a l)).Perm (a :: entries l) := by
  fun_induction put a l with
  | case1 => exact List.Perm.refl _
  | case2 l => exact List.Perm.refl _
  | case3 b l ih =>
    have hcons : ∀ l, entries (some b :: l) = b :: entries l := List.reduceOption_cons_of_some b
    rw [hcons, hcons]
    exact (ih.cons b).trans (List.Perm.swap a b _)

theorem entries_trim (l : List (Option α)) : entries (trim l) = entries l := by
  induction l using List.reverseRecOn with
  | nil => rfl
  | append_singleton l o ih =>
    cases o with
    | none =>
      rw [trim, List.rdropWhile_concat_pos _ _ _ rfl, entries, entries, List.reduceOption_append]
      exact ih.trans (List.append_nil _).symm
    | some a => rw [trim, List.rdropWhile_concat_neg _ _ _ Bool.false_ne_true]

/-- Emptying a slot removes its entry. -/
theorem entries_set_none (h : l[i]? = some (some a)) : (a :: entries (l.set i none)).Perm (entries l) := by
  induction l generalizing i with
  | nil => cases h
  | cons o l ih =>
    cases i with
    | zero =>
      obtain rfl : o = some a := Option.some.inj h
      exact List.Perm.refl _
    | succ i =>
      have hrest := ih h
      cases o with
      | none => exact hrest
      | some b => exact (List.Perm.swap b a _).trans (hrest.cons b)

end Slots
