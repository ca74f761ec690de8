import Mathlib.Data.List.Basic
import Mathlib.Data.List.Perm.Basic
import Mathlib.Tactic.Common

/-!
# Linked queues

A queue of linked entries, as a list. An operation finds the entry it works at
by a predicate `p`, true of that entry only: `next?` and `prev?` are its
neighbours, `insertAfter`, `insertBefore` and `replace` put an entry after,
before or in the place of it; `front` and `rest` are what comes before and after
it. (Removing an entry is `List.eraseP`.)

Their rules are stated at a splitting `l₁ ++ x :: l₂` of the queue at the entry
`x` found, before which no entry satisfies `p` (`exists_split`).
-/

namespace Queue

variable {α : Type*} (p : α → Bool)

/-- The entry after the one satisfying `p`. -/
def next? : List α → Option α
  | [] => none
  | a :: l => if p a then l.head? else next? l

/-- The entry before the one satisfying `p`, `b` being the last one passed. -/
def prevFrom? (b : Option α) : List α → Option α
  | [] => none
  | a :: l => if p a then b else prevFrom? (some a) l

/-- The entry before the one satisfying `p`. -/
def prev? (l : List α) : Option α := prevFrom? p none l

/-- Insert `x` after the entry satisfying `p`. -/
def insertAfter (x : α) : List α → List α
  | [] => []
  | a :: l => if p a then a :: x :: l else a :: insertAfter x l

/-- Insert `x` before the entry satisfying `p`. -/
def insertBefore (x : α) : List α → List α
  | [] => []
  | a :: l => if p a then x :: a :: l else a :: insertBefore x l

/-- Put `x` in the place of the entry satisfying `p`. -/
def replace (x : α) : List α → List α
  | [] => []
  | a :: l => if p a then x :: l else a :: replace x l

/-- The entries before the one satisfying `p`. -/
def front : List α → List α
  | [] => []
  | a :: l => if p a then [] else a :: front l

/-- The entries after the one satisfying `p`. -/
def rest : List α → List α
  | [] => []
  | a :: l => if p a then l else rest l

variable {p}

/-- The queue splits at the first entry satisfying `p`. -/
theorem exists_split {l : List α} (h : ∃ x ∈ l, p x = true) :
    ∃ l₁ x l₂, l = l₁ ++ x :: l₂ ∧ p x = true ∧ ∀ a ∈ l₁, p a = false := by
  induction l with
  | nil => exact absurd h (by simp)
  | cons a l ih =>
    by_cases ha : p a = true
    · exact ⟨[], a, l, rfl, ha, by simp⟩
    · obtain ⟨x, hx, hpx⟩ := h
      have hxl : x ∈ l := by
        rcases List.mem_cons.1 hx with rfl | hx
        · exact absurd hpx ha
        · exact hx
      obtain ⟨l₁, y, l₂, rfl, hy, hl₁⟩ := ih ⟨x, hxl, hpx⟩
      refine ⟨a :: l₁, y, l₂, rfl, hy, fun b hb => ?_⟩
      rcases List.mem_cons.1 hb with rfl | hb
      · simpa using ha
      · exact hl₁ b hb

section Split

variable {l₁ r : List α} {x : α} (hl : ∀ a ∈ l₁, p a = false) (hx : p x = true)

include hl hx

theorem find?_split : (l₁ ++ x :: r).find? p = some x := by
  induction l₁ with
  | nil => simp [hx]
  | cons a l₁ ih =>
    rw [List.cons_append, List.find?_cons_of_neg (by simp [hl a]), ih fun b hb => hl b (by simp [hb])]

theorem next?_split : next? p (l₁ ++ x :: r) = r.head? := by
  induction l₁ with
  | nil => simp [next?, hx]
  | cons a l₁ ih =>
    simp only [List.cons_append, next?, hl a List.mem_cons_self, Bool.false_eq_true, if_false]
    exact ih fun b hb => hl b (List.mem_cons_of_mem _ hb)

theorem prevFrom?_split (b : Option α) :
    prevFrom? p b (l₁ ++ x :: r) = (l₁.getLast?).or b := by
  induction l₁ generalizing b with
  | nil => simp [prevFrom?, hx]
  | cons a l₁ ih =>
    simp only [List.cons_append, prevFrom?, hl a List.mem_cons_self, Bool.false_eq_true, if_false]
    rw [ih fun b hb => hl b (List.mem_cons_of_mem _ hb)]
    cases l₁ with
    | nil => simp
    | cons c l₁ => simp [List.getLast?_cons]

theorem prev?_split : prev? p (l₁ ++ x :: r) = l₁.getLast? := by
  rw [prev?, prevFrom?_split hl hx, Option.or_none]

theorem insertAfter_split (y : α) : insertAfter p y (l₁ ++ x :: r) = l₁ ++ x :: y :: r := by
  induction l₁ with
  | nil => simp [insertAfter, hx]
  | cons a l₁ ih =>
    simp only [List.cons_append, insertAfter, hl a List.mem_cons_self, Bool.false_eq_true, if_false]
    rw [ih fun b hb => hl b (List.mem_cons_of_mem _ hb)]

theorem insertBefore_split (y : α) : insertBefore p y (l₁ ++ x :: r) = l₁ ++ y :: x :: r := by
  induction l₁ with
  | nil => simp [insertBefore, hx]
  | cons a l₁ ih =>
    simp only [List.cons_append, insertBefore, hl a List.mem_cons_self, Bool.false_eq_true, if_false]
    rw [ih fun b hb => hl b (List.mem_cons_of_mem _ hb)]

theorem replace_split (y : α) : replace p y (l₁ ++ x :: r) = l₁ ++ y :: r := by
  induction l₁ with
  | nil => simp [replace, hx]
  | cons a l₁ ih =>
    simp only [List.cons_append, replace, hl a List.mem_cons_self, Bool.false_eq_true, if_false]
    rw [ih fun b hb => hl b (List.mem_cons_of_mem _ hb)]

theorem front_split : front p (l₁ ++ x :: r) = l₁ := by
  induction l₁ with
  | nil => simp [front, hx]
  | cons a l₁ ih =>
    simp only [List.cons_append, front, hl a List.mem_cons_self, Bool.false_eq_true, if_false]
    rw [ih fun b hb => hl b (List.mem_cons_of_mem _ hb)]

theorem rest_split : rest p (l₁ ++ x :: r) = r := by
  induction l₁ with
  | nil => simp [rest, hx]
  | cons a l₁ ih =>
    simp only [List.cons_append, rest, hl a List.mem_cons_self, Bool.false_eq_true, if_false]
    exact ih fun b hb => hl b (List.mem_cons_of_mem _ hb)

theorem eraseP_split : (l₁ ++ x :: r).eraseP p = l₁ ++ r := by
  rw [List.eraseP_append_right _ fun a ha => by simp [hl a ha], List.eraseP_cons_of_pos hx]

end Split

/-- Neighbours of an entry are entries. -/
theorem mem_of_next? {l : List α} {y : α} (h : next? p l = some y) : y ∈ l := by
  induction l with
  | nil => simp [next?] at h
  | cons a l ih =>
    rw [next?] at h
    split at h
    · exact List.mem_cons_of_mem _ (List.mem_of_mem_head? h)
    · exact List.mem_cons_of_mem _ (ih h)

theorem mem_of_prevFrom? {l : List α} {b : Option α} {y : α} (h : prevFrom? p b l = some y) :
    b = some y ∨ y ∈ l := by
  induction l generalizing b with
  | nil => simp [prevFrom?] at h
  | cons a l ih =>
    rw [prevFrom?] at h
    split at h
    · exact .inl h
    · rcases ih h with h | h
      · exact .inr (by simp_all)
      · exact .inr (List.mem_cons_of_mem _ h)

theorem mem_of_prev? {l : List α} {y : α} (h : prev? p l = some y) : y ∈ l := by
  rcases mem_of_prevFrom? h with h | h
  · exact absurd h (by simp)
  · exact h

theorem front_subset (p : α → Bool) (l : List α) : front p l ⊆ l := by
  induction l with
  | nil => simp [front]
  | cons a l ih =>
    rw [front]
    split
    · simp
    · exact List.cons_subset_cons _ ih

theorem rest_subset (p : α → Bool) (l : List α) : rest p l ⊆ l := by
  induction l with
  | nil => simp [rest]
  | cons a l ih =>
    rw [rest]
    split
    · exact List.subset_cons_self _ _
    · exact List.subset_cons_of_subset _ ih

theorem subset_insertAfter (x : α) (l : List α) : l ⊆ insertAfter p x l := by
  induction l with
  | nil => simp
  | cons a l ih =>
    intro b hb
    rw [insertAfter]
    split
    · rcases List.mem_cons.1 hb with rfl | hb
      · exact List.mem_cons_self
      · exact List.mem_cons_of_mem _ (List.mem_cons_of_mem _ hb)
    · rcases List.mem_cons.1 hb with rfl | hb
      · exact List.mem_cons_self
      · exact List.mem_cons_of_mem _ (ih hb)

theorem mem_insertAfter {x y : α} {l : List α} (hy : y ∈ l) (hp : p y = true) :
    x ∈ insertAfter p x l := by
  obtain ⟨l₁, z, l₂, rfl, hz, hl⟩ := exists_split ⟨y, hy, hp⟩
  rw [insertAfter_split hl hz]
  simp

theorem length_insertAfter {x y : α} {l : List α} (hy : y ∈ l) (hp : p y = true) :
    (insertAfter p x l).length = l.length + 1 := by
  obtain ⟨l₁, z, l₂, rfl, hz, hl⟩ := exists_split ⟨y, hy, hp⟩
  rw [insertAfter_split hl hz]
  simp only [List.length_append, List.length_cons]
  omega

/-- An entry that is not the one replaced stays. -/
theorem mem_replace_of_neg {x y : α} {l : List α} (hy : y ∈ l) (hp : p y = false) :
    y ∈ replace p x l := by
  induction l with
  | nil => exact absurd hy (by simp)
  | cons a l ih =>
    rw [replace]
    rcases List.mem_cons.1 hy with rfl | hy
    · rw [if_neg (by simp [hp])]
      exact List.mem_cons_self
    · split
      · exact List.mem_cons_of_mem _ hy
      · exact List.mem_cons_of_mem _ (ih hy)

theorem mem_replace {x y : α} {l : List α} (hy : y ∈ l) (hp : p y = true) : x ∈ replace p x l := by
  obtain ⟨l₁, z, l₂, rfl, hz, hl⟩ := exists_split ⟨y, hy, hp⟩
  rw [replace_split hl hz]
  simp

section Map

variable {β : Type*} {q : β → Bool} {f : α → β} (h : ∀ a, q (f a) = p a)

include h

theorem next?_map (l : List α) : next? q (l.map f) = (next? p l).map f := by
  induction l with
  | nil => rfl
  | cons a l ih =>
    rw [List.map_cons, next?, next?, h, ih]
    split <;> simp

theorem prevFrom?_map (b : Option α) (l : List α) :
    prevFrom? q (b.map f) (l.map f) = (prevFrom? p b l).map f := by
  induction l generalizing b with
  | nil => rfl
  | cons a l ih =>
    rw [List.map_cons, prevFrom?, prevFrom?, h]
    split
    · rfl
    · exact ih (some a)

theorem prev?_map (l : List α) : prev? q (l.map f) = (prev? p l).map f := prevFrom?_map h none l

end Map

end Queue
