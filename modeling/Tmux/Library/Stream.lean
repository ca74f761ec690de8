import Mathlib.Data.List.Basic
import Mathlib.Tactic.Common

/-!
# Streams with items between the entries

A stream of entries that may have items between them, as the list of its segments (`Segment`): some items
and the entries after them. A reader gets as many entries as there are, together with the items that come
before them (`receive`).

A stream *carries* another one if it has the same entries and the same items, and no item comes later in
it (`Carries`). Segments may be merged, cut and received without losing that, and what is at the start of
a stream comes, with its items, at the start of those that carry it (`Carries.take`).
-/

universe u v

/-- Items, and the entries of a stream that come after them. -/
structure Segment (δ : Type u) (α : Type v) where
  items : List δ
  entries : List α
  deriving DecidableEq, Repr

namespace Stream

variable {δ : Type u} {α : Type v} {l m l' m' : List (Segment δ α)} {f g : List δ} {b c : List α} {n : ℕ}

/-- All items of a stream. -/
def items (l : List (Segment δ α)) : List δ := l.flatMap Segment.items

/-- All entries of a stream. -/
def entries (l : List (Segment δ α)) : List α := l.flatMap Segment.entries

@[simp] theorem items_nil : items ([] : List (Segment δ α)) = [] := rfl

@[simp] theorem items_cons (s : Segment δ α) (l : List (Segment δ α)) : items (s :: l) = s.items ++ items l := rfl

@[simp] theorem items_append (l m : List (Segment δ α)) : items (l ++ m) = items l ++ items m :=
  List.flatMap_append

@[simp] theorem entries_nil : entries ([] : List (Segment δ α)) = [] := rfl

@[simp] theorem entries_cons (s : Segment δ α) (l : List (Segment δ α)) :
    entries (s :: l) = s.entries ++ entries l := rfl

@[simp] theorem entries_append (l m : List (Segment δ α)) : entries (l ++ m) = entries l ++ entries m :=
  List.flatMap_append

/-- The number of items that come with the first `n` entries of a stream. -/
def arrived : List (Segment δ α) → ℕ → ℕ
  | [], _ => 0
  | s :: l, n => if n = 0 then 0 else s.items.length + arrived l (n - s.entries.length)

@[simp] theorem arrived_zero (l : List (Segment δ α)) : arrived l 0 = 0 := by cases l <;> rfl

@[simp] theorem arrived_nil (n : ℕ) : arrived ([] : List (Segment δ α)) n = 0 := rfl

theorem arrived_cons {s : Segment δ α} (hn : n ≠ 0) :
    arrived (s :: l) n = s.items.length + arrived l (n - s.entries.length) := if_neg hn

theorem arrived_append (l m : List (Segment δ α)) (n : ℕ) :
    arrived (l ++ m) n = arrived l n + arrived m (n - (entries l).length) := by
  induction l generalizing n with
  | nil => simp
  | cons s l ih =>
    rcases eq_or_ne n 0 with rfl | hn
    · simp
    · rw [List.cons_append, arrived_cons hn, arrived_cons hn, ih, entries_cons, List.length_append, Nat.sub_sub]
      omega

/-- The items of a stream and its entries are those of another one, and no item comes later in it. -/
structure Carries (l m : List (Segment δ α)) : Prop where
  entries : entries l = entries m
  items : items l = items m
  arrived : ∀ n, arrived m n ≤ arrived l n

theorem Carries.refl (l : List (Segment δ α)) : Carries l l := ⟨rfl, rfl, fun _ => Nat.le_refl _⟩

theorem Carries.trans (h : Carries l m) (h' : Carries m l') : Carries l l' :=
  ⟨h.entries.trans h'.entries, h.items.trans h'.items, fun n => Nat.le_trans (h'.arrived n) (h.arrived n)⟩

theorem Carries.append (h : Carries l m) (h' : Carries l' m') : Carries (l ++ l') (m ++ m') where
  entries := by rw [entries_append, entries_append, h.entries, h'.entries]
  items := by rw [items_append, items_append, h.items, h'.items]
  arrived n := by
    rw [arrived_append, arrived_append, h.entries]
    exact Nat.add_le_add (h.arrived n) (h'.arrived _)

/-- Nothing is put before a stream. -/
theorem carries_nil_cons (l : List (Segment δ α)) : Carries (⟨[], []⟩ :: l) l where
  entries := by simp
  items := by simp
  arrived n := by
    rcases eq_or_ne n 0 with rfl | hn
    · simp
    · simp [arrived_cons hn]

/-- Two segments are merged, so that the items of the second one come earlier. -/
theorem carries_merge (f g : List δ) (b c : List α) (l : List (Segment δ α)) :
    Carries (⟨f ++ g, b ++ c⟩ :: l) (⟨f, b⟩ :: ⟨g, c⟩ :: l) where
  entries := by simp
  items := by simp
  arrived n := by
    rcases eq_or_ne n 0 with rfl | hn
    · simp
    · rw [arrived_cons hn, arrived_cons hn]
      rcases eq_or_ne (n - b.length) 0 with hb | hb
      · rw [hb, arrived_zero]
        simp only [List.length_append]
        omega
      · rw [arrived_cons hb]
        simp only [List.length_append, Nat.sub_sub]
        omega

/-- A segment is cut, its items staying at its start. -/
theorem carries_cut (f : List δ) (b c : List α) (l : List (Segment δ α)) :
    Carries (⟨f, b⟩ :: ⟨[], c⟩ :: l) (⟨f, b ++ c⟩ :: l) where
  entries := by simp
  items := by simp
  arrived n := by
    rcases eq_or_ne n 0 with rfl | hn
    · simp
    · rw [arrived_cons hn, arrived_cons hn]
      rcases eq_or_ne (n - b.length) 0 with hb | hb
      · have hc : n - (b ++ c).length = 0 := by
          rw [List.length_append]
          omega
        simp only [hc, hb, arrived_zero]
        exact Nat.le_refl _
      · rw [arrived_cons hb]
        simp only [List.length_append, List.length_nil, Nat.sub_sub]
        omega

/-- What is at the start of a stream has come with its items when its entries have come. -/
theorem Carries.take (h : Carries (⟨f, c ++ b⟩ :: l) (⟨g, c⟩ :: m)) (hc : c ≠ []) :
    ∃ f', f = g ++ f' ∧ Carries (⟨f', b⟩ :: l) m := by
  have hpos : c.length ≠ 0 := List.length_eq_zero_iff.not.2 hc
  have hentries := h.entries
  have hitems := h.items
  simp only [entries_cons, items_cons, List.append_assoc, List.append_cancel_left_eq] at hentries hitems
  have hle : g.length ≤ f.length := by
    have hn := h.arrived c.length
    rw [arrived_cons hpos, arrived_cons hpos] at hn
    simpa using hn
  obtain ⟨f', rfl⟩ : g <+: f := List.prefix_of_prefix_length_le ⟨_, hitems.symm⟩ ⟨_, rfl⟩ hle
  rw [List.append_assoc, List.append_cancel_left_eq] at hitems
  refine ⟨f', rfl, by rwa [entries_cons], by rwa [items_cons], fun n => ?_⟩
  rcases eq_or_ne n 0 with rfl | hn
  · simp
  · have hlater := h.arrived (n + c.length)
    rw [arrived_cons (by omega), arrived_cons (by omega)] at hlater
    have heq : n + c.length - (c.length + b.length) = n - b.length := by omega
    simp only [List.length_append, Nat.add_sub_cancel, heq] at hlater
    rw [arrived_cons hn]
    exact Nat.le_of_add_le_add_left (Nat.le_trans hlater (Nat.le_of_eq (Nat.add_assoc _ _ _)))

/-! ## Receiving -/

/-- Receive the first `n` entries of a stream, or all if there are fewer, and the items that come with them. -/
def receive : ℕ → List (Segment δ α) → Segment δ α × List (Segment δ α)
  | _, [] => (⟨[], []⟩, [])
  | n, s :: l =>
    if n = 0 then (⟨[], []⟩, s :: l)
    else if s.entries.length ≤ n then
      let (r, l) := receive (n - s.entries.length) l
      (⟨s.items ++ r.items, s.entries ++ r.entries⟩, l)
    else (⟨s.items, s.entries.take n⟩, ⟨[], s.entries.drop n⟩ :: l)

/-- What is received may be put to what has been received before. -/
theorem carries_receive (n : ℕ) (l : List (Segment δ α)) (f : List δ) (b : List α) :
    Carries (⟨f ++ (receive n l).1.items, b ++ (receive n l).1.entries⟩ :: (receive n l).2) (⟨f, b⟩ :: l) := by
  fun_induction receive n l generalizing f b with
  | case1 n => simpa using Carries.refl _
  | case2 s l => simpa using Carries.refl _
  | case3 n s l hn hle r l' hr ih =>
    rw [hr] at ih
    have hrest := ih (f ++ s.items) (b ++ s.entries)
    simp only [List.append_assoc] at hrest ⊢
    exact hrest.trans (carries_merge f s.items b s.entries l)
  | case4 n s l hn hle =>
    refine (carries_merge f s.items b _ _).trans ?_
    have hcut := carries_cut s.items (s.entries.take n) (s.entries.drop n) l
    rw [List.take_append_drop] at hcut
    exact (Carries.refl [⟨f, b⟩]).append hcut

end Stream
