import Mathlib.Data.List.Nodup
import Mathlib.Data.Nat.Notation
import Mathlib.Order.Basic
import Mathlib.Order.Nat
import Tmux.Library.Queue

/-!
# Trees ordered by a key

A search tree of entries ordered by a key, as the list of its entries in order
(`Keyed`): no two entries have the same key. An entry is found by its key
(`find?`), inserted at the place of its key (`insert`), where there must be none,
removed (`erase`) and updated in place (`update`); `next?` and `prev?` are the
neighbours of an entry.
-/

/-- The entries of a tree, in the order of their keys. -/
structure Keyed (α : Type*) (key : α → ℕ) where
  entries : List α := []
  sorted : entries.Pairwise fun a b => key a < key b := by simp

namespace Keyed

variable {α : Type*} {key : α → ℕ}

/-- The keys of a tree, in order. -/
def keys (t : Keyed α key) : List ℕ := t.entries.map key

/-- Whether an entry has a key. -/
def hasKey (key : α → ℕ) (k : ℕ) (a : α) : Bool := key a == k

theorem nodup (t : Keyed α key) : t.keys.Nodup := by
  rw [keys, List.Nodup, List.pairwise_map]
  exact t.sorted.imp fun h => h.ne

@[ext] theorem ext {t u : Keyed α key} (h : t.entries = u.entries) : t = u := by
  cases t
  cases u
  congr

/-! ## Finding -/

/-- The entry with a key. -/
def find? (t : Keyed α key) (k : ℕ) : Option α := t.entries.find? (hasKey key k)

theorem find?_eq_some {t : Keyed α key} {k : ℕ} {a : α} :
    t.find? k = some a ↔ a ∈ t.entries ∧ key a = k := by
  constructor
  · intro h
    exact ⟨List.mem_of_find?_eq_some h, by simpa [hasKey] using List.find?_some h⟩
  · rintro ⟨ha, rfl⟩
    cases hf : t.find? (key a) with
    | none => exact absurd (List.find?_eq_none.1 hf a ha) (by simp [hasKey])
    | some b =>
      have hb : key b = key a := by simpa [hasKey] using List.find?_some hf
      rw [List.inj_on_of_nodup_map t.nodup (List.mem_of_find?_eq_some hf) ha hb]

theorem find?_eq_none {t : Keyed α key} {k : ℕ} : t.find? k = none ↔ k ∉ t.keys := by
  rw [find?, List.find?_eq_none, keys, List.mem_map, not_exists]
  exact forall_congr' fun _ => by simp [hasKey]

theorem find?_isSome {t : Keyed α key} {k : ℕ} : (t.find? k).isSome ↔ k ∈ t.keys := by
  rw [← Option.ne_none_iff_isSome, ne_eq, find?_eq_none, not_not]

/-! ## Inserting -/

/-- Put an entry before the first one with a greater key. -/
def insertSorted (key : α → ℕ) (x : α) : List α → List α
  | [] => [x]
  | a :: l => if key x < key a then x :: a :: l else a :: insertSorted key x l

theorem mem_insertSorted {x a : α} {l : List α} : a ∈ insertSorted key x l ↔ a = x ∨ a ∈ l := by
  induction l with
  | nil => simp [insertSorted]
  | cons b l ih =>
    rw [insertSorted]
    split
    · simp
    · rw [List.mem_cons, ih, List.mem_cons]
      exact or_left_comm

theorem insertSorted_perm (key : α → ℕ) (x : α) (l : List α) : (insertSorted key x l).Perm (x :: l) := by
  induction l with
  | nil => exact .refl _
  | cons b l ih =>
    rw [insertSorted]
    split
    · exact .refl _
    · exact (ih.cons b).trans (.swap x b l)

theorem insertSorted_pairwise {x : α} {l : List α} (hl : l.Pairwise fun a b => key a < key b)
    (hx : ∀ a ∈ l, key a ≠ key x) : (insertSorted key x l).Pairwise fun a b => key a < key b := by
  induction l with
  | nil => simp [insertSorted]
  | cons b l ih =>
    obtain ⟨hb, hl⟩ := List.pairwise_cons.1 hl
    rw [insertSorted]
    split
    · rename_i hlt
      refine List.pairwise_cons.2 ⟨fun a ha => ?_, List.pairwise_cons.2 ⟨hb, hl⟩⟩
      rcases List.mem_cons.1 ha with rfl | ha
      · exact hlt
      · exact hlt.trans (hb a ha)
    · rename_i hge
      refine List.pairwise_cons.2 ⟨fun a ha => ?_, ih hl fun a ha => hx a (List.mem_cons_of_mem _ ha)⟩
      rcases mem_insertSorted.1 ha with rfl | ha
      · exact lt_of_le_of_ne (not_lt.1 hge) (hx b List.mem_cons_self)
      · exact hb a ha

/-- An entry with a greater key than all others goes last. -/
theorem insertSorted_last {x : α} {l : List α} (h : ∀ a ∈ l, key a < key x) :
    insertSorted key x l = l ++ [x] := by
  induction l with
  | nil => rfl
  | cons b l ih =>
    rw [insertSorted, if_neg (h b List.mem_cons_self).not_gt, ih fun _ ha => h _ (List.mem_cons_of_mem _ ha)]
    rfl

/-- Insert an entry whose key is not there. -/
def insert (t : Keyed α key) (x : α) (h : t.find? (key x) = none) : Keyed α key where
  entries := insertSorted key x t.entries
  sorted := insertSorted_pairwise t.sorted fun _ ha e =>
    find?_eq_none.1 h (e ▸ List.mem_map_of_mem ha)

@[simp] theorem mem_insert {t : Keyed α key} {x a : α} {h : t.find? (key x) = none} :
    a ∈ (t.insert x h).entries ↔ a = x ∨ a ∈ t.entries := mem_insertSorted

theorem mem_keys_insert {t : Keyed α key} {x : α} {h : t.find? (key x) = none} {k : ℕ} :
    k ∈ (t.insert x h).keys ↔ k = key x ∨ k ∈ t.keys := by
  simp only [keys, List.mem_map, mem_insert]
  constructor
  · rintro ⟨a, rfl | ha, rfl⟩
    · exact .inl rfl
    · exact .inr ⟨a, ha, rfl⟩
  · rintro (rfl | ⟨a, ha, rfl⟩)
    · exact ⟨x, .inl rfl, rfl⟩
    · exact ⟨a, .inr ha, rfl⟩

/-! ## Removing and updating -/

/-- Remove the entry with a key. -/
def erase (t : Keyed α key) (k : ℕ) : Keyed α key where
  entries := t.entries.filter fun a => !hasKey key k a
  sorted := t.sorted.filter _

theorem mem_erase {t : Keyed α key} {k : ℕ} {a : α} :
    a ∈ (t.erase k).entries ↔ a ∈ t.entries ∧ key a ≠ k := by
  simp [erase, hasKey]

theorem mem_keys_erase {t : Keyed α key} {k k' : ℕ} :
    k' ∈ (t.erase k).keys ↔ k' ∈ t.keys ∧ k' ≠ k := by
  simp only [keys, List.mem_map, mem_erase]
  constructor
  · rintro ⟨a, ⟨ha, hne⟩, rfl⟩
    exact ⟨⟨a, ha, rfl⟩, hne⟩
  · rintro ⟨⟨a, ha, rfl⟩, hne⟩
    exact ⟨a, ⟨ha, hne⟩, rfl⟩

/-- The entry with a key goes, and all others stay. -/
theorem perm_erase {t : Keyed α key} {k : ℕ} {a : α} (h : t.find? k = some a) :
    t.entries.Perm (a :: (t.erase k).entries) := by
  obtain ⟨ha, rfl⟩ := find?_eq_some.1 h
  obtain ⟨l, r, hlr⟩ := List.append_of_mem ha
  have hs := t.sorted
  rw [hlr, List.pairwise_append, List.pairwise_cons] at hs
  have hfilter : ∀ m : List α, (∀ b ∈ m, key b ≠ key a) →
      m.filter (fun b => !hasKey key (key a) b) = m := fun m hm =>
    List.filter_eq_self.2 fun b hb => by simpa [hasKey] using hm b hb
  have herase : (t.erase (key a)).entries = l ++ r := by
    show t.entries.filter _ = _
    rw [hlr, List.filter_append, hfilter l fun b hb => (hs.2.2 b hb a List.mem_cons_self).ne,
      List.filter_cons_of_neg (by simp [hasKey]), hfilter r fun b hb => (hs.2.1.1 b hb).ne']
  rw [hlr, herase]
  exact List.perm_middle

/-- Update entries in place, keeping their keys. -/
def update (t : Keyed α key) (f : α → α) (h : ∀ a, key (f a) = key a) : Keyed α key where
  entries := t.entries.map f
  sorted := by
    rw [List.pairwise_map]
    simpa only [h] using t.sorted

theorem entries_update (t : Keyed α key) (f : α → α) (h : ∀ a, key (f a) = key a) :
    (t.update f h).entries = t.entries.map f := rfl

@[simp] theorem keys_update {t : Keyed α key} {f : α → α} {h : ∀ a, key (f a) = key a} :
    (t.update f h).keys = t.keys := by
  rw [keys, keys, update, List.map_map]
  exact List.map_congr_left fun a _ => h a

/-! ## Neighbours -/

/-- The entry after the one with a key. -/
def next? (t : Keyed α key) (k : ℕ) : Option α := Queue.next? (hasKey key k) t.entries

/-- The entry before the one with a key. -/
def prev? (t : Keyed α key) (k : ℕ) : Option α := Queue.prev? (hasKey key k) t.entries

theorem mem_of_next? {t : Keyed α key} {k : ℕ} {a : α} (h : t.next? k = some a) : a ∈ t.entries :=
  Queue.mem_of_next? h

theorem mem_of_prev? {t : Keyed α key} {k : ℕ} {a : α} (h : t.prev? k = some a) : a ∈ t.entries :=
  Queue.mem_of_prev? h

end Keyed
