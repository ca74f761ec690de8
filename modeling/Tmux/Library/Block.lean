import Mathlib.Data.List.Range
import Tmux.Library.Exec

/-!
# Blocks of memory

A block of memory with entries of one type, as the list of its entries. Loading
(`load`), storing (`store`), moving (`move`) and filling (`fill`) entries faults
past the end of the block; `resize` gives a block of another size with the same
entries first.

Every operation is described entry by entry: what is at an index of the block
afterwards is what was at some index before, or the entry stored.
-/

namespace Block

universe u

variable {α : Type u} {l l' : List α} {a : α}

/-- The block resized to `n` entries, the new ones being `fresh`. -/
def resize (fresh : α) (l : List α) (n : ℕ) : List α := l.take n ++ List.replicate (n - l.length) fresh

/-- The entry at an index. -/
def load (l : List α) (i : ℕ) : Exec α :=
  match l[i]? with
  | none => .fault .overread
  | some a => pure a

/-- Store an entry at an index. -/
def store (l : List α) (i : ℕ) (a : α) : Exec (List α) :=
  if i < l.length then pure (l.set i a) else .fault .overread

/-- Move `n` entries from an index to another one, as by `memmove`. -/
def move (l : List α) (dst src n : ℕ) : Exec (List α) :=
  if dst + n ≤ l.length ∧ src + n ≤ l.length then
    pure (l.take dst ++ ((l.drop src).take n ++ l.drop (dst + n)))
  else .fault .overread

/-- Store an entry at those of the `n` indices from `i` on that pass a test, one after the
    other. -/
def fill (a : α) (p : ℕ → Bool) (l : List α) (i n : ℕ) : Exec (List α) :=
  (List.range' i n).foldlM (fun l k => if p k then store l k a else pure l) l

@[simp] theorem length_resize (fresh : α) (l : List α) (n : ℕ) : (resize fresh l n).length = n := by
  rw [resize, List.length_append, List.length_take, List.length_replicate]
  omega

theorem getElem?_resize (fresh : α) (l : List α) (n i : ℕ) :
    (resize fresh l n)[i]? = if i < n then some (l[i]?.getD fresh) else none := by
  rw [resize, List.getElem?_append, List.length_take, List.getElem?_take, List.getElem?_replicate]
  rcases lt_or_ge i l.length with hi | hi
  · rw [List.getElem?_eq_getElem hi]
    split_ifs <;> first | rfl | omega
  · rw [List.getElem?_eq_none hi]
    split_ifs <;> first | rfl | omega

theorem load_eq (h : l[i]? = some a) : load l i = pure a := by
  rw [load, h]

theorem store_eq {i : ℕ} (h : i < l.length) : store l i a = pure (l.set i a) := if_pos h

theorem store_value {i : ℕ} (h : (store l i a).value? = some l') : i < l.length ∧ l' = l.set i a := by
  by_cases hi : i < l.length
  · rw [store_eq hi] at h
    exact ⟨hi, (Option.some.inj h).symm⟩
  · rw [store, if_neg hi] at h
    cases h

/-- Moving entries keeps the size, and puts at an index of the destination what was at the
    index of the source. -/
theorem move_eq (l : List α) (dst src n : ℕ) (hdst : dst + n ≤ l.length)
    (hsrc : src + n ≤ l.length) :
    ∃ l', move l dst src n = pure l' ∧ l'.length = l.length ∧
      ∀ i, l'[i]? = if dst ≤ i ∧ i < dst + n then l[src + (i - dst)]? else l[i]? := by
  refine ⟨_, if_pos ⟨hdst, hsrc⟩, ?_, fun i => ?_⟩
  · simp only [List.length_append, List.length_take, List.length_drop]
    omega
  · rw [List.getElem?_append, List.getElem?_append, List.length_take, List.length_take,
      List.length_drop, Nat.min_eq_left (by omega), Nat.min_eq_left (by omega), List.getElem?_take,
      List.getElem?_take, List.getElem?_drop, List.getElem?_drop]
    split_ifs <;> first | rfl | omega | (congr 1; omega)

/-- Filling entries keeps the size, and stores the entry at the indices that pass the test. -/
theorem fill_eq {p : ℕ → Bool} {i n : ℕ} (h : i + n ≤ l.length) :
    ∃ l', fill a p l i n = pure l' ∧ l'.length = l.length ∧
      ∀ k, l'[k]? = if i ≤ k ∧ k < i + n ∧ p k = true then some a else l[k]? := by
  induction n generalizing l i with
  | zero => exact ⟨l, rfl, rfl, fun k => by rw [if_neg (by omega)]⟩
  | succ n ih =>
    obtain ⟨l₁, hstep, hlen₁, hget₁⟩ : ∃ l₁, (if p i then store l i a else pure l) = pure l₁ ∧
        l₁.length = l.length ∧ ∀ k, l₁[k]? = if k = i ∧ p k = true then some a else l[k]? := by
      split_ifs with hp
      · refine ⟨_, store_eq (by omega), List.length_set, fun k => ?_⟩
        rw [List.getElem?_set]
        split_ifs with h₁ h₂ h₃ h₃
        all_goals first | rfl | omega | grind
      · refine ⟨l, rfl, rfl, fun k => (if_neg ?_).symm⟩
        rintro ⟨rfl, hk⟩
        exact hp hk
    obtain ⟨l₂, hrest, hlen₂, hget₂⟩ := ih (l := l₁) (i := i + 1) (by omega)
    refine ⟨l₂, ?_, hlen₂.trans hlen₁, fun k => ?_⟩
    · rw [fill, List.range'_succ, List.foldlM_cons, hstep, pure_bind]
      exact hrest
    · rw [hget₂, hget₁]
      split_ifs <;> first | rfl | grind

/-! ## Other entries in the same places -/

section Refines

universe v

variable {β : Type v} (f : α → β)

theorem map_resize (fresh : α) (l : List α) (n : ℕ) : (resize fresh l n).map f = resize (f fresh) (l.map f) n := by
  rw [resize, resize, List.map_append, List.map_take, List.map_replicate, List.length_map]

theorem load_refines (l : List α) (i : ℕ) : Exec.Refines f (load l i) (load (l.map f) i) := by
  intro a ha
  unfold load at ha ⊢
  rw [List.getElem?_map]
  cases hget : l[i]? with
  | none => simp [hget] at ha
  | some b =>
    rw [hget] at ha
    obtain rfl := Option.some.inj ha
    rfl

theorem store_refines (l : List α) (i : ℕ) (a : α) :
    Exec.Refines (List.map f) (store l i a) (store (l.map f) i (f a)) := by
  intro l' hl'
  obtain ⟨hi, rfl⟩ := store_value hl'
  rw [store_eq (by rwa [List.length_map]), List.map_set]
  rfl

theorem move_refines (l : List α) (dst src n : ℕ) :
    Exec.Refines (List.map f) (move l dst src n) (move (l.map f) dst src n) := by
  intro l' hl'
  unfold move at hl' ⊢
  rw [List.length_map]
  split_ifs at hl' ⊢ with h
  · obtain rfl := Option.some.inj hl'
    simp [List.map_take, List.map_drop]
  · cases hl'

theorem fill_refines (a : α) (p : ℕ → Bool) (l : List α) (i n : ℕ) :
    Exec.Refines (List.map f) (fill a p l i n) (fill (f a) p (l.map f) i n) := by
  refine Exec.Refines.foldlM (f := List.map f) (fun l k => ?_) _ l
  split_ifs
  · exact store_refines f l k a
  · exact .pure rfl

end Refines

/-! ## Where entries come from -/

section Meets

variable {w : Exec.Allowed}

theorem load_entries (hw : w.faults .overread) (i : ℕ) : Exec.Meets w (fun a => l[i]? = some a) (load l i) := by
  unfold load
  cases l[i]? with
  | none => exact hw
  | some a => exact .pure rfl

theorem store_entries (hw : w.faults .overread) (i : ℕ) (a : α) :
    Exec.Meets w (fun l' => i < l.length ∧ l'.length = l.length ∧ ∀ k, l'[k]? = if k = i then some a else l[k]?)
      (store l i a) := by
  unfold store
  split_ifs with hi
  · refine .pure ⟨hi, List.length_set, fun k => ?_⟩
    split_ifs with hk
    · rw [hk, List.getElem?_set_self hi]
    · exact List.getElem?_set_ne (Ne.symm hk)
  · exact hw

theorem move_entries (hw : w.faults .overread) (dst src n : ℕ) :
    Exec.Meets w (fun l' => dst + n ≤ l.length ∧ src + n ≤ l.length ∧ l'.length = l.length ∧
      ∀ i, l'[i]? = if dst ≤ i ∧ i < dst + n then l[src + (i - dst)]? else l[i]?) (move l dst src n) := by
  by_cases h : dst + n ≤ l.length ∧ src + n ≤ l.length
  · obtain ⟨l', hl', hlen, hget⟩ := move_eq l dst src n h.1 h.2
    rw [hl']
    exact .pure ⟨h.1, h.2, hlen, hget⟩
  · rw [move, if_neg h]
    exact hw

theorem fill_entries (hw : w.faults .overread) (a : α) (p : ℕ → Bool) (i n : ℕ) :
    Exec.Meets w (fun l' => l'.length = l.length ∧
      ∀ k, l'[k]? = if i ≤ k ∧ k < i + n ∧ p k = true then some a else l[k]?) (fill a p l i n) := by
  induction n generalizing l i with
  | zero => exact .pure ⟨rfl, fun k => by rw [if_neg (by omega)]⟩
  | succ n ih =>
    have hstep : Exec.Meets w (fun l₁ => l₁.length = l.length ∧ ∀ k, l₁[k]? = if k = i ∧ p k = true then some a else l[k]?)
        (if p i then store l i a else pure l) := by
      split_ifs with hp
      · refine (store_entries hw i a).mono fun l₁ h₁ => ⟨h₁.2.1, fun k => ?_⟩
        rw [h₁.2.2]
        by_cases hk : k = i
        · rw [if_pos hk, if_pos ⟨hk, hk ▸ hp⟩]
        · rw [if_neg hk, if_neg fun h => hk h.1]
      · refine .pure ⟨rfl, fun k => (if_neg ?_).symm⟩
        rintro ⟨rfl, hk⟩
        exact hp hk
    rw [fill, List.range'_succ, List.foldlM_cons]
    refine hstep.bind fun l₁ h₁ => (ih (l := l₁) (i := i + 1)).mono fun l₂ h₂ => ⟨h₂.1.trans h₁.1, fun k => ?_⟩
    rw [h₂.2, h₁.2]
    split_ifs <;> first | rfl | grind

/-- Filling entries leaves every one of them as it was, or the one stored. -/
theorem fill_entries_or (hw : w.faults .overread) (a : α) (p : ℕ → Bool) (i n : ℕ) :
    Exec.Meets w (fun l' => l'.length = l.length ∧ ∀ k : ℕ, l'[k]? = l[k]? ∨ l'[k]? = some a) (fill a p l i n) :=
  (fill_entries hw a p i n).mono fun l' hl' => ⟨hl'.1, fun k => by
    rw [hl'.2]
    split_ifs
    · exact .inr rfl
    · exact .inl rfl⟩

/-! ## What is left alone -/

theorem meets_load (hw : w.faults .overread) (i : ℕ) : Exec.Meets w (fun _ => True) (load l i) :=
  (load_entries hw i).mono fun _ _ => trivial

/-- Storing an entry keeps the size, and the entries at other indices. -/
theorem meets_store (hw : w.faults .overread) (i : ℕ) (a : α) :
    Exec.Meets w (fun l' => l'.length = l.length ∧ ∀ k, k ≠ i → l'[k]? = l[k]?) (store l i a) :=
  (store_entries hw i a).mono fun _ h => ⟨h.2.1, fun k hk => by rw [h.2.2, if_neg hk]⟩

/-- Moving entries keeps the size, and the entries before the destination. -/
theorem meets_move (hw : w.faults .overread) (dst src n : ℕ) :
    Exec.Meets w (fun l' => l'.length = l.length ∧ ∀ k < dst, l'[k]? = l[k]?) (move l dst src n) :=
  (move_entries hw dst src n).mono fun _ h => ⟨h.2.2.1, fun k hk => by rw [h.2.2.2, if_neg (by omega)]⟩

/-- Filling entries keeps the size, and the entries before the first one. -/
theorem meets_fill (hw : w.faults .overread) (a : α) (p : ℕ → Bool) (i n : ℕ) :
    Exec.Meets w (fun l' => l'.length = l.length ∧ ∀ k < i, l'[k]? = l[k]?) (fill a p l i n) :=
  (fill_entries hw a p i n).mono fun _ h => ⟨h.1, fun k hk => by rw [h.2, if_neg (by omega)]⟩

/-! ## What all entries satisfy -/

variable {P : α → Prop}

theorem mem_resize {fresh : α} {n : ℕ} (h : a ∈ resize fresh l n) : a ∈ l ∨ a = fresh := by
  rcases List.mem_append.1 h with h | h
  · exact .inl (List.mem_of_mem_take h)
  · exact .inr (List.mem_replicate.1 h).2

theorem load_forall (hw : w.faults .overread) (hl : ∀ b ∈ l, P b) (i : ℕ) : Exec.Meets w P (load l i) := by
  unfold load
  cases hget : l[i]? with
  | none => exact hw
  | some b => exact .pure (hl b (List.mem_of_getElem? hget))

theorem store_forall (hw : w.faults .overread) (hl : ∀ b ∈ l, P b) (ha : P a) (i : ℕ) :
    Exec.Meets w (fun l' => ∀ b ∈ l', P b) (store l i a) := by
  unfold store
  split_ifs
  · refine .pure fun b hb => ?_
    rcases List.mem_or_eq_of_mem_set hb with hb | rfl
    · exact hl b hb
    · exact ha
  · exact hw

theorem move_forall (hw : w.faults .overread) (hl : ∀ b ∈ l, P b) (dst src n : ℕ) :
    Exec.Meets w (fun l' => ∀ b ∈ l', P b) (move l dst src n) := by
  unfold move
  split_ifs
  · refine .pure fun b hb => hl b ?_
    rcases List.mem_append.1 hb with hb | hb
    · exact List.mem_of_mem_take hb
    · rcases List.mem_append.1 hb with hb | hb
      · exact List.mem_of_mem_drop (List.mem_of_mem_take hb)
      · exact List.mem_of_mem_drop hb
  · exact hw

theorem fill_forall (hw : w.faults .overread) (hl : ∀ b ∈ l, P b) (ha : P a) (p : ℕ → Bool) (i n : ℕ) :
    Exec.Meets w (fun l' => ∀ b ∈ l', P b) (fill a p l i n) := by
  unfold fill
  refine Exec.Meets.foldlM hl fun l₁ k _ h₁ => ?_
  split_ifs
  · exact store_forall hw h₁ ha k
  · exact .pure h₁

end Meets

end Block
