import Tmux.Library.Block

/-!
# Objects with one owner

Objects on a heap are told apart by numbers that are never used again (`Heap`). Using or
releasing one that is not live any more is a fault.

The entries of a block own objects: the heap has one owner for each object (`Owned`) if no
object belongs to two entries, or to an entry and to something else (`rest`), and those that
belong to none are not live. It is kept by replacing an entry and releasing what it owned
(`Owned.set`), and by moving entries about without losing one (`Owned.rearranged`).
-/

open Exec (Meets Allowed)

/-- The objects that are live, and the number of the next one. -/
structure Heap where
  live : List ℕ := []
  next : ℕ := 0
  /-- The next number was never used. -/
  fresh : ∀ id ∈ live, id < next := by simp
  deriving DecidableEq

namespace Heap

/-- Allocate an object. -/
def alloc (h : Heap) : Heap × ℕ :=
  ({ live := h.next :: h.live
     next := h.next + 1
     fresh := fun id hid => by
      rcases List.mem_cons.1 hid with rfl | hid
      · exact Nat.lt_succ_self _
      · exact Nat.lt_succ_of_lt (h.fresh id hid) }, h.next)

/-- Use an object. -/
def use (h : Heap) (id : ℕ) : Exec Unit := if id ∈ h.live then pure () else .fault .freed

/-- Release an object. -/
def release (h : Heap) (id : ℕ) : Exec Heap :=
  if id ∈ h.live then
    pure { h with
      live := h.live.filter (· ≠ id)
      fresh := fun id hid => h.fresh id (List.mem_of_mem_filter hid) }
  else .fault .freed

/-- Release what a pointer points to, if it is not null. -/
def free (h : Heap) : Option ℕ → Exec Heap
  | none => pure h
  | some id => h.release id

/-- Use what a pointer points to. -/
def access (h : Heap) : Option ℕ → Exec Unit
  | none => .fault .null
  | some id => h.use id

/-- Allocate an object in the place of one that a pointer points to. -/
def realloc (h : Heap) (p : Option ℕ) : Exec (Heap × ℕ) := do
  let h ← h.free p
  pure h.alloc

variable {h : Heap} {id : ℕ} {p : Option ℕ} {w : Allowed}

theorem next_not_live (h : Heap) : h.next ∉ h.live := fun hnext => absurd (h.fresh _ hnext) (lt_irrefl _)

theorem meets_use (hid : id ∈ h.live) : Meets w (fun _ => True) (h.use id) := by
  rw [use, if_pos hid]
  exact .pure trivial

theorem meets_access (hw : w.faults .null) (hp : ∀ id ∈ p, id ∈ h.live) : Meets w (fun _ => True) (h.access p) := by
  cases p with
  | none => exact hw
  | some id => exact meets_use (hp id rfl)

/-- Releasing what a pointer points to leaves all else live. -/
theorem meets_free (hp : ∀ id ∈ p, id ∈ h.live) :
    Meets w (fun h' => ∀ id, id ∈ h'.live ↔ id ∈ h.live ∧ id ∉ p.toList) (h.free p) := by
  cases p with
  | none => exact .pure fun id => by simp
  | some id =>
    rw [free, release, if_pos (hp id rfl)]
    exact .pure fun id' => by simp

theorem meets_realloc (hp : ∀ id ∈ p, id ∈ h.live) :
    Meets w (fun q => q.2 ∉ h.live ∧ ∀ id, id ∈ q.1.live ↔ id = q.2 ∨ (id ∈ h.live ∧ id ∉ p.toList)) (h.realloc p) := by
  cases p with
  | none => exact .pure ⟨h.next_not_live, fun id => by simp [alloc]⟩
  | some id =>
    rw [realloc, free, release, if_pos (hp id rfl), pure_bind]
    exact .pure ⟨h.next_not_live, fun id' => by simp [alloc]⟩

end Heap

/-! ## Owners -/

variable {α : Type*} {own : α → List ℕ} {h h' : Heap} {rest rest' : ℕ → Prop} {l l' : List α} {a b : α} {i : ℕ}

/-- An object belongs to an entry of a block. -/
def Owns (own : α → List ℕ) (l : List α) (id : ℕ) : Prop := ∃ a ∈ l, id ∈ own a

/-- The objects that are live are those that belong to an entry of a block or to the rest, each to one
    of them only. -/
structure Owned (own : α → List ℕ) (h : Heap) (rest : ℕ → Prop) (l : List α) : Prop where
  apart : ∀ (i j : ℕ) (a b : α) (id : ℕ), l[i]? = some a → l[j]? = some b → id ∈ own a → id ∈ own b → i = j
  nodup : ∀ a ∈ l, (own a).Nodup
  others : ∀ id, Owns own l id → ¬ rest id
  live : ∀ id, id ∈ h.live ↔ rest id ∨ Owns own l id

/-- What becomes of the heap when an entry that owned the objects of `a` owns those of `b`. -/
structure Heap.Step (own : α → List ℕ) (h : Heap) (a : α) (h' : Heap) (b : α) : Prop where
  nodup : (own b).Nodup
  new : ∀ id ∈ own b, id ∈ own a ∨ id ∉ h.live
  live : ∀ id, id ∈ h'.live ↔ id ∈ own b ∨ (id ∈ h.live ∧ id ∉ own a)

/-- An entry that owns the same objects. -/
theorem Heap.Step.same (hnodup : (own a).Nodup) (hlive : ∀ id ∈ own a, id ∈ h.live) (hown : own b = own a) :
    Heap.Step own h a h b where
  nodup := hown ▸ hnodup
  new := fun id hid => .inl (hown ▸ hid)
  live := fun id => by
    rw [hown]
    exact ⟨fun hid => (em (id ∈ own a)).imp_right fun hnot => ⟨hid, hnot⟩,
      fun hid => hid.elim (hlive id) And.left⟩

/-- An object of an entry is replaced by a new one, or a new one is added to them. -/
theorem Heap.Step.replace {p : Option ℕ} {others : List ℕ} {new : ℕ}
    (ha : ∀ id, id ∈ own a ↔ id ∈ p.toList ∨ id ∈ others) (hb : ∀ id, id ∈ own b ↔ id = new ∨ id ∈ others)
    (hapart : ∀ id ∈ others, id ∉ p.toList) (hothers : ∀ id ∈ others, id ∈ h.live) (hnew : new ∉ h.live)
    (hlive : ∀ id, id ∈ h'.live ↔ id = new ∨ (id ∈ h.live ∧ id ∉ p.toList)) (hnodup : (own b).Nodup) :
    Heap.Step own h a h' b where
  nodup := hnodup
  new id hid := by
    rcases (hb id).1 hid with rfl | hid
    · exact .inr hnew
    · exact .inl ((ha id).2 (.inr hid))
  live id := by
    rw [hlive, hb, ha, not_or]
    constructor
    · rintro (hid | ⟨hid, hnot⟩)
      · exact .inl (.inl hid)
      · by_cases hmem : id ∈ others
        · exact .inl (.inr hmem)
        · exact .inr ⟨hid, hnot, hmem⟩
    · rintro ((hid | hid) | ⟨hid, hnot, -⟩)
      · exact .inl hid
      · exact .inr ⟨hothers id hid, hapart id hid⟩
      · exact .inr ⟨hid, hnot⟩

theorem Heap.Step.mem_live (hs : Heap.Step own h a h' b) {id : ℕ} (hid : id ∈ own b) : id ∈ h'.live :=
  (hs.live id).2 (.inl hid)

theorem Heap.Step.trans {c : α} {h'' : Heap} (hs : Heap.Step own h a h' b) (hs' : Heap.Step own h' b h'' c) :
    Heap.Step own h a h'' c where
  nodup := hs'.nodup
  new := fun id hid => by
    rcases hs'.new id hid with hb | hnot
    · exact hs.new id hb
    · by_contra hold
      push Not at hold
      exact hnot ((hs.live id).2 (.inr ⟨hold.2, hold.1⟩))
  live := fun id => by
    rw [hs'.live]
    refine or_congr_right ⟨fun ⟨hid, hnot⟩ => ((hs.live id).1 hid).resolve_left hnot, fun hid => ?_⟩
    refine ⟨(hs.live id).2 (.inr hid), fun hb => ?_⟩
    exact (hs.new id hb).elim hid.2 fun hnot => hnot hid.1

theorem Owns.of_getElem? {id : ℕ} (ha : l[i]? = some a) (hid : id ∈ own a) : Owns own l id :=
  ⟨a, List.mem_of_getElem? ha, hid⟩

theorem owns_iff_getElem? {id : ℕ} : Owns own l id ↔ ∃ (i : ℕ) (a : α), l[i]? = some a ∧ id ∈ own a := by
  constructor
  · rintro ⟨a, ha, hid⟩
    obtain ⟨i, hi⟩ := List.mem_iff_getElem?.1 ha
    exact ⟨i, a, hi, hid⟩
  · rintro ⟨i, a, hi, hid⟩
    exact .of_getElem? hi hid

theorem Owned.mem_live (ho : Owned own h rest l) (ha : l[i]? = some a) {id : ℕ} (hid : id ∈ own a) : id ∈ h.live :=
  (ho.live id).2 (.inr (.of_getElem? ha hid))

/-- Replacing an entry, the heap changing with it. -/
theorem Owned.set (ho : Owned own h rest l) (ha : l[i]? = some a) (hs : Heap.Step own h a h' b) :
    Owned own h' rest (l.set i b) := by
  have hi : i < l.length := (List.getElem?_eq_some_iff.1 ha).1
  have hself : (l.set i b)[i]? = some b := List.getElem?_set_self hi
  have hold : ∀ j c, j ≠ i → (l.set i b)[j]? = some c → l[j]? = some c := fun j c hj hc => by
    rwa [List.getElem?_set_ne (Ne.symm hj)] at hc
  -- What another entry owns is not owned by the new one.
  have hother : ∀ j c id, j ≠ i → l[j]? = some c → id ∈ own c → id ∉ own b := fun j c id hj hc hid hb => by
    rcases hs.new id hb with hmem | hnot
    · exact hj (ho.apart j i c a id hc ha hid hmem)
    · exact hnot (ho.mem_live hc hid)
  have howns : ∀ id, Owns own (l.set i b) id ↔ id ∈ own b ∨ (Owns own l id ∧ id ∉ own a) := fun id => by
    rw [owns_iff_getElem?, owns_iff_getElem?]
    constructor
    · rintro ⟨j, c, hc, hid⟩
      by_cases hj : j = i
      · subst hj
        rw [hself] at hc
        exact .inl (Option.some.inj hc ▸ hid)
      · have hc := hold j c hj hc
        exact .inr ⟨⟨j, c, hc, hid⟩, fun hmem => hj (ho.apart j i c a id hc ha hid hmem)⟩
    · rintro (hid | ⟨⟨j, c, hc, hid⟩, hnot⟩)
      · exact ⟨i, b, hself, hid⟩
      · refine ⟨j, c, ?_, hid⟩
        rw [List.getElem?_set_ne, hc]
        rintro rfl
        rw [ha] at hc
        exact hnot (Option.some.inj hc ▸ hid)
  refine ⟨fun j k c d id hc hd hidc hidd => ?_, fun c hc => ?_, fun id hid => ?_, fun id => ?_⟩
  · by_cases hj : j = i
    · by_cases hk : k = i
      · exact hj.trans hk.symm
      · subst hj
        rw [hself] at hc
        exact absurd (Option.some.inj hc ▸ hidc) (hother k d id hk (hold k d hk hd) hidd)
    · by_cases hk : k = i
      · subst hk
        rw [hself] at hd
        exact absurd (Option.some.inj hd ▸ hidd) (hother j c id hj (hold j c hj hc) hidc)
      · exact ho.apart j k c d id (hold j c hj hc) (hold k d hk hd) hidc hidd
  · rcases List.mem_or_eq_of_mem_set hc with hc | rfl
    · exact ho.nodup c hc
    · exact hs.nodup
  · rcases (howns id).1 hid with hb | ⟨hold, -⟩
    · rcases hs.new id hb with hmem | hnot
      · exact ho.others id (.of_getElem? ha hmem)
      · exact fun hrest => hnot ((ho.live id).2 (.inl hrest))
    · exact ho.others id hold
  · rw [hs.live, howns, ho.live]
    constructor
    · rintro (hid | ⟨hid | hid, hnot⟩)
      · exact .inr (.inl hid)
      · exact .inl hid
      · exact .inr (.inr ⟨hid, hnot⟩)
    · rintro (hid | hid | ⟨hid, hnot⟩)
      · exact .inr ⟨.inl hid, fun hmem => ho.others id (.of_getElem? ha hmem) hid⟩
      · exact .inl hid
      · exact .inr ⟨.inr hid, hnot⟩

/-- Moving the entries that own something about: each comes from one place, and none is lost. -/
theorem Owned.rearranged (ho : Owned own h rest l) (R : ℕ → ℕ → Prop)
    (hfrom : ∀ (i : ℕ) (b : α), l'[i]? = some b → own b ≠ [] → ∃ j, R i j ∧ l[j]? = some b)
    (hinj : ∀ i i' j, R i j → R i' j → i = i')
    (hto : ∀ (j : ℕ) (a : α), l[j]? = some a → own a ≠ [] → a ∈ l') : Owned own h rest l' := by
  have hne : ∀ {a : α} {id : ℕ}, id ∈ own a → own a ≠ [] := fun hid => List.ne_nil_of_mem hid
  have howns : ∀ id, Owns own l' id ↔ Owns own l id := fun id => by
    constructor
    · intro hid
      obtain ⟨i, b, hb, hid⟩ := owns_iff_getElem?.1 hid
      obtain ⟨j, -, hj⟩ := hfrom i b hb (hne hid)
      exact .of_getElem? hj hid
    · intro hid
      obtain ⟨j, a, ha, hid⟩ := owns_iff_getElem?.1 hid
      exact ⟨a, hto j a ha (hne hid), hid⟩
  refine ⟨fun i i' b b' id hb hb' hid hid' => ?_, fun b hb => ?_, fun id hid => ho.others id ((howns id).1 hid),
    fun id => by rw [ho.live, howns]⟩
  · obtain ⟨j, hR, hj⟩ := hfrom i b hb (hne hid)
    obtain ⟨j', hR', hj'⟩ := hfrom i' b' hb' (hne hid')
    obtain rfl := ho.apart j j' b b' id hj hj' hid hid'
    exact hinj i i' j hR hR'
  · by_cases hown : own b = []
    · rw [hown]
      exact List.nodup_nil
    · obtain ⟨i, hi⟩ := List.mem_iff_getElem?.1 hb
      obtain ⟨j, -, hj⟩ := hfrom i b hi hown
      exact ho.nodup b (List.mem_of_getElem? hj)

/-- Seen from the other one of two blocks. -/
theorem Owned.swap (ho : Owned own h (Owns own l') l) (ho' : Owned own h' rest l') : Owned own h (Owns own l) l' :=
  ⟨ho'.apart, ho'.nodup, fun id hid hrest => ho.others id hrest hid, fun id => by rw [ho.live, or_comm]⟩
