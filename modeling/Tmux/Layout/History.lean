import Mathlib.Data.List.Nodup
import Tmux.Layout.WithoutIds
import Tmux.Library.Queue

/-!
# The history of layouts

A window has a list of the layouts it had (`LayoutList`), as they are dumped, and a pointer to the one it was last
set to. A layout is added after that one (`layoutListAdd`), and the list is cut to the limit from its ends; undoing
and redoing follow the list back and forth.

While all the layouts fit into the buffer they are dumped to, the pointer is to a member of the list
(`LayoutList.Linked`), whatever limits the option has meanwhile (`layoutListRun`).
-/

namespace Tmux

open Exec

/-- An entry of the list, at an address. -/
structure LastLayout where
  id : ℕ
  /-- The layout, or null if it could not be dumped. -/
  layout : Option (List UInt8)
  deriving DecidableEq, Repr

structure LayoutList where
  list : List LastLayout := []
  size : ℕ := 0
  /-- The address of the entry last added, undone or redone to. -/
  last : Option ℕ := none
  /-- The next address. -/
  next : ℕ := 0
  deriving DecidableEq, Repr

def LastLayout.isAt (p : ℕ) (ll : LastLayout) : Bool := ll.id == p

/-- The entry at an address, which must not be freed. -/
def LayoutList.entry (w : LayoutList) (p : ℕ) : Exec LastLayout :=
  match w.list.find? (LastLayout.isAt p) with
  | none => .fault .freed
  | some ll => pure ll

/-- Whether a layout is the one the window was last set to, as `strcmp` compares them. -/
def LayoutList.isLast (w : LayoutList) (layout : Option (List UInt8)) : Exec Bool :=
  match w.last with
  | none => pure false
  | some p => do
    let ll ← w.entry p
    let a ← follow ll.layout
    let b ← follow layout
    pure (a = b)

/-- The entry to remove: the last one of the list, or the first one if the last is the one pointed to. -/
def LayoutList.victim (w : LayoutList) : Exec LastLayout := do
  let ll ← follow w.list.getLast?
  if some ll.id = w.last then follow w.list.head? else pure ll

/-- Remove entries from the list until there are at most `limit`. -/
def LayoutList.evict (limit : ℕ) : ℕ → LayoutList → Exec LayoutList
  | 0, _ => .fault .hang
  | n + 1, w =>
    if w.size > limit then do
      let ll ← w.victim
      let size ← usub w.size 1
      evict limit n { w with list := w.list.eraseP (LastLayout.isAt ll.id), size }
    else pure w

/-- Put an entry into the list after the one last added, undone or redone to. -/
def LayoutList.insert (w : LayoutList) (layout : Option (List UInt8)) : LayoutList where
  list := match w.last with
    | none => w.list ++ [⟨w.next, layout⟩]
    | some p => Queue.insertAfter (LastLayout.isAt p) ⟨w.next, layout⟩ w.list
  size := uadd w.size 1
  last := some w.next
  next := w.next + 1

/-- Add layout to list. -/
def layoutListAdd (bufsiz : ℕ) (w : LayoutList) (lcroot : LayoutCell) (limit : ℕ) : Exec LayoutList := do
  let layout := layoutDump bufsiz lcroot
  if ← w.isLast layout then pure w
  else
    let w := w.insert layout
    w.evict limit (w.list.length + 1)

/-- Go to a neighbour of the entry last added, undone or redone to. -/
def LayoutList.go (neighbour : (LastLayout → Bool) → List LastLayout → Option LastLayout) (w : LayoutList) :
    Exec (Option (List UInt8) × LayoutList) :=
  match w.last with
  | none => pure (none, w)
  | some p => do
    let ll ← w.entry p
    match neighbour (LastLayout.isAt ll.id) w.list with
    | none => pure (none, w)
    | some ll => pure (ll.layout, { w with last := some ll.id })

/-- Apply next layout from list. -/
def layoutListRedo (w : LayoutList) : Exec (Option (List UInt8) × LayoutList) := w.go Queue.next?

/-- Apply previous layout from list. -/
def layoutListUndo (w : LayoutList) : Exec (Option (List UInt8) × LayoutList) := w.go Queue.prev?

inductive LayoutListEvent
  | add (lcroot : LayoutCell) (limit : ℕ)
  | redo
  | undo

def layoutListEvent (bufsiz : ℕ) (w : LayoutList) : LayoutListEvent → Exec LayoutList
  | .add lcroot limit => layoutListAdd bufsiz w lcroot limit
  | .redo => Prod.snd <$> layoutListRedo w
  | .undo => Prod.snd <$> layoutListUndo w

/-- The largest limit of the option `layout-history-limit`. -/
def ushrtMax : ℕ := 65535

/-- A layout that fits into the buffer, under a limit of the option. -/
def LayoutListEvent.Fits (bufsiz : ℕ) : LayoutListEvent → Prop
  | .add lcroot limit => layoutDump bufsiz lcroot ≠ none ∧ 1 ≤ limit ∧ limit ≤ ushrtMax
  | _ => True

/-! ## Invariant -/

/-- The entries of the list are at different addresses and have layouts, their number is recorded, and the pointer is
    to one of them if there is any. -/
structure LayoutList.Linked (w : LayoutList) : Prop where
  nodup : (w.list.map LastLayout.id).Nodup
  fresh : ∀ ll ∈ w.list, ll.id < w.next
  size : w.size = w.list.length
  layouts : ∀ ll ∈ w.list, ll.layout ≠ none
  empty : w.last = none → w.list = []
  live : ∀ p, w.last = some p → ∃ ll ∈ w.list, ll.id = p

variable {w w' : LayoutList} {ll : LastLayout} {p n limit bufsiz : ℕ} {layout : Option (List UInt8)}

/-- The list splits at the entry that is pointed to. -/
theorem LayoutList.Linked.split (h : w.Linked) (hlast : w.last = some p) :
    ∃ l₁ ll r, w.list = l₁ ++ ll :: r ∧ ll.id = p ∧ ∀ a ∈ l₁, LastLayout.isAt p a = false := by
  obtain ⟨ll, hll, hp⟩ := h.live p hlast
  obtain ⟨l₁, x, r, hsplit, hx, hl₁⟩ := Queue.exists_split (p := LastLayout.isAt p) ⟨ll, hll, beq_iff_eq.2 hp⟩
  exact ⟨l₁, x, r, hsplit, beq_iff_eq.1 hx, hl₁⟩

theorem LayoutList.Linked.entry (h : w.Linked) (hlast : w.last = some p) :
    ∃ ll ∈ w.list, ll.id = p ∧ w.entry p = pure ll := by
  obtain ⟨l₁, ll, r, hsplit, hp, hl₁⟩ := h.split hlast
  refine ⟨ll, by rw [hsplit]; simp, hp, ?_⟩
  rw [LayoutList.entry, hsplit, Queue.find?_split hl₁ (beq_iff_eq.2 hp)]

/-- An entry other than the one pointed to is removed. -/
theorem LayoutList.Linked.erase (h : w.Linked) (hll : ll ∈ w.list) (hne : w.last ≠ some ll.id) :
    LayoutList.Linked { w with list := w.list.eraseP (LastLayout.isAt ll.id), size := w.size - 1 } := by
  have hsub := List.eraseP_sublist (p := LastLayout.isAt ll.id) (l := w.list)
  refine ⟨h.nodup.sublist (hsub.map _), fun a ha => h.fresh a (hsub.subset ha), ?_,
    fun a ha => h.layouts a (hsub.subset ha), fun hnone => ?_, fun p hp => ?_⟩
  · show w.size - 1 = _
    have hlength : (w.list.eraseP (LastLayout.isAt ll.id)).length = w.list.length - 1 :=
      List.length_eraseP_of_mem hll (beq_self_eq_true ll.id)
    rw [h.size, hlength]
  · rw [h.empty hnone] at hll
    exact absurd hll List.not_mem_nil
  · obtain ⟨a, ha, hap⟩ := h.live p hp
    have hother : ¬ LastLayout.isAt ll.id a = true := fun hat => hne (by rw [hp, ← hap, beq_iff_eq.1 hat])
    exact ⟨a, (List.mem_eraseP_of_neg hother).2 ha, hap⟩

/-- There is an entry to remove from a list of two, other than the one pointed to. -/
theorem LayoutList.Linked.victim (h : w.Linked) (hlength : 2 ≤ w.list.length) :
    ∃ ll ∈ w.list, w.last ≠ some ll.id ∧ w.victim = pure ll := by
  obtain ⟨l, b, hl⟩ := (List.eq_nil_or_concat' w.list).resolve_left
    (List.ne_nil_of_length_pos (Nat.zero_lt_of_lt hlength))
  rw [hl, List.length_append, List.length_singleton] at hlength
  obtain ⟨a, l, rfl⟩ := List.exists_cons_of_length_pos (Nat.le_of_succ_le_succ hlength)
  have hfirst : w.list.head? = some a := by rw [hl]; rfl
  have hlast : w.list.getLast? = some b := by rw [hl, List.getLast?_concat]
  by_cases hb : some b.id = w.last
  · refine ⟨a, List.mem_of_head? hfirst, fun ha => ?_, ?_⟩
    · have hnodup := h.nodup
      rw [hl] at hnodup
      have hne : a.id ≠ b.id := fun heq => by
        refine (List.nodup_cons.1 hnodup).1 ?_
        rw [heq]
        simp
      exact hne (Option.some.inj (ha.symm.trans hb.symm))
    · rw [LayoutList.victim, hlast, follow_some, pure_bind, if_pos hb, hfirst, follow_some]
  · refine ⟨b, List.mem_of_getLast? hlast, fun hb' => hb hb'.symm, ?_⟩
    rw [LayoutList.victim, hlast, follow_some, pure_bind, if_neg hb]

/-- Entries are removed until the list is within the limit. -/
theorem LayoutList.Linked.evict (h : w.Linked) (hlimit : 1 ≤ limit) (hn : w.list.length < n) :
    ∃ w', w.evict limit n = pure w' ∧ w'.Linked ∧ w'.size ≤ limit := by
  induction n generalizing w with
  | zero => exact absurd hn (Nat.not_lt_zero _)
  | succ n ih =>
    rw [LayoutList.evict]
    by_cases hsize : w.size > limit
    · have hlength := h.size
      obtain ⟨ll, hll, hne, hvictim⟩ := h.victim (by omega)
      have hrest : (w.list.eraseP (LastLayout.isAt ll.id)).length = w.list.length - 1 :=
        List.length_eraseP_of_mem hll (beq_self_eq_true ll.id)
      obtain ⟨w', hw', hlinked, hle⟩ := ih (h.erase hll hne) (by dsimp only; omega)
      refine ⟨w', ?_, hlinked, hle⟩
      rw [if_pos hsize, hvictim, pure_bind, usub_of_le (by omega), pure_bind, hw']
    · exact ⟨w, if_neg hsize, h, by omega⟩

/-- A layout is put into the list. -/
theorem LayoutList.Linked.insert (h : w.Linked) (hlayout : layout ≠ none) (hsize : w.size + 1 < word) :
    (w.insert layout).Linked := by
  have hperm : (w.insert layout).list.Perm (⟨w.next, layout⟩ :: w.list) := by
    cases hlast : w.last with
    | none =>
      rw [LayoutList.insert, hlast]
      exact List.perm_append_singleton _ _
    | some p =>
      obtain ⟨l₁, ll, r, hsplit, hp, hl₁⟩ := h.split hlast
      rw [LayoutList.insert, hlast]
      show (Queue.insertAfter (LastLayout.isAt p) _ w.list).Perm _
      rw [hsplit, Queue.insertAfter_split hl₁ (beq_iff_eq.2 hp)]
      exact (List.perm_append_left_iff l₁).2 (List.Perm.swap _ _ r) |>.trans List.perm_middle
  have hmem : ∀ {P : LastLayout → Prop}, P ⟨w.next, layout⟩ → (∀ ll ∈ w.list, P ll) → ∀ ll ∈ (w.insert layout).list, P ll :=
    fun hnew hold ll hll => by
      rcases List.mem_cons.1 (hperm.mem_iff.1 hll) with rfl | hll
      · exact hnew
      · exact hold ll hll
  refine ⟨?_, hmem (Nat.lt_succ_self _) fun ll hll => (h.fresh ll hll).trans (Nat.lt_succ_self _), ?_,
    hmem hlayout h.layouts, fun hnone => (by cases hnone), fun p hp => ?_⟩
  · refine (hperm.map LastLayout.id).nodup_iff.2 (List.nodup_cons.2 ⟨fun hin => ?_, h.nodup⟩)
    obtain ⟨ll, hll, hid⟩ := List.mem_map.1 hin
    exact absurd hid (h.fresh ll hll).ne
  · show uadd w.size 1 = _
    rw [uadd_of_lt hsize, hperm.length_eq, h.size, List.length_cons]
  · obtain rfl := Option.some.inj hp
    exact ⟨_, hperm.mem_iff.2 List.mem_cons_self, rfl⟩

/-- A layout is added: nothing changes if it is the last one, and otherwise the list is within the limit. -/
theorem layoutListAdd_linked (h : w.Linked) (hsize : w.size ≤ ushrtMax) {lcroot : LayoutCell}
    (hdump : layoutDump bufsiz lcroot ≠ none) (hlimit : 1 ≤ limit) :
    ∃ w', layoutListAdd bufsiz w lcroot limit = pure w' ∧ w'.Linked ∧ (w' = w ∨ w'.size ≤ limit) := by
  have hlast : ∃ same, w.isLast (layoutDump bufsiz lcroot) = pure same := by
    rw [LayoutList.isLast]
    cases hlast : w.last with
    | none => exact ⟨false, rfl⟩
    | some p =>
      obtain ⟨ll, hll, -, hentry⟩ := h.entry hlast
      obtain ⟨a, ha⟩ := Option.ne_none_iff_exists'.1 (h.layouts ll hll)
      obtain ⟨b, hb⟩ := Option.ne_none_iff_exists'.1 hdump
      exact ⟨decide (a = b), by simp only [hentry, pure_bind, ha, hb, follow_some]⟩
  obtain ⟨same, hsame⟩ := hlast
  rw [layoutListAdd, hsame, pure_bind]
  cases same with
  | true => exact ⟨w, rfl, h, .inl rfl⟩
  | false =>
    have hword : w.size + 1 < word := (Nat.succ_le_succ hsize).trans_lt (by decide)
    obtain ⟨w', hw', hlinked, hle⟩ := (h.insert hdump hword).evict hlimit (Nat.lt_succ_self _)
    exact ⟨w', hw', hlinked, .inr hle⟩

/-- Going to a neighbour leaves the list as it is, and the pointer to one of its entries. -/
theorem LayoutList.Linked.go (h : w.Linked) {neighbour : (LastLayout → Bool) → List LastLayout → Option LastLayout}
    (hmem : ∀ q l a, neighbour q l = some a → a ∈ l) :
    ∃ l w', w.go neighbour = pure (l, w') ∧ w'.Linked ∧ w'.list = w.list ∧ w'.size = w.size := by
  rw [LayoutList.go]
  cases hlast : w.last with
  | none => exact ⟨none, w, rfl, h, rfl, rfl⟩
  | some p =>
    obtain ⟨ll, -, rfl, hentry⟩ := h.entry hlast
    dsimp only
    rw [hentry, pure_bind]
    cases hnext : neighbour (LastLayout.isAt ll.id) w.list with
    | none => exact ⟨none, w, rfl, h, rfl, rfl⟩
    | some a =>
      refine ⟨_, _, rfl, ⟨h.nodup, h.fresh, h.size, h.layouts, fun hnone => (by cases hnone), fun q hq => ?_⟩, rfl, rfl⟩
      exact ⟨a, hmem _ _ _ hnext, Option.some.inj hq⟩

/-- The entries before another one are not at its address. -/
theorem LayoutList.Linked.before (h : w.Linked) {l r : List LastLayout} (hl : w.list = l ++ ll :: r) :
    ∀ a ∈ l, LastLayout.isAt ll.id a = false := fun a ha => by
  have hnodup := h.nodup
  rw [hl, List.map_append, List.map_cons] at hnodup
  refine beq_eq_false_iff_ne.2 fun heq => ?_
  exact (List.nodup_append.1 hnodup).2.2 a.id (List.mem_map_of_mem ha) ll.id List.mem_cons_self heq

/-- What is undone is redone. -/
theorem layoutListRedo_undo (h : w.Linked) {l : List UInt8} (hundo : layoutListUndo w = pure (some l, w')) :
    ∃ l', layoutListRedo w' = pure (l', w) := by
  rw [layoutListUndo, LayoutList.go] at hundo
  cases hlast : w.last with
  | none =>
    rw [hlast] at hundo
    cases hundo
  | some p =>
    obtain ⟨l₁, ll, r, hsplit, rfl, hl₁⟩ := h.split hlast
    have hentry : w.entry ll.id = pure ll := by
      rw [LayoutList.entry, hsplit, Queue.find?_split hl₁ (beq_self_eq_true ll.id)]
    have hprev : Queue.prev? (LastLayout.isAt ll.id) w.list = l₁.getLast? := by
      rw [hsplit, Queue.prev?_split hl₁ (beq_self_eq_true ll.id)]
    simp only [hlast, hentry, pure_bind, hprev] at hundo
    rcases List.eq_nil_or_concat' l₁ with rfl | ⟨l₀, a, rfl⟩
    · cases hundo
    · rw [List.getLast?_concat] at hundo
      obtain ⟨-, rfl⟩ := Prod.mk.inj (pure_inj.1 hundo)
      have hsplit' : w.list = l₀ ++ a :: ll :: r := by rw [hsplit, List.append_assoc]; rfl
      have hl₀ := h.before hsplit'
      have hentry' : LayoutList.entry { w with last := some a.id } a.id = pure a := by
        rw [LayoutList.entry, hsplit', Queue.find?_split hl₀ (beq_self_eq_true a.id)]
      have hnext : Queue.next? (LastLayout.isAt a.id) w.list = some ll := by
        rw [hsplit', Queue.next?_split hl₀ (beq_self_eq_true a.id)]
        rfl
      refine ⟨ll.layout, ?_⟩
      simp only [layoutListRedo, LayoutList.go, hentry', pure_bind, hnext]
      rw [← hlast]

/-! ## Runs -/

theorem layoutListEvent_linked {e : LayoutListEvent} (hfits : e.Fits bufsiz) (h : w.Linked ∧ w.size ≤ ushrtMax) :
    ∃ w', layoutListEvent bufsiz w e = pure w' ∧ w'.Linked ∧ w'.size ≤ ushrtMax := by
  have hgo : ∀ {neighbour}, (∀ q l a, neighbour q l = some a → a ∈ l) →
      ∃ w', Prod.snd <$> w.go neighbour = pure w' ∧ w'.Linked ∧ w'.size ≤ ushrtMax := fun hmem => by
    obtain ⟨l, w', hw', hlinked, -, hsize⟩ := h.1.go hmem
    exact ⟨w', by rw [hw', map_pure], hlinked, hsize.le.trans h.2⟩
  cases e with
  | add lcroot limit =>
    obtain ⟨w', hw', hlinked, rfl | hle⟩ := layoutListAdd_linked h.1 h.2 hfits.1 hfits.2.1
    · exact ⟨_, hw', hlinked, h.2⟩
    · exact ⟨w', hw', hlinked, hle.trans hfits.2.2⟩
  | redo => exact hgo fun _ _ _ => Queue.mem_of_next?
  | undo => exact hgo fun _ _ _ => Queue.mem_of_prev?

/-- In any run, the size is the length of the list and the pointer is null exactly if the list is empty, and otherwise to
    an entry of it. Adding a layout changes nothing, or leaves the list within the limit; undoing and redoing leave
    the list as it is, and what is undone is redone. -/
theorem layoutListRun {events : List LayoutListEvent} (hfits : ∀ e ∈ events, e.Fits bufsiz) :
    ∃ w, events.foldlM (layoutListEvent bufsiz) {} = pure w ∧ w.size = w.list.length ∧ (w.last = none ↔ w.list = []) ∧
      (∀ p, w.last = some p → ∃ ll ∈ w.list, ll.id = p) ∧
      (∀ lcroot limit, (LayoutListEvent.add lcroot limit).Fits bufsiz →
        ∃ w', layoutListAdd bufsiz w lcroot limit = pure w' ∧ (w' = w ∨ w'.size ≤ limit)) ∧
      (∃ l w', layoutListRedo w = pure (l, w') ∧ w'.list = w.list ∧ w'.size = w.size) ∧
      (∃ l w', layoutListUndo w = pure (l, w') ∧ w'.list = w.list ∧ w'.size = w.size) ∧
      ∀ l w', layoutListUndo w = pure (some l, w') → ∃ l', layoutListRedo w' = pure (l', w) := by
  have hstart : ({} : LayoutList).Linked ∧ ({} : LayoutList).size ≤ ushrtMax := by
    refine ⟨⟨List.nodup_nil, ?_, rfl, ?_, fun _ => rfl, fun p hp => by cases hp⟩, Nat.zero_le _⟩ <;>
      exact fun _ h => absurd h List.not_mem_nil
  obtain ⟨w, hrun, h, hsize⟩ := Exec.foldlM_along (fun _ _ he hw => layoutListEvent_linked he.2 hw)
    ((Exec.Along.trivial _ events).and_forall hfits) hstart
  refine ⟨w, hrun, h.size, ⟨h.empty, fun hnil => ?_⟩, h.live, fun lcroot limit he => ?_, ?_, ?_,
    fun _ _ hundo => layoutListRedo_undo h hundo⟩
  · cases hlast : w.last with
    | none => rfl
    | some p =>
      obtain ⟨ll, hll, -⟩ := h.live p hlast
      rw [hnil] at hll
      exact absurd hll List.not_mem_nil
  · obtain ⟨w', hw', -, hle⟩ := layoutListAdd_linked h hsize he.1 he.2.1
    exact ⟨w', hw', hle⟩
  · obtain ⟨l, w', hw', -, hlist, hsame⟩ := h.go fun _ _ _ => Queue.mem_of_next?
    exact ⟨l, w', hw', hlist, hsame⟩
  · obtain ⟨l, w', hw', -, hlist, hsame⟩ := h.go fun _ _ _ => Queue.mem_of_prev?
    exact ⟨l, w', hw', hlist, hsame⟩

theorem layoutListRun_two : ∃ w,
    [LayoutListEvent.add singlePane 2, .add besidePanes 2, .undo].foldlM (layoutListEvent 8192) {} = pure w ∧
      w.size = w.list.length := by
  have hfits : ∀ e ∈ [LayoutListEvent.add singlePane 2, .add besidePanes 2, .undo], e.Fits 8192 := by
    have hsingle : layoutDump 8192 singlePane ≠ none := by decide +kernel
    have hbeside : layoutDump 8192 besidePanes ≠ none := by decide +kernel
    rintro e (_ | ⟨_, _ | ⟨_, _ | ⟨_, _ | _⟩⟩⟩)
    · exact ⟨hsingle, by decide, by decide⟩
    · exact ⟨hbeside, by decide, by decide⟩
    · exact trivial
  obtain ⟨w, hrun, hsize, -⟩ := layoutListRun hfits
  exact ⟨w, hrun, hsize⟩

/-- Two layouts stay under a limit of one, and undoing where there is nothing to undo is not undone by redoing. -/
theorem layoutListRun_over :
    (do
      let w ← [LayoutListEvent.add singlePane 2, .add besidePanes 2].foldlM (layoutListEvent 8192) {}
      let w ← layoutListAdd 8192 w besidePanes 1
      pure w.size) = pure 2 ∧
    (do
      let w ← [LayoutListEvent.add singlePane 2, .add besidePanes 2, .undo].foldlM (layoutListEvent 8192) {}
      let (_, w₁) ← layoutListUndo w
      let (_, w₂) ← layoutListRedo w₁
      pure (w.last, w₂.last)) = pure (some 0, some 1) := by
  decide +kernel

end Tmux
