import Tmux.Library.Exec
import Tmux.Library.Slots

/-!
# The table of windows

All windows are in one table (`WindowTable`), each in the lowest slot that was empty when it was created
(`windowCreate1`). A slot is emptied when its window is destroyed, and the table ends with the last window
(`windowDestroy`). A window is looked up by its address (`windowIndex`) and by its number (`windowFindById`).

In any run the table has exactly the windows that are created and not destroyed (`tableRun_holds`). Looking
one up by its number follows every slot up to the window, also if it is empty (`windowTable_iff`).
-/

namespace Tmux

open Slots

/-- A window: where it is in memory, and its number. -/
structure TableWindow where
  ptr : ℕ
  id : ℕ
  deriving DecidableEq, Repr

structure WindowTable where
  windows : List (Option TableWindow)
  nextWindowId : ℕ
  deriving DecidableEq, Repr

/-- The slot of a window. -/
def windowIndex (windows : List (Option TableWindow)) (ptr : ℕ) : Option ℕ :=
  windows.findIdx? fun w => w.any fun w => w.ptr = ptr

/-- The first window with a number. Every slot is followed. -/
def windowFindById (id : ℕ) : List (Option TableWindow) → Exec (Option TableWindow)
  | [] => pure none
  | w :: windows => do
    let w ← Exec.follow w
    if w.id = id then pure (some w) else windowFindById id windows

/-- Create a window at an address. -/
def windowCreate1 (t : WindowTable) (ptr : ℕ) : WindowTable where
  windows := put ⟨ptr, t.nextWindowId⟩ t.windows
  nextWindowId := Exec.uadd t.nextWindowId 1

/-- Destroy the window at an address. -/
def windowDestroy (t : WindowTable) (ptr : ℕ) : Exec WindowTable :=
  match windowIndex t.windows ptr with
  | none => .fault .fatal
  | some i => pure { t with windows := trim (t.windows.set i none) }

/-- What happens to the windows. -/
inductive TableEvent
  | create (ptr : ℕ)
  | destroy (ptr : ℕ)
  deriving DecidableEq, Repr

def tableEvent (t : WindowTable) : TableEvent → Exec WindowTable
  | .create ptr => pure (windowCreate1 t ptr)
  | .destroy ptr => windowDestroy t ptr

/-- No window, as at the start. -/
def noWindows : WindowTable := ⟨[], 0⟩

/-! ## The windows there are -/

/-- The windows that are created and not destroyed, and how many have been created. -/
structure Live where
  windows : List TableWindow := []
  created : ℕ := 0
  deriving DecidableEq, Repr

/-- A window has the number of windows created before it. -/
def Live.after (s : Live) : TableEvent → Live
  | .create ptr => ⟨⟨ptr, s.created⟩ :: s.windows, s.created + 1⟩
  | .destroy ptr => { s with windows := s.windows.filter fun w => w.ptr ≠ ptr }

/-- A window is created where there is none, and one is destroyed that there is. -/
def Live.Allows (s : Live) : TableEvent → Prop
  | .create ptr => ∀ w ∈ s.windows, w.ptr ≠ ptr
  | .destroy ptr => ∃ w ∈ s.windows, w.ptr = ptr

instance (s : Live) (e : TableEvent) : Decidable (s.Allows e) :=
  match e with
  | .create _ => inferInstanceAs (Decidable (∀ w ∈ _, _))
  | .destroy _ => inferInstanceAs (Decidable (∃ w ∈ _, _))

def Live.AllowsAll : Live → List TableEvent → Prop
  | _, [] => True
  | s, e :: events => s.Allows e ∧ (s.after e).AllowsAll events

instance Live.decidableAllowsAll : ∀ (s : Live) (events : List TableEvent), Decidable (s.AllowsAll events)
  | _, [] => isTrue trivial
  | s, e :: events =>
    have := Live.decidableAllowsAll (s.after e) events
    inferInstanceAs (Decidable (_ ∧ _))

/-- The table has the windows there are, which differ in their addresses and their numbers. -/
structure WindowTable.Holds (t : WindowTable) (s : Live) : Prop where
  entries : (entries t.windows).Perm s.windows
  next : t.nextWindowId = s.created
  ptrs : (s.windows.map TableWindow.ptr).Nodup
  ids : (s.windows.map TableWindow.id).Nodup
  lt : ∀ w ∈ s.windows, w.id < s.created

variable {t : WindowTable} {s : Live} {w v : TableWindow} {events : List TableEvent}

theorem WindowTable.Holds.mem_iff (h : t.Holds s) : w ∈ s.windows ↔ ∃ i : ℕ, t.windows[i]? = some (some w) := by
  rw [← h.entries.mem_iff, mem_entries]

/-- Two windows with the same address are the same. -/
theorem WindowTable.Holds.eq_of_ptr (h : t.Holds s) (hw : w ∈ s.windows) (hv : v ∈ s.windows) (hptr : w.ptr = v.ptr) :
    w = v :=
  List.inj_on_of_nodup_map h.ptrs hw hv hptr

/-- Each window is found in its slot. -/
theorem WindowTable.Holds.windowIndex (h : t.Holds s) (hw : w ∈ s.windows) :
    ∃ i : ℕ, windowIndex t.windows w.ptr = some i ∧ t.windows[i]? = some (some w) := by
  obtain ⟨k, hk⟩ := h.mem_iff.1 hw
  cases hi : Tmux.windowIndex t.windows w.ptr with
  | none =>
    have hnone := List.findIdx?_eq_none_iff.1 hi (some w) (List.mem_of_getElem? hk)
    simp at hnone
  | some i =>
    obtain ⟨hlt, hfound, -⟩ := List.findIdx?_eq_some_iff_getElem.1 hi
    obtain ⟨v, hv, hptr⟩ : ∃ v, t.windows[i] = some v ∧ v.ptr = w.ptr := by
      simpa [Option.any_eq_true] using hfound
    have hget : t.windows[i]? = some (some v) := by rw [List.getElem?_eq_getElem hlt, hv]
    obtain rfl := h.eq_of_ptr (h.mem_iff.2 ⟨i, hget⟩) hw hptr
    exact ⟨i, rfl, hget⟩

/-- What happens to a window happens to the table. -/
theorem tableEvent_holds (h : t.Holds s) {e : TableEvent} (he : s.Allows e) (hcount : (s.after e).created < Exec.word) :
    ∃ t', tableEvent t e = pure t' ∧ t'.Holds (s.after e) := by
  cases e with
  | create ptr =>
    refine ⟨_, rfl, ?_⟩
    have hid : ∀ v ∈ s.windows, v.id ≠ s.created := fun v hv => Nat.ne_of_lt (h.lt v hv)
    constructor
    · refine (entries_put _ _).trans ?_
      rw [h.next]
      exact h.entries.cons _
    · show Exec.uadd t.nextWindowId 1 = s.created + 1
      rw [h.next]
      exact Exec.uadd_of_lt hcount
    · refine List.nodup_cons.2 ⟨fun hmem => ?_, h.ptrs⟩
      obtain ⟨v, hv, hptr⟩ := List.mem_map.1 hmem
      exact he v hv hptr
    · refine List.nodup_cons.2 ⟨fun hmem => ?_, h.ids⟩
      obtain ⟨v, hv, hptr⟩ := List.mem_map.1 hmem
      exact hid v hv hptr
    · exact List.forall_mem_cons.2 ⟨Nat.lt_succ_self _, fun v hv => (h.lt v hv).trans (Nat.lt_succ_self _)⟩
  | destroy ptr =>
    obtain ⟨w, hw, rfl⟩ := he
    obtain ⟨i, hi, hslot⟩ := h.windowIndex hw
    refine ⟨{ t with windows := trim (t.windows.set i none) }, by rw [tableEvent, windowDestroy, hi], ?_⟩
    have hrest : (w :: entries (t.windows.set i none)).Perm s.windows := (entries_set_none hslot).trans h.entries
    have hsub : (s.windows.filter fun v => v.ptr ≠ w.ptr).Sublist s.windows := List.filter_sublist
    refine ⟨?_, h.next, h.ptrs.sublist (hsub.map _), h.ids.sublist (hsub.map _), fun v hv => h.lt v (hsub.subset hv)⟩
    have hother : ∀ v ∈ entries (t.windows.set i none), v.ptr ≠ w.ptr := fun v hv hptr => by
      have hnodup := (hrest.map TableWindow.ptr).nodup_iff.2 h.ptrs
      exact (List.nodup_cons.1 hnodup).1 (List.mem_map.2 ⟨v, hv, hptr⟩)
    have hfilter := hrest.filter fun v => v.ptr ≠ w.ptr
    rw [List.filter_cons_of_neg (by simp), List.filter_eq_self.2 fun v hv => decide_eq_true (hother v hv)] at hfilter
    show (entries (trim (t.windows.set i none))).Perm _
    rw [entries_trim]
    exact hfilter

theorem created_le_foldl (s : Live) (events : List TableEvent) : s.created ≤ (events.foldl Live.after s).created := by
  induction events generalizing s with
  | nil => exact Nat.le_refl _
  | cons e events ih =>
    refine Nat.le_trans ?_ (ih (s.after e))
    cases e with
    | create ptr => exact Nat.le_succ _
    | destroy ptr => exact Nat.le_refl _

/-- In any run, the table has the windows there are. -/
theorem tableRun_holds (h : t.Holds s) (hall : s.AllowsAll events)
    (hcount : (events.foldl Live.after s).created < Exec.word) :
    ∃ t', events.foldlM tableEvent t = pure t' ∧ t'.Holds (events.foldl Live.after s) := by
  induction events generalizing t s with
  | nil => exact ⟨t, rfl, h⟩
  | cons e events ih =>
    obtain ⟨t₁, hstep, h₁⟩ := tableEvent_holds h hall.1 ((created_le_foldl _ events).trans_lt hcount)
    obtain ⟨t₂, hrun, h₂⟩ := ih h₁ hall.2 hcount
    exact ⟨t₂, by rw [List.foldlM_cons, hstep, pure_bind, hrun], h₂⟩

/-! ## Looking windows up -/

/-- Every empty slot is after a window with the number. -/
def HolesAfter (id : ℕ) (windows : List (Option TableWindow)) : Prop :=
  ∀ i : ℕ, windows[i]? = some none → ∃ j < i, ∃ w, windows[j]? = some (some w) ∧ w.id = id

/-- The first window with a number is found exactly if there is no empty slot before it. -/
theorem windowFindById_iff (id : ℕ) (windows : List (Option TableWindow)) :
    windowFindById id windows = pure ((entries windows).find? fun w => w.id = id) ↔ HolesAfter id windows := by
  induction windows with
  | nil => exact iff_of_true rfl fun i hi => by cases hi
  | cons o windows ih =>
    cases o with
    | none =>
      refine iff_of_false (fun h => by cases h) fun h => ?_
      obtain ⟨j, hj, -⟩ := h 0 rfl
      exact Nat.not_lt_zero j hj
    | some w =>
      have hentries : entries (some w :: windows) = w :: entries windows := List.reduceOption_cons_of_some w _
      rw [windowFindById, Exec.follow_some, pure_bind, hentries]
      by_cases hid : w.id = id
      · rw [if_pos hid, List.find?_cons_of_pos (p := fun w : TableWindow => decide (w.id = id)) (decide_eq_true hid)]
        refine iff_of_true rfl fun i hi => ?_
        cases i with
        | zero => cases hi
        | succ i => exact ⟨0, Nat.succ_pos i, w, rfl, hid⟩
      · rw [if_neg hid, List.find?_cons_of_neg (p := fun w : TableWindow => decide (w.id = id)) (by simpa using hid), ih]
        constructor
        · intro h i hi
          cases i with
          | zero => cases hi
          | succ i =>
            obtain ⟨j, hj, v, hv, hvid⟩ := h i hi
            exact ⟨j + 1, Nat.succ_lt_succ hj, v, hv, hvid⟩
        · intro h i hi
          obtain ⟨j, hj, v, hv, hvid⟩ := h (i + 1) hi
          cases j with
          | zero =>
            obtain rfl : w = v := Option.some.inj (Option.some.inj hv)
            exact absurd hvid hid
          | succ j => exact ⟨j, Nat.lt_of_succ_lt_succ hj, v, hv, hvid⟩

/-- The window with a number does not depend on the order of the windows. -/
theorem find?_eq_of_perm {l l' : List TableWindow} (h : l.Perm l') (hids : (l'.map TableWindow.id).Nodup) (id : ℕ) :
    l.find? (fun w => w.id = id) = l'.find? fun w => w.id = id := by
  have hfound : ∀ {l : List TableWindow} {w}, l.find? (fun w => w.id = id) = some w → w ∈ l ∧ w.id = id := fun hw =>
    ⟨List.mem_of_find?_eq_some hw, by simpa using List.find?_some hw⟩
  cases hw : l.find? fun w => w.id = id with
  | none =>
    refine (List.find?_eq_none.2 fun v hv => ?_).symm
    exact List.find?_eq_none.1 hw v (h.mem_iff.2 hv)
  | some w =>
    obtain ⟨hmem, hid⟩ := hfound hw
    cases hv : l'.find? fun w => w.id = id with
    | none =>
      have := List.find?_eq_none.1 hv w (h.mem_iff.1 hmem)
      exact absurd hid (by simpa using this)
    | some v =>
      obtain ⟨hmem', hid'⟩ := hfound hv
      rw [List.inj_on_of_nodup_map hids (h.mem_iff.1 hmem) hmem' (hid.trans hid'.symm)]

/-- In any run of fewer than 2³² creations, each window there is has a slot and a number of its own, and is found by its
    address in its slot; by a number, the window that has it is found exactly if no slot before it is empty. -/
theorem windowTable_iff (hall : Live.AllowsAll {} events)
    (hcount : (events.foldl Live.after {}).created < Exec.word) :
    ∃ t, events.foldlM tableEvent noWindows = pure t ∧
      (∀ w ∈ (events.foldl Live.after {}).windows,
        ∃ i : ℕ, windowIndex t.windows w.ptr = some i ∧ t.windows[i]? = some (some w)) ∧
      (∀ w ∈ (events.foldl Live.after {}).windows, ∀ v ∈ (events.foldl Live.after {}).windows,
        w.id = v.id ∨ windowIndex t.windows w.ptr = windowIndex t.windows v.ptr → w = v) ∧
      ∀ id, windowFindById id t.windows = pure ((events.foldl Live.after {}).windows.find? fun w => w.id = id) ↔
        HolesAfter id t.windows := by
  have hstart : noWindows.Holds {} := by
    refine ⟨List.Perm.refl _, rfl, List.nodup_nil, List.nodup_nil, ?_⟩
    rintro _ ⟨⟩
  obtain ⟨t, hrun, h⟩ := tableRun_holds hstart hall hcount
  refine ⟨t, hrun, fun w hw => h.windowIndex hw, fun w hw v hv heq => ?_, fun id => ?_⟩
  · rcases heq with hid | hslot
    · exact List.inj_on_of_nodup_map h.ids hw hv hid
    · obtain ⟨i, hi, hwi⟩ := h.windowIndex hw
      obtain ⟨j, hj, hvj⟩ := h.windowIndex hv
      rw [hi, hj] at hslot
      rw [Option.some.inj hslot] at hwi
      exact Option.some.inj (Option.some.inj (hwi.symm.trans hvj))
  · rw [← find?_eq_of_perm h.entries h.ids]
    exact windowFindById_iff id t.windows

theorem windowTable_iff_small : ∃ t, [TableEvent.create 1, .create 2, .destroy 1].foldlM tableEvent noWindows = pure t ∧
    ∃ i : ℕ, windowIndex t.windows 2 = some i ∧ t.windows[i]? = some (some ⟨2, 1⟩) := by
  have hall : Live.AllowsAll {} [.create 1, .create 2, .destroy 1] := by decide
  obtain ⟨t, hrun, hindex, -⟩ := windowTable_iff hall (by decide)
  exact ⟨t, hrun, hindex ⟨2, 1⟩ (by decide)⟩

/-- The first of two windows is destroyed, and the other is looked up by its number. -/
theorem windowFindById_fault : ∃ t,
    [TableEvent.create 1, .create 2, .destroy 1].foldlM tableEvent noWindows = pure t ∧
      windowFindById 1 t.windows = .fault .null :=
  ⟨⟨[none, some ⟨2, 1⟩], 2⟩, by decide, rfl⟩

end Tmux
