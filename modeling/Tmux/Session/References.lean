import Tmux.Session.Group
import Tmux.Session.Registry

/-!
# The references to windows

Every window has as many references as there are links to it in all sessions and
notifications about it in the queue (`Registry.Counted`). What each function of
sessions does to the windows linked is said once (`linkedBy`), and then each
operation on the server drops a reference for every link it removes, and takes one
for every link it adds.

The exception is breaking a pane into a new window: the window has no reference when
it is given its name, so that the notification about it is its only holder, and if
it is delivered at once, the window is destroyed before it is linked. The counts
hold in every run in which panes are broken only while the delivery is disabled
(`Registry.run_counted`).
-/

namespace Tmux

open Exec

/-! ## The windows linked -/

/-- The windows that the links of a tree are to. -/
def linkedBy (wwl : Winlinks) : Multiset ℕ := ↑(wwl.entries.filterMap Winlink.window)

/-- The windows of the links of a tree, at their indices. -/
def places (wwl : Winlinks) : List (ℕ × Option ℕ) := wwl.entries.map fun l => (l.idx, l.window)

/-- The window of a link, as far as it has one. -/
def Winlink.held (wl : Winlink) : Multiset ℕ := ↑wl.window.toList

theorem coe_filterMap_cons (wl : Winlink) (links : List Winlink) :
    (↑((wl :: links).filterMap Winlink.window) : Multiset ℕ) =
      wl.held + ↑(links.filterMap Winlink.window) := by
  cases h : wl.window <;> simp [h, Winlink.held]

theorem linkedBy_of_perm {t u : Winlinks} {wl : Winlink} (h : t.entries.Perm (wl :: u.entries)) :
    linkedBy t = wl.held + linkedBy u := by
  rw [linkedBy, Multiset.coe_eq_coe.2 (h.filterMap _), coe_filterMap_cons, linkedBy]

theorem linkedBy_eq_of_places {t u : Winlinks} (h : places t = places u) : linkedBy t = linkedBy u := by
  have := congrArg (List.filterMap Prod.snd) h
  rw [places, places, List.filterMap_map, List.filterMap_map] at this
  exact congrArg Multiset.ofList this

theorem linkedBy_erase {t : Winlinks} {k : ℕ} {wl : Winlink} (h : t.find? k = some wl) :
    linkedBy t = wl.held + linkedBy (t.erase k) := linkedBy_of_perm (Keyed.perm_erase h)

/-- Links to the same windows at the same indices have so left after one is removed. -/
theorem places_erase {t u : Winlinks} (h : places t = places u) (k : ℕ) :
    places (t.erase k) = places (u.erase k) := by
  have hfilter : ∀ t : Winlinks, places (t.erase k) = (places t).filter fun p => !(p.1 == k) := by
    intro t
    rw [places, places, List.filter_map]
    rfl
  rw [hfilter, hfilter, h]

theorem places_updateLink {wwl : Winlinks} {wl : ℕ} {f : Winlink → Winlink}
    (hf : ∀ l, (f l).window = l.window) : places (updateLink wwl wl f) = places wwl := by
  rw [places, updateLink, Keyed.entries_update, List.map_map]
  refine List.map_congr_left fun l _ => ?_
  dsimp only [Function.comp_apply]
  split_ifs
  · rw [hf]
  · rfl

/-- A link that is updated is another link in its place. -/
theorem updateLink_perm {wwl : Winlinks} {wl : ℕ} {l : Winlink} (h : wwl.find? wl = some l)
    (f : Winlink → Winlink) :
    (updateLink wwl wl f).entries.Perm ({ f l with idx := l.idx } :: (wwl.erase wl).entries) := by
  obtain ⟨-, rfl⟩ := Keyed.find?_eq_some.1 h
  have hperm := (Keyed.perm_erase h).map fun a => if a.idx = l.idx then { f a with idx := a.idx } else a
  rw [List.map_cons, if_pos rfl] at hperm
  rw [updateLink, Keyed.entries_update]
  have hrest : ((wwl.erase l.idx).entries.map fun a => if a.idx = l.idx then { f a with idx := a.idx } else a) =
      (wwl.erase l.idx).entries := by
    refine (List.map_congr_left fun a ha => ?_).trans (List.map_id' _)
    exact if_neg (Keyed.mem_erase.1 ha).2
  rwa [hrest] at hperm

/-- Setting the window of a link exchanges the one it had for another. -/
theorem linkedBy_setWindow {wwl : Winlinks} {wl : ℕ} {l : Winlink} (h : wwl.find? wl = some l)
    (w : Option ℕ) :
    linkedBy (updateLink wwl wl fun l => { l with window := w }) + l.held = linkedBy wwl + ↑w.toList := by
  rw [linkedBy_of_perm (updateLink_perm h _), linkedBy_erase h]
  show (w.toList : Multiset ℕ) + _ + _ = _
  rw [add_right_comm, add_comm (w.toList : Multiset ℕ), add_right_comm]

/-- A link that is added is to no window yet. -/
theorem winlinkAdd_eq {wwl t : Winlinks} {idx : ℤ} {wl : ℕ} (h : winlinkAdd wwl idx = some (t, wl)) :
    t.find? wl = some { idx := wl } ∧ t.entries.Perm ({ idx := wl } :: wwl.entries) := by
  have hinsert : ∀ i, insertLink wwl i = some (t, wl) →
      t.find? wl = some { idx := wl } ∧ t.entries.Perm ({ idx := wl } :: wwl.entries) := by
    intro i hi
    rw [insertLink] at hi
    split_ifs at hi with hfree
    obtain ⟨rfl, rfl⟩ := Prod.mk.inj (Option.some.inj hi)
    exact ⟨Keyed.find?_eq_some.2 ⟨Keyed.mem_insert.2 (.inl rfl), rfl⟩, Keyed.insertSorted_perm _ _ _⟩
  rw [winlinkAdd] at h
  split_ifs at h
  · obtain ⟨i, -, hi⟩ := Option.bind_eq_some_iff.1 h
    exact hinsert i hi
  · exact hinsert _ h

theorem linkedBy_winlinkAdd {wwl t : Winlinks} {idx : ℤ} {wl : ℕ} (h : winlinkAdd wwl idx = some (t, wl)) :
    linkedBy t = linkedBy wwl := by
  rw [linkedBy_of_perm (winlinkAdd_eq h).2]
  exact zero_add _

/-- The window of a link that is added is one more. -/
theorem linkedBy_winlinkSetWindow {wwl t : Winlinks} {idx : ℤ} {wl : ℕ}
    (h : winlinkAdd wwl idx = some (t, wl)) (w : ℕ) :
    linkedBy (winlinkSetWindow t wl w) = w ::ₘ linkedBy wwl := by
  have hset := linkedBy_setWindow (winlinkAdd_eq h).1 (some w)
  rw [linkedBy_winlinkAdd h] at hset
  exact (add_zero _).symm.trans (hset.trans (add_comm _ _))

/-- A link that is added and removed again leaves what there was. -/
theorem linkedBy_erase_winlinkAdd {wwl t : Winlinks} {idx : ℤ} {wl : ℕ}
    (h : winlinkAdd wwl idx = some (t, wl)) : linkedBy (t.erase wl) = linkedBy wwl := by
  have := linkedBy_erase (winlinkAdd_eq h).1
  rw [linkedBy_winlinkAdd h] at this
  exact (this.trans (zero_add _)).symm

/-! ## What sessions link -/

/-- Nothing that is freed may be used. -/
abbrev unfreed : Allowed := .avoid .freed

theorem unfreed_null : unfreed.faults .null := show Fault.null ≠ Fault.freed by decide

theorem unfreed_fatal : unfreed.faults .fatal := show Fault.fatal ≠ Fault.freed by decide

theorem follow_meets {α : Type} (o : Option α) : Meets unfreed (fun a => o = some a) (follow o) :=
  meets_follow unfreed_null fun _ ha => ha

theorem winlinkFindByIndex_meets (wwl : Winlinks) (idx : ℤ) :
    Meets unfreed (fun o => ∀ l ∈ o, wwl.find? l.idx = some l) (winlinkFindByIndex wwl idx) := by
  rw [winlinkFindByIndex]
  split_ifs
  · exact unfreed_fatal
  · refine .pure fun l hl => ?_
    obtain ⟨hmem, -⟩ := Keyed.find?_eq_some.1 hl
    exact Keyed.find?_eq_some.2 ⟨hmem, rfl⟩

theorem moveTo_places (s : Session) (wl : ℕ) : places (moveTo s wl).1.windows = places s.windows := by
  rw [moveTo]
  split_ifs
  · rfl
  · dsimp only
    rw [winlinkClearFlags]
    split
    · rfl
    · exact places_updateLink fun _ => rfl

theorem moveFrom_meets (s : Session) (link : ℕ → Option Winlink) :
    Meets unfreed (fun p => places p.1.windows = places s.windows) (moveFrom s link) := by
  rw [moveFrom]
  split
  · exact .pure rfl
  · refine (follow_meets _).bind fun curw _ => ?_
    split
    · exact .pure rfl
    · exact .pure (moveTo_places s _)

theorem sessionSelect_meets (s : Session) (idx : ℤ) :
    Meets unfreed (fun p => places p.1.windows = places s.windows) (sessionSelect s idx) := by
  rw [sessionSelect]
  refine (winlinkFindByIndex_meets s.windows idx).bind fun o _ => ?_
  split
  · exact .pure rfl
  · exact .pure (moveTo_places s _)

theorem sessionLast_places (s : Session) : places (sessionLast s).1.windows = places s.windows := by
  rw [sessionLast]
  split
  · rfl
  · exact moveTo_places s _

theorem sessionLeave_meets (s : Session) :
    Meets unfreed (fun s' => places s'.windows = places s.windows) (sessionLeave s) := by
  rw [sessionLeave]
  have hlast := sessionLast_places s
  split_ifs
  · exact .pure hlast
  · refine (moveFrom_meets _ _).bind fun ⟨s₁, r⟩ h₁ => ?_
    dsimp only
    split_ifs
    · exact .pure (h₁.trans hlast)
    · exact (moveFrom_meets _ _).bind fun ⟨s₂, _⟩ h₂ => .pure (h₂.trans (h₁.trans hlast))

/-- A window detached is linked by the session no more. -/
theorem sessionDetach_meets {s : Session} {wl : ℕ} {l : Winlink} (h : s.windows.find? wl = some l) :
    Meets unfreed (fun p => linkedBy s.windows = l.held + linkedBy p.1.windows) (sessionDetach s wl) := by
  have hleave : Meets unfreed (fun s' => places s'.windows = places s.windows) (leaveLink s wl) := by
    rw [leaveLink]
    split_ifs
    · exact sessionLeave_meets s
    · exact .pure rfl
  refine hleave.bind fun s₁ h₁ => ?_
  have herase : linkedBy s.windows = l.held + linkedBy (s₁.windows.erase wl) := by
    rw [linkedBy_erase h, linkedBy_eq_of_places (places_erase h₁ wl)]
  dsimp only
  split_ifs
  · exact .pure herase
  · exact .pure herase

theorem linkAgain_meets (wwl : Winlinks) (idx : ℤ) (wl : Winlink) :
    Meets unfreed (fun p => linkedBy p.1 = wl.held + linkedBy wwl) (linkAgain wwl idx wl) := by
  rw [linkAgain]
  refine (follow_meets _).bind fun p hadd => (follow_meets _).bind fun w hw => .pure ?_
  obtain ⟨t, wl2⟩ := p
  have hset := linkedBy_winlinkSetWindow hadd w
  rw [← Multiset.singleton_add] at hset
  rw [Winlink.held, hw]
  refine (linkedBy_eq_of_places (places_updateLink ?_)).trans hset
  exact fun _ => rfl

theorem linkAll_meets (links : List Winlink) (wwl : Winlinks) :
    Meets unfreed (fun t => linkedBy t = ↑(links.filterMap Winlink.window) + linkedBy wwl)
      (linkAll links wwl) := by
  induction links generalizing wwl with
  | nil => exact .pure (zero_add _).symm
  | cons wl links ih =>
    rw [linkAll, List.foldlM_cons, bind_assoc]
    refine (linkAgain_meets wwl wl.idx wl).bind fun p ht => ?_
    rw [pure_bind]
    refine (ih p.1).mono fun u hu => ?_
    rw [hu, ht, coe_filterMap_cons, add_left_comm, add_assoc]

/-- A session synchronized with a target links the windows that the target does. -/
theorem sessionGroupSynchronize1_meets {target : Session} (s : Session)
    (h : target.windows.entries ≠ []) :
    Meets unfreed (fun s' => linkedBy s'.windows = linkedBy target.windows)
      (sessionGroupSynchronize1 target s) := by
  have hleave : Meets unfreed (fun _ => True) (leaveVanished target.windows s) := by
    rw [leaveVanished]
    split
    · exact .pure trivial
    · refine (winlinkFindByIndex_meets _ _).bind fun o _ => ?_
      split
      · exact (sessionLeave_meets s).mono fun _ _ => trivial
      · exact .pure trivial
  have hcurrent : ∀ s, Meets unfreed (fun _ => True) (currentIndex target s) := by
    intro s
    rw [currentIndex]
    split
    · exact .pure trivial
    · exact (follow_meets _).mono fun _ _ => trivial
  rw [sessionGroupSynchronize1, if_neg h]
  refine hleave.bind fun s₁ _ => (linkAll_meets _ _).bind fun windows hwindows => ?_
  refine (hcurrent s₁).bind fun idx _ => (winlinkFindByIndex_meets _ _).bind fun curw _ => ?_
  rw [fixStack_eq, pure_bind]
  exact .pure (hwindows.trans (add_zero _))

theorem renumberLinks_meets (curw : Option ℕ) (links : List Winlink) (wwl : Winlinks) (newIdx newCurw : ℕ) :
    Meets unfreed (fun p => linkedBy p.1 = ↑(links.filterMap Winlink.window) + linkedBy wwl)
      (renumberLinks curw links wwl newIdx newCurw) := by
  induction links generalizing wwl newIdx newCurw with
  | nil => exact .pure (zero_add _).symm
  | cons wl links ih =>
    rw [renumberLinks]
    by_cases hmax : newIdx > intMax
    · rw [if_pos hmax]
      exact unfreed_fatal
    · rw [if_neg hmax]
      refine (linkAgain_meets wwl newIdx wl).bind fun p ht => (ih p.1 _ _).mono fun u hu => ?_
      rw [hu, ht, coe_filterMap_cons, add_left_comm, add_assoc]

/-- A session renumbered links the windows it did. -/
theorem sessionRenumberWindows_meets (s : Session) (baseIndex : ℕ) :
    Meets unfreed (fun s' => linkedBy s'.windows = linkedBy s.windows)
      (sessionRenumberWindows s baseIndex) := by
  rw [sessionRenumberWindows]
  refine (renumberLinks_meets _ _ _ _ _).bind fun p hwindows => ?_
  obtain ⟨windows, newCurw⟩ := p
  dsimp only
  rw [fixStack_eq, pure_bind]
  exact (winlinkFindByIndex_meets _ _).bind fun curw _ => .pure (hwindows.trans (add_zero _))

/-! ## The windows of the server -/

namespace Registry

/-- The windows that a session links, if it is there. -/
def heldBy (x : Option Session) : Multiset ℕ := x.elim 0 fun x => linkedBy x.windows

/-- The windows that the links of all sessions are to. -/
def linked (r : Registry) : Multiset ℕ := (r.sessions.map heldBy).sum

/-- The references to the windows are right. -/
def Balanced (r : Registry) : Prop := r.windows.Held r.linked

variable {r : Registry} {s : ℕ} {x : Session} {w : ℕ}

theorem session_eq_some : r.session s = some x ↔ r.sessions[s]? = some (some x) := by
  rw [session, Option.join_eq_some_iff]

/-- What a session linked is exchanged for what it links now. -/
theorem linked_setSession (h : r.session s = some x) (y : Option Session) :
    (r.setSession s y).linked + linkedBy x.windows = r.linked + heldBy y := by
  have hset : ∀ (l : List (Option Session)) (s : ℕ), l[s]? = some (some x) →
      ((l.set s y).map heldBy).sum + linkedBy x.windows = (l.map heldBy).sum + heldBy y := by
    intro l
    induction l with
    | nil => exact nofun
    | cons a l ih =>
      intro s hs
      cases s with
      | zero =>
        obtain rfl : a = some x := by simpa using hs
        rw [List.set_cons_zero, List.map_cons, List.map_cons, List.sum_cons, List.sum_cons, add_right_comm,
          add_comm (heldBy y), add_right_comm]
        rfl
      | succ s =>
        rw [List.set_cons_succ, List.map_cons, List.map_cons, List.sum_cons, List.sum_cons, add_assoc,
          ih s (by simpa using hs), add_assoc]
  exact hset r.sessions s (session_eq_some.1 h)

/-- A session that links the same windows as before. -/
theorem linked_setSession_eq (h : r.session s = some x) {y : Session}
    (hy : linkedBy y.windows = linkedBy x.windows) : (r.setSession s (some y)).linked = r.linked := by
  have := linked_setSession h (some y)
  rw [heldBy, Option.elim_some, hy] at this
  exact add_right_cancel this

/-- What a session links is what is linked no more without it. -/
theorem linked_setSession_none (h : r.session s = some x) :
    r.linked = (r.setSession s none).linked + linkedBy x.windows :=
  ((linked_setSession h none).trans (add_zero _)).symm

theorem mem_linked (h : r.session s = some x) {wl : Winlink} (hwl : wl ∈ x.windows.entries)
    (hw : wl.window = some w) : w ∈ r.linked := by
  rw [linked_setSession_none h]
  exact Multiset.mem_add.2 (.inr (List.mem_filterMap.2 ⟨wl, hwl, hw⟩))

theorem findWindow_eq_some {wl : ℕ} {l : Winlink} :
    r.findWindow s wl = some l ↔ ∃ x, r.session s = some x ∧ x.windows.find? wl = some l :=
  Option.bind_eq_some_iff

theorem mem_linked_of_findWindow {wl : ℕ} {l : Winlink} (h : r.findWindow s wl = some l)
    (hw : l.window = some w) : w ∈ r.linked := by
  obtain ⟨x, hx, hl⟩ := findWindow_eq_some.1 h
  exact mem_linked hx (Keyed.find?_eq_some.1 hl).1 hw

/-! ## Links taken and dropped -/

variable {held : Multiset ℕ} {ws : Windows} {allowed : Allowed}

/-- A step that takes the reference of a link, done for all links of a list. -/
theorem take_all {f : Windows → Winlink → Exec Windows}
    (hf : ∀ {held : Multiset ℕ} {ws : Windows} (wl : Winlink), (∀ w ∈ wl.window, w ∈ held) → ws.Held held →
      Meets allowed (Windows.Held (wl.held + held)) (f ws wl)) (links : List Winlink)
    (hlinks : ∀ wl ∈ links, ∀ w ∈ wl.window, w ∈ held) (h : ws.Held held) :
    Meets allowed (Windows.Held (↑(links.filterMap Winlink.window) + held)) (links.foldlM f ws) := by
  induction links generalizing ws held with
  | nil => exact .pure ((zero_add held).symm ▸ h)
  | cons wl links ih =>
    rw [List.foldlM_cons]
    refine (hf wl (hlinks wl List.mem_cons_self) h).bind fun ws' h' => ?_
    have hrest := ih (fun l hl w hw => Multiset.mem_add.2 (.inr (hlinks l (List.mem_cons_of_mem _ hl) w hw))) h'
    rwa [add_left_comm, ← add_assoc, ← coe_filterMap_cons] at hrest

/-- A step that drops the reference of a link, done for all links of a list. -/
theorem drop_all {f : Windows → Winlink → Exec Windows}
    (hf : ∀ {held : Multiset ℕ} {ws : Windows} (wl : Winlink), ws.Held (wl.held + held) →
      Meets allowed (Windows.Held held) (f ws wl)) (links : List Winlink)
    (h : ws.Held (↑(links.filterMap Winlink.window) + held)) :
    Meets allowed (Windows.Held held) (links.foldlM f ws) := by
  induction links generalizing ws with
  | nil => exact .pure (zero_add held ▸ h)
  | cons wl links ih =>
    rw [List.foldlM_cons]
    rw [coe_filterMap_cons, add_assoc] at h
    exact (hf wl h).bind fun ws' h' => ih h'

theorem retainLink_meets (wl : Winlink) (hw : ∀ w ∈ wl.window, w ∈ held) (h : ws.Held held) :
    Meets unfreed (Windows.Held (wl.held + held)) (retainLink ws wl) := by
  rw [retainLink]
  refine (follow_meets _).bind fun w hwl => (h.windowAddRef (h.ne_none (hw w hwl))).mono fun ws' h' => ?_
  rwa [Winlink.held, hwl]

theorem linkOnce_meets (s : ℕ) (wl : Winlink) (hw : ∀ w ∈ wl.window, w ∈ held) (h : ws.Held held) :
    Meets unfreed (Windows.Held (wl.held + held)) (linkOnce s ws wl) := by
  rw [linkOnce]
  refine (follow_meets _).bind fun w hwl => (h.windowAddRef (h.ne_none (hw w hwl))).bind fun ws' h' => ?_
  rw [Winlink.held, hwl]
  exact h'.notify_held fun v hv => by
    obtain rfl := Option.some.inj hv
    exact Multiset.mem_cons_self _ _

theorem winlinkRemove_meets (wl : Winlink) (h : ws.Held (wl.held + held)) :
    Meets allowed (Windows.Held held) (winlinkRemove ws wl) := by
  rw [winlinkRemove]
  cases hwl : wl.window with
  | none =>
    rw [Winlink.held, hwl] at h
    exact .pure (zero_add held ▸ h)
  | some w =>
    rw [Winlink.held, hwl] at h
    exact Windows.Held.windowRemoveRef h

theorem unlinkWindow_meets (s : ℕ) (wl : Winlink) (h : ws.Held (wl.held + held)) :
    Meets allowed (Windows.Held held) (unlinkWindow s ws wl) := by
  rw [unlinkWindow]
  refine Meets.bind (h.notify_held fun w hw => ?_) fun ws' h' => winlinkRemove_meets wl h'
  exact Multiset.mem_add.2 (.inl (by simpa [Winlink.held] using hw))

theorem freeLink_meets (s : ℕ) (windows : Winlinks) (wl : Winlink) (h : ws.Held (wl.held + held)) :
    Meets unfreed (Windows.Held held) (freeLink s windows ws wl) := by
  rw [freeLink]
  refine (follow_meets _).bind fun w hwl => ?_
  rw [Winlink.held, hwl] at h
  have hw : w ∈ ((some w).toList : Multiset ℕ) + held := Multiset.mem_cons_self w held
  rw [Windows.useWindow_eq (h.ne_none hw), pure_bind]
  dsimp only
  split_ifs
  · refine Meets.bind (h.notify_held fun v hv => ?_) fun ws' h' => Windows.Held.windowRemoveRef h'
    obtain rfl := Option.some.inj hv
    exact hw
  · rw [pure_bind]
    exact Windows.Held.windowRemoveRef h

end Registry

end Tmux
