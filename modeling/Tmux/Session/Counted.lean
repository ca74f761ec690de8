import Tmux.Session.References

/-!
# Runs keep the references right

Each operation on the sessions keeps the count of the references to every window
right, and uses no window that is destroyed, provided that a pane is broken into a
new window only while the delivery of notifications is disabled (`Quiet`). So does
every run (`Registry.run_counted`).
-/

namespace Tmux

open Exec

namespace Registry

variable {r : Registry} {s : ℕ} {x : Session} {w : ℕ}

/-! ## Sessions -/

/-- Something done to the windows that keeps what holds them. -/
theorem Balanced.onWindows (h : r.Balanced) {f : Windows → Exec Windows}
    (hf : r.windows.Held r.linked → Meets unfreed (Windows.Held r.linked) (f r.windows)) :
    Meets unfreed Balanced (r.onWindows f) := (hf h).bind fun _ h' => .pure h'

/-- A notification that is about no window. -/
theorem Balanced.notifyNone (h : r.Balanced) {ne : NotifyEntry} (hne : ne.window = none) :
    Meets unfreed Balanced (r.onWindows (·.notify ne)) :=
  h.onWindows fun h => h.notify_held fun w hw => by rw [hne] at hw; cases hw

theorem Balanced.sessionGroupSynchronize1 (h : r.Balanced) (target s : ℕ) :
    Meets unfreed Balanced (r.sessionGroupSynchronize1 target s) := by
  rw [Registry.sessionGroupSynchronize1]
  refine (follow_meets _).bind fun tgt htgt => ?_
  split_ifs with hempty
  · exact .pure h
  · refine (follow_meets _).bind fun old hold => (sessionGroupSynchronize1_meets old hempty).bind
      fun new hnew => ?_
    -- The new links take their references before the old ones drop theirs.
    refine (take_all (linkOnce_meets s) _ (fun wl hwl w hw => mem_linked htgt hwl hw) h).bind
      fun ws hws => ?_
    have hheld : ws.Held (linkedBy old.windows + (r.setSession s (some new)).linked) := by
      rw [add_comm, linked_setSession hold, heldBy, Option.elim_some, hnew, add_comm]
      exact hws
    exact (drop_all (freeLink_meets s new.windows) _ hheld).bind fun ws' hws' => .pure hws'

theorem Balanced.sessionGroupSynchronizeTo (h : r.Balanced) (s : ℕ) :
    Meets unfreed Balanced (r.sessionGroupSynchronizeTo s) := by
  rw [Registry.sessionGroupSynchronizeTo]
  split
  · exact .pure h
  · exact (follow_meets _).bind fun target _ => h.sessionGroupSynchronize1 target s

theorem Balanced.sessionGroupSynchronizeFrom (h : r.Balanced) (target : ℕ) :
    Meets unfreed Balanced (r.sessionGroupSynchronizeFrom target) := by
  rw [Registry.sessionGroupSynchronizeFrom]
  split
  · exact .pure h
  · refine Meets.foldlM h fun r s _ h => ?_
    split_ifs
    · exact h.sessionGroupSynchronize1 target s
    · exact .pure h

theorem Balanced.sessionSelect (h : r.Balanced) (s : ℕ) (idx : ℤ) :
    Meets unfreed Balanced (r.sessionSelect s idx) := by
  rw [Registry.sessionSelect]
  refine (follow_meets _).bind fun x hx => (sessionSelect_meets x idx).bind fun ⟨x', _⟩ hx' => .pure ?_
  rw [Balanced, linked_setSession_eq hx (linkedBy_eq_of_places hx')]
  exact h

/-- A window is linked by a session besides, having a reference for it already. -/
theorem Balanced.link {ws : Windows} {y : Session} (hx : r.session s = some x)
    (hy : linkedBy y.windows = w ::ₘ linkedBy x.windows) (h : ws.Held (w ::ₘ r.linked)) :
    Balanced { r.setSession s (some y) with windows := ws } := by
  have hlinked := linked_setSession hx (some y)
  rw [heldBy, Option.elim_some, hy, Multiset.add_cons, ← Multiset.cons_add] at hlinked
  rw [← add_right_cancel hlinked] at h
  exact h

/-- A window attached has been there. -/
theorem Balanced.sessionAttach (h : r.Balanced) (s : ℕ) (idx : ℤ) (hw : r.windows.references w ≠ none) :
    Meets unfreed (fun p => p.1.Balanced) (r.sessionAttach s w idx) := by
  rw [Registry.sessionAttach]
  refine (follow_meets _).bind fun x hx => ?_
  rw [Tmux.sessionAttach]
  cases hadd : winlinkAdd x.windows idx with
  | none => exact .pure h
  | some p =>
    obtain ⟨links, wl⟩ := p
    refine (Windows.Held.windowAddRef h hw).bind fun ws hws => ?_
    refine Meets.bind (hws.notify_held fun v hv => ?_) fun ws' hws' => ?_
    · obtain rfl := Option.some.inj hv
      exact Multiset.mem_cons_self _ _
    · have hlink := Balanced.link (y := { x with windows := winlinkSetWindow links wl w }) hx
        (linkedBy_winlinkSetWindow hadd w) hws'
      exact (hlink.sessionGroupSynchronizeFrom s).bind fun r' h' => .pure h'

theorem Balanced.sessionNew (h : r.Balanced) (s : ℕ) (idx : ℤ) (spawn : Except String Unit) :
    Meets unfreed (fun p => p.1.Balanced) (r.sessionNew s idx spawn) := by
  rw [Registry.sessionNew]
  refine (follow_meets _).bind fun x hx => ?_
  cases hadd : winlinkAdd x.windows idx with
  | none => exact .pure h
  | some p =>
    obtain ⟨links, wl⟩ := p
    have hnew := r.windows.windowCreate1_references
    cases spawn with
    | error cause =>
      -- The window that was created has no reference.
      have hfreed := (Windows.Held.windowCreate1 h).windowDestroy hnew
      rw [← linked_setSession_eq (y := { x with windows := links.erase wl }) hx
        (linkedBy_erase_winlinkAdd hadd)] at hfreed
      exact .pure hfreed
    | ok _ =>
      refine ((Windows.Held.windowCreate1 h).windowAddRef fun e =>
        nomatch hnew.symm.trans e).bind fun ws hws => ?_
      refine Meets.bind (hws.notify_held fun v hv => ?_) fun ws' hws' => ?_
      · obtain rfl := Option.some.inj hv
        exact Multiset.mem_cons_self _ _
      · have hlink := Balanced.link
          (y := { x with windows := winlinkSetWindow links wl r.windows.windowCreate1.2 }) hx
          (linkedBy_winlinkSetWindow hadd _) hws'
        exact (hlink.sessionGroupSynchronizeFrom s).bind fun r' h' => .pure h'

theorem sessionGroupRemove_meets (r : Registry) (s : ℕ) :
    Meets unfreed (fun r' => r'.windows = r.windows ∧ r'.sessions = r.sessions) (r.sessionGroupRemove s) := by
  rw [sessionGroupRemove]
  split
  · exact .pure ⟨rfl, rfl⟩
  · exact (follow_meets _).bind fun _ _ => .pure ⟨rfl, rfl⟩

theorem Balanced.sessionDestroy (h : r.Balanced) (s : ℕ) : Meets unfreed Balanced (r.sessionDestroy s) := by
  rw [Registry.sessionDestroy]
  refine (follow_meets _).bind fun x hx => ?_
  refine Meets.bind (Windows.Held.notify_held h nofun) fun ws hws => ?_
  refine (sessionGroupRemove_meets _ s).bind fun r' ⟨hwindows, hsessions⟩ => ?_
  have hheld : r'.windows.Held (linkedBy x.windows + r'.linked) := by
    rw [add_comm, linked, hwindows, hsessions]
    rw [linked_setSession_none hx] at hws
    exact hws
  exact (drop_all (unlinkWindow_meets s) _ hheld).bind fun ws' hws' => .pure hws'

theorem Balanced.sessionDetach (h : r.Balanced) (s wl : ℕ) :
    Meets unfreed (fun p => p.1.Balanced) (r.sessionDetach s wl) := by
  rw [Registry.sessionDetach]
  refine (follow_meets _).bind fun x hx => (follow_meets _).bind fun link hlink => ?_
  refine (sessionDetach_meets hlink).bind fun ⟨y, gone⟩ hy => ?_
  have hlinked := linked_setSession hx (some y)
  rw [hy, heldBy, Option.elim_some, ← add_assoc] at hlinked
  have hheld : r.windows.Held (link.held + (r.setSession s (some y)).linked) := by
    rw [add_comm, add_right_cancel hlinked]
    exact h
  refine (unlinkWindow_meets s link hheld).bind fun ws hws => ?_
  refine Meets.bind (Balanced.sessionGroupSynchronizeFrom
    (r := { r.setSession s (some y) with windows := ws }) hws s) fun r' h' => ?_
  split_ifs
  · exact (h'.sessionDestroy s).bind fun r'' h'' => .pure h''
  · exact .pure h'

/-- A session that is created links no window yet. -/
theorem Balanced.append (h : r.Balanced) :
    Balanced { r with sessions := r.sessions ++ [some emptySession] } := by
  have hlinked : linked { r with sessions := r.sessions ++ [some emptySession] } = r.linked := by
    rw [linked, linked, List.map_append, List.sum_append]
    exact add_zero _
  rw [Balanced, hlinked]
  exact h

theorem Balanced.sessionCreate (h : r.Balanced) (cmd : Option (Except String Unit)) (idx : ℤ) :
    Meets unfreed (fun p => p.1.Balanced) (r.sessionCreate cmd idx) := by
  unfold Registry.sessionCreate
  cases cmd with
  | none => exact (h.append.notifyNone rfl).bind fun r' h' => .pure h'
  | some spawn =>
    refine (h.append.sessionNew _ idx spawn).bind fun ⟨r₁, wl⟩ h₁ => ?_
    cases wl with
    | error cause => exact (Balanced.sessionDestroy h₁ _).bind fun r' h' => .pure h'
    | ok wl =>
      refine (follow_meets _).bind fun x hx => (follow_meets _).bind fun root _ => ?_
      refine (Balanced.sessionSelect h₁ _ _).bind fun r₂ h₂ => ?_
      exact (h₂.notifyNone rfl).bind fun r' h' => .pure h'

theorem Balanced.sessionRenumberWindows (h : r.Balanced) (s baseIndex : ℕ) :
    Meets unfreed Balanced (r.sessionRenumberWindows s baseIndex) := by
  rw [Registry.sessionRenumberWindows]
  refine (follow_meets _).bind fun old hold => (sessionRenumberWindows_meets old baseIndex).bind
    fun new hnew => ?_
  refine (take_all retainLink_meets _ (fun wl hwl w hw => mem_linked hold hwl hw) h).bind fun ws hws => ?_
  refine (drop_all winlinkRemove_meets _ hws).bind fun ws' hws' => .pure ?_
  rw [← linked_setSession_eq hold hnew] at hws'
  exact hws'

/-! ## Commands -/

theorem linkAt_meets (wwl : Winlinks) (idx : ℤ) :
    Meets unfreed (fun o => ∀ l ∈ o, wwl.find? l.idx = some l) (linkAt wwl idx) := by
  rw [linkAt]
  split_ifs
  · exact .pure nofun
  · exact winlinkFindByIndex_meets wwl idx

/-- Of the windows linked, only the one killed is linked once less. -/
theorem Balanced.killLink (h : r.Balanced) (hx : r.session s = some x) {wl : Winlink}
    (hwl : x.windows.find? wl.idx = some wl) :
    Meets unfreed (fun p => p.1.Balanced ∧ r.linked = wl.held + p.1.linked) (r.killLink s wl) := by
  have hlinked : ∀ y : Session, y.windows = x.windows.erase wl.idx →
      r.linked = wl.held + (r.setSession s (some y)).linked := by
    intro y hy
    have := linked_setSession hx (some y)
    rw [linkedBy_erase hwl, heldBy, Option.elim_some, hy, ← add_assoc] at this
    rw [← add_right_cancel this, add_comm]
  have hheld : ∀ y : Session, y.windows = x.windows.erase wl.idx →
      r.windows.Held (wl.held + (r.setSession s (some y)).linked) := fun y hy => hlinked y hy ▸ h
  rw [Registry.killLink, hx, follow_some, pure_bind]
  exact (unlinkWindow_meets s wl (hheld _ (by rfl))).bind fun ws hws => .pure ⟨hws, hlinked _ rfl⟩

/-- The windows that are linked are so after another one is killed. -/
theorem Balanced.killIf (h : r.Balanced) (hx : r.session s = some x) {wl : Option Winlink}
    (hwl : ∀ l ∈ wl, x.windows.find? l.idx = some l) (kflag : Bool) :
    Meets unfreed (fun p => p.1.Balanced ∧ ∀ w ∈ r.linked, (∀ l ∈ wl, l.window ≠ some w) → w ∈ p.1.linked)
      (r.killIf s wl kflag) := by
  unfold Registry.killIf
  cases wl with
  | none => exact .pure ⟨h, fun w hw _ => hw⟩
  | some wl =>
    dsimp only
    split_ifs
    · refine (h.killLink hx (hwl wl rfl)).mono fun p ⟨hp, hlinked⟩ => ⟨hp, fun w hw hne => ?_⟩
      rw [hlinked, Multiset.mem_add] at hw
      refine hw.resolve_left fun hmem => hne wl rfl ?_
      simpa [Winlink.held] using hmem
    · exact .pure ⟨h, fun w hw _ => hw⟩

theorem Balanced.newSession (h : r.Balanced) (target : Option ℕ) (spawn : Except String Unit)
    (named : Bool) (baseIndex : ℕ) :
    Meets unfreed Balanced (r.newSession target spawn named baseIndex) := by
  unfold Registry.newSession
  cases target with
  | some groupwith =>
    dsimp only
    split_ifs
    · exact .pure h
    · refine (h.sessionCreate _ _).bind fun ⟨r₁, s⟩ h₁ => ?_
      cases s with
      | none => exact .pure h₁
      | some s =>
        have hadd : (r₁.sessionGroupAdd groupwith s).Balanced := by
          rw [sessionGroupAdd]
          split <;> exact h₁
        refine (hadd.sessionGroupSynchronizeTo s).bind fun r₂ h₂ => ?_
        exact (follow_meets _).bind fun x _ => (follow_meets _).bind fun root _ => h₂.sessionSelect s _
  | none =>
    refine (h.sessionCreate _ _).bind fun ⟨r₁, s⟩ h₁ => ?_
    cases s with
    | none => exact .pure h₁
    | some s =>
      dsimp only at h₁ ⊢
      split_ifs
      · exact .pure h₁
      · refine (follow_meets _).bind fun x hx => (follow_meets _).bind fun curw _ => ?_
        refine (follow_meets _).bind fun wl hwl => (follow_meets _).bind fun w hw => ?_
        have hlinked := mem_linked hx (Keyed.find?_eq_some.1 hwl).1 hw
        refine h₁.onWindows fun h₁ => ?_
        rw [Windows.windowSetName, Windows.useWindow_eq (h₁.ne_none hlinked), pure_bind]
        exact h₁.notify_held fun v hv => by
          obtain rfl := Option.some.inj hv
          exact hlinked

theorem Balanced.newWindow (h : r.Balanced) (s : ℕ) (idx : ℤ) (spawn : Except String Unit)
    (kflag dflag : Bool) (baseIndex : ℕ) :
    Meets unfreed Balanced (r.newWindow s idx spawn kflag dflag baseIndex) := by
  rw [Registry.newWindow]
  split
  · exact .pure h
  · rename_i x hx
    refine (linkAt_meets x.windows idx).bind fun wl hwl => (h.killIf hx hwl kflag).bind
      fun ⟨r₁, current⟩ ⟨h₁, _⟩ => ?_
    refine (Balanced.sessionNew h₁ s _ spawn).bind fun ⟨r₂, wl⟩ h₂ => ?_
    cases wl with
    | error cause => exact .pure h₂
    | ok wl =>
      dsimp only
      split_ifs
      · exact .pure h₂
      · exact Balanced.sessionSelect h₂ s wl

/-- The window that is linked is linked by another link than the one killed for it. -/
theorem Balanced.serverLinkWindow (h : r.Balanced) {src wl : ℕ} {srcwl : Winlink}
    (hsrc : r.findWindow src wl = some srcwl) (dst : ℕ) (dstidx : ℤ) (killflag selectflag : Bool)
    (baseIndex : ℕ) :
    Meets unfreed (fun p => p.1.Balanced)
      (r.serverLinkWindow src srcwl dst dstidx killflag selectflag baseIndex) := by
  rw [Registry.serverLinkWindow]
  split_ifs with hgrouped
  · exact .pure h
  · refine (follow_meets _).bind fun x hx => (linkAt_meets x.windows dstidx).bind fun dstwl hdstwl => ?_
    split_ifs with hsame
    · exact .pure h
    · refine (h.killIf hx hdstwl killflag).bind fun ⟨r₁, current⟩ ⟨h₁, hkept⟩ => ?_
      refine (follow_meets _).bind fun w hw => ?_
      have hlinked : w ∈ r₁.linked := by
        refine hkept w (mem_linked_of_findWindow hsrc hw) fun l hl hlw => hsame ?_
        rw [hl, Option.any_some, decide_eq_true_eq, hlw, hw]
      refine (Balanced.sessionAttach h₁ dst _ (Windows.Held.ne_none h₁ hlinked)).bind
        fun ⟨r₂, wl⟩ h₂ => ?_
      cases wl with
      | error cause => exact .pure h₂
      | ok wl =>
        dsimp only
        split_ifs
        · exact (Balanced.sessionSelect h₂ dst wl).bind fun r₃ h₃ => .pure h₃
        · exact .pure h₂

theorem Balanced.linkWindow (h : r.Balanced) (src srcwl dst : ℕ) (dstidx : ℤ) (kflag dflag : Bool)
    (baseIndex : ℕ) :
    Meets unfreed Balanced (r.linkWindow src srcwl dst dstidx kflag dflag baseIndex) := by
  rw [Registry.linkWindow]
  split
  · rename_i wl _ hsrc _
    exact (h.serverLinkWindow hsrc dst dstidx kflag _ baseIndex).bind fun ⟨r₁, _⟩ h₁ => .pure h₁
  · exact .pure h

theorem Balanced.moveWindow (h : r.Balanced) (src srcwl dst : ℕ) (dstidx : ℤ) (kflag dflag : Bool)
    (baseIndex : ℕ) :
    Meets unfreed Balanced (r.moveWindow src srcwl dst dstidx kflag dflag baseIndex) := by
  rw [Registry.moveWindow]
  split
  · rename_i wl _ hsrc _
    refine (h.serverLinkWindow hsrc dst dstidx kflag _ baseIndex).bind fun ⟨r₁, linked⟩ h₁ => ?_
    cases linked with
    | error cause => exact .pure h₁
    | ok _ => exact (Balanced.sessionDetach h₁ src srcwl).bind fun ⟨r₂, _⟩ h₂ => .pure h₂
  · exact .pure h

/-- Setting the window of a link exchanges the one that was linked for another. -/
theorem linked_setLinkWindow {wl : ℕ} {l : Winlink} (h : r.findWindow s wl = some l) (w : Option ℕ) :
    (r.setLinkWindow s wl w).linked + l.held = r.linked + ↑w.toList := by
  obtain ⟨x, hx, hl⟩ := findWindow_eq_some.1 h
  set y : Session := { x with windows := updateLink x.windows wl fun l => { l with window := w } } with hy
  have hset : (r.setLinkWindow s wl w).linked + linkedBy x.windows = r.linked + linkedBy y.windows := by
    rw [setLinkWindow, hx]
    exact linked_setSession hx (some y)
  have hlinked : linkedBy y.windows + l.held = linkedBy x.windows + ↑w.toList := linkedBy_setWindow hl w
  refine add_right_cancel (b := linkedBy x.windows) ?_
  rw [add_right_comm, hset, add_assoc, hlinked, add_right_comm, add_assoc]

theorem find?_updateLink {wwl : Winlinks} {wl wl' : ℕ} (hne : wl ≠ wl') (f : Winlink → Winlink) :
    (updateLink wwl wl f).find? wl' = wwl.find? wl' := by
  set g : Winlink → Winlink := fun l => if l.idx = wl then { f l with idx := l.idx } else l with hg
  have hkey : Keyed.hasKey Winlink.idx wl' ∘ g = Keyed.hasKey Winlink.idx wl' := by
    funext l
    simp only [hg, Function.comp_apply, Keyed.hasKey]
    split_ifs <;> rfl
  rw [Keyed.find?, updateLink, Keyed.entries_update, List.find?_map, hkey, ← Keyed.find?]
  cases hl : wwl.find? wl' with
  | none => rfl
  | some l =>
    obtain ⟨-, rfl⟩ := Keyed.find?_eq_some.1 hl
    exact congrArg some (if_neg hne.symm)

/-- The other links are not changed. -/
theorem findWindow_setLinkWindow {s' wl wl' : ℕ} (hne : s = s' → wl ≠ wl') (w : Option ℕ) :
    (r.setLinkWindow s wl w).findWindow s' wl' = r.findWindow s' wl' := by
  by_cases hs : s = s'
  · subst hs
    have hset : (r.setLinkWindow s wl w).session s = (r.session s).map fun x =>
        { x with windows := updateLink x.windows wl fun l => { l with window := w } } := by
      rw [setLinkWindow, session, setSession, List.getElem?_set_self', session]
      cases r.sessions[s]? <;> rfl
    rw [findWindow, hset, findWindow]
    cases r.session s with
    | none => rfl
    | some x => exact find?_updateLink (hne rfl) _
  · rw [findWindow, session, setLinkWindow, setSession, List.getElem?_set_ne hs]
    rfl

theorem Balanced.swapWindow (h : r.Balanced) (src wlSrc dst wlDst : ℕ) (dflag : Bool) :
    Meets unfreed Balanced (r.swapWindow src wlSrc dst wlDst dflag) := by
  rw [Registry.swapWindow]
  split
  · rename_i a b ha hb
    by_cases hgrouped : r.grouped src dst = true
    · rw [if_pos hgrouped]
      exact .pure h
    · rw [if_neg hgrouped]
      by_cases hsame : b.window = a.window
      · rw [if_pos hsame]
        exact .pure h
      · rw [if_neg hsame]
        -- Both windows are linked as often as before.
        have ha' : (r.setLinkWindow dst wlDst a.window).findWindow src wlSrc = some a := by
          rw [findWindow_setLinkWindow, ha]
          rintro rfl rfl
          exact hsame (congrArg Winlink.window (Option.some.inj (hb.symm.trans ha)))
        set r' := (r.setLinkWindow dst wlDst a.window).setLinkWindow src wlSrc b.window with hr'
        have hlinked : r'.linked = r.linked := by
          have hdst := linked_setLinkWindow hb a.window
          have hsrc := linked_setLinkWindow ha' b.window
          refine add_right_cancel (b := a.held + b.held) ?_
          rw [← add_assoc, hsrc, add_right_comm]
          exact (congrArg (· + b.held) hdst).trans (add_assoc _ _ _)
        have h' : r'.Balanced := by
          rw [Balanced, hlinked]
          exact h
        have hsync : ∀ r : Registry, r.Balanced → Meets unfreed Balanced (do
            let r ← r.sessionGroupSynchronizeFrom src
            if src ≠ dst then r.sessionGroupSynchronizeFrom dst else pure r) := by
          refine fun r h => (h.sessionGroupSynchronizeFrom src).bind fun r₁ h₁ => ?_
          split_ifs
          · exact h₁.sessionGroupSynchronizeFrom dst
          · exact .pure h₁
        by_cases hd : dflag = true
        · rw [if_pos hd, pure_bind]
          exact hsync r' h'
        · rw [if_neg hd]
          refine (h'.sessionSelect dst wlDst).bind fun r₁ h₁ => ?_
          by_cases hne : src ≠ dst
          · rw [if_pos hne]
            exact (h₁.sessionSelect src wlSrc).bind hsync
          · rw [if_neg hne, pure_bind]
            exact hsync r₁ h₁
  · exact .pure h

/-- A new window is there until it is linked, as long as the notification of its name waits. -/
theorem Balanced.breakPane (h : r.Balanced) (s wl panes : ℕ) (dflag : Bool) (baseIndex : ℕ)
    (hquiet : panes = 1 ∨ r.windows.notifyEnabled = false) :
    Meets unfreed Balanced (r.breakPane s wl panes dflag baseIndex) := by
  rw [Registry.breakPane]
  split
  · exact .pure h
  · rename_i link hlink
    by_cases hpanes : panes = 1
    · rw [if_pos hpanes]
      exact .pure h
    · rw [if_neg hpanes]
      have hdis := hquiet.resolve_left hpanes
      refine (follow_meets _).bind fun w hw => ?_
      have hw' : r.windows.references w ≠ none :=
        Windows.Held.ne_none h (mem_linked_of_findWindow hlink hw)
      refine Meets.bind (Windows.Held.notify h fun v hv => Option.some.inj hv ▸ hw') fun ws ⟨hws, hoff⟩ => ?_
      have hnew : ws.windowCreate1.1.references ws.windowCreate1.2 ≠ none := by
        rw [ws.windowCreate1_references]
        nofun
      dsimp only
      rw [Windows.windowSetName, Windows.useWindow_eq hnew, pure_bind]
      refine Meets.bind (hws.windowCreate1.notify fun v hv => Option.some.inj hv ▸ hnew)
        fun ws' ⟨hws', hoff'⟩ => ?_
      have hthere : ws'.references ws.windowCreate1.2 ≠ none := (hoff' (hoff hdis).1).2 _ rfl
      rw [Windows.useWindow_eq hthere, pure_bind]
      refine (Balanced.sessionAttach (r := { r with windows := ws' }) hws' s _ hthere).bind
        fun ⟨r₁, wl⟩ h₁ => ?_
      cases wl with
      | error cause =>
        dsimp only
        split_ifs
        · exact .pure h₁
        · exact unfreed_null
      | ok wl =>
        dsimp only
        split_ifs
        · exact .pure h₁
        · exact Balanced.sessionSelect h₁ s wl

/-! ## Runs -/

/-- No pane is broken off while notifications are delivered at once. -/
def Quiet (r : Registry) : Operation → Prop
  | .breakPane _ _ panes _ _ => panes = 1 ∨ r.windows.notifyEnabled = false
  | _ => True

instance (r : Registry) : DecidablePred r.Quiet
  | .breakPane _ _ panes _ _ => inferInstanceAs (Decidable (panes = 1 ∨ r.windows.notifyEnabled = false))
  | .newSession .. | .newWindow .. | .attach .. | .detach .. | .destroy _ | .synchronizeTo _
  | .synchronizeFrom _ | .renumber .. | .swapWindow .. | .linkWindow .. | .moveWindow ..
  | .renameWindow .. | .layoutChanged .. | .renameSession _ | .attachClient _ | .notifyEnable
  | .notifyDisable | .notifyDrain => inferInstanceAs (Decidable True)

theorem Balanced.onSession (h : r.Balanced) (s : ℕ) {f : Registry → Exec Registry}
    (hf : ∀ r : Registry, r.Balanced → Meets unfreed Balanced (f r)) :
    Meets unfreed Balanced (r.onSession s f) := by
  rw [Registry.onSession]
  split_ifs
  · exact .pure h
  · exact hf r h

theorem Balanced.onWindow (h : r.Balanced) (s wl : ℕ) {f : Windows → ℕ → Exec Windows}
    (hf : ∀ w ∈ r.linked, Meets unfreed (Windows.Held r.linked) (f r.windows w)) :
    Meets unfreed Balanced (r.onWindow s wl f) := by
  rw [Registry.onWindow]
  split
  · exact .pure h
  · rename_i w hw
    obtain ⟨l, hl, hlw⟩ := Option.bind_eq_some_iff.1 hw
    exact h.onWindows fun _ => hf w (mem_linked_of_findWindow hl hlw)

/-- One operation keeps the references right. -/
theorem Balanced.step (h : r.Balanced) (op : Operation) (hquiet : r.Quiet op) :
    Meets unfreed Balanced (r.step op) := by
  cases op with
  | newSession target spawn named baseIndex => exact h.newSession target spawn named baseIndex
  | newWindow s idx spawn kflag dflag baseIndex => exact h.newWindow s idx spawn kflag dflag baseIndex
  | attach src srcwl dst idx =>
    rw [Registry.step]
    split
    · exact .pure h
    · rename_i w hw
      obtain ⟨l, hl, hlw⟩ := Option.bind_eq_some_iff.1 hw
      have hthere := Windows.Held.ne_none h (mem_linked_of_findWindow hl hlw)
      rw [Registry.onSession]
      split_ifs
      · exact .pure h
      · exact (h.sessionAttach dst idx hthere).bind fun ⟨r₁, _⟩ h₁ => .pure h₁
  | detach s wl =>
    rw [Registry.step]
    split
    · exact .pure h
    · exact (h.sessionDetach s wl).bind fun ⟨r₁, _⟩ h₁ => .pure h₁
  | destroy s => exact h.onSession s fun _ h => h.sessionDestroy s
  | synchronizeTo s => exact h.onSession s fun _ h => h.sessionGroupSynchronizeTo s
  | synchronizeFrom s => exact h.onSession s fun _ h => h.sessionGroupSynchronizeFrom s
  | renumber s baseIndex => exact h.onSession s fun _ h => h.sessionRenumberWindows s baseIndex
  | swapWindow src wlSrc dst wlDst dflag => exact h.swapWindow src wlSrc dst wlDst dflag
  | linkWindow src srcwl dst dstidx kflag dflag baseIndex =>
    exact h.linkWindow src srcwl dst dstidx kflag dflag baseIndex
  | moveWindow src srcwl dst dstidx kflag dflag baseIndex =>
    exact h.moveWindow src srcwl dst dstidx kflag dflag baseIndex
  | breakPane s wl panes dflag baseIndex => exact h.breakPane s wl panes dflag baseIndex hquiet
  | renameWindow s wl =>
    refine h.onWindow s wl fun w hw => ?_
    rw [Windows.windowSetName, Windows.useWindow_eq (Windows.Held.ne_none h hw), pure_bind]
    exact Windows.Held.notify_held h fun v hv => Option.some.inj hv ▸ hw
  | layoutChanged s wl =>
    exact h.onWindow s wl fun w hw => Windows.Held.notify_held h fun v hv => Option.some.inj hv ▸ hw
  | renameSession s => exact h.onSession s fun _ h => h.notifyNone rfl
  | attachClient c => exact h.notifyNone rfl
  | notifyEnable =>
    have henabled : Windows.Held r.linked { r.windows with notifyEnabled := true } := ⟨h.counts, h.fresh⟩
    exact h.onWindows fun _ => henabled.notifyDrain
  | notifyDisable => exact .pure ⟨h.counts, h.fresh⟩
  | notifyDrain => exact h.onWindows fun h => h.notifyDrain

/-- The references to every window are counted: as many as there are links to it in all sessions
    and notifications about it in the queue, and a window that is destroyed has none of either. -/
structure Counted (r : Registry) : Prop where
  live : ∀ w n, r.windows.references w = some n → n = r.linked.count w + r.windows.queued.count w
  destroyed : ∀ w, r.windows.references w = none → w ∉ r.linked ∧ w ∉ r.windows.queued

theorem Balanced.counted (h : r.Balanced) : r.Counted where
  live w n hn := by
    have := h.counts w
    rwa [hn, Option.getD_some, Multiset.count_add] at this
  destroyed w hw := by
    have := h.counts.not_mem hw
    rwa [Multiset.mem_add, not_or] at this

/-- In every run from the start of the server in which no pane is broken off while notifications are
    delivered at once, no window is used that is destroyed, and the references are counted in the
    end. -/
theorem run_counted (ops : List Operation) (hquiet : Along Registry.step Quiet {} ops) :
    ops.foldlM Registry.step {} ≠ .fault .freed ∧
      ∀ r, (ops.foldlM Registry.step {}).value? = some r → r.Counted := by
  have hinit : Balanced {} := ⟨fun _ => rfl, fun _ _ => rfl⟩
  have hrun := Meets.foldlM_along (w := unfreed) (fun r op hop h => Balanced.step h op hop) hquiet hinit
  exact ⟨hrun.not_fault fun h => h rfl, fun r hr => (hrun.value hr).counted⟩

/-- A session with two windows and one in its group; a pane is broken off, a window linked over another
    one and the windows renumbered, and then the notifications are delivered. -/
theorem run_counted_small :
    let ops : List Operation := [.newSession none (.ok ()) true 0, .newSession (some 0) (.ok ()) false 0,
      .notifyDisable, .newWindow 0 (-1) (.ok ()) false false 0, .breakPane 1 0 2 false 0,
      .linkWindow 0 2 1 5 true false 0, .linkWindow 0 0 0 1 true true 0, .swapWindow 0 0 0 2 true,
      .renumber 1 0, .detach 0 0, .notifyEnable]
    (ops.foldlM Registry.step {}).value?.isSome ∧ ops.foldlM Registry.step {} ≠ .fault .freed ∧
      ∀ r, (ops.foldlM Registry.step {}).value? = some r → r.Counted :=
  ⟨by decide +kernel, run_counted _ (by decide +kernel)⟩

/-- A pane is broken off after a command has enabled the delivery of notifications again. -/
theorem run_not_counted : ¬ ∀ ops : List Operation, ops.foldlM Registry.step {} ≠ .fault .freed ∧
    ∀ r, (ops.foldlM Registry.step {}).value? = some r → r.Counted := by
  intro h
  refine (h [.newSession none (.ok ()) false 0, .notifyDisable, .notifyEnable,
    .breakPane 0 0 2 false 0]).1 ?_
  rfl

end Registry

end Tmux
