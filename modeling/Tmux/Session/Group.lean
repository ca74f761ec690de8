import Tmux.Session.Current

/-!
# Linking anew

A session taking over the windows of another has the same windows at the same
indices, and its stack has some of them. It has a current window exactly if its
current window is one of those, or the window it falls back to is
(`sessionGroupSynchronize1_current_iff`).

Renumbering the windows of a session keeps them in their order, and the current
one. The stack is found again by the old indices, and lists the same windows exactly
if those indices lead to them again (`sessionRenumberWindows_iff`).
-/

namespace Tmux

/-! ## Links -/

/-- A link with its alerts only. -/
def Winlink.again (idx : ℕ) (wl : Winlink) : Winlink :=
  { idx, window := wl.window, flags := 0 ||| wl.flags &&& winlinkAlertFlags }

theorem updateLink_last {wwl : Winlinks} {l : List Winlink} {x : Winlink} (h : wwl.entries = l ++ [x])
    (f : Winlink → Winlink) :
    (updateLink wwl x.idx f).entries = l ++ [{ f x with idx := x.idx }] := by
  have hne : ∀ a ∈ l, a.idx ≠ x.idx := fun a ha => by
    have hs := wwl.sorted
    rw [h, List.pairwise_append] at hs
    exact (hs.2.2 a ha x (by simp)).ne
  rw [updateLink, Keyed.entries_update, h, List.map_append, List.map_singleton, if_pos rfl]
  congr 1
  refine (List.map_congr_left fun a ha => if_neg (hne a ha)).trans (List.map_id' l)

/-- A link after all others. -/
theorem linkAgain_eq {wwl : Winlinks} {idx w : ℕ} {wl : Winlink} (hw : wl.window = some w)
    (h : ∀ k ∈ wwl.keys, k < idx) :
    ∃ wwl', linkAgain wwl idx wl = pure (wwl', idx) ∧ wwl'.entries = wwl.entries ++ [wl.again idx] := by
  have hfree : wwl.find? idx = none := Keyed.find?_eq_none.2 fun hmem => lt_irrefl _ (h idx hmem)
  have hadd : winlinkAdd wwl idx = some (wwl.insert { idx := idx } hfree, idx) := by
    rw [winlinkAdd, if_neg (by omega), Int.toNat_natCast, insertLink, dif_pos hfree]
  have hinsert : (wwl.insert { idx := idx } hfree).entries = wwl.entries ++ [{ idx := idx }] :=
    Keyed.insertSorted_last fun a ha => h a.idx (List.mem_map_of_mem ha)
  have hset : (winlinkSetWindow (wwl.insert { idx := idx } hfree) idx w).entries =
      wwl.entries ++ [{ idx, window := some w }] := updateLink_last hinsert _
  have hentries := updateLink_last hset fun l =>
    { l with flags := l.flags ||| wl.flags &&& winlinkAlertFlags }
  refine ⟨_, ?_, hentries.trans (by rw [Winlink.again, hw])⟩
  rw [linkAgain, hadd, Exec.follow_some, pure_bind]
  dsimp only
  rw [hw, Exec.follow_some, pure_bind]

/-- Linking windows after all others. -/
theorem linkAll_eq {links : List Winlink} {t : Winlinks} (hw : ∀ wl ∈ links, wl.window ≠ none)
    (hlinks : links.Pairwise fun a b => a.idx < b.idx) (h : ∀ k ∈ t.keys, ∀ wl ∈ links, k < wl.idx) :
    ∃ t', linkAll links t = pure t' ∧
      t'.entries = t.entries ++ links.map fun wl => wl.again wl.idx := by
  induction links generalizing t with
  | nil => exact ⟨t, rfl, by simp⟩
  | cons wl links ih =>
    obtain ⟨w, hwl⟩ := Option.ne_none_iff_exists'.1 (hw wl List.mem_cons_self)
    obtain ⟨hlt, hlinks⟩ := List.pairwise_cons.1 hlinks
    obtain ⟨t₁, hlink, hentries⟩ := linkAgain_eq hwl fun k hk => h k hk wl List.mem_cons_self
    obtain ⟨t₂, hall, hentries₂⟩ := ih (t := t₁) (fun a ha => hw a (List.mem_cons_of_mem _ ha))
      hlinks fun k hk a ha => by
        rw [Keyed.keys, hentries, List.map_append, List.mem_append] at hk
        rcases hk with hk | hk
        · exact h k hk a (List.mem_cons_of_mem _ ha)
        · obtain rfl : k = wl.idx := by simpa [Winlink.again] using hk
          exact hlt a ha
    refine ⟨t₂, ?_, by rw [hentries₂, hentries]; simp⟩
    rw [linkAll, List.foldlM_cons, hlink, pure_bind]
    dsimp only
    rw [pure_bind]
    exact hall

theorem findByIndex_natCast (wwl : Winlinks) (i : ℕ) :
    winlinkFindByIndex wwl i = pure (wwl.find? i) := by
  rw [winlinkFindByIndex, if_neg (by omega), Int.toNat_natCast]

theorem find?_map_idx (wwl : Winlinks) (i : ℕ) :
    (wwl.find? i).map Winlink.idx = if i ∈ wwl.keys then some i else none := by
  cases h : wwl.find? i with
  | none => rw [if_neg (Keyed.find?_eq_none.1 h), Option.map_none]
  | some wl =>
    obtain ⟨hmem, rfl⟩ := Keyed.find?_eq_some.1 h
    rw [if_pos (show wl.idx ∈ wwl.keys from List.mem_map_of_mem hmem), Option.map_some]

/-- A stack fixed up has the links of it whose indices are still there. -/
theorem fixStack_eq (wwl : Winlinks) (lastw : List ℕ) :
    fixStack wwl lastw = pure (lastw.filter fun i => i ∈ wwl.keys) := by
  have hmap : (lastw.mapM fun wl : ℕ => winlinkFindByIndex wwl wl) = pure (lastw.map wwl.find?) := by
    simp only [findByIndex_natCast]
    exact List.mapM_pure
  rw [fixStack, hmap, pure_bind, List.filterMap_map]
  congr 1
  clear hmap
  induction lastw with
  | nil => rfl
  | cons i lastw ih =>
    rw [List.filterMap_cons, Function.comp_apply, find?_map_idx, List.filter_cons, ih]
    by_cases hi : i ∈ wwl.keys <;> simp [hi]

/-! ## Taking over windows -/

/-- The window a session falls back to when it leaves its current one. -/
def fallback (s : Session) : Option ℕ :=
  s.lastw.head?.or (s.curw.bind fun c => (previousLink s.windows c false).map Winlink.idx)

/-- A session leaving its current window falls back. -/
theorem Session.Valid.leave_curw {s s' : Session} (h : s.Valid) (hleave : sessionLeave s = pure s') :
    s'.curw = fallback s := by
  obtain ⟨c, hc, hcur⟩ := h.curw
  unfold sessionLeave sessionLast at hleave
  unfold fallback
  cases hlast : s.lastw.head? with
  | some wl =>
    obtain ⟨hmem, hne⟩ := h.lastw wl (List.mem_of_mem_head? hlast)
    rw [hlast] at hleave
    dsimp only at hleave
    rw [if_pos (moveTo_snd hne)] at hleave
    obtain rfl := Exec.pure_inj.1 hleave
    exact (h.move hmem).2.2
  | none =>
    rw [hlast] at hleave
    dsimp only at hleave
    rw [if_neg (by decide), sessionPrevious] at hleave
    obtain ⟨s₁, r, hprev, h₁, hkeys, hmove⟩ := h.moveAlong (previousLink_mem s.windows false)
    rw [hprev, pure_bind] at hleave
    dsimp only at hleave
    -- Going back round, there is always a window, if only the current one.
    have hprev' : ∃ wl, previousLink s.windows c false = some wl := by
      obtain ⟨wl, hwl, -⟩ := List.mem_map.1 hc
      refine Option.isSome_iff_exists.1 ?_
      rw [previousLink, Option.isSome_or, Bool.or_eq_true]
      exact .inr (List.find?_isSome.2 ⟨wl, List.mem_reverse.2 hwl, rfl⟩)
    obtain ⟨wl, hwl⟩ := hprev'
    obtain ⟨hcur₁, hr⟩ := hmove c wl hcur hwl
    rw [Option.none_or, hcur, Option.bind_some, hwl, Option.map_some, ← hcur₁]
    split_ifs at hleave with hr0
    · rw [Exec.pure_inj.1 hleave]
    · -- There is no other window to move to.
      have hidx : wl.idx = c := not_not.1 fun hne => hr0 (hr hne)
      have honly : ∀ k ∈ s.windows.keys, k = c := fun k hk => by
        by_contra hne
        obtain ⟨wl', hwl', hne'⟩ := previousLink_ne hc hk hne
        exact hne' (Option.some.inj (hwl.symm.trans hwl') ▸ hidx)
      obtain ⟨s₂, r₂, hnext, h₂, hkeys₂, -⟩ := h₁.moveAlong (nextLink_mem s₁.windows false)
      rw [sessionNext, hnext, pure_bind] at hleave
      obtain rfl := Exec.pure_inj.1 hleave
      obtain ⟨d, hd, hdc⟩ := h₂.curw
      rw [hdc, hcur₁, honly d (hkeys ▸ hkeys₂ ▸ hd), hidx]

/-- A session with windows at some indices, the window at `i` being `100 + i`. -/
def sessionAt (idxs : List ℕ) (h : idxs.Pairwise (· < ·)) (curw : ℕ) (lastw : List ℕ) : Session where
  windows.entries := idxs.map fun i => { idx := i, window := some (100 + i) }
  windows.sorted := by rwa [List.pairwise_map]
  curw := some curw
  lastw := lastw

theorem sessionAt_valid {idxs : List ℕ} {h : idxs.Pairwise (· < ·)} {curw : ℕ} {lastw : List ℕ}
    (hcurw : curw ∈ idxs) (hlastw : ∀ i ∈ lastw, i ∈ idxs ∧ curw ≠ i) (hnd : lastw.Nodup) :
    (sessionAt idxs h curw lastw).Valid := by
  have hkeys : (sessionAt idxs h curw lastw).windows.keys = idxs := by
    rw [Keyed.keys, sessionAt, List.map_map]
    exact List.map_id' idxs
  refine ⟨⟨curw, by rwa [hkeys], rfl⟩, fun i hi => ?_, hnd⟩
  rw [hkeys]
  exact ⟨(hlastw i hi).1, fun e => (hlastw i hi).2 (Option.some.inj e)⟩

/-- The window of the link of a session at an index. -/
def windowAt (s : Session) (i : ℕ) : Option ℕ := (s.windows.find? i).bind Winlink.window

/-- Links that get consecutive indices after all others. -/
theorem renumberLinks_eq {c : Option ℕ} {links : List Winlink} {t : Winlinks} {n : ℕ}
    (newCurw : ℕ) (hw : ∀ wl ∈ links, wl.window ≠ none) (h : ∀ k ∈ t.keys, k < n)
    (hmax : n + links.length ≤ intMax + 1) :
    ∃ t', renumberLinks c links t n newCurw = pure (t',
        (links.zipIdx n).foldl (fun n p => if c = some p.1.idx then p.2 else n) newCurw) ∧
      t'.entries = t.entries ++ (links.zipIdx n).map fun p => p.1.again p.2 := by
  induction links generalizing t n newCurw with
  | nil => exact ⟨t, rfl, by simp⟩
  | cons wl links ih =>
    rw [List.length_cons] at hmax
    obtain ⟨w, hwl⟩ := Option.ne_none_iff_exists'.1 (hw wl List.mem_cons_self)
    obtain ⟨t₁, hlink, hentries⟩ := linkAgain_eq hwl h
    obtain ⟨t₂, hrest, hentries₂⟩ := ih (t := t₁) (n := n + 1)
      (if c = some wl.idx then n else newCurw)
      (fun a ha => hw a (List.mem_cons_of_mem _ ha)) (fun k hk => by
        rw [Keyed.keys, hentries, List.map_append, List.mem_append] at hk
        rcases hk with hk | hk
        · exact (h k hk).trans (Nat.lt_succ_self _)
        · obtain rfl : k = n := by simpa [Winlink.again] using hk
          exact Nat.lt_succ_self _) (by omega)
    refine ⟨t₂, ?_, by rw [hentries₂, hentries]; simp⟩
    rw [renumberLinks, if_neg (by omega), hlink, pure_bind]
    exact hrest

/-- Too many links for the indices there are. -/
theorem renumberLinks_fault {c : Option ℕ} {links : List Winlink} {t : Winlinks} {n : ℕ}
    (newCurw : ℕ) (hne : links ≠ []) (hmax : intMax + 1 < n + links.length) :
    (renumberLinks c links t n newCurw).value? = none := by
  induction links generalizing t n newCurw with
  | nil => exact absurd rfl hne
  | cons wl links ih =>
    rw [renumberLinks]
    by_cases hlt : n > intMax
    · rw [if_pos hlt]
      rfl
    · rw [if_neg hlt, Option.eq_none_iff_forall_ne_some]
      intro r hr
      obtain ⟨⟨t₁, i⟩, -, hr⟩ := Exec.value?_bind.1 hr
      rw [List.length_cons] at hmax
      have hne' : links ≠ [] := by
        rintro rfl
        rw [List.length_nil] at hmax
        omega
      have hrest := ih (t := t₁) (n := n + 1)
        (if c = some wl.idx then i else newCurw) hne' (by omega)
      rw [hrest] at hr
      cases hr

/-- Links that are not the current one do not change its new index. -/
theorem newCurw_of_ne {c newIdx : ℕ} {links : List Winlink} (h : ∀ wl ∈ links, wl.idx ≠ c) (n : ℕ) :
    (links.zipIdx newIdx).foldl (fun n p => if some c = some p.1.idx then p.2 else n) n = n := by
  induction links generalizing newIdx n with
  | nil => rfl
  | cons wl links ih =>
    rw [List.zipIdx_cons, List.foldl_cons, if_neg fun e => h wl List.mem_cons_self (Option.some.inj e).symm]
    exact ih (fun a ha => h a (List.mem_cons_of_mem _ ha)) n

/-- The new index of the current link is that of its place. -/
theorem newCurw_eq {c newIdx : ℕ} {wwl : Winlinks} {l r : List Winlink} {x : Winlink}
    (h : wwl.entries = l ++ x :: r) (hx : x.idx = c) (n : ℕ) :
    (wwl.entries.zipIdx newIdx).foldl (fun n p => if some c = some p.1.idx then p.2 else n) n =
      newIdx + l.length := by
  have hs := wwl.sorted
  rw [h, List.pairwise_append, List.pairwise_cons] at hs
  rw [h, List.zipIdx_append, List.foldl_append, List.zipIdx_cons, List.foldl_cons, if_pos (by rw [hx])]
  exact newCurw_of_ne (fun wl hwl => hx ▸ (hs.2.1.1 wl hwl).ne') _

/-- The indices of links at consecutive indices. -/
theorem keys_renumbered {t : Winlinks} {links : List Winlink} {newIdx : ℕ}
    (h : t.entries = (links.zipIdx newIdx).map fun p => p.1.again p.2) :
    t.keys = List.range' newIdx links.length := by
  rw [Keyed.keys, h, List.map_map]
  exact List.zipIdx_map_snd newIdx links

/-- The window at an index of a session with windows at consecutive indices. -/
theorem windowAt_renumbered {t : Session} {links : List Winlink} {newIdx : ℕ}
    (h : t.windows.entries = (links.zipIdx newIdx).map fun p => p.1.again p.2) (i : ℕ) :
    windowAt t i = if newIdx ≤ i then (links[i - newIdx]?).bind Winlink.window else none := by
  by_cases hi : newIdx ≤ i ∧ i - newIdx < links.length
  · obtain ⟨hle, hlt⟩ := hi
    have hfind : t.windows.find? i = some (links[i - newIdx].again i) := by
      refine Keyed.find?_eq_some.2 ⟨?_, rfl⟩
      rw [h]
      refine List.mem_map.2 ⟨(links[i - newIdx], i), ?_, rfl⟩
      exact List.mk_mem_zipIdx_iff_le_and_getElem?_sub.2 ⟨hle, List.getElem?_eq_getElem hlt⟩
    rw [windowAt, hfind, if_pos hle, List.getElem?_eq_getElem hlt]
    rfl
  · have hnone : t.windows.find? i = none := by
      rw [Keyed.find?_eq_none, keys_renumbered h, List.mem_range'_1]
      omega
    rw [windowAt, hnone, Option.bind_none]
    split_ifs with hle
    · rw [List.getElem?_eq_none (by omega), Option.bind_none]
    · rfl

/-- Mapping the entries of a list that pass a test gives as many as mapping all only if all pass. -/
theorem map_filter_eq_map_iff {α β : Type*} {p : α → Bool} {f g : α → β} {l : List α} :
    (l.filter p).map f = l.map g ↔ ∀ a ∈ l, p a = true ∧ f a = g a := by
  constructor
  · intro h
    have hlen := congrArg List.length h
    rw [List.length_map, List.length_map] at hlen
    have hall : ∀ a ∈ l, p a = true := List.length_filter_eq_length_iff.1 hlen
    rw [List.filter_eq_self.2 hall] at h
    exact fun a ha => ⟨hall a ha, List.map_inj_left.1 h a ha⟩
  · intro h
    rw [List.filter_eq_self.2 fun a ha => (h a ha).1]
    exact List.map_congr_left fun a ha => (h a ha).2

/-- What renumbering the windows of a session from a base index is to keep: the windows in their
    order, at consecutive indices, the current one, and those on the stack. -/
structure Renumbered (baseIndex : ℕ) (s s' : Session) : Prop where
  windows : s'.windows.entries.map Winlink.window = s.windows.entries.map Winlink.window
  keys : s'.windows.keys = List.range' baseIndex s.windows.entries.length
  curw : ∃ c ∈ s.curw, ∃ c' ∈ s'.curw, windowAt s' c' = windowAt s c
  lastw : s'.lastw.map (windowAt s') = s.lastw.map (windowAt s)

/-- The windows of a session are renumbered if and only if there are enough indices from the base
    index on, and every window on the stack is the one that gets its index. -/
theorem sessionRenumberWindows_iff {s : Session} (hs : s.Valid)
    (hwin : ∀ wl ∈ s.windows.entries, wl.window ≠ none) (baseIndex : ℕ) :
    (∃ s', sessionRenumberWindows s baseIndex = pure s' ∧ Renumbered baseIndex s s') ↔
      baseIndex + s.windows.entries.length ≤ intMax + 1 ∧
        ∀ i ∈ s.lastw, baseIndex ≤ i ∧
          (s.windows.entries[i - baseIndex]?).bind Winlink.window = windowAt s i := by
  obtain ⟨c, hc, hcur⟩ := hs.curw
  obtain ⟨l, x, r, hlr, hx, -⟩ := exists_link_split hc
  have hne : s.windows.entries ≠ [] := by simp [hlr]
  by_cases hmax : baseIndex + s.windows.entries.length ≤ intMax + 1
  · obtain ⟨windows, hlinks, hentries⟩ := renumberLinks_eq (c := s.curw) (t := {})
      (n := baseIndex) 0 hwin (fun k hk => absurd hk (by simp [Keyed.keys])) hmax
    rw [List.nil_append] at hentries
    rw [hcur, newCurw_eq hlr hx] at hlinks
    set s' : Session := {
      windows
      curw := some (baseIndex + l.length)
      lastw := s.lastw.filter fun i => i ∈ windows.keys } with hs'
    have hrun : sessionRenumberWindows s baseIndex = pure s' := by
      have hmem : baseIndex + l.length ∈ windows.keys := by
        rw [keys_renumbered hentries, List.mem_range'_1, hlr, List.length_append,
          List.length_cons]
        omega
      rw [sessionRenumberWindows, hcur, hlinks, pure_bind]
      dsimp only
      rw [fixStack_eq, pure_bind, findByIndex_natCast, pure_bind, find?_map_idx, if_pos hmem]
    have hkeys : windows.keys = _ := keys_renumbered hentries
    have hat := windowAt_renumbered (t := s') hentries
    -- Only the stack may be wrong.
    have hiff : Renumbered baseIndex s s' ↔ s'.lastw.map (windowAt s') = s.lastw.map (windowAt s) := by
      refine ⟨fun h => h.lastw, fun h => ⟨?_, hkeys, ⟨c, hcur, _, rfl, ?_⟩, h⟩⟩
      · rw [hs', hentries, List.map_map]
        have hfst := congrArg (List.map Winlink.window) (List.zipIdx_map_fst baseIndex s.windows.entries)
        rwa [List.map_map] at hfst
      · have hfind : s.windows.find? c = some x := Keyed.find?_eq_some.2 ⟨by simp [hlr], hx⟩
        rw [hat, if_pos (by omega), windowAt, hfind, hlr, Nat.add_sub_cancel_left]
        simp
    have hstack : s'.lastw.map (windowAt s') = s.lastw.map (windowAt s) ↔ ∀ i ∈ s.lastw,
        baseIndex ≤ i ∧ (s.windows.entries[i - baseIndex]?).bind Winlink.window = windowAt s i := by
      rw [hs', map_filter_eq_map_iff]
      refine forall₂_congr fun i hi => ?_
      obtain ⟨wl, hwl⟩ := Option.isSome_iff_exists.1 (Keyed.find?_isSome.2 (hs.lastw i hi).1)
      have hsome : windowAt s i ≠ none := by
        rw [windowAt, hwl]
        exact hwin wl (Keyed.find?_eq_some.1 hwl).1
      rw [hat, decide_eq_true_iff, hkeys, List.mem_range'_1]
      constructor
      · rintro ⟨⟨hle, -⟩, heq⟩
        rw [if_pos hle] at heq
        exact ⟨hle, heq⟩
      · rintro ⟨hle, heq⟩
        have hlt : i - baseIndex < s.windows.entries.length := by
          by_contra hge
          rw [List.getElem?_eq_none (not_lt.1 hge), Option.bind_none] at heq
          exact hsome heq.symm
        exact ⟨⟨hle, by omega⟩, by rw [if_pos hle, heq]⟩
    constructor
    · rintro ⟨s'', hrun', h⟩
      obtain rfl := Exec.pure_inj.1 (hrun.symm.trans hrun')
      exact ⟨hmax, hstack.1 (hiff.1 h)⟩
    · exact fun h => ⟨s', hrun, hiff.2 (hstack.2 h.2)⟩
  · refine iff_of_false ?_ fun h => hmax h.1
    rintro ⟨s', hrun, -⟩
    rw [sessionRenumberWindows] at hrun
    obtain ⟨⟨windows, i⟩, hlinks, -⟩ := Exec.bind_eq_pure.1 hrun
    have hfault := renumberLinks_fault (c := s.curw) (t := {}) 0 hne (not_le.1 hmax)
    rw [hlinks] at hfault
    cases hfault

/-- Windows at the indices 0, 2 and 5, the first one on the stack, are renumbered from 0. -/
theorem sessionRenumberWindows_run :
    let s := sessionAt [0, 2, 5] (by decide) 5 [0]
    (∃ s', sessionRenumberWindows s 0 = pure s' ∧ Renumbered 0 s s') ↔
      0 + s.windows.entries.length ≤ intMax + 1 ∧
        ∀ i ∈ s.lastw, 0 ≤ i ∧ (s.windows.entries[i - 0]?).bind Winlink.window = windowAt s i :=
  sessionRenumberWindows_iff (sessionAt_valid (by decide) (by decide) (by decide)) (by decide) 0

/-- With the window at 2 on the stack, the stack has the one that was at 5 afterwards. -/
theorem sessionRenumberWindows_not_renumbered : ¬ ∀ (s : Session) (baseIndex : ℕ), s.Valid →
    (∀ wl ∈ s.windows.entries, wl.window ≠ none) → baseIndex ≤ intMax →
    ∃ s', sessionRenumberWindows s baseIndex = pure s' ∧ Renumbered baseIndex s s' := by
  intro h
  obtain ⟨s', hrun, hs'⟩ := h (sessionAt [0, 2, 5] (by decide) 0 [2]) 0
    (sessionAt_valid (by decide) (by decide) (by decide)) (by decide) (by decide)
  have hlastw : ∀ t ∈ (sessionRenumberWindows (sessionAt [0, 2, 5] (by decide) 0 [2]) 0).value?,
      t.lastw.map (windowAt t) = [some 105] := by decide +kernel
  have := (hlastw s' (by rw [hrun]; rfl)).symm.trans hs'.lastw
  revert this
  decide +kernel

end Tmux
