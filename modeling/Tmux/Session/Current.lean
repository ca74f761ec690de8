import Tmux.Session.Session

/-!
# The current window of a session

A session that has windows has one of them current, and the others that were current
before on its stack, each at most once (`Session.Valid`). Every operation on the
session keeps that, and so does every run of them (`sessionRun_valid`).
-/

namespace Tmux

/-- The current window of a session is one of its windows, and the stack has others of them,
    each at most once. -/
structure Session.Valid (s : Session) : Prop where
  curw : ∃ wl ∈ s.windows.keys, s.curw = some wl
  lastw : ∀ wl ∈ s.lastw, wl ∈ s.windows.keys ∧ s.curw ≠ some wl
  nodup : s.lastw.Nodup

/-! ## Links -/

@[simp] theorem keys_updateLink (wwl : Winlinks) (wl : ℕ) (f : Winlink → Winlink) :
    (updateLink wwl wl f).keys = wwl.keys := Keyed.keys_update

@[simp] theorem keys_winlinkSetWindow (wwl : Winlinks) (wl w : ℕ) :
    (winlinkSetWindow wwl wl w).keys = wwl.keys := keys_updateLink _ _ _

@[simp] theorem keys_winlinkClearFlags (wwl : Winlinks) (wl : ℕ) :
    (winlinkClearFlags wwl wl).keys = wwl.keys := by
  unfold winlinkClearFlags
  split
  · rfl
  · exact keys_updateLink _ _ _

/-- A link added is at a free index, and the others stay. -/
theorem winlinkAdd_eq_some {wwl wwl' : Winlinks} {idx : ℤ} {wl : ℕ}
    (h : winlinkAdd wwl idx = some (wwl', wl)) :
    ∃ hfree : wwl.find? wl = none, wwl' = wwl.insert { idx := wl } hfree := by
  have hinsert : ∀ i, insertLink wwl i = some (wwl', wl) →
      ∃ hfree : wwl.find? wl = none, wwl' = wwl.insert { idx := wl } hfree := fun i hi => by
    unfold insertLink at hi
    split_ifs at hi with hfree
    obtain ⟨rfl, rfl⟩ := Prod.ext_iff.1 (Option.some.inj hi)
    exact ⟨hfree, rfl⟩
  unfold winlinkAdd at h
  split_ifs at h
  · obtain ⟨i, -, hi⟩ := Option.bind_eq_some_iff.1 h
    exact hinsert i hi
  · exact hinsert _ h

theorem mem_keys_winlinkAdd {wwl wwl' : Winlinks} {idx : ℤ} {wl k : ℕ}
    (h : winlinkAdd wwl idx = some (wwl', wl)) : k ∈ wwl'.keys ↔ k = wl ∨ k ∈ wwl.keys := by
  obtain ⟨hfree, rfl⟩ := winlinkAdd_eq_some h
  exact Keyed.mem_keys_insert

/-! ## Moving -/

theorem mem_winlinkStackPush {stack : List ℕ} {curw : Option ℕ} {wl : ℕ}
    (h : wl ∈ winlinkStackPush stack curw) : curw = some wl ∨ wl ∈ stack := by
  cases curw with
  | none => exact .inr h
  | some c =>
    rcases List.mem_cons.1 h with rfl | h
    · exact .inl rfl
    · exact .inr (List.mem_of_mem_erase h)

theorem nodup_winlinkStackPush {stack : List ℕ} (h : stack.Nodup) (curw : Option ℕ) :
    (winlinkStackPush stack curw).Nodup := by
  cases curw with
  | none => exact h
  | some c => exact List.nodup_cons.2 ⟨h.not_mem_erase, h.erase c⟩

/-- Moving a session to another window succeeds. -/
theorem moveTo_snd {s : Session} {wl : ℕ} (h : s.curw ≠ some wl) : (moveTo s wl).2 = 0 := by
  unfold moveTo
  rw [if_neg h]

/-- Moving a session to one of its windows. -/
theorem Session.Valid.move {s : Session} (h : s.Valid) {wl : ℕ} (hwl : wl ∈ s.windows.keys) :
    (moveTo s wl).1.Valid ∧ (moveTo s wl).1.windows.keys = s.windows.keys ∧
      (moveTo s wl).1.curw = some wl := by
  unfold moveTo
  split_ifs with hcur
  · exact ⟨h, rfl, hcur⟩
  · refine ⟨⟨⟨wl, by simpa using hwl, rfl⟩, fun x hx => ?_, ?_⟩, by simp, rfl⟩
    · have hne : wl ≠ x ∧ x ∈ s.windows.keys := by
        rcases mem_winlinkStackPush hx with hx | hx
        · obtain ⟨c, hc, hcw⟩ := h.curw
          obtain rfl : c = x := Option.some.inj (hcw.symm.trans hx)
          exact ⟨fun e => hcur (e ▸ hx), hc⟩
        · obtain ⟨hx, hmem⟩ := (List.Nodup.mem_erase_iff h.nodup).1 hx
          exact ⟨hx.symm, (h.lastw x hmem).1⟩
      exact ⟨by simpa using hne.2, fun e => hne.1 (Option.some.inj e)⟩
    · exact nodup_winlinkStackPush (h.nodup.erase wl) _

/-- What a session moves to is one of its windows. -/
def LinkOf (wwl : Winlinks) (link : ℕ → Option Winlink) : Prop :=
  ∀ curw wl, link curw = some wl → wl ∈ wwl.entries

theorem nextLink_mem (wwl : Winlinks) (alert : Bool) : LinkOf wwl fun c => nextLink wwl c alert := by
  intro c wl h
  rcases Option.or_eq_some_iff.1 h with h | ⟨-, h⟩
  · exact Queue.rest_subset _ _ (List.mem_of_find?_eq_some h)
  · exact List.mem_of_find?_eq_some h

theorem previousLink_mem (wwl : Winlinks) (alert : Bool) :
    LinkOf wwl fun c => previousLink wwl c alert := by
  intro c wl h
  rcases Option.or_eq_some_iff.1 h with h | ⟨-, h⟩
  · exact Queue.front_subset _ _ (List.mem_reverse.1 (List.mem_of_find?_eq_some h))
  · exact List.mem_reverse.1 (List.mem_of_find?_eq_some h)

/-- Moving a session from its current window to another one found from there. -/
theorem Session.Valid.moveAlong {s : Session} (h : s.Valid) {link : ℕ → Option Winlink}
    (hlink : LinkOf s.windows link) :
    ∃ s' r, moveFrom s link = pure (s', r) ∧ s'.Valid ∧ s'.windows.keys = s.windows.keys ∧
      ∀ c wl, s.curw = some c → link c = some wl → s'.curw = some wl.idx ∧
        (wl.idx ≠ c → r = 0) := by
  obtain ⟨c, hc, hcur⟩ := h.curw
  obtain ⟨wl, hwl⟩ := Option.isSome_iff_exists.1 (Keyed.find?_isSome.2 hc)
  have hidx := (Keyed.find?_eq_some.1 hwl).2
  unfold moveFrom
  rw [hcur]
  dsimp only
  rw [hwl, Exec.follow_some, pure_bind, hidx]
  cases hl : link c with
  | none =>
    refine ⟨s, -1, rfl, h, rfl, fun d x hd hx => ?_⟩
    obtain rfl : c = d := Option.some.inj hd
    rw [hl] at hx
    cases hx
  | some x =>
    obtain ⟨hvalid, hkeys, hcurw⟩ := h.move (List.mem_map_of_mem (hlink c x hl))
    refine ⟨_, _, rfl, hvalid, hkeys, fun d y hd hy => ?_⟩
    obtain rfl : c = d := Option.some.inj hd
    obtain rfl : x = y := Option.some.inj (hl.symm.trans hy)
    exact ⟨hcurw, fun hne => moveTo_snd fun e => hne (Option.some.inj (hcur.symm.trans e)).symm⟩

/-! ## Leaving the current window -/

/-- A list splits at the link with an index. -/
theorem exists_link_split {wwl : Winlinks} {c : ℕ} (hc : c ∈ wwl.keys) :
    ∃ l wl r, wwl.entries = l ++ wl :: r ∧ wl.idx = c ∧ ∀ a ∈ l, Keyed.hasKey Winlink.idx c a = false := by
  obtain ⟨wl, hwl, rfl⟩ := List.mem_map.1 hc
  obtain ⟨l, x, r, hlr, hx, hl⟩ := Queue.exists_split (p := Keyed.hasKey Winlink.idx wl.idx)
    ⟨wl, hwl, by simp [Keyed.hasKey]⟩
  exact ⟨l, x, r, hlr, by simpa [Keyed.hasKey] using hx, hl⟩

/-- With another window in the session, the one before the current one, going round, is another. -/
theorem previousLink_ne {wwl : Winlinks} {c k : ℕ} (hc : c ∈ wwl.keys) (hk : k ∈ wwl.keys)
    (hne : k ≠ c) : ∃ wl, previousLink wwl c false = some wl ∧ wl.idx ≠ c := by
  obtain ⟨l, x, r, hlr, hx, hl⟩ := exists_link_split hc
  have hx' : Keyed.hasKey Winlink.idx c x = true := by simpa [Keyed.hasKey] using hx
  have hnd := wwl.nodup
  rw [Keyed.keys, hlr, List.map_append, List.map_cons, List.nodup_append] at hnd
  unfold previousLink
  rw [hlr, Queue.front_split hl hx']
  rcases l.eq_nil_or_concat with rfl | ⟨l, y, rfl⟩
  · rcases r.eq_nil_or_concat with rfl | ⟨r, y, rfl⟩
    · rw [Keyed.keys, hlr] at hk
      simp [hx] at hk
      exact absurd hk hne
    · refine ⟨y, by simp, fun e => ?_⟩
      have hmem := (List.nodup_cons.1 hnd.2.1).1
      exact hmem (hx ▸ e ▸ List.mem_map_of_mem (by simp))
  · refine ⟨y, by simp, fun e => ?_⟩
    simpa [Keyed.hasKey, e] using hl y (by simp)

/-- A session leaving its current window has one of its windows current, another one if it has
    any other. -/
theorem Session.Valid.leave {s : Session} (h : s.Valid) :
    ∃ s', sessionLeave s = pure s' ∧ s'.Valid ∧ s'.windows.keys = s.windows.keys ∧
      ∀ c, s.curw = some c → (∃ k ∈ s.windows.keys, k ≠ c) → s'.curw ≠ some c := by
  obtain ⟨c, hc, hcur⟩ := h.curw
  unfold sessionLeave sessionLast
  cases hlast : s.lastw.head? with
  | some wl =>
    obtain ⟨hmem, hne⟩ := h.lastw wl (List.mem_of_mem_head? hlast)
    obtain ⟨hvalid, hkeys, hcurw⟩ := h.move hmem
    dsimp only
    rw [if_pos (moveTo_snd hne)]
    refine ⟨_, rfl, hvalid, hkeys, fun d hd _ e => hne ?_⟩
    rw [hd, ← e, hcurw]
  | none =>
    dsimp only
    rw [if_neg (by decide)]
    obtain ⟨s₁, r, hprev, h₁, hkeys₁, hmove⟩ := h.moveAlong (previousLink_mem s.windows false)
    rw [sessionPrevious, hprev, pure_bind]
    dsimp only
    by_cases hr : r = 0
    · rw [if_pos hr]
      refine ⟨s₁, rfl, h₁, hkeys₁, fun d hd ⟨k, hk, hkd⟩ => ?_⟩
      obtain rfl : c = d := Option.some.inj (hcur.symm.trans hd)
      obtain ⟨wl, hwl, hne⟩ := previousLink_ne hc hk hkd
      rw [(hmove c wl hcur hwl).1]
      simpa using hne
    · rw [if_neg hr]
      obtain ⟨s₂, r₂, hnext, h₂, hkeys₂, -⟩ := h₁.moveAlong (nextLink_mem s₁.windows false)
      rw [sessionNext, hnext, pure_bind]
      refine ⟨s₂, rfl, h₂, hkeys₂.trans hkeys₁, fun d hd ⟨k, hk, hkd⟩ => absurd ?_ hr⟩
      obtain rfl : c = d := Option.some.inj (hcur.symm.trans hd)
      obtain ⟨wl, hwl, hne⟩ := previousLink_ne hc hk hkd
      exact (hmove c wl hcur hwl).2 hne

/-! ## Linking and unlinking -/

theorem Session.Valid.attach {s : Session} (h : s.Valid) (w : ℕ) (idx : ℤ) :
    (sessionAttach s w idx).1.Valid := by
  unfold sessionAttach
  split
  · exact h
  · rename_i windows wl hadd
    obtain ⟨c, hc, hcur⟩ := h.curw
    exact ⟨⟨c, by simpa [mem_keys_winlinkAdd hadd] using .inr hc, hcur⟩,
      fun x hx => ⟨by simpa [mem_keys_winlinkAdd hadd] using .inr (h.lastw x hx).1, (h.lastw x hx).2⟩,
      h.nodup⟩

theorem Session.Valid.new {s : Session} (h : s.Valid) (idx : ℤ) (w : Except String ℕ) :
    (sessionNew s idx w).1.Valid := by
  unfold sessionNew
  split
  · exact h
  · rename_i windows wl hadd
    obtain ⟨c, hc, hcur⟩ := h.curw
    cases w with
    | error cause =>
      -- The link taken back is none of the others, as its index was free.
      obtain ⟨hfree, -⟩ := winlinkAdd_eq_some hadd
      have hstay : ∀ k ∈ s.windows.keys, k ∈ (windows.erase wl).keys := fun k hk =>
        Keyed.mem_keys_erase.2 ⟨(mem_keys_winlinkAdd hadd).2 (.inr hk), fun e =>
          Keyed.find?_eq_none.1 hfree (e ▸ hk)⟩
      exact ⟨⟨c, hstay c hc, hcur⟩, fun x hx => ⟨hstay x (h.lastw x hx).1, (h.lastw x hx).2⟩, h.nodup⟩
    | ok w =>
      exact ⟨⟨c, by simpa [mem_keys_winlinkAdd hadd] using .inr hc, hcur⟩,
        fun x hx => ⟨by simpa [mem_keys_winlinkAdd hadd] using .inr (h.lastw x hx).1, (h.lastw x hx).2⟩,
        h.nodup⟩

/-- Detaching a window leaves a session valid or without windows. -/
theorem Session.Valid.detach {s : Session} (h : s.Valid) (wl : ℕ) :
    ∃ s' r, sessionDetach s wl = pure (s', r) ∧ (s'.windows.entries ≠ [] → s'.Valid) := by
  obtain ⟨s₁, hleave, h₁, hkeys, hne⟩ : ∃ s₁, leaveLink s wl = pure s₁ ∧ s₁.Valid ∧
      s₁.windows.keys = s.windows.keys ∧ ((∃ k ∈ s.windows.keys, k ≠ wl) → s₁.curw ≠ some wl) := by
    unfold leaveLink
    split_ifs with hcur
    · obtain ⟨s₁, hs₁, hvalid, hkeys, hne⟩ := h.leave
      exact ⟨s₁, hs₁, hvalid, hkeys, hne wl hcur⟩
    · exact ⟨s, rfl, h, rfl, fun _ => hcur⟩
  unfold sessionDetach
  rw [hleave, pure_bind]
  dsimp only
  split_ifs with hempty
  · exact ⟨_, _, rfl, fun hne => absurd hempty hne⟩
  · refine ⟨_, _, rfl, fun _ => ?_⟩
    obtain ⟨a, ha⟩ := List.exists_mem_of_ne_nil _ hempty
    obtain ⟨ha, hane⟩ := Keyed.mem_erase.1 ha
    have hcur := hne ⟨a.idx, hkeys ▸ List.mem_map_of_mem ha, hane⟩
    obtain ⟨c, hc, hcw⟩ := h₁.curw
    refine ⟨⟨c, Keyed.mem_keys_erase.2 ⟨hc, fun e => hcur (e ▸ hcw)⟩, hcw⟩, fun x hx => ?_, h₁.nodup.erase wl⟩
    obtain ⟨hxw, hx⟩ := (List.Nodup.mem_erase_iff h₁.nodup).1 hx
    exact ⟨Keyed.mem_keys_erase.2 ⟨(h₁.lastw x hx).1, hxw⟩, (h₁.lastw x hx).2⟩

/-! ## Runs -/

/-- The operations on a session, and what happens to its windows meanwhile. -/
inductive SessionOp
  | new (idx : ℤ) (w : Except String ℕ)
  | attach (w : ℕ) (idx : ℤ)
  | detach (wl : ℕ)
  | select (idx : ℕ)
  | next (alert : Bool)
  | previous (alert : Bool)
  | last
  /-- The flags of a link are set. -/
  | alert (wl : ℕ) (flags : BitVec 4)

/-- Do an operation. A link to be detached is one of the session, and a session without windows
    has been destroyed. -/
def sessionStep (s : Session) (op : SessionOp) : Exec Session :=
  if s.windows.entries = [] then pure s
  else
    match op with
    | .new idx w => pure (sessionNew s idx w).1
    | .attach w idx => pure (sessionAttach s w idx).1
    | .detach wl => if wl ∈ s.windows.keys then Prod.fst <$> sessionDetach s wl else pure s
    | .select idx => Prod.fst <$> sessionSelect s idx
    | .next alert => Prod.fst <$> sessionNext s alert
    | .previous alert => Prod.fst <$> sessionPrevious s alert
    | .last => pure (sessionLast s).1
    | .alert wl flags => pure { s with windows := updateLink s.windows wl fun l => { l with flags } }

/-- Create a session with a window, and run a sequence of operations on it. -/
def sessionRun (idx : ℤ) (w : ℕ) (ops : List SessionOp) : Exec Session := do
  let s ← sessionCreate idx (.ok w)
  let s ← Exec.follow s
  ops.foldlM sessionStep s

/-- An operation returns, and leaves a session valid or without windows. -/
theorem sessionStep_valid (s : Session) (op : SessionOp) (h : s.windows.entries ≠ [] → s.Valid) :
    ∃ s', sessionStep s op = pure s' ∧ (s'.windows.entries ≠ [] → s'.Valid) := by
  unfold sessionStep
  split_ifs with hempty
  · exact ⟨s, rfl, h⟩
  · replace h := h hempty
    cases op with
    | new idx w => exact ⟨_, rfl, fun _ => h.new idx w⟩
    | attach w idx => exact ⟨_, rfl, fun _ => h.attach w idx⟩
    | detach wl =>
      dsimp only
      split_ifs with hwl
      · obtain ⟨s', r, hdetach, hs'⟩ := h.detach wl
        exact ⟨s', by rw [hdetach, map_pure], hs'⟩
      · exact ⟨s, rfl, fun _ => h⟩
    | select idx =>
      dsimp only
      unfold sessionSelect winlinkFindByIndex
      rw [if_neg (by omega), pure_bind, Int.toNat_natCast]
      cases hfind : s.windows.find? idx with
      | none => exact ⟨s, rfl, fun _ => h⟩
      | some wl =>
        exact ⟨_, map_pure _ _, fun _ => (h.move (List.mem_map_of_mem (Keyed.find?_eq_some.1 hfind).1)).1⟩
    | next alert =>
      obtain ⟨s', r, hmove, hs', -⟩ := h.moveAlong (nextLink_mem s.windows alert)
      exact ⟨s', by dsimp only; rw [sessionNext, hmove, map_pure], fun _ => hs'⟩
    | previous alert =>
      obtain ⟨s', r, hmove, hs', -⟩ := h.moveAlong (previousLink_mem s.windows alert)
      exact ⟨s', by dsimp only; rw [sessionPrevious, hmove, map_pure], fun _ => hs'⟩
    | last =>
      refine ⟨_, rfl, fun _ => ?_⟩
      unfold sessionLast
      split
      · exact h
      · rename_i wl hwl
        exact (h.move (h.lastw wl (List.mem_of_mem_head? hwl)).1).1
    | alert wl flags =>
      refine ⟨_, rfl, fun _ => ⟨?_, ?_, h.nodup⟩⟩
      · simpa using h.curw
      · simpa using h.lastw

/-- A session created has its window current. -/
theorem sessionCreate_valid (idx : ℤ) (w : ℕ) :
    ∃ s, sessionCreate idx (.ok w) = pure (some s) ∧ s.Valid := by
  have hadd : ∃ i, winlinkAdd {} idx = some (Keyed.insert {} { idx := i } rfl, i) := by
    unfold winlinkAdd
    split_ifs
    · exact ⟨(-idx - 1).toNat, rfl⟩
    · exact ⟨idx.toNat, rfl⟩
  obtain ⟨i, hi⟩ := hadd
  set s : Session := { windows := winlinkSetWindow (Keyed.insert {} { idx := i } rfl) i w } with hs
  have hnew : sessionNew {} idx (.ok w) = (s, .ok i) := by
    unfold sessionNew
    rw [hi]
  have hentries : s.windows.entries = [{ idx := i, window := some w }] := by
    simp [hs, winlinkSetWindow, updateLink, Keyed.update, Keyed.insert, Keyed.insertSorted]
  have hkeys : s.windows.keys = [i] := by
    rw [Keyed.keys, hentries]
    rfl
  have hfind : s.windows.find? i = some { idx := i, window := some w } := by
    rw [Keyed.find?_eq_some, hentries]
    simp
  unfold sessionCreate
  rw [hnew]
  dsimp only
  rw [hentries, List.head?_cons, Exec.follow_some, pure_bind, sessionSelect, winlinkFindByIndex,
    if_neg (by omega), pure_bind, Int.toNat_natCast, hfind]
  refine ⟨_, rfl, ?_⟩
  unfold moveTo
  rw [if_neg (by simp [hs])]
  exact ⟨⟨i, by simp [hkeys], rfl⟩, by simp [hs, winlinkStackPush, winlinkStackRemove],
    by simp [hs, winlinkStackPush, winlinkStackRemove]⟩

/-- Whatever the run, every session that has windows left has one of them current, others at
    most once each on the stack, and no two windows at the same index. -/
theorem sessionRun_valid (idx : ℤ) (w : ℕ) (ops : List SessionOp) :
    ∃ s, sessionRun idx w ops = pure s ∧
      (s.windows.entries ≠ [] → s.Valid ∧ (s.windows.entries.map Winlink.idx).Nodup) := by
  obtain ⟨s₀, hcreate, h₀⟩ := sessionCreate_valid idx w
  obtain ⟨s, hrun, hs⟩ := Exec.foldlM_invariant (f := sessionStep)
    (I := fun s => s.windows.entries ≠ [] → s.Valid) (fun s op => sessionStep_valid s op) ops
    (fun _ => h₀)
  refine ⟨s, ?_, fun hne => ⟨hs hne, s.windows.nodup⟩⟩
  rw [sessionRun, hcreate, pure_bind, Exec.follow_some, pure_bind, hrun]

end Tmux
