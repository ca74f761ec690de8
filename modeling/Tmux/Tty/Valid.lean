import Tmux.Tty.KeyTree

/-!
# The keys that are given to the client

A key is *valid* (`ValidKey`) if it is a byte or one of the special keys, with modifiers or without. The
keys in a tree of key strings are, where strings end, as those of the table that it is made from are
(`keyTree_validKeys`).

Every key that is given to the client is valid except one: the key of a byte of 128 or more after an escape,
where no key string starts with it. That byte has a sign, which fills all other bits of the key
(`ttyHandle_valid_iff`, and over whole runs `ttyRun_valid_iff`).
-/

namespace Tmux

open Exec

/-- The modifiers of a key. -/
def keycMaskMod : KeyCode := 0x1e000

/-- The key without its modifiers is a byte, or one of the special keys. -/
def ValidKey (key : KeyCode) : Prop :=
  key &&& ~~~keycMaskMod ≤ 0xff ∨ (0x1000 ≤ key &&& ~~~keycMaskMod ∧ key &&& ~~~keycMaskMod ≤ 0x1030)

instance (key : KeyCode) : Decidable (ValidKey key) := inferInstanceAs (Decidable (_ ∨ _))

theorem ValidKey.or {key m : KeyCode} (h : ValidKey key) (hm : m &&& ~~~keycMaskMod = 0#32) : ValidKey (key ||| m) := by
  unfold ValidKey
  rw [BitVec.and_or_distrib_right, hm, BitVec.or_zero]
  exact h

theorem ValidKey.escape {key : KeyCode} (h : ValidKey key) : ValidKey (key ||| keycEscape) := h.or (by decide)

theorem xtermKeysModifiers_modifies (t buf : List UInt8) : xtermKeysModifiers t buf &&& ~~~keycMaskMod = 0#32 := by
  unfold xtermKeysModifiers
  split
  · rfl
  · dsimp only
    split_ifs <;> decide

theorem forall_byte {P : UInt8 → Prop} (h : ∀ n < 256, P (UInt8.ofNat n)) (c : UInt8) : P c := by
  have := h c.toNat c.toNat_lt
  rwa [UInt8.ofNat_toNat] at this

theorem plainKey_valid (bspace : Option UInt8) (ch : UInt8) : ValidKey (plainKey bspace ch) := by
  unfold plainKey
  split_ifs
  · decide
  · exact forall_byte (P := fun ch => ValidKey (BitVec.ofNat 32 ch.toNat)) (by decide +kernel) ch

/-- A byte after an escape is a valid key unless its sign is set. -/
theorem charKey_valid_iff (c : UInt8) : ValidKey (charKey c ||| keycEscape) ↔ c < 128 := by
  exact forall_byte (P := fun c => ValidKey (charKey c ||| keycEscape) ↔ c < 128) (by decide +kernel) c

/-! ## Trees of valid keys -/

/-- The keys in a tree are valid, and there is one where a string ends. -/
def TtyKey.ValidKeys (tree : TtyKey) : Prop :=
  ∀ s key longer, tree.node? s = some (key, longer) → ValidKey key ∨ (key = keycNone ∧ longer = true)

theorem TtyKey.ValidKeys.add {tree : TtyKey} {key : KeyCode} (h : tree.ValidKeys) (hkey : ValidKey key) (s : List UInt8) :
    (ttyKeysAdd tree s key).ValidKeys := by
  intro t k longer hnode
  unfold ttyKeysAdd at hnode
  cases hfind : ttyKeysFind tree s with
  | none =>
    rw [hfind] at hnode
    rcases eq_or_ne s [] with rfl | hs
    · cases tree <;> exact h t k longer hnode
    · dsimp only at hnode
      rw [ttyKeysAdd1_node? key tree hs] at hnode
      split_ifs at hnode with ht hts hprefix
      · obtain ⟨rfl, -⟩ := Prod.mk.inj (Option.some.inj hnode)
        exact .inl hkey
      · obtain ⟨rfl, rfl⟩ := Prod.mk.inj (Option.some.inj hnode)
        cases hold : tree.node? t with
        | none => exact .inr ⟨rfl, rfl⟩
        | some node => exact (h t node.1 node.2 hold).imp_right fun hnone => ⟨hnone.1, rfl⟩
      · exact h t k longer hnode
  | some found =>
    obtain ⟨k', longer', n⟩ := found
    obtain ⟨p, u, rfl, hstop, -⟩ := ttyKeysFind_iff.1 hfind
    rw [hfind] at hnode
    dsimp only at hnode
    rw [replaceKey_node? hstop] at hnode
    split_ifs at hnode
    · obtain ⟨rfl, -⟩ := Prod.mk.inj (Option.some.inj hnode)
      exact .inl hkey
    · exact h t k longer hnode

/-- A tree made from valid keys has valid keys. -/
theorem keyTree_validKeys {calls : List (List UInt8 × KeyCode)} (h : ∀ call ∈ calls, ValidKey call.2) :
    (keyTree calls).ValidKeys := by
  unfold keyTree
  refine List.foldlRecOn (motive := TtyKey.ValidKeys) calls _ (fun s key longer hnode => ?_) fun tree htree call hcall =>
    TtyKey.ValidKeys.add htree (h call hcall) call.1
  cases hnode

theorem TtyKey.ValidKeys.found {tree : TtyKey} (h : tree.ValidKeys) {s : List UInt8} {key : KeyCode} {longer : Bool}
    {n : ℕ} (hfind : ttyKeysFind tree s = some (key, longer, n)) : ValidKey key ∨ (key = keycNone ∧ longer = true) := by
  obtain ⟨p, u, -, hstop, -⟩ := ttyKeysFind_iff.1 hfind
  exact h p key longer hstop.1

/-! ## Calls -/

/-- A key that is given to the client is valid. -/
def GivesValid (r : TtyResult) : Prop := ∀ event, r.2.1 = some event → ValidKey event.key

variable {tty : Tty} {key : KeyCode}

theorem handleKey_none (tty : Tty) : GivesValid (handleKey tty keycNone) := by
  intro event h
  rw [handleKey, if_pos rfl] at h
  cases h

theorem handleKey_iff (hkey : key ≠ keycNone) : GivesValid (handleKey tty key) ↔ ValidKey key := by
  unfold GivesValid handleKey
  rw [if_neg hkey]
  refine ⟨fun h => h _ rfl, fun h event hevent => ?_⟩
  obtain rfl := Option.some.inj hevent
  exact h

theorem ValidKey.ne_none (h : ValidKey key) : key ≠ keycNone := by
  rintro rfl
  revert h
  decide

theorem handleKey_valid (h : ValidKey key) : GivesValid (handleKey tty key) := (handleKey_iff h.ne_none).2 h

theorem startTimer_valid (tty : Tty) : GivesValid (startTimer tty) := by
  unfold startTimer GivesValid
  all_goals
    intro event h
    split_ifs at h

theorem unknownKey_valid (tty : Tty) : GivesValid (unknownKey tty) := by
  unfold unknownKey
  split_ifs
  · exact handleKey_valid (by decide)
  · exact startTimer_valid tty

/-- A key string is found with a valid key, or there are longer ones. -/
theorem foundKey_valid {nodeKey : KeyCode} {longer : Bool} {size : ℕ}
    (h : ValidKey key ∨ (nodeKey = keycNone ∧ longer = true)) : GivesValid (foundKey tty nodeKey longer key size) := by
  unfold foundKey
  split_ifs with hlonger hescape hnone
  · exact startTimer_valid tty
  · exact unknownKey_valid tty
  · exact handleKey_valid (h.resolve_right fun hnode => hnone hnode.1)
  · exact handleKey_valid (h.resolve_right fun hnode => hlonger hnode.2)

/-- After an escape there is a byte of 128 or more, with which no key string starts. -/
def Tty.SignedByte (tty : Tty) : Prop :=
  ∃ c buf, tty.input = 27 :: c :: buf ∧ 128 ≤ c ∧ ttyKeysFind tty.keyTree (c :: buf) = none

theorem charKey_ne_none (c : UInt8) : charKey c ||| keycEscape ≠ keycNone := by
  exact forall_byte (P := fun c => charKey c ||| keycEscape ≠ keycNone) (by decide +kernel) c

theorem stringKey_iff {buf : List UInt8} (htree : tty.keyTree.ValidKeys) (hinput : tty.input = 27 :: buf) :
    GivesValid (stringKey tty) ↔ ¬ tty.SignedByte := by
  unfold stringKey
  rw [hinput, List.tail_cons]
  cases hfind : ttyKeysFind tty.keyTree buf with
  | some found =>
    obtain ⟨key, longer, size⟩ := found
    refine iff_of_true (foundKey_valid (htree.found hfind)) ?_
    rintro ⟨c, buf', hinput', -, hnone⟩
    obtain rfl := (List.cons.inj (hinput.symm.trans hinput')).2
    rw [hfind] at hnone
    exact Option.some_ne_none _ hnone
  | none =>
    rcases buf with _ | ⟨c, buf⟩
    · refine iff_of_true (unknownKey_valid tty) ?_
      rintro ⟨c, buf', hinput', -⟩
      exact List.cons_ne_nil _ _ (List.cons.inj (hinput.symm.trans hinput')).2.symm
    dsimp only
    split_ifs with hescape hbuf
    · rw [handleKey_iff (charKey_ne_none c), charKey_valid_iff]
      constructor
      · rintro hc ⟨c', buf', hinput', hc', -⟩
        obtain ⟨rfl, -⟩ := List.cons.inj (List.cons.inj (hinput.symm.trans hinput')).2
        exact absurd hc (UInt8.not_lt.2 hc')
      · intro h
        by_contra hc
        exact h ⟨c, buf, hinput, UInt8.not_lt.1 hc, hfind⟩
    · refine iff_of_true (unknownKey_valid tty) ?_
      rintro ⟨c', buf', hinput', hc', -⟩
      obtain ⟨rfl, -⟩ := List.cons.inj (List.cons.inj (hinput.symm.trans hinput')).2
      rw [not_not.1 hescape] at hc'
      exact absurd hc' (by decide)
    · have hsigned : ¬ tty.SignedByte := by
        rintro ⟨c', buf', hinput', hc', -⟩
        obtain ⟨rfl, -⟩ := List.cons.inj (List.cons.inj (hinput.symm.trans hinput')).2
        rw [not_not.1 hescape] at hc'
        exact absurd hc' (by decide)
      cases hfind' : ttyKeysFind tty.keyTree buf with
      | none => exact iff_of_true (unknownKey_valid tty) hsigned
      | some found =>
        obtain ⟨key, longer, size⟩ := found
        exact iff_of_true (foundKey_valid ((htree.found hfind').imp_left ValidKey.escape)) hsigned

/-! ## Sequences -/

theorem reportStart_no {third : UInt8 → Bool} {c : UInt8} {buf : List UInt8} (hc : c ≠ 91) :
    reportStart third (27 :: c :: buf) = .no := by
  unfold reportStart
  dsimp only
  rw [if_neg (by decide), if_pos hc]

/-- The keys of xterm start with an escape and one of two bytes. -/
def startsXterm (template : List UInt8) : Bool := template.take 2 = [27, 91] || template.take 2 = [27, 79]

theorem matchFrom_no {c : UInt8} {buf template : List UInt8} (past : UInt8) (h : startsXterm template = true)
    (hc : c ≠ 91 ∧ c ≠ 79) : matchFrom past template (27 :: c :: buf) = .no := by
  rcases template with _ | ⟨a, _ | ⟨d, template⟩⟩
  · simp [startsXterm] at h
  · simp [startsXterm] at h
  · simp only [startsXterm, List.take_succ_cons, List.take_zero, List.cons.injEq, Bool.or_eq_true, decide_eq_true_eq,
      and_true] at h
    rw [matchFrom, if_neg (by grind), matchFrom, if_pos]
    rcases h with ⟨-, rfl⟩ | ⟨-, rfl⟩
    · exact ⟨by decide, hc.1⟩
    · exact ⟨by decide, hc.2⟩

theorem xtermKeysFindIn_no {c : UInt8} {buf : List UInt8} (past : UInt8) {table : List XtermKeysEntry}
    (htable : ∀ entry ∈ table, startsXterm entry.template = true) (hc : c ≠ 91 ∧ c ≠ 79) :
    xtermKeysFindIn (27 :: c :: buf) past table = .no := by
  induction table with
  | nil => rfl
  | cons entry table ih =>
    rw [xtermKeysFindIn, xtermKeysMatch, if_neg (by simp), matchFrom_no past (htable entry List.mem_cons_self) hc]
    exact ih fun entry hentry => htable entry (List.mem_cons_of_mem _ hentry)

theorem xtermKeysTable_starts : ∀ entry ∈ xtermKeysTable, startsXterm entry.template = true := by
  decide +kernel

theorem xtermKeysFindIn_valid {buf : List UInt8} {past : UInt8} {table : List XtermKeysEntry} {size : ℕ}
    (htable : ∀ entry ∈ table, ValidKey entry.key) (h : xtermKeysFindIn buf past table = .found (size, key)) :
    ValidKey key := by
  induction table with
  | nil => cases h
  | cons entry table ih =>
    rw [xtermKeysFindIn] at h
    split at h
    · obtain ⟨-, rfl⟩ := Prod.mk.inj (Answer.found.inj h)
      exact (htable entry List.mem_cons_self).or (xtermKeysModifiers_modifies _ _)
    · cases h
    · exact ih (fun entry hentry => htable entry (List.mem_cons_of_mem _ hentry)) h

theorem xtermKeysTable_valid : ∀ entry ∈ xtermKeysTable, ValidKey entry.key := by
  decide +kernel

theorem startTimer_settings (tty : Tty) : (startTimer tty).1.toTtySettings = tty.toTtySettings := by
  unfold startTimer
  split_ifs <;> rfl

theorem unknownKey_settings (tty : Tty) : (unknownKey tty).1.toTtySettings = tty.toTtySettings := by
  unfold unknownKey
  split_ifs
  · rfl
  · exact startTimer_settings tty

theorem foundKey_settings (tty : Tty) (nodeKey : KeyCode) (longer : Bool) (key : KeyCode) (size : ℕ) :
    (foundKey tty nodeKey longer key size).1.toTtySettings = tty.toTtySettings := by
  unfold foundKey
  split_ifs
  · exact startTimer_settings tty
  · exact unknownKey_settings tty
  · rfl
  · rfl

theorem stringKey_settings (tty : Tty) : (stringKey tty).1.toTtySettings = tty.toTtySettings := by
  unfold stringKey
  split
  · exact foundKey_settings ..
  · split
    · exact unknownKey_settings tty
    · split_ifs
      · rfl
      · exact unknownKey_settings tty
      · split
        · exact foundKey_settings ..
        · exact unknownKey_settings tty

theorem ttySetVersion_settings (tty : Tty) (version : Option ℕ) :
    ((version.filter (· < 500)).elim tty (ttySetVersion tty)).toTtySettings = tty.toTtySettings := by
  cases version.filter (· < 500) with
  | none => rfl
  | some version =>
    show (ttySetVersion tty version).toTtySettings = _
    unfold ttySetVersion
    split_ifs <;> rfl

/-- A signed byte is in no sequence. -/
theorem escapeKey_signed (h : tty.SignedByte) (past : UInt8) : escapeKey tty past = pure (stringKey tty) := by
  obtain ⟨c, buf, hinput, hc, -⟩ := h
  have hne : c ≠ 91 ∧ c ≠ 79 := by
    constructor <;> rintro rfl <;> exact absurd hc (by decide)
  have hdevice : ttyKeysDevice tty.input past = .no := by
    rw [hinput, ttyKeysDevice, reportStart_no hne.1]
  have hmouse : ttyKeysMouse tty.mouseUtf8 tty.mouse tty.input past = pure (tty.mouse, .no) := by
    rw [hinput, ttyKeysMouse, reportStart_no hne.1]
  have hxterm : xtermKeysFind tty.input past = .no := by
    rw [hinput]
    exact xtermKeysFindIn_no past xtermKeysTable_starts hne
  rw [escapeKey, hdevice]
  dsimp only
  rw [hmouse, pure_bind]
  dsimp only
  rw [hxterm]

/-- A sequence that is recognised gives a valid key or none, and what is not goes on to the key strings. -/
theorem escapeKey_meets {buf : List UInt8} (htree : tty.keyTree.ValidKeys) (hinput : tty.input = 27 :: buf)
    (past : UInt8) : Meets .all (fun r => (GivesValid r ↔ ¬ tty.SignedByte) ∧ r.1.toTtySettings = tty.toTtySettings)
      (escapeKey tty past) := by
  by_cases hsigned : tty.SignedByte
  · rw [escapeKey_signed hsigned]
    exact .pure ⟨stringKey_iff htree hinput, stringKey_settings tty⟩
  · have hvalid : ∀ r : TtyResult, GivesValid r → (GivesValid r ↔ ¬ tty.SignedByte) := fun r hr => iff_of_true hr hsigned
    unfold escapeKey
    split
    · exact .pure ⟨hvalid _ (handleKey_none _), ttySetVersion_settings ..⟩
    · exact .pure ⟨hvalid _ (unknownKey_valid tty), unknownKey_settings tty⟩
    · refine (meets_all _).bind fun r _ => ?_
      obtain ⟨mouse, answer⟩ := r
      dsimp only
      cases answer with
      | found size => exact .pure ⟨hvalid _ (handleKey_valid (by decide)), rfl⟩
      | more => exact .pure ⟨hvalid _ (unknownKey_valid _), unknownKey_settings _⟩
      | no =>
        dsimp only
        cases hxterm : xtermKeysFind tty.input past with
        | found r =>
          exact .pure ⟨hvalid _ (handleKey_valid (xtermKeysFindIn_valid xtermKeysTable_valid hxterm)), rfl⟩
        | more => exact .pure ⟨hvalid _ (unknownKey_valid _), unknownKey_settings _⟩
        | no =>
          have hstring := @stringKey_iff { tty with mouse } _ htree hinput
          exact .pure ⟨hstring, stringKey_settings _⟩

/-- A call gives a valid key or none exactly if there is no signed byte after an escape. -/
theorem ttyKeysNext_meets (htree : tty.keyTree.ValidKeys) (past : UInt8) :
    Meets .all (fun r => (GivesValid r ↔ ¬ tty.SignedByte) ∧ r.1.toTtySettings = tty.toTtySettings)
      (ttyKeysNext tty past) := by
  have hsigned : ∀ {ch : UInt8} {buf : List UInt8}, tty.input = ch :: buf → ch ≠ 27 → ¬ tty.SignedByte := by
    rintro ch buf hinput hch ⟨c, buf', hinput', -⟩
    exact hch (List.cons.inj (hinput.symm.trans hinput')).1
  unfold ttyKeysNext
  split
  · rename_i hnil
    refine .pure ⟨iff_of_true (fun event h => ?_) ?_, rfl⟩
    · cases h
    · rintro ⟨c, buf, hinput, -⟩
      exact List.cons_ne_nil _ _ (hnil.symm.trans hinput).symm
  · rename_i ch buf hinput
    split_ifs with hch
    · exact .pure ⟨iff_of_true (handleKey_valid (plainKey_valid _ _)) (hsigned hinput hch), rfl⟩
    · obtain rfl := not_not.1 hch
      exact escapeKey_meets htree hinput past

/-! ## Runs -/

/-- What happens to a terminal: something is read, or the timer expires. -/
inductive TtyInput
  | read (r : TtyRead)
  | expire (past : UInt8)

/-- Handle what happens. An expired timer ends the wait for the rest of a sequence. -/
def ttyHandle (tty : Tty) : TtyInput → Exec (Tty × List TtyEvent)
  | .read r => ttyReadCallback tty r
  | .expire past =>
    if tty.keyTimer ≠ .pending then pure (tty, [])
    else if !tty.escape then pure ({ tty with keyTimer := .idle }, [])
    else ttyKeysLoop past (tty.input.length + 1) { tty with keyTimer := .idle }

/-- Handle what happens, one thing after the other. -/
def ttyRun : Tty → List TtyInput → Exec (Tty × List TtyEvent)
  | tty, [] => pure (tty, [])
  | tty, i :: is => do
    let (tty, events) ← ttyHandle tty i
    let (tty, events') ← ttyRun tty is
    pure (tty, events ++ events')

/-- No call of a loop finds a signed byte after an escape. -/
def CallsUnsigned (past : UInt8) : ℕ → Tty → Prop
  | 0, _ => True
  | n + 1, tty => ¬ tty.SignedByte ∧ ∀ r ∈ (ttyKeysNext tty past).value?, r.2.2 = true → CallsUnsigned past n r.1

/-- No call for something that happens finds a signed byte after an escape. -/
def InputUnsigned (tty : Tty) : TtyInput → Prop
  | .read r => CallsUnsigned r.past ((tty.input ++ r.data).length + 1) { tty with input := tty.input ++ r.data }
  | .expire past =>
    tty.keyTimer = .pending → tty.escape = true →
      CallsUnsigned past (tty.input.length + 1) { tty with keyTimer := .idle }

/-- No call of a run finds a signed byte after an escape. -/
def RunUnsigned : Tty → List TtyInput → Prop
  | _, [] => True
  | tty, i :: is => InputUnsigned tty i ∧ ∀ r ∈ (ttyHandle tty i).value?, RunUnsigned r.1 is

/-- The keys of a number of events are valid. -/
def AllValid (events : List TtyEvent) : Prop := ∀ event ∈ events, ValidKey event.key

theorem allValid_append {events events' : List TtyEvent} :
    AllValid (events ++ events') ↔ AllValid events ∧ AllValid events' := by
  exact List.forall_mem_append

theorem allValid_toList {r : TtyResult} : AllValid r.2.1.toList ↔ GivesValid r := by
  unfold AllValid GivesValid
  simp only [Option.mem_toList]

theorem ttyKeysLoop_valid_iff {past : UInt8} {n : ℕ} {tty' : Tty} {events : List TtyEvent} (htree : tty.keyTree.ValidKeys)
    (h : (ttyKeysLoop past n tty).value? = some (tty', events)) :
    (AllValid events ↔ CallsUnsigned past n tty) ∧ tty'.toTtySettings = tty.toTtySettings := by
  induction n generalizing tty tty' events with
  | zero =>
    obtain ⟨rfl, rfl⟩ := Prod.mk.inj (Option.some.inj h)
    exact ⟨iff_of_true (fun event hevent => absurd hevent List.not_mem_nil) trivial, rfl⟩
  | succ n ih =>
    rw [ttyKeysLoop] at h
    obtain ⟨r, hr, h⟩ := value?_bind.1 h
    obtain ⟨hvalid, hsettings⟩ := (ttyKeysNext_meets htree past).value hr
    have hcalls : CallsUnsigned past (n + 1) tty ↔ ¬ tty.SignedByte ∧ (r.2.2 = true → CallsUnsigned past n r.1) := by
      rw [CallsUnsigned, hr]
      simp
    dsimp only at h
    rw [hcalls, ← hvalid]
    split_ifs at h with hmore
    · obtain ⟨r', hr', h⟩ := value?_bind.1 h
      obtain ⟨rfl, rfl⟩ := Prod.mk.inj (Option.some.inj h)
      have htree' : r.1.keyTree.ValidKeys := by rwa [congrArg TtySettings.keyTree hsettings]
      obtain ⟨hvalid', hsettings'⟩ := ih htree' hr'
      rw [allValid_append, allValid_toList, hvalid']
      exact ⟨and_congr_right fun _ => ⟨fun hcalls _ => hcalls, fun hcalls => hcalls hmore⟩, hsettings'.trans hsettings⟩
    · obtain ⟨rfl, rfl⟩ := Prod.mk.inj (Option.some.inj h)
      rw [allValid_toList]
      exact ⟨⟨fun hgives => ⟨hgives, fun h => absurd h hmore⟩, fun hgives => hgives.1⟩, hsettings⟩

theorem ttyHandle_valid_iff {i : TtyInput} {tty' : Tty} {events : List TtyEvent} (htree : tty.keyTree.ValidKeys)
    (h : (ttyHandle tty i).value? = some (tty', events)) :
    (AllValid events ↔ InputUnsigned tty i) ∧ tty'.toTtySettings = tty.toTtySettings := by
  have hnil : AllValid [] := fun event hevent => absurd hevent List.not_mem_nil
  cases i with
  | read r => exact @ttyKeysLoop_valid_iff { tty with input := tty.input ++ r.data } _ _ _ _ htree h
  | expire past =>
    unfold ttyHandle at h
    split_ifs at h with hpending hescape
    · obtain ⟨rfl, rfl⟩ := Prod.mk.inj (Option.some.inj h)
      exact ⟨iff_of_true hnil fun hp => absurd hp hpending, rfl⟩
    · obtain ⟨rfl, rfl⟩ := Prod.mk.inj (Option.some.inj h)
      exact ⟨iff_of_true hnil fun _ he => by simp [he] at hescape, rfl⟩
    · obtain ⟨hvalid, hsettings⟩ := @ttyKeysLoop_valid_iff { tty with keyTimer := .idle } _ _ _ _ htree h
      refine ⟨hvalid.trans ⟨fun hcalls _ _ => hcalls, fun hcalls => hcalls (not_not.1 hpending) ?_⟩, hsettings⟩
      simpa using hescape

theorem ttyRun_valid_iff {is : List TtyInput} {tty' : Tty} {events : List TtyEvent} (htree : tty.keyTree.ValidKeys)
    (h : (ttyRun tty is).value? = some (tty', events)) : AllValid events ↔ RunUnsigned tty is := by
  induction is generalizing tty tty' events with
  | nil =>
    obtain ⟨rfl, rfl⟩ := Prod.mk.inj (Option.some.inj h)
    exact iff_of_true (fun event hevent => absurd hevent List.not_mem_nil) trivial
  | cons i is ih =>
    rw [ttyRun] at h
    obtain ⟨r, hr, h⟩ := value?_bind.1 h
    obtain ⟨r', hr', h⟩ := value?_bind.1 h
    obtain ⟨rfl, rfl⟩ := Prod.mk.inj (Option.some.inj h)
    obtain ⟨hvalid, hsettings⟩ := ttyHandle_valid_iff htree hr
    have htree' : r.1.keyTree.ValidKeys := by rwa [congrArg TtySettings.keyTree hsettings]
    rw [allValid_append, hvalid, ih htree' hr', RunUnsigned, hr]
    simp

/-- With a tree made from valid keys, a call gives the client a valid key or none exactly if there is no
    byte of 128 or more after an escape with which no key string starts. And all keys that a run gives are
    valid exactly if no call of it finds such a byte. -/
theorem ttyKeys_valid_iff {calls : List (List UInt8 × KeyCode)} (hcalls : ∀ call ∈ calls, ValidKey call.2) {tty : Tty}
    (htree : tty.keyTree = keyTree calls) :
    (∀ past, Meets .all GivesValid (ttyKeysNext tty past) ↔ ¬ tty.SignedByte) ∧
    ∀ is tty' events, (ttyRun tty is).value? = some (tty', events) → (AllValid events ↔ RunUnsigned tty is) := by
  have hvalid : tty.keyTree.ValidKeys := by
    rw [htree]
    exact keyTree_validKeys hcalls
  refine ⟨fun past => ⟨fun h hsigned => ?_, fun h => ?_⟩, fun is tty' events => ttyRun_valid_iff hvalid⟩
  · obtain ⟨c, buf, hinput, -⟩ := id hsigned
    have hnext : ttyKeysNext tty past = pure (stringKey tty) := by
      rw [← escapeKey_signed hsigned past, ttyKeysNext, hinput]
      exact if_neg (not_not.2 rfl)
    rw [hnext] at h
    exact (stringKey_iff hvalid hinput).1 (h.value rfl) hsigned
  · exact (ttyKeysNext_meets hvalid past).mono fun r hr => hr.1.2 h

/-- A terminal with a key string for the up key, which reads the byte 233 after an escape. -/
def metaTty : Tty := { keyTree := keyTree [([91, 65], keycUp)], input := [27, 233] }

/-- The key string of the up key gives a valid key. -/
theorem upTty_valid :
    Meets .all GivesValid (ttyKeysNext { metaTty with input := [27, 91, 65] } 0) := by
  have hcalls : ∀ call ∈ [(([91, 65] : List UInt8), keycUp)], ValidKey call.2 := List.forall_mem_singleton.2 (by decide)
  have htree : { metaTty with input := [27, 91, 65] }.keyTree = keyTree [([91, 65], keycUp)] := rfl
  refine ((ttyKeys_valid_iff hcalls htree).1 0).2 ?_
  rintro ⟨c, buf, hinput, hc, -⟩
  obtain ⟨rfl, -⟩ := List.cons.inj (List.cons.inj hinput).2
  exact absurd hc (by decide)

/-- The key for it has all bits above those of the byte set. -/
theorem metaTty_not_valid : ttyKeysNext metaTty 0 = pure ({ metaTty with input := [] }, some { key := 0xffffffe9 }, true) ∧
    ¬ Meets .all GivesValid (ttyKeysNext metaTty 0) := by
  have h : ttyKeysNext metaTty 0 = pure ({ metaTty with input := [] }, some { key := 0xffffffe9 }, true) := by
    decide +kernel
  refine ⟨h, fun hvalid => ?_⟩
  rw [h] at hvalid
  exact absurd (hvalid.value rfl _ rfl) (by decide)

end Tmux
