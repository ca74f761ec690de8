import Mathlib.Data.List.ReduceOption
import Tmux.Tty.Recognised

/-!
# Reads that are split

Before the timer expires, a call handles the next key of all that is read, or waits
(`ttyKeysNext_decode`), if the buffer is cut well (`Tty.CutWell`): where the start of a reply, a report or a
key is in the buffer, the byte in memory past it does not change what it is taken for, and no
key string that a longer one starts with is there while an escape is waited for.

If all calls find the buffer cut well, the keys that are handled and the bytes left do not depend on how
what is read is split (`ttyReads_split`).
-/

namespace Tmux

open Recogniser

variable {past : UInt8}

/-! ## Cuts -/

/-- The key of the string in the buffer that a longer one of the tree starts with. -/
def openString (tree : TtyKey) (input : List UInt8) : Option KeyCode :=
  match ttyKeysFind tree input.tail with
  | some (key, longer, _) => if longer then some key else none
  | none => match input.tail with
    | [] => none
    | c :: buf =>
      if c ≠ 27 then none else (ttyKeysFind tree buf).bind fun (key, longer, _) => if longer then some key else none

/-- A key of xterm is given up: there is none, or the byte past the buffer does not go on with it. -/
def XtermGivenUp (input : List UInt8) (past : UInt8) : Prop :=
  xtermKey input = .no ∨ xtermKey input = .more ∧ ¬ XtermGoesOn xtermKeysTable input past

instance (input : List UInt8) (past : UInt8) : Decidable (XtermGivenUp input past) := by
  unfold XtermGivenUp
  infer_instance

/-- The byte past the buffer does not change what the start of something in it is taken for, given the bytes
    that are still to be read, and no string is taken for a key while a longer one may be there. -/
structure Tty.CutWell (tty : Tty) (past : UInt8) (future : List UInt8) : Prop where
  /-- It does not end a reply. -/
  device : deviceReply tty.input = .more → 4 ≤ tty.input.length → past ≠ 99
  /-- It does not finish a mouse report, and the report is not given up for it unless it is none. -/
  mouse : mouseReport tty.mouseUtf8 tty.input = .more → 4 ≤ tty.input.length →
    mouseReport tty.mouseUtf8 (tty.input ++ [past]) = .more ∨
      mouseReport tty.mouseUtf8 (tty.input ++ [past]) = .no ∧ mouseReport tty.mouseUtf8 (tty.input ++ future) = .no
  /-- A key of xterm is not given up for it unless it is none, or a longer key string may be there. -/
  xterm : deviceReply tty.input = .no → MouseGivenUp tty.mouseUtf8 tty.input past → xtermKey tty.input = .more →
    ¬ XtermGoesOn xtermKeysTable tty.input past →
    xtermKeyEnd (tty.input ++ future) = .no ∨ (ttyKeysFind tty.keyTree tty.input.tail).any (·.2.1) = true
  /-- A key of xterm is not waited for in vain after all is read, unless its modifiers are next. -/
  xtermEnd : deviceReply tty.input = .no → MouseGivenUp tty.mouseUtf8 tty.input past → xtermKey tty.input = .more →
    XtermGoesOn xtermKeysTable tty.input past → future = [] → AwaitsModifiers tty.input
  /-- While an escape is waited for, no key string is there that is the start of a longer one. -/
  string : deviceReply tty.input = .no → MouseGivenUp tty.mouseUtf8 tty.input past → XtermGivenUp tty.input past →
    tty.escape = true → (openString tty.keyTree tty.input).all (· = keycNone) = true

instance (tty : Tty) (past : UInt8) (future : List UInt8) : Decidable (tty.CutWell past future) :=
  @decidable_of_iff _ (_ ∧ _ ∧ _ ∧ _ ∧ _)
    ⟨fun ⟨device, mouse, xterm, xtermEnd, string⟩ => ⟨device, mouse, xterm, xtermEnd, string⟩,
      fun h => ⟨h.device, h.mouse, h.xterm, h.xtermEnd, h.string⟩⟩
    (@instDecidableAnd _ _ inferInstance (@instDecidableAnd _ _ inferInstance
      (@instDecidableAnd _ _ inferInstance (@instDecidableAnd _ _ inferInstance inferInstance))))

/-! ## One call -/

/-- The settings are the same, and the timer has not expired. -/
structure Tty.Steady (tty tty' : Tty) : Prop where
  settings : tty'.toTtySettings = tty.toTtySettings
  timer : tty'.escape = true → tty'.keyTimer = .pending

/-- What a call does where a key is recognised or not. -/
def Tty.Handles (tty : Tty) (r : TtyResult) : Answer (Option TtyEvent × List UInt8) → Prop
  | .found (event, rest) => r.2 = (event, true) ∧ r.1.input = rest ∧ tty.Steady r.1
  | _ => r.2 = (none, false) ∧ r.1.input = tty.input ∧ tty.Steady r.1

variable {tty tty' : Tty}

theorem Tty.Steady.refl (h : tty.escape = true → tty.keyTimer = .pending) : tty.Steady tty := ⟨rfl, h⟩

theorem Tty.Steady.trans {tty'' : Tty} (h : tty.Steady tty') (h' : tty'.Steady tty'') : tty.Steady tty'' :=
  ⟨h'.settings.trans h.settings, h'.timer⟩

/-- Handing over a key that is not the mouse. -/
theorem handleKey_handles (h : tty.Steady tty') (hinput : tty'.input = tty.input) {key : KeyCode}
    (hkey : key ≠ keycMouse) {size : ℕ} {rest : List UInt8} (hrest : tty.input.drop size = rest) :
    tty.Handles (handleKey (tty'.drain size) key) (.found (keyEvent key, rest)) := by
  refine ⟨?_, ?_, h.settings, nofun⟩
  · rw [handleKey, keyEvent, if_neg hkey]
  · rw [handleKey, Tty.drain, hinput]
    exact hrest

theorem unknownKey_handles (h : tty.Steady tty') (hinput : tty'.input = tty.input) :
    tty.Handles (unknownKey tty') .more := by
  have htimer := h.timer
  unfold unknownKey startTimer
  rw [if_neg fun hexpired => by rw [htimer hexpired.1] at hexpired; exact nomatch hexpired.2]
  split_ifs with hpending
  · exact ⟨rfl, hinput, h⟩
  · exact ⟨rfl, hinput, h.settings, fun _ => rfl⟩

/-- A string that a longer one starts with is waited for. -/
theorem foundKey_waits (h : tty.Steady tty') (hinput : tty'.input = tty.input) {nodeKey key : KeyCode} {size : ℕ}
    (hkey : tty'.escape = true → nodeKey = keycNone) :
    tty.Handles (foundKey tty' nodeKey true key size) .more := by
  have hunknown := unknownKey_handles h hinput
  unfold foundKey
  rw [if_pos rfl]
  cases hescape : tty'.escape with
  | false =>
    rw [if_pos (by decide : (!false) = true)]
    unfold unknownKey at hunknown
    rwa [if_neg (by simp [hescape])] at hunknown
  | true => rwa [if_neg nofun, if_pos (hkey hescape)]

theorem or_escape_ne_mouse (key : KeyCode) : key ||| keycEscape ≠ keycMouse := by
  intro h
  have hbit := congrArg (fun k : KeyCode => k.getLsbD 13) h
  simp [keycEscape, keycMouse] at hbit

theorem plainKey_ne_mouse (bspace : Option UInt8) (ch : UInt8) : plainKey bspace ch ≠ keycMouse := by
  unfold plainKey
  split_ifs
  · decide
  · intro h
    have hnat := congrArg BitVec.toNat h
    have hlt := ch.toNat_lt
    rw [BitVec.toNat_ofNat, Nat.mod_eq_of_lt (by omega)] at hnat
    rw [hnat] at hlt
    exact absurd hlt (by decide)

theorem xtermKeysModifiers_mask (t buf : List UInt8) : xtermKeysModifiers t buf &&& 0x1fff = 0#32 := by
  unfold xtermKeysModifiers
  split
  · rfl
  · dsimp only
    split_ifs <;> decide

theorem xtermKeyIn_key {table : List XtermKeysEntry} {p rest : List UInt8} {key : KeyCode}
    (h : xtermKeyIn table p = .found (key, rest)) :
    ∃ entry ∈ table, ∃ bs, key = entry.key ||| xtermKeysModifiers entry.template bs := by
  induction table with
  | nil => cases h
  | cons entry table ih =>
    cases hr : template entry.template p with
    | no =>
      rw [xtermKeyIn, orElse_no (andThen_no hr)] at h
      exact (ih h).imp fun _ hentry => ⟨List.mem_cons_of_mem _ hentry.1, hentry.2⟩
    | more =>
      rw [xtermKeyIn, orElse_more (andThen_more hr)] at h
      cases h
    | found r =>
      rw [xtermKeyIn, orElse_found (andThen_found hr)] at h
      exact ⟨entry, List.mem_cons_self, r.1, (Prod.mk.inj (Answer.found.inj h)).1.symm⟩

theorem xtermKey_ne_mouse {p rest : List UInt8} {key : KeyCode} (h : xtermKey p = .found (key, rest)) :
    key ≠ keycMouse := by
  obtain ⟨entry, hentry, bs, rfl⟩ := xtermKeyIn_key h
  intro hmouse
  have hmask := congrArg (· &&& 0x1fff) hmouse
  have htable : ∀ entry ∈ xtermKeysTable, entry.key &&& 0x1fff ≠ keycMouse &&& 0x1fff := by decide +kernel
  simp only [BitVec.and_or_distrib_right, xtermKeysModifiers_mask, BitVec.or_zero] at hmask
  exact htable entry hentry hmask

/-! ## Key strings -/

theorem byte_cons (b : UInt8) (p : List UInt8) : byte b (b :: p) = .found ((), p) := by
  rw [byte, item, if_pos rfl]

theorem escapeString_cons (tree : TtyKey) (p : List UInt8) : escapeString tree (27 :: p) = keyString tree p := by
  rw [escapeString, andThen_found (byte_cons 27 p)]

theorem keyString_nil (tree : TtyKey) (r : KeyCode × List UInt8) : keyString tree [] ≠ .found r := by
  cases tree <;> exact nofun

/-- A key string is waited for where a longer one is found. -/
theorem decodeString_more {tree : TtyKey} {p : List UInt8} (hkeyed : tree.Keyed)
    (h : (ttyKeysFind tree p).any (·.2.1) = true) : decodeString tree (27 :: p) = .more := by
  obtain ⟨⟨key, longer, n⟩, hfind, hlonger⟩ := (Option.any_eq_true _ _).1 h
  obtain rfl : longer = true := hlonger
  have hp : p ≠ [] := by
    rintro rfl
    cases hfind
  have heq := ttyKeysFind_eq hkeyed hp
  rw [hfind] at heq
  cases hstring : keyString tree p with
  | more => rw [decodeString, orElse_more (andThen_more (by rw [escapeString_cons, hstring]))]
  | no =>
    rw [hstring] at heq
    cases heq
  | found r =>
    rw [hstring] at heq
    obtain ⟨n, heq, -⟩ := heq
    cases heq

theorem of_all_none {o : Option KeyCode} (h : o.all (· = keycNone) = true) : ∀ key ∈ o, key = keycNone := by
  rintro key rfl
  simpa using h

/-- A key string is looked for as it is recognised. -/
theorem stringKey_handles (hkeyed : tty.keyTree.Keyed) (h : tty.Steady tty') (hinput : tty'.input = tty.input)
    {p : List UInt8} (hp : tty.input = 27 :: p) (hne : p ≠ [])
    (hopen : tty'.escape = true → ∀ key ∈ openString tty.keyTree tty.input, key = keycNone) :
    tty.Handles (stringKey tty') (decodeString tty.keyTree tty.input) := by
  have htree : tty'.keyTree = tty.keyTree := congrArg TtySettings.keyTree h.settings
  have hfind := ttyKeysFind_eq hkeyed hne
  have hunknown := unknownKey_handles h hinput
  rw [openString, hp, List.tail_cons] at hopen
  rw [stringKey, hinput, hp, List.tail_cons, htree, decodeString]
  cases hstring : keyString tty.keyTree p with
  | found r =>
    rw [hstring] at hfind
    obtain ⟨n, hfind, hdrop, hkey⟩ := hfind
    rw [hfind, orElse_found (andThen_found (by rw [escapeString_cons, hstring]))]
    exact handleKey_handles h hinput hkey (by rw [hp]; exact hdrop)
  | more =>
    rw [hstring] at hfind
    obtain ⟨key, n, hfind⟩ := hfind
    rw [hfind] at hopen ⊢
    rw [orElse_more (andThen_more (by rw [escapeString_cons, hstring]))]
    exact foundKey_waits h hinput fun hescape => hopen hescape key rfl
  | no =>
    rw [hstring] at hfind
    dsimp only at hfind
    rw [hfind] at hopen ⊢
    rw [orElse_no (andThen_no (by rw [escapeString_cons, hstring]))]
    obtain ⟨c, buf, rfl⟩ := List.exists_cons_of_ne_nil hne
    dsimp only at hopen ⊢
    by_cases hc : c = 27
    · subst hc
      rw [if_neg (by simp)] at hopen ⊢
      rw [orElse_no (by rw [andThen_found (byte_cons 27 _), item, if_pos rfl])]
      have hmeta : ((byte 27).andThen fun _ => escapeString tty.keyTree) (27 :: 27 :: buf) = keyString tty.keyTree buf := by
        rw [andThen_found (byte_cons 27 _), escapeString_cons]
      rcases buf with _ | ⟨c, buf⟩
      · rw [if_pos rfl]
        cases hempty : keyString tty.keyTree [] with
        | no =>
          rw [orElse_no (andThen_no (by rw [hmeta, hempty]))]
          exact hunknown
        | more =>
          rw [orElse_more (andThen_more (by rw [hmeta, hempty]))]
          exact hunknown
        | found r => exact absurd hempty (keyString_nil _ r)
      rw [if_neg (List.cons_ne_nil _ _)]
      have hfind := ttyKeysFind_eq hkeyed (List.cons_ne_nil c buf)
      cases hstring : keyString tty.keyTree (c :: buf) with
      | found r =>
        rw [hstring] at hfind
        obtain ⟨n, hfind, hdrop, -⟩ := hfind
        rw [hfind, orElse_found (andThen_found (by rw [hmeta, hstring]))]
        exact handleKey_handles h hinput (or_escape_ne_mouse _) (by rw [hp]; exact hdrop)
      | more =>
        rw [hstring] at hfind
        obtain ⟨key, n, hfind⟩ := hfind
        rw [hfind] at hopen ⊢
        rw [orElse_more (andThen_more (by rw [hmeta, hstring]))]
        exact foundKey_waits h hinput fun hescape => hopen hescape key rfl
      | no =>
        rw [hstring] at hfind
        dsimp only at hfind
        rw [hfind, orElse_no (andThen_no (by rw [hmeta, hstring]))]
        exact hunknown
    · rw [if_pos hc, orElse_found (by rw [andThen_found (byte_cons 27 _), item, if_neg hc])]
      exact handleKey_handles h hinput (or_escape_ne_mouse _) (by rw [hp]; rfl)

/-! ## The next key -/

theorem ttySetVersion_keeps (tty : Tty) (version : Option ℕ) :
    ((version.filter (· < 500)).elim tty (ttySetVersion tty)).toTtySettings = tty.toTtySettings ∧
      ((version.filter (· < 500)).elim tty (ttySetVersion tty)).input = tty.input ∧
      ((version.filter (· < 500)).elim tty (ttySetVersion tty)).escape = tty.escape ∧
      ((version.filter (· < 500)).elim tty (ttySetVersion tty)).keyTimer = tty.keyTimer := by
  cases version.filter (· < 500) with
  | none => exact ⟨rfl, rfl, rfl, rfl⟩
  | some version =>
    rw [Option.elim_some, ttySetVersion]
    split_ifs <;> exact ⟨rfl, rfl, rfl, rfl⟩

/-- More than an escape is there if there is no reply. -/
theorem tail_ne_nil {p q : List UInt8} (h : deviceReply p = .no) (hp : p = 27 :: q) : q ≠ [] := by
  rintro rfl
  rw [hp] at h
  cases h

/-- A call handles the next key of all that is read, or waits: if all is read there is none. -/
def Tty.Follows (tty : Tty) (future : List UInt8) (r : TtyResult) : Prop :=
  tty.Steady r.1 ∧
    (r.2.2 = true ∧ decodeKey tty.toTtySettings (tty.input ++ future) = .found (r.2.1, r.1.input ++ future) ∨
      r.2 = (none, false) ∧ r.1.input = tty.input ∧
        (future = [] → ∀ a, decodeKey tty.toTtySettings tty.input ≠ .found a))

variable {future : List UInt8}

theorem Tty.Handles.follows {r : TtyResult} {event : Option TtyEvent} {rest : List UInt8}
    (h : tty.Handles r (.found (event, rest)))
    (hdecode : decodeKey tty.toTtySettings (tty.input ++ future) = .found (event, rest ++ future)) :
    tty.Follows future r := by
  obtain ⟨hresult, rfl, hsteady⟩ := h
  obtain ⟨rfl, hmore⟩ := Prod.mk.inj hresult
  exact ⟨hsteady, .inl ⟨hmore, hdecode⟩⟩

theorem Tty.Handles.waits {r : TtyResult} (h : tty.Handles r .more)
    (hdecode : future = [] → ∀ a, decodeKey tty.toTtySettings tty.input ≠ .found a) : tty.Follows future r :=
  ⟨h.2.2, .inr ⟨h.1, h.2.1, hdecode⟩⟩

/-- What is recognised is the next key, if that is recognised as it is. -/
theorem Tty.Handles.followsAs {r : TtyResult} {R : Recogniser UInt8 (Option TtyEvent)} (h : tty.Handles r (R tty.input))
    (hR : Stable R) (hdecode : decodeKey tty.toTtySettings (tty.input ++ future) = R (tty.input ++ future)) :
    tty.Follows future r := by
  have hlast : future = [] → decodeKey tty.toTtySettings tty.input = R tty.input := by
    rintro rfl
    rwa [List.append_nil] at hdecode
  cases hr : R tty.input with
  | found a =>
    rw [hr] at h
    exact h.follows (hdecode.trans (hR.found hr future))
  | no =>
    rw [hr] at h
    exact Tty.Handles.waits h fun hnil a => by rw [hlast hnil, hr]; exact nofun
  | more =>
    rw [hr] at h
    exact Tty.Handles.waits h fun hnil a => by rw [hlast hnil, hr]; exact nofun

/-- After an escape. -/
theorem decodeKey_escape (t : TtySettings) (p : List UInt8) :
    decodeKey t (27 :: p) = ((deviceReply.andThen fun _ => unit none).orElse <|
      ((mouseReport t.mouseUtf8).andThen fun m => unit (some { key := keycMouse, mouse := some m })).orElse <|
      (xtermKeyEnd.andThen fun key => unit (keyEvent key)).orElse (decodeString t.keyTree)) (27 :: p) := by
  rw [decodeKey, orElse_no (by rw [item, if_pos rfl])]

/-- A call handles the next key of all that is read, or waits. -/
theorem ttyKeysNext_decode (hkeyed : tty.keyTree.Keyed) (htimer : tty.escape = true → tty.keyTimer = .pending)
    (hcut : tty.CutWell past future) : ∃ r, ttyKeysNext tty past = pure r ∧ tty.Follows future r := by
  have hrefl := Tty.Steady.refl htimer
  unfold ttyKeysNext
  rcases hinput : tty.input with _ | ⟨ch, p⟩
  · exact ⟨_, rfl, hrefl, .inr ⟨rfl, rfl, fun _ a => by rw [hinput]; exact Answer.more_ne_found a⟩⟩
  dsimp only
  by_cases hch : ch = 27
  swap
  · rw [if_pos hch]
    have hrest : tty.input.drop 1 = p := by rw [hinput]; rfl
    refine ⟨_, rfl, (handleKey_handles hrefl rfl (plainKey_ne_mouse _ _) hrest).follows ?_⟩
    rw [hinput, List.cons_append, decodeKey, orElse_found (by rw [item, if_neg hch])]
  subst hch
  rw [if_neg (by simp)]
  have hne : tty.input ≠ [] := hinput ▸ List.cons_ne_nil _ _
  have hall : tty.input ++ future = 27 :: (p ++ future) := by rw [hinput]; rfl
  have hnow : decodeKey tty.toTtySettings tty.input = _ := (congrArg _ hinput).trans (decodeKey_escape _ p)
  have hthen : decodeKey tty.toTtySettings (tty.input ++ future) = _ := (congrArg _ hall).trans (decodeKey_escape _ _)
  rw [← hinput] at hnow
  rw [← hall] at hthen
  have hdevice := ttyKeysDevice_eq hne past
  unfold escapeKey
  cases hreply : deviceReply tty.input with
  | found r =>
    rw [hreply] at hdevice
    obtain ⟨size, version, hfound, hdrop⟩ := hdevice
    rw [orElse_found (andThen_found (stable_deviceReply.found hreply future))] at hthen
    rw [hfound]
    obtain ⟨hsettings, hinput', hescape, hkeyTimer⟩ := ttySetVersion_keeps tty version
    exact ⟨_, rfl, (handleKey_handles ⟨hsettings, by rw [hescape, hkeyTimer]; exact htimer⟩ hinput' (by decide)
      hdrop).follows hthen⟩
  | more =>
    rw [hreply] at hdevice
    rw [orElse_more (andThen_more hreply)] at hnow
    rw [hdevice (hcut.device hreply)]
    exact ⟨_, rfl, (unknownKey_handles hrefl rfl).waits fun _ a => by rw [hnow]; exact Answer.more_ne_found a⟩
  | no =>
    rw [hreply] at hdevice
    dsimp only at hdevice
    rw [orElse_no (andThen_no hreply)] at hnow
    rw [orElse_no (andThen_no (stable_deviceReply.no hreply future))] at hthen
    rw [hdevice]
    obtain ⟨mouse, answer, hmouse, hanswer⟩ := ttyKeysMouse_eq tty.mouseUtf8 tty.mouse hne past
      fun hlong hmore r hr => by
        rcases hcut.mouse hmore hlong with hpast | ⟨hpast, -⟩ <;> rw [hpast] at hr <;> cases hr
    dsimp only
    rw [hmouse, pure_bind]
    have hsteady : tty.Steady { tty with mouse } := ⟨rfl, htimer⟩
    have hwaits := unknownKey_handles hsteady rfl
    by_cases hgiven : MouseGivenUp tty.mouseUtf8 tty.input past
    swap
    · cases hreport : mouseReport tty.mouseUtf8 tty.input with
      | no => exact absurd (.inl hreport) hgiven
      | more =>
        rw [hreport] at hanswer
        dsimp only at hanswer
        rw [orElse_more (andThen_more hreport)] at hnow
        rw [hanswer, if_neg hgiven]
        exact ⟨_, rfl, hwaits.waits fun _ a => by rw [hnow]; exact Answer.more_ne_found a⟩
      | found r =>
        rw [hreport] at hanswer
        obtain ⟨rfl, size, hfound, hdrop⟩ := hanswer
        rw [orElse_found (andThen_found ((stable_mouseReport _).found hreport future))] at hthen
        rw [hfound]
        refine ⟨_, rfl, ⟨rfl, fun h => absurd h Bool.false_ne_true⟩, .inl ⟨rfl, ?_⟩⟩
        rw [hthen, ← hdrop]
        rfl
    have hanswer : answer = .no := by
      cases hreport : mouseReport tty.mouseUtf8 tty.input with
      | no =>
        rw [hreport] at hanswer
        exact hanswer.trans (if_pos hgiven)
      | more =>
        rw [hreport] at hanswer
        exact hanswer.trans (if_pos hgiven)
      | found r =>
        rcases hgiven with hgiven | ⟨-, hgiven⟩
        · rw [hreport] at hgiven
          cases hgiven
        · rw [(stable_mouseReport _).found hreport] at hgiven
          cases hgiven
    have hnone : mouseReport tty.mouseUtf8 (tty.input ++ future) = .no := by
      rcases hgiven with hgiven | ⟨hlong, hgiven⟩
      · exact (stable_mouseReport _).no hgiven future
      · cases hreport : mouseReport tty.mouseUtf8 tty.input with
        | no => exact (stable_mouseReport _).no hreport future
        | more =>
          rcases hcut.mouse hreport hlong with hpast | hpast
          · rw [hgiven] at hpast
            cases hpast
          · exact hpast.2
        | found r =>
          rw [(stable_mouseReport _).found hreport] at hgiven
          cases hgiven
    rw [orElse_no (andThen_no hnone)] at hthen
    rw [hanswer]
    dsimp only
    have hxterm := xtermKeysFind_eq hne past
    by_cases hkeyGiven : XtermGivenUp tty.input past
    swap
    · cases hkey : xtermKey tty.input with
      | no => exact absurd (.inl hkey) hkeyGiven
      | found r =>
        rw [hkey] at hxterm
        obtain ⟨size, hfound, hdrop⟩ := hxterm
        have hend : xtermKeyEnd (tty.input ++ future) = .found (r.1, r.2 ++ future) := by
          rw [xtermKeyEnd, stable_xtermKey.found hkey]
        rw [orElse_found (andThen_found hend)] at hthen
        rw [hfound]
        exact ⟨_, rfl, (handleKey_handles hsteady rfl (xtermKey_ne_mouse hkey) hdrop).follows hthen⟩
      | more =>
        have hgoes : XtermGoesOn xtermKeysTable tty.input past := by
          by_contra hgoes
          exact hkeyGiven (.inr ⟨hkey, hgoes⟩)
        rw [hkey] at hxterm
        dsimp only at hxterm
        rw [hxterm, if_pos hgoes]
        refine ⟨_, rfl, hwaits.waits fun hlast a => ?_⟩
        subst hlast
        rw [List.append_nil] at hthen hnone
        have hend : xtermKeyEnd tty.input = .more := by
          rw [xtermKeyEnd, hkey]
          exact if_pos (hcut.xtermEnd hreply hgiven hkey hgoes rfl)
        rw [hthen, orElse_more (andThen_more hend)]
        exact Answer.more_ne_found a
    have hfind : xtermKeysFind tty.input past = .no := by
      rcases hkeyGiven with hkey | ⟨hkey, hgoes⟩
      · rw [hkey] at hxterm
        exact hxterm
      · rw [hkey] at hxterm
        exact hxterm.trans (if_neg hgoes)
    rw [hfind]
    have hstring := stringKey_handles hkeyed hsteady rfl hinput (tail_ne_nil hreply hinput)
      fun hescape => of_all_none (hcut.string hreply hgiven hkeyGiven hescape)
    have hrest : xtermKeyEnd (tty.input ++ future) = .no ∨
        xtermKey tty.input = .more ∧ (ttyKeysFind tty.keyTree tty.input.tail).any (·.2.1) = true := by
      rcases hkeyGiven with hkey | ⟨hkey, hgoes⟩
      · exact .inl (by rw [xtermKeyEnd, stable_xtermKey.no hkey])
      · exact (hcut.xterm hreply hgiven hkey hgoes).imp id fun hlonger => ⟨hkey, hlonger⟩
    refine ⟨_, rfl, ?_⟩
    rcases hrest with hend | ⟨hkey, hlonger⟩
    · rw [orElse_no (andThen_no hend)] at hthen
      exact hstring.followsAs (stable_decodeString _) hthen
    · -- The key is given up, but a longer key string is waited for.
      have hmore : decodeString tty.keyTree tty.input = .more := by
        rw [hinput, List.tail_cons] at hlonger
        rw [hinput]
        exact decodeString_more hkeyed hlonger
      rw [hmore] at hstring
      refine hstring.waits fun hlast a => ?_
      subst hlast
      rw [List.append_nil] at hthen
      rw [hthen]
      by_cases hawaits : AwaitsModifiers tty.input
      · rw [orElse_more (andThen_more (by rw [xtermKeyEnd, hkey]; exact if_pos hawaits))]
        exact Answer.more_ne_found a
      · rw [orElse_no (andThen_no (by rw [xtermKeyEnd, hkey]; exact if_neg hawaits)), hmore]
        exact Answer.more_ne_found a

/-! ## Reads -/

/-- The buffer is cut well at every call of a loop. -/
def CallsCut (past : UInt8) (future : List UInt8) : ℕ → Tty → Prop
  | 0, _ => True
  | n + 1, tty => tty.CutWell past future ∧
      ∀ r ∈ (ttyKeysNext tty past).value?, r.2.2 = true → CallsCut past future n r.1

/-- The buffer is cut well at every call. -/
def ReadsCut : Tty → List TtyRead → Prop
  | _, [] => True
  | tty, r :: rs =>
    CallsCut r.past (rs.map TtyRead.data).flatten ((tty.input ++ r.data).length + 1)
        { tty with input := tty.input ++ r.data } ∧
      ∀ r' ∈ (ttyReadCallback tty r).value?, ReadsCut r'.1 rs

instance decidableCallsCut (past : UInt8) (future : List UInt8) :
    (n : ℕ) → (tty : Tty) → Decidable (CallsCut past future n tty)
  | 0, _ => isTrue trivial
  | n + 1, tty =>
    have := decidableCallsCut past future n
    inferInstanceAs (Decidable (tty.CutWell past future ∧
      ∀ r ∈ (ttyKeysNext tty past).value?, r.2.2 = true → CallsCut past future n r.1))

instance decidableReadsCut : (tty : Tty) → (rs : List TtyRead) → Decidable (ReadsCut tty rs)
  | _, [] => isTrue trivial
  | tty, r :: rs =>
    have := fun tty => decidableReadsCut tty rs
    inferInstanceAs (Decidable (CallsCut r.past (rs.map TtyRead.data).flatten ((tty.input ++ r.data).length + 1)
        { tty with input := tty.input ++ r.data } ∧
      ∀ r' ∈ (ttyReadCallback tty r).value?, ReadsCut r'.1 rs))

theorem Tty.Steady.keyed (h : tty.Steady tty') (hkeyed : tty.keyTree.Keyed) : tty'.keyTree.Keyed := by
  rw [congrArg TtySettings.keyTree h.settings]
  exact hkeyed

/-- A loop handles the next keys of all that is read, until there is none in the buffer. -/
theorem ttyKeysLoop_decode {n : ℕ} (hn : tty.input.length < n) (hkeyed : tty.keyTree.Keyed)
    (htimer : tty.escape = true → tty.keyTimer = .pending) (hcut : CallsCut past future n tty) :
    ∃ tty' events, ttyKeysLoop past n tty = pure (tty', events.reduceOption) ∧ tty.Steady tty' ∧
      drain (decodeKey tty.toTtySettings) (tty.input ++ future) =
        (events ++ (drain (decodeKey tty.toTtySettings) (tty'.input ++ future)).1,
          (drain (decodeKey tty.toTtySettings) (tty'.input ++ future)).2) ∧
      (future = [] → ∀ a, decodeKey tty.toTtySettings tty'.input ≠ .found a) := by
  induction n generalizing tty with
  | zero => exact absurd hn (Nat.not_lt_zero _)
  | succ n ih =>
    obtain ⟨⟨tty', event, more⟩, hr, hsteady, hfollows⟩ := ttyKeysNext_decode hkeyed htimer hcut.1
    have hcalls := hcut.2 _ (by rw [hr]; rfl)
    have htakes := takes_decodeKey tty.toTtySettings
    rw [ttyKeysLoop, hr, pure_bind]
    dsimp only at hsteady hfollows hcalls ⊢
    rcases hfollows with ⟨hmore, hdecode⟩ | ⟨hwaits, hinput, hlast⟩
    · have hshorter := htakes.length_lt hdecode
      rw [List.length_append, List.length_append] at hshorter
      obtain ⟨t, events, ht, hsteady', hdrain, hlast⟩ := ih (by omega) (hsteady.keyed hkeyed)
        hsteady.timer (hcalls hmore)
      rw [hsteady.settings] at hdrain hlast
      refine ⟨t, event :: events, ?_, hsteady.trans hsteady', ?_, hlast⟩
      · rw [if_pos hmore, ht, pure_bind]
        cases event with
        | none => rw [List.reduceOption_cons_of_none]; rfl
        | some event => rw [List.reduceOption_cons_of_some]; rfl
      · rw [drain_found htakes hdecode, hdrain]
        rfl
    · obtain ⟨rfl, rfl⟩ := Prod.mk.inj hwaits
      refine ⟨tty', [], rfl, hsteady, ?_, ?_⟩
      · rw [hinput]
        rfl
      · rw [hinput]
        exact hlast

/-- Reads handle all keys of what is read, and leave the rest in the buffer. -/
theorem ttyReads_decode {rs : List TtyRead} (hkeyed : tty.keyTree.Keyed)
    (htimer : tty.escape = true → tty.keyTimer = .pending) (hcut : ReadsCut tty rs)
    (hlast : rs = [] → ∀ a, decodeKey tty.toTtySettings tty.input ≠ .found a) :
    ∃ tty', ttyReads tty rs = pure (tty',
        (drain (decodeKey tty.toTtySettings) (tty.input ++ (rs.map TtyRead.data).flatten)).1.reduceOption) ∧
      tty'.input = (drain (decodeKey tty.toTtySettings) (tty.input ++ (rs.map TtyRead.data).flatten)).2 := by
  induction rs generalizing tty with
  | nil =>
    rw [List.map_nil, List.flatten_nil, List.append_nil, drain_rest (takes_decodeKey _) (hlast rfl)]
    exact ⟨tty, rfl, rfl⟩
  | cons r rs ih =>
    have hlength : { tty with input := tty.input ++ r.data : Tty }.input.length < (tty.input ++ r.data).length + 1 :=
      Nat.lt_succ_self _
    obtain ⟨tty', events, hloop, hsteady, hdrain, hlast'⟩ := ttyKeysLoop_decode hlength hkeyed htimer hcut.1
    have hread : ttyReadCallback tty r = pure (tty', events.reduceOption) := hloop
    obtain ⟨t, ht, hrest⟩ := ih (hsteady.keyed hkeyed) hsteady.timer (hcut.2 _ (by rw [hread]; rfl))
      fun hnil => by
        rw [hsteady.settings]
        exact hlast' (by rw [hnil]; rfl)
    rw [hsteady.settings] at ht hrest
    rw [List.map_cons, List.flatten_cons, ← List.append_assoc, hdrain]
    refine ⟨t, ?_, hrest⟩
    rw [ttyReads, hread, pure_bind]
    dsimp only
    rw [ht, pure_bind, List.reduceOption_append]

/-- How what is read from a terminal is split does not matter if the buffer is cut well at every call. -/
theorem ttyReads_split {table : List (List UInt8 × KeyCode)} (htable : ∀ entry ∈ table, IsKey entry.2)
    (htree : tty.keyTree = ttyKeysInit table) (hinput : tty.input = []) (hescape : tty.escape = false)
    {rs rs' : List TtyRead} (hstream : (rs.map TtyRead.data).flatten = (rs'.map TtyRead.data).flatten)
    (hcut : ReadsCut tty rs) (hcut' : ReadsCut tty rs') :
    ∃ t t' events, ttyReads tty rs = pure (t, events) ∧ ttyReads tty rs' = pure (t', events) ∧ t.input = t'.input := by
  have hkeyed : tty.keyTree.Keyed := htree ▸ ttyKeysInit_keyed htable
  have htimer : tty.escape = true → tty.keyTimer = .pending := fun h => by rw [hescape] at h; cases h
  have hempty : ∀ a, decodeKey tty.toTtySettings tty.input ≠ .found a := by
    rw [hinput]
    exact nofun
  obtain ⟨t, ht, hrest⟩ := ttyReads_decode hkeyed htimer hcut fun _ => hempty
  obtain ⟨t', ht', hrest'⟩ := ttyReads_decode hkeyed htimer hcut' fun _ => hempty
  rw [← hstream] at ht' hrest'
  exact ⟨t, t', _, ht, ht', hrest.trans hrest'.symm⟩

/-- Key strings of the cursor keys and of home. -/
def someKeys : List (List UInt8 × KeyCode) :=
  [(asciiBytes "\x1bOA", keycUp), (asciiBytes "\x1bOB", keycDown), (asciiBytes "\x1b[1~", keycHome)]

/-- Reads of texts, a zero being in memory after them. -/
def readsOf (texts : List String) : List TtyRead := texts.map fun text => { data := asciiBytes text, past := 0 }

/-- Keys with and without modifiers and a mouse report, split in two ways. -/
theorem ttyReads_split_small :
    ∃ t t' events,
      ttyReads { keyTree := ttyKeysInit someKeys } (readsOf ["\x1b[1;", "5Ax\x1b", "[M ", "!3\x1bO", "B\x1b[1"]) =
        pure (t, events) ∧
      ttyReads { keyTree := ttyKeysInit someKeys } (readsOf ["\x1b[1;5Ax\x1b[M !3\x1bO", "B\x1b[1"]) =
        pure (t', events) ∧
      t.input = t'.input :=
  ttyReads_split (by decide +kernel : ∀ entry ∈ someKeys, IsKey entry.2) rfl rfl rfl (by decide +kernel)
    (by decide +kernel) (by decide +kernel)

/-- A cursor key may be read at once, byte by byte, or with the next key. -/
example : ReadsCut { keyTree := ttyKeysInit someKeys } (readsOf ["\x1bOA"]) ∧
    ReadsCut { keyTree := ttyKeysInit someKeys } (readsOf ["\x1b", "O", "A", "\x1bOBx"]) := by decide +kernel

/-- A mouse report that is read but for its last byte is taken for one that ends with the byte in memory past it,
    and the last byte for a key. -/
theorem ttyReads_not_split :
    (ttyReads { keyTree := ttyKeysInit someKeys } [{ data := asciiBytes "\x1b[M !3", past := 0 }]).value?.map
        (fun r => (r.1.input, r.2)) =
      some ([], [{ key := keycMouse, mouse := some { b := 0, x := 0, y := 18 } }]) ∧
    (ttyReads { keyTree := ttyKeysInit someKeys }
        [{ data := asciiBytes "\x1b[M !", past := 40 }, { data := asciiBytes "3", past := 0 }]).value?.map
        (fun r => (r.1.input, r.2)) =
      some ([], [{ key := keycMouse, mouse := some { b := 0, x := 0, y := 7 } }, { key := 0x33 }]) := by
  decide +kernel

end Tmux
