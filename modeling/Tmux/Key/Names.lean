import Tmux.Screen.Style
import Tmux.Tty.Valid

/-!
# Names of keys

A key is named by its modifiers and the name of the key without them (`keyStringLookupKey`), and found by its name
(`keyStringLookupString`), by a hexadecimal number, or by a character after `^`.

The keys that are found by the names they are given are known exactly (`keyStringLookupKey_iff`): it is `none`, and
each special key and each key of ASCII, but with no control modifier of its own. So a key that is found by its name has
a name by which it is found, unless it is a byte of 128 or more (`keyString_rereads`).
-/

namespace Tmux

open Exec Numeral

def keycBase : KeyCode := 0x1000
def keycPrefix : KeyCode := 0x10000
def keycBtab : KeyCode := 0x101c

/-- The key `n` of the numeric keypad, in the order of the codes of its keys. -/
def keycKp (n : ℕ) : KeyCode := 0x1021 + n

/-- The names of the keys. -/
def keyStringTable : List (String × KeyCode) :=
  [("F1", keycF 1), ("F2", keycF 2), ("F3", keycF 3), ("F4", keycF 4), ("F5", keycF 5), ("F6", keycF 6),
    ("F7", keycF 7), ("F8", keycF 8), ("F9", keycF 9), ("F10", keycF 10), ("F11", keycF 11), ("F12", keycF 12),
    ("F13", keycF 13), ("F14", keycF 14), ("F15", keycF 15), ("F16", keycF 16), ("F17", keycF 17),
    ("F18", keycF 18), ("F19", keycF 19), ("F20", keycF 20), ("IC", keycIc), ("DC", keycDc), ("Home", keycHome),
    ("End", keycEnd), ("NPage", keycNpage), ("PageDown", keycNpage), ("PgDn", keycNpage), ("PPage", keycPpage),
    ("PageUp", keycPpage), ("PgUp", keycPpage), ("Tab", 9), ("BTab", keycBtab), ("Space", 32),
    ("BSpace", keycBspace), ("Enter", 13), ("Escape", 27),
    -- the arrow keys
    ("Up", keycUp), ("Down", keycDown), ("Left", keycLeft), ("Right", keycRight),
    -- the numeric keypad
    ("KP/", keycKp 0), ("KP*", keycKp 1), ("KP-", keycKp 2), ("KP7", keycKp 3), ("KP8", keycKp 4),
    ("KP9", keycKp 5), ("KP+", keycKp 6), ("KP4", keycKp 7), ("KP5", keycKp 8), ("KP6", keycKp 9),
    ("KP1", keycKp 10), ("KP2", keycKp 11), ("KP3", keycKp 12), ("KPEnter", keycKp 13), ("KP0", keycKp 14),
    ("KP.", keycKp 15)]

/-! ## From a name to a key -/

/-- The key of a name in the table. -/
def keyStringSearchTable (string : List UInt8) : KeyCode :=
  match keyStringTable.find? fun e => strcaseEq string (asciiBytes e.1) with
  | some e => e.2
  | none => keycNone

/-- The modifier of a letter; other characters are skipped. -/
def keyStringModifier (c : UInt8) : KeyCode :=
  if c = 67 ∨ c = 99 then keycCtrl
  else if c = 77 ∨ c = 109 then keycEscape
  else if c = 83 ∨ c = 115 then keycShift
  else 0

/-- The modifiers at the start of a name, and what follows them. -/
def keyStringGetModifiers : List UInt8 → KeyCode × List UInt8
  | c :: 45 :: string =>
    let (modifiers, string) := keyStringGetModifiers string
    (keyStringModifier c ||| modifiers, string)
  | string => (0, string)

/-- The key of a name without modifiers: a character, or one in the table. -/
def keyStringKey : List UInt8 → KeyCode
  | [] => keycNone
  | [c] => if c < 32 ∨ c = 127 then keycNone else c.toBitVec.setWidth 32
  | string => keyStringSearchTable string

/-- The key of a character with control, if there is one. -/
def keyStringControl (key : KeyCode) : Option KeyCode :=
  if 97 ≤ key ∧ key ≤ 122 then some (key - 96)
  else if 64 ≤ key ∧ key ≤ 95 then some (key - 64)
  else if key = 32 then some 0
  else if key = 63 then some keycBspace
  else none

/-- Put modifiers to a key, with control converted. -/
def keyStringModified (key modifiers : KeyCode) : KeyCode :=
  if key = keycNone then keycNone
  else if key < keycBase ∧ modifiers &&& keycCtrl ≠ 0 then
    match keyStringControl key with
    | none => keycNone
    | some key => key ||| (modifiers &&& ~~~keycCtrl)
  else key ||| modifiers

/-- Find the key of a name. -/
def keyStringLookupString : List UInt8 → KeyCode
  | 48 :: 120 :: string =>
    match scanShortHex string with
    | none => keycNone
    | some u => if 4 < string.length - (scanShortHexRest string).length then keycNone else BitVec.ofNat 32 u
  | string =>
    let (modifiers, string) :=
      match string with
      | 94 :: c :: string => (keycCtrl, c :: string)
      | string => (0, string)
    let (more, string) := keyStringGetModifiers string
    keyStringModified (keyStringKey string) (modifiers ||| more)

/-! ## From a key to a name -/

/-- The name of a key without modifiers, if it has one. A key below zero has nothing put into the buffer that is then
    used as a string. -/
def keyStringName (key : KeyCode) : Exec (Option (List UInt8)) :=
  match keyStringTable.find? fun e => key == e.2 with
  | some e => pure (some (asciiBytes e.1))
  | none =>
    if key = 127 ∨ 255 < key.toInt then pure none
    else if 0 ≤ key.toInt ∧ key.toInt ≤ 32 then
      pure (some [67, 45, UInt8.ofNat ((if key = 0 ∨ 26 < key.toInt then 64 else 96) + key.toNat)])
    else if 32 ≤ key.toInt ∧ key.toInt ≤ 126 then pure (some [UInt8.ofNat key.toNat])
    else if 128 ≤ key.toInt then pure (some (92 :: numeral 8 key.toNat))
    else .fault .overread

/-- The modifiers of a key at the start of its name. -/
def keyStringModifiers (key : KeyCode) : List UInt8 :=
  (if key &&& keycCtrl ≠ 0 then [67, 45] else []) ++ (if key &&& keycEscape ≠ 0 then [77, 45] else []) ++
    if key &&& keycShift ≠ 0 then [83, 45] else []

/-- The name of a key, if it has one. The names are shorter than the buffers that they are put into. -/
def keyStringLookupKey (key : KeyCode) : Exec (Option (List UInt8)) := do
  if key = keycNone then return some (asciiBytes "none")
  let key := if key &&& ~~~keycMaskMod = 0 then 32 ||| keycCtrl ||| (key &&& keycMaskMod) else key
  let name ← keyStringName (key &&& ~~~keycMaskMod)
  return name.map (keyStringModifiers key ++ ·)

/-! ## Modifiers -/

variable {key m : KeyCode} {s t : List UInt8}

/-- The modifiers that a name may have. -/
def keycNamed : KeyCode := 0xe000

theorem and_flag (key : KeyCode) (i : ℕ) :
    key &&& BitVec.twoPow 32 i = 0 ∨ key &&& BitVec.twoPow 32 i = BitVec.twoPow 32 i := by
  rw [BitVec.and_twoPow]
  split_ifs
  · exact .inr rfl
  · exact .inl rfl

theorem and_keycCtrl (key : KeyCode) : key &&& keycCtrl = 0 ∨ key &&& keycCtrl = keycCtrl := and_flag key 14

theorem and_keycEscape (key : KeyCode) : key &&& keycEscape = 0 ∨ key &&& keycEscape = keycEscape := and_flag key 13

theorem and_keycShift (key : KeyCode) : key &&& keycShift = 0 ∨ key &&& keycShift = keycShift := and_flag key 15

theorem and_keycPrefix (key : KeyCode) : key &&& keycPrefix = 0 ∨ key &&& keycPrefix = keycPrefix := and_flag key 16

theorem and_keycNamed (key : KeyCode) :
    key &&& keycNamed = (key &&& keycCtrl) ||| ((key &&& keycEscape) ||| (key &&& keycShift)) := by
  rw [← BitVec.and_or_distrib_left, ← BitVec.and_or_distrib_left]
  rfl

/-- A modifier of a key is found again before what follows. -/
theorem keyStringGetModifiers_modifier {c : UInt8} {flag : KeyCode} (hflag : key &&& flag = 0 ∨ key &&& flag = flag)
    (hc : keyStringModifier c = flag) (s : List UInt8) :
    keyStringGetModifiers ((if key &&& flag ≠ 0 then [c, 45] else []) ++ s) =
      ((key &&& flag) ||| (keyStringGetModifiers s).1, (keyStringGetModifiers s).2) := by
  split_ifs with h
  · rw [hflag.resolve_left h, ← hc]
    rfl
  · rw [not_not.1 h, List.nil_append]
    exact Prod.ext BitVec.zero_or.symm rfl

/-- The modifiers of a key are found again before what follows. -/
theorem keyStringGetModifiers_append (key : KeyCode) (s : List UInt8) :
    keyStringGetModifiers (keyStringModifiers key ++ s) =
      ((key &&& keycNamed) ||| (keyStringGetModifiers s).1, (keyStringGetModifiers s).2) := by
  rw [keyStringModifiers, List.append_assoc, List.append_assoc,
    keyStringGetModifiers_modifier (and_keycCtrl key) (by decide),
    keyStringGetModifiers_modifier (and_keycEscape key) (by decide),
    keyStringGetModifiers_modifier (and_keycShift key) (by decide),
    and_keycNamed, BitVec.or_assoc, BitVec.or_assoc]

/-- Whether a name is neither a number nor a character after `^`. -/
def isPlainName : List UInt8 → Bool
  | 48 :: 120 :: _ => false
  | 94 :: _ :: _ => false
  | _ => true

theorem keyStringLookupString_of_plain (h : isPlainName s = true) :
    keyStringLookupString s =
      keyStringModified (keyStringKey (keyStringGetModifiers s).2) (keyStringGetModifiers s).1 := by
  revert h
  fun_cases isPlainName s with
  | case1 => simp
  | case2 => simp
  | case3 s hhex hcaret =>
    intro _
    simp [keyStringLookupString]

theorem take_ne_of_isPlainName (h : isPlainName s = true) : s.take 2 ≠ [48, 120] := by
  revert h
  fun_cases isPlainName s with
  | case1 => simp
  | case2 => simp
  | case3 s hhex _ =>
    rintro - htake
    obtain ⟨rest, rfl⟩ : ∃ rest, s = 48 :: 120 :: rest := ⟨s.drop 2, by rw [← List.take_append_drop 2 s, htake]; rfl⟩
    exact hhex _ rfl

theorem isPlainName_append (h : isPlainName s = true) (key : KeyCode) :
    isPlainName (keyStringModifiers key ++ s) = true := by
  rw [keyStringModifiers]
  split_ifs <;> first | exact h | rfl

/-! ## Names without modifiers -/

/-- Whether a name is that of a key without modifiers, or the one of a control key. -/
def IsNameOf (s : List UInt8) (key : KeyCode) : Prop :=
  isPlainName s = true ∧ key ≠ keycNone ∧
    ((keyStringGetModifiers s).1 = 0 ∧ keyStringKey (keyStringGetModifiers s).2 = key ∨
      (keyStringGetModifiers s).1 = keycCtrl ∧ key < keycBase ∧
        keyStringKey (keyStringGetModifiers s).2 < keycNone ∧
        keyStringControl (keyStringKey (keyStringGetModifiers s).2) = some key)

instance (s : List UInt8) (key : KeyCode) : Decidable (IsNameOf s key) :=
  inferInstanceAs (Decidable (isPlainName s = true ∧ key ≠ keycNone ∧ (_ ∧ _ ∨ _ ∧ _ ∧ _ ∧ _)))

/-- Whether the name of a key without modifiers is the name of that key. -/
def IsNamed (key : KeyCode) : Prop :=
  ∃ s ∈ (keyStringName key).value?.join, keyStringName key = pure (some s) ∧ s.length ≤ 8 ∧ IsNameOf s key

instance : DecidablePred IsNamed := fun key => inferInstanceAs (Decidable (∃ _ ∈ (keyStringName key).value?.join, _))

theorem isNamed_ascii : ∀ n < 126, IsNamed (BitVec.ofNat 32 (n + 1)) := by
  decide +kernel

theorem isNamed_special : ∀ n < 48, IsNamed (BitVec.ofNat 32 (n + 0x1001)) := by
  decide +kernel

theorem keyStringName_byte : ∀ n < 128,
    keyStringName (BitVec.ofNat 32 (n + 128)) = pure (some (92 :: numeral 8 (n + 128))) ∧
      (numeral 8 (n + 128)).length = 3 ∧ isPlainName (92 :: numeral 8 (n + 128)) = true ∧
      (keyStringGetModifiers (92 :: numeral 8 (n + 128))).2 = 92 :: numeral 8 (n + 128) := by
  decide +kernel

/-- The numeral of a byte is no name of a key. -/
theorem keyStringKey_numeral (n : ℕ) : keyStringKey (92 :: numeral 8 n) = keycNone := by
  have htable : ∀ e ∈ keyStringTable, ((asciiBytes e.1).map lowerByte).head? ≠ some 92 := by
    decide +kernel
  have hfind : (keyStringTable.find? fun e => strcaseEq (92 :: numeral 8 n) (asciiBytes e.1)) = none := by
    refine List.find?_eq_none.2 fun e he heq => ?_
    have hhead := congrArg List.head? (eq_of_beq heq)
    exact htable e he hhead.symm
  obtain ⟨c, t, hct⟩ := List.exists_cons_of_ne_nil (numeral_ne_nil (by decide : 1 < 8) (by decide) n)
  rw [hct] at hfind ⊢
  have hsearch : keyStringKey (92 :: c :: t) = keyStringSearchTable (92 :: c :: t) := rfl
  rw [hsearch, keyStringSearchTable, hfind]

/-! ## Finding a key by its name -/

theorem or_zero_code (m : KeyCode) : m ||| 0 = m := BitVec.or_zero

theorem zero_or_code (m : KeyCode) : 0 ||| m = m := BitVec.zero_or

theorem and_zero_code (m : KeyCode) : m &&& 0 = 0 := BitVec.and_zero

theorem and_not_of_and_eq_zero {c : KeyCode} (h : m &&& c = 0) : m &&& ~~~c = m := by
  have hall : m &&& (c ||| ~~~c) = m := by
    rw [BitVec.or_not_self, BitVec.and_allOnes]
  rw [BitVec.and_or_distrib_left, h] at hall
  exact BitVec.zero_or.symm.trans hall

/-- A key without the prefix is its base with the modifiers that it may have. -/
theorem eq_base_or_named (hplain : key &&& keycPrefix = 0) :
    (key &&& ~~~keycMaskMod) ||| (key &&& keycNamed) = key := by
  have hall : key &&& (~~~keycMaskMod ||| keycNamed ||| keycPrefix) = key := by
    have hones : ~~~keycMaskMod ||| keycNamed ||| keycPrefix = BitVec.allOnes 32 := by decide
    rw [hones, BitVec.and_allOnes]
  rwa [BitVec.and_or_distrib_left, BitVec.and_or_distrib_left, hplain, or_zero_code] at hall

/-- The name of a key without modifiers is found with modifiers before it. -/
theorem IsNameOf.modified (h : IsNameOf s key) (hm : m &&& keycCtrl = 0 ∨ keycBase ≤ key) :
    keyStringModified (keyStringKey (keyStringGetModifiers s).2) (m ||| (keyStringGetModifiers s).1) = key ||| m := by
  obtain ⟨-, hnone, hname⟩ := h
  unfold keyStringModified
  rcases hname with ⟨hmod, hkey⟩ | ⟨hmod, hlt, hless, hcontrol⟩
  · have hplain : ¬(key < keycBase ∧ m &&& keycCtrl ≠ 0) := by
      rintro ⟨hlt, hctrl⟩
      exact hm.elim hctrl (BitVec.not_le.2 hlt)
    rw [hmod, hkey, if_neg hnone, or_zero_code, if_neg hplain]
  · have hctrl : m &&& keycCtrl = 0 := hm.resolve_right (BitVec.not_le.2 hlt)
    have hand : (m ||| keycCtrl) &&& keycCtrl = keycCtrl := by
      rw [BitVec.and_or_distrib_right, hctrl]
      rfl
    have hrest : (m ||| keycCtrl) &&& ~~~keycCtrl = m := by
      have hself : keycCtrl &&& ~~~keycCtrl = 0 := by decide
      rw [BitVec.and_or_distrib_right, hself, or_zero_code, and_not_of_and_eq_zero hctrl]
    rw [hmod, hand, if_neg (BitVec.ne_of_lt hless), if_pos ⟨BitVec.lt_trans hless (by decide), by decide⟩, hcontrol]
    dsimp only
    rw [hrest]

/-- The keys whose names are read again. -/
def IsNameable (key : KeyCode) : Prop :=
  key = keycNone ∨ key &&& keycPrefix = 0 ∧
    (key &&& ~~~keycMaskMod < 127 ∧ key &&& keycCtrl = 0 ∨
      keycBase < key &&& ~~~keycMaskMod ∧ key &&& ~~~keycMaskMod ≤ keycKp 15)

instance : DecidablePred IsNameable := fun _ => inferInstanceAs (Decidable (_ ∨ _))

/-- The name of a key that has no modifiers of its own is found as that of a key with modifiers. -/
theorem keyStringLookupString_append (hs : isPlainName s = true) (key : KeyCode) :
    keyStringLookupString (keyStringModifiers key ++ s) =
      keyStringModified (keyStringKey (keyStringGetModifiers s).2)
        ((key &&& keycNamed) ||| (keyStringGetModifiers s).1) := by
  rw [keyStringLookupString_of_plain (isPlainName_append hs key), keyStringGetModifiers_append]

theorem keyStringLookupKey_eq (hnone : key ≠ keycNone) (hzero : key &&& ~~~keycMaskMod ≠ 0) :
    keyStringLookupKey key =
      (keyStringName (key &&& ~~~keycMaskMod)).bind fun name => pure (name.map (keyStringModifiers key ++ ·)) := by
  rw [keyStringLookupKey, if_neg hnone, if_neg hzero]
  rfl

theorem exists_keyStringName {name : List UInt8} (hnone : key ≠ keycNone) (hzero : key &&& ~~~keycMaskMod ≠ 0)
    (h : keyStringLookupKey key = pure (some name)) :
    ∃ s, keyStringName (key &&& ~~~keycMaskMod) = pure (some s) ∧ keyStringModifiers key ++ s = name := by
  rw [keyStringLookupKey_eq hnone hzero] at h
  obtain ⟨s, hs, hname⟩ := Exec.bind_eq_pure.1 h
  obtain ⟨s, rfl, rfl⟩ : ∃ s', s = some s' ∧ keyStringModifiers key ++ s' = name := by simpa using hname
  exact ⟨s, hs, rfl⟩

/-- A key without its modifiers that has a name is one of ASCII, another byte, or a special key. -/
theorem keyStringName_cases {b : KeyCode} (h : keyStringName b = pure (some s)) :
    b = 0 ∨ (∃ n < 126, b = BitVec.ofNat 32 (n + 1)) ∨ (∃ n < 128, b = BitVec.ofNat 32 (n + 128)) ∨
      ∃ n < 48, b = BitVec.ofNat 32 (n + 0x1001) := by
  have hof : ∀ k, k ≤ b.toNat → b = BitVec.ofNat 32 (b.toNat - k + k) := fun k hk => by
    rw [Nat.sub_add_cancel hk, BitVec.ofNat_toNat, BitVec.setWidth_eq]
  unfold keyStringName at h
  split at h
  next e he =>
    -- all keys of the table are of ASCII or special
    have htable : ∀ e ∈ keyStringTable, 0 < e.2.toNat ∧ (e.2.toNat < 127 ∨ 0x1001 ≤ e.2.toNat ∧ e.2.toNat < 0x1031) := by
      decide
    have hkey : b = e.2 := by simpa using List.find?_some he
    obtain ⟨hpos, hlow | ⟨hhigh, hmax⟩⟩ := htable e (List.mem_of_find?_eq_some he) <;> rw [← hkey] at *
    · exact .inr (.inl ⟨b.toNat - 1, by omega, hof 1 hpos⟩)
    · exact .inr (.inr (.inr ⟨b.toNat - 0x1001, by omega, hof 0x1001 hhigh⟩))
  next =>
    have hvalid : ¬(b = 127 ∨ 255 < b.toInt) := fun hinvalid => by
      rw [if_pos hinvalid] at h
      simp at h
    have hnonneg : 0 ≤ b.toInt := by
      by_contra hneg
      rw [if_neg hvalid, if_neg (by omega), if_neg (by omega), if_neg (by omega)] at h
      cases h
    rw [not_or, Int.not_lt] at hvalid
    have hlt : 2 * b.toNat < 2 ^ 32 := by
      by_contra hge
      rw [BitVec.toInt_eq_toNat_cond, if_neg hge] at hnonneg
      have hmax := b.isLt
      omega
    have hle : b.toNat ≤ 255 := by
      have hmax := hvalid.2
      rw [BitVec.toInt_eq_toNat_cond, if_pos hlt] at hmax
      omega
    have hdelete : b.toNat ≠ 127 := fun heq => hvalid.1 (BitVec.eq_of_toNat_eq heq)
    rcases Nat.lt_or_ge b.toNat 128 with hlow | hhigh
    · rcases Nat.eq_zero_or_pos b.toNat with hzero | hpos
      · exact .inl (BitVec.eq_of_toNat_eq hzero)
      · exact .inr (.inl ⟨b.toNat - 1, by omega, hof 1 hpos⟩)
    · exact .inr (.inr (.inl ⟨b.toNat - 128, by omega, hof 128 hhigh⟩))

/-! ## The keys that are found -/

/-- The keys without modifiers that are found: those of ASCII, other bytes, and special keys. -/
def IsBase (b : KeyCode) : Prop := b < 127 ∨ (128 ≤ b ∧ b ≤ 255) ∨ keycBase < b ∧ b ≤ keycKp 15

instance : DecidablePred IsBase := fun _ => inferInstanceAs (Decidable (_ ∨ _))

theorem isBase_keyStringKey (s : List UInt8) (h : keyStringKey s ≠ keycNone) : IsBase (keyStringKey s) := by
  unfold keyStringKey at h ⊢
  split at h
  · exact absurd rfl h
  next c =>
    have hbyte : ∀ c : UInt8, (if c < 32 ∨ c = 127 then keycNone else c.toBitVec.setWidth 32) ≠ keycNone →
        IsBase (if c < 32 ∨ c = 127 then keycNone else c.toBitVec.setWidth 32) := by
      have hnat : ∀ n < 256, (if UInt8.ofNat n < 32 ∨ UInt8.ofNat n = 127 then keycNone
          else (UInt8.ofNat n).toBitVec.setWidth 32) ≠ keycNone →
          IsBase (if UInt8.ofNat n < 32 ∨ UInt8.ofNat n = 127 then keycNone
            else (UInt8.ofNat n).toBitVec.setWidth 32) := by
        decide +kernel
      intro c
      have hc := hnat c.toNat c.toNat_lt
      rwa [UInt8.ofNat_toNat] at hc
    exact hbyte c h
  next =>
    unfold keyStringSearchTable at h ⊢
    split at h
    next e he =>
      have htable : ∀ e ∈ keyStringTable, IsBase e.2 := by decide
      exact htable e (List.mem_of_find?_eq_some he)
    · exact absurd rfl h

theorem isBase_keyStringControl {b b' : KeyCode} (h : keyStringControl b = some b') : IsBase b' := by
  unfold keyStringControl at h
  split_ifs at h with hlow hhigh hspace hdelete <;> obtain rfl := Option.some.inj h
  · exact .inl (by bv_omega)
  · exact .inl (by bv_omega)
  · decide
  · decide

/-- A key without modifiers has no bits of the modifiers. -/
theorem IsBase.and {b : KeyCode} (h : IsBase b) (c : KeyCode) : b &&& c = b &&& (0x1fff &&& c) := by
  have hlt : b.toNat < 0x2000 := by
    have htop : keycKp 15 = 0x1030 := by decide
    unfold IsBase keycBase at h
    rw [htop] at h
    bv_omega
  have hself : b &&& 0x1fff = b := by
    apply BitVec.eq_of_toNat_eq
    rw [BitVec.toNat_and]
    exact (Nat.and_two_pow_sub_one_eq_mod b.toNat 13).trans (Nat.mod_eq_of_lt hlt)
  rw [← BitVec.and_assoc, hself]

/-- A key without modifiers has no bits of the modifiers, which have none of the key. -/
theorem IsBase.or_and {b : KeyCode} (h : IsBase b) (hm : m &&& ~~~keycNamed = 0) :
    (b ||| m) &&& ~~~keycMaskMod = b ∧ (b ||| m) &&& keycPrefix = 0 ∧ (b ||| m) &&& keycCtrl = m &&& keycCtrl := by
  have hself : m &&& keycNamed = m := by
    have hall : m &&& (keycNamed ||| ~~~keycNamed) = m := by
      rw [BitVec.or_not_self, BitVec.and_allOnes]
    rwa [BitVec.and_or_distrib_left, hm, or_zero_code] at hall
  have hzero : ∀ c, keycNamed &&& c = 0 → m &&& c = 0 := fun c hc => by
    rw [← hself, BitVec.and_assoc, hc]
    exact BitVec.and_zero
  have hbase : b &&& ~~~keycMaskMod = b := by
    have hones := h.and (BitVec.allOnes 32)
    rw [BitVec.and_allOnes] at hones
    rw [h.and]
    exact hones.symm
  have hnone : ∀ c, (0x1fff : KeyCode) &&& c = 0 → b &&& c = 0 := fun c hc => by
    rw [h.and, hc]
    exact BitVec.and_zero
  refine ⟨?_, ?_, ?_⟩
  · rw [BitVec.and_or_distrib_right, hbase, hzero _ (by decide), or_zero_code]
  · rw [BitVec.and_or_distrib_right, hnone _ (by decide), hzero _ (by decide), or_zero_code]
  · rw [BitVec.and_or_distrib_right, hnone _ (by decide)]
    exact BitVec.zero_or

/-- A key that is found is one without modifiers and modifiers that it may have; a character has no control. -/
theorem keyStringModified_cases (h : keyStringModified (keyStringKey s) m ≠ keycNone) (hm : m &&& ~~~keycNamed = 0) :
    ∃ b m', keyStringModified (keyStringKey s) m = b ||| m' ∧ IsBase b ∧ m' &&& ~~~keycNamed = 0 ∧
      (b < keycBase → m' &&& keycCtrl = 0) := by
  unfold keyStringModified at h ⊢
  split_ifs at h ⊢ with hnone hctrl
  · exact absurd rfl h
  · cases hcontrol : keyStringControl (keyStringKey s) with
    | none =>
      rw [hcontrol] at h
      exact absurd rfl h
    | some b =>
      refine ⟨b, m &&& ~~~keycCtrl, rfl, isBase_keyStringControl hcontrol, ?_, fun _ => ?_⟩
      · rw [BitVec.and_assoc, BitVec.and_comm (~~~keycCtrl), ← BitVec.and_assoc, hm]
        exact BitVec.zero_and
      · rw [BitVec.and_assoc]
        exact BitVec.and_zero
  · exact ⟨keyStringKey s, m, rfl, isBase_keyStringKey s hnone, hm, fun hlt => by_contra fun hne => hctrl ⟨hlt, hne⟩⟩

theorem keyStringGetModifiers_and (s : List UInt8) : (keyStringGetModifiers s).1 &&& ~~~keycNamed = 0 := by
  fun_induction keyStringGetModifiers s with
  | case1 c string modifiers rest hrest ih =>
    rw [hrest] at ih
    have hmodifier : keyStringModifier c &&& ~~~keycNamed = 0 := by
      unfold keyStringModifier
      split_ifs <;> decide
    rw [BitVec.and_or_distrib_right, hmodifier, ih]
    rfl
  | case2 => exact BitVec.zero_and

/-- A name that is not a number finds a key whose name is read again, or a byte of 128 or more. -/
theorem keyStringLookupString_cases (hhex : s.take 2 ≠ [48, 120]) :
    IsNameable (keyStringLookupString s) ∨
      128 ≤ keyStringLookupString s &&& ~~~keycMaskMod ∧ keyStringLookupString s &&& ~~~keycMaskMod ≤ 255 := by
  have hmodified : ∃ t m, keyStringLookupString s = keyStringModified (keyStringKey t) m ∧ m &&& ~~~keycNamed = 0 := by
    unfold keyStringLookupString
    split
    · simp at hhex
    next string _ =>
      dsimp only
      split
      next c rest =>
        refine ⟨_, _, rfl, ?_⟩
        rw [BitVec.and_or_distrib_right, keyStringGetModifiers_and]
        exact (by decide : keycCtrl &&& ~~~keycNamed ||| 0 = 0)
      · refine ⟨_, _, rfl, ?_⟩
        rw [BitVec.and_or_distrib_right, keyStringGetModifiers_and]
        exact (by decide : (0 : KeyCode) &&& ~~~keycNamed ||| 0 = 0)
  obtain ⟨t, m, heq, hm⟩ := hmodified
  rw [heq]
  by_cases hnone : keyStringModified (keyStringKey t) m = keycNone
  · exact .inl (.inl hnone)
  obtain ⟨b, m', hkey, hbase, hm', hctrl⟩ := keyStringModified_cases hnone hm
  obtain ⟨hand, hplain, hand'⟩ := hbase.or_and hm'
  rw [hkey]
  rcases hbase with hlow | hbyte | hspecial
  · refine .inl (.inr ⟨hplain, .inl ?_⟩)
    rw [hand, hand']
    exact ⟨hlow, hctrl (BitVec.lt_trans hlow (by decide))⟩
  · exact .inr (hand.symm ▸ hbyte)
  · exact .inl (.inr ⟨hplain, .inr (hand.symm ▸ hspecial)⟩)

/-! ## Names that are found -/

/-- The name of a key without modifiers is no number, and finds it; only the numeral of another byte does not. -/
theorem keyStringName_found {b : KeyCode} (h : keyStringName b = pure (some s)) (hzero : b ≠ 0) :
    s.length ≤ 8 ∧ isPlainName s = true ∧
      (keyStringKey (keyStringGetModifiers s).2 = keycNone ∨ IsNameOf s b ∧ ¬(128 ≤ b ∧ b ≤ 255)) := by
  have hnamed : IsNamed b → s.length ≤ 8 ∧ IsNameOf s b := by
    rintro ⟨s', -, hs', hlen, hname⟩
    obtain rfl : s = s' := by simpa using h.symm.trans hs'
    exact ⟨hlen, hname⟩
  rcases keyStringName_cases h with rfl | ⟨n, hn, rfl⟩ | ⟨n, hn, rfl⟩ | ⟨n, hn, rfl⟩
  · exact absurd rfl hzero
  · obtain ⟨hlen, hname⟩ := hnamed (isNamed_ascii n hn)
    exact ⟨hlen, hname.1, .inr ⟨hname, by bv_omega⟩⟩
  · obtain ⟨hs', hlen, hplain, hsame⟩ := keyStringName_byte n hn
    obtain rfl : s = 92 :: numeral 8 (n + 128) := by simpa using h.symm.trans hs'
    exact ⟨by rw [List.length_cons, hlen]; decide, hplain, .inl (by rw [hsame, keyStringKey_numeral])⟩
  · obtain ⟨hlen, hname⟩ := hnamed (isNamed_special n hn)
    exact ⟨hlen, hname.1, .inr ⟨hname, by bv_omega⟩⟩

/-- The key `0` is named as a space with control. -/
theorem keyStringLookupKey_zero (hzero : key &&& ~~~keycMaskMod = 0) :
    keyStringLookupKey key =
      pure (some (keyStringModifiers (32 ||| keycCtrl ||| (key &&& keycMaskMod)) ++ asciiBytes "Space")) := by
  have hnone : key ≠ keycNone := by
    rintro rfl
    exact absurd hzero (by decide)
  have hspace : (32 ||| keycCtrl ||| (key &&& keycMaskMod)) &&& ~~~keycMaskMod = 32 := by
    have hself : keycMaskMod &&& ~~~keycMaskMod = 0 := by decide
    rw [BitVec.and_or_distrib_right, BitVec.and_assoc, hself, and_zero_code]
    decide
  have hname : keyStringName 32 = pure (some (asciiBytes "Space")) := by decide
  rw [keyStringLookupKey, if_neg hnone]
  dsimp only
  rw [if_pos hzero, hspace, hname]
  rfl

theorem keyStringLookupString_zero (key : KeyCode) :
    keyStringLookupString (keyStringModifiers (32 ||| keycCtrl ||| (key &&& keycMaskMod)) ++ asciiBytes "Space") =
      (key &&& keycNamed) &&& ~~~keycCtrl := by
  have hnamed : (32 ||| keycCtrl ||| (key &&& keycMaskMod)) &&& keycNamed = keycCtrl ||| (key &&& keycNamed) := by
    have hmask : keycMaskMod &&& keycNamed = keycNamed := by decide
    have hctrl : (32 ||| keycCtrl) &&& keycNamed = keycCtrl := by decide
    rw [BitVec.and_or_distrib_right, BitVec.and_assoc, hmask, hctrl]
  have hspace : keyStringGetModifiers (asciiBytes "Space") = (0, asciiBytes "Space") := by decide
  have hkey : keyStringKey (asciiBytes "Space") = 32 := by decide
  have hctrl : (keycCtrl ||| (key &&& keycNamed)) &&& keycCtrl ≠ 0 := by
    have hself : keycNamed &&& keycCtrl = keycCtrl := by decide
    rw [BitVec.and_or_distrib_right, BitVec.and_assoc, hself, BitVec.and_self]
    rcases and_keycCtrl key with h | h <;> rw [h] <;> decide
  have hrest : (keycCtrl ||| (key &&& keycNamed)) &&& ~~~keycCtrl = (key &&& keycNamed) &&& ~~~keycCtrl := by
    have hself : keycCtrl &&& ~~~keycCtrl = 0 := by decide
    rw [BitVec.and_or_distrib_right, hself, zero_or_code]
  have hcontrol : keyStringControl 32 = some 0 := by decide
  rw [keyStringLookupString_append (by decide), hspace, hkey, hnamed, or_zero_code, keyStringModified,
    if_neg (by decide), if_pos ⟨by decide, hctrl⟩, hcontrol]
  dsimp only
  rw [hrest, zero_or_code]

/-- A name fits into its buffer, of 24 bytes. -/
theorem length_keyStringLookupKey_lt {name : List UInt8} (h : keyStringLookupKey key = pure (some name)) :
    name.length < 24 := by
  have hmodifiers : ∀ key, (keyStringModifiers key).length ≤ 6 := fun key => by
    rw [keyStringModifiers]
    split_ifs <;> decide
  have hsum : ∀ key s, s.length ≤ 8 → (keyStringModifiers key ++ s).length < 24 := fun key s hs => by
    have hlen := hmodifiers key
    rw [List.length_append]
    omega
  by_cases hnone : key = keycNone
  · subst hnone
    obtain rfl : asciiBytes "none" = name := by simpa using (rfl : pure _ = keyStringLookupKey keycNone).trans h
    decide
  by_cases hzero : key &&& ~~~keycMaskMod = 0
  · rw [keyStringLookupKey_zero hzero] at h
    obtain rfl : _ = name := by simpa using h
    exact hsum _ _ (by decide)
  · obtain ⟨s, hs, rfl⟩ := exists_keyStringName hnone hzero h
    exact hsum _ _ (keyStringName_found hs hzero).1

/-- A name is not a number. -/
theorem isPlainName_keyStringLookupKey {name : List UInt8} (hnone : key ≠ keycNone)
    (h : keyStringLookupKey key = pure (some name)) : isPlainName name = true := by
  by_cases hzero : key &&& ~~~keycMaskMod = 0
  · rw [keyStringLookupKey_zero hzero] at h
    obtain rfl : _ = name := by simpa using h
    exact isPlainName_append (by decide) _
  · obtain ⟨s, hs, rfl⟩ := exists_keyStringName hnone hzero h
    exact isPlainName_append (keyStringName_found hs hzero).2.1 key

/-- A key is found again by its name exactly if it is `none`, a special key, or a key of ASCII without control. -/
theorem keyStringLookupKey_iff (key : KeyCode) :
    (∃ name, keyStringLookupKey key = pure (some name) ∧ keyStringLookupString name = key) ↔ IsNameable key := by
  by_cases hnone : key = keycNone
  · subst hnone
    exact ⟨fun _ => .inl rfl, fun _ => ⟨asciiBytes "none", by decide, by decide⟩⟩
  constructor
  · rintro ⟨name, hname, hfound⟩
    have hplain := isPlainName_keyStringLookupKey hnone hname
    rcases keyStringLookupString_cases (take_ne_of_isPlainName hplain) with h | hbyte
    · rwa [hfound] at h
    rw [hfound] at hbyte
    -- another byte, whose name is not found
    have hzero : key &&& ~~~keycMaskMod ≠ 0 := fun hzero => by
      rw [hzero] at hbyte
      exact absurd hbyte (by decide)
    obtain ⟨s, hs, rfl⟩ := exists_keyStringName hnone hzero hname
    obtain ⟨-, hs', hkey | ⟨-, hother⟩⟩ := keyStringName_found hs hzero
    · rw [keyStringLookupString_append hs', hkey] at hfound
      exact absurd hfound.symm hnone
    · exact absurd hbyte hother
  · rintro (h | ⟨hplain, hbase⟩)
    · exact absurd h hnone
    have hkey := eq_base_or_named hplain
    by_cases hzero : key &&& ~~~keycMaskMod = 0
    · refine ⟨_, keyStringLookupKey_zero hzero, ?_⟩
      rw [hzero, zero_or_code] at hkey
      have hctrl : key &&& keycCtrl = 0 := by
        rcases hbase with hlow | hspecial
        · exact hlow.2
        · rw [hzero] at hspecial
          exact absurd hspecial (by decide)
      rw [keyStringLookupString_zero, hkey, and_not_of_and_eq_zero hctrl]
    · have hnamed : IsNamed (key &&& ~~~keycMaskMod) := by
        generalize key &&& ~~~keycMaskMod = b at hbase hzero
        have hof : ∀ k, k ≤ b.toNat → b = BitVec.ofNat 32 (b.toNat - k + k) := fun k hk => by
          rw [Nat.sub_add_cancel hk, BitVec.ofNat_toNat, BitVec.setWidth_eq]
        have htop : keycKp 15 = 0x1030 := by decide
        rw [htop] at hbase
        rcases hbase with ⟨hlow, -⟩ | ⟨hmin, hmax⟩
        · rw [hof 1 (by bv_omega)]
          exact isNamed_ascii _ (by bv_omega)
        · rw [hof 0x1001 (by unfold keycBase at hmin; bv_omega)]
          exact isNamed_special _ (by unfold keycBase at hmin; bv_omega)
      obtain ⟨s, -, hs, -, hname⟩ := hnamed
      refine ⟨keyStringModifiers key ++ s, ?_, ?_⟩
      · rw [keyStringLookupKey_eq hnone hzero, hs]
        rfl
      · have hctrl : (key &&& keycNamed) &&& keycCtrl = 0 ∨ keycBase ≤ key &&& ~~~keycMaskMod := by
          have hself : keycNamed &&& keycCtrl = keycCtrl := by decide
          rw [BitVec.and_assoc, hself]
          exact hbase.imp And.right fun hspecial => BitVec.le_of_lt hspecial.1
        rw [keyStringLookupString_append hname.1, hname.modified hctrl, hkey]

/-- The keys that are found again by their names are known exactly, and the keys that names find, which are no numbers,
    are among them but for the bytes of 128 and more. -/
theorem keyString_rereads :
    (∀ key, (∃ name, keyStringLookupKey key = pure (some name) ∧ keyStringLookupString name = key) ↔ IsNameable key) ∧
      ∀ s : List UInt8, s.take 2 ≠ [48, 120] →
        ((∃ name, keyStringLookupKey (keyStringLookupString s) = pure (some name) ∧
            keyStringLookupString name = keyStringLookupString s) ↔
          ¬(128 ≤ keyStringLookupString s &&& ~~~keycMaskMod ∧ keyStringLookupString s &&& ~~~keycMaskMod ≤ 255)) := by
  refine ⟨keyStringLookupKey_iff, fun s hhex => ?_⟩
  rw [keyStringLookupKey_iff]
  constructor
  · rintro (hnone | ⟨-, ⟨hlow, -⟩ | ⟨hmin, -⟩⟩) ⟨hbyte, hmax⟩
    · rw [hnone] at hmax
      exact absurd hmax (by decide)
    · bv_omega
    · unfold keycBase at hmin
      bv_omega
  · exact (keyStringLookupString_cases hhex).resolve_right

end Tmux
