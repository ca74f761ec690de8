import Tmux.Tty.Read

/-!
# What the bytes of a terminal mean

`decodeKey` recognises the next key in all that is read from a terminal, or nothing if there is
only the start of one. It is put together from recognisers of replies, mouse reports, keys with
modifiers and key strings, which are stable: what they find, or that they find nothing, does
not change when more is read.
-/

namespace Tmux

open Recogniser

/-! ## Recognisers -/

/-- A given byte. -/
def byte (b : UInt8) : Recogniser UInt8 Unit := item fun c => if c = b then some () else none

/-- Nothing at all. -/
def nothing {β : Type} : Recogniser UInt8 β := fun _ => .no

/-- The event of a key. -/
def keyEvent (key : KeyCode) : Option TtyEvent := if key = keycNone then none else some { key }

/-- The head of a report. -/
def reportHead (third : UInt8 → Bool) : Recogniser UInt8 Unit :=
  (byte 27).andThen fun _ => (byte 91).andThen fun _ => item fun c => if third c then some () else none

/-- The rest of a reply, up to a `c`. -/
def replyText : ℕ → Recogniser UInt8 Unit
  | 0 => nothing
  | room + 1 => (item some).andThen fun c => if c = 99 then unit () else replyText room

/-- A reply to a request for the device attributes. -/
def deviceReply : Recogniser UInt8 Unit :=
  (reportHead fun c => c = 62 || c = 63).andThen fun _ => replyText 63

/-- The value of two bytes of a UTF-8 character. -/
def twoBytes (c c' : UInt8) : ℕ := utf8Combine { data := [c, c'], size := 2 }

/-- A value in a mouse report: a byte, or a UTF-8 character of two bytes. -/
def mouseCoordinate (utf8 : Bool) : Recogniser UInt8 ℕ :=
  (item some).andThen fun c =>
    if utf8 && 0xc2 ≤ c && c ≤ 0xf4 then
      if c ≤ 0xdf then (item some).andThen fun c' => unit (twoBytes c c') else nothing
    else unit c.toNat

/-- A mouse report. -/
def mouseReport (utf8 : Bool) : Recogniser UInt8 MouseEvent :=
  (reportHead fun c => c = 77).andThen fun _ => (mouseCoordinate utf8).andThen fun b =>
    (mouseCoordinate utf8).andThen fun x => (mouseCoordinate utf8).andThen fun y =>
      if b < 32 ∨ x < 33 ∨ y < 33 then nothing else unit { b := b - 32, x := x - 33, y := y - 33 }

/-- The bytes that match a template. -/
def template : List UInt8 → Recogniser UInt8 (List UInt8)
  | [] => unit []
  | c :: t => (item fun b => if c ≠ wildcard ∧ b ≠ c then none else some b).andThen fun b =>
    (template t).andThen fun bs => unit (b :: bs)

/-- A key with modifiers, of a table. -/
def xtermKeyIn : List XtermKeysEntry → Recogniser UInt8 KeyCode
  | [] => nothing
  | entry :: table =>
    ((template entry.template).andThen fun bs => unit (entry.key ||| xtermKeysModifiers entry.template bs)).orElse
      (xtermKeyIn table)

def xtermKey : Recogniser UInt8 KeyCode := xtermKeyIn xtermKeysTable

/-- A key string of a tree that no other one starts with. -/
def keyString : TtyKey → Recogniser UInt8 KeyCode
  | .nil, _ => .no
  | .node .., [] => .more
  | .node ch key left right next, c :: p =>
    if ch = c then if next = .nil then .found (key, p) else keyString next p
    else if charLt c ch then keyString left (c :: p)
    else keyString right (c :: p)

/-- A key string after an escape. -/
def escapeString (tree : TtyKey) : Recogniser UInt8 KeyCode := (byte 27).andThen fun _ => keyString tree

/-- The next key, if it is one of the key strings or a character after an escape. -/
def decodeString (tree : TtyKey) : Recogniser UInt8 (Option TtyEvent) :=
  ((escapeString tree).andThen fun key => unit (keyEvent key)).orElse <|
  ((byte 27).andThen fun _ => item fun c => if c = 27 then none else some (keyEvent (charKey c ||| keycEscape))).orElse <|
  (((byte 27).andThen fun _ => escapeString tree).andThen fun key => unit (keyEvent (key ||| keycEscape))).orElse
  wait

/-- All of a key with modifiers may be there but the modifiers and what follows them. -/
def AwaitsModifiers (p : List UInt8) : Prop :=
  ∃ entry ∈ xtermKeysTable, template entry.template p = .more ∧ entry.template[p.length]? = some wildcard

instance (p : List UInt8) : Decidable (AwaitsModifiers p) := by
  unfold AwaitsModifiers
  infer_instance

/-- A key with modifiers, where nothing follows. What may be the start of one is none, unless its modifiers
    are next. -/
def xtermKeyEnd : Recogniser UInt8 KeyCode := fun p =>
  match xtermKey p with
  | .no => .no
  | .more => if AwaitsModifiers p then .more else .no
  | .found r => .found r

/-- The next key of all that is read. -/
def decodeKey (t : TtySettings) : Recogniser UInt8 (Option TtyEvent) :=
  (item fun c => if c = 27 then none else some (keyEvent (plainKey t.bspace c))).orElse <|
  (deviceReply.andThen fun _ => unit none).orElse <|
  ((mouseReport t.mouseUtf8).andThen fun m => unit (some { key := keycMouse, mouse := some m })).orElse <|
  (xtermKeyEnd.andThen fun key => unit (keyEvent key)).orElse (decodeString t.keyTree)

/-! ## Stability -/

theorem stable_nothing {β : Type} : Stable (nothing : Recogniser UInt8 β) := ⟨nofun, fun _ _ _ => rfl⟩

theorem splits_nothing {β : Type} : Splits (nothing : Recogniser UInt8 β) := nofun

theorem stable_byte (b : UInt8) : Stable (byte b) := stable_item _

theorem takes_byte (b : UInt8) : Takes (byte b) := takes_item _

theorem stable_reportHead (third : UInt8 → Bool) : Stable (reportHead third) :=
  (stable_byte _).andThen fun _ => (stable_byte _).andThen fun _ => stable_item _

theorem takes_reportHead (third : UInt8 → Bool) : Takes (reportHead third) :=
  (takes_byte _).andThen fun _ => ((takes_byte _).andThen fun _ => (takes_item _).splits).splits

theorem stable_replyText (room : ℕ) : Stable (replyText room) := by
  induction room with
  | zero => exact stable_nothing
  | succ room ih =>
    refine (stable_item _).andThen fun c => ?_
    split_ifs
    · exact stable_unit _
    · exact ih

theorem splits_replyText (room : ℕ) : Splits (replyText room) := by
  induction room with
  | zero => exact splits_nothing
  | succ room ih =>
    refine (takes_item _).splits.andThen fun c => ?_
    split_ifs
    · exact splits_unit _
    · exact ih

theorem stable_deviceReply : Stable deviceReply := (stable_reportHead _).andThen fun _ => stable_replyText _

theorem takes_deviceReply : Takes deviceReply := (takes_reportHead _).andThen fun _ => splits_replyText _

theorem stable_mouseCoordinate (utf8 : Bool) : Stable (mouseCoordinate utf8) := by
  refine (stable_item _).andThen fun c => ?_
  split_ifs
  · exact (stable_item _).andThen fun _ => stable_unit _
  · exact stable_nothing
  · exact stable_unit _

theorem takes_mouseCoordinate (utf8 : Bool) : Takes (mouseCoordinate utf8) := by
  refine (takes_item _).andThen fun c => ?_
  split_ifs
  · exact (takes_item _).splits.andThen fun _ => splits_unit _
  · exact splits_nothing
  · exact splits_unit _

theorem stable_mouseReport (utf8 : Bool) : Stable (mouseReport utf8) := by
  refine (stable_reportHead _).andThen fun _ => (stable_mouseCoordinate utf8).andThen fun b =>
    (stable_mouseCoordinate utf8).andThen fun x => (stable_mouseCoordinate utf8).andThen fun y => ?_
  split_ifs
  · exact stable_nothing
  · exact stable_unit _

theorem takes_mouseReport (utf8 : Bool) : Takes (mouseReport utf8) := by
  have hcoordinate := (takes_mouseCoordinate utf8).splits
  refine (takes_reportHead _).andThen fun _ => hcoordinate.andThen fun b => hcoordinate.andThen fun x =>
    hcoordinate.andThen fun y => ?_
  split_ifs
  · exact splits_nothing
  · exact splits_unit _

theorem stable_template (t : List UInt8) : Stable (template t) := by
  induction t with
  | nil => exact stable_unit _
  | cons c t ih => exact (stable_item _).andThen fun _ => ih.andThen fun _ => stable_unit _

theorem splits_template (t : List UInt8) : Splits (template t) := by
  induction t with
  | nil => exact splits_unit _
  | cons c t ih => exact (takes_item _).splits.andThen fun _ => ih.andThen fun _ => splits_unit _

theorem takes_template {t : List UInt8} (ht : t ≠ []) : Takes (template t) := by
  cases t with
  | nil => exact absurd rfl ht
  | cons c t => exact (takes_item _).andThen fun _ => (splits_template t).andThen fun _ => splits_unit _

theorem stable_xtermKeyIn (table : List XtermKeysEntry) : Stable (xtermKeyIn table) := by
  induction table with
  | nil => exact stable_nothing
  | cons entry table ih => exact ((stable_template _).andThen fun _ => stable_unit _).orElse ih

theorem takes_xtermKeyIn {table : List XtermKeysEntry} (h : ∀ entry ∈ table, entry.template ≠ []) :
    Takes (xtermKeyIn table) := by
  induction table with
  | nil => exact nofun
  | cons entry table ih =>
    refine ((takes_template (h entry List.mem_cons_self)).andThen fun _ => splits_unit _).orElse
      (ih fun entry' hentry => h entry' (List.mem_cons_of_mem _ hentry))

theorem stable_xtermKey : Stable xtermKey := stable_xtermKeyIn _

theorem takes_xtermKey : Takes xtermKey := takes_xtermKeyIn (by decide +kernel)

theorem stable_keyString (tree : TtyKey) : Stable (keyString tree) where
  found p b rest h q := by
    induction tree generalizing p with
    | nil => cases h
    | node ch key left right next ihl ihr ihn =>
      cases p with
      | nil => cases h
      | cons c p =>
        unfold keyString at h
        rw [List.cons_append, keyString]
        split_ifs at h ⊢ with hch hnext hlt
        · obtain ⟨rfl, rfl⟩ := Prod.mk.inj (Answer.found.inj h)
          rfl
        · exact ihn _ h
        · exact ihl _ h
        · exact ihr _ h
  no p h q := by
    induction tree generalizing p with
    | nil => rfl
    | node ch key left right next ihl ihr ihn =>
      cases p with
      | nil => cases h
      | cons c p =>
        unfold keyString at h
        rw [List.cons_append, keyString]
        split_ifs at h ⊢ with hch hnext hlt
        · exact ihn _ h
        · exact ihl _ h
        · exact ihr _ h

theorem takes_keyString (tree : TtyKey) : Takes (keyString tree) := by
  intro p b rest h
  induction tree generalizing p with
  | nil => cases h
  | node ch key left right next ihl ihr ihn =>
    cases p with
    | nil => cases h
    | cons c p =>
      unfold keyString at h
      split_ifs at h with hch hnext hlt
      · obtain ⟨-, rfl⟩ := Prod.mk.inj (Answer.found.inj h)
        exact ⟨c, List.suffix_rfl⟩
      · exact (ihn h).imp fun _ ha => ha.trans (List.suffix_cons c p)
      · exact ihl h
      · exact ihr h

theorem stable_escapeString (tree : TtyKey) : Stable (escapeString tree) :=
  (stable_byte _).andThen fun _ => stable_keyString tree

theorem takes_escapeString (tree : TtyKey) : Takes (escapeString tree) :=
  (takes_byte _).andThen fun _ => (takes_keyString tree).splits

theorem stable_decodeString (tree : TtyKey) : Stable (decodeString tree) :=
  ((stable_escapeString _).andThen fun _ => stable_unit _).orElse <|
  ((stable_byte _).andThen fun _ => stable_item _).orElse <|
  (((stable_byte _).andThen fun _ => stable_escapeString _).andThen fun _ => stable_unit _).orElse stable_wait

theorem takes_decodeString (tree : TtyKey) : Takes (decodeString tree) :=
  ((takes_escapeString _).andThen fun _ => splits_unit _).orElse <|
  ((takes_byte _).andThen fun _ => (takes_item _).splits).orElse <|
  (((takes_byte _).andThen fun _ => (takes_escapeString _).splits).andThen fun _ => splits_unit _).orElse takes_wait

theorem takes_xtermKeyEnd : Takes xtermKeyEnd := by
  intro p b rest h
  unfold xtermKeyEnd at h
  cases hp : xtermKey p with
  | no =>
    rw [hp] at h
    cases h
  | more =>
    rw [hp] at h
    dsimp only at h
    split_ifs at h
  | found r =>
    rw [hp] at h
    exact takes_xtermKey (hp.trans h)

theorem takes_decodeKey (t : TtySettings) : Takes (decodeKey t) :=
  (takes_item _).orElse <| (takes_deviceReply.andThen fun _ => splits_unit _).orElse <|
  ((takes_mouseReport _).andThen fun _ => splits_unit _).orElse <|
  (takes_xtermKeyEnd.andThen fun _ => splits_unit _).orElse (takes_decodeString _)

end Tmux
