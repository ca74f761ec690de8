import Mathlib.Algebra.GroupWithZero.Nat
import Tmux.Library.Block
import Tmux.Library.Incremental
import Tmux.Numbers
import Tmux.Utf8

/-!
# Keys of the terminal

What is read from a terminal is decoded key by key (`ttyKeysNext`): replies to a request for the
device attributes (`ttyKeysDevice`), reports of the mouse (`ttyKeysMouse`), keys with modifiers
as xterm sends them (`xtermKeysFind`), and the key strings of the terminal, in a ternary tree
(`ttyKeysFind`).

The functions that look at the buffer get `past`, the byte in memory after it.
-/

namespace Tmux

/-! ## Keys -/

/-- A key with its modifiers. -/
abbrev KeyCode := BitVec 32

def keycNone : KeyCode := 0xfff
def keycEscape : KeyCode := 0x2000
def keycCtrl : KeyCode := 0x4000
def keycShift : KeyCode := 0x8000
def keycMouse : KeyCode := 0x1000
def keycBspace : KeyCode := 0x1001

/-- The function key `n`, from 1 on. -/
def keycF (n : ℕ) : KeyCode := 0x1001 + n

def keycIc : KeyCode := 0x1016
def keycDc : KeyCode := 0x1017
def keycHome : KeyCode := 0x1018
def keycEnd : KeyCode := 0x1019
def keycNpage : KeyCode := 0x101a
def keycPpage : KeyCode := 0x101b
def keycUp : KeyCode := 0x101d
def keycDown : KeyCode := 0x101e
def keycLeft : KeyCode := 0x101f
def keycRight : KeyCode := 0x1020

/-- A byte as a `char`, which has a sign. -/
def charKey (ch : UInt8) : KeyCode := ch.toBitVec.signExtend 32

/-- A mouse event: where it is, and which buttons are pressed. -/
structure MouseEvent where
  x : ℕ
  y : ℕ
  b : ℕ
  deriving DecidableEq, Repr

/-! ## Keys with modifiers -/

structure XtermKeysEntry where
  key : KeyCode
  template : List UInt8
  deriving DecidableEq, Repr

/-- The keys of xterm, the modifier in the place of the wildcard `_`. -/
def xtermKeysTable : List XtermKeysEntry :=
  [(keycF 1, "\x1b[1;_P"), (keycF 1, "\x1bO1;_P"), (keycF 1, "\x1bO_P"),
    (keycF 2, "\x1b[1;_Q"), (keycF 2, "\x1bO1;_Q"), (keycF 2, "\x1bO_Q"),
    (keycF 3, "\x1b[1;_R"), (keycF 3, "\x1bO1;_R"), (keycF 3, "\x1bO_R"),
    (keycF 4, "\x1b[1;_S"), (keycF 4, "\x1bO1;_S"), (keycF 4, "\x1bO_S"),
    (keycF 5, "\x1b[15;_~"), (keycF 6, "\x1b[17;_~"), (keycF 7, "\x1b[18;_~"), (keycF 8, "\x1b[19;_~"),
    (keycF 9, "\x1b[20;_~"), (keycF 10, "\x1b[21;_~"), (keycF 11, "\x1b[23;_~"), (keycF 12, "\x1b[24;_~"),
    (keycF 13, "\x1b[25;_~"), (keycF 14, "\x1b[26;_~"), (keycF 15, "\x1b[28;_~"), (keycF 16, "\x1b[29;_~"),
    (keycF 17, "\x1b[31;_~"), (keycF 18, "\x1b[32;_~"), (keycF 19, "\x1b[33;_~"), (keycF 20, "\x1b[34;_~"),
    (keycUp, "\x1b[1;_A"), (keycDown, "\x1b[1;_B"), (keycRight, "\x1b[1;_C"), (keycLeft, "\x1b[1;_D"),
    (keycHome, "\x1b[1;_H"), (keycEnd, "\x1b[1;_F"), (keycPpage, "\x1b[5;_~"), (keycNpage, "\x1b[6;_~"),
    (keycIc, "\x1b[2;_~"), (keycDc, "\x1b[3;_~")].map fun (key, template) =>
      { key, template := asciiBytes template }

/-- The wildcard in a template. -/
def wildcard : UInt8 := 95

/-- Match a template against the buffer from a place on, the end of the buffer not being the end of
    what is looked at: the byte past it is compared too. -/
def matchFrom (past : UInt8) : List UInt8 → List UInt8 → Answer Unit
  | [], _ => .found ()
  | c :: _, [] => if c ≠ wildcard ∧ past ≠ c then .no else .more
  | c :: template, b :: buf => if c ≠ wildcard ∧ b ≠ c then .no else matchFrom past template buf

/-- Match key against buffer, treating `_` as a wildcard. -/
def xtermKeysMatch (template buf : List UInt8) (past : UInt8) : Answer Unit :=
  if buf.length = 0 then .found () else matchFrom past template buf

/-- Find modifiers based on template. -/
def xtermKeysModifiers (template buf : List UInt8) : KeyCode :=
  match buf[template.idxOf wildcard]? with
  | none => 0
  | some ch =>
    let param := ch - 49
    let modifiers := if param &&& 1 ≠ 0 then keycShift else 0
    let modifiers := if param &&& 2 ≠ 0 then modifiers ||| keycEscape else modifiers
    let modifiers := if param &&& 4 ≠ 0 then modifiers ||| keycCtrl else modifiers
    if param &&& 8 ≠ 0 then modifiers ||| keycEscape else modifiers

/-- Lookup key from a buffer against a table. Gives the size and the key. -/
def xtermKeysFindIn (buf : List UInt8) (past : UInt8) : List XtermKeysEntry → Answer (ℕ × KeyCode)
  | [] => .no
  | entry :: table => match xtermKeysMatch entry.template buf past with
    | .found () => .found (entry.template.length, entry.key ||| xtermKeysModifiers entry.template buf)
    | .more => .more
    | .no => xtermKeysFindIn buf past table

def xtermKeysFind (buf : List UInt8) (past : UInt8) : Answer (ℕ × KeyCode) := xtermKeysFindIn buf past xtermKeysTable

/-! ## Key strings -/

/-- A ternary tree of key strings: a node has its character and its key, the nodes of lower and higher
    characters, and those of the next character. -/
inductive TtyKey
  | nil
  | node (ch : UInt8) (key : KeyCode) (left right next : TtyKey)
  deriving DecidableEq, Repr

/-- The order of characters, which have a sign. -/
def charLt (a b : UInt8) : Bool := a.toInt8 < b.toInt8

/-- The nodes of a string that is not in the tree. -/
def ttyKeyChain (key : KeyCode) : List UInt8 → TtyKey
  | [] => .nil
  | [ch] => .node ch key .nil .nil .nil
  | ch :: s => .node ch keycNone .nil .nil (ttyKeyChain key s)

/-- Add next node to the tree. -/
def ttyKeysAdd1 (key : KeyCode) : TtyKey → List UInt8 → TtyKey
  | tk, [] => tk
  | .nil, s => ttyKeyChain key s
  | .node ch k left right next, c :: s =>
    if c = ch then
      -- If this is the end of the string, no more is necessary.
      if s = [] then .node ch key left right next
      else .node ch k left right (ttyKeysAdd1 key next s)
    else if charLt c ch then .node ch k (ttyKeysAdd1 key left (c :: s)) right next
    else .node ch k left (ttyKeysAdd1 key right (c :: s)) next

/-- Find the node of a string: its key, whether there are longer strings, and the size. -/
def ttyKeysFind1 : TtyKey → UInt8 → List UInt8 → ℕ → Option (KeyCode × Bool × ℕ)
  | .nil, _, _, _ => none
  | .node ch key left right next, c, buf, size =>
    if ch = c then
      match buf with
      | [] => some (key, decide (next ≠ .nil), size + 1)
      | c :: buf =>
        if next = .nil ∧ key ≠ keycNone then some (key, false, size + 1) else ttyKeysFind1 next c buf (size + 1)
    else if charLt c ch then ttyKeysFind1 left c buf size
    else ttyKeysFind1 right c buf size

/-- Lookup a key in the tree. -/
def ttyKeysFind (tree : TtyKey) : List UInt8 → Option (KeyCode × Bool × ℕ)
  | [] => none
  | c :: buf => ttyKeysFind1 tree c buf 0

/-- Replace the key of the node that is found. -/
def replaceKey (key : KeyCode) : TtyKey → List UInt8 → TtyKey
  | .nil, _ => .nil
  | tk, [] => tk
  | .node ch k left right next, c :: s =>
    if ch = c then
      if s = [] ∨ (next = .nil ∧ k ≠ keycNone) then .node ch key left right next
      else .node ch k left right (replaceKey key next s)
    else if charLt c ch then .node ch k (replaceKey key left (c :: s)) right next
    else .node ch k left (replaceKey key right (c :: s)) next

def ttyKeysAdd (tree : TtyKey) (s : List UInt8) (key : KeyCode) : TtyKey :=
  match ttyKeysFind tree s with
  | none => ttyKeysAdd1 key tree s
  | some _ => replaceKey key tree s

/-- Initialise a key tree from a table: of the strings, those that start with an escape and go on. -/
def ttyKeysInit (table : List (List UInt8 × KeyCode)) : TtyKey :=
  table.foldl (fun tree (s, key) => match s with
    | 27 :: c :: s => ttyKeysAdd tree (c :: s) key
    | _ => tree) .nil

/-! ## Mouse reports -/

/-- The start of a report, of three bytes, of which the last one is tested. -/
def reportStart (third : UInt8 → Bool) : List UInt8 → Answer Unit
  | [] => .no
  | c₀ :: buf =>
    if c₀ ≠ 27 then .no
    else match buf with
      | [] => .more
      | c₁ :: buf =>
        if c₁ ≠ 91 then .no
        else match buf with
          | [] => .more
          | c₂ :: buf => if !third c₂ then .no else if buf = [] then .more else .found ()

/-- Read a value of a mouse report at an offset, and the offset after it. -/
def readMouse (utf8 : Bool) (buf : List UInt8) (past : UInt8) (size : ℕ) : Exec (Answer (ℕ × ℕ)) :=
  if buf.length < size then pure .more
  else do
    let ch ← Block.load (buf ++ [past]) size
    if utf8 then do
      let (utf8data, more) ← utf8Open ch
      if more ≠ 0 then
        if utf8data.size ≠ 2 then pure .no
        else if buf.length < size + 1 then pure .more
        else do
          let ch ← Block.load (buf ++ [past]) (size + 1)
          let (utf8data, _) ← utf8Append utf8data ch
          pure (.found (utf8Combine utf8data, size + 2))
      else pure (.found (ch.toNat, size + 1))
    else pure (.found (ch.toNat, size + 1))

/-- Check and return the mouse input. -/
def checkMouse (m : MouseEvent) (size : ℕ) : MouseEvent × Answer ℕ :=
  if m.b < 32 ∨ m.x < 33 ∨ m.y < 33 then (m, .no)
  else ({ b := m.b - 32, x := m.x - 33, y := m.y - 33 }, .found size)

/-- Read a value and go on with it, if there is one. -/
def mouseValue (utf8 : Bool) (buf : List UInt8) (past : UInt8) (size : ℕ) (m : MouseEvent)
    (go : ℕ → ℕ → Exec (MouseEvent × Answer ℕ)) : Exec (MouseEvent × Answer ℕ) := do
  match ← readMouse utf8 buf past size with
  | .no => pure (m, .no)
  | .more => pure (m, .more)
  | .found (value, size) => go value size

/-- Handle mouse key input. Gives the mouse, as far as it is read, and the size of the report. -/
def ttyKeysMouse (utf8 : Bool) (m : MouseEvent) (buf : List UInt8) (past : UInt8) :
    Exec (MouseEvent × Answer ℕ) :=
  match reportStart (· = 77) buf with
  | .no => pure (m, .no)
  | .more => pure (m, .more)
  | .found () =>
    mouseValue utf8 buf past 3 m fun b size =>
      mouseValue utf8 buf past size { m with b } fun x size =>
        mouseValue utf8 buf past size { m with b, x } fun y size =>
          pure (checkMouse { b, x, y } size)

/-! ## Device attributes -/

/-- Copy the rest of a reply up to a `c`, as far as there is room. -/
def deviceText (past : UInt8) : ℕ → List UInt8 → Answer (List UInt8)
  | 0, _ => .no
  | _ + 1, [] => if past = 99 then .found [] else .more
  | room + 1, c :: buf =>
    if c = 99 then .found []
    else match deviceText past room buf with
      | .found tmp => .found (c :: tmp)
      | .no => .no
      | .more => .more

/-- The version in the text of a reply: the number after the first semicolon. -/
def deviceVersion (tmp : List UInt8) : ℕ :=
  match (strtoul (tmp.takeWhile (· ≠ 0))).2 with
  | 59 :: s =>
    let (b, rest) := strtoul s
    if rest.head?.any (· ≠ 59) then 0 else b % Exec.word
  | _ => 0

/-- Handle device attributes input. Gives the size of the reply, and the version if it is secondary. -/
def ttyKeysDevice (buf : List UInt8) (past : UInt8) : Answer (ℕ × Option ℕ) :=
  match reportStart (fun c => c = 62 || c = 63) buf with
  | .no => .no
  | .more => .more
  | .found () => match deviceText past 63 (buf.drop 3) with
    | .no => .no
    | .more => .more
    -- Only secondary is of interest.
    | .found tmp => .found (4 + tmp.length, if buf[2]? = some 62 then some (deviceVersion tmp) else none)

end Tmux
