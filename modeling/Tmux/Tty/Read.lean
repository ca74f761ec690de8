import Tmux.Tty.Keys

/-!
# Reading from the terminal

The keys in the buffer of a terminal are handled one after the other as long as there are
any (`ttyReadCallback`). An escape that may be the start of a sequence is left in the buffer, and
a timer started, until there is more or the timer has expired.
-/

namespace Tmux

/-- The timer for the rest of a sequence. -/
inductive KeyTimer
  /-- Not initialised. -/
  | unset
  /-- Expired or deleted. -/
  | idle
  | pending
  deriving DecidableEq, Repr

/-- What the decoding of keys is set to. -/
structure TtySettings where
  keyTree : TtyKey := .nil
  /-- The mouse reports in UTF-8. -/
  mouseUtf8 : Bool := false
  /-- The backspace key, if there is one. -/
  bspace : Option UInt8 := none
  deriving DecidableEq, Repr

structure Tty extends TtySettings where
  input : List UInt8 := []
  /-- An escape is left in the buffer. -/
  escape : Bool := false
  keyTimer : KeyTimer := .unset
  mouse : MouseEvent := { x := 0, y := 0, b := 0 }
  xtermVersion : ℕ := 0
  deriving DecidableEq, Repr

/-- A key that is given to the client, with the mouse if it is the mouse key. -/
structure TtyEvent where
  key : KeyCode
  mouse : Option MouseEvent := none
  deriving DecidableEq, Repr

/-- The terminal after a call, the key that is handled, and whether there could be more. -/
abbrev TtyResult := Tty × Option TtyEvent × Bool

def ttySetVersion (tty : Tty) (version : ℕ) : Tty :=
  if tty.xtermVersion ≠ 0 then tty else { tty with xtermVersion := version }

/-- Drain the buffer. -/
def Tty.drain (tty : Tty) (size : ℕ) : Tty := { tty with input := tty.input.drop size }

/-- Hand over a key. -/
def handleKey (tty : Tty) (key : KeyCode) : TtyResult :=
  ({ tty with keyTimer := if tty.keyTimer = .unset then .unset else .idle, escape := false },
    if key = keycNone then none else some { key, mouse := if key = keycMouse then some tty.mouse else none }, true)

/-- Start the timer and wait for expiry or more data. -/
def startTimer (tty : Tty) : TtyResult :=
  if tty.keyTimer = .pending then (tty, none, false)
  else ({ tty with keyTimer := .pending, escape := true }, none, false)

/-- Escape but no key string. If have already seen an escape and the timer has expired, give up
    waiting and send the escape. -/
def unknownKey (tty : Tty) : TtyResult :=
  if tty.escape ∧ tty.keyTimer = .idle then handleKey (tty.drain 1) 27 else startTimer tty

/-- A key string is found, of a node with a key `nodeKey`. -/
def foundKey (tty : Tty) (nodeKey : KeyCode) (longer : Bool) (key : KeyCode) (size : ℕ) : TtyResult :=
  if longer then
    -- Partial key. Start the timer if not already expired.
    if !tty.escape then startTimer tty
    else if nodeKey = keycNone then unknownKey tty
    else handleKey (tty.drain (size + 1)) key
  else handleKey (tty.drain (size + 1)) key

/-- The key of a byte that is not an escape. -/
def plainKey (bspace : Option UInt8) (ch : UInt8) : KeyCode :=
  if bspace = some ch then keycBspace else BitVec.ofNat 32 ch.toNat

/-- Look for matching key string, or skip the escape. -/
def stringKey (tty : Tty) : TtyResult :=
  match ttyKeysFind tty.keyTree tty.input.tail with
  | some (key, longer, size) => foundKey tty key longer key size
  | none => match tty.input.tail with
    | [] => unknownKey tty
    | c :: buf =>
      if c ≠ 27 then handleKey (tty.drain 2) (charKey c ||| keycEscape)
      else if buf = [] then unknownKey tty
      else match ttyKeysFind tty.keyTree buf with
        | some (key, longer, size) => foundKey tty key longer (key ||| keycEscape) (size + 1)
        | none => unknownKey tty

/-- The key of a sequence that starts with an escape. -/
def escapeKey (tty : Tty) (past : UInt8) : Exec TtyResult :=
  match ttyKeysDevice tty.input past with
  | .found (size, version) =>
    pure (handleKey (((version.filter (· < 500)).elim tty (ttySetVersion tty)).drain size) keycNone)
  | .more => pure (unknownKey tty)
  | .no => do
    let (mouse, answer) ← ttyKeysMouse tty.mouseUtf8 tty.mouse tty.input past
    let tty := { tty with mouse }
    match answer with
    | .found size => pure (handleKey (tty.drain size) keycMouse)
    | .more => pure (unknownKey tty)
    | .no => match xtermKeysFind tty.input past with
      | .found (size, key) => pure (handleKey (tty.drain size) key)
      | .more => pure (unknownKey tty)
      | .no => pure (stringKey tty)

/-- Process a key in the buffer. -/
def ttyKeysNext (tty : Tty) (past : UInt8) : Exec TtyResult :=
  match tty.input with
  | [] => pure (tty, none, false)
  | ch :: _ => if ch ≠ 27 then pure (handleKey (tty.drain 1) (plainKey tty.bspace ch)) else escapeKey tty past

/-- Process keys as long as there could be more, so many times at most. -/
def ttyKeysLoop (past : UInt8) : ℕ → Tty → Exec (Tty × List TtyEvent)
  | 0, tty => pure (tty, [])
  | n + 1, tty => do
    let (tty, event, more) ← ttyKeysNext tty past
    if more then do
      let (tty, events) ← ttyKeysLoop past n tty
      pure (tty, event.toList ++ events)
    else pure (tty, event.toList)

/-- What is read from the terminal at once, and the byte that is in memory after it. -/
structure TtyRead where
  data : List UInt8
  past : UInt8
  deriving DecidableEq, Repr

/-- Handle what is read. Every key takes a byte off the buffer. -/
def ttyReadCallback (tty : Tty) (r : TtyRead) : Exec (Tty × List TtyEvent) :=
  ttyKeysLoop r.past ((tty.input ++ r.data).length + 1) { tty with input := tty.input ++ r.data }

/-- Handle what is read, one read after the other, before the timer expires. -/
def ttyReads : Tty → List TtyRead → Exec (Tty × List TtyEvent)
  | tty, [] => pure (tty, [])
  | tty, r :: rs => do
    let (tty, events) ← ttyReadCallback tty r
    let (tty, events') ← ttyReads tty rs
    pure (tty, events ++ events')

end Tmux
