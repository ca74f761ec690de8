import Tmux.Library.Exec
import Tmux.Utf8

/-!
# The client and the server

The server keeps a client for every connection (`ServerClient`): it prints to it, attaches it to a session, locks,
suspends and detaches it, and handles its messages (`serverClientMsgDispatch`). The client itself (`Client`) handles
the messages of the server one after the other, as one that waits (`clientDispatchWait`) or is attached
(`clientDispatchAttached`): which of them is settled when it starts to read, and a message that is not expected
then stops it.

The messages are delivered in order (see `Tmux.Client.Delivery`), so what is on its way is a list. Left out are the
standard input that is sent to the server, and commands of a client that go on after they have returned.
-/

namespace Tmux

open Exec

/-! ## Messages -/

/-- The messages from the server, with the data that they bring. -/
inductive ServerMsg
  | ready
  | stdin
  | stdout (data : List UInt8)
  | stderr (data : List UInt8)
  | version
  | shell (shell : List UInt8)
  | detach
  | detachkill
  | exit (retcode : ℤ)
  | exited
  | shutdown
  | suspend
  | lock (cmd : List UInt8)
  deriving DecidableEq, Repr

/-- What is done to a client by a command, a key binding or the server. -/
inductive ServerAction
  | print (text : List UInt8)
  | error (text : List UInt8)
  | switch (session : ℕ)
  | detach (kill : Bool)
  | lock (cmd : List UInt8)
  | suspend
  /-- The session of the client is destroyed, and perhaps there is another one for it. -/
  | destroy (next : Option ℕ)
  deriving DecidableEq, Repr

/-- What a command does to its client: attach it, unless its terminal fails to open for some cause, or an action. -/
inductive CommandAction
  | attach (session : ℕ) (cause : Option (List UInt8))
  | action (a : ServerAction)
  deriving DecidableEq, Repr

/-- The messages from the client. A command comes with what it does to the client and with whether the client is done
    after it, and the request for a shell with the shell that the server finds. -/
inductive ClientMsg
  | identify (control terminal : Bool)
  | environ (var : List UInt8)
  | command (actions : List CommandAction) (finished : Bool)
  | shell (shell : List UInt8)
  | stdin (data : List UInt8)
  | resize
  | wakeup
  | unlock
  | exiting
  deriving DecidableEq, Repr

/-! ## The server -/

/-- What has been added to a buffer, and how much of it is drained. -/
structure Evbuffer where
  added : List UInt8
  drained : ℕ
  le : drained ≤ added.length
  deriving DecidableEq, Repr

namespace Evbuffer

def new : Evbuffer := ⟨[], 0, Nat.zero_le _⟩

def data (b : Evbuffer) : List UInt8 := b.added.drop b.drained

/-- What has been drained. -/
def sent (b : Evbuffer) : List UInt8 := b.added.take b.drained

def add (b : Evbuffer) (data : List UInt8) : Evbuffer where
  added := b.added ++ data
  drained := b.drained
  le := by
    rw [List.length_append]
    exact Nat.le_add_right_of_le b.le

def drain (b : Evbuffer) (n : ℕ) : Evbuffer := ⟨b.added, min (b.drained + n) b.added.length, Nat.min_le_right _ _⟩

theorem sent_append_data (b : Evbuffer) : b.sent ++ b.data = b.added := List.take_append_drop _ _

@[simp] theorem sent_add (b : Evbuffer) (data : List UInt8) : (b.add data).sent = b.sent :=
  List.take_append_of_le_length b.le

theorem sent_drain (b : Evbuffer) (n : ℕ) : (b.drain n).sent = b.sent ++ b.data.take n := by
  have hdrain : (b.drain n).sent = b.added.take (min (b.drained + n) b.added.length) := rfl
  rw [hdrain, sent, data, ← List.take_add]
  rcases Nat.le_total (b.drained + n) b.added.length with h | h
  · rw [Nat.min_eq_left h]
  · rw [Nat.min_eq_right h, List.take_length, List.take_of_length_le h]

end Evbuffer

/-- The size of the data of a message. -/
def msgBufsiz : ℕ := 8192

/-- A client of the server. -/
structure ServerClient where
  exit : Bool := false
  suspended : Bool := false
  bad : Bool := false
  dead : Bool := false
  control : Bool := false
  terminal : Bool := false
  /-- The terminal is open. -/
  opened : Bool := false
  /-- The terminal is in use. -/
  started : Bool := false
  session : Option ℕ := none
  retcode : ℤ := 0
  stdout : Evbuffer := .new
  stderr : Evbuffer := .new
  deriving DecidableEq, Repr

/-- The message that is sent to a client, if it takes any. -/
def serverWriteClient (c : ServerClient) (msg : ServerMsg) : List ServerMsg := if c.bad then [] else [msg]

/-- What is sent of a buffer, and what is left of it. -/
def serverPush (c : ServerClient) (b : Evbuffer) (msg : List UInt8 → ServerMsg) : Evbuffer × List ServerMsg :=
  let size := min b.data.length msgBufsiz
  if size = 0 then (b, [])
  else
    let sent := serverWriteClient c (msg (b.data.take size))
    (if sent ≠ [] then b.drain size else b, sent)

/-- Push stdout to client if possible. -/
def serverPushStdout (c : ServerClient) : ServerClient × List ServerMsg :=
  let (stdout, sent) := serverPush c c.stdout .stdout
  ({ c with stdout }, sent)

/-- Push stderr to client if possible. -/
def serverPushStderr (c : ServerClient) : ServerClient × List ServerMsg :=
  let (stderr, sent) := serverPush c c.stderr .stderr
  ({ c with stderr }, sent)

def serverClientMsgPrint (c : ServerClient) (text : List UInt8) : ServerClient × List ServerMsg :=
  serverPushStdout { c with stdout := (c.stdout.add text).add [10] }

def serverClientMsgError (c : ServerClient) (text : List UInt8) : ServerClient × List ServerMsg :=
  let (c, sent) := serverPushStderr { c with stderr := (c.stderr.add text).add [10] }
  ({ c with retcode := 1 }, sent)

def serverWriteReady (c : ServerClient) : List ServerMsg := if c.control then [] else serverWriteClient c .ready

/-- Start using the terminal, which is open. -/
def ttyStartTty (c : ServerClient) : Exec ServerClient :=
  if c.opened then pure { c with started := true } else .fault .freed

def ttyStopTty (c : ServerClient) : ServerClient := { c with started := false }

def ttyClose (c : ServerClient) : ServerClient := { ttyStopTty c with opened := false }

/-- Open client terminal if needed; gives the cause if it fails. -/
def serverClientOpen (c : ServerClient) (cause : Option (List UInt8)) : ServerClient × Option (List UInt8) :=
  if c.control then (c, none)
  else if !c.terminal then (c, some (asciiBytes "not a terminal"))
  else
    match cause with
    | none => ({ c with opened := true, started := true }, none)
    | some cause => (ttyClose c, some cause)

/-- Attach the client of a command to a session. -/
def cmdAttachSessionExec (c : ServerClient) (session : ℕ) (cause : Option (List UInt8)) :
    ServerClient × List ServerMsg :=
  match serverClientOpen c cause with
  | (c, some cause) => serverClientMsgError c (asciiBytes "open terminal failed: " ++ cause)
  | (c, none) => ({ c with session := some session }, serverWriteReady c)

/-- Lock a client that has a session. -/
def serverLockClient (c : ServerClient) (cmd : List UInt8) : ServerClient × List ServerMsg :=
  if c.suspended then (c, [])
  else ({ ttyStopTty c with suspended := true }, serverWriteClient c (.lock cmd))

/-- What an action does. A client is only found to be switched, locked or suspended if it has a session. -/
def serverAction (c : ServerClient) : ServerAction → ServerClient × List ServerMsg
  | .print text => serverClientMsgPrint c text
  | .error text => serverClientMsgError c text
  | .switch session => if c.session = none then (c, []) else ({ c with session := some session }, [])
  | .detach kill => (c, serverWriteClient c (if kill then .detachkill else .detach))
  | .lock cmd => if c.session = none then (c, []) else serverLockClient c cmd
  | .suspend =>
    if c.session = none then (c, [])
    else ({ ttyStopTty c with suspended := true }, serverWriteClient c .suspend)
  | .destroy next =>
    if c.session = none then (c, [])
    else
      match next with
      | none => ({ c with session := none, exit := true }, [])
      | some session => ({ c with session := some session }, [])

def commandAction (c : ServerClient) : CommandAction → ServerClient × List ServerMsg
  | .attach session cause => cmdAttachSessionExec c session cause
  | .action a => serverAction c a

/-- What a command does, one action after the other. -/
def commandActions (c : ServerClient) : List CommandAction → ServerClient × List ServerMsg
  | [] => (c, [])
  | action :: actions =>
    let (c, sent) := commandAction c action
    let (c, rest) := commandActions c actions
    (c, sent ++ rest)

/-- Handle a message from a client. -/
def serverClientMsgDispatch (c : ServerClient) : ClientMsg → Exec (ServerClient × List ServerMsg)
  | .command actions finished =>
    let (c, sent) := commandActions c actions
    pure ({ c with exit := c.exit || finished }, sent)
  | .identify control terminal =>
    if control then pure ({ c with control := true, suspended := true }, serverWriteClient c .stdin)
    else if terminal then pure ({ c with terminal := true }, [])
    else pure (c, [])
  | .stdin _ => pure (c, [])
  | .resize => pure (c, [])
  | .exiting =>
    let c := ttyClose { c with session := none }
    pure (c, serverWriteClient c .exited)
  | .wakeup | .unlock =>
    if !c.suspended then pure (c, [])
    else do
      let c ← ttyStartTty { c with suspended := false }
      pure (c, [])
  | .environ _ => pure (c, [])
  | .shell shell => pure ({ c with bad := true }, serverWriteClient c (.shell shell))

/-- Lose a client. -/
def serverClientLost (c : ServerClient) : ServerClient :=
  { (if c.terminal then ttyClose c else c) with dead := true }

/-- Check if client should be exited, once all its output is sent. -/
def serverClientCheckExit (c : ServerClient) : ServerClient × List ServerMsg :=
  if !c.exit then (c, [])
  else if c.stdout.data.length ≠ 0 then (c, [])
  else if c.stderr.data.length ≠ 0 then (c, [])
  else ({ c with exit := false }, serverWriteClient c (.exit c.retcode))

/-! ## The client -/

inductive ClientExit
  | none
  | detached
  | detachedHup
  | lostTty
  | terminated
  | lostServer
  | exited
  | serverExited
  deriving DecidableEq, Repr

/-- How the loop of a client ends: at a message, by the signal to terminate, with the server, in a shell, or because a
    message is not expected. -/
inductive ClientEnd
  | message (msg : ServerMsg)
  | terminated
  | lostServer
  | shell (shell : List UInt8)
  | unexpected (msg : ServerMsg)
  deriving DecidableEq, Repr

/-- A client: the messages that it has read, how it handles them if it does so now, and what it has written. -/
structure Client where
  attached : Bool := false
  /-- Standard input is read. -/
  stdinEvent : Bool := false
  inbox : List ServerMsg := []
  /-- The messages are handled as those of a client that is attached or waits. -/
  dispatch : Option Bool := none
  /-- The client has stopped itself. -/
  stopped : Bool := false
  /-- The signal to continue is caught and not yet handled. -/
  continued : Bool := false
  exitreason : ClientExit := .none
  exittype : Option ServerMsg := none
  exitval : ℤ := 0
  stdout : List UInt8 := []
  stderr : List UInt8 := []
  ended : Option ClientEnd := none
  deriving DecidableEq, Repr

def Client.leave (c : Client) (e : ClientEnd) : Client := { c with ended := some e }

/-- Handle a message in wait state (before `ready`). -/
def clientDispatchWait (c : Client) : ServerMsg → Client × List ClientMsg
  | .exit retcode => (Client.leave { c with exitval := retcode } (.message (.exit retcode)), [])
  | .shutdown => (c.leave (.message .shutdown), [])
  | .ready => ({ c with stdinEvent := false, attached := true }, [])
  | .stdin => ({ c with stdinEvent := true }, [])
  | .stdout data => ({ c with stdout := c.stdout ++ data }, [])
  | .stderr data => ({ c with stderr := c.stderr ++ data }, [])
  | .version => (Client.leave { c with exitval := 1 } (.message .version), [])
  | .shell shell => (c.leave (.shell shell), [])
  | .detach => (c, [.exiting])
  | .exited => (c.leave (.message .exited), [])
  | msg => (c.leave (.unexpected msg), [])

/-- Handle a message in attached state (after `ready`). -/
def clientDispatchAttached (c : Client) : ServerMsg → Client × List ClientMsg
  | .detachkill => ({ c with exittype := some .detachkill, exitreason := .detachedHup }, [.exiting])
  | .detach => ({ c with exittype := some .detach, exitreason := .detached }, [.exiting])
  | .exit _ => ({ c with exitreason := .exited }, [.exiting])
  | .exited => (c.leave (.message .exited), [])
  | .shutdown => ({ c with exitreason := .serverExited, exitval := 1 }, [.exiting])
  | .suspend => ({ c with stopped := true }, [])
  | .lock _ => (c, [.unlock])
  | msg => (c.leave (.unexpected msg), [])

/-- Handle a message in the state that the client was in when it started to read. -/
def clientDispatch (attached : Bool) (c : Client) (msg : ServerMsg) : Client × List ClientMsg :=
  if attached then clientDispatchAttached c msg else clientDispatchWait c msg

/-- The signals that a client handles. -/
inductive ClientSignal
  | hup
  | term
  | winch
  | cont
  deriving DecidableEq, Repr

/-- Handle a signal. -/
def clientSignal (c : Client) (sig : ClientSignal) : Client × List ClientMsg :=
  if !c.attached then (if sig = .term then c.leave .terminated else c, [])
  else
    match sig with
    | .hup => ({ c with exitreason := .lostTty, exitval := 1 }, [.exiting])
    | .term => ({ c with exitreason := .terminated, exitval := 1 }, [.exiting])
    | .winch => (c, [.resize])
    | .cont => (c, [.wakeup])

end Tmux
