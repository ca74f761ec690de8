import Tmux.Library.Runs
import Tmux.Client.Dispatch

/-!
# The exchange between the client and the server

The client and the server act as they like (`LinkEvent`), each handling the messages of the other in the order in which
they were sent. Whatever they do:

* a client that is suspended is not forgotten: a message that suspends it, the signal that continues it or its answer is
  on the way, and if nothing is it has stopped itself (`linkRun_resumes`);
* a client that says that it is exiting is answered, the server having left its session and its terminal
  (`linkRun_exits`);
* a client that waits and is told to exit has written all that was printed to it until then (`linkRun_prints`).

When the server uses a terminal that it has closed is in `Tmux.Client.Opened`.
-/

namespace Tmux

open Exec

/-- A connection: its ends, the messages on their way to each of them, and all that the client has sent. -/
structure Link where
  server : ServerClient := {}
  client : Client := {}
  toClient : List ServerMsg := []
  toServer : List ClientMsg
  said : List ClientMsg := toServer

/-- What happens at the ends of a connection. -/
inductive LinkEvent
  /-- A command of another client, a key binding or the server acts on the client. -/
  | action (a : ServerAction)
  /-- The server handles a message. -/
  | message
  /-- The server sends what is printed. -/
  | push
  /-- The server looks whether the client is to exit. -/
  | loop
  /-- The server is shut down; if the client is lost, the first `n` messages still reach it. -/
  | shutdown (n : ℕ)
  /-- The server loses the client. -/
  | lost (n : ℕ)
  /-- The client reads `n` messages and starts to handle them. -/
  | read (n : ℕ)
  /-- The client handles a message that it has read. -/
  | take
  | signal (sig : ClientSignal)
  /-- The signal to continue reaches the client. -/
  | continue
  /-- The client finds that the server is gone. -/
  | lostServer
  /-- Only the first `n` messages of a client that has ended reach the server. -/
  | drop (n : ℕ)

namespace Link

/-- The messages that the client has not handled. -/
def unread (l : Link) : List ServerMsg := l.client.inbox ++ l.toClient

/-- The client waits for events. -/
def idle (l : Link) : Bool := l.client.ended.isNone && l.client.dispatch.isNone && !l.client.stopped

def served (l : Link) (r : ServerClient × List ServerMsg) : Link :=
  { l with server := r.1, toClient := l.toClient ++ r.2 }

def acted (l : Link) (r : Client × List ClientMsg) : Link :=
  { l with client := r.1, toServer := l.toServer ++ r.2, said := l.said ++ r.2 }

def lose (l : Link) (n : ℕ) : Link :=
  { l with server := serverClientLost l.server, toClient := l.toClient.take n, toServer := [] }

def step (l : Link) : LinkEvent → Exec Link
  | .action a => pure (if l.server.dead then l else l.served (serverAction l.server a))
  | .message =>
    if l.server.dead then pure l
    else
      match l.toServer with
      | [] => pure l
      | msg :: toServer => do
        let r ← serverClientMsgDispatch l.server msg
        pure (served { l with toServer } r)
  | .push =>
    if l.server.dead then pure l
    else
      let l := l.served (serverPushStdout l.server)
      pure (l.served (serverPushStderr l.server))
  | .loop => pure (if l.server.dead then l else l.served (serverClientCheckExit l.server))
  | .shutdown n =>
    if l.server.dead then pure l
    else if l.server.bad || l.server.suspended then
      pure (lose { l with server.session := none } n)
    else pure (l.served ({ l.server with session := none }, serverWriteClient l.server .shutdown))
  | .lost n => pure (if l.server.dead then l else l.lose n)
  | .read n =>
    pure (if l.idle then
      { l with
        client.inbox := l.toClient.take n, client.dispatch := some l.client.attached,
        toClient := l.toClient.drop n }
    else l)
  | .take =>
    if l.client.ended.isSome || l.client.stopped then pure l
    else
      match l.client.dispatch, l.client.inbox with
      | none, _ => pure l
      | some _, [] => pure { l with client.dispatch := none }
      | some attached, msg :: inbox =>
        let client := { l.client with inbox }
        pure (l.acted (if attached then clientDispatchAttached client msg else clientDispatchWait client msg))
  | .signal sig =>
    pure (if !l.idle then l
      else if sig = .cont then
        if l.client.continued then l.acted (clientSignal { l.client with continued := false } sig) else l
      else l.acted (clientSignal l.client sig))
  | .continue =>
    pure (if l.client.ended.isSome then l else { l with client.stopped := false, client.continued := true })
  | .lostServer =>
    pure (if l.client.ended.isNone && l.server.dead then
      { l with client := Client.leave { l.client with exitreason := .lostServer, exitval := 1 } .lostServer }
    else l)
  | .drop n => pure (if l.client.ended.isSome then { l with toServer := l.toServer.take n } else l)

def run (l : Link) (events : List LinkEvent) : Exec Link := events.foldlM step l

/-- A connection just made: the client has sent its environment, what it is, and its command or that it wants a shell. -/
def init (vars : List (List UInt8)) (control terminal : Bool) (first : List CommandAction × Bool ⊕ List UInt8) :
    Link where
  toServer := vars.map .environ ++
    [.identify control terminal, first.elim (fun command => .command command.1 command.2) .shell]

end Link

/-! ## What the server does -/

/-- Whether the client is suspended by a message. -/
def ServerMsg.suspends : ServerMsg → Bool
  | .suspend | .lock _ => true
  | _ => false

/-- Whether the client says by a message that it goes on. -/
def ClientMsg.resumes : ClientMsg → Bool
  | .wakeup | .unlock => true
  | _ => false

/-- The messages that the client sends at first. -/
def ClientMsg.first : ClientMsg → Bool
  | .environ _ | .identify _ _ | .command _ _ | .shell _ => true
  | _ => false

/-- What is printed to the client by messages. -/
def outs (l : List ServerMsg) : List UInt8 :=
  l.flatMap fun
    | .stdout data => data
    | _ => []

/-- The errors that are printed to the client by messages. -/
def errs (l : List ServerMsg) : List UInt8 :=
  l.flatMap fun
    | .stderr data => data
    | _ => []

@[simp] theorem outs_append (l m : List ServerMsg) : outs (l ++ m) = outs l ++ outs m := List.flatMap_append

@[simp] theorem errs_append (l m : List ServerMsg) : errs (l ++ m) = errs l ++ errs m := List.flatMap_append

/-- What the server does to a client and sends to it, when it handles no message. -/
structure Serves (c c' : ServerClient) (sent : List ServerMsg) : Prop where
  dead : c'.dead = c.dead
  bad : c'.bad = c.bad
  control : c'.control = c.control
  out : c'.stdout.sent = c.stdout.sent ++ outs sent
  err : c'.stderr.sent = c.stderr.sent ++ errs sent
  exited : ServerMsg.exited ∉ sent
  suspended : c'.suspended = true → c.suspended = true ∨ c.bad = true ∨ ∃ m ∈ sent, m.suspends = true

variable {c c' c'' : ServerClient} {sent sent' : List ServerMsg}

theorem Serves.refl (c : ServerClient) : Serves c c [] :=
  ⟨rfl, rfl, rfl, (List.append_nil _).symm, (List.append_nil _).symm, List.not_mem_nil, .inl⟩

theorem Serves.trans (h : Serves c c' sent) (h' : Serves c' c'' sent') : Serves c c'' (sent ++ sent') where
  dead := h'.dead.trans h.dead
  bad := h'.bad.trans h.bad
  control := h'.control.trans h.control
  out := by rw [h'.out, h.out, outs_append, List.append_assoc]
  err := by rw [h'.err, h.err, errs_append, List.append_assoc]
  exited := List.not_mem_append h.exited h'.exited
  suspended hs := by
    rcases h'.suspended hs with hs | hbad | ⟨m, hm, hsuspends⟩
    · rcases h.suspended hs with hs | hbad | ⟨m, hm, hsuspends⟩
      · exact .inl hs
      · exact .inr (.inl hbad)
      · exact .inr (.inr ⟨m, List.mem_append_left _ hm, hsuspends⟩)
    · exact .inr (.inl (h.bad ▸ hbad))
    · exact .inr (.inr ⟨m, List.mem_append_right _ hm, hsuspends⟩)

/-- Serving after a change without a message. -/
theorem Serves.after (h : Serves c c' []) (h' : Serves c' c'' sent) : Serves c c'' sent := h.trans h'

theorem mem_serverWriteClient {m msg : ServerMsg} (h : m ∈ serverWriteClient c msg) : m = msg := by
  unfold serverWriteClient at h
  split_ifs at h
  · exact absurd h List.not_mem_nil
  · exact List.mem_singleton.1 h

theorem outs_serverWriteClient {msg : ServerMsg} (h : outs [msg] = []) : outs (serverWriteClient c msg) = [] := by
  unfold serverWriteClient
  split_ifs
  · rfl
  · exact h

theorem errs_serverWriteClient {msg : ServerMsg} (h : errs [msg] = []) : errs (serverWriteClient c msg) = [] := by
  unfold serverWriteClient
  split_ifs
  · rfl
  · exact h

/-- Sending a message that brings no output. -/
theorem serves_write {msg : ServerMsg} (hdead : c'.dead = c.dead) (hbad : c'.bad = c.bad)
    (hcontrol : c'.control = c.control) (hout : c'.stdout = c.stdout) (herr : c'.stderr = c.stderr)
    (houts : outs [msg] = []) (herrs : errs [msg] = []) (hmsg : msg ≠ .exited)
    (hsuspended : c'.suspended = true → c.suspended = true ∨ msg.suspends = true) :
    Serves c c' (serverWriteClient c msg) where
  dead := hdead
  bad := hbad
  control := hcontrol
  out := by rw [outs_serverWriteClient houts, List.append_nil, hout]
  err := by rw [errs_serverWriteClient herrs, List.append_nil, herr]
  exited h := hmsg (mem_serverWriteClient h).symm
  suspended hs := by
    rcases hsuspended hs with h | h
    · exact .inl h
    · rw [serverWriteClient]
      split_ifs with hb
      · exact .inr (.inl hb)
      · exact .inr (.inr ⟨msg, List.mem_singleton_self _, h⟩)

/-- Changes of the client without a message. -/
theorem serves_nil (hdead : c'.dead = c.dead) (hbad : c'.bad = c.bad) (hcontrol : c'.control = c.control)
    (hout : c'.stdout.sent = c.stdout.sent) (herr : c'.stderr.sent = c.stderr.sent)
    (hsuspended : c'.suspended = c.suspended) : Serves c c' [] where
  dead := hdead
  bad := hbad
  control := hcontrol
  out := hout.trans (List.append_nil _).symm
  err := herr.trans (List.append_nil _).symm
  exited := List.not_mem_nil
  suspended hs := .inl (hsuspended ▸ hs)

/-- What the server does to a client, outside of a command of the client: it never opens its terminal or gives it a
    session when it has none, only suspends it in a session, and tells it neither that it is ready nor to exit. -/
structure Acts (c c' : ServerClient) (sent : List ServerMsg) : Prop extends Serves c c' sent where
  opened : c'.opened = c.opened
  session : c.session = none → c'.session = none
  within : c'.suspended = true → c.suspended = true ∨ c.session ≠ none
  quiet : ∀ m ∈ sent, m ≠ .ready ∧ ∀ retcode, m ≠ .exit retcode

theorem Acts.refl (c : ServerClient) : Acts c c [] := ⟨.refl c, rfl, id, .inl, nofun⟩

theorem Acts.trans (h : Acts c c' sent) (h' : Acts c' c'' sent') : Acts c c'' (sent ++ sent') where
  toServes := h.toServes.trans h'.toServes
  opened := h'.opened.trans h.opened
  session hs := h'.session (h.session hs)
  within hs := (h'.within hs).elim h.within fun hne => .inr fun hn => hne (h.session hn)
  quiet := List.forall_mem_append.2 ⟨h.quiet, h'.quiet⟩

theorem Acts.after (h : Acts c c' []) (h' : Acts c' c'' sent) : Acts c c'' sent := h.trans h'

theorem quiet_serverWriteClient {msg : ServerMsg} (h : msg ≠ .ready ∧ ∀ retcode, msg ≠ .exit retcode) :
    ∀ m ∈ serverWriteClient c msg, m ≠ .ready ∧ ∀ retcode, m ≠ .exit retcode := fun m hm => by
  rwa [mem_serverWriteClient hm]

theorem serverPush_sent (c : ServerClient) (b : Evbuffer) (msg : List UInt8 → ServerMsg) :
    serverPush c b msg = (b, []) ∨
      ∃ data, (serverPush c b msg).2 = [msg data] ∧ (serverPush c b msg).1.sent = b.sent ++ data := by
  unfold serverPush serverWriteClient
  dsimp only
  split_ifs with hsize hbad hsent
  · exact .inl rfl
  · exact absurd rfl hsent
  · exact .inl rfl
  · exact .inr ⟨_, rfl, Evbuffer.sent_drain b _⟩
  · rename_i hnil
    exact absurd (List.cons_ne_nil _ _) hnil

theorem acts_pushStdout (c : ServerClient) : Acts c (serverPushStdout c).1 (serverPushStdout c).2 := by
  rcases serverPush_sent c c.stdout .stdout with h | ⟨data, hsent, hdata⟩
  · rw [serverPushStdout, h]
    exact .refl c
  · rw [serverPushStdout]
    dsimp only
    rw [hsent]
    exact ⟨⟨rfl, rfl, rfl, by simpa [outs] using hdata, by simp [errs], by simp, .inl⟩, rfl, id, .inl, by simp⟩

theorem acts_pushStderr (c : ServerClient) : Acts c (serverPushStderr c).1 (serverPushStderr c).2 := by
  rcases serverPush_sent c c.stderr .stderr with h | ⟨data, hsent, hdata⟩
  · rw [serverPushStderr, h]
    exact .refl c
  · rw [serverPushStderr]
    dsimp only
    rw [hsent]
    exact ⟨⟨rfl, rfl, rfl, by simp [outs], by simpa [errs] using hdata, by simp, .inl⟩, rfl, id, .inl, by simp⟩

theorem acts_print (c : ServerClient) (text : List UInt8) :
    Acts c (serverClientMsgPrint c text).1 (serverClientMsgPrint c text).2 := by
  have hadd : Acts c { c with stdout := (c.stdout.add text).add [10] } [] :=
    ⟨serves_nil rfl rfl rfl (by simp) rfl rfl, rfl, id, .inl, nofun⟩
  exact hadd.after (acts_pushStdout _)

theorem acts_error (c : ServerClient) (text : List UInt8) :
    Acts c (serverClientMsgError c text).1 (serverClientMsgError c text).2 := by
  have hadd : Acts c { c with stderr := (c.stderr.add text).add [10] } [] :=
    ⟨serves_nil rfl rfl rfl rfl (by simp) rfl, rfl, id, .inl, nofun⟩
  have herror := hadd.after (acts_pushStderr _)
  rw [serverClientMsgError]
  exact ⟨⟨herror.dead, herror.bad, herror.control, herror.out, herror.err, herror.exited, herror.suspended⟩,
    herror.opened, herror.session, herror.within, herror.quiet⟩

theorem acts_action (c : ServerClient) (a : ServerAction) : Acts c (serverAction c a).1 (serverAction c a).2 := by
  cases a with
  | print text => exact acts_print c text
  | error text => exact acts_error c text
  | switch session =>
    rw [serverAction]
    split_ifs with hsession
    · exact .refl c
    · exact ⟨serves_nil rfl rfl rfl rfl rfl rfl, rfl, fun h => absurd h hsession, .inl, nofun⟩
  | detach kill =>
    rw [serverAction]
    cases kill <;> exact ⟨serves_write rfl rfl rfl rfl rfl rfl rfl nofun .inl, rfl, id, .inl,
      quiet_serverWriteClient ⟨nofun, nofun⟩⟩
  | lock cmd =>
    rw [serverAction]
    split_ifs with hsession
    · exact .refl c
    · rw [serverLockClient]
      split_ifs
      · exact .refl c
      · exact ⟨serves_write rfl rfl rfl rfl rfl rfl rfl nofun fun _ => .inr rfl, rfl, id, fun _ => .inr hsession,
          quiet_serverWriteClient ⟨nofun, nofun⟩⟩
  | suspend =>
    rw [serverAction]
    split_ifs with hsession
    · exact .refl c
    · exact ⟨serves_write rfl rfl rfl rfl rfl rfl rfl nofun fun _ => .inr rfl, rfl, id, fun _ => .inr hsession,
        quiet_serverWriteClient ⟨nofun, nofun⟩⟩
  | destroy next =>
    unfold serverAction
    split_ifs with hsession
    · exact .refl c
    · cases next with
      | none => exact ⟨serves_nil rfl rfl rfl rfl rfl rfl, rfl, fun _ => rfl, .inl, nofun⟩
      | some s => exact ⟨serves_nil rfl rfl rfl rfl rfl rfl, rfl, fun h => absurd h hsession, .inl, nofun⟩

theorem acts_push (c : ServerClient) :
    Acts c (serverPushStderr (serverPushStdout c).1).1
      ((serverPushStdout c).2 ++ (serverPushStderr (serverPushStdout c).1).2) :=
  (acts_pushStdout c).trans (acts_pushStderr _)

/-- A client is shut down by a message, and leaves its session. -/
theorem acts_shutdown (c : ServerClient) : Acts c { c with session := none } (serverWriteClient c .shutdown) :=
  ⟨serves_write rfl rfl rfl rfl rfl rfl rfl nofun .inl, rfl, fun _ => rfl, .inl,
    quiet_serverWriteClient ⟨nofun, nofun⟩⟩

theorem serves_checkExit (c : ServerClient) : Serves c (serverClientCheckExit c).1 (serverClientCheckExit c).2 := by
  rw [serverClientCheckExit]
  split_ifs
  · exact .refl c
  · exact .refl c
  · exact .refl c
  · exact serves_write rfl rfl rfl rfl rfl rfl rfl nofun .inl

theorem serves_attach (c : ServerClient) (session : ℕ) (cause : Option (List UInt8)) :
    Serves c (cmdAttachSessionExec c session cause).1 (cmdAttachSessionExec c session cause).2 := by
  have hopen : Serves c (serverClientOpen c cause).1 [] := by
    unfold serverClientOpen
    split_ifs
    · exact .refl c
    · exact .refl c
    · cases cause <;> exact serves_nil rfl rfl rfl rfl rfl rfl
  rw [cmdAttachSessionExec]
  generalize serverClientOpen c cause = opening at hopen
  obtain ⟨c₁, cause⟩ := opening
  cases cause with
  | some cause => exact hopen.after (acts_error c₁ _).toServes
  | none =>
    refine hopen.after ?_
    dsimp only
    rw [serverWriteReady]
    split_ifs
    · exact serves_nil rfl rfl rfl rfl rfl rfl
    · exact serves_write rfl rfl rfl rfl rfl rfl rfl nofun .inl

theorem serves_commandAction (c : ServerClient) (action : CommandAction) :
    Serves c (commandAction c action).1 (commandAction c action).2 := by
  cases action with
  | attach session cause => exact serves_attach c session cause
  | action a => exact (acts_action c a).toServes

theorem serves_actions (c : ServerClient) (actions : List CommandAction) :
    Serves c (commandActions c actions).1 (commandActions c actions).2 := by
  induction actions generalizing c with
  | nil => exact .refl c
  | cons action actions ih => exact (serves_commandAction c action).trans (ih _)

/-- No command tells its client to exit. -/
theorem exit_notMem_actions (c : ServerClient) (actions : List CommandAction) (retcode : ℤ) :
    ServerMsg.exit retcode ∉ (commandActions c actions).2 := by
  induction actions generalizing c with
  | nil => exact List.not_mem_nil
  | cons action actions ih =>
    have haction : ServerMsg.exit retcode ∉ (commandAction c action).2 := by
      cases action with
      | attach session cause =>
        rw [commandAction, cmdAttachSessionExec]
        generalize serverClientOpen c cause = opening
        obtain ⟨c₁, cause | _⟩ := opening
        · dsimp only
          rw [serverWriteReady]
          split_ifs
          · exact List.not_mem_nil
          · exact fun hm => absurd (mem_serverWriteClient hm) nofun
        · exact fun hm => ((acts_error c₁ _).quiet _ hm).2 retcode rfl
      | action a => exact fun hm => ((acts_action c a).quiet _ hm).2 retcode rfl
    exact List.not_mem_append haction (ih _)

/-- What the server does with a message. -/
structure Dispatches (c : ServerClient) (msg : ClientMsg) (r : ServerClient × List ServerMsg) : Prop where
  dead : r.1.dead = c.dead
  bad : c.bad = true → r.1.bad = true
  out : r.1.stdout.sent = c.stdout.sent ++ outs r.2
  err : r.1.stderr.sent = c.stderr.sent ++ errs r.2
  exit : ∀ retcode, ServerMsg.exit retcode ∉ r.2
  exited : ServerMsg.exited ∈ r.2 → msg = .exiting
  answered : msg = .exiting → r.1.session = none ∧ r.1.opened = false ∧ (r.1.bad = true ∨ ServerMsg.exited ∈ r.2)
  later : msg.first = false → msg ≠ .exiting → r.2 = [] ∧ r.1.session = c.session ∧ r.1.opened = c.opened

/-- A message that changes nothing of the output, and is answered by none that brings any. -/
theorem dispatches_write {c₀ : ServerClient} {msg : ClientMsg} {answer : ServerMsg} (hdead : c'.dead = c.dead)
    (hbad : c.bad = true → c'.bad = true) (hbad₀ : c₀.bad = true → c'.bad = true) (hout : c'.stdout = c.stdout) (herr : c'.stderr = c.stderr)
    (houts : outs [answer] = []) (herrs : errs [answer] = []) (hexit : ∀ retcode, answer ≠ .exit retcode)
    (hexited : answer = .exited → msg = .exiting)
    (hanswered : msg = .exiting → c'.session = none ∧ c'.opened = false ∧ answer = .exited)
    (hfirst : msg.first = true ∨ msg = .exiting) : Dispatches c msg (c', serverWriteClient c₀ answer) where
  dead := hdead
  bad := hbad
  out := by rw [outs_serverWriteClient houts, List.append_nil, hout]
  err := by rw [errs_serverWriteClient herrs, List.append_nil, herr]
  exit retcode hm := hexit retcode (mem_serverWriteClient hm).symm
  exited hm := hexited (mem_serverWriteClient hm).symm
  answered hmsg := by
    obtain ⟨hsession, hopened, hanswer⟩ := hanswered hmsg
    refine ⟨hsession, hopened, ?_⟩
    rw [serverWriteClient]
    split_ifs with hb
    · exact .inl (hbad₀ hb)
    · exact .inr (by rw [hanswer]; exact List.mem_singleton_self _)
  later hnot hne := by
    rcases hfirst with h | h
    · rw [hnot] at h
      cases h
    · exact absurd h hne

theorem dispatches_nil {msg : ClientMsg} (hdead : c'.dead = c.dead) (hbad : c'.bad = c.bad)
    (hout : c'.stdout = c.stdout) (herr : c'.stderr = c.stderr) (hmsg : msg ≠ .exiting)
    (hsession : c'.session = c.session) (hopened : c'.opened = c.opened) : Dispatches c msg (c', []) where
  dead := hdead
  bad hb := hbad.trans hb
  out := by rw [hout]; exact (List.append_nil _).symm
  err := by rw [herr]; exact (List.append_nil _).symm
  exit _ := List.not_mem_nil
  exited := nofun
  answered h := absurd h hmsg
  later _ _ := ⟨rfl, hsession, hopened⟩

/-- What the server does when the client goes on. -/
theorem resumed_cases {r : ServerClient × List ServerMsg}
    (hr : (if !c.suspended then pure (c, [])
      else do
        let c ← ttyStartTty { c with suspended := false }
        pure (c, [])) = (pure r : Exec (ServerClient × List ServerMsg))) :
    c.suspended = false ∧ r = (c, []) ∨
      c.opened = true ∧ r = ({ c with suspended := false, started := true }, []) := by
  cases hs : c.suspended with
  | false =>
    rw [hs] at hr
    exact .inl ⟨rfl, Exec.pure_inj.1 hr.symm⟩
  | true =>
    rw [hs] at hr
    obtain ⟨c₁, hc, hr⟩ := Exec.bind_eq_pure.1 hr
    rw [ttyStartTty] at hc
    split_ifs at hc with hopened
    obtain rfl := Exec.pure_inj.1 hc.symm
    exact .inr ⟨hopened, Exec.pure_inj.1 hr.symm⟩

theorem dispatches_resumed {msg : ClientMsg} {r : ServerClient × List ServerMsg} (hmsg : msg ≠ .exiting)
    (hr : (if !c.suspended then pure (c, [])
      else do
        let c ← ttyStartTty { c with suspended := false }
        pure (c, [])) = (pure r : Exec (ServerClient × List ServerMsg))) : Dispatches c msg r := by
  rcases resumed_cases hr with ⟨-, rfl⟩ | ⟨-, rfl⟩
  · exact dispatches_nil rfl rfl rfl rfl hmsg rfl rfl
  · exact dispatches_nil rfl rfl rfl rfl hmsg rfl rfl

theorem dispatches {msg : ClientMsg} {r : ServerClient × List ServerMsg}
    (hr : serverClientMsgDispatch c msg = pure r) : Dispatches c msg r := by
  cases msg with
  | command actions finished =>
    obtain rfl := Exec.pure_inj.1 hr.symm
    have hs := serves_actions c actions
    exact ⟨hs.dead, fun hb => hs.bad.trans hb, hs.out, hs.err, exit_notMem_actions c actions,
      fun hm => absurd hm hs.exited, nofun, nofun⟩
  | identify control terminal =>
    cases control with
    | true =>
      obtain rfl := Exec.pure_inj.1 hr.symm
      exact dispatches_write rfl id id rfl rfl rfl rfl nofun nofun nofun (.inl rfl)
    | false =>
      cases terminal <;> obtain rfl := Exec.pure_inj.1 hr.symm <;>
        refine dispatches_nil ?_ ?_ ?_ ?_ nofun ?_ ?_ <;> rfl
  | environ var =>
    obtain rfl := Exec.pure_inj.1 hr.symm
    exact dispatches_nil rfl rfl rfl rfl nofun rfl rfl
  | shell shell =>
    obtain rfl := Exec.pure_inj.1 hr.symm
    exact dispatches_write rfl (fun _ => rfl) (fun _ => rfl) rfl rfl rfl rfl nofun nofun nofun (.inl rfl)
  | stdin data =>
    obtain rfl := Exec.pure_inj.1 hr.symm
    exact dispatches_nil rfl rfl rfl rfl nofun rfl rfl
  | resize =>
    obtain rfl := Exec.pure_inj.1 hr.symm
    exact dispatches_nil rfl rfl rfl rfl nofun rfl rfl
  | wakeup => exact dispatches_resumed nofun hr
  | unlock => exact dispatches_resumed nofun hr
  | exiting =>
    obtain rfl := Exec.pure_inj.1 hr.symm
    exact dispatches_write rfl id id rfl rfl rfl rfl nofun (fun _ => rfl) (fun _ => ⟨rfl, rfl, rfl⟩) (.inr rfl)

/-! ## What the client does -/

/-- What a client that goes on does with a message. -/
structure Handles (k k' : Client) (msg : ServerMsg) (sent : List ClientMsg) : Prop where
  inbox : k'.inbox = k.inbox
  dispatch : k'.dispatch = k.dispatch
  answers : ∀ m ∈ sent, m = .exiting ∨ m = .unlock
  out : k'.ended = none → k'.stdout = k.stdout ++ outs [msg]
  err : k'.ended = none → k'.stderr = k.stderr ++ errs [msg]
  ended : ∀ msg', k'.ended = some (.message msg') → msg' = msg ∧ k'.stdout = k.stdout ∧ k'.stderr = k.stderr
  exitval : ∀ retcode, k'.ended = some (.message (.exit retcode)) → k'.exitval = retcode
  exited : msg = .exited → k'.ended ≠ none
  ready : k'.attached = true → k.attached = true ∨ msg = .ready
  resumes : (∃ m ∈ sent, m.resumes = true) → k.dispatch = some true

variable {k : Client}

theorem handles_dispatch (hk : k.ended = none) {attached : Bool} (hdispatch : k.dispatch = some attached) (msg : ServerMsg) :
    Handles k (clientDispatch attached k msg).1 msg (clientDispatch attached k msg).2 := by
  cases attached with
  | true =>
    cases msg <;> constructor <;>
      simp [clientDispatch, clientDispatchAttached, Client.leave, outs, errs, hk, hdispatch, ClientMsg.resumes]
  | false =>
    cases msg <;> constructor <;>
      simp [clientDispatch, clientDispatchWait, Client.leave, outs, errs, hk, hdispatch, ClientMsg.resumes]

/-- What a client does with a signal. -/
structure Signalled (k k' : Client) (sent : List ClientMsg) : Prop where
  inbox : k'.inbox = k.inbox
  stdout : k'.stdout = k.stdout
  stderr : k'.stderr = k.stderr
  ended : k'.ended = k.ended ∨ k'.ended = some .terminated
  attached : k'.attached = k.attached
  first : ∀ m ∈ sent, m.first = false
  resumes : (∃ m ∈ sent, m.resumes = true) → k.attached = true

theorem signalled (k : Client) (sig : ClientSignal) : Signalled k (clientSignal k sig).1 (clientSignal k sig).2 := by
  unfold clientSignal
  split_ifs with hattached
  · exact ⟨rfl, rfl, rfl, .inr rfl, rfl, nofun, by simp⟩
  · exact ⟨rfl, rfl, rfl, .inl rfl, rfl, nofun, by simp⟩
  · have ha : k.attached = true := by simpa using hattached
    cases sig <;> exact ⟨rfl, rfl, rfl, .inl rfl, rfl, by simp [ClientMsg.first], fun _ => ha⟩

/-! ## Steps -/

namespace Link

variable {l l' : Link} {events : List LinkEvent}

theorem idle_iff : l.idle = true ↔ l.client.ended = none ∧ l.client.dispatch = none ∧ l.client.stopped = false := by
  simp [idle, and_assoc]

/-- What a step may do. -/
inductive Moves (l : Link) : LinkEvent → Link → Prop
  | same (e : LinkEvent) : Moves l e l
  | acts {e : LinkEvent} {c' : ServerClient} {sent : List ServerMsg} (alive : l.server.dead = false)
      (h : Acts l.server c' sent) : Moves l e (l.served (c', sent))
  | message {msg : ClientMsg} {toServer : List ClientMsg} {r : ServerClient × List ServerMsg}
      (alive : l.server.dead = false) (h : l.toServer = msg :: toServer)
      (hr : serverClientMsgDispatch l.server msg = pure r) : Moves l .message (served { l with toServer } r)
  | loop (alive : l.server.dead = false) : Moves l .loop (l.served (serverClientCheckExit l.server))
  | lose (e : LinkEvent) {session : Option ℕ} (h : session = none ∨ session = l.server.session) (n : ℕ) :
    Moves l e (lose { l with server.session := session } n)
  | read (idle : l.idle = true) (n : ℕ) :
    Moves l (.read n)
      { l with
        client.inbox := l.toClient.take n, client.dispatch := some l.client.attached,
        toClient := l.toClient.drop n }
  | handled (running : l.client.ended = none) (hinbox : l.client.inbox = []) :
    Moves l .take { l with client.dispatch := none }
  | take (running : l.client.ended = none) {attached : Bool} (h : l.client.dispatch = some attached)
      {msg : ServerMsg} {inbox : List ServerMsg} (hinbox : l.client.inbox = msg :: inbox) :
    Moves l .take (l.acted (clientDispatch attached { l.client with inbox } msg))
  | signal {sig : ClientSignal} (idle : l.idle = true) (continued : Bool) (h : sig ≠ .cont → continued = l.client.continued) :
    Moves l (.signal sig) (l.acted (clientSignal { l.client with continued } sig))
  | continue (running : l.client.ended = none) :
    Moves l .continue { l with client.stopped := false, client.continued := true }
  | lostServer (running : l.client.ended = none) (dead : l.server.dead = true) :
    Moves l .lostServer
      { l with client := Client.leave { l.client with exitreason := .lostServer, exitval := 1 } .lostServer }
  | drop (n : ℕ) (ended : l.client.ended ≠ none) : Moves l (.drop n) { l with toServer := l.toServer.take n }

theorem moves_of_step {e : LinkEvent} (he : l.step e = pure l') : Moves l e l' := by
  cases e with
  | action a =>
    obtain rfl := Exec.pure_inj.1 he.symm
    split_ifs with hdead
    · exact .same _
    · exact .acts (Bool.not_eq_true _ ▸ hdead) (acts_action _ a)
  | message =>
    rw [Link.step] at he
    split_ifs at he with hdead
    · obtain rfl := Exec.pure_inj.1 he.symm
      exact .same _
    · split at he
      · obtain rfl := Exec.pure_inj.1 he.symm
        exact .same _
      next msg toServer hmsg =>
        obtain ⟨r, hr, he⟩ := Exec.bind_eq_pure.1 he
        obtain rfl := Exec.pure_inj.1 he.symm
        exact .message (Bool.not_eq_true _ ▸ hdead) hmsg hr
  | push =>
    rw [Link.step] at he
    split_ifs at he with hdead <;> obtain rfl := Exec.pure_inj.1 he.symm
    · exact .same _
    · have hpush := Moves.acts (e := .push) (Bool.not_eq_true _ ▸ hdead) (acts_push l.server)
      simpa [Link.served] using hpush
  | loop =>
    obtain rfl := Exec.pure_inj.1 he.symm
    split_ifs with hdead
    · exact .same _
    · exact .loop (Bool.not_eq_true _ ▸ hdead)
  | shutdown n =>
    rw [Link.step] at he
    split_ifs at he with hdead hlose <;> obtain rfl := Exec.pure_inj.1 he.symm
    · exact .same _
    · exact .lose _ (.inl rfl) n
    · exact .acts (Bool.not_eq_true _ ▸ hdead) (acts_shutdown _)
  | lost n =>
    obtain rfl := Exec.pure_inj.1 he.symm
    split_ifs
    · exact .same _
    · exact .lose _ (.inr rfl) n
  | read n =>
    obtain rfl := Exec.pure_inj.1 he.symm
    split_ifs with hidle
    · exact .read hidle n
    · exact .same _
  | take =>
    rw [Link.step] at he
    split_ifs at he with hended
    · obtain rfl := Exec.pure_inj.1 he.symm
      exact .same _
    · have hrunning : l.client.ended = none := by
        cases h : l.client.ended with
        | none => rfl
        | some _ => simp [h] at hended
      split at he
      · obtain rfl := Exec.pure_inj.1 he.symm
        exact .same _
      next _ hinbox =>
        obtain rfl := Exec.pure_inj.1 he.symm
        exact .handled hrunning hinbox
      next attached msg inbox hdispatch hinbox =>
        obtain rfl := Exec.pure_inj.1 he.symm
        exact .take hrunning hdispatch hinbox
  | signal sig =>
    obtain rfl := Exec.pure_inj.1 he.symm
    split_ifs with hidle hcont hcontinued
    · exact .same _
    · exact .signal (by simpa using hidle) false fun h => absurd hcont h
    · exact .same _
    · exact .signal (by simpa using hidle) l.client.continued fun _ => rfl
  | «continue» =>
    obtain rfl := Exec.pure_inj.1 he.symm
    split_ifs with hended
    · exact .same _
    · exact .continue (by simpa using hended)
  | lostServer =>
    obtain rfl := Exec.pure_inj.1 he.symm
    split_ifs with h
    · rw [Bool.and_eq_true] at h
      exact .lostServer (by simpa using h.1) h.2
    · exact .same _
  | drop n =>
    obtain rfl := Exec.pure_inj.1 he.symm
    split_ifs with hended
    · exact .drop n fun h => by simp [h] at hended
    · exact .same _

end Link

/-! ## A client that is suspended -/

namespace Link

variable {l l' : Link} {events : List LinkEvent}

/-- A client that is suspended is going to go on, unless it or the connection is at its end. -/
structure Resuming (l : Link) : Prop where
  awaited : l.server.suspended = true → l.server.dead = true ∨ l.server.bad = true ∨ l.server.control = true ∨
    l.client.ended.isSome = true ∨ (∃ m ∈ l.unread, m.suspends = true) ∨ l.client.stopped = true ∨
    (l.client.continued = true ∧ l.client.attached = true) ∨ ∃ m ∈ l.toServer, m.resumes = true
  attached : l.client.stopped = true ∨ l.client.dispatch = some true → l.client.attached = true
  inbox : l.client.dispatch = none → l.client.ended = none → l.client.inbox = []

/-- What the server does keeps that, if the client is only suspended by a message. -/
theorem Resuming.served (h : l.Resuming) {q : List ClientMsg} (hdead : l.server.dead = true → c'.dead = true)
    (hbad : l.server.bad = true → c'.bad = true) (hcontrol : l.server.control = true → c'.control = true)
    (hsuspended : c'.suspended = true → l.server.suspended = true ∧
        (∀ m ∈ l.toServer, m.resumes = true → m ∈ q) ∨
      c'.bad = true ∨ c'.control = true ∨ ∃ m ∈ sent, m.suspends = true) :
    (Link.served { l with toServer := q } (c', sent)).Resuming where
  awaited hs := by
    simp only [Link.served, unread] at hs ⊢
    rcases hsuspended hs with ⟨hold, hrest⟩ | hbad' | hcontrol' | ⟨m, hm, hsuspends⟩
    · rcases h.awaited hold with h | h | h | h | ⟨m, hm, hsuspends⟩ | h | h | ⟨m, hm, hresumes⟩
      · exact .inl (hdead h)
      · exact .inr (.inl (hbad h))
      · exact .inr (.inr (.inl (hcontrol h)))
      · exact .inr (.inr (.inr (.inl h)))
      · refine .inr (.inr (.inr (.inr (.inl ⟨m, ?_, hsuspends⟩))))
        rw [← List.append_assoc]
        exact List.mem_append_left _ hm
      · exact .inr (.inr (.inr (.inr (.inr (.inl h)))))
      · exact .inr (.inr (.inr (.inr (.inr (.inr (.inl h))))))
      · exact .inr (.inr (.inr (.inr (.inr (.inr (.inr ⟨m, hrest m hm hresumes, hresumes⟩))))))
    · exact .inr (.inl hbad')
    · exact .inr (.inr (.inl hcontrol'))
    · refine .inr (.inr (.inr (.inr (.inl ⟨m, ?_, hsuspends⟩))))
      exact List.mem_append_right _ (List.mem_append_right _ hm)
  attached := h.attached
  inbox := h.inbox

/-- What the server does without a message keeps that. -/
theorem Resuming.serves (h : l.Resuming) (hs : Serves l.server c' sent) : (l.served (c', sent)).Resuming :=
  h.served (q := l.toServer) (fun hd => hs.dead.trans hd) (fun hb => hs.bad.trans hb)
    (fun hc => hs.control.trans hc) fun hsuspended =>
      (hs.suspended hsuspended).imp (fun hold => ⟨hold, fun _ hm _ => hm⟩)
        fun hrest => hrest.imp (fun hbad => hs.bad.trans hbad) .inr

theorem Resuming.message (h : l.Resuming) {msg : ClientMsg} {toServer : List ClientMsg}
    (hmsg : l.toServer = msg :: toServer) {r : ServerClient × List ServerMsg}
    (hr : serverClientMsgDispatch l.server msg = pure r) : (Link.served { l with toServer } r).Resuming := by
  have hrest : msg.resumes = false → ∀ m ∈ l.toServer, m.resumes = true → m ∈ toServer := by
    intro hmsg' m hm hresumes
    rw [hmsg] at hm
    rcases List.mem_cons.1 hm with rfl | hm
    · rw [hmsg'] at hresumes
      cases hresumes
    · exact hm
  have hkept : ∀ {c : ServerClient}, msg.resumes = false → c.dead = l.server.dead → c.bad = l.server.bad →
      c.control = l.server.control → c.suspended = l.server.suspended → ∀ sent,
      (Link.served { l with toServer } (c, sent)).Resuming := fun hmsg' hdead hbad hcontrol hsuspended sent =>
    h.served (fun hd => hdead.trans hd) (fun hb => hbad.trans hb) (fun hc => hcontrol.trans hc)
      fun hs => .inl ⟨hsuspended.symm.trans hs, hrest hmsg'⟩
  have hresumed : r.1.suspended = false → r.1.dead = l.server.dead → r.1.bad = l.server.bad →
      r.1.control = l.server.control → (Link.served { l with toServer } r).Resuming := fun hs hdead hbad hcontrol =>
    h.served (fun hd => hdead.trans hd) (fun hb => hbad.trans hb) (fun hc => hcontrol.trans hc)
      fun hs' => absurd (hs.symm.trans hs') nofun
  cases msg with
  | command actions finished =>
    obtain rfl := Exec.pure_inj.1 hr.symm
    have hs := serves_actions l.server actions
    exact h.served (fun hd => hs.dead.trans hd) (fun hb => hs.bad.trans hb) (fun hc => hs.control.trans hc)
      fun hsuspended => (hs.suspended hsuspended).imp (fun hold => ⟨hold, hrest rfl⟩)
        fun hmsg => hmsg.imp (fun hbad => hs.bad.trans hbad) .inr
  | identify control terminal =>
    cases control with
    | true =>
      obtain rfl := Exec.pure_inj.1 hr.symm
      exact h.served id id (fun _ => rfl) fun _ => .inr (.inr (.inl rfl))
    | false =>
      cases terminal <;> obtain rfl := Exec.pure_inj.1 hr.symm <;> refine hkept ?_ ?_ ?_ ?_ ?_ _ <;> rfl
  | environ var =>
    obtain rfl := Exec.pure_inj.1 hr.symm
    exact hkept rfl rfl rfl rfl rfl _
  | shell shell =>
    obtain rfl := Exec.pure_inj.1 hr.symm
    exact h.served id (fun _ => rfl) id fun _ => .inr (.inl rfl)
  | stdin data =>
    obtain rfl := Exec.pure_inj.1 hr.symm
    exact hkept rfl rfl rfl rfl rfl _
  | resize =>
    obtain rfl := Exec.pure_inj.1 hr.symm
    exact hkept rfl rfl rfl rfl rfl _
  | wakeup | unlock =>
    rcases resumed_cases hr with ⟨hs, rfl⟩ | ⟨-, rfl⟩
    · exact hresumed hs rfl rfl rfl
    · exact hresumed rfl rfl rfl rfl
  | exiting =>
    obtain rfl := Exec.pure_inj.1 hr.symm
    refine hkept ?_ ?_ ?_ ?_ ?_ _ <;> rfl

/-- What the client does keeps that, if it ends, or a message that suspends it stops it or is answered. -/
theorem Resuming.acted (h : l.Resuming) {k : Client} {sent : List ClientMsg}
    (hunread : ∀ m ∈ l.unread, m.suspends = true → m ∈ k.inbox ++ l.toClient ∨ k.stopped = true ∨
      ∃ m ∈ sent, m.resumes = true)
    (hcontinued : l.client.continued = true → l.client.attached = true →
      k.continued = true ∨ ∃ m ∈ sent, m.resumes = true)
    (hstopped : l.client.stopped = true → k.stopped = true) (hended : l.client.ended.isSome = true → k.ended.isSome = true)
    (hattached : k.stopped = true ∨ k.dispatch = some true → k.attached = true)
    (hkept : l.client.attached = true → k.attached = true)
    (hinbox : k.dispatch = none → k.ended = none → k.inbox = []) : (l.acted (k, sent)).Resuming where
  awaited hs := by
    simp only [Link.acted, unread] at hs ⊢
    rcases h.awaited hs with h | h | h | h | ⟨m, hm, hsuspends⟩ | h | ⟨hcont, hatt⟩ | ⟨m, hm, hresumes⟩
    · exact .inl h
    · exact .inr (.inl h)
    · exact .inr (.inr (.inl h))
    · exact .inr (.inr (.inr (.inl (hended h))))
    · rcases hunread m hm hsuspends with hmem | hstop | ⟨m', hm', hresumes⟩
      · exact .inr (.inr (.inr (.inr (.inl ⟨m, hmem, hsuspends⟩))))
      · exact .inr (.inr (.inr (.inr (.inr (.inl hstop)))))
      · exact .inr (.inr (.inr (.inr (.inr (.inr (.inr ⟨m', List.mem_append_right _ hm', hresumes⟩))))))
    · exact .inr (.inr (.inr (.inr (.inr (.inl (hstopped h))))))
    · rcases hcontinued hcont hatt with hcont' | ⟨m', hm', hresumes⟩
      · exact .inr (.inr (.inr (.inr (.inr (.inr (.inl ⟨hcont', hkept hatt⟩))))))
      · exact .inr (.inr (.inr (.inr (.inr (.inr (.inr ⟨m', List.mem_append_right _ hm', hresumes⟩))))))
    · exact .inr (.inr (.inr (.inr (.inr (.inr (.inr ⟨m, List.mem_append_left _ hm, hresumes⟩))))))
  attached := hattached
  inbox := hinbox

/-- A client that ends keeps that. -/
theorem Resuming.leave (h : l.Resuming) {k : Client} (hk : k.ended.isSome = true) (hdispatch : k.dispatch = l.client.dispatch)
    (hstopped : k.stopped = l.client.stopped) (hattached : k.attached = l.client.attached) (sent : List ClientMsg) :
    (l.acted (k, sent)).Resuming where
  awaited _ := .inr (.inr (.inr (.inl hk)))
  attached := by
    simp only [Link.acted]
    rw [hdispatch, hstopped, hattached]
    exact h.attached
  inbox _ hended := by
    simp only [Link.acted] at hended
    rw [hended] at hk
    cases hk

/-- Handling a message keeps that. -/
theorem Resuming.take (h : l.Resuming) {attached : Bool} (hdispatch : l.client.dispatch = some attached)
    {msg : ServerMsg} {inbox : List ServerMsg} (hinbox : l.client.inbox = msg :: inbox) :
    (l.acted (clientDispatch attached { l.client with inbox } msg)).Resuming := by
  have hunread : ∀ m ∈ l.unread, m = msg ∨ m ∈ inbox ++ l.toClient := fun m hm => by
    rw [unread, hinbox] at hm
    exact List.mem_cons.1 hm
  -- a message that suspends nothing, and after which the client goes on
  have hgoes : msg.suspends = false → ∀ {k : Client}, k.inbox = inbox → k.continued = l.client.continued →
      k.stopped = l.client.stopped → k.ended = l.client.ended → k.dispatch = l.client.dispatch →
      (l.client.attached = true → k.attached = true) → ∀ sent, (l.acted (k, sent)).Resuming := by
    intro hmsg k hk hcontinued hstopped hended hdispatch' hattached sent
    refine h.acted (fun m hm hsuspends => ?_) (fun hcont _ => .inl (hcontinued.trans hcont)) (fun hs => hstopped.trans hs)
      (fun he => by rw [hended]; exact he) (fun hor => ?_) hattached fun hnone => ?_
    · rcases hunread m hm with rfl | hm
      · rw [hmsg] at hsuspends
        cases hsuspends
      · exact .inl (hk ▸ hm)
    · rw [hstopped, hdispatch'] at hor
      exact hattached (h.attached hor)
    · rw [hdispatch', hdispatch] at hnone
      cases hnone
  cases attached with
  | true =>
    have hattached := h.attached (.inr hdispatch)
    cases msg with
    | detachkill => refine hgoes rfl ?_ ?_ ?_ ?_ ?_ ?_ _ <;> first | rfl | exact id
    | detach => refine hgoes rfl ?_ ?_ ?_ ?_ ?_ ?_ _ <;> first | rfl | exact id
    | exit retcode => refine hgoes rfl ?_ ?_ ?_ ?_ ?_ ?_ _ <;> first | rfl | exact id
    | shutdown => refine hgoes rfl ?_ ?_ ?_ ?_ ?_ ?_ _ <;> first | rfl | exact id
    | suspend =>
      refine h.acted (fun m hm _ => .inr (.inl rfl)) (fun hcont _ => .inl hcont) (fun _ => rfl) id (fun _ => hattached) id
        fun hnone => ?_
      rw [hdispatch] at hnone
      cases hnone
    | lock cmd =>
      refine h.acted (fun m hm _ => .inr (.inr ⟨.unlock, List.mem_singleton_self _, rfl⟩)) (fun hcont _ => .inl hcont) id
        id h.attached id fun hnone => ?_
      rw [hdispatch] at hnone
      cases hnone
    | _ => refine h.leave ?_ ?_ ?_ ?_ _ <;> rfl
  | false =>
    cases msg with
    | ready => refine hgoes rfl ?_ ?_ ?_ ?_ ?_ ?_ _ <;> first | rfl | exact fun _ => rfl
    | stdin => refine hgoes rfl ?_ ?_ ?_ ?_ ?_ ?_ _ <;> first | rfl | exact id
    | stdout data => refine hgoes rfl ?_ ?_ ?_ ?_ ?_ ?_ _ <;> first | rfl | exact id
    | stderr data => refine hgoes rfl ?_ ?_ ?_ ?_ ?_ ?_ _ <;> first | rfl | exact id
    | detach => refine hgoes rfl ?_ ?_ ?_ ?_ ?_ ?_ _ <;> first | rfl | exact id
    | _ => refine h.leave ?_ ?_ ?_ ?_ _ <;> rfl

theorem Resuming.signal (h : l.Resuming) {sig : ClientSignal} {continued : Bool}
    (hcont : sig ≠ .cont → continued = l.client.continued) :
    (l.acted (clientSignal { l.client with continued } sig)).Resuming := by
  have hgoes : ∀ {k : Client} {sent}, k.inbox = l.client.inbox → k.stopped = l.client.stopped →
      k.ended = l.client.ended → k.dispatch = l.client.dispatch → k.attached = l.client.attached →
      (l.client.continued = true → l.client.attached = true → k.continued = true ∨ ∃ m ∈ sent, m.resumes = true) →
      (l.acted (k, sent)).Resuming := by
    intro k sent hk hstopped hended hdispatch hattached hcontinued
    refine h.acted (fun m hm _ => .inl (hk ▸ hm)) hcontinued (fun hs => hstopped.trans hs) (fun he => by rwa [hended])
      (fun hor => ?_) (fun ha => hattached.trans ha) fun hnone hend => ?_
    · rw [hstopped, hdispatch] at hor
      exact hattached.trans (h.attached hor)
    · rw [hk, h.inbox (hdispatch ▸ hnone) (hended ▸ hend)]
  unfold clientSignal
  split_ifs with hattached hterm
  · refine h.leave ?_ ?_ ?_ ?_ _ <;> rfl
  · refine hgoes rfl rfl rfl rfl rfl fun _ ha => ?_
    simp [ha] at hattached
  · cases sig with
    | hup => exact hgoes rfl rfl rfl rfl rfl fun hc _ => .inl ((hcont nofun).trans hc)
    | term => exact hgoes rfl rfl rfl rfl rfl fun hc _ => .inl ((hcont nofun).trans hc)
    | winch => exact hgoes rfl rfl rfl rfl rfl fun hc _ => .inl ((hcont nofun).trans hc)
    | cont => exact hgoes rfl rfl rfl rfl rfl fun _ _ => .inr ⟨.wakeup, List.mem_singleton_self _, rfl⟩

theorem Resuming.step (h : l.Resuming) {e : LinkEvent} (he : l.step e = pure l') : l'.Resuming := by
  cases moves_of_step he with
  | same => exact h
  | acts _ hacts => exact h.serves hacts.toServes
  | message _ hmsg hr => exact h.message hmsg hr
  | loop _ => exact h.serves (serves_checkExit _)
  | lose _ n => exact ⟨fun _ => .inl rfl, h.attached, h.inbox⟩
  | read idle n =>
    obtain ⟨hended, hdispatch, hstopped⟩ := idle_iff.1 idle
    have hinbox := h.inbox hdispatch hended
    refine ⟨fun hs => ?_, fun hor => ?_, nofun⟩
    · have hawaited := h.awaited hs
      rw [unread, hinbox, List.nil_append] at hawaited
      simpa only [unread, List.take_append_drop] using hawaited
    · rcases hor with hs | hd
      · exact absurd (hstopped.symm.trans hs) nofun
      · exact Option.some.inj hd
  | handled running hinbox => exact ⟨h.awaited, fun hor => h.attached (hor.imp_right nofun), fun _ _ => hinbox⟩
  | take running hdispatch hinbox => exact h.take hdispatch hinbox
  | signal idle continued hcont => exact h.signal hcont
  | «continue» running =>
    refine ⟨fun hs => ?_, fun hor => h.attached (hor.imp_left nofun), h.inbox⟩
    rcases h.awaited hs with h' | h' | h' | h' | h' | h' | ⟨-, h'⟩ | h'
    · exact .inl h'
    · exact .inr (.inl h')
    · exact .inr (.inr (.inl h'))
    · exact .inr (.inr (.inr (.inl h')))
    · exact .inr (.inr (.inr (.inr (.inl h'))))
    · exact .inr (.inr (.inr (.inr (.inr (.inr (.inl ⟨rfl, h.attached (.inl h')⟩))))))
    · exact .inr (.inr (.inr (.inr (.inr (.inr (.inl ⟨rfl, h'⟩))))))
    · exact .inr (.inr (.inr (.inr (.inr (.inr (.inr h'))))))
  | lostServer running dead => exact ⟨fun _ => .inl dead, h.attached, fun _ => nofun⟩
  | drop n ended =>
    refine ⟨fun _ => .inr (.inr (.inr (.inl (Option.isSome_iff_ne_none.2 ended)))), h.attached, h.inbox⟩

/-! ## A client that exits -/

/-- The server has left a client that is told that it has exited: no command of it comes any more. -/
structure Left (l : Link) : Prop where
  session : l.server.session = none
  opened : l.server.opened = false
  first : ∀ m ∈ l.toServer, m.first = false

/-- A client that says that it is exiting is answered. -/
structure Leaving (l : Link) : Prop where
  answered : ClientMsg.exiting ∈ l.said → l.client.ended = none → l.server.dead = true ∨ l.server.bad = true ∨
    ClientMsg.exiting ∈ l.toServer ∨ ServerMsg.exited ∈ l.unread
  left : ServerMsg.exited ∈ l.unread ∨ l.client.ended = some (.message .exited) → l.Left
  first : l.toServer.Pairwise fun m m' => m = .exiting → m'.first = false

/-- What the server does without a message keeps that, if it opens no terminal and gives no session. -/
theorem Leaving.serves (h : l.Leaving) (hs : Serves l.server c' sent) (hopened : c'.opened = l.server.opened)
    (hsession : l.server.session = none → c'.session = none) : (l.served (c', sent)).Leaving where
  answered hsaid hended := by
    rcases h.answered hsaid hended with hd | hb | hm | hm
    · exact .inl (hs.dead.trans hd)
    · exact .inr (.inl (hs.bad.trans hb))
    · exact .inr (.inr (.inl hm))
    · refine .inr (.inr (.inr ?_))
      rw [unread, Link.served, ← List.append_assoc]
      exact List.mem_append_left _ hm
  left hor := by
    have hold : l.Left := h.left <| hor.imp_left fun hm => by
      rw [unread, Link.served, ← List.append_assoc] at hm
      exact (List.mem_append.1 hm).resolve_right hs.exited
    exact ⟨hsession hold.session, hopened.trans hold.opened, hold.first⟩
  first := h.first

theorem Leaving.message (h : l.Leaving) {msg : ClientMsg} {toServer : List ClientMsg}
    (hmsg : l.toServer = msg :: toServer) {r : ServerClient × List ServerMsg}
    (hr : serverClientMsgDispatch l.server msg = pure r) : (Link.served { l with toServer } r).Leaving := by
  have hd := dispatches hr
  have hfirst := h.first
  rw [hmsg, List.pairwise_cons] at hfirst
  refine ⟨fun hsaid hended => ?_, fun hor => ?_, hfirst.2⟩
  · by_cases hexiting : msg = .exiting
    · rcases (hd.answered hexiting).2.2 with hb | hm
      · exact .inr (.inl hb)
      · exact .inr (.inr (.inr (List.mem_append_right _ (List.mem_append_right _ hm))))
    · rcases h.answered hsaid hended with hdead | hbad | hm | hm
      · exact .inl (hd.dead.trans hdead)
      · exact .inr (.inl (hd.bad hbad))
      · rw [hmsg] at hm
        exact .inr (.inr (.inl ((List.mem_cons.1 hm).resolve_left fun heq => hexiting heq.symm)))
      · refine .inr (.inr (.inr ?_))
        rw [unread, Link.served, ← List.append_assoc]
        exact List.mem_append_left _ hm
  · by_cases hexiting : msg = .exiting
    · obtain ⟨hsession, hopened, -⟩ := hd.answered hexiting
      exact ⟨hsession, hopened, fun m hm => hfirst.1 m hm hexiting⟩
    · have hold : l.Left := h.left <| hor.imp_left fun hm => by
        rw [unread, Link.served, ← List.append_assoc] at hm
        exact (List.mem_append.1 hm).resolve_right fun hm => hexiting (hd.exited hm)
      have hall := hold.first
      rw [hmsg, List.forall_mem_cons] at hall
      obtain ⟨-, hsession, hopened⟩ := hd.later hall.1 hexiting
      exact ⟨hsession.trans hold.session, hopened.trans hold.opened, hall.2⟩

/-- What the client sends after its first messages keeps that, if it reads on or ends when it is told that it has
    exited. -/
theorem Leaving.acted (h : l.Leaving) {r : Client × List ClientMsg} (hsent : ∀ m ∈ r.2, m.first = false)
    (hunread : ServerMsg.exited ∈ l.unread → r.1.ended = none → ServerMsg.exited ∈ r.1.inbox ++ l.toClient)
    (hinbox : ∀ m ∈ r.1.inbox, m ∈ l.unread) (hended : r.1.ended = none → l.client.ended = none)
    (hexited : r.1.ended = some (.message .exited) → ServerMsg.exited ∈ l.unread ∨ l.client.ended = r.1.ended) :
    (l.acted r).Leaving where
  answered hsaid hend := by
    rcases List.mem_append.1 hsaid with hsaid | hnew
    · rcases h.answered hsaid (hended hend) with hd | hb | hm | hm
      · exact .inl hd
      · exact .inr (.inl hb)
      · exact .inr (.inr (.inl (List.mem_append_left _ hm)))
      · exact .inr (.inr (.inr (hunread hm hend)))
    · exact .inr (.inr (.inl (List.mem_append_right _ hnew)))
  left hor := by
    have hold : l.Left := h.left <| by
      rcases hor with hm | hend
      · refine .inl ?_
        rcases List.mem_append.1 hm with hm | hm
        · exact hinbox _ hm
        · exact List.mem_append_right _ hm
      · rcases hexited hend with hm | heq
        · exact .inl hm
        · exact .inr (heq.trans hend)
    exact ⟨hold.session, hold.opened, List.forall_mem_append.2 ⟨hold.first, hsent⟩⟩
  first := List.pairwise_append.2 ⟨h.first, List.pairwise_iff_forall_sublist.2 fun hsub _ =>
    hsent _ (hsub.subset (List.mem_cons_of_mem _ (List.mem_singleton_self _))), fun _ _ m hm _ => hsent m hm⟩

/-- Where the messages are, read or not, makes no difference. -/
theorem Leaving.congr (h : l.Leaving) (hserver : l'.server = l.server) (hsaid : l'.said = l.said)
    (htoServer : l'.toServer = l.toServer) (hunread : l'.unread = l.unread)
    (hended : l'.client.ended = l.client.ended) : l'.Leaving where
  answered hm hend := by
    rw [hserver, htoServer, hunread]
    exact h.answered (hsaid ▸ hm) (hended ▸ hend)
  left hor := by
    rw [hunread, hended] at hor
    have hold := h.left hor
    exact ⟨hserver ▸ hold.session, hserver ▸ hold.opened, htoServer ▸ hold.first⟩
  first := htoServer ▸ h.first

theorem Leaving.step (h : l.Leaving) (hres : l.Resuming) {e : LinkEvent} (he : l.step e = pure l') : l'.Leaving := by
  cases moves_of_step he with
  | same => exact h
  | acts _ hacts => exact h.serves hacts.toServes hacts.opened hacts.session
  | message _ hmsg hr => exact h.message hmsg hr
  | loop _ =>
    have hsame : (serverClientCheckExit l.server).1.opened = l.server.opened ∧
        (serverClientCheckExit l.server).1.session = l.server.session := by
      unfold serverClientCheckExit
      split_ifs <;> exact ⟨rfl, rfl⟩
    exact h.serves (serves_checkExit _) hsame.1 fun hsession => hsame.2.trans hsession
  | @lose _ session hsession n =>
    refine ⟨fun _ _ => .inl rfl, fun hor => ?_, .nil⟩
    have hold : l.Left := h.left <| hor.imp_left fun hm => by
      rcases List.mem_append.1 hm with hm | hm
      · exact List.mem_append_left _ hm
      · exact List.mem_append_right _ (List.mem_of_mem_take hm)
    have hnone : session = none := hsession.elim id fun h' => h'.trans hold.session
    refine ⟨?_, ?_, nofun⟩ <;>
    · rw [lose, serverClientLost]
      dsimp only
      split_ifs
      · first | exact hnone | rfl
      · first | exact hnone | exact hold.opened
  | read idle n =>
    obtain ⟨hended, hdispatch, -⟩ := idle_iff.1 idle
    refine h.congr rfl rfl rfl ?_ rfl
    rw [unread, unread, hres.inbox hdispatch hended]
    exact List.take_append_drop n l.toClient
  | handled running hinbox => exact h.congr rfl rfl rfl rfl rfl
  | @take running attached hdispatch msg inbox hinbox =>
    have hh := handles_dispatch (k := { l.client with inbox }) running hdispatch msg
    have hunread : l.unread = msg :: (inbox ++ l.toClient) := by rw [unread, hinbox, List.cons_append]
    refine h.acted (fun m hm => ?_) (fun hm hend => ?_) (fun m hm => ?_) (fun _ => running) fun hend => .inl ?_
    · rcases hh.answers m hm with rfl | rfl <;> rfl
    · rw [hunread] at hm
      rw [hh.inbox]
      exact (List.mem_cons.1 hm).resolve_left fun heq => hh.exited heq.symm hend
    · rw [hh.inbox] at hm
      rw [hunread]
      exact List.mem_cons_of_mem _ (List.mem_append_left _ hm)
    · rw [hunread, (hh.ended _ hend).1]
      exact List.mem_cons_self
  | @signal sig idle continued hcont =>
    have hs := signalled { l.client with continued } sig
    have hrunning := (idle_iff.1 idle).1
    refine h.acted hs.first (fun hm _ => by rwa [hs.inbox]) (fun m hm => ?_) (fun _ => hrunning) fun hend => ?_
    · exact List.mem_append_left _ (hs.inbox ▸ hm)
    · rcases hs.ended with heq | heq <;> rw [heq] at hend
      · exact absurd (hrunning.symm.trans hend) nofun
      · cases hend
  | «continue» running => exact h.congr rfl rfl rfl rfl rfl
  | lostServer running dead =>
    refine ⟨fun _ => nofun, fun hor => ?_, h.first⟩
    have hold := h.left (hor.imp_right nofun)
    exact ⟨hold.session, hold.opened, hold.first⟩
  | drop n ended =>
    refine ⟨fun _ hend => absurd hend ended, fun hor => ?_, h.first.sublist (List.take_sublist n _)⟩
    have hold := h.left hor
    exact ⟨hold.session, hold.opened, fun m hm => hold.first m (List.mem_of_mem_take hm)⟩

/-! ## A client that waits and is told to exit -/

/-- In a run of some events the server told the client to exit with some value, all that was printed to it until then
    being `out` and `err`. -/
def Told (start : Link) (events : List LinkEvent) (out err : List UInt8) (retcode : ℤ) : Prop :=
  ∃ pre post l, events = pre ++ .loop :: post ∧ start.run pre = pure l ∧ l.server.exit = true ∧
    l.server.stdout.added = out ∧ l.server.stderr.added = err ∧ l.server.retcode = retcode

variable {start : Link} {out err : List UInt8} {retcode : ℤ}

theorem Told.append (h : Told start events out err retcode) (e : LinkEvent) :
    Told start (events ++ [e]) out err retcode := by
  obtain ⟨pre, post, l, rfl, hrest⟩ := h
  exact ⟨pre, post ++ [e], l, by rw [List.append_assoc, List.cons_append], hrest⟩

/-- What is printed to a client arrives in order, and all that was printed before it is told to exit comes first. -/
structure Printing (start : Link) (events : List LinkEvent) (l : Link) : Prop where
  sent : l.server.dead = false → l.client.ended = none →
    l.client.stdout ++ outs l.unread = l.server.stdout.sent ∧ l.client.stderr ++ errs l.unread = l.server.stderr.sent
  told : ∀ a retcode b, l.client.ended = none → l.unread = a ++ .exit retcode :: b →
    Told start events (l.client.stdout ++ outs a) (l.client.stderr ++ errs a) retcode
  exited : ∀ retcode, l.client.ended = some (.message (.exit retcode)) →
    Told start events l.client.stdout l.client.stderr retcode ∧ l.client.exitval = retcode

/-- Where nothing is told at the end of what is on its way, it is told before. -/
theorem split_of_notMem {u s a b : List ServerMsg} {m : ServerMsg} (hm : m ∉ s) (h : u ++ s = a ++ m :: b) :
    ∃ b', u = a ++ m :: b' := by
  rcases List.append_eq_append_iff.1 h with ⟨c, -, hs⟩ | ⟨c, hu, hc⟩
  · exact absurd (hs ▸ List.mem_append_right _ List.mem_cons_self) hm
  · cases c with
    | nil => exact absurd ((List.nil_append s ▸ hc : _ = s) ▸ List.mem_cons_self) hm
    | cons m' c =>
      obtain ⟨rfl, -⟩ := List.cons.inj hc
      exact ⟨c, hu⟩

/-- What the server sends keeps that, if it is not to exit. -/
theorem Printing.served (h : Printing start events l) {r : ServerClient × List ServerMsg} {q : List ClientMsg}
    (hdead : r.1.dead = l.server.dead) (hout : r.1.stdout.sent = l.server.stdout.sent ++ outs r.2)
    (herr : r.1.stderr.sent = l.server.stderr.sent ++ errs r.2) (hexit : ∀ retcode, ServerMsg.exit retcode ∉ r.2)
    (e : LinkEvent) : Printing start (events ++ [e]) (Link.served { l with toServer := q } r) := by
  have hunread : (Link.served { l with toServer := q } r).unread = l.unread ++ r.2 := (List.append_assoc _ _ _).symm
  refine ⟨fun hd hend => ?_, fun a retcode b hend hab => ?_, fun retcode hend => ?_⟩
  · obtain ⟨hout', herr'⟩ := h.sent (hdead.symm.trans hd) hend
    rw [hunread, outs_append, errs_append, ← List.append_assoc, ← List.append_assoc]
    exact ⟨(congrArg (· ++ outs r.2) hout').trans hout.symm, (congrArg (· ++ errs r.2) herr').trans herr.symm⟩
  · rw [hunread] at hab
    obtain ⟨b', hb'⟩ := split_of_notMem (hexit retcode) hab
    exact (h.told a retcode b' hend hb').append e
  · exact (h.exited retcode hend).imp_left fun ht => ht.append e

/-- A message is the last one, or among those before it. -/
theorem split_concat {u a b : List ServerMsg} {m m' : ServerMsg} (h : u ++ [m] = a ++ m' :: b) :
    a = u ∧ m' = m ∨ ∃ b', u = a ++ m' :: b' := by
  rcases List.append_eq_append_iff.1 h with ⟨c, rfl, hs⟩ | ⟨c, rfl, hc⟩
  · cases c with
    | nil => exact .inl ⟨List.append_nil _, (List.cons.inj hs).1.symm⟩
    | cons m'' c => exact absurd (congrArg List.length hs) (by simp)
  · cases c with
    | nil => exact .inl ⟨(List.append_nil _).symm, (List.cons.inj hc).1⟩
    | cons m'' c =>
      obtain ⟨rfl, -⟩ := List.cons.inj hc
      exact .inr ⟨c, rfl⟩

theorem Printing.loop (h : Printing start events l) (hrun : start.run events = pure l) (alive : l.server.dead = false) :
    Printing start (events ++ [.loop]) (l.served (serverClientCheckExit l.server)) := by
  unfold serverClientCheckExit
  split_ifs with hexit hout herr
  · exact h.served (q := l.toServer) rfl (List.append_nil _).symm (List.append_nil _).symm
      (fun _ => List.not_mem_nil) _
  · exact h.served (q := l.toServer) rfl (List.append_nil _).symm (List.append_nil _).symm
      (fun _ => List.not_mem_nil) _
  · exact h.served (q := l.toServer) rfl (List.append_nil _).symm (List.append_nil _).symm
      (fun _ => List.not_mem_nil) _
  rw [serverWriteClient]
  split_ifs with hbad
  · exact h.served (q := l.toServer) rfl (List.append_nil _).symm (List.append_nil _).symm
      (fun _ => List.not_mem_nil) _
  have hunread : ∀ c', (l.served (c', [.exit l.server.retcode])).unread = l.unread ++ [.exit l.server.retcode] :=
    fun _ => (List.append_assoc _ _ _).symm
  have hadded : ∀ b : Evbuffer, ¬ b.data.length ≠ 0 → b.sent = b.added := fun b hb => by
    rw [← b.sent_append_data, List.eq_nil_of_length_eq_zero (not_not.1 hb), List.append_nil]
  refine ⟨fun hd hend => ?_, fun a retcode b hend hab => ?_, fun retcode hend => ?_⟩
  · rw [hunread, outs_append, errs_append]
    have hsent := h.sent hd hend
    simpa [Link.served, outs, errs] using hsent
  · rw [hunread] at hab
    rcases split_concat hab with ⟨rfl, heq⟩ | ⟨b', hb'⟩
    · obtain rfl : retcode = l.server.retcode := by simpa using heq
      obtain ⟨hsent, hsent'⟩ := h.sent alive hend
      exact ⟨events, [], l, rfl, hrun, by simpa using hexit, ((hsent.trans (hadded _ hout))).symm,
        ((hsent'.trans (hadded _ herr))).symm, rfl⟩
    · exact (h.told a retcode b' hend hb').append _
  · exact (h.exited retcode hend).imp_left fun ht => ht.append _

/-- What the client does keeps that, if it reads on and writes nothing, or its end is not that it is told to exit. -/
theorem Printing.congr (h : Printing start events l) (e : LinkEvent) (hserver : l'.server = l.server)
    (hunread : l'.unread = l.unread) (hout : l'.client.stdout = l.client.stdout)
    (herr : l'.client.stderr = l.client.stderr)
    (hended : l'.client.ended = l.client.ended ∧ (l.client.ended ≠ none → l'.client.exitval = l.client.exitval) ∨
      l'.client.ended ≠ none ∧ ∀ msg, l'.client.ended ≠ some (.message msg)) :
    Printing start (events ++ [e]) l' := by
  refine ⟨fun hd hend => ?_, fun a retcode b hend hab => ?_, fun retcode hend => ?_⟩
  · rw [hout, herr, hunread, hserver]
    exact h.sent (hserver ▸ hd) (hended.elim (fun heq => heq.1 ▸ hend) fun hne => absurd hend hne.1)
  · rw [hout, herr]
    rw [hunread] at hab
    exact (h.told a retcode b (hended.elim (fun heq => heq.1 ▸ hend) fun hne => absurd hend hne.1) hab).append e
  · rw [hout, herr]
    rcases hended with ⟨heq, hexitval⟩ | hne
    · have hend' := heq.symm.trans hend
      obtain ⟨ht, hval⟩ := h.exited retcode hend'
      exact ⟨ht.append e, (hexitval fun hn => absurd (hend'.symm.trans hn) nofun).trans hval⟩
    · exact absurd hend (hne.2 _)

theorem Printing.take (h : Printing start events l) (running : l.client.ended = none) {attached : Bool}
    (hdispatch : l.client.dispatch = some attached) {msg : ServerMsg} {inbox : List ServerMsg}
    (hinbox : l.client.inbox = msg :: inbox) :
    Printing start (events ++ [.take]) (l.acted (clientDispatch attached { l.client with inbox } msg)) := by
  have hh := handles_dispatch (k := { l.client with inbox }) running hdispatch msg
  have hunread : l.unread = msg :: (inbox ++ l.toClient) := by rw [unread, hinbox, List.cons_append]
  have hunread' : (l.acted (clientDispatch attached { l.client with inbox } msg)).unread = inbox ++ l.toClient :=
    congrArg (· ++ l.toClient) hh.inbox
  refine ⟨fun hd hend => ?_, fun a retcode b hend hab => ?_, fun retcode hend => ?_⟩
  · have hsent := h.sent hd running
    rw [hunread] at hsent
    rw [hunread']
    simp only [Link.acted]
    rw [hh.out hend, hh.err hend]
    simpa [outs, errs] using hsent
  · rw [hunread'] at hab
    have htold := h.told (msg :: a) retcode b running (by rw [hunread, hab, List.cons_append])
    simp only [Link.acted]
    rw [hh.out hend, hh.err hend]
    simpa [outs, errs] using htold.append .take
  · obtain ⟨hmsg, hout, herr⟩ := hh.ended _ hend
    have htold := h.told [] retcode (inbox ++ l.toClient) running (by rw [hunread, hmsg, List.nil_append])
    simp only [Link.acted]
    rw [hout, herr]
    exact ⟨by simpa [outs, errs] using htold.append .take, hh.exitval _ hend⟩

theorem Printing.step (h : Printing start events l) (hrun : start.run events = pure l) (hres : l.Resuming)
    {e : LinkEvent} (he : l.step e = pure l') : Printing start (events ++ [e]) l' := by
  cases moves_of_step he with
  | same => exact h.congr e rfl rfl rfl rfl (.inl ⟨rfl, fun _ => rfl⟩)
  | acts _ hacts =>
    exact h.served (q := l.toServer) hacts.dead hacts.out hacts.err
      (fun retcode hm => (hacts.quiet _ hm).2 retcode rfl) e
  | message _ hmsg hr =>
    have hd := dispatches hr
    exact h.served hd.dead hd.out hd.err hd.exit _
  | loop alive => exact h.loop hrun alive
  | lose _ _ n =>
    refine ⟨nofun, fun a retcode b hend hab => ?_, fun retcode hend => ?_⟩
    · have hunread : l.unread = a ++ .exit retcode :: (b ++ l.toClient.drop n) := by
        have hall : l.client.inbox ++ l.toClient.take n ++ l.toClient.drop n = _ :=
          congrArg (· ++ l.toClient.drop n) hab
        rw [List.append_assoc, List.take_append_drop, List.append_assoc, List.cons_append] at hall
        exact hall
      exact (h.told a retcode _ hend hunread).append e
    · exact (h.exited retcode hend).imp_left fun ht => ht.append e
  | read idle n =>
    obtain ⟨hended, hdispatch, -⟩ := idle_iff.1 idle
    refine h.congr _ rfl ?_ rfl rfl (.inl ⟨rfl, fun _ => rfl⟩)
    rw [unread, unread, hres.inbox hdispatch hended]
    exact List.take_append_drop n l.toClient
  | handled running hinbox => exact h.congr _ rfl rfl rfl rfl (.inl ⟨rfl, fun _ => rfl⟩)
  | take running hdispatch hinbox => exact h.take running hdispatch hinbox
  | @signal sig idle continued hcont =>
    have hs := signalled { l.client with continued } sig
    have hrunning := (idle_iff.1 idle).1
    refine h.congr _ rfl (congrArg (· ++ l.toClient) hs.inbox) hs.stdout hs.stderr ?_
    rcases hs.ended with heq | heq
    · exact .inl ⟨heq, fun hne => absurd hrunning hne⟩
    · refine .inr ⟨fun hn => ?_, fun msg hm => ?_⟩
      · exact absurd (heq.symm.trans hn) nofun
      · exact absurd (heq.symm.trans hm) nofun
  | «continue» running => exact h.congr _ rfl rfl rfl rfl (.inl ⟨rfl, fun _ => rfl⟩)
  | lostServer running dead => exact h.congr _ rfl rfl rfl rfl (.inr ⟨nofun, nofun⟩)
  | drop n ended => exact h.congr _ rfl rfl rfl rfl (.inl ⟨rfl, fun _ => rfl⟩)

variable {vars : List (List UInt8)} {control terminal : Bool} {first : List CommandAction × Bool ⊕ List UInt8}

theorem init_first (m : ClientMsg) (hm : m ∈ (init vars control terminal first).toServer) : m.first = true := by
  rcases List.mem_append.1 hm with hm | hm
  · obtain ⟨var, -, rfl⟩ := List.mem_map.1 hm
    rfl
  · rcases List.mem_cons.1 hm with rfl | hm
    · rfl
    · rw [List.mem_singleton.1 hm]
      cases first <;> rfl

theorem init_resuming : (init vars control terminal first).Resuming where
  awaited hs := absurd hs Bool.false_ne_true
  attached hor := hor.elim (fun hs => absurd hs Bool.false_ne_true) nofun
  inbox _ _ := rfl

theorem run_resuming (hrun : (init vars control terminal first).run events = pure l) : l.Resuming :=
  foldlM_of_pure (fun _ _ _ h he => h.step he) init_resuming hrun

theorem run_leaving (hrun : (init vars control terminal first).run events = pure l) : l.Leaving := by
  have hexiting : ClientMsg.exiting ∉ (init vars control terminal first).toServer := fun hm =>
    Bool.false_ne_true (init_first _ hm)
  refine (foldlM_of_pure (I := fun l => l.Resuming ∧ l.Leaving) (fun _ _ _ h he => ⟨h.1.step he, h.2.step h.1 he⟩)
    ⟨init_resuming, fun hm => absurd hm hexiting, by simp [init, unread], ?_⟩ hrun).2
  exact List.pairwise_iff_forall_sublist.2 fun hsub heq => absurd (heq ▸ hsub.subset List.mem_cons_self) hexiting

theorem run_printing (hrun : (init vars control terminal first).run events = pure l) :
    Printing (init vars control terminal first) events l :=
  foldlM_of_prefix (fun _ _ _ _ hpre h he => h.step hpre (run_resuming hpre) he)
    ⟨fun _ _ => ⟨rfl, rfl⟩, by simp [init, unread], by simp [init]⟩ hrun

end Link

/-! ## Runs -/

section Runs

variable {vars : List (List UInt8)} {control terminal : Bool} {first : List CommandAction × Bool ⊕ List UInt8}
  {events : List LinkEvent} {l : Link}

/-- A client of the server that is suspended has not handled the message that suspends it, has stopped itself, or goes
    on: it is continued, or says so. -/
theorem linkRun_resumes (hrun : (Link.init vars control terminal first).run events = pure l)
    (hsuspended : l.server.suspended = true) (hdead : l.server.dead = false) (hbad : l.server.bad = false)
    (hcontrol : l.server.control = false) (hended : l.client.ended = none) :
    (∃ m ∈ l.unread, m.suspends = true) ∨ l.client.stopped = true ∨
      (l.client.continued = true ∧ l.client.attached = true) ∨ ∃ m ∈ l.toServer, m.resumes = true := by
  have hawaited := (Link.run_resuming hrun).awaited hsuspended
  simpa [hdead, hbad, hcontrol, hended] using hawaited

/-- A client that is locked has the message to lock, which it has read. -/
theorem linkRun_resumes_lock : ∃ l : Link, (∃ m ∈ l.unread, m.suspends = true) ∨ l.client.stopped = true ∨
    (l.client.continued = true ∧ l.client.attached = true) ∨ ∃ m ∈ l.toServer, m.resumes = true := by
  have hrun : ∃ l, (Link.init [] false true (.inl ([.attach 0 none], false))).run
      [.message, .message, .read 1, .take, .take, .action (.lock []), .read 1] = pure l ∧ l.server.suspended = true ∧
      l.server.dead = false ∧ l.server.bad = false ∧ l.server.control = false ∧ l.client.ended = none :=
    ⟨_, rfl, rfl, rfl, rfl, rfl, rfl⟩
  obtain ⟨l, hrun, hsuspended, hdead, hbad, hcontrol, hended⟩ := hrun
  exact ⟨l, linkRun_resumes hrun hsuspended hdead hbad hcontrol hended⟩

/-- A client that says that it is exiting is answered, and once it is, the server has left its session and closed its
    terminal, and handles nothing of it that would change this. -/
theorem linkRun_exits (hrun : (Link.init vars control terminal first).run events = pure l)
    (hsaid : ClientMsg.exiting ∈ l.said) :
    (l.client.ended = none → l.server.dead = true ∨ l.server.bad = true ∨ ClientMsg.exiting ∈ l.toServer ∨
      ServerMsg.exited ∈ l.unread) ∧
    (ServerMsg.exited ∈ l.unread ∨ l.client.ended = some (.message .exited) →
      l.server.session = none ∧ l.server.opened = false ∧ ∀ m ∈ l.toServer, m.first = false) := by
  have hleaving := Link.run_leaving hrun
  refine ⟨hleaving.answered hsaid, fun hor => ?_⟩
  have hleft := hleaving.left hor
  exact ⟨hleft.session, hleft.opened, hleft.first⟩

/-- A client that is detached is told that it has exited, and has no session any more. -/
theorem linkRun_exits_detach : ∃ l : Link, ServerMsg.exited ∈ l.unread ∧ l.server.session = none := by
  have hrun : ∃ l, (Link.init [] false true (.inl ([.attach 0 none], false))).run
      [.message, .message, .read 1, .take, .take, .action (.detach false), .read 1, .take, .message] = pure l ∧
      ClientMsg.exiting ∈ l.said ∧ ServerMsg.exited ∈ l.unread :=
    ⟨_, rfl, by decide, by decide⟩
  obtain ⟨l, hrun, hsaid, hexited⟩ := hrun
  exact ⟨l, hexited, ((linkRun_exits hrun hsaid).2 (.inl hexited)).1⟩

/-- A client that waits and is told to exit has written all that the server had for it when it told it so, and exits
    with the value that it had then. -/
theorem linkRun_prints (hrun : (Link.init vars control terminal first).run events = pure l) {retcode : ℤ}
    (hended : l.client.ended = some (.message (.exit retcode))) :
    Link.Told (Link.init vars control terminal first) events l.client.stdout l.client.stderr retcode ∧
      l.client.exitval = retcode :=
  (Link.run_printing hrun).exited retcode hended

/-- A command that prints a line before the client is told to exit. -/
theorem linkRun_prints_line : ∃ (start l : Link) (events : List LinkEvent),
    Link.Told start events l.client.stdout l.client.stderr 0 ∧ l.client.stdout = [97, 10] := by
  have hrun : ∃ l, (Link.init [] false false (.inl ([.action (.print [97])], true))).run
      [.message, .message, .loop, .read 2, .take, .take] = pure l ∧ l.client.ended = some (.message (.exit 0)) ∧
      l.client.stdout = [97, 10] :=
    ⟨_, rfl, rfl, rfl⟩
  obtain ⟨l, hrun, hended, hstdout⟩ := hrun
  exact ⟨_, l, _, (linkRun_prints hrun hended).1, hstdout⟩

end Runs

end Tmux
