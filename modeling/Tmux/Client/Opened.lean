import Tmux.Client.Exchange

/-!
# The terminal of a client

The server uses the terminal of a client that goes on, and closes it when the client says that it is exiting. A client
that is detached and locked before it has handled either does both in this order, and the server uses what it has freed
(the example after `linkRun_opened`). If the client never goes on after it said that it is exiting, no run does that.
-/

namespace Tmux

open Exec

/-- The command attaches its client, and opens its terminal. -/
def CommandAction.opens : CommandAction → Bool
  | .attach _ cause => cause.isNone
  | .action _ => false

/-- The command fails to open the terminal of its client. -/
def CommandAction.fails : CommandAction → Bool
  | .attach _ cause => cause.isSome
  | .action _ => false

/-- Whether a message comes with a command. -/
def ClientMsg.commands : ClientMsg → Bool
  | .command _ _ => true
  | _ => false

theorem resumes_of_first {m : ClientMsg} (h : m.first = true) : m.resumes = false := by
  cases m <;> first | rfl | exact absurd h Bool.false_ne_true

variable {c c' : ServerClient} {sent : List ServerMsg}

/-- The client has no session and is not suspended, unless it is a control client. -/
def Apart (c : ServerClient) : Prop := c.control = true ∨ c.session = none ∧ c.suspended = false

theorem Apart.kept (h : Apart c) (hcontrol : c'.control = c.control) (hsession : c.session = none → c'.session = none)
    (hwithin : c'.suspended = true → c.suspended = true ∨ c.session ≠ none) : Apart c' := by
  rcases h with h | ⟨hnone, hsuspended⟩
  · exact .inl (hcontrol.trans h)
  · refine .inr ⟨hsession hnone, ?_⟩
    cases hs : c'.suspended with
    | false => rfl
    | true =>
      rcases hwithin hs with h | h
      · exact absurd (hsuspended.symm.trans h) Bool.false_ne_true
      · exact absurd hnone h

/-- What a client is when the rest of its command is some actions: apart, or its terminal is open and no attach fails. -/
def Attaches (c : ServerClient) (actions : List CommandAction) : Prop :=
  Apart c ∨ c.opened = true ∧ ∀ a ∈ actions, a.fails = false

theorem Attaches.acts {actions : List CommandAction} (h : Attaches c actions) (ha : Acts c c' sent) :
    Attaches c' actions :=
  h.imp (fun h => h.kept ha.control ha.session ha.within) fun h => h.imp_left ha.opened.trans

theorem Attaches.tail {action : CommandAction} {actions : List CommandAction} (h : Attaches c (action :: actions)) :
    Attaches c actions :=
  h.imp_right fun h => ⟨h.1, fun a hm => h.2 a (List.mem_cons_of_mem _ hm)⟩

/-- An attach that opens the terminal is followed by none that fails, and one that fails comes when there is no session. -/
theorem Attaches.attach {session : ℕ} {cause : Option (List UInt8)} {actions : List CommandAction}
    (h : Attaches c (.attach session cause :: actions)) (hcause : cause.isNone = true → ∀ a ∈ actions, a.fails = false) :
    Attaches (cmdAttachSessionExec c session cause).1 actions := by
  cases hcontrol : c.control with
  | true =>
    have hopen : serverClientOpen c cause = (c, none) := by simp [serverClientOpen, hcontrol]
    rw [cmdAttachSessionExec, hopen]
    exact .inl (.inl hcontrol)
  | false =>
    cases hterminal : c.terminal with
    | false =>
      have hopen : serverClientOpen c cause = (c, some (asciiBytes "not a terminal")) := by
        simp [serverClientOpen, hcontrol, hterminal]
      rw [cmdAttachSessionExec, hopen]
      exact h.tail.acts (acts_error c _)
    | true =>
      cases cause with
      | none =>
        have hopen : serverClientOpen c none = ({ c with opened := true, started := true }, none) := by
          simp [serverClientOpen, hcontrol, hterminal]
        rw [cmdAttachSessionExec, hopen]
        exact .inr ⟨rfl, hcause rfl⟩
      | some cause =>
        have hopen : serverClientOpen c (some cause) = (ttyClose c, some cause) := by
          simp [serverClientOpen, hcontrol, hterminal]
        rw [cmdAttachSessionExec, hopen]
        rcases h with h | ⟨-, hfails⟩
        · have hclosed : Attaches (ttyClose c) actions := .inl h
          exact hclosed.acts (acts_error _ _)
        · exact absurd (hfails _ List.mem_cons_self).symm Bool.false_ne_true

/-- A command after which the client has a session or is suspended leaves its terminal open. -/
theorem Attaches.actions {actions : List CommandAction} (h : Attaches c actions)
    (hactions : actions.Pairwise fun a b => a.opens = true → b.fails = false) :
    Attaches (commandActions c actions).1 [] := by
  induction actions generalizing c with
  | nil => exact h
  | cons action actions ih =>
    rw [List.pairwise_cons] at hactions
    refine ih ?_ hactions.2
    cases action with
    | action a => exact h.tail.acts (acts_action c a)
    | attach session cause => exact h.attach fun hopens a hm => hactions.1 a hm hopens

/-- A control client is not told that it is ready. -/
theorem control_of_ready_mem {actions : List CommandAction} (h : ServerMsg.ready ∈ (commandActions c actions).2) :
    c.control = false := by
  induction actions generalizing c with
  | nil => exact absurd h List.not_mem_nil
  | cons action actions ih =>
    rcases List.mem_append.1 h with h | h
    · cases action with
      | action a => exact absurd rfl ((acts_action c a).quiet _ h).1
      | attach session cause =>
        replace h : ServerMsg.ready ∈ (cmdAttachSessionExec c session cause).2 := h
        cases hcontrol : c.control with
        | false => rfl
        | true =>
          have hopen : serverClientOpen c cause = (c, none) := by simp [serverClientOpen, hcontrol]
          simp [cmdAttachSessionExec, hopen, serverWriteReady, hcontrol] at h
    · exact (serves_commandAction c action).control.symm.trans (ih h)

namespace Link

variable {l l' : Link}

/-- While the server has the client, its terminal is open when it has a session, and when it is suspended, unless the
    server has handled the message that it is exiting. -/
structure Opened (l : Link) : Prop where
  session : l.server.session ≠ none → l.server.control = true ∨ l.server.opened = true
  suspended : ∃ handled, handled ++ l.toServer <+: l.said ∧ (l.client.ended = none → handled ++ l.toServer = l.said) ∧
    (l.server.suspended = true →
      l.server.control = true ∨ l.server.opened = true ∨ ClientMsg.exiting ∈ handled)
  /-- A client that has a terminal in use is told so after all that it sends at first. -/
  ready : ServerMsg.ready ∈ l.unread ∨ l.client.attached = true →
    l.server.control = false ∧ ∀ m ∈ l.toServer, m.first = false
  resumes : (∃ m ∈ l.toServer, m.resumes = true) → l.client.attached = true
  first : l.toServer.Pairwise fun m m' => m.commands = true → m'.first = false
  /-- The command comes when the client has no session yet. -/
  command : ∀ actions finished, ClientMsg.command actions finished ∈ l.toServer →
    (actions.Pairwise fun a b => a.opens = true → b.fails = false) ∧ Apart l.server

/-- What the server does without a message keeps that. -/
theorem Opened.served (h : l.Opened) {r : ServerClient × List ServerMsg} (hcontrol : r.1.control = l.server.control)
    (hopened : r.1.opened = l.server.opened) (hsession : l.server.session = none → r.1.session = none)
    (hwithin : r.1.suspended = true → l.server.suspended = true ∨ l.server.session ≠ none)
    (hready : ServerMsg.ready ∉ r.2) : (l.served r).Opened where
  session hs := by
    simp only [Link.served] at hs ⊢
    rw [hcontrol, hopened]
    exact h.session fun hn => hs (hsession hn)
  suspended := by
    obtain ⟨handled, hhandled, hall, hexiting⟩ := h.suspended
    refine ⟨handled, hhandled, hall, fun hs => ?_⟩
    simp only [Link.served] at hs ⊢
    rw [hcontrol, hopened]
    rcases hwithin hs with hs | hs
    · exact hexiting hs
    · exact (h.session hs).imp_right .inl
  ready hor := by
    refine (h.ready <| hor.imp_left fun hm => ?_).imp_left hcontrol.trans
    rw [unread, Link.served, ← List.append_assoc] at hm
    exact (List.mem_append.1 hm).resolve_right hready
  resumes := h.resumes
  first := h.first
  command actions finished hm :=
    (h.command actions finished hm).imp_right fun hapart => hapart.kept hcontrol hsession hwithin

/-- What the client does keeps that. -/
theorem Opened.acted (h : l.Opened) (running : l.client.ended = none) {r : Client × List ClientMsg}
    (hattached : l.client.attached = true → r.1.attached = true)
    (hready : r.1.attached = true → l.client.attached = true ∨ ServerMsg.ready ∈ l.unread)
    (hinbox : ∀ m ∈ r.1.inbox, m ∈ l.unread) (hfirst : ∀ m ∈ r.2, m.first = false)
    (hresumes : (∃ m ∈ r.2, m.resumes = true) → l.client.attached = true) : (l.acted r).Opened where
  session := h.session
  suspended := by
    obtain ⟨handled, -, hall, hexiting⟩ := h.suspended
    have hsaid : handled ++ (l.toServer ++ r.2) = l.said ++ r.2 := by rw [← hall running, List.append_assoc]
    exact ⟨handled, hsaid ▸ List.prefix_rfl, fun _ => hsaid, hexiting⟩
  ready hor := by
    have hold : ServerMsg.ready ∈ l.unread ∨ l.client.attached = true := by
      rcases hor with hm | ha
      · rcases List.mem_append.1 hm with hm | hm
        · exact .inl (hinbox _ hm)
        · exact .inl (List.mem_append_right _ hm)
      · exact (hready ha).symm
    exact (h.ready hold).imp_right fun hall => List.forall_mem_append.2 ⟨hall, hfirst⟩
  resumes hex := by
    obtain ⟨m, hm, hmresumes⟩ := hex
    rcases List.mem_append.1 hm with hm | hm
    · exact hattached (h.resumes ⟨m, hm, hmresumes⟩)
    · exact hattached (hresumes ⟨m, hm, hmresumes⟩)
  first := List.pairwise_append.2 ⟨h.first, List.pairwise_iff_forall_sublist.2 fun hsub _ =>
    hfirst _ (hsub.subset (List.mem_cons_of_mem _ (List.mem_singleton_self _))), fun _ _ m hm _ => hfirst m hm⟩
  command actions finished hm := by
    rcases List.mem_append.1 hm with hm | hm
    · exact h.command actions finished hm
    · exact absurd (hfirst _ hm).symm Bool.false_ne_true

/-- Where the messages are, read or not, makes no difference. -/
theorem Opened.congr (h : l.Opened) (hserver : l'.server = l.server) (hsaid : l'.said = l.said)
    (htoServer : l'.toServer = l.toServer) (hunread : l'.unread = l.unread)
    (hended : l'.client.ended = l.client.ended) (hattached : l'.client.attached = l.client.attached) : l'.Opened where
  session := hserver ▸ h.session
  suspended := by
    rw [hserver, hsaid, htoServer, hended]
    exact h.suspended
  ready := by
    rw [hserver, htoServer, hunread, hattached]
    exact h.ready
  resumes := by
    rw [htoServer, hattached]
    exact h.resumes
  first := htoServer ▸ h.first
  command := by
    rw [htoServer, hserver]
    exact h.command

/-- A message of the server that is handled, and changes neither whether the client is a control client, nor its session
    or its terminal. -/
theorem Opened.message (h : l.Opened) {msg : ClientMsg} {toServer : List ClientMsg}
    (hmsg : l.toServer = msg :: toServer) {r : ServerClient × List ServerMsg}
    (hsession : r.1.session ≠ none → r.1.control = true ∨ r.1.opened = true)
    (hsuspended : r.1.suspended = true → r.1.control = true ∨ r.1.opened = true ∨ msg = .exiting ∨
      l.server.suspended = true ∧ l.server.control = r.1.control ∧ l.server.opened = r.1.opened)
    (hready : ServerMsg.ready ∈ r.2 → r.1.control = false ∧ msg.commands = true)
    (hcontrol : r.1.control = l.server.control ∨ msg.first = true)
    (hcommand : Apart l.server → msg.commands = false → Apart r.1) :
    (Link.served { l with toServer } r).Opened := by
  have hfirst := h.first
  rw [hmsg, List.pairwise_cons] at hfirst
  obtain ⟨handled, hhandled, hall, hexiting⟩ := h.suspended
  rw [hmsg, List.append_cons] at hhandled hall
  refine ⟨hsession, ⟨_, hhandled, hall, fun hs => ?_⟩, fun hor => ?_, fun hex => ?_, hfirst.2,
    fun actions finished hm => ?_⟩
  · rcases hsuspended hs with hs | hs | rfl | ⟨hs, hcontrol, hopened⟩
    · exact .inl hs
    · exact .inr (.inl hs)
    · exact .inr (.inr (List.mem_append_right _ (List.mem_singleton_self _)))
    · rcases hexiting hs with hc | ho | he
      · exact .inl (hcontrol.symm.trans hc)
      · exact .inr (.inl (hopened.symm.trans ho))
      · exact .inr (.inr (List.mem_append_left _ he))
  · have hcases : (ServerMsg.ready ∈ l.unread ∨ l.client.attached = true) ∨ ServerMsg.ready ∈ r.2 := by
      rcases hor with hm | ha
      · rw [unread, Link.served, ← List.append_assoc] at hm
        exact (List.mem_append.1 hm).imp_left .inl
      · exact .inl (.inr ha)
    rcases hcases with hold | hnew
    · have hold := h.ready hold
      rw [hmsg, List.forall_mem_cons] at hold
      obtain ⟨hc, hhead, hrest⟩ := hold
      refine ⟨hcontrol.elim (fun heq => heq.trans hc) fun hf => ?_, hrest⟩
      exact absurd (hhead.symm.trans hf) Bool.false_ne_true
    · obtain ⟨hc, hcommands⟩ := hready hnew
      exact ⟨hc, fun m hm => hfirst.1 m hm hcommands⟩
  · obtain ⟨m, hm, hresumes⟩ := hex
    exact h.resumes ⟨m, hmsg ▸ List.mem_cons_of_mem _ hm, hresumes⟩
  · obtain ⟨hpair, hapart⟩ := h.command actions finished (hmsg ▸ List.mem_cons_of_mem _ hm)
    refine ⟨hpair, hcommand hapart ?_⟩
    -- after a command no other one comes
    cases hcommands : msg.commands with
    | false => rfl
    | true => exact absurd (hfirst.1 _ hm hcommands).symm Bool.false_ne_true

/-- The messages that change nothing that the terminal depends on. -/
theorem Opened.kept (h : l.Opened) {msg : ClientMsg} {toServer : List ClientMsg} (hmsg : l.toServer = msg :: toServer)
    {r : ServerClient × List ServerMsg} (hsession : r.1.session = l.server.session)
    (hopened : r.1.opened = l.server.opened) (hcontrol : r.1.control = l.server.control)
    (hsuspended : r.1.suspended = true → l.server.suspended = true) (hready : ServerMsg.ready ∉ r.2) :
    (Link.served { l with toServer } r).Opened := by
  refine h.message hmsg (fun hs => ?_) (fun hs => ?_) (fun hm => absurd hm hready) (.inl hcontrol) fun hapart _ => ?_
  · rw [hcontrol, hopened]
    exact h.session (hsession ▸ hs)
  · exact .inr (.inr (.inr ⟨hsuspended hs, hcontrol.symm, hopened.symm⟩))
  · exact hapart.kept hcontrol hsession.trans fun hs => .inl (hsuspended hs)

theorem Opened.dispatch (h : l.Opened) {msg : ClientMsg} {toServer : List ClientMsg}
    (hmsg : l.toServer = msg :: toServer) {r : ServerClient × List ServerMsg}
    (hr : serverClientMsgDispatch l.server msg = pure r) : (Link.served { l with toServer } r).Opened := by
  cases msg with
  | command actions finished =>
    obtain rfl := Exec.pure_inj.1 hr.symm
    obtain ⟨hpair, hapart⟩ := h.command actions finished (hmsg ▸ List.mem_cons_self)
    have hafter : Attaches (commandActions l.server actions).1 [] := Attaches.actions (.inl hapart) hpair
    refine h.message hmsg (fun hs => ?_) (fun hs => ?_) (fun hm => ?_) (.inr rfl) fun _ hnot =>
      absurd hnot.symm Bool.false_ne_true
    · rcases hafter with (hc | ⟨hnone, -⟩) | ⟨hopened, -⟩
      · exact .inl hc
      · exact absurd hnone hs
      · exact .inr hopened
    · rcases hafter with (hc | ⟨-, hnot⟩) | ⟨hopened, -⟩
      · exact .inl hc
      · exact absurd (hnot.symm.trans hs) Bool.false_ne_true
      · exact .inr (.inl hopened)
    · exact ⟨(serves_actions l.server actions).control.trans (control_of_ready_mem hm), rfl⟩
  | identify control terminal =>
    cases control with
    | true =>
      obtain rfl := Exec.pure_inj.1 hr.symm
      exact h.message hmsg (fun _ => .inl rfl) (fun _ => .inl rfl) (fun hm => absurd (mem_serverWriteClient hm) nofun)
        (.inr rfl) fun _ _ => .inl rfl
    | false =>
      cases terminal <;> obtain rfl := Exec.pure_inj.1 hr.symm <;>
        exact h.kept hmsg rfl rfl rfl id List.not_mem_nil
  | environ var =>
    obtain rfl := Exec.pure_inj.1 hr.symm
    exact h.kept hmsg rfl rfl rfl id List.not_mem_nil
  | shell shell =>
    obtain rfl := Exec.pure_inj.1 hr.symm
    exact h.kept hmsg rfl rfl rfl id fun hm => absurd (mem_serverWriteClient hm) nofun
  | stdin data =>
    obtain rfl := Exec.pure_inj.1 hr.symm
    exact h.kept hmsg rfl rfl rfl id List.not_mem_nil
  | resize =>
    obtain rfl := Exec.pure_inj.1 hr.symm
    exact h.kept hmsg rfl rfl rfl id List.not_mem_nil
  | wakeup | unlock =>
    rcases resumed_cases hr with ⟨-, rfl⟩ | ⟨-, rfl⟩
    · exact h.kept hmsg rfl rfl rfl id List.not_mem_nil
    · exact h.kept hmsg rfl rfl rfl (fun hs => absurd hs Bool.false_ne_true) List.not_mem_nil
  | exiting =>
    obtain rfl := Exec.pure_inj.1 hr.symm
    refine h.message hmsg (fun hs => absurd rfl hs) (fun _ => .inr (.inr (.inl rfl)))
      (fun hm => absurd (mem_serverWriteClient hm) nofun) (.inl rfl) fun hapart _ => ?_
    exact hapart.imp_right fun h => ⟨rfl, h.2⟩

/-- The client goes on only while its terminal is open, if it does not do so after it said that it is exiting. -/
theorem Opened.returns (h : l.Opened) {msg : ClientMsg} {toServer : List ClientMsg}
    (hmsg : l.toServer = msg :: toServer)
    (hsaid : l.said.Pairwise fun m m' => m = .exiting → m'.resumes = false) :
    ∃ r, serverClientMsgDispatch l.server msg = pure r := by
  have hresumed : msg.resumes = true → ∃ r, (if !l.server.suspended then pure (l.server, [])
      else do
        let c ← ttyStartTty { l.server with suspended := false }
        pure (c, [])) = (pure r : Exec (ServerClient × List ServerMsg)) := by
    intro hresumes
    cases hs : l.server.suspended with
    | false => exact ⟨_, rfl⟩
    | true =>
      have hattached := h.resumes ⟨msg, hmsg ▸ List.mem_cons_self, hresumes⟩
      have hcontrol := (h.ready (.inr hattached)).1
      obtain ⟨handled, ⟨rest, hrest⟩, -, hexiting⟩ := h.suspended
      have hopened : l.server.opened = true := by
        rcases hexiting hs with hc | ho | he
        · exact absurd (hcontrol.symm.trans hc) Bool.false_ne_true
        · exact ho
        · rw [← hrest, hmsg, List.append_assoc, List.pairwise_append] at hsaid
          exact absurd ((hsaid.2.2 _ he msg List.mem_cons_self rfl).symm.trans hresumes) Bool.false_ne_true
      refine ⟨({ l.server with suspended := false, started := true }, []), ?_⟩
      simp [ttyStartTty, hopened]
  cases msg with
  | wakeup | unlock => exact hresumed rfl
  | identify control terminal => cases control <;> cases terminal <;> exact ⟨_, rfl⟩
  | _ => exact ⟨_, rfl⟩

theorem attached_dispatch {k : Client} (h : k.attached = true) (attached : Bool) (msg : ServerMsg) :
    (clientDispatch attached k msg).1.attached = true := by
  cases attached <;> cases msg <;> first | exact h | rfl

theorem Opened.step (h : l.server.dead = false → l.Opened) (hres : l.Resuming) {e : LinkEvent}
    (he : l.step e = pure l') : l'.server.dead = false → l'.Opened := by
  cases moves_of_step he with
  | same => exact h
  | acts alive hacts =>
    exact fun _ => (h alive).served hacts.control hacts.opened hacts.session hacts.within fun hm =>
      (hacts.quiet _ hm).1 rfl
  | message alive hmsg hr => exact fun _ => (h alive).dispatch hmsg hr
  | loop alive =>
    intro _
    have h := h alive
    unfold serverClientCheckExit
    split_ifs
    · exact h.served rfl rfl id .inl List.not_mem_nil
    · exact h.served rfl rfl id .inl List.not_mem_nil
    · exact h.served rfl rfl id .inl List.not_mem_nil
    · exact h.served rfl rfl id .inl fun hm => absurd (mem_serverWriteClient hm) nofun
  | lose _ _ n => exact fun alive => absurd alive.symm Bool.false_ne_true
  | read idle n =>
    intro alive
    obtain ⟨hended, hdispatch, -⟩ := idle_iff.1 idle
    refine (h alive).congr rfl rfl rfl ?_ rfl rfl
    rw [unread, unread, hres.inbox hdispatch hended]
    exact List.take_append_drop n l.toClient
  | handled running hinbox => exact fun alive => (h alive).congr rfl rfl rfl rfl rfl rfl
  | @take running attached hdispatch msg inbox hinbox =>
    intro alive
    have hh := handles_dispatch (k := { l.client with inbox }) running hdispatch msg
    have hunread : l.unread = msg :: (inbox ++ l.toClient) := by rw [unread, hinbox, List.cons_append]
    refine (h alive).acted running (fun ha => attached_dispatch (k := { l.client with inbox }) ha attached msg)
      (fun ha => ?_) (fun m hm => ?_) (fun m hm => ?_) fun hex => ?_
    · rcases hh.ready ha with ha | rfl
      · exact .inl ha
      · exact .inr (hunread ▸ List.mem_cons_self)
    · rw [hh.inbox] at hm
      rw [hunread]
      exact List.mem_cons_of_mem _ (List.mem_append_left _ hm)
    · rcases hh.answers m hm with rfl | rfl <;> rfl
    · exact hres.attached (.inr (hh.resumes hex))
  | @signal sig idle continued hcont =>
    intro alive
    have hs := signalled { l.client with continued } sig
    refine (h alive).acted (idle_iff.1 idle).1 (fun ha => hs.attached.trans ha) (fun ha => .inl (hs.attached.symm.trans ha))
      (fun m hm => ?_) hs.first hs.resumes
    exact List.mem_append_left _ (hs.inbox ▸ hm)
  | «continue» running => exact fun alive => (h alive).congr rfl rfl rfl rfl rfl rfl
  | lostServer running dead => exact fun alive => absurd (alive.symm.trans dead) Bool.false_ne_true
  | drop n ended =>
    intro alive
    have h := h alive
    obtain ⟨handled, hhandled, -, hexiting⟩ := h.suspended
    have htake := List.take_sublist n l.toServer
    refine ⟨h.session, ⟨handled, ?_, fun hend => absurd hend ended, hexiting⟩, fun hor => ?_, fun hex => ?_,
      h.first.sublist htake, fun actions finished hm => h.command actions finished (htake.subset hm)⟩
    · exact ((List.prefix_append_right_inj handled).2 (List.take_prefix n l.toServer)).trans hhandled
    · exact (h.ready hor).imp_right fun hall m hm => hall m (htake.subset hm)
    · obtain ⟨m, hm, hresumes⟩ := hex
      exact h.resumes ⟨m, htake.subset hm, hresumes⟩

/-- A step returns while the client does not go on after it said that it is exiting. -/
theorem Opened.step_returns (h : l.server.dead = false → l.Opened)
    (hsaid : l.said.Pairwise fun m m' => m = .exiting → m'.resumes = false) (e : LinkEvent) :
    ∃ l', l.step e = pure l' := by
  cases e with
  | message =>
    rw [Link.step]
    split_ifs with hdead
    · exact ⟨l, rfl⟩
    · split
      · exact ⟨l, rfl⟩
      next msg toServer hmsg =>
        obtain ⟨r, hr⟩ := (h (by simpa using hdead)).returns hmsg hsaid
        exact ⟨_, by rw [hr]; rfl⟩
  | take =>
    rw [Link.step]
    split_ifs
    · exact ⟨l, rfl⟩
    · split <;> exact ⟨_, rfl⟩
  | push | shutdown n =>
    rw [Link.step]
    split_ifs <;> exact ⟨_, rfl⟩
  | _ => exact ⟨_, rfl⟩

end Link

variable {vars : List (List UInt8)} {control terminal : Bool} {first : List CommandAction × Bool ⊕ List UInt8}
  {events : List LinkEvent}

theorem Link.init_opened
    (hcommand : ∀ actions finished, first = .inl (actions, finished) →
      actions.Pairwise fun a b => a.opens = true → b.fails = false) :
    (Link.init vars control terminal first).Opened where
  session hs := absurd rfl hs
  suspended := ⟨[], List.prefix_rfl, fun _ => rfl, fun hs => absurd hs Bool.false_ne_true⟩
  ready hor := hor.elim (fun hm => absurd hm List.not_mem_nil) fun ha => absurd ha Bool.false_ne_true
  resumes hex := by
    obtain ⟨m, hm, hresumes⟩ := hex
    exact absurd ((resumes_of_first (init_first m hm)).symm.trans hresumes) Bool.false_ne_true
  first := by
    have hbefore : ∀ m ∈ vars.map ClientMsg.environ ++ [ClientMsg.identify control terminal], m.commands = false := by
      intro m hm
      rcases List.mem_append.1 hm with hm | hm
      · obtain ⟨var, -, rfl⟩ := List.mem_map.1 hm
        rfl
      · rw [List.mem_singleton.1 hm]
        rfl
    rw [init, List.append_cons, List.pairwise_append]
    refine ⟨List.pairwise_iff_forall_sublist.2 fun hsub hcommands => ?_, List.pairwise_singleton _ _,
      fun m hm _ _ hcommands => absurd ((hbefore m hm).symm.trans hcommands) Bool.false_ne_true⟩
    exact absurd ((hbefore _ (hsub.subset List.mem_cons_self)).symm.trans hcommands) Bool.false_ne_true
  command actions finished hm := by
    refine ⟨hcommand actions finished ?_, .inr ⟨rfl, rfl⟩⟩
    rcases List.mem_append.1 hm with hm | hm
    · obtain ⟨var, -, hvar⟩ := List.mem_map.1 hm
      cases hvar
    · rcases List.mem_cons.1 hm with hm | hm
      · cases hm
      · cases first with
        | inl command =>
          obtain ⟨rfl, rfl⟩ := ClientMsg.command.inj (List.mem_singleton.1 hm)
          rfl
        | inr shell => cases List.mem_singleton.1 hm

/-- If an attach that fails comes before those that open the terminal, and the client never goes on after it said that
    it is exiting, the server uses no terminal that it has closed. -/
theorem linkRun_opened
    (hcommand : ∀ actions finished, first = .inl (actions, finished) →
      actions.Pairwise fun a b => a.opens = true → b.fails = false)
    (hsaid : Along Link.step (fun l _ => l.said.Pairwise fun m m' => m = .exiting → m'.resumes = false)
      (Link.init vars control terminal first) events) :
    ∃ l, (Link.init vars control terminal first).run events = pure l := by
  have hstep : ∀ (l : Link) (e : LinkEvent), (l.said.Pairwise fun m m' => m = .exiting → m'.resumes = false) →
      l.Resuming ∧ (l.server.dead = false → l.Opened) →
      ∃ l', l.step e = pure l' ∧ l'.Resuming ∧ (l'.server.dead = false → l'.Opened) := by
    rintro l e hl ⟨hres, hopened⟩
    obtain ⟨l', he⟩ := Link.Opened.step_returns hopened hl e
    exact ⟨l', he, hres.step he, Link.Opened.step hopened hres he⟩
  obtain ⟨l, hrun, -⟩ := foldlM_along hstep hsaid ⟨Link.init_resuming, fun _ => Link.init_opened hcommand⟩
  exact ⟨l, hrun⟩

/-- A client that is locked, and unlocks. -/
theorem linkRun_opened_lock : ∃ l, (Link.init [] false true (.inl ([.attach 0 none], false))).run
    [.message, .message, .read 1, .take, .take, .action (.lock []), .read 1, .take, .message] = pure l := by
  have hcommand : ∀ actions finished, (Sum.inl ([.attach 0 none], false) : List CommandAction × Bool ⊕ List UInt8) =
      .inl (actions, finished) → actions.Pairwise fun a b => a.opens = true → b.fails = false := by
    intro actions finished hactions
    obtain ⟨rfl, -⟩ := Prod.mk.inj (Sum.inl.inj hactions)
    exact List.pairwise_singleton _ _
  exact linkRun_opened hcommand (by decide)

/-- A client that is locked before it has handled that it is detached says that it is exiting, and then that it is
    unlocked: the server uses the terminal that it has closed. -/
example : ((Link.init [] false true (.inl ([.attach 0 none], false))).run
    [.message, .message, .read 1, .take, .take, .action (.detach false), .action (.lock []), .read 2, .take, .take,
      .message, .message]).value? = none := by
  decide

end Tmux
