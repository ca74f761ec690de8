import Tmux.Session.Notify

/-!
# Command lists

A command list is executed command by command (`cmdListExec`), with the delivery of
notifications disabled meanwhile. A command (`Cmd`) adds notifications and may execute
command lists itself, as `source-file` does for the lines of a file (`loadCfg`).

Lists *bracket* notifications (`Bracketed`) if each returns with the delivery as it was
when it was entered, if nothing is delivered while a list is running, and if nothing that
was added is left in the end. That is not so if a list ends with an error, as the
delivery is left disabled, or if one executed by a command of another list does not, as it
is enabled then (`cmdListExec_bracketed_iff`).
-/

namespace Tmux

/-- What a command returns. -/
inductive CmdRetval
  | error
  | normal
  | yield
  | attach
  deriving DecidableEq, Repr

/-- The functions a command reports by. -/
inductive CmdHandlers
  | message
  | control
  | cfg
  | keyBindings
  deriving DecidableEq, Repr

/-- A client, as far as executing commands for it is concerned. -/
structure CmdClient where
  session : Option ℕ := none
  /-- Whether it is a control client. -/
  control : Bool := false
  deriving DecidableEq, Repr

/-- The context of a command. -/
structure CmdCtx where
  curclient : Option CmdClient := none
  cmdclient : Option CmdClient := none
  handlers : CmdHandlers := .message
  deriving DecidableEq, Repr

mutual

/-- A command, with what it does and returns when it is executed. -/
inductive Cmd
  | mk (actions : List CmdAction) (retval : CmdRetval)

/-- What a command does. -/
inductive CmdAction
  | notify (ne : NotifyEntry)
  | exec (cmdlist : List Cmd) (ctx : CmdCtx)

end

/-- What a command returns. -/
def Cmd.retval : Cmd → CmdRetval
  | .mk _ retval => retval

/-- The notifications while commands are executed, with a record of what happened. -/
structure CmdState where
  notifyQueue : List NotifyEntry := []
  notifyEnabled : Bool := true
  /-- The number of lists with a command being executed. -/
  running : ℕ := 0
  /-- The notifications added. -/
  added : List NotifyEntry := []
  /-- The notifications delivered, each with the number of lists running then. -/
  delivered : List (NotifyEntry × ℕ) := []
  /-- Whether delivery was enabled when a list was entered and when it returned. -/
  returned : List (Bool × Bool) := []
  /-- What was printed. -/
  printed : List (CmdHandlers × String) := []

namespace CmdState

variable (s : CmdState)

/-- Deliver the notifications in the queue. -/
def notifyDrain : CmdState :=
  if !s.notifyEnabled then s
  else { s with
    notifyQueue := []
    delivered := s.delivered ++ s.notifyQueue.map fun ne => (ne, s.running) }

/-- Enable the delivery of notifications. -/
def notifyEnable : CmdState := notifyDrain { s with notifyEnabled := true }

/-- Disable the delivery of notifications. -/
def notifyDisable : CmdState := { s with notifyEnabled := false }

/-- Add a notification to the queue. -/
def notifyAdd (ne : NotifyEntry) : CmdState :=
  { s with notifyQueue := s.notifyQueue ++ [ne], added := s.added ++ [ne] }

/-- Add a notification, and deliver it. -/
def notify (ne : NotifyEntry) : CmdState := (s.notifyAdd ne).notifyDrain

/-- Print a guard around the output of a command for a control client. -/
def guard (guards : Bool) (ctx : CmdCtx) (line : String) : CmdState :=
  if guards then { s with printed := s.printed ++ [(ctx.handlers, line)] } else s

/-- Enter a list. -/
def enter : CmdState := { s.notifyDisable with running := s.running + 1 }

/-- Be done with the commands of a list. -/
def leave : CmdState := { s with running := s.running - 1 }

/-- Return from a list that was entered with the delivery enabled or not. -/
def returnFrom (enabled : Bool) : CmdState :=
  { s with returned := s.returned ++ [(enabled, s.notifyEnabled)] }

/-- Forget what happened. -/
def forget : CmdState := { s with added := [], delivered := [], returned := [], printed := [] }

end CmdState

/-- The client is being attached: treat any following commands as if they were called from
    inside. -/
def attachCtx (ctx : CmdCtx) : CmdCtx :=
  if ctx.curclient.isNone then
    { curclient := ctx.cmdclient, cmdclient := none, handlers := .keyBindings }
  else ctx

/-- Whether the output of commands is guarded. -/
def cmdGuards (ctx : CmdCtx) : Bool :=
  match ctx.curclient with
  | none => false
  | some c => c.session.isSome && c.control

mutual

/-- Execute a command. -/
def cmdExec : Cmd → CmdState → CmdState × CmdRetval
  | .mk actions retval, s => (cmdActions actions s, retval)

/-- Do what a command does. -/
def cmdActions : List CmdAction → CmdState → CmdState
  | [], s => s
  | action :: actions, s => cmdActions actions (cmdAction action s)

/-- Do one thing a command does. -/
def cmdAction : CmdAction → CmdState → CmdState
  | .notify ne, s => s.notify ne
  | .exec cmdlist ctx, s =>
    ((cmdListLoop (cmdGuards ctx) cmdlist ctx .normal s.enter).1).returnFrom s.notifyEnabled

/-- Execute the commands of a list. -/
def cmdListLoop (guards : Bool) :
    List Cmd → CmdCtx → CmdRetval → CmdState → CmdState × CmdCtx × CmdRetval
  | [], ctx, retval, s => (s.leave.notifyEnable, ctx, retval)
  | cmd :: cmds, ctx, retval, s =>
    let s := s.guard guards ctx "%begin"
    let (s, n) := cmdExec cmd s
    let s := s.guard guards ctx "%end"
    match n with
    | .error => (s.leave, ctx, .error)
    | .attach => cmdListLoop guards cmds (attachCtx ctx) .attach s
    | .yield => cmdListLoop guards cmds ctx (if retval = .normal then .yield else retval) s
    | .normal => cmdListLoop guards cmds ctx retval s

end

/-- Execute a command list. -/
def cmdListExec (cmdlist : List Cmd) (ctx : CmdCtx) (s : CmdState) : CmdState × CmdCtx × CmdRetval :=
  let (s', ctx, retval) := cmdListLoop (cmdGuards ctx) cmdlist ctx .normal s.enter
  (s'.returnFrom s.notifyEnabled, ctx, retval)

/-! ## Files -/

/-- What a list returns, after commands that make it return `retval`. -/
def cmdListRetval : CmdRetval → List Cmd → CmdRetval
  | retval, [] => retval
  | retval, cmd :: cmds =>
    match cmd.retval with
    | .error => .error
    | .attach => cmdListRetval .attach cmds
    | .yield => cmdListRetval (if retval = .normal then .yield else retval) cmds
    | .normal => cmdListRetval retval cmds

theorem cmdListLoop_retval {guards : Bool} {cmds : List Cmd} {ctx : CmdCtx} {retval : CmdRetval}
    {s : CmdState} : (cmdListLoop guards cmds ctx retval s).2.2 = cmdListRetval retval cmds := by
  induction cmds generalizing ctx retval s with
  | nil => rfl
  | cons cmd cmds ih =>
    obtain ⟨actions, n⟩ := cmd
    rw [cmdListLoop, cmdListRetval, cmdExec]
    cases n with
    | error => rfl
    | normal => exact ih
    | yield => exact ih
    | attach => exact ih

/-- What a file returns, of which a line makes a list return `n`. -/
def cfgRetval (retval n : CmdRetval) : CmdRetval :=
  match n with
  | .yield => if retval ≠ .attach then .yield else retval
  | .attach => .attach
  | .error | .normal => retval

/-- The context of the commands in a file. -/
def cfgCtx (ctxin : Option CmdCtx) : CmdCtx :=
  match ctxin with
  | none => { handlers := .cfg }
  | some ctx => { ctx with handlers := .cfg }

/-- Load a file, if it can be opened: the lists of its lines that have one. -/
def loadCfg (file : Option (List (List Cmd))) (ctxin : Option CmdCtx) : Cmd :=
  match file with
  | none => .mk [] .error
  | some cmdlists => .mk (cmdlists.map fun cmdlist => .exec cmdlist (cfgCtx ctxin))
      (cmdlists.foldl (fun retval cmdlist => cfgRetval retval (cmdListRetval .normal cmdlist)) .normal)

/-! ## Windows -/

/-- The queue of notifications and whether they are delivered, with the references that the
    notifications hold (`Windows`) or without (`CmdState`). -/
structure Agrees (ws : Windows) (s : CmdState) : Prop where
  queue : s.notifyQueue = ws.notifyQueue
  enabled : s.notifyEnabled = ws.notifyEnabled

namespace Agrees

variable {ws ws' : Windows} {s : CmdState} {ne : NotifyEntry}

theorem deliver {queue : List NotifyEntry} (hqueue : ws.notifyQueue = ne :: queue)
    (h : (ws.deliver ne).value? = some ws') :
    ws'.notifyQueue = queue ∧ ws'.notifyEnabled = ws.notifyEnabled := by
  have herase : ws.notifyQueue.erase ne = queue := by rw [hqueue, List.erase_cons_head]
  unfold Windows.deliver at h
  split at h
  · obtain rfl := Option.some.inj h
    exact ⟨herase, rfl⟩
  · obtain ⟨-, -, h⟩ := Exec.value?_bind.1 h
    obtain ⟨ws₁, href, h⟩ := Exec.value?_bind.1 h
    obtain ⟨references, -, href⟩ := Exec.value?_bind.1 href
    obtain rfl := Option.some.inj href
    obtain rfl := Option.some.inj h
    exact ⟨herase, rfl⟩

theorem notifyDrain (ha : Agrees ws s) (h : ws.notifyDrain.value? = some ws') :
    Agrees ws' s.notifyDrain := by
  rw [Windows.notifyDrain] at h
  rw [CmdState.notifyDrain, ha.enabled]
  split_ifs at h ⊢ with hdis
  · obtain rfl := Option.some.inj h
    exact ha
  · have hloop : ∀ (queue : List NotifyEntry) (ws : Windows), ws.notifyQueue = queue →
        (queue.foldlM Windows.deliver ws).value? = some ws' →
        ws'.notifyQueue = [] ∧ ws'.notifyEnabled = ws.notifyEnabled := by
      intro queue
      induction queue with
      | nil =>
        intro ws hqueue h
        obtain rfl := Option.some.inj h
        exact ⟨hqueue, rfl⟩
      | cons ne queue ih =>
        intro ws hqueue h
        rw [List.foldlM_cons] at h
        obtain ⟨ws₁, hdeliver, h⟩ := Exec.value?_bind.1 h
        obtain ⟨hqueue₁, hen₁⟩ := deliver hqueue hdeliver
        obtain ⟨hnil, hen⟩ := ih ws₁ hqueue₁ h
        exact ⟨hnil, hen.trans hen₁⟩
    obtain ⟨hnil, hen⟩ := hloop _ ws rfl h
    exact ⟨hnil.symm, hen.symm⟩

theorem notifyAdd (ha : Agrees ws s) (h : (ws.notifyAdd ne).value? = some ws') :
    Agrees ws' (s.notifyAdd ne) := by
  unfold Windows.notifyAdd at h
  have hqueue : (s.notifyAdd ne).notifyQueue = ws.notifyQueue ++ [ne] := congrArg (· ++ [ne]) ha.queue
  split at h
  · obtain rfl := Option.some.inj h
    exact ⟨hqueue, ha.enabled⟩
  · obtain ⟨references, -, h⟩ := Exec.value?_bind.1 h
    obtain rfl := Option.some.inj h
    exact ⟨hqueue, ha.enabled⟩

/-- A notification is queued and delivered as with the references. -/
theorem notify (ha : Agrees ws s) (h : (ws.notify ne).value? = some ws') :
    Agrees ws' (s.notify ne) := by
  obtain ⟨ws₁, hadd, h⟩ := Exec.value?_bind.1 h
  exact (ha.notifyAdd hadd).notifyDrain h

theorem notifyEnable (ha : Agrees ws s) (h : ws.notifyEnable.value? = some ws') :
    Agrees ws' s.notifyEnable := by
  have hen : Agrees { ws with notifyEnabled := true } { s with notifyEnabled := true } :=
    ⟨ha.queue, rfl⟩
  exact hen.notifyDrain h

theorem notifyDisable (ha : Agrees ws s) : Agrees ws.notifyDisable s.notifyDisable := ⟨ha.queue, rfl⟩

end Agrees

/-! ## Notifications -/

/-- Whether a command of a list ends it with an error. -/
def cmdListFails (cmdlist : List Cmd) : Bool := cmdlist.any fun cmd => cmd.retval == .error

mutual

/-- Whether every list that a command executes fails. -/
def Cmd.nestedFail : Cmd → Bool
  | .mk actions _ => actionsNestedFail actions

/-- Whether every list executed by what a command does fails. -/
def actionsNestedFail : List CmdAction → Bool
  | [] => true
  | action :: actions => action.nestedFail && actionsNestedFail actions

/-- Whether every list executed by one thing a command does fails. -/
def CmdAction.nestedFail : CmdAction → Bool
  | .notify _ => true
  | .exec cmdlist _ => cmdListFails cmdlist && cmdListNestedFail cmdlist

/-- Whether every list that a command of a list executes fails. -/
def cmdListNestedFail : List Cmd → Bool
  | [] => true
  | cmd :: cmds => cmd.nestedFail && (cmd.retval == .error || cmdListNestedFail cmds)

end

mutual

/-- The notifications that a command adds. -/
def Cmd.adds : Cmd → List NotifyEntry
  | .mk actions _ => actionsAdd actions

/-- The notifications added by what a command does. -/
def actionsAdd : List CmdAction → List NotifyEntry
  | [] => []
  | action :: actions => action.adds ++ actionsAdd actions

/-- The notifications added by one thing a command does. -/
def CmdAction.adds : CmdAction → List NotifyEntry
  | .notify ne => [ne]
  | .exec cmdlist _ => cmdListAdds cmdlist

/-- The notifications that the commands of a list add. -/
def cmdListAdds : List Cmd → List NotifyEntry
  | [] => []
  | cmd :: cmds => cmd.adds ++ if cmd.retval = .error then [] else cmdListAdds cmds

end

/-- A file loaded executes a list for each of its lines. -/
theorem loadCfg_nestedFail (cmdlists : List (List Cmd)) (ctxin : Option CmdCtx) :
    (loadCfg (some cmdlists) ctxin).nestedFail =
      cmdlists.all fun cmdlist => cmdListFails cmdlist && cmdListNestedFail cmdlist := by
  rw [loadCfg, Cmd.nestedFail]
  induction cmdlists with
  | nil => rfl
  | cons cmdlist cmdlists ih =>
    rw [List.map_cons, actionsNestedFail, ih, List.all_cons, CmdAction.nestedFail]

/-- Whatever the notifications are, this is what executing commands does to them. -/
structure Executed (s s' : CmdState) : Prop where
  running : s'.running = s.running
  returned : s.returned <+: s'.returned
  queue : (s.notifyEnabled → s.notifyQueue = []) → s'.notifyEnabled → s'.notifyQueue = []

namespace Executed

variable {s s' s'' : CmdState}

theorem refl (s : CmdState) : Executed s s := ⟨rfl, List.prefix_rfl, id⟩

theorem trans (h : Executed s s') (h' : Executed s' s'') : Executed s s'' :=
  ⟨h'.running.trans h.running, h.returned.trans h'.returned, h'.queue ∘ h.queue⟩

theorem leave (h : Executed s s') : Executed s.leave s'.leave :=
  ⟨congrArg (· - 1) h.running, h.returned, h.queue⟩

theorem notifyDrain (s : CmdState) : Executed s s.notifyDrain := by
  rw [CmdState.notifyDrain]
  split_ifs with hdis
  · exact .refl s
  · exact ⟨rfl, List.prefix_rfl, fun _ _ => rfl⟩

theorem notifyEnable (s : CmdState) : Executed s s.notifyEnable where
  running := (notifyDrain _).running
  returned := (notifyDrain { s with notifyEnabled := true }).returned
  queue _ _ := rfl

theorem notify (s : CmdState) (ne : NotifyEntry) : Executed s (s.notify ne) where
  running := (notifyDrain (s.notifyAdd ne)).running
  returned := (notifyDrain (s.notifyAdd ne)).returned
  queue _ hen := by
    rw [CmdState.notify, CmdState.notifyDrain] at hen ⊢
    split_ifs at hen ⊢ with hdis
    · rw [hen] at hdis
      cases hdis
    · rfl

theorem guard (s : CmdState) (guards : Bool) (ctx : CmdCtx) (line : String) :
    Executed s (s.guard guards ctx line) := by
  rw [CmdState.guard]
  split_ifs
  · exact ⟨rfl, List.prefix_rfl, id⟩
  · exact .refl s

/-- A list entered, executed and returned from. -/
theorem returnFrom (h : Executed s.enter.leave s') (enabled : Bool) :
    Executed s (s'.returnFrom enabled) where
  running := h.running.trans (Nat.add_sub_cancel s.running 1)
  returned := h.returned.trans (List.prefix_append _ _)
  queue _ := h.queue nofun

end Executed

mutual

theorem cmdExec_executed : ∀ (cmd : Cmd) (s : CmdState), Executed s (cmdExec cmd s).1
  | .mk actions _, s => cmdActions_executed actions s

theorem cmdActions_executed : ∀ (actions : List CmdAction) (s : CmdState),
    Executed s (cmdActions actions s)
  | [], s => .refl s
  | action :: actions, s => (cmdAction_executed action s).trans (cmdActions_executed actions _)

theorem cmdAction_executed : ∀ (action : CmdAction) (s : CmdState), Executed s (cmdAction action s)
  | .notify ne, s => .notify s ne
  | .exec cmdlist ctx, s => (cmdListLoop_executed _ cmdlist ctx .normal s.enter).returnFrom _

/-- Executing the commands of a list is executing commands. -/
theorem cmdListLoop_executed (guards : Bool) : ∀ (cmds : List Cmd) (ctx : CmdCtx)
    (retval : CmdRetval) (s : CmdState), Executed s.leave (cmdListLoop guards cmds ctx retval s).1
  | [], _, _, s => .notifyEnable s.leave
  | cmd :: cmds, ctx, retval, s => by
    have hcmd := ((Executed.guard s guards ctx "%begin").trans (cmdExec_executed cmd _)).trans
      (.guard _ guards ctx "%end")
    rw [cmdListLoop]
    dsimp only
    split
    · exact hcmd.leave
    · exact hcmd.leave.trans (cmdListLoop_executed guards cmds _ _ _)
    · exact hcmd.leave.trans (cmdListLoop_executed guards cmds _ _ _)
    · exact hcmd.leave.trans (cmdListLoop_executed guards cmds _ _ _)

end

/-- While the delivery is disabled, the notifications `added` wait in the queue, and lists
    return with it disabled. -/
structure Waiting (s s' : CmdState) (added : List NotifyEntry) : Prop where
  running : s'.running = s.running
  enabled : s'.notifyEnabled = false
  queue : s'.notifyQueue = s.notifyQueue ++ added
  added : s'.added = s.added ++ added
  delivered : s'.delivered = s.delivered
  returned : ∃ l, s'.returned = s.returned ++ l ∧ ∀ r ∈ l, r.1 = r.2

/-- Some list returned with the delivery not as it was when it was entered. -/
def Unbalanced (s : CmdState) : Prop := ∃ r ∈ s.returned, r.1 ≠ r.2

theorem Executed.unbalanced {s s' : CmdState} (h : Executed s s') (hs : Unbalanced s) :
    Unbalanced s' := by
  obtain ⟨r, hr, hne⟩ := hs
  exact ⟨r, h.returned.subset hr, hne⟩

namespace Waiting

variable {s s' s'' : CmdState} {l l' : List NotifyEntry}

theorem refl (h : s.notifyEnabled = false) : Waiting s s [] :=
  ⟨rfl, h, by simp, by simp, rfl, [], by simp, by simp⟩

theorem trans (h : Waiting s s' l) (h' : Waiting s' s'' l') : Waiting s s'' (l ++ l') where
  running := h'.running.trans h.running
  enabled := h'.enabled
  queue := by rw [h'.queue, h.queue, List.append_assoc]
  added := by rw [h'.added, h.added, List.append_assoc]
  delivered := h'.delivered.trans h.delivered
  returned := by
    obtain ⟨r, hr, hall⟩ := h.returned
    obtain ⟨r', hr', hall'⟩ := h'.returned
    refine ⟨r ++ r', by rw [hr', hr, List.append_assoc], fun x hx => ?_⟩
    exact (List.mem_append.1 hx).elim (hall x) (hall' x)

theorem leave (h : Waiting s s' l) : Waiting s.leave s'.leave l :=
  ⟨congrArg (· - 1) h.running, h.enabled, h.queue, h.added, h.delivered, h.returned⟩

theorem notify (h : s.notifyEnabled = false) (ne : NotifyEntry) : Waiting s (s.notify ne) [ne] := by
  rw [CmdState.notify, CmdState.notifyDrain, if_pos (by simp [CmdState.notifyAdd, h])]
  exact ⟨rfl, h, rfl, rfl, rfl, [], by simp [CmdState.notifyAdd], by simp⟩

theorem guard (h : s.notifyEnabled = false) (guards : Bool) (ctx : CmdCtx) (line : String) :
    Waiting s (s.guard guards ctx line) [] := by
  rw [CmdState.guard]
  split_ifs
  · exact ⟨rfl, h, by simp, by simp, rfl, [], by simp, by simp⟩
  · exact refl h

/-- A list failing in a list returns with the delivery disabled, as it was. -/
theorem returnFrom (h : s.notifyEnabled = false) (h' : Waiting s.enter.leave s' l) :
    Waiting s (s'.returnFrom s.notifyEnabled) l where
  running := h'.running.trans (Nat.add_sub_cancel s.running 1)
  enabled := h'.enabled
  queue := h'.queue
  added := h'.added
  delivered := h'.delivered
  returned := by
    obtain ⟨r, hr, hall⟩ := h'.returned
    refine ⟨r ++ [(false, false)], ?_, fun x hx => ?_⟩
    · have hend : (s'.returnFrom s.notifyEnabled).returned = s'.returned ++ [(false, false)] := by
        rw [CmdState.returnFrom, h, h'.enabled]
      rw [hend, hr, List.append_assoc]
      rfl
    · rcases List.mem_append.1 hx with hx | hx
      · exact hall x hx
      · rw [List.mem_singleton.1 hx]

end Waiting

/-- With the delivery disabled, either every list executed fails and the notifications wait, or
    one returned with the delivery enabled. -/
structure WhileDisabled (fail : Bool) (s s' : CmdState) (added : List NotifyEntry) : Prop where
  waiting : fail = true → Waiting s s' added
  unbalanced : fail = false → Unbalanced s'

theorem WhileDisabled.trans {fail fail' : Bool} {s s' s'' : CmdState} {l l' : List NotifyEntry}
    (h : WhileDisabled fail s s' l) (h' : s'.notifyEnabled = false → WhileDisabled fail' s' s'' l')
    (hex : Executed s' s'') : WhileDisabled (fail && fail') s s'' (l ++ l') := by
  cases fail with
  | true =>
    have hw := h.waiting rfl
    have hd := h' hw.enabled
    exact ⟨fun hf => hw.trans (hd.waiting hf), fun hf => hd.unbalanced hf⟩
  | false => exact ⟨nofun, fun _ => hex.unbalanced (h.unbalanced rfl)⟩

/-- What is left after a list that was entered with the delivery disabled. -/
structure LoopWaiting (cmdlist : List Cmd) (s s' : CmdState) : Prop where
  fails : cmdListFails cmdlist = true → Waiting s.leave s' (cmdListAdds cmdlist)
  ends : cmdListFails cmdlist = false →
    ∃ t, Waiting s.leave t (cmdListAdds cmdlist) ∧ s' = t.notifyEnable

/-- As `WhileDisabled`, for a list. -/
structure LoopDisabled (cmdlist : List Cmd) (s s' : CmdState) : Prop where
  waiting : cmdListNestedFail cmdlist = true → LoopWaiting cmdlist s s'
  unbalanced : cmdListNestedFail cmdlist = false → Unbalanced s'

/-- A command of a list that returns no error is followed by the rest of the list. -/
theorem LoopDisabled.cons {cmd : Cmd} {cmds : List Cmd} {s s' s'' : CmdState}
    (hn : cmd.retval ≠ .error) (h : WhileDisabled cmd.nestedFail s s' cmd.adds)
    (h' : s'.notifyEnabled = false → LoopDisabled cmds s' s'') (hex : Executed s'.leave s'') :
    LoopDisabled (cmd :: cmds) s s'' := by
  have hn' : (cmd.retval == CmdRetval.error) = false := by simpa using hn
  have hnested : cmdListNestedFail (cmd :: cmds) = (cmd.nestedFail && cmdListNestedFail cmds) := by
    rw [cmdListNestedFail, hn', Bool.false_or]
  have hfails : cmdListFails (cmd :: cmds) = cmdListFails cmds := by
    rw [cmdListFails, List.any_cons, hn', Bool.false_or, cmdListFails]
  have hadds : cmdListAdds (cmd :: cmds) = cmd.adds ++ cmdListAdds cmds := by
    rw [cmdListAdds, if_neg hn]
  refine ⟨fun hall => ?_, fun hsome => ?_⟩
  · rw [hnested, Bool.and_eq_true] at hall
    have hw := h.waiting hall.1
    have hl := (h' hw.enabled).waiting hall.2
    refine ⟨fun hf => ?_, fun hf => ?_⟩
    · rw [hadds]
      exact hw.leave.trans (hl.fails (hfails ▸ hf))
    · obtain ⟨t, ht, rfl⟩ := hl.ends (hfails ▸ hf)
      exact ⟨t, by rw [hadds]; exact hw.leave.trans ht, rfl⟩
  · rw [hnested, Bool.and_eq_false_iff] at hsome
    cases hcmd : cmd.nestedFail with
    | true =>
      have hw := h.waiting hcmd
      exact (h' hw.enabled).unbalanced (hsome.resolve_left (by simp [hcmd]))
    | false => exact hex.unbalanced (h.unbalanced hcmd)

mutual

theorem cmdExec_disabled : ∀ (cmd : Cmd) (s : CmdState), s.notifyEnabled = false →
    WhileDisabled cmd.nestedFail s (cmdExec cmd s).1 cmd.adds
  | .mk actions _, s, h => cmdActions_disabled actions s h

theorem cmdActions_disabled : ∀ (actions : List CmdAction) (s : CmdState), s.notifyEnabled = false →
    WhileDisabled (actionsNestedFail actions) s (cmdActions actions s) (actionsAdd actions)
  | [], _, h => ⟨fun _ => .refl h, nofun⟩
  | action :: actions, s, h => (cmdAction_disabled action s h).trans (cmdActions_disabled actions _)
      (cmdActions_executed actions _)

theorem cmdAction_disabled : ∀ (action : CmdAction) (s : CmdState), s.notifyEnabled = false →
    WhileDisabled action.nestedFail s (cmdAction action s) action.adds
  | .notify ne, _, h => ⟨fun _ => .notify h ne, nofun⟩
  | .exec cmdlist ctx, s, h => by
    have hloop := cmdListLoop_disabled (cmdGuards ctx) cmdlist ctx .normal s.enter rfl
    rw [cmdAction, CmdAction.nestedFail, CmdAction.adds]
    refine ⟨fun hf => ?_, fun hf => ?_⟩
    · rw [Bool.and_eq_true] at hf
      exact ((hloop.waiting hf.2).fails hf.1).returnFrom h
    · cases hnested : cmdListNestedFail cmdlist with
      | true =>
        -- The list ends without an error, and enables the delivery.
        obtain ⟨t, -, ht⟩ := (hloop.waiting hnested).ends (by simpa [hnested] using hf)
        refine ⟨(s.notifyEnabled, true), ?_, by simp [h]⟩
        rw [ht, CmdState.returnFrom]
        exact List.mem_append_right _ (List.mem_singleton.2 rfl)
      | false =>
        obtain ⟨r, hr, hne⟩ := hloop.unbalanced hnested
        exact ⟨r, List.mem_append_left _ hr, hne⟩

theorem cmdListLoop_disabled (guards : Bool) : ∀ (cmds : List Cmd) (ctx : CmdCtx)
    (retval : CmdRetval) (s : CmdState), s.notifyEnabled = false →
    LoopDisabled cmds s (cmdListLoop guards cmds ctx retval s).1
  | [], _, _, s, h => ⟨fun _ => ⟨nofun, fun _ => ⟨s.leave, .refl h, rfl⟩⟩, nofun⟩
  | cmd :: cmds, ctx, retval, s, h => by
    have hbegin := Waiting.guard h guards ctx "%begin"
    have hcmd := cmdExec_disabled cmd _ hbegin.enabled
    have hend : WhileDisabled cmd.nestedFail s
        ((cmdExec cmd (s.guard guards ctx "%begin")).1.guard guards ctx "%end") cmd.adds := by
      refine ⟨fun hf => ?_, fun hf => ?_⟩
      swap
      · exact (Executed.guard _ guards ctx "%end").unbalanced (hcmd.unbalanced hf)
      have hw := hcmd.waiting hf
      simpa using (hbegin.trans hw).trans (.guard hw.enabled guards ctx "%end")
    have hretval : (cmdExec cmd (s.guard guards ctx "%begin")).2 = cmd.retval := by
      cases cmd
      rfl
    rw [cmdListLoop]
    dsimp only
    rw [hretval]
    cases hn : cmd.retval with
    | error =>
      have hadds : cmdListAdds (cmd :: cmds) = cmd.adds := by simp [cmdListAdds, hn]
      have hfails : cmdListFails (cmd :: cmds) = true := by simp [cmdListFails, hn]
      have hnested : cmdListNestedFail (cmd :: cmds) = cmd.nestedFail := by
        simp [cmdListNestedFail, hn]
      refine ⟨fun hf => ⟨fun _ => ?_, fun hf' => ?_⟩, fun hf => hend.unbalanced (hnested ▸ hf)⟩
      · rw [hadds]
        exact (hend.waiting (hnested ▸ hf)).leave
      · rw [hfails] at hf'
        cases hf'
    | normal =>
      exact .cons (by simp [hn]) hend (cmdListLoop_disabled guards cmds _ _ _)
        (cmdListLoop_executed guards cmds _ _ _)
    | yield =>
      exact .cons (by simp [hn]) hend (cmdListLoop_disabled guards cmds _ _ _)
        (cmdListLoop_executed guards cmds _ _ _)
    | attach =>
      exact .cons (by simp [hn]) hend (cmdListLoop_disabled guards cmds _ _ _)
        (cmdListLoop_executed guards cmds _ _ _)

end

/-- A command list executed from `s`, where no other was running and nothing was recorded:
    every list returns with the delivery enabled if and only if it was when the list was
    entered, nothing is delivered while a list is running, and what is added is delivered in
    the order it was added in, all of it by the end. -/
structure Bracketed (s s' : CmdState) : Prop where
  returned : ∀ r ∈ s'.returned, r.1 = r.2
  delivered : ∀ d ∈ s'.delivered, d.2 = 0
  order : s'.delivered.map Prod.fst ++ s'.notifyQueue = s.notifyQueue ++ s'.added
  all : s'.notifyQueue = [] ∨ s'.added = []

/-- No list is running, and nothing is recorded. -/
structure Unrecorded (s : CmdState) : Prop where
  running : s.running = 0
  added : s.added = []
  delivered : s.delivered = []
  returned : s.returned = []

section Bracketed

variable {s s' : CmdState} {l : List NotifyEntry}

/-- What waits after a list failed is what it added. -/
theorem Waiting.bracketed_fails (h : Waiting s s' l) (hs : Unrecorded s) :
    Bracketed s (s'.returnFrom s.notifyEnabled) ↔ s.notifyEnabled = false ∧ l = [] := by
  obtain ⟨r, hr, hall⟩ := h.returned
  have hadded : s'.added = l := by rw [h.added, hs.added, List.nil_append]
  have hdelivered : s'.delivered = [] := h.delivered.trans hs.delivered
  constructor
  · intro hb
    refine ⟨?_, ?_⟩
    · exact (hb.returned (s.notifyEnabled, s'.notifyEnabled)
        (List.mem_append_right _ (List.mem_singleton.2 rfl))).trans h.enabled
    · rcases hb.all with hqueue | hnone
      · exact (List.append_eq_nil_iff.1 (h.queue.symm.trans hqueue)).2
      · exact hadded.symm.trans hnone
  · rintro ⟨hdis, rfl⟩
    refine ⟨fun x hx => ?_, fun d hd => ?_, ?_, .inr hadded⟩
    · rcases List.mem_append.1 hx with hx | hx
      · rw [hr, hs.returned, List.nil_append] at hx
        exact hall x hx
      · rw [List.mem_singleton.1 hx]
        exact hdis.trans h.enabled.symm
    · replace hd : d ∈ s'.delivered := hd
      rw [hdelivered] at hd
      cases hd
    · have horder : s'.delivered.map Prod.fst ++ s'.notifyQueue = s.notifyQueue ++ s'.added := by
        rw [hdelivered, h.queue, hadded, List.map_nil, List.nil_append]
      exact horder

/-- All that waits is delivered at the end of a list that did not fail. -/
theorem Waiting.bracketed_ends (h : Waiting s s' l) (hs : Unrecorded s) :
    Bracketed s (s'.notifyEnable.returnFrom s.notifyEnabled) ↔ s.notifyEnabled = true := by
  obtain ⟨r, hr, hall⟩ := h.returned
  have hadded : s'.added = l := by rw [h.added, hs.added, List.nil_append]
  have hdelivered : s'.notifyEnable.delivered = (s.notifyQueue ++ l).map fun ne => (ne, 0) := by
    have hdrain : s'.notifyEnable.delivered =
      s'.delivered ++ s'.notifyQueue.map fun ne => (ne, s'.running) := rfl
    rw [hdrain, h.delivered, hs.delivered, h.queue, h.running, hs.running, List.nil_append]
  constructor
  · intro hb
    exact hb.returned (s.notifyEnabled, true) (List.mem_append_right _ (List.mem_singleton.2 rfl))
  · intro hen
    refine ⟨fun x hx => ?_, fun d hd => ?_, ?_, .inl rfl⟩
    · rcases List.mem_append.1 hx with hx | hx
      · replace hx : x ∈ s'.returned := hx
        rw [hr, hs.returned, List.nil_append] at hx
        exact hall x hx
      · rw [List.mem_singleton.1 hx]
        exact hen
    · replace hd : d ∈ s'.notifyEnable.delivered := hd
      rw [hdelivered] at hd
      obtain ⟨ne, -, rfl⟩ := List.mem_map.1 hd
      rfl
    · have horder : s'.notifyEnable.delivered.map Prod.fst ++ [] = s.notifyQueue ++ s'.added := by
        rw [hdelivered, hadded, List.map_map, List.append_nil]
        exact List.map_id _
      exact horder

end Bracketed

/-- The state before a command list is executed, whatever commands were before. -/
def idle (before : List CmdAction) : CmdState := (cmdActions before {}).forget

theorem idle_unrecorded (before : List CmdAction) : Unrecorded (idle before) :=
  ⟨(cmdActions_executed before {}).running, rfl, rfl, rfl⟩

/-- A list executed while no other is, brackets notifications if and only if every list
    executed by its commands fails and, with the delivery enabled, it does not fail itself; or,
    with the delivery disabled, it does and nothing is added. -/
theorem cmdListExec_bracketed_iff (before : List CmdAction) (cmdlist : List Cmd) (ctx : CmdCtx) :
    Bracketed (idle before) (cmdListExec cmdlist ctx (idle before)).1 ↔
      cmdListNestedFail cmdlist = true ∧
        if (idle before).notifyEnabled then cmdListFails cmdlist = false
        else cmdListFails cmdlist = true ∧ cmdListAdds cmdlist = [] := by
  have hs := idle_unrecorded before
  generalize idle before = s at hs ⊢
  have hloop := cmdListLoop_disabled (cmdGuards ctx) cmdlist ctx .normal s.enter rfl
  have henter : ∀ {t l}, Waiting s.enter.leave t l → Waiting s t l := fun h =>
    ⟨h.running.trans (Nat.add_sub_cancel s.running 1), h.enabled, h.queue, h.added, h.delivered,
      h.returned⟩
  rw [cmdListExec]
  dsimp only
  cases hnested : cmdListNestedFail cmdlist with
  | false =>
    obtain ⟨r, hr, hne⟩ := hloop.unbalanced hnested
    exact iff_of_false (fun hb => hne (hb.returned r (List.mem_append_left _ hr))) (by simp)
  | true =>
    cases hfails : cmdListFails cmdlist with
    | true =>
      have hw := henter ((hloop.waiting hnested).fails hfails)
      rw [hw.bracketed_fails hs]
      cases s.notifyEnabled <;> simp
    | false =>
      obtain ⟨t, ht, hend⟩ := (hloop.waiting hnested).ends hfails
      rw [hend, (henter ht).bracketed_ends hs]
      cases s.notifyEnabled <;> simp

/-- A list that fails leaves the delivery disabled, and what it added in the queue. -/
theorem cmdListExec_not_bracketed : ¬ ∀ (before : List CmdAction) (cmdlist : List Cmd) (ctx : CmdCtx),
    Bracketed (idle before) (cmdListExec cmdlist ctx (idle before)).1 := by
  intro h
  have hall := (h [] [.mk [.notify { type := .sessionRenamed, session := some 0 }] .error] {}).all
  revert hall
  decide

end Tmux
