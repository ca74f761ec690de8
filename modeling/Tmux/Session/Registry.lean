import Tmux.Session.Notify
import Tmux.Session.Session

/-!
# Sessions and the windows they hold

The server has sessions, groups of them, and windows with counted references
(`Registry`). What an operation does to the links of a session is in
`Tmux.Session.Session`; here are the references it takes and drops on the way, and
the notifications, in the order of the code.

Sessions are told apart by their index. Links that are freed all together are freed
in the order of their tree.
-/

namespace Tmux

open Exec

/-- The sessions of the server and their windows. -/
structure Registry where
  windows : Windows := {}
  /-- The sessions created so far, none where one is destroyed. -/
  sessions : List (Option Session) := []
  groups : List (List ℕ) := []

namespace Registry

/-- A session, if it is there. -/
def session (r : Registry) (s : ℕ) : Option Session := (r.sessions[s]?).join

def setSession (r : Registry) (s : ℕ) (x : Option Session) : Registry :=
  { r with sessions := r.sessions.set s x }

/-- Do something to the windows, or to the notifications. -/
def onWindows (r : Registry) (f : Windows → Exec Windows) : Exec Registry := do
  let windows ← f r.windows
  pure { r with windows }

/-- The link of a session at an index. -/
def findWindow (r : Registry) (s wl : ℕ) : Option Winlink :=
  (r.session s).bind fun x => x.windows.find? wl

/-! ## Links -/

/-- Take the reference of a link to its window. -/
def retainLink (ws : Windows) (wl : Winlink) : Exec Windows := do
  let w ← follow wl.window
  ws.windowAddRef w

/-- Drop the reference of a link that is removed. -/
def winlinkRemove (ws : Windows) (wl : Winlink) : Exec Windows :=
  match wl.window with
  | none => pure ws
  | some w => ws.windowRemoveRef w

/-- Notify of a window that a session is unlinked from, and remove the link. -/
def unlinkWindow (s : ℕ) (ws : Windows) (wl : Winlink) : Exec Windows := do
  let ws ← ws.notifyWindowUnlinked s wl.window
  winlinkRemove ws wl

/-! ## Groups -/

/-- Find the session group containing a session. -/
def sessionGroupFind (r : Registry) (s : ℕ) : Option (List ℕ) := r.groups.find? fun g => s ∈ g

/-- Change the session group containing a session. -/
def changeGroup (s : ℕ) (f : List ℕ → List ℕ) : List (List ℕ) → List (List ℕ)
  | [] => []
  | g :: groups => if s ∈ g then f g :: groups else g :: changeGroup s f groups

/-- Add a session to the session group containing target, creating it if necessary. -/
def sessionGroupAdd (r : Registry) (target s : ℕ) : Registry :=
  match r.sessionGroupFind target with
  | none => { r with groups := r.groups ++ [[target, s]] }
  | some _ => { r with groups := changeGroup target (· ++ [s]) r.groups }

/-- Remove a session from its group and destroy the group if empty. -/
def sessionGroupRemove (r : Registry) (s : ℕ) : Exec Registry :=
  match r.sessionGroupFind s with
  | none => pure r
  | some g => do
    let _ ← follow (g.erase s).head?
    let left := if (g.erase s).tail = [] then [] else g.erase s
    pure { r with groups := (changeGroup s (fun _ => left) r.groups).filter (· ≠ []) }

/-- Whether two sessions are in one group. -/
def grouped (r : Registry) (src dst : ℕ) : Bool :=
  src != dst && (r.sessionGroupFind src).isSome && r.sessionGroupFind src == r.sessionGroupFind dst

/-- Link a window of the target, and notify of it. -/
def linkOnce (s : ℕ) (ws : Windows) (wl : Winlink) : Exec Windows := do
  let w ← follow wl.window
  let ws ← ws.windowAddRef w
  ws.notifyWindowLinked s w

/-- Free an old link, notifying of a window that the session has no other link to now. -/
def freeLink (s : ℕ) (windows : Winlinks) (ws : Windows) (wl : Winlink) : Exec Windows := do
  let w ← follow wl.window
  ws.useWindow w
  let ws ← if sessionHas windows (some w) = none then ws.notifyWindowUnlinked s (some w) else pure ws
  ws.windowRemoveRef w

/-- Synchronize a session with a target session. -/
def sessionGroupSynchronize1 (r : Registry) (target s : ℕ) : Exec Registry := do
  let tgt ← follow (r.session target)
  -- Don't do anything if the session is empty (it'll be destroyed).
  if tgt.windows.entries = [] then pure r
  else do
    let old ← follow (r.session s)
    let new ← Tmux.sessionGroupSynchronize1 tgt old
    -- Link all the windows from the target.
    let windows ← tgt.windows.entries.foldlM (linkOnce s) r.windows
    -- Then free the old links.
    let windows ← old.windows.entries.foldlM (freeLink s new.windows) windows
    pure { r.setSession s (some new) with windows }

/-- Synchronize a session to its session group. -/
def sessionGroupSynchronizeTo (r : Registry) (s : ℕ) : Exec Registry :=
  match r.sessionGroupFind s with
  | none => pure r
  | some g => do
    let target ← follow (g.find? (· ≠ s))
    r.sessionGroupSynchronize1 target s

/-- Synchronize a session group to a session. -/
def sessionGroupSynchronizeFrom (r : Registry) (target : ℕ) : Exec Registry :=
  match r.sessionGroupFind target with
  | none => pure r
  | some g => g.foldlM (fun r s => if s ≠ target then r.sessionGroupSynchronize1 target s else pure r) r

/-! ## Sessions -/

/-- Move session to specific window. -/
def sessionSelect (r : Registry) (s : ℕ) (idx : ℤ) : Exec Registry := do
  let x ← follow (r.session s)
  let (x, _) ← Tmux.sessionSelect x idx
  pure (r.setSession s (some x))

/-- Attach a window to a session. Gives the link, or the error message. -/
def sessionAttach (r : Registry) (s w : ℕ) (idx : ℤ) : Exec (Registry × Except String ℕ) := do
  let x ← follow (r.session s)
  match Tmux.sessionAttach x w idx with
  | (_, .error cause) => pure (r, .error cause)
  | (x, .ok wl) => do
    let windows ← r.windows.windowAddRef w
    let windows ← windows.notifyWindowLinked s w
    let r ← { r.setSession s (some x) with windows }.sessionGroupSynchronizeFrom s
    pure (r, .ok wl)

/-- Create a new window on a session, or fail to for the cause given. -/
def sessionNew (r : Registry) (s : ℕ) (idx : ℤ) (spawn : Except String Unit) :
    Exec (Registry × Except String ℕ) := do
  let x ← follow (r.session s)
  match winlinkAdd x.windows idx with
  | none => pure (r, .error ("index in use: " ++ toString idx))
  | some (links, wl) =>
    let (windows, w) := r.windows.windowCreate1
    match spawn with
    | .error cause =>
      pure ({ r.setSession s (some { x with windows := links.erase wl }) with
        windows := windows.windowDestroy w }, .error cause)
    | .ok () => do
      let windows ← windows.windowAddRef w
      let windows ← windows.notifyWindowLinked s w
      let x := { x with windows := winlinkSetWindow links wl w }
      let r ← { r.setSession s (some x) with windows }.sessionGroupSynchronizeFrom s
      pure (r, .ok wl)

/-- Destroy a session. -/
def sessionDestroy (r : Registry) (s : ℕ) : Exec Registry := do
  let x ← follow (r.session s)
  let windows ← r.windows.notifySessionClosed s
  let r ← { r.setSession s none with windows }.sessionGroupRemove s
  r.onWindows fun windows => x.windows.entries.foldlM (unlinkWindow s) windows

/-- Detach a window from a session. Gives 1 if the session is destroyed. -/
def sessionDetach (r : Registry) (s wl : ℕ) : Exec (Registry × ℤ) := do
  let x ← follow (r.session s)
  let link ← follow (x.windows.find? wl)
  let (x, gone) ← Tmux.sessionDetach x wl
  let windows ← unlinkWindow s r.windows link
  let r ← { r.setSession s (some x) with windows }.sessionGroupSynchronizeFrom s
  if gone = 1 then do
    let r ← r.sessionDestroy s
    pure (r, 1)
  else pure (r, 0)

/-- Create a new session, with a window if there is a command. -/
def sessionCreate (r : Registry) (cmd : Option (Except String Unit)) (idx : ℤ) :
    Exec (Registry × Option ℕ) := do
  let s := r.sessions.length
  let r := { r with sessions := r.sessions ++ [some emptySession] }
  match cmd with
  | none => do
    let r ← r.onWindows (·.notifySessionCreated s)
    pure (r, some s)
  | some spawn => do
    match ← r.sessionNew s idx spawn with
    | (r, .error _) => do
      let r ← r.sessionDestroy s
      pure (r, none)
    | (r, .ok _) => do
      let x ← follow (r.session s)
      let root ← follow x.windows.entries.head?
      let r ← r.sessionSelect s root.idx
      let r ← r.onWindows (·.notifySessionCreated s)
      pure (r, some s)

/-- Renumber the windows of a session. -/
def sessionRenumberWindows (r : Registry) (s baseIndex : ℕ) : Exec Registry := do
  let old ← follow (r.session s)
  let new ← Tmux.sessionRenumberWindows old baseIndex
  let windows ← old.windows.entries.foldlM retainLink r.windows
  -- Free the old links (reducing window references too).
  let windows ← old.windows.entries.foldlM winlinkRemove windows
  pure { r.setSession s (some new) with windows }

/-! ## Commands -/

/-- Create a new session, in the group of a target session or with a window, which may be
    given a name. -/
def newSession (r : Registry) (target : Option ℕ) (spawn : Except String Unit) (named : Bool)
    (baseIndex : ℕ) : Exec Registry :=
  match target with
  | some groupwith =>
    if r.session groupwith = none then pure r
    else do
      match ← r.sessionCreate none (-1 - baseIndex) with
      | (r, none) => pure r
      | (r, some s) => do
        let r ← (r.sessionGroupAdd groupwith s).sessionGroupSynchronizeTo s
        let x ← follow (r.session s)
        let root ← follow x.windows.entries.head?
        r.sessionSelect s root.idx
  | none => do
    match ← r.sessionCreate (some spawn) (-1 - baseIndex) with
    | (r, none) => pure r
    | (r, some s) =>
      if !named then pure r
      else do
        let x ← follow (r.session s)
        let curw ← follow x.curw
        let wl ← follow (x.windows.find? curw)
        let w ← follow wl.window
        r.onWindows (·.windowSetName w)

/-- Kill the window at an index that another one is to take. Can't use `sessionDetach` as it will
    destroy session if this makes it empty. Gives whether it was the current one. -/
def killLink (r : Registry) (s : ℕ) (wl : Winlink) : Exec (Registry × Bool) := do
  let x ← follow (r.session s)
  let windows ← unlinkWindow s r.windows wl
  let current := x.curw == some wl.idx
  let x := { x with
    lastw := winlinkStackRemove x.lastw wl.idx
    windows := x.windows.erase wl.idx
    curw := if current then none else x.curw }
  pure ({ r.setSession s (some x) with windows }, current)

/-- Kill the window at an index if there is one and it is to be killed. -/
def killIf (r : Registry) (s : ℕ) (wl : Option Winlink) (kflag : Bool) : Exec (Registry × Bool) :=
  match wl with
  | none => pure (r, false)
  | some wl => if kflag then r.killLink s wl else pure (r, false)

/-- The link at the index a window is to have, if that is given. -/
def linkAt (wwl : Winlinks) (idx : ℤ) : Exec (Option Winlink) :=
  if idx = -1 then pure none else winlinkFindByIndex wwl idx

/-- The index given, or else one that stands for the first free one from the base index on. -/
def indexOr (idx : ℤ) (baseIndex : ℕ) : ℤ := if idx = -1 then -1 - baseIndex else idx

/-- Create a new window at an index, or else at the first free one from the base index on. -/
def newWindow (r : Registry) (s : ℕ) (idx : ℤ) (spawn : Except String Unit) (kflag dflag : Bool)
    (baseIndex : ℕ) : Exec Registry :=
  match r.session s with
  | none => pure r
  | some x => do
    let wl ← linkAt x.windows idx
    let (r, current) ← r.killIf s wl kflag
    match ← r.sessionNew s (indexOr idx baseIndex) spawn with
    | (r, .error _) => pure r
    | (r, .ok wl) => if dflag && !current then pure r else r.sessionSelect s wl

/-- Link a window of a session to another one. -/
def serverLinkWindow (r : Registry) (src : ℕ) (srcwl : Winlink) (dst : ℕ) (dstidx : ℤ)
    (killflag selectflag : Bool) (baseIndex : ℕ) : Exec (Registry × Except String Unit) :=
  if r.grouped src dst then pure (r, .error "sessions are grouped")
  else do
    let x ← follow (r.session dst)
    let dstwl ← linkAt x.windows dstidx
    if dstwl.any fun wl => wl.window = srcwl.window then
      pure (r, .error ("same index: " ++ toString dstidx))
    else do
      let (r, current) ← r.killIf dst dstwl killflag
      let w ← follow srcwl.window
      match ← r.sessionAttach dst w (indexOr dstidx baseIndex) with
      | (r, .error cause) => pure (r, .error cause)
      | (r, .ok wl) => do
        let r ← if selectflag || current then r.sessionSelect dst wl else pure r
        pure (r, .ok ())

/-- Link a window. -/
def linkWindow (r : Registry) (src srcwl dst : ℕ) (dstidx : ℤ) (kflag dflag : Bool) (baseIndex : ℕ) :
    Exec Registry :=
  match r.findWindow src srcwl, r.session dst with
  | some wl, some _ => do
    let (r, _) ← r.serverLinkWindow src wl dst dstidx kflag (!dflag) baseIndex
    pure r
  | _, _ => pure r

/-- Move a window: link it, and unlink it from where it was. -/
def moveWindow (r : Registry) (src srcwl dst : ℕ) (dstidx : ℤ) (kflag dflag : Bool) (baseIndex : ℕ) :
    Exec Registry :=
  match r.findWindow src srcwl, r.session dst with
  | some wl, some _ => do
    match ← r.serverLinkWindow src wl dst dstidx kflag (!dflag) baseIndex with
    | (r, .error _) => pure r
    | (r, .ok ()) => do
      let (r, _) ← r.sessionDetach src srcwl
      pure r
  | _, _ => pure r

/-- Set the window of a link without a reference. -/
def setLinkWindow (r : Registry) (s wl : ℕ) (w : Option ℕ) : Registry :=
  r.setSession s ((r.session s).map fun x =>
    { x with windows := updateLink x.windows wl fun l => { l with window := w } })

/-- Swap two windows. -/
def swapWindow (r : Registry) (src wlSrc dst wlDst : ℕ) (dflag : Bool) : Exec Registry :=
  match r.findWindow src wlSrc, r.findWindow dst wlDst with
  | some a, some b =>
    -- Can't move window, sessions are grouped.
    if r.grouped src dst then pure r
    else if b.window = a.window then pure r
    else do
      let r := (r.setLinkWindow dst wlDst a.window).setLinkWindow src wlSrc b.window
      let r ← if dflag then pure r
        else do
          let r ← r.sessionSelect dst wlDst
          if src ≠ dst then r.sessionSelect src wlSrc else pure r
      let r ← r.sessionGroupSynchronizeFrom src
      if src ≠ dst then r.sessionGroupSynchronizeFrom dst else pure r
  | _, _ => pure r

/-- Break a pane, of as many as the window has, into a new window. -/
def breakPane (r : Registry) (s wl panes : ℕ) (dflag : Bool) (baseIndex : ℕ) : Exec Registry :=
  match r.findWindow s wl with
  | none => pure r
  | some link =>
    -- Can't break with only one pane.
    if panes = 1 then pure r
    else do
      let w ← follow link.window
      -- The layout of the window changes as the pane is closed.
      let windows ← r.windows.notifyWindowLayoutChanged w
      let (windows, w) := windows.windowCreate1
      let windows ← windows.windowSetName w
      -- A layout is made for the new window.
      windows.useWindow w
      match ← { r with windows }.sessionAttach s w (-1 - baseIndex) with
      | (r, .error _) => if dflag then pure r else .fault .null
      | (r, .ok wl) => if dflag then pure r else r.sessionSelect s wl

/-! ## Runs -/

/-- What is done to the sessions and their windows. -/
inductive Operation
  | newSession (target : Option ℕ) (spawn : Except String Unit) (named : Bool) (baseIndex : ℕ)
  | newWindow (s : ℕ) (idx : ℤ) (spawn : Except String Unit) (kflag dflag : Bool) (baseIndex : ℕ)
  | attach (src srcwl dst : ℕ) (idx : ℤ)
  | detach (s wl : ℕ)
  | destroy (s : ℕ)
  | synchronizeTo (s : ℕ)
  | synchronizeFrom (s : ℕ)
  | renumber (s baseIndex : ℕ)
  | swapWindow (src wlSrc dst wlDst : ℕ) (dflag : Bool)
  | linkWindow (src srcwl dst : ℕ) (dstidx : ℤ) (kflag dflag : Bool) (baseIndex : ℕ)
  | moveWindow (src srcwl dst : ℕ) (dstidx : ℤ) (kflag dflag : Bool) (baseIndex : ℕ)
  | breakPane (s wl panes : ℕ) (dflag : Bool) (baseIndex : ℕ)
  | renameWindow (s wl : ℕ)
  | layoutChanged (s wl : ℕ)
  | renameSession (s : ℕ)
  | attachClient (c : ℕ)
  | notifyEnable
  | notifyDisable
  | notifyDrain

/-- Do something to the window at an index of a session. -/
def onWindow (r : Registry) (s wl : ℕ) (f : Windows → ℕ → Exec Windows) : Exec Registry :=
  match (r.findWindow s wl).bind Winlink.window with
  | none => pure r
  | some w => r.onWindows (f · w)

/-- Do something to a session that is there. -/
def onSession (r : Registry) (s : ℕ) (f : Registry → Exec Registry) : Exec Registry :=
  if r.session s = none then pure r else f r

/-- One operation. -/
def step (r : Registry) : Operation → Exec Registry
  | .newSession target spawn named baseIndex => r.newSession target spawn named baseIndex
  | .newWindow s idx spawn kflag dflag baseIndex => r.newWindow s idx spawn kflag dflag baseIndex
  | .attach src srcwl dst idx =>
    match (r.findWindow src srcwl).bind Winlink.window with
    | none => pure r
    | some w => r.onSession dst fun r => do
      let (r, _) ← r.sessionAttach dst w idx
      pure r
  | .detach s wl =>
    match r.findWindow s wl with
    | none => pure r
    | some _ => do
      let (r, _) ← r.sessionDetach s wl
      pure r
  | .destroy s => r.onSession s (·.sessionDestroy s)
  | .synchronizeTo s => r.onSession s (·.sessionGroupSynchronizeTo s)
  | .synchronizeFrom s => r.onSession s (·.sessionGroupSynchronizeFrom s)
  | .renumber s baseIndex => r.onSession s (·.sessionRenumberWindows s baseIndex)
  | .swapWindow src wlSrc dst wlDst dflag => r.swapWindow src wlSrc dst wlDst dflag
  | .linkWindow src srcwl dst dstidx kflag dflag baseIndex =>
    r.linkWindow src srcwl dst dstidx kflag dflag baseIndex
  | .moveWindow src srcwl dst dstidx kflag dflag baseIndex =>
    r.moveWindow src srcwl dst dstidx kflag dflag baseIndex
  | .breakPane s wl panes dflag baseIndex => r.breakPane s wl panes dflag baseIndex
  | .renameWindow s wl => r.onWindow s wl Windows.windowSetName
  | .layoutChanged s wl => r.onWindow s wl Windows.notifyWindowLayoutChanged
  | .renameSession s => r.onSession s (·.onWindows (·.notifySessionRenamed s))
  | .attachClient c => r.onWindows (·.notifyAttachedSessionChanged c)
  | .notifyEnable => r.onWindows Windows.notifyEnable
  | .notifyDisable => pure { r with windows := r.windows.notifyDisable }
  | .notifyDrain => r.onWindows Windows.notifyDrain

end Registry

end Tmux
