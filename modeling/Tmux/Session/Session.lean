import Tmux.Arguments
import Tmux.Library.Exec
import Tmux.Library.Keyed

/-!
# Sessions

A session (`Session`) has links to windows (`Winlink`) in a tree ordered by their
index, a current one of them, and a stack of those that were current before. Links
are told apart by their index, also where the code follows pointers to them.

Operations on a session: linking a new window (`sessionNew`) or a window that
exists (`sessionAttach`), unlinking one (`sessionDetach`), making another window
current (`sessionNext`, `sessionPrevious`, `sessionSelect`, `sessionLast`), taking
over the windows of another session of its group (`sessionGroupSynchronize1`), and
giving the windows consecutive indices (`sessionRenumberWindows`).
-/

namespace Tmux

/-- A link of a session to a window. -/
structure Winlink where
  idx : ℕ
  /-- The window, once it is set. -/
  window : Option ℕ := none
  /-- Bell, activity, content and silence. -/
  flags : BitVec 4 := 0
  deriving DecidableEq, Repr

/-- The flags that are alerts. -/
def winlinkAlertFlags : BitVec 4 := 15

abbrev Winlinks := Keyed Winlink Winlink.idx

/-- Whether a link has an alert. -/
def isAlert (wl : Winlink) : Bool := wl.flags &&& winlinkAlertFlags != 0

structure Session where
  windows : Winlinks := {}
  /-- The current window. -/
  curw : Option ℕ := none
  /-- The windows that were current before, the last one first. -/
  lastw : List ℕ := []

/-- A session with no windows. -/
def emptySession : Session := {}

/-! ## Links -/

/-- The link with an index. -/
def winlinkFindByIndex (wwl : Winlinks) (idx : ℤ) : Exec (Option Winlink) :=
  if idx < 0 then .fault .fatal else pure (wwl.find? idx.toNat)

/-- The first free index from `i` on, going round after the largest, in so many steps. -/
def freeIndex (wwl : Winlinks) : ℕ → ℕ → Option ℕ
  | 0, _ => none
  | n + 1, i =>
    if wwl.find? i = none then some i else freeIndex wwl n (if i = intMax then 0 else i + 1)

/-- The first free index from `idx` on. -/
def winlinkNextIndex (wwl : Winlinks) (idx : ℕ) : Option ℕ := freeIndex wwl (intMax + 1) idx

/-- Insert a link at an index, if it is free. -/
def insertLink (wwl : Winlinks) (idx : ℕ) : Option (Winlinks × ℕ) :=
  if h : wwl.find? idx = none then some (wwl.insert { idx } h, idx) else none

/-- Add a link, at the first free index from `-idx - 1` on if `idx` is negative. -/
def winlinkAdd (wwl : Winlinks) (idx : ℤ) : Option (Winlinks × ℕ) :=
  if idx < 0 then (winlinkNextIndex wwl (-idx - 1).toNat).bind (insertLink wwl)
  else insertLink wwl idx.toNat

/-- Update the link with an index. -/
def updateLink (wwl : Winlinks) (wl : ℕ) (f : Winlink → Winlink) : Winlinks :=
  wwl.update (fun l => if l.idx = wl then { f l with idx := l.idx } else l) fun l => by
    split <;> rfl

/-- Set the window of a link. -/
def winlinkSetWindow (wwl : Winlinks) (wl w : ℕ) : Winlinks :=
  updateLink wwl wl fun l => { l with window := some w }

/-- The link of a session to a window. -/
def sessionHas (wwl : Winlinks) (w : Option ℕ) : Option Winlink :=
  wwl.entries.find? fun wl => wl.window = w

/-- Clear the alerts of the window of a link. -/
def winlinkClearFlags (wwl : Winlinks) (wl : ℕ) : Winlinks :=
  match (wwl.find? wl).bind fun l => sessionHas wwl l.window with
  | none => wwl
  | some wm => updateLink wwl wm.idx fun l => { l with flags := l.flags &&& ~~~ winlinkAlertFlags }

/-- Take a link off the stack. -/
def winlinkStackRemove (stack : List ℕ) (wl : ℕ) : List ℕ := stack.erase wl

/-- Push a link on the stack, off its place there. -/
def winlinkStackPush (stack : List ℕ) (wl : Option ℕ) : List ℕ :=
  match wl with
  | none => stack
  | some wl => wl :: winlinkStackRemove stack wl

/-! ## The current window -/

/-- Make a link the current one, the one current before going on the stack. Gives 1 if it is
    the current one already. -/
def moveTo (s : Session) (wl : ℕ) : Session × ℤ :=
  if s.curw = some wl then (s, 1)
  else
    ({ windows := winlinkClearFlags s.windows wl
       curw := some wl
       lastw := winlinkStackPush (winlinkStackRemove s.lastw wl) s.curw }, 0)

/-- The link after one, going round, with an alert if asked to. -/
def nextLink (wwl : Winlinks) (wl : ℕ) (alert : Bool) : Option Winlink :=
  let suitable := fun l => !alert || isAlert l
  ((Queue.rest (Keyed.hasKey Winlink.idx wl) wwl.entries).find? suitable).or
    (wwl.entries.find? suitable)

/-- The link before one, going round, with an alert if asked to. -/
def previousLink (wwl : Winlinks) (wl : ℕ) (alert : Bool) : Option Winlink :=
  let suitable := fun l => !alert || isAlert l
  ((Queue.front (Keyed.hasKey Winlink.idx wl) wwl.entries).reverse.find? suitable).or
    (wwl.entries.reverse.find? suitable)

/-- Move a session to a link found from its current one. -/
def moveFrom (s : Session) (link : ℕ → Option Winlink) : Exec (Session × ℤ) :=
  match s.curw with
  | none => pure (s, -1)
  | some curw => do
    let curw ← Exec.follow (s.windows.find? curw)
    match link curw.idx with
    | none => pure (s, -1)
    | some wl => pure (moveTo s wl.idx)

/-- Move session to next window. -/
def sessionNext (s : Session) (alert : Bool) : Exec (Session × ℤ) :=
  moveFrom s fun curw => nextLink s.windows curw alert

/-- Move session to previous window. -/
def sessionPrevious (s : Session) (alert : Bool) : Exec (Session × ℤ) :=
  moveFrom s fun curw => previousLink s.windows curw alert

/-- Move session to specific window. -/
def sessionSelect (s : Session) (idx : ℤ) : Exec (Session × ℤ) := do
  match ← winlinkFindByIndex s.windows idx with
  | none => pure (s, -1)
  | some wl => pure (moveTo s wl.idx)

/-- Move session to last used window. -/
def sessionLast (s : Session) : Session × ℤ :=
  match s.lastw.head? with
  | none => (s, -1)
  | some wl => moveTo s wl

/-- Move session to last used window, or else to the previous, or else to the next one. -/
def sessionLeave (s : Session) : Exec Session :=
  if (sessionLast s).2 = 0 then pure (sessionLast s).1
  else do
    let (s, r) ← sessionPrevious (sessionLast s).1 false
    if r = 0 then pure s
    else do
      let (s, _) ← sessionNext s false
      pure s

/-! ## Linking windows -/

/-- Attach a window to a session. Gives the link, or the error message. -/
def sessionAttach (s : Session) (w : ℕ) (idx : ℤ) : Session × Except String ℕ :=
  match winlinkAdd s.windows idx with
  | none => (s, .error ("index in use: " ++ toString idx))
  | some (windows, wl) => ({ s with windows := winlinkSetWindow windows wl w }, .ok wl)

/-- Create a new window on a session, or fail to for the cause given. -/
def sessionNew (s : Session) (idx : ℤ) (w : Except String ℕ) : Session × Except String ℕ :=
  match winlinkAdd s.windows idx with
  | none => (s, .error ("index in use: " ++ toString idx))
  | some (windows, wl) =>
    match w with
    | .error cause => ({ s with windows := windows.erase wl }, .error cause)
    | .ok w => ({ s with windows := winlinkSetWindow windows wl w }, .ok wl)

/-- Leave a link if it is the current one. -/
def leaveLink (s : Session) (wl : ℕ) : Exec Session :=
  if s.curw = some wl then sessionLeave s else pure s

/-- Detach a window from a session. Gives 1 if the session has no window left and is
    destroyed. -/
def sessionDetach (s : Session) (wl : ℕ) : Exec (Session × ℤ) := do
  let s ← leaveLink s wl
  let s := { s with
    lastw := winlinkStackRemove s.lastw wl
    windows := s.windows.erase wl }
  pure (if s.windows.entries = [] then ({ s with lastw := [] }, 1) else (s, 0))

/-- Create a session with a window. -/
def sessionCreate (idx : ℤ) (w : Except String ℕ) : Exec (Option Session) :=
  match sessionNew {} idx w with
  | (_, .error _) => pure none
  | (s, .ok _) => do
    let root ← Exec.follow s.windows.entries.head?
    let (s, _) ← sessionSelect s root.idx
    pure (some s)

/-! ## Linking anew -/

/-- The links of a stack found again by their index in a tree. -/
def fixStack (wwl : Winlinks) (lastw : List ℕ) : Exec (List ℕ) := do
  let links ← lastw.mapM fun wl : ℕ => winlinkFindByIndex wwl wl
  pure (links.filterMap fun wl => wl.map Winlink.idx)

/-- Link a window at an index, with the alerts of another link to it. -/
def linkAgain (wwl : Winlinks) (idx : ℤ) (wl : Winlink) : Exec (Winlinks × ℕ) := do
  let (wwl, wl2) ← Exec.follow (winlinkAdd wwl idx)
  let w ← Exec.follow wl.window
  let wwl := winlinkSetWindow wwl wl2 w
  pure (updateLink wwl wl2 fun l => { l with flags := l.flags ||| wl.flags &&& winlinkAlertFlags }, wl2)

/-- If the current window has vanished, move to the next now. -/
def leaveVanished (ww : Winlinks) (s : Session) : Exec Session :=
  match s.curw with
  | none => pure s
  | some curw => do
    match ← winlinkFindByIndex ww curw with
    | none => sessionLeave s
    | some _ => pure s

/-- The index the current window of a session is found again by: its own, or that of the
    current window of the target if there is none. -/
def currentIndex (target s : Session) : Exec ℕ :=
  match s.curw with
  | some curw => pure curw
  | none => Exec.follow target.curw

/-- Link all the windows from a list of links. -/
def linkAll (links : List Winlink) (wwl : Winlinks) : Exec Winlinks :=
  links.foldlM (fun wwl wl => do
    let (wwl, _) ← linkAgain wwl wl.idx wl
    pure wwl) wwl

/-- Synchronize a session with a target session: destroy all links and recreate them, then
    update the current window and the stack. -/
def sessionGroupSynchronize1 (target s : Session) : Exec Session :=
  -- Don't do anything if the session is empty (it'll be destroyed).
  if target.windows.entries = [] then pure s
  else do
    let s ← leaveVanished target.windows s
    -- Link all the windows from the target.
    let windows ← linkAll target.windows.entries {}
    -- Fix up the current window.
    let idx ← currentIndex target s
    let curw ← winlinkFindByIndex windows idx
    -- Fix up the last window stack.
    let lastw ← fixStack windows s.lastw
    pure { windows, curw := curw.map Winlink.idx, lastw }

/-- Go through links and assign new indices from `newIdx` on. Gives the new links, and the new
    index of the link `curw`, or else `newCurw`. -/
def renumberLinks (curw : Option ℕ) : List Winlink → Winlinks → ℕ → ℕ → Exec (Winlinks × ℕ)
  | [], wwl, _, newCurw => pure (wwl, newCurw)
  | wl :: links, wwl, newIdx, newCurw =>
    -- An index past the largest signed word overflows.
    if newIdx > intMax then .fault .fatal
    else do
      let (wwl, wlNew) ← linkAgain wwl newIdx wl
      renumberLinks curw links wwl (newIdx + 1) (if curw = some wl.idx then wlNew else newCurw)

/-- Renumber the windows across links attached to a specific session. -/
def sessionRenumberWindows (s : Session) (baseIndex : ℕ) : Exec Session := do
  let (windows, newCurw) ← renumberLinks s.curw s.windows.entries {} baseIndex 0
  -- Fix the stack of last windows now.
  let lastw ← fixStack windows s.lastw
  -- Set the current window.
  let curw ← winlinkFindByIndex windows newCurw
  pure { windows, curw := curw.map Winlink.idx, lastw }

end Tmux
