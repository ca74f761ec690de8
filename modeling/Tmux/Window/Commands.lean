import Tmux.Layout.Close
import Tmux.Window.SplitWindow

/-!
# The commands on panes

A server (`Server`) has windows. The commands moving panes about in them and
between them: killing a pane or all but it (`cmdKillPaneExec`), joining a pane to
another window or moving it in its own (`joinPane`), breaking it out into a new
one (`cmdBreakPaneExec`), swapping two panes (`cmdSwapPaneExec`), and rotating
the panes of a window (`cmdRotateWindowExec`). Windows change their sizes after
the sessions showing them (`recalculateSizes`).

Every command does its own part of keeping the active and the last pane of the
windows it is about.
-/

namespace Tmux

/-- The windows of a server, at different addresses. -/
structure Server where
  windows : List Window := []
  nodup : (windows.map Window.id).Nodup := by simp

/-- Whether a window is the one at an address. -/
def isWindow (id : ℕ) (w : Window) : Bool := w.id == id

namespace Server

variable (s : Server)

/-- The window at an address. -/
def window (id : ℕ) : Exec Window := Exec.follow (s.windows.find? (isWindow id))

theorem map_id_setWindow (w : Window) (l : List Window) :
    (l.map fun v => if isWindow w.id v then w else v).map Window.id = l.map Window.id := by
  rw [List.map_map]
  refine List.map_congr_left fun v _ => ?_
  dsimp only [Function.comp_apply]
  split
  · rename_i h
    exact (by simpa [isWindow] using h : v.id = w.id).symm
  · rfl

/-- Update a window. -/
def setWindow (w : Window) : Server where
  windows := s.windows.map fun v => if isWindow w.id v then w else v
  nodup := by
    rw [map_id_setWindow]
    exact s.nodup

/-- An address where there is no window. -/
def newAddress : ℕ := (s.windows.map Window.id).foldr (max · ·) 0 + 1

theorem lt_newAddress {id : ℕ} (h : id ∈ s.windows.map Window.id) : id < s.newAddress := by
  rw [newAddress]
  generalize s.windows.map Window.id = l at h ⊢
  induction l with
  | nil => exact absurd h (by simp)
  | cons a l ih =>
    rw [List.foldr_cons]
    rcases List.mem_cons.1 h with rfl | h
    · omega
    · have := ih h
      omega

/-- Add a window, at a new address. -/
def addWindow (w : Window) : Server where
  windows := s.windows ++ [{ w with id := s.newAddress }]
  nodup := by
    rw [List.map_append, List.nodup_append]
    refine ⟨s.nodup, by simp, fun a ha b hb => ?_⟩
    obtain rfl : b = s.newAddress := by simpa using hb
    exact (s.lt_newAddress ha).ne

end Server

/-- Kill a window. -/
def serverKillWindow (s : Server) (id : ℕ) : Server where
  windows := s.windows.filter fun w => !isWindow id w
  nodup := s.nodup.sublist (List.filter_sublist.map Window.id)

/-! ## Sizes -/

/-- Resize a window with its layout. -/
def resizeWindow (w : Window) (sx sy : ℕ) : Exec Window := do
  let w ← layoutResize w sx sy
  pure (windowResize w sx sy)

/-- If the current pane is now not visible, move to the next that is. -/
def showActive (w : Window) : Exec Window := do
  let wp ← Exec.follow w.active
  let active ← visibleFrom w wp (w.panes.length + 1) wp
  pure { w with active := some active }

/-- Give a window the size of the smallest session it is attached to, if any. -/
def recalculateSize (sizes : List (ℕ × ℕ × ℕ)) (w : Window) : Exec Window :=
  match sizes.lookup w.id with
  | none => pure w
  | some (sx, sy) =>
    if w.sx = sx ∧ w.sy = sy then pure w
    else do
      let w ← resizeWindow w sx sy
      showActive w

/-- Recalculate the size of a window of a server. -/
def recalculateWindow (sizes : List (ℕ × ℕ × ℕ)) (s : Server) (w : Window) : Exec Server := do
  let w ← recalculateSize sizes w
  pure (s.setWindow w)

/-- Recalculate the sizes of the windows, `sizes` being those of the smallest sessions they
    are attached to. -/
def recalculateSizes (s : Server) (sizes : List (ℕ × ℕ × ℕ)) : Exec Server :=
  s.windows.foldlM (recalculateWindow sizes) s

/-! ## Selecting -/

/-- Make a pane the active one of a window. -/
def selectPane (s : Server) (id wp : ℕ) : Exec Server := do
  let w ← s.window id
  let w ← windowSetActivePane w wp
  pure (s.setWindow w)

/-- Make a pane the active one of a window where another one is, if `(w, only, wp)` tells of one. -/
def selectWhere (s : Server) : ℕ × Option ℕ × ℕ → Exec Server
  | (id, only, wp) => do
    let w ← s.window id
    if only.isNone ∨ w.active = only then selectPane s id wp else pure s

/-! ## Killing -/

/-- Kill all panes of a window but one. -/
def killOthers (w : Window) (wp : ℕ) : Exec Window :=
  w.panes.foldlM (fun w loopwp => if isPane wp loopwp then pure w else closePane w loopwp.id) w

/-- Kill a pane, or all others of its window. -/
def cmdKillPaneExec (s : Server) (id wp : ℕ) (args : Args) (sizes : List (ℕ × ℕ × ℕ)) :
    Exec Server := do
  let w ← s.window id
  -- Only one pane, kill the window.
  if w.panes.length = 1 then recalculateSizes (serverKillWindow s id) sizes
  else if argsHas args 'a' then do
    let w ← killOthers w wp
    pure (s.setWindow w)
  else do
    let w ← closePane w wp
    pure (s.setWindow w)

/-! ## Joining -/

/-- Take a pane out of its window to put it into another. -/
def unlinkPane (w : Window) (wp : ℕ) : Window :=
  { w with
    active := if w.active = some wp then
        ((Queue.prev? (isPane wp) w.panes).or (Queue.next? (isPane wp) w.panes)).map WindowPane.id
      else w.active
    panes := w.panes.eraseP (isPane wp) }

/-- Close the cell of a pane, take it out of its window, and kill the window if it was the
    last. Gives the pane. -/
def takePane (s : Server) (id wp : ℕ) : Exec (Server × WindowPane) := do
  let w ← s.window id
  let w ← layoutClosePane w wp
  let pane ← Exec.follow (w.findPane wp)
  let w := unlinkPane w wp
  let s := s.setWindow w
  pure (if w.panes.isEmpty then serverKillWindow s id else s, pane)

/-- Put a pane into a window after another one, in a cell. -/
def putPane (s : Server) (id after : ℕ) (wp : WindowPane) (lc : ℕ) : Exec Server := do
  let w ← s.window id
  let panes := Queue.insertAfter (isPane after) { wp with window := id } w.panes
  let w ← layoutAssignPane { w with panes } lc wp.id
  pure (s.setWindow w)

/-- Split the pane to join to, and move the other pane there. Gives the error message, if
    any. The windows and panes are given as pairs of a window and a pane of it. -/
def movePane (s : Server) (notSameWindow : Bool) (dst src : ℕ × ℕ) (args : Args) :
    Exec (Server × Option String) := do
  let dstw ← s.window dst.1
  let dstwp ← Exec.follow (dstw.findPane dst.2)
  if notSameWindow ∧ src.1 = dst.1 then
    pure (s, some "can't join a pane to its own window")
  else if ¬ notSameWindow ∧ src.2 = dst.2 then
    pure (s, some "source and target panes must be different")
  else
    match sizeHint args 100 dstwp with
    | .error cause => pure (s, some cause)
    | .ok size =>
      match ← layoutSplitPane dstw dst.2 (splitType args) size (argsHas args 'b') with
      | none => pure (s, some (createPaneFailed "pane too small"))
      | some (dstw, lc) => do
        let (s, wp) ← takePane (s.setWindow dstw) src.1 src.2
        let s ← putPane s dst.1 dst.2 wp lc
        pure (s, none)

/-- Join a pane to another window, or move it there or in its own. -/
def joinPane (s : Server) (notSameWindow : Bool) (dst src : ℕ × ℕ) (args : Args)
    (sizes : List (ℕ × ℕ × ℕ)) : Exec (Server × Option String) := do
  match ← movePane s notSameWindow dst src args with
  | (s, some cause) => pure (s, some cause)
  | (s, none) => do
    let s ← recalculateSizes s sizes
    let s ← if argsHas args 'd' then pure s else selectPane s dst.1 src.2
    pure (s, none)

/-! ## Breaking -/

/-- Break a pane out into a new window, of the size of its session. -/
def cmdBreakPaneExec (s : Server) (id wp sx sy : ℕ) : Exec (Server × Option String) := do
  let w ← s.window id
  if w.panes.length = 1 then pure (s, some "can't break with only one pane")
  else do
    -- The pane leaves the list before its cell is closed; as the pane has no cell any
    -- more when the others are fixed, this is the same afterwards.
    let w ← layoutClosePane w wp
    let pane ← Exec.follow (w.findPane wp)
    let s := s.setWindow (windowRemovePane w wp)
    let id := s.newAddress
    let panes := [{ pane with window := id }]
    let w ← layoutInit { id, panes, active := some wp, sx, sy }
    pure (s.addWindow w, none)

/-! ## Swapping -/

/-- The pane to swap with: the one given, or the next or previous one going round. -/
def swapSource (s : Server) (dst : ℕ × ℕ) (src : Option (ℕ × ℕ)) (args : Args) :
    Exec (Option (ℕ × ℕ)) := do
  let w ← s.window dst.1
  match src with
  | some src => pure (some src)
  | none =>
    if argsHas args 'D' then do
      let wp ← Exec.follow ((Queue.next? (isPane dst.2) w.panes).or w.panes.head?)
      pure (some (dst.1, wp.id))
    else if argsHas args 'U' then do
      let wp ← Exec.follow ((Queue.prev? (isPane dst.2) w.panes).or w.panes.getLast?)
      pure (some (dst.1, wp.id))
    else pure none

/-- Give a pane the cell, the offset and the size of another. -/
def takePlace (wp other : WindowPane) : WindowPane :=
  { wp with
    layoutCell := other.layoutCell
    xoff := other.xoff
    yoff := other.yoff
    sx := other.sx
    sy := other.sy }

/-- Make the cell at an address contain a pane. -/
def setCellPane (w : Window) (lc wp : ℕ) : Exec Window := do
  let root ← Exec.follow w.layoutRoot
  let cell ← Exec.follow (findCell root lc)
  let cell := .node { cell.val with wp := some wp } cell.children
  pure { w with layoutRoot := some (replaceCell root lc cell) }

/-- Put a pane into a list of panes after the one `tmp`, or at its head. -/
def insertPane (tmp : Option ℕ) (wp : WindowPane) (panes : List WindowPane) : List WindowPane :=
  match tmp with
  | none => wp :: panes
  | some tmp => Queue.insertAfter (isPane tmp) wp panes

/-- Put each of two panes in the place of the other. -/
def swapPanes (s : Server) (dst src : ℕ × ℕ) : Exec Server := do
  let dstw ← s.window dst.1
  let dstwp ← Exec.follow (dstw.findPane dst.2)
  let srcw ← s.window src.1
  let srcwp ← Exec.follow (srcw.findPane src.2)
  let tmp := (Queue.prev? (isPane dst.2) dstw.panes).map WindowPane.id
  let s := s.setWindow { dstw with panes := dstw.panes.eraseP (isPane dst.2) }
  let srcw ← s.window src.1
  let dstwp' := { takePlace dstwp srcwp with window := src.1 }
  let s := s.setWindow { srcw with panes := Queue.replace (isPane src.2) dstwp' srcw.panes }
  let dstw ← s.window dst.1
  let srcwp' := { takePlace srcwp dstwp with window := dst.1 }
  let tmp := if tmp = some src.2 then some dst.2 else tmp
  let s := s.setWindow { dstw with panes := insertPane tmp srcwp' dstw.panes }
  let srcw ← s.window src.1
  let srclc ← Exec.follow srcwp.layoutCell
  let srcw ← setCellPane srcw srclc dst.2
  let s := s.setWindow srcw
  let dstw ← s.window dst.1
  let dstlc ← Exec.follow dstwp.layoutCell
  let dstw ← setCellPane dstw dstlc src.2
  pure (s.setWindow dstw)

/-- The panes to select after a swap, each in its window and there only if some pane is the
    active one. -/
def swapSelections (s : Server) (dst src : ℕ × ℕ) (args : Args) :
    Exec (List (ℕ × Option ℕ × ℕ)) := do
  let w ← s.window src.1
  let wp ← Exec.follow (w.findPane dst.2)
  if ¬ argsHas args 'd' then
    if src.1 ≠ dst.1 then pure [(src.1, none, dst.2), (dst.1, none, src.2)]
    else pure [(src.1, none, if windowPaneVisible w wp then dst.2 else src.2)]
  else pure [(src.1, some src.2, dst.2), (dst.1, some dst.2, src.2)]

/-- Forget a pane that was the last one of a window. -/
def forgetLast (s : Server) (id wp : ℕ) : Exec Server := do
  let w ← s.window id
  pure (if w.last = some wp then s.setWindow { w with last := none } else s)

/-- Swap two panes. -/
def cmdSwapPaneExec (s : Server) (dst : ℕ × ℕ) (src : Option (ℕ × ℕ)) (args : Args) :
    Exec Server := do
  match ← swapSource s dst src args with
  | none => pure s
  | some src =>
    if src.2 = dst.2 then pure s
    else do
      let s ← swapPanes s dst src
      let selections ← swapSelections s dst src args
      let s ← selections.foldlM selectWhere s
      if src.1 ≠ dst.1 then do
        let s ← forgetLast s src.1 src.2
        forgetLast s dst.1 dst.2
      else pure s

/-! ## Rotating -/

/-- Give every pane of a list the place of the next, and the last one that of `wp`. -/
def shiftPlaces (wp : WindowPane) : List WindowPane → List WindowPane
  | [] => []
  | [p] => [takePlace p wp]
  | p :: q :: panes => takePlace p q :: shiftPlaces wp (q :: panes)

/-- Rotate the panes of a window among their places, down or up. -/
def rotatePanes (w : Window) (down : Bool) : Exec Window := do
  let wp ← Exec.follow (if down then w.panes.getLast? else w.panes.head?)
  let panes :=
    if down then shiftPlaces wp (wp :: w.panes.dropLast)
    else shiftPlaces wp (w.panes.tail ++ [wp]).reverse
  panes.foldlM (fun w wp =>
    match wp.layoutCell with
    | none => pure w
    | some lc => setCellPane w lc wp.id) { w with panes := if down then panes else panes.reverse }

/-- The pane to be active after a rotation, at the place of the one active before. -/
def rotateTo (w : Window) (down : Bool) : Exec ℕ := do
  let active ← Exec.follow w.active
  let wp ← Exec.follow
    (if down then (Queue.prev? (isPane active) w.panes).or w.panes.getLast?
      else (Queue.next? (isPane active) w.panes).or w.panes.head?)
  pure wp.id

/-- Rotate the panes of a window. -/
def cmdRotateWindowExec (s : Server) (id : ℕ) (args : Args) : Exec Server := do
  let w ← s.window id
  let w ← rotatePanes w (argsHas args 'D')
  let wp ← rotateTo w (argsHas args 'D')
  let w ← windowSetActivePane w wp
  pure (s.setWindow w)

end Tmux
