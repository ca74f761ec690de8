import Tmux.Layout.Window

/-!
# The panes of a window

Creating a window with its first pane (`windowCreate`), linking a new pane into
the list of a window after the active one (`windowAddPane`), taking a pane out of
it (`windowRemovePane`), and making a pane the active one
(`windowSetActivePane`), which moves on from a pane that is not visible.
-/

namespace Tmux

/-- Create a pane of a window. -/
def windowPaneCreate (w : Window) (id : ℕ) : WindowPane :=
  { id, window := w.id, sx := w.sx, sy := w.sy }

/-- Add a new pane to a window, after the active one. -/
def windowAddPane (w : Window) (id : ℕ) : Exec Window :=
  let wp := windowPaneCreate w id
  if w.panes.isEmpty then pure { w with panes := [wp] }
  else do
    let active ← Exec.follow w.active
    let _ ← Exec.follow (w.findPane active)
    pure { w with panes := Queue.insertAfter (isPane active) wp w.panes }

/-- Create a window with a single pane. -/
def windowCreate (id wp sx sy : ℕ) : Exec Window := do
  let w : Window := { id, sx, sy }
  let w ← windowAddPane w wp
  let w ← layoutInit w
  pure { w with active := w.panes.head?.map WindowPane.id }

/-- Take a pane out of its window. -/
def windowRemovePane (w : Window) (wp : ℕ) : Window :=
  let panes := w.panes.eraseP (isPane wp)
  if w.active = some wp then
    { w with
      active := w.last.or
        (((Queue.prev? (isPane wp) w.panes).or (Queue.next? (isPane wp) w.panes)).map WindowPane.id)
      last := none
      panes }
  else if w.last = some wp then { w with last := none, panes }
  else { w with panes }

/-- Whether a pane lies inside its window. -/
def windowPaneVisible (w : Window) (wp : WindowPane) : Bool :=
  -- No part of the pane outside the window.
  if wp.xoff ≥ w.sx ∨ wp.yoff ≥ w.sy then false
  else if wp.xoff + wp.sx > w.sx ∨ wp.yoff + wp.sy > w.sy then false
  else true

/-- Walk backwards from a pane to one that is visible, unless `wp` comes first, in at
    most as many steps as the first argument. -/
def visibleFrom (w : Window) (wp : ℕ) : ℕ → ℕ → Exec ℕ
  | 0, _ => .fault .hang
  | n + 1, active => do
    let pane ← Exec.follow (w.findPane active)
    if windowPaneVisible w pane then pure active
    else do
      let prev ← Exec.follow ((Queue.prev? (isPane active) w.panes).or w.panes.getLast?)
      if prev.id = wp then pure wp else visibleFrom w wp n prev.id

/-- Make a pane the active one. -/
def windowSetActivePane (w : Window) (wp : ℕ) : Exec Window :=
  if w.active = some wp then pure w
  else do
    let active ← visibleFrom w wp (w.panes.length + 1) wp
    pure { w with last := w.active, active := some active }

end Tmux
