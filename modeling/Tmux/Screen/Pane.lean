import Tmux.Screen.Write

/-!
# The screens of a pane

A pane has a screen, and, while a program uses the alternate screen, a copy of the lines
that were visible before (`windowPaneAlternateOn`), from which they are restored
(`windowPaneAlternateOff`).
-/

namespace Tmux

open Exec (usub forget)

/-- The screen of a pane. -/
structure PaneScreen where
  base : Screen
  /-- The window's option for using the alternate screen. -/
  alternateScreen : Bool := true
  /-- The visible lines before the alternate screen. -/
  savedGrid : Option Grid := none
  savedCx : ℕ := 0
  savedCy : ℕ := 0
  savedCell : GridCell := gridDefaultCell
  deriving DecidableEq, Repr

/-- Create the screen of a pane. -/
def paneScreenCreate (title : List UInt8) (sx sy hlimit : ℕ) (alternateScreen : Bool) :
    Exec PaneScreen := do
  let base ← screenInit title sx sy hlimit
  pure { base, alternateScreen }

/-- Resize the screen of a pane. -/
def windowPaneResize (wp : PaneScreen) (sx sy : ℕ) : Exec PaneScreen :=
  if sx = wp.base.grid.sx ∧ sy = wp.base.grid.sy then pure wp
  else do
    let base ← screenResize wp.base sx sy
    pure { wp with base }

/-- Enter alternative screen mode. A copy of the visible screen is saved and the history is not
    updated. -/
def windowPaneAlternateOn (wp : PaneScreen) (gc : GridCell) : Exec PaneScreen :=
  if wp.savedGrid.isSome then pure wp
  else if !wp.alternateScreen then pure wp
  else do
    let s := wp.base
    let saved ← forget <|
      gridDuplicateLines (gridCreate s.grid.sx s.grid.sy 0) 0 s.grid s.grid.hsize s.grid.sy
    let grid ← gridViewClear s.grid 0 0 s.grid.sx s.grid.sy
    pure { wp with
      base := { s with grid := { grid with history := false } }
      savedGrid := some saved
      savedCx := s.cx
      savedCy := s.cy
      savedCell := gc }

/-- If the size of a screen is bigger than the saved one, resize to a height. -/
def fitY (s : Screen) (saved : Grid) (sy height : ℕ) : Exec Screen :=
  if sy > saved.sy then screenResize s s.grid.sx height else pure s

/-- Put the cursor back where it was saved, on the screen. -/
def restoreCursor (s : Screen) (cx cy : ℕ) : Exec Screen := do
  let lastx ← usub s.grid.sx 1
  let lasty ← forget (usub s.grid.sy 1)
  pure { s with cx := limit cx lastx, cy := limit cy lasty }

/-- Exit alternate screen mode and restore the copied grid. Gives the cell saved, if any. -/
def windowPaneAlternateOff (wp : PaneScreen) : Exec (PaneScreen × Option GridCell) :=
  match wp.savedGrid with
  | none => pure (wp, none)
  | some saved =>
    if !wp.alternateScreen then pure (wp, none)
    else do
      let sy := wp.base.grid.sy
      -- If the current size is bigger, temporarily resize to the old size before copying back.
      let s ← fitY wp.base saved sy saved.sy
      -- Restore the grid, cursor position and cell.
      let grid ← forget (gridDuplicateLines s.grid s.grid.hsize saved 0 sy)
      let s ← restoreCursor { s with grid } wp.savedCx wp.savedCy
      -- Turn history back on (so resize can use it) and then resize back to the current size.
      let s ← fitY { s with grid := { s.grid with history := true } } saved sy sy
      pure ({ wp with base := s, savedGrid := none }, some wp.savedCell)

end Tmux
