import Tmux.Grid.View

/-!
# Virtual screens

A screen (`Screen`) is a grid with a cursor, which may be one column past the last one,
the rows of a scroll region, and the columns of tabs.

Resizing a screen (`screenResize`) moves the cursor with the lines: a screen that gets
lower pushes lines from the top into the history once the cursor is on its last row, and
one that gets higher pulls them out again.
-/

namespace Tmux

open Exec (uadd usub)

/-! ## Bit strings -/

/-- Whether a bit of a bit string is set. -/
def bitTest (name : List Bool) (bit : ℕ) : Exec Bool :=
  match name[bit]? with
  | none => .fault .bit
  | some b => pure b

/-- Give a bit of a bit string a value. -/
def bitPut (name : List Bool) (bit : ℕ) (b : Bool) : Exec (List Bool) :=
  if bit < name.length then pure (name.set bit b) else .fault .bit

def bitSet (name : List Bool) (bit : ℕ) : Exec (List Bool) := bitPut name bit true

def bitClear (name : List Bool) (bit : ℕ) : Exec (List Bool) := bitPut name bit false

/-- Clear the bits from `start` to `stop`. -/
def bitNclear (name : List Bool) (start stop : ℕ) : Exec (List Bool) :=
  (List.range' start (stop + 1 - start)).foldlM bitClear name

/-! ## Screens -/

def modeCursor : UInt16 := 0x1
def modeInsert : UInt16 := 0x2
def modeKcursor : UInt16 := 0x4
/-- Set for application, clear for number. -/
def modeKkeypad : UInt16 := 0x8
/-- Whether lines wrap. -/
def modeWrap : UInt16 := 0x10
def modeMouseStandard : UInt16 := 0x20
def modeMouseButton : UInt16 := 0x40
def modeMouseAny : UInt16 := 0x80
def modeMouseUtf8 : UInt16 := 0x100
def modeBracketpaste : UInt16 := 0x200

def allMouseModes : UInt16 := modeMouseStandard ||| modeMouseButton ||| modeMouseAny

structure Screen where
  title : List UInt8 := []
  grid : Grid
  /-- Cursor x. -/
  cx : ℕ := 0
  /-- Cursor y. -/
  cy : ℕ := 0
  /-- Cursor style. -/
  cstyle : ℕ := 0
  /-- Cursor colour string. -/
  ccolour : List UInt8 := []
  /-- Scroll region top. -/
  rupper : ℕ := 0
  /-- Scroll region bottom. -/
  rlower : ℕ := 0
  mode : UInt16 := 0
  tabs : List Bool := []
  deriving DecidableEq, Repr

/-- Whether a mode is set. -/
def Screen.hasMode (s : Screen) (mode : UInt16) : Bool := s.mode &&& mode != 0

/-- Set a mode, or clear it. -/
def Screen.setMode (s : Screen) (mode : UInt16) (state : Bool) : Screen :=
  { s with mode := if state then s.mode ||| mode else s.mode &&& ~~~mode }

/-- Reset tabs to default, eight spaces apart. -/
def screenResetTabs (s : Screen) : Screen :=
  { s with tabs := (List.range s.grid.sx).map fun i => i ≠ 0 ∧ i % 8 = 0 }

/-- Reinitialise screen. -/
def screenReinit (s : Screen) : Exec Screen := do
  let rlower ← usub s.grid.sy 1
  let s := screenResetTabs { s with
    cx := 0
    cy := 0
    rupper := 0
    rlower
    mode := modeCursor ||| modeWrap }
  let grid ← gridClearLines s.grid s.grid.hsize s.grid.sy
  pure { s with grid }

/-- Create a new screen, with the name of the host as its title. -/
def screenInit (title : List UInt8) (sx sy hlimit : ℕ) : Exec Screen :=
  screenReinit { title, grid := gridCreate sx sy hlimit }

/-- Set screen cursor style. -/
def screenSetCursorStyle (s : Screen) (style : ℕ) : Screen :=
  if style ≤ 6 then { s with cstyle := style } else s

/-- Set screen cursor colour. -/
def screenSetCursorColour (s : Screen) (colour : List UInt8) : Screen := { s with ccolour := colour }

/-- Set screen title. -/
def screenSetTitle (s : Screen) (title : List UInt8) : Screen := { s with title }

/-! ## Resizing -/

/-- Just ensure the cursor is on-screen and change the size. -/
def screenResizeX (s : Screen) (sx : ℕ) : Exec Screen :=
  if sx = 0 then .fault .fatal
  else do
    let last ← usub sx 1
    pure { s with
      cx := if s.cx ≥ sx then last else s.cx
      grid := { s.grid with sx } }

/-- Change the width of a screen, resetting its tabs. -/
def changeX (s : Screen) (sx : ℕ) : Exec Screen :=
  if sx ≠ s.grid.sx then do
    let s ← screenResizeX s sx
    pure (screenResetTabs s)
  else pure s

/-- Delete as many as needed of the lines below the cursor. Gives the number of lines deleted. -/
def deleteBottom (s : Screen) (needed : ℕ) : Exec (Grid × ℕ) := do
  let last ← usub s.grid.sy 1
  let available ← usub last s.cy
  if available = 0 then pure (s.grid, 0)
  else do
    let available := if available > needed then needed else available
    let py ← usub s.grid.sy available
    let grid ← gridViewDeleteLines s.grid py available
    pure (grid, available)

/-- Take lines from the top: the history takes them over, or they are deleted if it is off. -/
def takeTop (s : Screen) (grid : Grid) (needed : ℕ) : Exec Grid :=
  let available := s.cy
  if grid.history then pure { grid with hsize := uadd grid.hsize needed }
  else if needed > 0 ∧ available > 0 then
    gridViewDeleteLines grid 0 (if available > needed then needed else available)
  else pure grid

/-- Delete lines from the bottom until hitting the cursor, then push lines from the top into the
    history. -/
def shrinkY (s : Screen) (sy : ℕ) : Exec Screen :=
  if sy < s.grid.sy then do
    let needed ← usub s.grid.sy sy
    let (grid, available) ← deleteBottom s needed
    let needed ← usub needed available
    let grid ← takeTop s grid needed
    let cy ← usub s.cy needed
    pure { s with grid, cy }
  else pure s

/-- Pull as many lines as possible from the history to the top, then fill the remaining with
    blanks at the bottom. -/
def growY (s : Screen) (oldy sy : ℕ) : Exec Screen :=
  if sy > oldy then do
    let needed ← usub sy oldy
    let available :=
      if s.grid.history ∧ s.grid.hsize > 0 then
        if s.grid.hsize > needed then needed else s.grid.hsize
      else 0
    let hsize ← usub s.grid.hsize available
    let needed ← usub needed available
    let bottom ← usub (uadd hsize sy) needed
    let linedata ← Block.fill {} (fun _ => true) s.grid.linedata bottom (uadd hsize sy - bottom)
    pure { s with grid := { s.grid with hsize, linedata }, cy := uadd s.cy available }
  else pure s

def screenResizeY (s : Screen) (sy : ℕ) : Exec Screen :=
  if sy = 0 then .fault .fatal
  else do
    let oldy := s.grid.sy
    let s ← shrinkY s sy
    -- Resize line arrays.
    let linedata := Block.resize {} s.grid.linedata (uadd s.grid.hsize sy)
    let s := { s with grid := { s.grid with linedata } }
    let s ← growY s oldy sy
    -- Set the new size, and reset the scroll region.
    let rlower ← usub sy 1
    pure { s with grid := { s.grid with sy }, rupper := 0, rlower }

/-- Resize screen. -/
def screenResize (s : Screen) (sx sy : ℕ) : Exec Screen := do
  let sx := if sx < 1 then 1 else sx
  let sy := if sy < 1 then 1 else sy
  let s ← changeX s sx
  if sy ≠ s.grid.sy then Exec.forget (screenResizeY s sy) else pure s

end Tmux
