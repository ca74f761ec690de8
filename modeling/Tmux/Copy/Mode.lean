import Tmux.Screen.Text

/-!
# Copy mode

In copy mode (`CopyMode`) a pane shows a part of a *backing* screen: its own screen, or
one that the output of a command is written to. The lines shown are copied from the
backing screen one by one (`windowCopyWriteLine`), with the position in a header on the
first one, and a prompt on the last one while a key or a line is read for a command.

Left out are the corners of the selection and its cell, which only decide how the lines
are drawn on the terminals.
-/

namespace Tmux

open Exec (uadd usub forget)

/-- What copy mode reads a key or a line for. -/
inductive WindowCopyInputType
  | off
  | numericPrefix
  | searchUp
  | searchDown
  | jumpForward
  | jumpBack
  | jumpToForward
  | jumpToBack
  | gotoLine
  deriving DecidableEq, Repr

inductive ModeKeys
  | emacs
  | vi
  deriving DecidableEq, Repr

/-- The options that copy mode looks at. -/
structure CopyOptions where
  modeKeys : ModeKeys := .emacs
  modeFg : ℕ := 0
  modeBg : ℕ := 3
  modeAttr : UInt8 := 0
  utf8 : Bool := false
  wrapSearch : Bool := true
  wordSeparators : List UInt8 := [32, 45, 95, 64]
  deriving DecidableEq, Repr

/-- A pane in copy mode. -/
structure CopyMode where
  options : CopyOptions := {}
  screen : Screen
  /-- Whether there is a selection on the screen. -/
  sel : Bool := false
  backing : Screen
  /-- Whether the backing screen is the one of the pane. -/
  ofPane : Bool := true
  /-- Backing display has started. -/
  backingWritten : Bool := false
  oy : ℕ := 0
  selx : ℕ := 0
  sely : ℕ := 0
  /-- Are we in rectangle copy mode? -/
  rectflag : Bool := false
  cx : ℕ := 0
  cy : ℕ := 0
  /-- Position in last line with content. -/
  lastcx : ℕ := 0
  /-- Size of last line with content. -/
  lastsx : ℕ := 0
  inputtype : WindowCopyInputType := .off
  inputprompt : List UInt8 := []
  inputstr : List UInt8 := []
  numprefix : ℤ := -1
  searchtype : WindowCopyInputType := .off
  searchstr : List UInt8 := []
  jumptype : WindowCopyInputType := .off
  jumpchar : ℤ := 0
  deriving DecidableEq, Repr

/-- Set grid cell foreground colour. -/
def colourSetFg (gc : GridCell) (c : ℕ) : GridCell :=
  { gc with flags := if c.testBit 8 then gc.flags ||| gridFlagFg256 else gc.flags, fg := UInt8.ofNat c }

/-- Set grid cell background colour. -/
def colourSetBg (gc : GridCell) (c : ℕ) : GridCell :=
  { gc with flags := if c.testBit 8 then gc.flags ||| gridFlagBg256 else gc.flags, bg := UInt8.ofNat c }

def windowModeAttrs (oo : CopyOptions) : GridCell :=
  let gc := colourSetBg (colourSetFg gridDefaultCell oo.modeFg) oo.modeBg
  { gc with attr := gc.attr ||| oo.modeAttr }

/-! ## Drawing lines -/

/-- The position in the history. -/
def positionText (m : CopyMode) : List UInt8 :=
  asciiBytes ("[" ++ toString m.oy ++ "/" ++ toString m.backing.grid.hsize ++ "]")

/-- The prompt for what is read. -/
def promptText (m : CopyMode) : List UInt8 :=
  if m.inputtype = .numericPrefix then asciiBytes ("Repeat: " ++ toString m.numprefix)
  else m.inputprompt ++ asciiBytes ": " ++ m.inputstr

/-- What there is room for in the buffer for a header. -/
def hdrSize : ℕ := 31

/-- Write the header or the prompt of a row. Gives the first column after it, if it is on the
    left, and its size. -/
def writeHeader (m : CopyMode) (py : ℕ) : Exec (Screen × ℕ × ℕ) := do
  let gc := windowModeAttrs m.options
  let last ← forget (usub m.screen.grid.sy 1)
  if py = 0 then do
    let size := limit (positionText m).length m.screen.grid.sx
    let px ← usub m.screen.grid.sx size
    let s ← screenWriteCursormove m.screen px 0
    let s ← screenWritePuts s gc ((positionText m).take hdrSize)
    pure (s, 0, size)
  else if py = last ∧ m.inputtype ≠ .off then do
    let s ← screenWriteCursormove m.screen 0 last
    let s ← screenWritePuts s gc ((promptText m).take hdrSize)
    pure (s, (promptText m).length, (promptText m).length)
  else pure (m.screen, 0, 0)

/-- Mark the last column of a row if the cursor is past it. -/
def writeMarker (m : CopyMode) (py : ℕ) (s : Screen) : Exec Screen :=
  if py = m.cy ∧ m.cx = s.grid.sx then do
    let px ← usub s.grid.sx 1
    let s ← screenWriteCursormove s px py
    screenWritePutc s gridDefaultCell 36
  else pure s

def windowCopyWriteLine (m : CopyMode) (py : ℕ) : Exec CopyMode := do
  let (s, xoff, size) ← writeHeader m py
  let s ← screenWriteCursormove s xoff py
  let top ← usub m.backing.grid.hsize m.oy
  let nx ← usub s.grid.sx size
  let s ← screenWriteCopy s m.backing xoff (uadd top py) nx 1
  let screen ← writeMarker m py s
  pure { m with screen }

/-- Write a line so many times. -/
def windowCopyWriteLines (m : CopyMode) (py : ℕ) : ℕ → Exec CopyMode
  | 0 => pure m
  | ny + 1 => do
    let m ← windowCopyWriteLine m py
    windowCopyWriteLines m py ny

/-- Move the cursor of the screen. -/
def moveCursor (m : CopyMode) (cx cy : ℕ) : Exec CopyMode := do
  let screen ← screenWriteCursormove m.screen cx cy
  pure { m with screen }

def windowCopyRedrawLines (m : CopyMode) (py ny : ℕ) : Exec CopyMode := do
  let m ← (List.range' py ny).foldlM windowCopyWriteLine m
  moveCursor m m.cx m.cy

def windowCopyRedrawScreen (m : CopyMode) : Exec CopyMode := windowCopyRedrawLines m 0 m.screen.grid.sy

/-! ## The cursor and the selection -/

/-- Draw a row again if its last column is marked. -/
def redrawMarked (m : CopyMode) (cx cy : ℕ) : Exec CopyMode :=
  if cx = m.screen.grid.sx then windowCopyRedrawLines m cy 1 else pure m

def windowCopyUpdateCursor (m : CopyMode) (cx cy : ℕ) : Exec CopyMode := do
  let oldCx := m.cx
  let oldCy := m.cy
  let m ← redrawMarked { m with cx, cy } oldCx oldCy
  if m.cx = m.screen.grid.sx then windowCopyRedrawLines m m.cy 1 else moveCursor m m.cx m.cy

/-- The line of the backing grid that the cursor is in. -/
def backingRow (m : CopyMode) : Exec ℕ := usub (uadd m.backing.grid.hsize m.cy) m.oy

/-- The row of the screen that the selection starts in, limited to the screen. -/
def selectionRow (m : CopyMode) : Exec ℕ := do
  let ty ← usub m.backing.grid.hsize m.oy
  let last ← usub (uadd ty m.screen.grid.sy) 1
  if m.sely < ty then pure 0
  else if m.sely > last then usub m.screen.grid.sy 1
  else pure (m.sely - ty)

/-- Draw the rows between a row and the one of the cursor again. -/
def redrawTo (m : CopyMode) (sy : ℕ) : Exec CopyMode :=
  if sy < m.cy then windowCopyRedrawLines m sy (m.cy - sy + 1)
  else windowCopyRedrawLines m m.cy (sy - m.cy + 1)

/-- Adjust the selection to the cursor. Gives whether there is one. -/
def windowCopyUpdateSelection (m : CopyMode) : Exec (CopyMode × Bool) :=
  if !m.sel then pure (m, false)
  else do
    let row ← selectionRow m
    let sy := uadd m.screen.grid.hsize row
    if m.rectflag then do
      -- Can't rely on the caller to redraw the right lines for rectangle selection.
      let m ← redrawTo m sy
      pure (m, true)
    else pure (m, true)

def windowCopyStartSelection (m : CopyMode) : Exec CopyMode := do
  let sely ← backingRow m
  Prod.fst <$> windowCopyUpdateSelection { m with selx := m.cx, sely, sel := true }

/-- The number of columns up to the last one that is not blank of the first `px` ones of a line. -/
def trimBlanks (gd : Grid) (py : ℕ) : ℕ → Exec ℕ
  | 0 => pure 0
  | px + 1 => do
    let gc ← gridPeekCell gd px py
    if gc.isUtf8 ∨ gc.data ≠ 32 then pure (px + 1) else trimBlanks gd py px

/-- The length of a line of the backing grid, as far as it is on the screen and not blank. -/
def windowCopyFindLength (m : CopyMode) (py : ℕ) : Exec ℕ := do
  let gl ← Block.load m.backing.grid.linedata py
  trimBlanks m.backing.grid py (limit gl.celldata.length m.backing.grid.sx)

def windowCopyClearSelection (m : CopyMode) : Exec CopyMode := do
  let m := { m with sel := false }
  let py ← backingRow m
  let px ← windowCopyFindLength m py
  if m.cx > px then windowCopyUpdateCursor m px m.cy else pure m

/-! ## Entering copy mode -/

/-- Enter copy mode, the backing screen not being there yet. -/
def windowCopyInit (options : CopyOptions) (base : Screen) (modeMouse : Bool) : Exec CopyMode := do
  let s ← screenInit [] base.grid.sx base.grid.sy 0
  pure {
    options
    screen := if modeMouse then { s with mode := s.mode ||| modeMouseStandard } else s
    backing := base }

/-- The contents of the pane. -/
def windowCopyInitFromPane (m : CopyMode) (base : Screen) : Exec CopyMode := do
  let m := { m with backing := base, ofPane := true, cx := base.cx, cy := base.cy }
  let m := { m with screen := { m.screen with cx := m.cx, cy := m.cy } }
  let m ← (List.range m.screen.grid.sy).foldlM windowCopyWriteLine m
  moveCursor m m.cx m.cy

/-- The most lines the history of a screen for output has. -/
def outputLimit : ℕ := 4294967295

/-- An empty screen for the output of a command. -/
def windowCopyInitForOutput (m : CopyMode) (base : Screen) : Exec CopyMode := do
  let backing ← screenInit [] base.grid.sx base.grid.sy outputLimit
  pure { m with backing := { backing with mode := backing.mode &&& ~~~modeWrap }, ofPane := false }

end Tmux
