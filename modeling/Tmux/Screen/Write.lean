import Tmux.Screen.Screen
import Tmux.Utf8

/-!
# Writing to a screen

The operations on a screen that a program in it asks for: moving the cursor, writing
cells, inserting, deleting and clearing them, and scrolling. What they draw on the
terminals of the clients is left out.

A subtraction of columns that wraps is marked, one of rows is not.
-/

namespace Tmux

open Exec (uadd usub forget)

/-- A count of zero is one. -/
def atLeastOne (n : ℕ) : ℕ := if n = 0 then 1 else n

/-- A count limited to what there is. -/
def limit (n available : ℕ) : ℕ := if n > available then available else n

/-! ## Drawing -/

/-- Look for the last cell of the row of the cursor that is not padding, `n` more columns from the
    `xx`th last one on. Gives the last cell looked at and its column. -/
def lastCell (s : Screen) (gc : GridCell) : ℕ → ℕ → Exec (ℕ × GridCell)
  | 0, xx => pure (xx, gc)
  | n + 1, xx => do
    let px ← usub s.grid.sx xx
    let gc ← gridViewPeekCell s.grid px s.cy
    if !gc.isPadding then pure (xx, gc) else lastCell s gc n (xx + 1)

/-- Save the last cell on the screen for drawing. -/
def saveLast (s : Screen) : Exec Unit := do
  let (xx, gc) ← lastCell s gridDefaultCell s.grid.sx 1
  if gc.isUtf8 then do
    let px ← usub s.grid.sx xx
    let gu ← gridViewPeekUtf8 s.grid px s.cy
    let _ ← Exec.follow gu
    pure ()
  else pure ()

/-! ## Moving the cursor -/

/-- The number of rows the cursor can go up. -/
def rowsAbove (s : Screen) : Exec ℕ := if s.cy < s.rupper then pure s.cy else usub s.cy s.rupper

/-- Cursor up by ny. -/
def screenWriteCursorup (s : Screen) (ny : ℕ) : Exec Screen := do
  let available ← forget (rowsAbove s)
  let cy ← forget (usub s.cy (limit (atLeastOne ny) available))
  pure { s with cy }

/-- The number of rows the cursor can go down. -/
def rowsBelow (s : Screen) : Exec ℕ :=
  if s.cy > s.rlower then do
    let last ← usub s.grid.sy 1
    usub last s.cy
  else usub s.rlower s.cy

/-- Cursor down by ny. -/
def screenWriteCursordown (s : Screen) (ny : ℕ) : Exec Screen := do
  let available ← forget (rowsBelow s)
  pure { s with cy := uadd s.cy (limit (atLeastOne ny) available) }

/-- Cursor right by nx. -/
def screenWriteCursorright (s : Screen) (nx : ℕ) : Exec Screen := do
  let last ← usub s.grid.sx 1
  let available ← usub last s.cx
  pure { s with cx := uadd s.cx (limit (atLeastOne nx) available) }

/-- Cursor left by nx. -/
def screenWriteCursorleft (s : Screen) (nx : ℕ) : Exec Screen := do
  let cx ← usub s.cx (limit (atLeastOne nx) s.cx)
  pure { s with cx }

/-- Backspace; cursor left unless at start of wrapped line when can move up. -/
def screenWriteBackspace (s : Screen) : Exec Screen :=
  if s.cx = 0 then
    if s.cy = 0 then pure s
    else do
      let gl ← Block.load s.grid.linedata (gridViewY s.grid (s.cy - 1))
      if gl.wrapped then do
        let cx ← usub s.grid.sx 1
        pure { s with cx, cy := s.cy - 1 }
      else pure s
  else pure { s with cx := s.cx - 1 }

/-- Move cursor to px,py. -/
def screenWriteCursormove (s : Screen) (px py : ℕ) : Exec Screen := do
  let lastx ← usub s.grid.sx 1
  let lasty ← forget (usub s.grid.sy 1)
  pure { s with cx := limit px lastx, cy := limit py lasty }

/-- Carriage return (cursor to start of line). -/
def screenWriteCarriagereturn (s : Screen) : Screen := { s with cx := 0 }

/-! ## Modes -/

/-- Set cursor mode. -/
def screenWriteCursormode (s : Screen) (state : Bool) : Screen := s.setMode modeCursor state

/-- Set insert mode. -/
def screenWriteInsertmode (s : Screen) (state : Bool) : Screen := s.setMode modeInsert state

/-- Set UTF-8 mouse mode. -/
def screenWriteUtf8mousemode (s : Screen) (state : Bool) : Screen := s.setMode modeMouseUtf8 state

/-- Set mouse mode off. -/
def screenWriteMousemodeOff (s : Screen) : Screen := s.setMode allMouseModes false

/-- Set mouse mode on. -/
def screenWriteMousemodeOn (s : Screen) (mode : UInt16) : Screen :=
  (s.setMode allMouseModes false).setMode mode true

/-- Set bracketed paste mode. -/
def screenWriteBracketpaste (s : Screen) (state : Bool) : Screen := s.setMode modeBracketpaste state

/-- Set keypad cursor keys mode. -/
def screenWriteKcursormode (s : Screen) (state : Bool) : Screen := s.setMode modeKcursor state

/-- Set keypad number keys mode. -/
def screenWriteKkeypadmode (s : Screen) (state : Bool) : Screen := s.setMode modeKkeypad state

/-! ## Inserting and deleting -/

/-- Set the cells of the first `n` columns of a row. -/
def setCells (gd : Grid) (yy : ℕ) (gc : GridCell) (n : ℕ) : Exec Grid :=
  (List.range n).foldlM (fun gd xx => gridViewSetCell gd xx yy gc) gd

/-- VT100 alignment test. -/
def screenWriteAlignmenttest (s : Screen) : Exec Screen := do
  let grid ← (List.range s.grid.sy).foldlM
    (fun gd yy => setCells gd yy { gridDefaultCell with data := 69 } s.grid.sx) s.grid
  let rlower ← forget (usub s.grid.sy 1)
  pure { s with grid, cx := 0, cy := 0, rupper := 0, rlower }

/-- Insert or delete up to nx characters at the cursor, if it is not past the last column. -/
def editCharacters (f : Grid → ℕ → ℕ → ℕ → Exec Grid) (s : Screen) (nx : ℕ) : Exec Screen := do
  let available ← usub s.grid.sx s.cx
  let nx := limit (atLeastOne nx) available
  if nx = 0 then pure s
  else do
    let last ← usub s.grid.sx 1
    if s.cx ≤ last then do
      let grid ← f s.grid s.cx s.cy nx
      pure { s with grid }
    else pure s

/-- Insert nx characters. -/
def screenWriteInsertcharacter (s : Screen) (nx : ℕ) : Exec Screen :=
  editCharacters gridViewInsertCells s nx

/-- Delete nx characters. -/
def screenWriteDeletecharacter (s : Screen) (nx : ℕ) : Exec Screen :=
  editCharacters gridViewDeleteCells s nx

/-- Insert or delete up to ny lines at the cursor, in the scroll region if it is in it, or else
    on the screen. -/
def editLines (f : Grid → ℕ → ℕ → Exec Grid) (region : Grid → ℕ → ℕ → ℕ → Exec Grid) (s : Screen)
    (ny : ℕ) : Exec Screen :=
  if s.cy < s.rupper ∨ s.cy > s.rlower then do
    let available ← usub s.grid.sy s.cy
    let ny := limit (atLeastOne ny) available
    if ny = 0 then pure s
    else do
      let grid ← f s.grid s.cy ny
      pure { s with grid }
  else do
    let available ← usub (uadd s.rlower 1) s.cy
    let ny := limit (atLeastOne ny) available
    if ny = 0 then pure s
    else do
      let grid ← region s.grid s.rlower s.cy ny
      pure { s with grid }

/-- Insert ny lines. -/
def screenWriteInsertline (s : Screen) (ny : ℕ) : Exec Screen :=
  forget (editLines gridViewInsertLines gridViewInsertLinesRegion s ny)

/-- Delete ny lines. -/
def screenWriteDeleteline (s : Screen) (ny : ℕ) : Exec Screen :=
  forget (editLines gridViewDeleteLines gridViewDeleteLinesRegion s ny)

/-! ## Clearing -/

/-- Clear line at cursor. -/
def screenWriteClearline (s : Screen) : Exec Screen := do
  let grid ← gridViewClear s.grid 0 s.cy s.grid.sx 1
  pure { s with grid }

/-- Clear the grid from the cursor to the end of its row. -/
def clearRight (s : Screen) : Exec Grid := do
  let last ← usub s.grid.sx 1
  if s.cx ≤ last then do
    let nx ← usub s.grid.sx s.cx
    gridViewClear s.grid s.cx s.cy nx 1
  else pure s.grid

/-- Clear the row of the cursor in a grid from its start to the cursor. -/
def clearLeft (s : Screen) (gd : Grid) : Exec Grid := do
  let last ← usub s.grid.sx 1
  if s.cx > last then gridViewClear gd 0 s.cy s.grid.sx 1
  else gridViewClear gd 0 s.cy (uadd s.cx 1) 1

/-- Clear to end of line from cursor. -/
def screenWriteClearendofline (s : Screen) : Exec Screen := do
  let grid ← clearRight s
  pure { s with grid }

/-- Clear to start of line from cursor. -/
def screenWriteClearstartofline (s : Screen) : Exec Screen := do
  let grid ← clearLeft s s.grid
  pure { s with grid }

/-- Clear to end of screen from cursor. -/
def screenWriteClearendofscreen (s : Screen) : Exec Screen :=
  -- Scroll into history if it is enabled and clearing entire screen.
  if s.cy = 0 ∧ s.grid.history then do
    let grid ← forget (gridViewClearHistory s.grid)
    pure { s with grid }
  else do
    let grid ← clearRight s
    let ny ← forget (usub s.grid.sy (uadd s.cy 1))
    let grid ← gridViewClear grid 0 (uadd s.cy 1) s.grid.sx ny
    pure { s with grid }

/-- Clear to start of screen. -/
def screenWriteClearstartofscreen (s : Screen) : Exec Screen := do
  -- Clearing no rows does nothing.
  let grid ← gridViewClear s.grid 0 0 s.grid.sx s.cy
  let grid ← clearLeft s grid
  pure { s with grid }

/-- Clear entire screen. -/
def screenWriteClearscreen (s : Screen) : Exec Screen :=
  -- Scroll into history if it is enabled.
  if s.grid.history then do
    let grid ← forget (gridViewClearHistory s.grid)
    pure { s with grid }
  else do
    let grid ← gridViewClear s.grid 0 0 s.grid.sx s.grid.sy
    pure { s with grid }

/-- Clear entire history. -/
def screenWriteClearhistory (s : Screen) : Exec Screen := do
  let grid ← gridMoveLines s.grid 0 s.grid.hsize s.grid.sy
  pure { s with grid := { grid with hsize := 0 } }

/-! ## Scrolling -/

/-- Reverse index (up with scroll). -/
def screenWriteReverseindex (s : Screen) : Exec Screen :=
  if s.cy = s.rupper then do
    let grid ← forget (gridViewScrollRegionDown s.grid s.rupper s.rlower)
    pure { s with grid }
  else if s.cy > 0 then pure { s with cy := s.cy - 1 }
  else pure s

/-- Set scroll region. -/
def screenWriteScrollregion (s : Screen) (rupper rlower : ℕ) : Exec Screen := do
  let last ← forget (usub s.grid.sy 1)
  let rupper := limit rupper last
  let rlower := limit rlower last
  -- Cannot be one line.
  if rupper ≥ rlower then pure s
  else pure { s with cx := 0, cy := 0, rupper, rlower }

/-- Line feed. -/
def screenWriteLinefeed (s : Screen) (wrapped : Bool) : Exec Screen := do
  let gd ← updateRow s.grid (gridViewY s.grid s.cy) fun gl => pure { gl with wrapped }
  let last ← forget (usub s.grid.sy 1)
  if s.cy = s.rlower then do
    let grid ← forget (gridViewScrollRegionUp gd s.rupper s.rlower)
    pure { s with grid }
  else if s.cy < last then pure { s with grid := gd, cy := s.cy + 1 }
  else pure { s with grid := gd }

/-! ## UTF-8 data -/

/-- Calculate UTF-8 grid cell size. Data is terminated by 0xff. -/
def gridUtf8Size (gu : GridUtf8) : ℕ := (gu.data.takeWhile fun b => b ≠ 0xff).length

/-- The bytes of UTF-8 data, terminated if there is room. -/
def terminated (data : List UInt8) : List UInt8 := if data.length ≠ utf8Size then data ++ [0xff] else data

/-- Set UTF-8 grid data from input UTF-8. -/
def gridUtf8Set (utf8data : Utf8Data) : Exec GridUtf8 :=
  if utf8data.size = 0 then .fault .fatal
  else if utf8data.size > utf8Size then .fault .fatal
  else pure { width := UInt8.ofNat utf8data.width, data := terminated utf8data.data }

/-- Append UTF-8 character onto the cell data (for combined characters), if there is room. -/
def gridUtf8Append (gu : GridUtf8) (utf8data : Utf8Data) : Option GridUtf8 :=
  let oldSize := gridUtf8Size gu
  if oldSize + utf8data.size > utf8Size then none
  else some { gu with data := terminated (gu.data.take oldSize ++ utf8data.data) }

/-- Replace a character by underscores. -/
def scrapCharacter (gc : GridCell) (gu : GridUtf8) : GridCell × GridUtf8 :=
  if gu.width = 1 then ({ gc with data := 95, flags := gc.flags &&& ~~~gridFlagUtf8 }, gu)
  else
    let n := min gu.width.toNat utf8Size
    (gc, { width := UInt8.ofNat n, data := terminated (List.replicate n 95) })

/-- The cell before the cursor with UTF-8 data, converted to it if it has none. -/
def utf8Cell (gd : Grid) (px py : ℕ) (gc : GridCell) : Exec (Grid × GridCell) :=
  if gc.isUtf8 then pure (gd, gc)
  else do
    let gd ← gridViewSetUtf8 gd px py { width := 1, data := [gc.data, 0xff] }
    let gc := { gc with flags := gc.flags ||| gridFlagUtf8 }
    let gd ← gridViewSetCell gd px py gc
    pure (gd, gc)

/-- Put a character and its data back after a zero-width character is combined onto it. -/
def putCombined (gd : Grid) (px py : ℕ) (gc : GridCell) (gu : GridUtf8) (utf8data : Utf8Data) :
    Exec Grid :=
  match gridUtf8Append gu utf8data with
  | some gu => gridViewSetUtf8 gd px py gu
  | none => do
    -- Failed: scrap this character and replace with underscores.
    let gd ← gridViewSetCell gd px py (scrapCharacter gc gu).1
    gridViewSetUtf8 gd px py (scrapCharacter gc gu).2

/-- Combine a UTF-8 zero-width character onto the previous. -/
def screenWriteCombine (s : Screen) (utf8data : Utf8Data) : Exec Screen :=
  -- Can't combine if at 0.
  if s.cx = 0 then pure s
  -- Empty utf8data is out.
  else if utf8data.size = 0 then .fault .fatal
  else do
    -- Retrieve the previous cell and convert to UTF-8 if not already.
    let found ← gridViewGetCell s.grid (s.cx - 1) s.cy
    let (gd, gc) ← Exec.follow found
    let (gd, gc) ← utf8Cell gd (s.cx - 1) s.cy gc
    -- Append the current cell.
    let found ← gridViewGetUtf8 gd (s.cx - 1) s.cy
    let (gd, gu) ← Exec.follow found
    let gu ← Exec.follow gu
    let grid ← putCombined gd (s.cx - 1) s.cy gc gu utf8data
    pure { s with grid }

/-! ## Writing cells -/

/-- Clear padding from a column back to the character it belongs to. Gives its column. -/
def clearPadding (gd : Grid) (py : ℕ) : ℕ → Exec (Grid × ℕ)
  | 0 => pure (gd, 0)
  | xx + 1 => do
    let gc ← gridViewPeekCell gd (xx + 1) py
    if !gc.isPadding then pure (gd, xx + 1)
    else do
      let gd ← gridViewSetCell gd (xx + 1) py gridDefaultCell
      clearPadding gd py xx

/-- Clear padding from a column on, for at most `n` columns. -/
def clearPaddingAfter (gd : Grid) (py : ℕ) : ℕ → ℕ → Exec Grid
  | 0, _ => pure gd
  | n + 1, xx => do
    let gc ← gridViewPeekCell gd xx py
    if !gc.isPadding then pure gd
    else do
      let gd ← gridViewSetCell gd xx py gridDefaultCell
      clearPaddingAfter gd py n (xx + 1)

/-- Overwrite the character that a padding cell belongs to. -/
def overwritePadding (s : Screen) : Exec Grid := do
  let gc ← gridViewPeekCell s.grid s.cx s.cy
  if gc.isPadding then do
    let (gd, xx) ← clearPadding s.grid s.cy s.cx
    gridViewSetCell gd xx s.cy gridDefaultCell
  else pure s.grid

/-- Overwrite the other cells covered by characters that are overwritten at the cursor. -/
def screenWriteOverwrite (s : Screen) (width : ℕ) : Exec Screen := do
  let gd ← overwritePadding s
  let grid ← clearPaddingAfter gd s.cy (s.grid.sx - (s.cx + width)) (s.cx + width)
  pure { s with grid }

/-- Mark a column as padding. -/
def padCell (py : ℕ) (gd : Grid) (xx : ℕ) : Exec Grid := do
  match ← gridViewGetCell gd xx py with
  | none => pure gd
  | some (gd, gc) => gridViewSetCell gd xx py { gc with flags := gc.flags ||| gridFlagPadding }

/-- Put a cell, and its UTF-8 data if it has any, at a column. -/
def putCharacter (gd : Grid) (px py : ℕ) (gc : GridCell) (utf8data : Option Utf8Data) : Exec Grid := do
  let gd ← gridViewSetCell gd px py gc
  if gc.isUtf8 then do
    let utf8data ← Exec.follow utf8data
    let gu ← gridUtf8Set utf8data
    gridViewSetUtf8 gd px py gu
  else pure gd

/-- Write a character at the cursor. -/
def drawCharacter (s : Screen) (gc : GridCell) (utf8data : Option Utf8Data) (width : ℕ) : Exec Screen := do
  let s ← screenWriteOverwrite s width
  -- If the new character is UTF-8 wide, fill in padding cells.
  let gd ← (List.range' (s.cx + 1) (width - 1)).foldlM (padCell s.cy) s.grid
  let grid ← putCharacter gd s.cx s.cy gc utf8data
  -- Move the cursor.
  pure { s with grid, cx := uadd s.cx width }

/-- If in insert mode, make space for the cells. -/
def insertSpace (s : Screen) (width : ℕ) : Exec Screen :=
  if s.hasMode modeInsert then do
    let last ← usub s.grid.sx width
    if s.cx ≤ last then do
      let xx ← usub s.grid.sx s.cx
      let xx ← usub xx width
      let grid ← gridMoveCells s.grid (uadd s.cx width) s.cx s.cy xx
      pure { s with grid }
    else pure s
  else pure s

/-- Whether lines wrap and a character will not fit on the current line. -/
def overflows (s : Screen) (width : ℕ) : Exec Bool :=
  if s.hasMode modeWrap then do
    let last ← usub s.grid.sx width
    pure (s.cx > last)
  else pure false

/-- Wrap if a character will not fit on the current line. -/
def wrapLine (s : Screen) (width : ℕ) : Exec Screen := do
  if ← overflows s width then do
    let s ← screenWriteLinefeed s true
    pure { s with cx := 0 }
  else pure s

/-- Whether lines do not wrap and there is no room on the screen for an entire wide character. -/
def lacksRoom (s : Screen) (width : ℕ) : Exec Bool :=
  if s.hasMode modeWrap ∨ width ≤ 1 then pure false
  else if width > s.grid.sx then pure true
  else if s.cx = s.grid.sx then pure false
  else do
    let last ← usub s.grid.sx width
    pure (s.cx > last)

/-- Write a character of a width at the cursor, wrapping if it does not fit. -/
def writeCharacter (s : Screen) (gc : GridCell) (utf8data : Option Utf8Data) (width : ℕ) :
    Exec Screen := do
  saveLast s
  let s ← insertSpace s width
  let s ← wrapLine s width
  -- Sanity checks.
  let spills ← overflows s width
  let last ← forget (usub s.grid.sy 1)
  if spills ∨ s.cy > last then pure s
  else drawCharacter s gc utf8data width

/-- The width of a character. -/
def characterWidth (gc : GridCell) (utf8data : Option Utf8Data) : Exec ℕ :=
  if gc.isUtf8 then do
    let utf8data ← Exec.follow utf8data
    pure utf8data.width
  else pure 1

/-- Write cell data. -/
def screenWriteCell (s : Screen) (gc : GridCell) (utf8data : Option Utf8Data) : Exec Screen :=
  -- Ignore padding.
  if gc.isPadding then pure s
  else do
    let width ← characterWidth gc utf8data
    let full ← lacksRoom s width
    if full then pure s
    -- If the width is zero, combine onto the previous character.
    else if width = 0 then do
      let utf8data ← Exec.follow utf8data
      screenWriteCombine s utf8data
    else writeCharacter s gc utf8data width

/-- Reset screen state. -/
def screenWriteReset (s : Screen) : Exec Screen := do
  let s := screenResetTabs s
  let last ← forget (usub s.grid.sy 1)
  let s ← screenWriteScrollregion s 0 last
  let s := screenWriteInsertmode s false
  let s := screenWriteKcursormode s false
  let s := screenWriteKkeypadmode s false
  let s := screenWriteMousemodeOff s
  let s ← screenWriteClearscreen s
  screenWriteCursormove s 0 0

end Tmux
