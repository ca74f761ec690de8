import Tmux.Library.Block

/-!
# Grids

A grid (`Grid`) is an array of lines of cells. The first `hsize` lines are the history,
the next `sy` ones are visible; lines are found by their absolute row. A line
(`GridLine`) has the cells written to it, those past its end being default ones, and
the UTF-8 data of some of them.

Rows are words: their sums and differences go round, and a row that is not one of
the grid is logged and nothing is done. The array itself is longer than the grid at
times; an access past its end faults.
-/

namespace Tmux

open Exec (uadd usub)

/-- Grid cell data. -/
structure GridCell where
  attr : UInt8 := 0
  flags : UInt8 := 0
  fg : UInt8 := 8
  bg : UInt8 := 8
  data : UInt8 := 32
  deriving DecidableEq, Repr

/-- Default grid cell data. -/
def gridDefaultCell : GridCell := {}

def gridAttrBright : UInt8 := 0x1
def gridAttrDim : UInt8 := 0x2
def gridAttrUnderscore : UInt8 := 0x4
def gridAttrBlink : UInt8 := 0x8
def gridAttrReverse : UInt8 := 0x10
def gridAttrHidden : UInt8 := 0x20
def gridAttrItalics : UInt8 := 0x40
/-- Alternative character set. -/
def gridAttrCharset : UInt8 := 0x80

def gridFlagFg256 : UInt8 := 0x1
def gridFlagBg256 : UInt8 := 0x2
def gridFlagPadding : UInt8 := 0x4
def gridFlagUtf8 : UInt8 := 0x8

/-- Whether a cell is padding. -/
def GridCell.isPadding (gc : GridCell) : Bool := gc.flags &&& gridFlagPadding != 0

/-- Whether a cell has UTF-8 data. -/
def GridCell.isUtf8 (gc : GridCell) : Bool := gc.flags &&& gridFlagUtf8 != 0

theorem flags_or (flags flag other : UInt8) : (flags ||| flag) &&& other = (flags &&& other) ||| (flag &&& other) := by
  rw [← UInt8.toBitVec_inj]
  exact BitVec.and_or_distrib_right

/-- Setting a flag keeps the others. -/
theorem flags_set {flag other : UInt8} (h : flag &&& other = 0) (flags : UInt8) :
    (flags ||| flag) &&& other = flags &&& other := by
  rw [flags_or, h, UInt8.or_zero]

/-- Clearing a flag keeps the others. -/
theorem flags_clear {flag other : UInt8} (h : flag &&& other = 0) (flags : UInt8) :
    flags &&& ~~~flag &&& other = flags &&& other := by
  have hnot : other = (flag ||| ~~~flag) &&& other := by rw [UInt8.or_not_self, UInt8.neg_one_and]
  rw [flags_or, h, UInt8.zero_or] at hnot
  rw [UInt8.and_assoc, ← hnot]

/-- Grid cell UTF-8 data, used instead of the data of a cell. Its bytes are those before the
    end of the data. -/
structure GridUtf8 where
  width : UInt8
  data : List UInt8
  deriving DecidableEq, Repr

structure GridLine where
  celldata : List GridCell := []
  /-- The UTF-8 data of the cells, as far as it was ever written. -/
  utf8data : List (Option GridUtf8) := []
  wrapped : Bool := false
  deriving DecidableEq, Repr

structure Grid where
  /-- Whether lines scroll into the history. -/
  history : Bool := true
  sx : ℕ
  sy : ℕ
  hsize : ℕ := 0
  hlimit : ℕ
  linedata : List GridLine
  deriving DecidableEq, Repr

/-- Whether a row is one of the grid. -/
def gridCheckY (gd : Grid) (py : ℕ) : Bool := py < uadd gd.hsize gd.sy

/-- Create a new grid. -/
def gridCreate (sx sy hlimit : ℕ) : Grid where
  sx
  sy
  hlimit
  linedata := List.replicate sy {}

/-! ## Clearing and moving lines -/

/-- Clear lines. -/
def gridClearLines (gd : Grid) (py ny : ℕ) : Exec Grid :=
  if ny = 0 then pure gd
  else if !gridCheckY gd py || !gridCheckY gd (uadd py (ny - 1)) then pure gd
  else do
    let linedata ← Block.fill {} (fun _ => true) gd.linedata py (uadd py ny - py)
    pure { gd with linedata }

/-- Move a group of lines. -/
def gridMoveLines (gd : Grid) (dy py ny : ℕ) : Exec Grid :=
  if ny = 0 ∨ py = dy then pure gd
  else if !gridCheckY gd py || !gridCheckY gd (uadd py (ny - 1)) || !gridCheckY gd dy ||
      !gridCheckY gd (uadd dy (ny - 1)) then pure gd
  else do
    -- Free any lines which are being replaced.
    let linedata ← Block.fill {} (fun yy => !(py ≤ yy && yy < uadd py ny)) gd.linedata dy
      (uadd dy ny - dy)
    let linedata ← Block.move linedata dy py ny
    -- Wipe any lines that have been moved.
    let linedata ← Block.fill {} (fun yy => !(dy ≤ yy && yy < uadd dy ny)) linedata py
      (uadd py ny - py)
    pure { gd with linedata }

/-! ## The history -/

/-- Collect lines from the history if at the limit: free the oldest tenth of it, and shift up. -/
def gridCollectHistory (gd : Grid) : Exec Grid :=
  if gd.hsize < gd.hlimit then pure gd
  else do
    let yy := if gd.hlimit / 10 < 1 then 1 else gd.hlimit / 10
    let ny ← usub (uadd gd.hsize gd.sy) yy
    let gd ← gridMoveLines gd 0 yy ny
    let hsize ← usub gd.hsize yy
    pure { gd with hsize }

/-- Scroll the entire visible screen, moving one line into the history: allocate a new line at
    the bottom and move the history size indicator. -/
def gridScrollHistory (gd : Grid) : Exec Grid := do
  let yy := uadd gd.hsize gd.sy
  let linedata ← Block.store (Block.resize {} gd.linedata (uadd yy 1)) yy {}
  pure { gd with linedata, hsize := uadd gd.hsize 1 }

/-- Scroll a region up, moving the top line into the history. -/
def gridScrollHistoryRegion (gd : Grid) (upper lower : ℕ) : Exec Grid := do
  -- Create a space for a new line, and move the entire screen down to free it.
  let linedata := Block.resize {} gd.linedata (uadd (uadd gd.hsize gd.sy) 1)
  let linedata ← Block.move linedata (gd.hsize + 1) gd.hsize gd.sy
  -- Adjust the region, and move the line into the history.
  let upper := uadd upper 1
  let lower := uadd lower 1
  let line ← Block.load linedata upper
  let linedata ← Block.store linedata gd.hsize line
  -- Then move the region up and clear the bottom line.
  let n ← usub lower upper
  let linedata ← Block.move linedata upper (upper + 1) n
  let linedata ← Block.store linedata lower {}
  pure { gd with linedata, hsize := uadd gd.hsize 1 }

/-! ## Cells -/

/-- Expand line to fit to cell. -/
def gridExpandLine (gl : GridLine) (sx : ℕ) : GridLine :=
  if sx ≤ gl.celldata.length then gl
  else { gl with celldata := Block.resize gridDefaultCell gl.celldata sx }

/-- Expand line to fit to cell for UTF-8. -/
def gridExpandLineUtf8 (gl : GridLine) (sx : ℕ) : GridLine :=
  if sx ≤ gl.utf8data.length then gl
  else { gl with utf8data := Block.resize none gl.utf8data sx }

/-- Update the line of a row. -/
def updateRow (gd : Grid) (py : ℕ) (f : GridLine → Exec GridLine) : Exec Grid := do
  let gl ← Block.load gd.linedata py
  let gl ← f gl
  let linedata ← Block.store gd.linedata py gl
  pure { gd with linedata }

/-- Put a cell in a line. -/
def gridPutCell (gl : GridLine) (px : ℕ) (gc : GridCell) : Exec GridLine := do
  let celldata ← Block.store gl.celldata px gc
  pure { gl with celldata }

/-- Put the UTF-8 data of a cell in a line. -/
def gridPutUtf8 (gl : GridLine) (px : ℕ) (gu : GridUtf8) : Exec GridLine := do
  let utf8data ← Block.store gl.utf8data px (some gu)
  pure { gl with utf8data }

/-- Get cell for reading. -/
def gridPeekCell (gd : Grid) (px py : ℕ) : Exec GridCell :=
  if !gridCheckY gd py then pure gridDefaultCell
  else do
    let gl ← Block.load gd.linedata py
    pure (gl.celldata[px]?.getD gridDefaultCell)

/-- Get cell for writing, if the row is one of the grid, the line being expanded to it. -/
def gridGetCell (gd : Grid) (px py : ℕ) : Exec (Option (Grid × GridCell)) :=
  if !gridCheckY gd py then pure none
  else do
    let gd ← updateRow gd py fun gl => pure (gridExpandLine gl (uadd px 1))
    let gl ← Block.load gd.linedata py
    let gc ← Block.load gl.celldata px
    pure (some (gd, gc))

/-- Set cell. -/
def gridSetCell (gd : Grid) (px py : ℕ) (gc : GridCell) : Exec Grid :=
  if !gridCheckY gd py then pure gd
  else updateRow gd py fun gl => gridPutCell (gridExpandLine gl (uadd px 1)) px gc

/-- Get UTF-8 for reading, if the row is one of the grid and the line reaches to it. -/
def gridPeekUtf8 (gd : Grid) (px py : ℕ) : Exec (Option (Option GridUtf8)) :=
  if !gridCheckY gd py then pure none
  else do
    let gl ← Block.load gd.linedata py
    pure gl.utf8data[px]?

/-- Get UTF-8 for writing, if the row is one of the grid, the line being expanded to it. -/
def gridGetUtf8 (gd : Grid) (px py : ℕ) : Exec (Option (Grid × Option GridUtf8)) :=
  if !gridCheckY gd py then pure none
  else do
    let gd ← updateRow gd py fun gl => pure (gridExpandLineUtf8 gl (uadd px 1))
    let gl ← Block.load gd.linedata py
    let gu ← Block.load gl.utf8data px
    pure (some (gd, gu))

/-- Set UTF-8. -/
def gridSetUtf8 (gd : Grid) (px py : ℕ) (gu : GridUtf8) : Exec Grid :=
  if !gridCheckY gd py then pure gd
  else updateRow gd py fun gl => gridPutUtf8 (gridExpandLineUtf8 gl (uadd px 1)) px gu

/-- Clear `nx` cells of a line from `px` on. -/
def clearCells (gl : GridLine) (px nx : ℕ) : Exec GridLine :=
  if px ≥ gl.celldata.length then pure gl
  else if uadd px nx ≥ gl.celldata.length then pure { gl with celldata := gl.celldata.take px }
  else do
    let celldata ← Block.fill gridDefaultCell (fun _ => true) gl.celldata px (uadd px nx - px)
    pure { gl with celldata }

/-- Clear area. -/
def gridClear (gd : Grid) (px py nx ny : ℕ) : Exec Grid :=
  if nx = 0 ∨ ny = 0 then pure gd
  else if px = 0 ∧ nx = gd.sx then gridClearLines gd py ny
  else if !gridCheckY gd py || !gridCheckY gd (uadd py (ny - 1)) then pure gd
  else (List.range' py (uadd py ny - py)).foldlM
    (fun gd yy => updateRow gd yy fun gl => clearCells gl px nx) gd

/-- Move the UTF-8 data of a group of cells of a line, if it has any. -/
def moveUtf8 (gl : GridLine) (dx px nx : ℕ) : Exec (List (Option GridUtf8)) :=
  if gl.utf8data = [] then pure []
  else
    let gl := gridExpandLineUtf8 (gridExpandLineUtf8 gl (uadd px nx)) (uadd dx nx)
    Block.move gl.utf8data dx px nx

/-- Move a group of cells of a line. -/
def moveCells (gl : GridLine) (dx px nx : ℕ) : Exec GridLine := do
  let gl := gridExpandLine (gridExpandLine gl (uadd px nx)) (uadd dx nx)
  let celldata ← Block.move gl.celldata dx px nx
  let utf8data ← moveUtf8 gl dx px nx
  -- Wipe any cells that have been moved.
  let celldata ← Block.fill gridDefaultCell (fun xx => !(dx ≤ xx && xx < uadd dx nx)) celldata px
    (uadd px nx - px)
  pure { gl with celldata, utf8data }

/-- Move a group of cells. -/
def gridMoveCells (gd : Grid) (dx px py nx : ℕ) : Exec Grid :=
  if nx = 0 ∨ px = dx then pure gd
  else if !gridCheckY gd py then pure gd
  else updateRow gd py fun gl => moveCells gl dx px nx

/-- Copy `n` lines of a grid from the row `sy` on to those of another one from `dy` on. -/
def copyLines (dst : Grid) (dy : ℕ) (src : Grid) (sy : ℕ) : ℕ → Exec Grid
  | 0 => pure dst
  | n + 1 => do
    let gl ← Block.load src.linedata sy
    let linedata ← Block.store dst.linedata dy gl
    copyLines { dst with linedata } (dy + 1) src (sy + 1) n

/-- The number of lines there are from a row on, if fewer than `ny`. -/
def limitLines (gd : Grid) (y ny : ℕ) : Exec ℕ :=
  if uadd y ny > uadd gd.hsize gd.sy then usub (uadd gd.hsize gd.sy) y else pure ny

/-- Duplicate a set of lines between two grids. If there aren't enough lines in either source or
    destination, the number of lines is limited to the number available. -/
def gridDuplicateLines (dst : Grid) (dy : ℕ) (src : Grid) (sy ny : ℕ) : Exec Grid := do
  let ny ← limitLines dst dy ny
  let ny ← limitLines src sy ny
  let dst ← gridClearLines dst dy ny
  copyLines dst dy src sy ny

end Tmux
