import Tmux.Grid.Grid

/-!
# Views of grids

The operations on a grid which work using coordinates relative to the visible screen
area: a row of the screen is `hsize` lines further down in the grid.
-/

namespace Tmux

open Exec (uadd usub)

/-- The row of the grid that a row of the screen is. -/
def gridViewY (gd : Grid) (y : ℕ) : ℕ := uadd gd.hsize y

/-- Get cell for reading. -/
def gridViewPeekCell (gd : Grid) (px py : ℕ) : Exec GridCell := gridPeekCell gd px (gridViewY gd py)

/-- Get cell for writing. -/
def gridViewGetCell (gd : Grid) (px py : ℕ) : Exec (Option (Grid × GridCell)) :=
  gridGetCell gd px (gridViewY gd py)

/-- Set cell. -/
def gridViewSetCell (gd : Grid) (px py : ℕ) (gc : GridCell) : Exec Grid :=
  gridSetCell gd px (gridViewY gd py) gc

/-- Get UTF-8 for reading. -/
def gridViewPeekUtf8 (gd : Grid) (px py : ℕ) : Exec (Option (Option GridUtf8)) :=
  gridPeekUtf8 gd px (gridViewY gd py)

/-- Get UTF-8 for writing. -/
def gridViewGetUtf8 (gd : Grid) (px py : ℕ) : Exec (Option (Grid × Option GridUtf8)) :=
  gridGetUtf8 gd px (gridViewY gd py)

/-- Set UTF-8. -/
def gridViewSetUtf8 (gd : Grid) (px py : ℕ) (gu : GridUtf8) : Exec Grid :=
  gridSetUtf8 gd px (gridViewY gd py) gu

/-- The number of rows up to the last used one of the first `n`. -/
def lastUsed (gd : Grid) : ℕ → Exec ℕ
  | 0 => pure 0
  | n + 1 => do
    let last ← lastUsed gd n
    let gl ← Block.load gd.linedata (gridViewY gd n)
    pure (if gl.celldata.length ≠ 0 ∨ gl.utf8data.length ≠ 0 then n + 1 else last)

/-- Scroll `n` lines into the history. -/
def scrollLines (gd : Grid) : ℕ → Exec Grid
  | 0 => pure gd
  | n + 1 => do
    let gd ← gridCollectHistory gd
    let gd ← gridScrollHistory gd
    scrollLines gd n

/-- Clear into history. -/
def gridViewClearHistory (gd : Grid) : Exec Grid := do
  let last ← lastUsed gd gd.sy
  scrollLines gd last

/-- Clear area. -/
def gridViewClear (gd : Grid) (px py nx ny : ℕ) : Exec Grid := gridClear gd px (gridViewY gd py) nx ny

/-- Scroll region up. -/
def gridViewScrollRegionUp (gd : Grid) (rupper rlower : ℕ) : Exec Grid :=
  if gd.history then do
    let gd ← gridCollectHistory gd
    let bottom ← usub gd.sy 1
    if rupper = 0 ∧ rlower = bottom then gridScrollHistory gd
    else gridScrollHistoryRegion gd (gridViewY gd rupper) (gridViewY gd rlower)
  else do
    let ny ← usub (gridViewY gd rlower) (gridViewY gd rupper)
    gridMoveLines gd (gridViewY gd rupper) (uadd (gridViewY gd rupper) 1) ny

/-- Scroll region down. -/
def gridViewScrollRegionDown (gd : Grid) (rupper rlower : ℕ) : Exec Grid := do
  let ny ← usub (gridViewY gd rlower) (gridViewY gd rupper)
  gridMoveLines gd (uadd (gridViewY gd rupper) 1) (gridViewY gd rupper) ny

/-- Insert lines. -/
def gridViewInsertLines (gd : Grid) (py ny : ℕ) : Exec Grid := do
  let py := gridViewY gd py
  let sy := gridViewY gd gd.sy
  let n ← usub sy py
  let n ← usub n ny
  gridMoveLines gd (uadd py ny) py n

/-- Insert lines in region. -/
def gridViewInsertLinesRegion (gd : Grid) (rlower py ny : ℕ) : Exec Grid := do
  let rlower := gridViewY gd rlower
  let py := gridViewY gd py
  let n ← usub (uadd rlower 1) py
  let ny2 ← usub n ny
  let dy ← usub (uadd rlower 1) ny2
  let gd ← gridMoveLines gd dy py ny2
  let n ← usub ny ny2
  gridClear gd 0 (uadd py ny2) gd.sx n

/-- Delete lines. -/
def gridViewDeleteLines (gd : Grid) (py ny : ℕ) : Exec Grid := do
  let py := gridViewY gd py
  let sy := gridViewY gd gd.sy
  let n ← usub sy py
  let n ← usub n ny
  let gd ← gridMoveLines gd py (uadd py ny) n
  let sy ← usub sy ny
  let n ← usub (uadd py ny) sy
  gridClear gd 0 sy gd.sx n

/-- Delete lines inside scroll region. -/
def gridViewDeleteLinesRegion (gd : Grid) (rlower py ny : ℕ) : Exec Grid := do
  let rlower := gridViewY gd rlower
  let py := gridViewY gd py
  let n ← usub (uadd rlower 1) py
  let ny2 ← usub n ny
  let gd ← gridMoveLines gd py (uadd py ny) ny2
  let n ← usub ny ny2
  gridClear gd 0 (uadd py ny2) gd.sx n

/-- Insert characters. -/
def gridViewInsertCells (gd : Grid) (px py nx : ℕ) : Exec Grid := do
  let py := gridViewY gd py
  let last ← usub gd.sx 1
  if px = last then gridClear gd px py 1 1
  else do
    let n ← usub gd.sx px
    let n ← usub n nx
    gridMoveCells gd (uadd px nx) px py n

/-- Delete characters. -/
def gridViewDeleteCells (gd : Grid) (px py nx : ℕ) : Exec Grid := do
  let py := gridViewY gd py
  let n ← usub gd.sx px
  let n ← usub n nx
  let gd ← gridMoveCells gd px (uadd px nx) py n
  let sx ← usub gd.sx nx
  let n ← usub (uadd px nx) sx
  gridClear gd sx py n 1

end Tmux
