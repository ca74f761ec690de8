import Tmux.Grid.Data
import Tmux.Library.Heap

/-!
# The arrays of lines

A line points to two arrays, one with its cells and one with their UTF-8 data. Here the lines
(`OwnedLine`) have these pointers as well as what the arrays hold, and the operations on a grid
of such lines (`OwnedGrid`) allocate, reallocate, use and release arrays on a heap, as they copy
and wipe lines. The pointer to an array is not null when the size of the array is not zero, but
it may be when it is: clearing the cells of a line to its end only changes the size.

What the operations do to the lines otherwise is what the operations on grids do
(`gridMoveLines_erases` and so on): they are those with pointers added.
-/

namespace Tmux

open Exec (Meets Refines uadd usub)

/-- A line with the pointers to its arrays. -/
structure OwnedLine extends GridLine where
  /-- The array of the cells. -/
  cells : Option ℕ := none
  /-- The array of their UTF-8 data. -/
  utf8 : Option ℕ := none
  deriving DecidableEq, Repr

/-- The arrays that a line points to. -/
def OwnedLine.arrays (gl : OwnedLine) : List ℕ := gl.cells.toList ++ gl.utf8.toList

/-- The pointers of a line to arrays that are not empty are not null, and that to its UTF-8 data is
    null if there is none. -/
structure OwnedLine.Sized (gl : OwnedLine) : Prop where
  cells : gl.celldata ≠ [] → gl.cells ≠ none
  utf8 : gl.utf8data = [] ↔ gl.utf8 = none

/-- A grid of lines with pointers. -/
structure OwnedGrid where
  history : Bool := true
  sx : ℕ
  sy : ℕ
  hsize : ℕ := 0
  hlimit : ℕ
  linedata : List OwnedLine
  deriving DecidableEq, Repr

/-- The grid without the pointers. -/
def OwnedGrid.erase (gd : OwnedGrid) : Grid where
  history := gd.history
  sx := gd.sx
  sy := gd.sy
  hsize := gd.hsize
  hlimit := gd.hlimit
  linedata := gd.linedata.map OwnedLine.toGridLine

namespace Arrays

/-- Create a new grid. -/
def gridCreate (sx sy hlimit : ℕ) : OwnedGrid where
  sx
  sy
  hlimit
  linedata := List.replicate sy {}

/-! ## Clearing and moving lines -/

/-- Free the arrays of a line. -/
def freeLine (h : Heap) (gl : OwnedLine) : Exec Heap := do
  let h ← h.free gl.cells
  h.free gl.utf8

/-- Free and wipe those of `n` lines from `i` on that pass a test. -/
def freeLines (p : ℕ → Bool) (h : Heap) (l : List OwnedLine) (i n : ℕ) : Exec (Heap × List OwnedLine) :=
  (List.range' i n).foldlM (fun q k =>
    if p k then do
      let gl ← Block.load q.2 k
      let h ← freeLine q.1 gl
      let l ← Block.store q.2 k {}
      pure (h, l)
    else pure q) (h, l)

/-- Clear lines. -/
def gridClearLines (h : Heap) (gd : OwnedGrid) (py ny : ℕ) : Exec (Heap × OwnedGrid) :=
  if ny = 0 then pure (h, gd)
  else if !gridCheckY gd.erase py || !gridCheckY gd.erase (uadd py (ny - 1)) then pure (h, gd)
  else do
    let (h, linedata) ← freeLines (fun _ => true) h gd.linedata py (uadd py ny - py)
    pure (h, { gd with linedata })

/-- Move a group of lines. -/
def gridMoveLines (h : Heap) (gd : OwnedGrid) (dy py ny : ℕ) : Exec (Heap × OwnedGrid) :=
  if ny = 0 ∨ py = dy then pure (h, gd)
  else if !gridCheckY gd.erase py || !gridCheckY gd.erase (uadd py (ny - 1)) || !gridCheckY gd.erase dy ||
      !gridCheckY gd.erase (uadd dy (ny - 1)) then pure (h, gd)
  else do
    -- Free any lines which are being replaced.
    let (h, linedata) ← freeLines (fun yy => !(py ≤ yy && yy < uadd py ny)) h gd.linedata dy (uadd dy ny - dy)
    let linedata ← Block.move linedata dy py ny
    -- Wipe any lines that have been moved, without freeing them.
    let linedata ← Block.fill {} (fun yy => !(dy ≤ yy && yy < uadd dy ny)) linedata py (uadd py ny - py)
    pure (h, { gd with linedata })

/-- Destroy grid. -/
def gridDestroy (h : Heap) (gd : OwnedGrid) : Exec Heap :=
  (List.range (uadd gd.hsize gd.sy)).foldlM (fun h yy => do
    let gl ← Block.load gd.linedata yy
    freeLine h gl) h

/-! ## The history -/

/-- Collect lines from the history if at the limit. -/
def gridCollectHistory (h : Heap) (gd : OwnedGrid) : Exec (Heap × OwnedGrid) :=
  if gd.hsize < gd.hlimit then pure (h, gd)
  else do
    let yy := if gd.hlimit / 10 < 1 then 1 else gd.hlimit / 10
    let ny ← usub (uadd gd.hsize gd.sy) yy
    let (h, gd) ← gridMoveLines h gd 0 yy ny
    let hsize ← usub gd.hsize yy
    pure (h, { gd with hsize })

/-- Scroll the entire visible screen, moving one line into the history. -/
def gridScrollHistory (gd : OwnedGrid) : Exec OwnedGrid := do
  let yy := uadd gd.hsize gd.sy
  let linedata ← Block.store (Block.resize {} gd.linedata (uadd yy 1)) yy {}
  pure { gd with linedata, hsize := uadd gd.hsize 1 }

/-- Scroll a region up, moving the top line into the history. -/
def gridScrollHistoryRegion (gd : OwnedGrid) (upper lower : ℕ) : Exec OwnedGrid := do
  let linedata := Block.resize {} gd.linedata (uadd (uadd gd.hsize gd.sy) 1)
  let linedata ← Block.move linedata (gd.hsize + 1) gd.hsize gd.sy
  let upper := uadd upper 1
  let lower := uadd lower 1
  let line ← Block.load linedata upper
  let linedata ← Block.store linedata gd.hsize line
  let n ← usub lower upper
  let linedata ← Block.move linedata upper (upper + 1) n
  let linedata ← Block.store linedata lower {}
  pure { gd with linedata, hsize := uadd gd.hsize 1 }

/-- Scroll region up. -/
def gridViewScrollRegionUp (h : Heap) (gd : OwnedGrid) (rupper rlower : ℕ) : Exec (Heap × OwnedGrid) :=
  if gd.history then do
    let (h, gd) ← gridCollectHistory h gd
    let bottom ← usub gd.sy 1
    if rupper = 0 ∧ rlower = bottom then do
      let gd ← gridScrollHistory gd
      pure (h, gd)
    else do
      let gd ← gridScrollHistoryRegion gd (uadd gd.hsize rupper) (uadd gd.hsize rlower)
      pure (h, gd)
  else do
    let ny ← usub (uadd gd.hsize rlower) (uadd gd.hsize rupper)
    gridMoveLines h gd (uadd gd.hsize rupper) (uadd (uadd gd.hsize rupper) 1) ny

/-! ## Cells -/

/-- Expand line to fit to cell. -/
def gridExpandLine (h : Heap) (gl : OwnedLine) (sx : ℕ) : Exec (Heap × OwnedLine) :=
  if sx ≤ gl.celldata.length then pure (h, gl)
  else do
    let (h, id) ← h.realloc gl.cells
    pure (h, { gl with toGridLine := Tmux.gridExpandLine gl.toGridLine sx, cells := some id })

/-- Expand line to fit to cell for UTF-8. -/
def gridExpandLineUtf8 (h : Heap) (gl : OwnedLine) (sx : ℕ) : Exec (Heap × OwnedLine) :=
  if sx ≤ gl.utf8data.length then pure (h, gl)
  else do
    let (h, id) ← h.realloc gl.utf8
    pure (h, { gl with toGridLine := Tmux.gridExpandLineUtf8 gl.toGridLine sx, utf8 := some id })

/-- Update the line of a row. -/
def updateRow (h : Heap) (gd : OwnedGrid) (py : ℕ) (f : Heap → OwnedLine → Exec (Heap × OwnedLine)) :
    Exec (Heap × OwnedGrid) := do
  let gl ← Block.load gd.linedata py
  let (h, gl) ← f h gl
  let linedata ← Block.store gd.linedata py gl
  pure (h, { gd with linedata })

/-- Put a cell in a line. -/
def gridPutCell (h : Heap) (gl : OwnedLine) (px : ℕ) (gc : GridCell) : Exec (Heap × OwnedLine) := do
  h.access gl.cells
  let line ← Tmux.gridPutCell gl.toGridLine px gc
  pure (h, { gl with toGridLine := line })

/-- Put the UTF-8 data of a cell in a line. -/
def gridPutUtf8 (h : Heap) (gl : OwnedLine) (px : ℕ) (gu : GridUtf8) : Exec (Heap × OwnedLine) := do
  h.access gl.utf8
  let line ← Tmux.gridPutUtf8 gl.toGridLine px gu
  pure (h, { gl with toGridLine := line })

/-- Set cell. -/
def gridSetCell (h : Heap) (gd : OwnedGrid) (px py : ℕ) (gc : GridCell) : Exec (Heap × OwnedGrid) :=
  if !gridCheckY gd.erase py then pure (h, gd)
  else updateRow h gd py fun h gl => do
    let (h, gl) ← gridExpandLine h gl (uadd px 1)
    gridPutCell h gl px gc

/-- Set UTF-8. -/
def gridSetUtf8 (h : Heap) (gd : OwnedGrid) (px py : ℕ) (gu : GridUtf8) : Exec (Heap × OwnedGrid) :=
  if !gridCheckY gd.erase py then pure (h, gd)
  else updateRow h gd py fun h gl => do
    let (h, gl) ← gridExpandLineUtf8 h gl (uadd px 1)
    gridPutUtf8 h gl px gu

/-- Clear `nx` cells of a line from `px` on. Up to its end, only the size of the line changes. -/
def clearCells (px nx : ℕ) (h : Heap) (gl : OwnedLine) : Exec (Heap × OwnedLine) :=
  if px ≥ gl.celldata.length then pure (h, gl)
  else if uadd px nx ≥ gl.celldata.length then
    pure (h, { gl with toGridLine := { gl.toGridLine with celldata := gl.celldata.take px } })
  else do
    h.access gl.cells
    let celldata ← Block.fill gridDefaultCell (fun _ => true) gl.celldata px (uadd px nx - px)
    pure (h, { gl with toGridLine := { gl.toGridLine with celldata } })

/-- Clear area. -/
def gridClear (h : Heap) (gd : OwnedGrid) (px py nx ny : ℕ) : Exec (Heap × OwnedGrid) :=
  if nx = 0 ∨ ny = 0 then pure (h, gd)
  else if px = 0 ∧ nx = gd.sx then gridClearLines h gd py ny
  else if !gridCheckY gd.erase py || !gridCheckY gd.erase (uadd py (ny - 1)) then pure (h, gd)
  else (List.range' py (uadd py ny - py)).foldlM (fun q yy => updateRow q.1 q.2 yy (clearCells px nx)) (h, gd)

/-- Move the UTF-8 data of a group of cells of a line, if it has any. -/
def moveUtf8 (h : Heap) (gl : OwnedLine) (dx px nx : ℕ) : Exec (Heap × OwnedLine) :=
  if gl.utf8 = none then pure (h, gl)
  else do
    let (h, gl) ← gridExpandLineUtf8 h gl (uadd px nx)
    let (h, gl) ← gridExpandLineUtf8 h gl (uadd dx nx)
    h.access gl.utf8
    let utf8data ← Block.move gl.utf8data dx px nx
    pure (h, { gl with toGridLine := { gl.toGridLine with utf8data } })

/-- Move a group of cells of a line that is long enough. -/
def shiftCells (dx px nx : ℕ) (h : Heap) (gl : OwnedLine) : Exec (Heap × OwnedLine) := do
  h.access gl.cells
  let celldata ← Block.move gl.celldata dx px nx
  let (h, gl) ← moveUtf8 h gl dx px nx
  -- Wipe any cells that have been moved.
  let celldata ← Block.fill gridDefaultCell (fun xx => !(dx ≤ xx && xx < uadd dx nx)) celldata px
    (uadd px nx - px)
  pure (h, { gl with toGridLine := { gl.toGridLine with celldata } })

/-- Move a group of cells of a line. -/
def moveCells (dx px nx : ℕ) (h : Heap) (gl : OwnedLine) : Exec (Heap × OwnedLine) := do
  let (h, gl) ← gridExpandLine h gl (uadd px nx)
  let (h, gl) ← gridExpandLine h gl (uadd dx nx)
  shiftCells dx px nx h gl

/-- Move a group of cells. -/
def gridMoveCells (h : Heap) (gd : OwnedGrid) (dx px py nx : ℕ) : Exec (Heap × OwnedGrid) :=
  if nx = 0 ∨ px = dx then pure (h, gd)
  else if !gridCheckY gd.erase py then pure (h, gd)
  else updateRow h gd py (moveCells dx px nx)

/-! ## Copying lines -/

/-- Copy an array, if its size is not zero. Otherwise the pointer to it is copied. -/
def copyArray (h : Heap) (size : ℕ) (p : Option ℕ) : Exec (Heap × Option ℕ) :=
  if size = 0 then pure (h, p)
  else do
    h.access p
    pure (h.alloc.1, some h.alloc.2)

/-- Copy a line with its arrays. -/
def copyLine (h : Heap) (srcl : OwnedLine) : Exec (Heap × OwnedLine) := do
  let (h, cells) ← copyArray h srcl.celldata.length srcl.cells
  let (h, utf8) ← copyArray h srcl.utf8data.length srcl.utf8
  pure (h, { srcl with cells, utf8 })

/-- Copy `n` lines of a grid from the row `sy` on to those of another one from `dy` on. -/
def copyLines (h : Heap) (dst : OwnedGrid) (dy : ℕ) (src : OwnedGrid) (sy : ℕ) : ℕ → Exec (Heap × OwnedGrid)
  | 0 => pure (h, dst)
  | n + 1 => do
    let srcl ← Block.load src.linedata sy
    let (h, dstl) ← copyLine h srcl
    let linedata ← Block.store dst.linedata dy dstl
    copyLines h { dst with linedata } (dy + 1) src (sy + 1) n

/-- Duplicate a set of lines between two grids. -/
def gridDuplicateLines (h : Heap) (dst : OwnedGrid) (dy : ℕ) (src : OwnedGrid) (sy ny : ℕ) :
    Exec (Heap × OwnedGrid) := do
  let ny ← limitLines dst.erase dy ny
  let ny ← limitLines src.erase sy ny
  let (h, dst) ← gridClearLines h dst dy ny
  copyLines h dst dy src sy ny

/-! ## Without the pointers -/

/-- A grid that an operation has left, without the pointers. -/
def erased (q : Heap × OwnedGrid) : Grid := q.2.erase

/-- A line that an operation has left, without the pointers. -/
def strip (q : Heap × OwnedLine) : GridLine := q.2.toGridLine

variable (h : Heap) (gd dst src : OwnedGrid) (gl : OwnedLine)

theorem freeLines_erases (p : ℕ → Bool) (l : List OwnedLine) (i n : ℕ) :
    Refines (fun q => q.2.map OwnedLine.toGridLine) (freeLines p h l i n)
      (Block.fill {} p (l.map OwnedLine.toGridLine) i n) := by
  unfold freeLines Block.fill
  refine Refines.foldlM (f := fun q : Heap × List OwnedLine => q.2.map OwnedLine.toGridLine) (fun q k => ?_) _ (h, l)
  split_ifs
  · refine .skip fun gl _ => .skip fun h₁ _ => ?_
    exact (Block.store_refines OwnedLine.toGridLine q.2 k {}).map fun _ => rfl
  · exact .pure rfl

theorem gridClearLines_erases (py ny : ℕ) :
    Refines erased (gridClearLines h gd py ny) (Tmux.gridClearLines gd.erase py ny) := by
  unfold gridClearLines Tmux.gridClearLines
  split_ifs
  · exact .pure rfl
  · exact .pure rfl
  · exact (freeLines_erases h _ gd.linedata _ _).bind fun q _ => .pure rfl

theorem gridMoveLines_erases (dy py ny : ℕ) :
    Refines erased (gridMoveLines h gd dy py ny) (Tmux.gridMoveLines gd.erase dy py ny) := by
  unfold gridMoveLines Tmux.gridMoveLines
  split_ifs
  · exact .pure rfl
  · exact .pure rfl
  · refine (freeLines_erases h _ gd.linedata _ _).bind fun q _ => ?_
    refine (Block.move_refines OwnedLine.toGridLine q.2 _ _ _).bind fun l₁ _ => ?_
    exact (Block.fill_refines OwnedLine.toGridLine {} _ l₁ _ _).bind fun l₂ _ => .pure rfl

theorem usub_refines (a b : ℕ) : Refines id (usub a b) (usub a b) := fun _ h => h

theorem gridCollectHistory_erases : Refines erased (gridCollectHistory h gd) (Tmux.gridCollectHistory gd.erase) := by
  by_cases hroom : gd.hsize < gd.hlimit
  · rw [gridCollectHistory, Tmux.gridCollectHistory, if_pos hroom, if_pos (show gd.erase.hsize < gd.erase.hlimit from hroom)]
    exact .pure rfl
  · rw [gridCollectHistory, Tmux.gridCollectHistory, if_neg hroom,
      if_neg (show ¬ gd.erase.hsize < gd.erase.hlimit from hroom)]
    refine (usub_refines _ _).bind fun ny _ => (gridMoveLines_erases h gd _ _ _).bind fun q _ => ?_
    exact (usub_refines _ _).bind fun hsize _ => .pure rfl

theorem gridScrollHistory_erases : Refines OwnedGrid.erase (gridScrollHistory gd) (Tmux.gridScrollHistory gd.erase) := by
  unfold gridScrollHistory Tmux.gridScrollHistory
  have hstore := Block.store_refines OwnedLine.toGridLine (Block.resize {} gd.linedata (uadd (uadd gd.hsize gd.sy) 1))
    (uadd gd.hsize gd.sy) {}
  rw [Block.map_resize] at hstore
  exact hstore.bind fun l _ => .pure rfl

theorem gridScrollHistoryRegion_erases (upper lower : ℕ) :
    Refines OwnedGrid.erase (gridScrollHistoryRegion gd upper lower)
      (Tmux.gridScrollHistoryRegion gd.erase upper lower) := by
  unfold gridScrollHistoryRegion Tmux.gridScrollHistoryRegion
  have hmove := Block.move_refines OwnedLine.toGridLine
    (Block.resize {} gd.linedata (uadd (uadd gd.hsize gd.sy) 1)) (gd.hsize + 1) gd.hsize gd.sy
  rw [Block.map_resize] at hmove
  refine hmove.bind fun l₁ _ => (Block.load_refines OwnedLine.toGridLine l₁ _).bind fun line _ => ?_
  refine (Block.store_refines OwnedLine.toGridLine l₁ _ line).bind fun l₂ _ => (usub_refines _ _).bind fun n _ => ?_
  refine (Block.move_refines OwnedLine.toGridLine l₂ _ _ _).bind fun l₃ _ => ?_
  exact (Block.store_refines OwnedLine.toGridLine l₃ _ {}).bind fun l₄ _ => .pure rfl

theorem gridViewScrollRegionUp_erases (rupper rlower : ℕ) :
    Refines erased (gridViewScrollRegionUp h gd rupper rlower) (Tmux.gridViewScrollRegionUp gd.erase rupper rlower) := by
  unfold gridViewScrollRegionUp Tmux.gridViewScrollRegionUp
  by_cases hon : gd.history = true
  · rw [if_pos hon, if_pos (show gd.erase.history = true from hon)]
    refine (gridCollectHistory_erases h gd).bind fun q _ => (usub_refines _ _).bind fun bottom _ => ?_
    dsimp only [id]
    split_ifs
    · exact (gridScrollHistory_erases q.2).map fun _ => rfl
    · exact (gridScrollHistoryRegion_erases q.2 _ _).map fun _ => rfl
  · rw [if_neg hon, if_neg (show ¬ gd.erase.history = true from hon)]
    exact (usub_refines _ _).bind fun ny _ => gridMoveLines_erases h gd _ _ _

/-! ### Cells -/

theorem gridExpandLine_strips (n : ℕ) :
    Refines strip (gridExpandLine h gl n) (pure (Tmux.gridExpandLine gl.toGridLine n)) := by
  unfold gridExpandLine
  split_ifs with hn
  · exact .pure (by rw [strip, Tmux.gridExpandLine, if_pos hn])
  · exact .skip fun q _ => .pure rfl

theorem gridExpandLineUtf8_strips (n : ℕ) :
    Refines strip (gridExpandLineUtf8 h gl n) (pure (Tmux.gridExpandLineUtf8 gl.toGridLine n)) := by
  unfold gridExpandLineUtf8
  split_ifs with hn
  · exact .pure (by rw [strip, Tmux.gridExpandLineUtf8, if_pos hn])
  · exact .skip fun q _ => .pure rfl

theorem updateRow_erases {f : Heap → OwnedLine → Exec (Heap × OwnedLine)} {f' : GridLine → Exec GridLine} (py : ℕ)
    (hf : ∀ gl ∈ gd.linedata, Refines strip (f h gl) (f' gl.toGridLine)) :
    Refines erased (updateRow h gd py f) (Tmux.updateRow gd.erase py f') := by
  unfold updateRow Tmux.updateRow
  refine (Block.load_refines OwnedLine.toGridLine gd.linedata py).bind fun gl hgl => ?_
  have hload := (Block.load_entries (w := .all) trivial py).value hgl
  refine (hf gl (List.mem_of_getElem? hload)).bind fun q _ => ?_
  exact (Block.store_refines OwnedLine.toGridLine gd.linedata py q.2).bind fun l _ => .pure rfl

theorem gridPutCell_strips (px : ℕ) (gc : GridCell) :
    Refines strip (gridPutCell h gl px gc) (Tmux.gridPutCell gl.toGridLine px gc) :=
  .skip fun _ _ => Refines.map (f := id) (fun _ hline => hline) fun _ => rfl

theorem gridPutUtf8_strips (px : ℕ) (gu : GridUtf8) :
    Refines strip (gridPutUtf8 h gl px gu) (Tmux.gridPutUtf8 gl.toGridLine px gu) :=
  .skip fun _ _ => Refines.map (f := id) (fun _ hline => hline) fun _ => rfl

theorem gridSetCell_erases (px py : ℕ) (gc : GridCell) :
    Refines erased (gridSetCell h gd px py gc) (Tmux.gridSetCell gd.erase px py gc) := by
  unfold gridSetCell Tmux.gridSetCell
  split_ifs
  · exact .pure rfl
  · refine updateRow_erases h gd py fun gl _ => ?_
    have hput := (gridExpandLine_strips h gl (uadd px 1)).bind (g := strip) (j := (Tmux.gridPutCell · px gc))
      fun q _ => gridPutCell_strips q.1 q.2 px gc
    rwa [pure_bind] at hput

theorem gridSetUtf8_erases (px py : ℕ) (gu : GridUtf8) :
    Refines erased (gridSetUtf8 h gd px py gu) (Tmux.gridSetUtf8 gd.erase px py gu) := by
  unfold gridSetUtf8 Tmux.gridSetUtf8
  split_ifs
  · exact .pure rfl
  · refine updateRow_erases h gd py fun gl _ => ?_
    have hput := (gridExpandLineUtf8_strips h gl (uadd px 1)).bind (g := strip) (j := (Tmux.gridPutUtf8 · px gu))
      fun q _ => gridPutUtf8_strips q.1 q.2 px gu
    rwa [pure_bind] at hput

theorem clearCells_strips (px nx : ℕ) :
    Refines strip (clearCells px nx h gl) (Tmux.clearCells gl.toGridLine px nx) := by
  unfold clearCells Tmux.clearCells
  split_ifs
  · exact .pure rfl
  · exact .pure rfl
  · exact .skip fun _ _ => Refines.bind (f := id) (fun _ hl => hl) fun l _ => .pure rfl

theorem gridClear_erases (px py nx ny : ℕ) :
    Refines erased (gridClear h gd px py nx ny) (Tmux.gridClear gd.erase px py nx ny) := by
  unfold gridClear Tmux.gridClear
  by_cases hnone : nx = 0 ∨ ny = 0
  · rw [if_pos hnone, if_pos hnone]
    exact .pure rfl
  rw [if_neg hnone, if_neg hnone]
  by_cases hlines : px = 0 ∧ nx = gd.sx
  · rw [if_pos hlines, if_pos (show px = 0 ∧ nx = gd.erase.sx from hlines)]
    exact gridClearLines_erases h gd py ny
  rw [if_neg hlines, if_neg (show ¬ (px = 0 ∧ nx = gd.erase.sx) from hlines)]
  split_ifs
  · exact .pure rfl
  · exact Refines.foldlM (f := erased) (fun q yy => updateRow_erases q.1 q.2 yy fun gl _ =>
      clearCells_strips q.1 gl px nx) _ (h, gd)

theorem withUtf8_expand (gl : GridLine) (n : ℕ) (utf8data : List (Option GridUtf8)) :
    { Tmux.gridExpandLineUtf8 gl n with utf8data } = { gl with utf8data } := by
  unfold Tmux.gridExpandLineUtf8
  split_ifs <;> rfl

/-- Moving the UTF-8 data of a line whose pointer to it tells whether it has any. -/
theorem moveUtf8_strips (hgl : gl.utf8data = [] ↔ gl.utf8 = none) (dx px nx : ℕ) :
    Refines strip (moveUtf8 h gl dx px nx)
      (Tmux.moveUtf8 gl.toGridLine dx px nx >>= fun utf8data => pure { gl.toGridLine with utf8data }) := by
  unfold moveUtf8 Tmux.moveUtf8
  by_cases hnone : gl.utf8 = none
  · have hempty := hgl.2 hnone
    rw [if_pos hnone, if_pos hempty, pure_bind, ← hempty]
    exact .pure rfl
  rw [if_neg hnone, if_neg fun hempty => hnone (hgl.1 hempty)]
  have hmove : ∀ (h : Heap) (gl₁ : OwnedLine), Refines strip (do
      h.access gl₁.utf8
      let utf8data ← Block.move gl₁.utf8data dx px nx
      pure (h, { gl₁ with toGridLine := { gl₁.toGridLine with utf8data } }))
      (Block.move gl₁.utf8data dx px nx >>= fun utf8data => pure { gl₁.toGridLine with utf8data }) := fun h gl₁ =>
    .skip fun _ _ => Refines.bind (f := id) (fun _ hl => hl) fun l _ => .pure rfl
  have hall := (gridExpandLineUtf8_strips h gl (uadd px nx)).bind (j := fun l =>
      (pure (Tmux.gridExpandLineUtf8 l (uadd dx nx)) : Exec GridLine) >>= fun l =>
        Block.move l.utf8data dx px nx >>= fun utf8data => pure { l with utf8data })
    fun q _ => (gridExpandLineUtf8_strips q.1 q.2 (uadd dx nx)).bind fun q' _ => hmove q'.1 q'.2
  simpa only [pure_bind, withUtf8_expand] using hall

/-- Expanding a line leaves its UTF-8 data alone. -/
theorem gridExpandLine_utf8 {n : ℕ} {q : Heap × OwnedLine} (hq : (gridExpandLine h gl n).value? = some q) :
    q.2.utf8 = gl.utf8 ∧ q.2.utf8data = gl.utf8data := by
  unfold gridExpandLine at hq
  split_ifs at hq
  · obtain rfl := Option.some.inj hq
    exact ⟨rfl, rfl⟩
  · obtain ⟨p, -, hq⟩ := Exec.value?_bind.1 hq
    obtain rfl := Option.some.inj hq
    exact ⟨rfl, gridExpandLine_utf8data _ _⟩

theorem shiftCells_strips (hgl : gl.utf8data = [] ↔ gl.utf8 = none) (dx px nx : ℕ) :
    Refines strip (shiftCells dx px nx h gl) (do
      let celldata ← Block.move gl.celldata dx px nx
      let utf8data ← Tmux.moveUtf8 gl.toGridLine dx px nx
      let celldata ← Block.fill gridDefaultCell (fun xx => !(dx ≤ xx && xx < uadd dx nx)) celldata px (uadd px nx - px)
      pure { gl.toGridLine with celldata, utf8data }) := by
  refine .skip fun _ _ => Refines.bind (f := id) (fun _ hl => hl) fun celldata _ => ?_
  have hmove := (moveUtf8_strips h gl hgl dx px nx).bind (g := strip) (j := fun l =>
      Block.fill gridDefaultCell (fun xx => !(dx ≤ xx && xx < uadd dx nx)) celldata px (uadd px nx - px) >>=
        fun celldata => pure { l with celldata })
    (k := fun q => Block.fill gridDefaultCell (fun xx => !(dx ≤ xx && xx < uadd dx nx)) celldata px (uadd px nx - px) >>=
        fun celldata => pure (q.1, { q.2 with toGridLine := { q.2.toGridLine with celldata } }))
    fun q _ => Refines.bind (f := id) (fun _ hl => hl) fun celldata _ => .pure rfl
  simpa only [bind_assoc, pure_bind, id] using hmove

theorem moveCells_strips (hgl : gl.Sized) (dx px nx : ℕ) :
    Refines strip (moveCells dx px nx h gl) (Tmux.moveCells gl.toGridLine dx px nx) := by
  have hexpand := (gridExpandLine_strips h gl (uadd px nx)).bind (g := strip) (j := fun l =>
      (pure (Tmux.gridExpandLine l (uadd dx nx)) : Exec GridLine) >>= fun l => do
        let celldata ← Block.move l.celldata dx px nx
        let utf8data ← Tmux.moveUtf8 l dx px nx
        let celldata ← Block.fill gridDefaultCell (fun xx => !(dx ≤ xx && xx < uadd dx nx)) celldata px (uadd px nx - px)
        pure { l with celldata, utf8data })
    (k := fun q => gridExpandLine q.1 q.2 (uadd dx nx) >>= fun q' => shiftCells dx px nx q'.1 q'.2)
    fun q hq => (gridExpandLine_strips q.1 q.2 (uadd dx nx)).bind fun q' hq' => shiftCells_strips q'.1 q'.2 (by
      have h₁ := gridExpandLine_utf8 h gl hq
      have h₂ := gridExpandLine_utf8 q.1 q.2 hq'
      rw [h₂.1, h₂.2, h₁.1, h₁.2]
      exact hgl.utf8) dx px nx
  simp only [pure_bind] at hexpand
  exact hexpand

theorem gridMoveCells_erases (hgd : ∀ gl ∈ gd.linedata, gl.Sized) (dx px py nx : ℕ) :
    Refines erased (gridMoveCells h gd dx px py nx) (Tmux.gridMoveCells gd.erase dx px py nx) := by
  unfold gridMoveCells Tmux.gridMoveCells
  split_ifs
  · exact .pure rfl
  · exact .pure rfl
  · exact updateRow_erases h gd py fun gl hgl => moveCells_strips h gl (hgd gl hgl) dx px nx

/-! ### Copies -/

theorem copyLine_strips : Refines strip (copyLine h gl) (pure gl.toGridLine) :=
  .skip fun _ _ => .skip fun _ _ => .pure rfl

theorem copyLines_erases (dy sy n : ℕ) :
    Refines erased (copyLines h dst dy src sy n) (Tmux.copyLines dst.erase dy src.erase sy n) := by
  induction n generalizing h dst dy sy with
  | zero => exact .pure rfl
  | succ n ih =>
    refine (Block.load_refines OwnedLine.toGridLine src.linedata sy).bind fun srcl _ => .skip fun q hq => ?_
    have hline : q.2.toGridLine = srcl.toGridLine := by
      have hstrip := copyLine_strips h srcl q hq
      exact (Option.some.inj hstrip).symm
    have hstore := Block.store_refines OwnedLine.toGridLine dst.linedata dy q.2
    rw [hline] at hstore
    exact hstore.bind fun l _ => ih q.1 { dst with linedata := l } (dy + 1) (sy + 1)

theorem gridDuplicateLines_erases (dy sy ny : ℕ) :
    Refines erased (gridDuplicateLines h dst dy src sy ny) (Tmux.gridDuplicateLines dst.erase dy src.erase sy ny) := by
  refine Refines.bind (f := id) (fun _ hn => hn) fun n₁ _ => Refines.bind (f := id) (fun _ hn => hn) fun n₂ _ => ?_
  exact (gridClearLines_erases h dst _ _).bind fun q _ => copyLines_erases q.1 q.2 src _ _ _

end Arrays

end Tmux
