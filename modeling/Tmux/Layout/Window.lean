import Tmux.Library.Queue
import Tmux.Layout.Adjust

/-!
# The layout of a window

A window (`Window`) has its panes in a list and the root of its layout tree;
every pane points to the cell containing it, every cell in the tree to its
parent, and a cell containing a pane to the pane. All these pointers are
addresses: following one that leads nowhere is a fault.

The operations on the layout: starting it (`layoutInit`), splitting the cell of
a pane (`layoutSplitPane`) and assigning a pane to the cell split off
(`layoutAssignPane`), closing a pane (`layoutClosePane`), resizing a pane
against its neighbours (`layoutResizePane`), and resizing the whole layout after
the window (`layoutResize`).
-/

namespace Tmux

/-- A window pane, as far as the layout and its window are concerned. -/
structure WindowPane where
  id : ℕ
  /-- The window of the pane. -/
  window : ℕ
  /-- The cell containing the pane. -/
  layoutCell : Option ℕ := none
  xoff : ℕ := 0
  yoff : ℕ := 0
  sx : ℕ
  sy : ℕ
  deriving DecidableEq, Repr

/-- A window. -/
structure Window where
  id : ℕ
  panes : List WindowPane := []
  active : Option ℕ := none
  last : Option ℕ := none
  sx : ℕ
  sy : ℕ
  layoutRoot : Option LayoutCell := none
  /-- The address of the next cell to be allocated. -/
  nextCell : ℕ := 0

/-- Whether a cell is the one at an address. -/
def isCell (id : ℕ) (lc : CellInfo) : Bool := lc.id == id

/-- Whether the root of a subtree is the cell at an address. -/
def isRoot (id : ℕ) (lc : LayoutCell) : Bool := isCell id lc.val

/-- Whether a pane is the one with an identifier. -/
def isPane (id : ℕ) (wp : WindowPane) : Bool := wp.id == id

/-- The subtree at an address. -/
def findCell (lc : LayoutCell) (id : ℕ) : Option LayoutCell := lc.find? (isCell id)

/-- Put a subtree in the place of the cell at an address. -/
def replaceCell (lc : LayoutCell) (id : ℕ) (new : LayoutCell) : LayoutCell :=
  RoseTree.replace (isCell id) new lc

namespace Window

variable (w : Window)

/-- The pane with an identifier. -/
def findPane (wp : ℕ) : Option WindowPane := w.panes.find? (isPane wp)

/-- Update the pane with an identifier. -/
def updatePane (wp : ℕ) (f : WindowPane → WindowPane) : Window :=
  { w with panes := w.panes.map fun p => if isPane wp p then f p else p }

/-- Clear the cells of panes whose cells are freed. -/
def clearCells (wps : List ℕ) : Window :=
  { w with panes := w.panes.map fun p => if p.id ∈ wps then { p with layoutCell := none } else p }

/-- The cell containing a pane. -/
def cellOf (wp : ℕ) : Exec LayoutCell := do
  let wp ← Exec.follow (w.findPane wp)
  let lc ← Exec.follow wp.layoutCell
  let root ← Exec.follow w.layoutRoot
  Exec.follow (findCell root lc)

end Window

/-! ## Cells -/

/-- The panes whose cells are freed with a tree. -/
def layoutFreeCell (lc : LayoutCell) : List ℕ :=
  lc.nodes.filterMap fun c => if c.type = .windowpane then c.wp else none

/-- A cell just created. -/
def layoutCreateCell (id : ℕ) (lcparent : Option ℕ) : CellInfo := { id, parent := lcparent }

/-- Set the size and the offset of a cell. -/
def layoutSetSize (lc : CellInfo) (sx sy xoff yoff : ℕ) : CellInfo := { lc with sx, sy, xoff, yoff }

/-- Make the cell at an address contain a pane. -/
def layoutMakeLeaf (w : Window) (lc wp : ℕ) : Exec Window := do
  let root ← Exec.follow w.layoutRoot
  let cell ← Exec.follow (findCell root lc)
  let leaf := .node { cell.val with type := .windowpane, wp := some wp } []
  pure ({ w with layoutRoot := some (replaceCell root lc leaf) }.updatePane wp fun p =>
    { p with layoutCell := some lc })

mutual

/-- Put a cell at an offset, and fix the offsets below it. -/
def placeCell (xoff yoff : ℕ) : LayoutCell → LayoutCell
  | .node lc cells =>
    .node { lc with xoff, yoff }
      (if lc.type ≠ .windowpane then placeCells lc.type xoff yoff cells else cells)

/-- Put the children of a container one after the other, from an offset on. -/
def placeCells (type : LayoutType) (xoff yoff : ℕ) : List LayoutCell → List LayoutCell
  | [] => []
  | lc :: cells =>
    placeCell xoff yoff lc ::
      if type = .leftright then placeCells type (xoff + (lc.val.sx + 1)) yoff cells
      else placeCells type xoff (yoff + (lc.val.sy + 1)) cells

end

/-- Fix cell offsets based on their sizes. -/
def layoutFixOffsets : LayoutCell → LayoutCell
  | .node lc cells => .node lc (placeCells lc.type lc.xoff lc.yoff cells)

/-- The size of a pane along an axis: if the pane is actually outside the window or
    the entire pane is already visible, or if less than the minimum would be left,
    it is not cropped. -/
def cropSize (off size wsize minimum : ℕ) : ℕ :=
  if off ≥ wsize ∨ off + size < wsize then size
  else if wsize - off < minimum then size
  else wsize - off

/-- Update the offset and size of a pane based on its cell. -/
def fixPane (root : LayoutCell) (wsx wsy : ℕ) (wp : WindowPane) : Exec WindowPane :=
  match wp.layoutCell with
  | none => pure wp
  | some lc => do
    let ⟨lc, _⟩ ← Exec.follow (findCell root lc)
    let sx := cropSize lc.xoff lc.sx wsx 1
    -- The minimum vertical size is two because scroll regions cannot be one line.
    let sy := cropSize lc.yoff lc.sy wsy 2
    pure { wp with xoff := lc.xoff, yoff := lc.yoff, sx, sy }

/-- Update pane offsets and sizes based on their cells. -/
def layoutFixPanes (w : Window) (wsx wsy : ℕ) : Exec Window := do
  let root ← Exec.follow w.layoutRoot
  let panes ← w.panes.mapM (fixPane root wsx wsy)
  pure { w with panes }

mutual

/-- Count the number of available cells in a layout. -/
def layoutCountCells : LayoutCell → ℕ
  | .node lc cells => if lc.type = .windowpane then 1 else countCellsList cells

/-- Count the number of available cells in a list of layouts. -/
def countCellsList : List LayoutCell → ℕ
  | [] => 0
  | lc :: cells => layoutCountCells lc + countCellsList cells

end

/-- The next cell among siblings, or the previous one unless the cell is the first. -/
def otherCell (cells : List LayoutCell) (id : ℕ) : Exec LayoutCell := do
  let first ← Exec.follow cells.head?
  Exec.follow (if first.val.id = id then Queue.next? (isRoot id) cells
    else Queue.prev? (isRoot id) cells)

/-- Put the cells left in a container there. If the parent now has one cell, remove
    the parent from the tree and replace it by that cell. -/
def leaveCells (lcroot : LayoutCell) (lcparent : CellInfo) (cells : List LayoutCell) :
    Exec LayoutCell := do
  let lc ← Exec.follow cells.head?
  match Queue.next? (isRoot lc.val.id) cells with
  | some _ => pure (replaceCell lcroot lcparent.id (.node lcparent cells))
  | none =>
    match lcparent.parent with
    | none => pure (.node { lc.val with parent := none, xoff := 0, yoff := 0 } lc.children)
    | some p =>
      pure (replaceCell lcroot lcparent.id (.node { lc.val with parent := some p } lc.children))

/-- Destroy a cell and redistribute the space. Gives the new root, and the panes
    whose cells are freed. -/
def layoutDestroyCell (lcroot : LayoutCell) (id : ℕ) : Exec (Option LayoutCell × List ℕ) := do
  let lc ← Exec.follow (findCell lcroot id)
  match lc.val.parent with
  -- If no parent, this is the last pane so window close is imminent and there is
  -- no need to resize anything.
  | none => pure (none, layoutFreeCell lc)
  | some p => do
    let ⟨lcparent, cells⟩ ← Exec.follow (findCell lcroot p)
    -- Merge the space into the previous or next cell.
    let lcother ← otherCell cells id
    let other ← layoutResizeAdjust lcother lcparent.type
      (if lcparent.type = .leftright then (lc.val.sx : ℤ) + 1 else (lc.val.sy : ℤ) + 1)
    -- Remove this from the parent's list.
    let cells := (Queue.replace (isRoot lcother.val.id) other cells).eraseP (isRoot id)
    let root ← leaveCells lcroot lcparent cells
    pure (some root, layoutFreeCell lc)

/-! ## Windows -/

/-- Start the layout of a window, of a single cell. -/
def layoutInit (w : Window) : Exec Window := do
  let lc := layoutSetSize (layoutCreateCell w.nextCell none) w.sx w.sy 0 0
  let w := { w with layoutRoot := some (.node lc []), nextCell := w.nextCell + 1 }
  let wp ← Exec.follow w.panes.head?
  let w ← layoutMakeLeaf w lc.id wp.id
  layoutFixPanes w w.sx w.sy

/-- The change of the size of the root along an axis, from the size of the window
    to the size asked for. -/
def resizeChange (lc : LayoutCell) (type : LayoutType) (wsize size : ℕ) : ℤ :=
  let change : ℤ := (size : ℤ) - wsize
  let limit := layoutResizeCheck type lc
  -- Do not attempt to reduce the layout lower than the minimum.
  let change := if change < 0 ∧ change < -(limit : ℤ) then -(limit : ℤ) else change
  -- Spread the difference between the minimum and the new size out.
  if limit = 0 then
    if size ≤ lc.val.size type then 0 else (size : ℤ) - lc.val.size type
  else change

/-- Adjust the root along an axis after window resize. -/
def resizeRoot (lc : LayoutCell) (type : LayoutType) (wsize size : ℕ) : Exec LayoutCell :=
  let change := resizeChange lc type wsize size
  if change ≠ 0 then layoutResizeAdjust lc type change else pure lc

/-- Resize the entire layout after window resize. -/
def layoutResize (w : Window) (sx sy : ℕ) : Exec Window := do
  let lc ← Exec.follow w.layoutRoot
  -- Adjust horizontally.
  let lc ← resizeRoot lc .leftright w.sx sx
  -- Adjust vertically in a similar fashion.
  let lc ← resizeRoot lc .topbottom w.sy sy
  -- Fix cell offsets.
  layoutFixPanes { w with layoutRoot := some (layoutFixOffsets lc) } sx sy

/-- Record the size of a window. -/
def windowResize (w : Window) (sx sy : ℕ) : Window := { w with sx, sy }

/-- Grow a cell at the expense of the nearest cell after it that can be reduced, or
    else of the nearest before it. Gives the siblings and the size moved. -/
def layoutResizePaneGrow (cells : List LayoutCell) (lc : ℕ) (type : LayoutType) (needed : ℤ) :
    Exec (List LayoutCell × ℕ) := do
  -- Growing. Always add to the current cell.
  let lcadd ← Exec.follow (cells.find? (isRoot lc))
  -- Look towards the tail for a suitable cell for reduction. If none found, look
  -- towards the head.
  let suitable := fun c => decide (layoutResizeCheck type c > 0)
  match ((Queue.rest (isRoot lc) cells).find? suitable).or
      ((Queue.front (isRoot lc) cells).reverse.find? suitable) with
  | none => pure (cells, 0)
  | some lcremove => do
    -- Change the cells.
    let size := min (layoutResizeCheck type lcremove) needed.toNat
    let add ← layoutResizeAdjust lcadd type size
    let remove ← layoutResizeAdjust lcremove type (-(size : ℤ))
    pure (Queue.replace (isRoot lcremove.val.id) remove
      (Queue.replace (isRoot lc) add cells), size)

/-- Shrink a cell, or the nearest before it that can be reduced, in favour of the
    cell after it. Gives the siblings and the size moved. -/
def layoutResizePaneShrink (cells : List LayoutCell) (lc : ℕ) (type : LayoutType) (needed : ℤ) :
    Exec (List LayoutCell × ℕ) := do
  let cell ← Exec.follow (cells.find? (isRoot lc))
  -- Shrinking. Find cell to remove from by walking towards head.
  match (cell :: (Queue.front (isRoot lc) cells).reverse).find?
      fun c => decide (layoutResizeCheck type c ≠ 0) with
  | none => pure (cells, 0)
  | some lcremove =>
    -- And add onto the next cell (from the original cell).
    match Queue.next? (isRoot lc) cells with
    | none => pure (cells, 0)
    | some lcadd => do
      -- Change the cells.
      let size := min (layoutResizeCheck type lcremove) (-needed).toNat
      let add ← layoutResizeAdjust lcadd type size
      let remove ← layoutResizeAdjust lcremove type (-(size : ℤ))
      pure (Queue.replace (isRoot lcremove.val.id) remove
        (Queue.replace (isRoot lcadd.val.id) add cells), size)

/-- Grow or shrink a cell once, as the change asked for is positive or negative. -/
def resizePaneOnce (cells : List LayoutCell) (lc : ℕ) (type : LayoutType) (change needed : ℤ) :
    Exec (List LayoutCell × ℕ) :=
  if change > 0 then layoutResizePaneGrow cells lc type needed
  else layoutResizePaneShrink cells lc type needed

/-- Grow or shrink a cell until the change is done or no more is possible. -/
def resizePaneLoop (lc : ℕ) (type : LayoutType) (change : ℤ) :
    ℕ → List LayoutCell → ℤ → Exec (List LayoutCell)
  | 0, cells, needed => if needed = 0 then pure cells else .fault .hang
  | n + 1, cells, needed =>
    if needed = 0 then pure cells
    else do
      let (cells, size) ← resizePaneOnce cells lc type change needed
      let needed := if change > 0 then needed - size else needed + size
      if size = 0 then pure cells -- no more change possible
      else resizePaneLoop lc type change n cells needed

/-- The nearest container above a cell that runs along an axis, with the cell below
    it on the way up, in a tree of at most as many levels as the first argument. -/
def findParent : ℕ → LayoutCell → LayoutCell → LayoutType → Exec (Option (LayoutCell × LayoutCell))
  | 0, _, _, _ => .fault .hang
  | n + 1, root, lc, type =>
    match lc.val.parent with
    | none => pure none
    | some p => do
      let lcparent ← Exec.follow (findCell root p)
      if lcparent.val.type = type then pure (some (lc, lcparent))
      else findParent n root lcparent type

/-- The cell to resize against its neighbours: the one before the last cell. -/
def moveBack (lc lcparent : LayoutCell) : Exec LayoutCell :=
  if (lcparent.children.getLast?.map fun c => c.val.id) = some lc.val.id then
    Exec.follow (Queue.prev? (isRoot lc.val.id) lcparent.children)
  else pure lc

/-- Resize a single pane within the layout. -/
def layoutResizePane (w : Window) (wp : ℕ) (type : LayoutType) (change : ℤ) : Exec Window := do
  let lc ← w.cellOf wp
  let root ← Exec.follow w.layoutRoot
  -- Find next parent of the same type.
  match ← findParent root.height root lc type with
  | none => pure w
  | some (lc, lcparent) => do
    -- If this is the last cell, move back one.
    let lc ← moveBack lc lcparent
    -- Grow or shrink the cell.
    let cells ←
      resizePaneLoop lc.val.id type change change.natAbs lcparent.children change
    -- Fix cell offsets.
    let root := replaceCell root lcparent.val.id (.node lcparent.val cells)
    layoutFixPanes { w with layoutRoot := some (layoutFixOffsets root) } w.sx w.sy

/-- Assign window pane to newly split cell. -/
def layoutAssignPane (w : Window) (lc wp : ℕ) : Exec Window := do
  let w ← layoutMakeLeaf w lc wp
  layoutFixPanes w w.sx w.sy

/-- The size a hint asks for: half of a size less a separator if it is negative. -/
def hintSize (total : ℕ) (size : ℤ) : Exec ℕ :=
  if size < 0 then Exec.usub ((total + 1) / 2) 1 else pure size.toNat

/-- The sizes of the top or left and of the bottom or right of two cells sharing a
    size, `size` being the hint for the latter. -/
def splitSizes (total : ℕ) (size : ℤ) : Exec (ℕ × ℕ) := do
  let size2 ← hintSize total size
  let limit ← Exec.usub total 2
  let size2 := if size2 < paneMinimum then paneMinimum else if size2 > limit then limit else size2
  let rest ← Exec.usub total 1
  let size1 ← Exec.usub rest size2
  pure (size1, size2)

/-- Set a cell to the top or left of the place of `lc`, of size `size1` along an axis. -/
def setFirst (type : LayoutType) (lc : CellInfo) (size1 : ℕ) (c : CellInfo) : CellInfo :=
  if type = .leftright then layoutSetSize c size1 lc.sy lc.xoff lc.yoff
  else layoutSetSize c lc.sx size1 lc.xoff lc.yoff

/-- Set a cell to the bottom or right of the place of `lc`, after one of size `size1`. -/
def setSecond (type : LayoutType) (lc : CellInfo) (size1 size2 : ℕ) (c : CellInfo) : CellInfo :=
  if type = .leftright then layoutSetSize c size2 lc.sy (lc.xoff + size1 + 1) lc.yoff
  else layoutSetSize c lc.sx size2 lc.xoff (lc.yoff + size1 + 1)

/-- The parent of a cell, if it exists and runs along an axis. -/
def parentOfType (root : LayoutCell) (lc : CellInfo) (type : LayoutType) :
    Exec (Option LayoutCell) :=
  match lc.parent with
  | none => pure none
  | some p => do
    let lcparent ← Exec.follow (findCell root p)
    pure (if lcparent.val.type = type then some lcparent else none)

/-- Set the old cell of a split, the first unless the new one goes before it. -/
def setOld (type : LayoutType) (lc : CellInfo) (size1 size2 : ℕ) (insertBefore : Bool) :
    CellInfo → CellInfo :=
  if insertBefore then setSecond type lc size1 size2 else setFirst type lc size1

/-- Set the new cell of a split, the second unless it goes before the old one. -/
def setNew (type : LayoutType) (lc : CellInfo) (size1 size2 : ℕ) (insertBefore : Bool) :
    CellInfo → CellInfo :=
  if insertBefore then setFirst type lc size1 else setSecond type lc size1 size2

/-- Create a new cell and insert it among the siblings of the cell `lc` of the pane
    `wp`, after or before it. -/
def splitSibling (w : Window) (root lcparent : LayoutCell) (lc : CellInfo) (wp : ℕ)
    (old new : CellInfo → CellInfo) (insertBefore : Bool) : Window × ℕ :=
  let leaf := .node (old { lc with type := .windowpane, wp := some wp }) []
  let lcnew := new (layoutCreateCell w.nextCell (some lcparent.val.id))
  let cells := Queue.replace (isRoot lc.id) leaf lcparent.children
  let cells :=
    if insertBefore then Queue.insertBefore (isRoot lc.id) (.node lcnew []) cells
    else Queue.insertAfter (isRoot lc.id) (.node lcnew []) cells
  let root := replaceCell root lcparent.val.id (.node lcparent.val cells)
  ({ w with layoutRoot := some root, nextCell := w.nextCell + 1 }.updatePane wp fun p =>
    { p with layoutCell := some lc.id }, lcnew.id)

/-- The new parent of the cell `lc`, in its place. -/
def splitParent (w : Window) (lc : CellInfo) (type : LayoutType) : CellInfo :=
  { layoutSetSize (layoutCreateCell w.nextCell lc.parent) lc.sx lc.sy lc.xoff lc.yoff with type }

/-- Create a new parent in the place of the cell `lc` of the pane `wp`, and insert it
    there with a new cell after or before it. -/
def splitNested (w : Window) (root : LayoutCell) (lc : CellInfo) (wp : ℕ) (type : LayoutType)
    (old new : CellInfo → CellInfo) (insertBefore : Bool) : Window × ℕ :=
  let lcparent := splitParent w lc type
  let leaf := .node
    (old { lc with type := .windowpane, wp := some wp, parent := some lcparent.id }) []
  let lcnew := new (layoutCreateCell (w.nextCell + 1) (some lcparent.id))
  let cells := if insertBefore then [.node lcnew [], leaf] else [leaf, .node lcnew []]
  let root := replaceCell root lc.id (.node lcparent cells)
  ({ w with layoutRoot := some root, nextCell := w.nextCell + 2 }.updatePane wp fun p =>
    { p with layoutCell := some lc.id }, lcnew.id)

/-- Split a pane into two. `size` is a hint, or negative for default half/half
    split. Gives the new cell, to be followed by `layoutAssignPane`, or nothing
    if there is no space for two panes. -/
def layoutSplitPane (w : Window) (wp : ℕ) (type : LayoutType) (size : ℤ) (insertBefore : Bool) :
    Exec (Option (Window × ℕ)) := do
  let ⟨lc, _⟩ ← w.cellOf wp
  let root ← Exec.follow w.layoutRoot
  if type = .windowpane then .fault .fatal
  -- Check there is enough space for the two new panes.
  else if lc.size type < paneMinimum * 2 + 1 then pure none
  else do
    -- Set new cell sizes.
    let (size1, size2) ← splitSizes (lc.size type) size
    let old := setOld type lc size1 size2 insertBefore
    let new := setNew type lc size1 size2 insertBefore
    match ← parentOfType root lc type with
    -- If the parent exists and is of the same type as the split, create a new cell
    -- and insert it after this one.
    | some lcparent => pure (some (splitSibling w root lcparent lc wp old new insertBefore))
    -- Otherwise create a new parent and insert it.
    | none => pure (some (splitNested w root lc wp type old new insertBefore))

/-- Destroy the cell associated with a pane. -/
def layoutClosePane (w : Window) (wp : ℕ) : Exec Window := do
  -- Remove the cell.
  let lc ← w.cellOf wp
  let root ← Exec.follow w.layoutRoot
  let (root, wps) ← layoutDestroyCell root lc.val.id
  let w := { w with layoutRoot := root }.clearCells wps
  -- Fix pane offsets and sizes.
  match root with
  | none => pure w
  | some root => layoutFixPanes { w with layoutRoot := some (layoutFixOffsets root) } w.sx w.sy

end Tmux
