import Tmux.Layout.Window
import Tmux.Numbers

/-!
# The text of a layout

A layout is dumped as a text (`layoutDump`): a checksum, and the cells of the tree, every container
with its children in brackets. A window is arranged as such a text says (`layoutParse`): a tree is
constructed from the text (`layoutConstruct`), cells are destroyed from the bottom right until there
are as many as panes, the panes are assigned to the cells in order, and the tree is resized to the
window.
-/

namespace Tmux

/-! ## Dumping -/

/-- One step of the layout checksum. -/
def checksumStep (csum : UInt16) (c : UInt8) : UInt16 :=
  ((csum >>> 1) + ((csum &&& 1) <<< 15)) + c.toInt8.toInt16.toUInt16

/-- Calculate layout checksum. -/
def layoutChecksum (layout : List UInt8) : UInt16 := layout.foldl checksumStep 0

/-- Append to a buffer of `len` bytes, or give up if there is no room. -/
def strlcat (buf src : List UInt8) (len : ℕ) : Option (List UInt8) :=
  if buf.length + src.length ≥ len then none else some (buf ++ src)

/-- The information for a cell: its size, its offset and the pane in it. -/
def cellText (lc : CellInfo) : List UInt8 :=
  decimal lc.sx ++ 120 :: decimal lc.sy ++ 44 :: decimal lc.xoff ++ 44 :: decimal lc.yoff ++
    (lc.wp.map fun wp => 44 :: decimal wp).getD []

/-- The brackets around the children of a container. -/
def LayoutType.brackets : LayoutType → UInt8 × UInt8
  | .leftright => (123, 125)
  | _ => (91, 93)

mutual

/-- Append information for a single cell. -/
def layoutAppend (len : ℕ) : LayoutCell → List UInt8 → Option (List UInt8)
  | .node lc cells, buf =>
    if len = 0 then none
    else if (cellText lc).length > 63 then none
    else do
      let buf ← strlcat buf (cellText lc) len
      if lc.type = .windowpane then some buf
      else
        let buf ← strlcat buf [lc.type.brackets.1] len
        let buf ← layoutAppendCells len cells buf
        -- The last byte is replaced: the comma after the last child.
        some (buf.dropLast ++ [lc.type.brackets.2])

/-- Append information for the children of a cell, each with a comma. -/
def layoutAppendCells (len : ℕ) : List LayoutCell → List UInt8 → Option (List UInt8)
  | [], buf => some buf
  | lc :: cells, buf => do
    let buf ← layoutAppend len lc buf
    let buf ← strlcat buf [44] len
    layoutAppendCells len cells buf

end

/-- Dump layout as a string, its checksum first. -/
def layoutDump (bufsiz : ℕ) (lcroot : LayoutCell) : Option (List UInt8) :=
  (layoutAppend bufsiz lcroot []).map fun layout =>
    (Numeral.numeral 16 (layoutChecksum layout).toNat).leftpad 4 32 ++ 44 :: layout

/-! ## Constructing -/

/-- Go past a byte, if it is there. -/
def skipByte (c : UInt8) (layout : List UInt8) : Option (List UInt8) :=
  if layout.head? = some c then some layout.tail else none

/-- The size and the offset at the start of a text, as `sscanf` reads them. The pane after them is
    read by one of the formats, but not counted. -/
def scanCell (layout : List UInt8) : Option (ℕ × ℕ × ℕ × ℕ) := do
  let (sx, layout) ← scanUnsigned layout
  let layout ← skipByte 120 layout
  let (sy, layout) ← scanUnsigned layout
  let layout ← skipByte 44 layout
  let (xoff, layout) ← scanUnsigned layout
  let layout ← skipByte 44 layout
  let (yoff, _) ← scanUnsigned layout
  some (sx, sy, xoff, yoff)

def skipDigits (layout : List UInt8) : List UInt8 := layout.dropWhile isDigitByte

/-- Go past the size, the offset and the pane of a cell. -/
def skipCell (layout : List UInt8) : Option (List UInt8) := do
  let layout ← skipByte 120 (skipDigits layout)
  let layout ← skipByte 44 (skipDigits layout)
  let layout ← skipByte 44 (skipDigits layout)
  let layout := skipDigits layout
  some (if layout.head? = some 44 then skipDigits layout.tail else layout)

/-- The type of the container that a bracket opens. -/
def openedType : List UInt8 → Option LayoutType
  | 123 :: _ => some .leftright
  | 91 :: _ => some .topbottom
  | _ => none

/-- Whether a cell without children ends before a text. -/
def endsCell : List UInt8 → Bool
  | [] => true
  | c :: _ => c = 44 || c = 125 || c = 93

mutual

/-- Construct a cell from all or part of a layout tree, with the cells below it at the addresses from
    `next` on. Gives the cell, the next address and the rest of the text. -/
def layoutConstruct : ℕ → ℕ → Option ℕ → List UInt8 → Exec (Option (LayoutCell × ℕ × List UInt8))
  | 0, _, _, _ => .fault .hang
  | n + 1, next, lcparent, layout =>
    if !layout.head?.any isDigitByte then pure none
    else
      match scanCell layout, skipCell layout with
      | some (sx, sy, xoff, yoff), some layout =>
        let lc := layoutSetSize (layoutCreateCell next lcparent) sx sy xoff yoff
        if endsCell layout then pure (some (.node lc [], next + 1, layout))
        else
          match openedType layout with
          | none => pure none
          | some type => do
            match ← constructCells n (next + 1) next layout.tail with
            | none => pure none
            | some (cells, next, layout) =>
              if layout.head? ≠ some type.brackets.2 then pure none
              else pure (some (.node { lc with type } cells, next, layout.tail))
      | _, _ => pure none

/-- Construct the children of a cell, as long as there is a comma after one. -/
def constructCells : ℕ → ℕ → ℕ → List UInt8 → Exec (Option (List LayoutCell × ℕ × List UInt8))
  | 0, _, _, _ => .fault .hang
  | n + 1, next, lc, layout => do
    match ← layoutConstruct n next (some lc) layout with
    | none => pure none
    | some (lcchild, next, layout) =>
      if layout.head? ≠ some 44 then pure (some ([lcchild], next, layout))
      else do
        match ← constructCells n next lc layout.tail with
        | none => pure none
        | some (cells, next, layout) => pure (some (lcchild :: cells, next, layout))

end

/-! ## Parsing -/

/-- The text after the checksum of a layout string, if it has that checksum. -/
def checkedLayout (layout : List UInt8) : Exec (Option (List UInt8)) :=
  match scanShortHex layout with
  | none => pure none
  | some csum =>
    -- The text is taken to start after five bytes, wherever the string ends.
    if layout.length < 5 then .fault .overread
    else if csum ≠ (layoutChecksum (layout.drop 5)).toNat then pure none
    else pure (some (layout.drop 5))

/-- Find the bottom-right cell, in a tree of at most as many levels as the first argument. -/
def layoutFindBottomright : ℕ → LayoutCell → Exec CellInfo
  | 0, _ => .fault .hang
  | n + 1, .node lc cells =>
    if lc.type = .windowpane then pure lc
    else do
      let lc ← Exec.follow cells.getLast?
      layoutFindBottomright n lc

/-- Close the bottom right cell, as long as there are fewer panes than cells. -/
def closeSurplus (npanes : ℕ) : ℕ → LayoutCell → Exec (Option LayoutCell)
  | 0, _ => .fault .hang
  | n + 1, lc =>
    if npanes > layoutCountCells lc then pure none
    else if npanes = layoutCountCells lc then pure (some lc)
    else do
      let lcchild ← layoutFindBottomright lc.height lc
      let (root, _) ← layoutDestroyCell lc lcchild.id
      let root ← Exec.follow root
      closeSurplus npanes n root

/-- Assign panes into cells: each of the leaves, in order, to the next pane. -/
def layoutAssign (w : Window) : List CellInfo → List WindowPane → Exec Window
  | [], _ => pure w
  | lc :: leaves, wps => do
    let wp ← Exec.follow wps.head?
    let w ← layoutMakeLeaf w lc.id wp.id
    layoutAssign w leaves wps.tail

/-- Parse a layout string and arrange window as layout; nothing if it is refused. -/
def layoutParse (w : Window) (layout : List UInt8) : Exec (Option Window) := do
  match ← checkedLayout layout with
  | none => pure none
  | some layout =>
    -- Build the layout.
    match ← layoutConstruct (layout.length + 1) w.nextCell none layout with
    | none => pure none
    | some (lc, nextCell, rest) =>
      if rest ≠ [] then pure none
      else do
        -- Check this window will fit into the layout.
        match ← closeSurplus w.panes.length (layoutCountCells lc + 1) lc with
        | none => pure none
        | some lc => do
          -- Destroy the old layout and swap to the new.
          let old ← Exec.follow w.layoutRoot
          let w' := { (windowResize w lc.val.sx lc.val.sy).clearCells (layoutFreeCell old) with
            layoutRoot := some lc, nextCell }
          -- Assign the panes into the cells.
          let w' ← layoutAssign w' (lc.nodes.filter fun c => c.type = .windowpane) w'.panes
          -- Update pane offsets and sizes.
          let root ← Exec.follow w'.layoutRoot
          let w' ← layoutFixPanes { w' with layoutRoot := some (layoutFixOffsets root) } lc.val.sx lc.val.sy
          -- Then resize the layout back to the original window size.
          let w' ← layoutResize w' w.sx w.sy
          pure (some (windowResize w' w.sx w.sy))

end Tmux
