import Tmux.Screen.Selected
import Tmux.Grid.View
import Tmux.Grid.Shown
import Tmux.Tty.Display

/-!
# Drawing lines

A line of a screen is drawn at a place of the terminal (`ttyDrawLine`): its cells, one after the other, and then spaces,
or the sequence that clears the rest of the row. What is tracked of the terminal, and what was written to it, is `TtyOut`.

If the line above is wrapped and the cursor is behind the last column, the cursor is not moved: the first character goes
to the next row by itself.
-/

namespace Tmux

open Device
open Exec (uadd usub follow)

/-- The capabilities to clear, insert, delete and scroll. -/
inductive TtyEdit
  | el | el1 | ich | ich1 | dch | dch1 | il | il1 | dl | dl1 | csr | ri
  deriving DecidableEq, Repr

/-- A terminal, with the texts of its alternate character set, the capabilities that it has to change columns and rows,
    whether its cursor goes to the next row as soon as the last column is written, and its height. -/
structure TtyDevice extends TtyKind where
  acs : UInt8 → Option (List UInt8)
  edits : TtyEdit → Bool
  earlyWrap : Bool
  sy : ℕ

/-- What is tracked of a terminal, and what was written to it. -/
structure TtyOut where
  pos : TtyPosition
  cell : GridCell := gridDefaultCell
  out : List TtyItem := []

/-- What a character is written as with some attributes. -/
def charText (k : TtyDevice) (attr ch : UInt8) : List UInt8 :=
  if attr &&& gridAttrCharset ≠ 0 then (k.acs ch).getD [ch] else [ch]

def isControl (ch : UInt8) : Bool := ch < 32 || ch = 127

namespace TtyOut

variable (k : TtyDevice) (tty : TtyOut)

/-- Write items. -/
def emit (items : List TtyItem) : TtyOut := { tty with out := tty.out ++ items }

/-- Write sequences. -/
def ttyPuts (seqs : List TtySequence) : TtyOut := { tty with out := tty.out ++ seqs.map .seq }

/-- Write a character. -/
def ttyPutc (ch : UInt8) : TtyOut :=
  if isControl ch then tty.ttyPuts [.char ch]
  else
    let sx := if k.earlyWrap then tty.pos.sx - 1 else tty.pos.sx
    { tty with
      out := tty.out ++ [.text (charText k tty.cell.attr ch) 1]
      pos := if sx ≤ tty.pos.cx then
          { tty.pos with cx := 1, cy := if tty.pos.cy ≠ tty.pos.rlower then uadd tty.pos.cy 1 else tty.pos.cy }
        else { tty.pos with cx := tty.pos.cx + 1 } }

/-- Write a character several times. -/
def putcs (ch : UInt8) : ℕ → TtyOut → TtyOut
  | 0, tty => tty
  | n + 1, tty => putcs ch n (tty.ttyPutc k ch)

def ttyRepeatSpace (n : ℕ) : TtyOut := putcs k 32 n tty

def ttyPututf8 (gu : GridUtf8) : TtyOut where
  pos := { tty.pos with cx := uadd tty.pos.cx gu.width.toNat }
  cell := tty.cell
  out := tty.out ++ [.text gu.data gu.width.toNat]

def ttyReset : TtyOut :=
  let x := Tmux.ttyReset k.toTtyKind tty.cell
  { tty.ttyPuts (written x) with cell := value x }

def ttyAttributes (gc : GridCell) : TtyOut :=
  let x := Tmux.ttyAttributes k.toTtyKind gc tty.cell
  { tty.ttyPuts (written x) with cell := value x }

def ttyCursor (cx cy : ℕ) : TtyOut :=
  let x := Tmux.ttyCursor k.toTtyKind tty.pos cx cy
  { tty.ttyPuts (written x) with pos := value x }

/-- Write a cell. -/
def ttyCell (gc : GridCell) (gu : Option GridUtf8) : Exec TtyOut :=
  -- Skip last character if terminal is stupid.
  if k.earlyWrap ∧ tty.pos.cy = k.sy - 1 ∧ tty.pos.cx = tty.pos.sx - 1 then pure tty
  -- If this is a padding character, do nothing.
  else if gc.isPadding then pure tty
  else
    let tty := tty.ttyAttributes k gc
    if !gc.isUtf8 then pure (if isControl gc.data then tty else tty.ttyPutc k gc.data)
    else do
      let gu ← follow gu
      -- If the terminal doesn't support UTF-8, write underscores.
      pure (if k.utf8 then tty.ttyPututf8 gu else putcs k 95 gu.width.toNat tty)

end TtyOut

/-- The cell that is drawn for a cell: with the style of the selection if it is selected. -/
def drawnCell (sel : ScreenSel) (px py : ℕ) (gc : GridCell) : GridCell :=
  if screenCheckSelection sel px py then
    { sel.cell with
      data := gc.data
      flags := gc.flags &&& ~~~(gridFlagFg256 ||| gridFlagBg256) |||
        sel.cell.flags &&& (gridFlagFg256 ||| gridFlagBg256) }
  else gc

/-- The cells of a line that are drawn. -/
def drawnSize (s : Screen) (gl : GridLine) (pos : TtyPosition) : ℕ := min (min s.grid.sx gl.celldata.length) pos.sx

/-- Whether the cursor gets to the start of a line by itself. -/
def wrapsThere (s : Screen) (above : Option GridLine) (pos : TtyPosition) (py ox oy : ℕ) : Bool :=
  uadd oy py ≠ 0 && above.any (·.wrapped) && pos.sx ≤ pos.cx && ox = 0 &&
    (uadd oy py = uadd pos.cy 1 || pos.cy = uadd s.rlower oy)

/-- Draw a line of a screen. -/
def TtyOut.ttyDrawLine (k : TtyDevice) (tty : TtyOut) (s : Screen) (sel : ScreenSel) (py ox oy : ℕ) : Exec TtyOut := do
  let gl ← Block.load s.grid.linedata (uadd s.grid.hsize py)
  let above ← (if py ≠ 0 then some <$> Block.load s.grid.linedata (uadd s.grid.hsize py - 1) else pure none)
  let sx := drawnSize s gl tty.pos
  -- Don't move the cursor to the start position if it will wrap there itself.
  let tty := if wrapsThere s above tty.pos py ox oy then tty else tty.ttyCursor k ox (uadd oy py)
  let tty ← (List.range sx).foldlM (fun tty i => tty.ttyCell k (drawnCell sel i py (gl.cell i)) (gl.shown i).2) tty
  if tty.pos.sx ≤ sx then pure tty
  else
    let tty := (tty.ttyReset k).ttyCursor k (uadd ox sx) (uadd oy py)
    pure (if sx ≠ s.grid.sx ∧ tty.pos.sx ≤ uadd ox s.grid.sx ∧ k.edits .el then tty.emit [.el]
      else tty.ttyRepeatSpace k (s.grid.sx - sx))

end Tmux
