import Tmux.Tty.Redraw

/-!
# Commands to a terminal

What is written to the screen of a pane is written to the terminal as well, by a command for each change (`ttyCmdCell`
and others). Where the terminal cannot do this to a pane, the lines that changed are drawn again, or all of the pane
later if there are many of them (`ttyRedrawRegion`).
-/

namespace Tmux

open Exec (uadd usub follow)

/-- What a command is told: the cursor and the scroll region of the screen before it was changed, how much has changed,
    and where the pane is. -/
structure TtyCtx where
  ocx : ℕ
  ocy : ℕ
  orupper : ℕ
  orlower : ℕ
  num : ℕ := 0
  xoff : ℕ
  yoff : ℕ

namespace TtyOut

variable (k : TtyDevice) (tty : TtyOut)

/-- Write a sequence for some columns or rows, or one for a single one several times. -/
def ttyEmulateRepeat (has has1 : Bool) (item : ℕ → TtyItem) (item1 : TtyItem) (n : ℕ) : TtyOut :=
  if has then tty.emit [item n] else if has1 then tty.emit (List.replicate n item1) else tty

/-- Set the scroll region. -/
def ttyRegion (rupper rlower : ℕ) : TtyOut :=
  if tty.pos.rlower = rlower ∧ tty.pos.rupper = rupper then tty
  else if !k.edits .csr then tty
  else
    let tty := { tty with pos := { tty.pos with rupper, rlower } }
    -- Some terminals do not reset the cursor if it is beyond the last column, so an explicit move is done first. There
    -- is no sequence for a row that is not known.
    let tty :=
      if tty.pos.sx ≤ tty.pos.cx then
        if tty.pos.cy = unknown then { tty with pos := { tty.pos with cx := 0 } } else tty.ttyCursor k 0 tty.pos.cy
      else tty
    (tty.emit [.csr rupper rlower]).ttyCursor k 0 0

variable (ctx : TtyCtx)

/-- Set the scroll region inside a pane. -/
def ttyRegionPane (rupper rlower : ℕ) : TtyOut := tty.ttyRegion k (uadd ctx.yoff rupper) (uadd ctx.yoff rlower)

/-- Move the cursor inside a pane. -/
def ttyCursorPane (cx cy : ℕ) : TtyOut := tty.ttyCursor k (uadd ctx.xoff cx) (uadd ctx.yoff cy)

variable (s : Screen)

/-- Whether a pane takes the full width of the terminal. -/
def ttyPaneFullWidth : Bool := ctx.xoff = 0 && tty.pos.sx ≤ s.grid.sx

/-- Whether the scroll region is large enough to be worth redrawing once later rather than several times now. -/
def ttyLargeRegion : Exec Bool := do
  let size ← usub ctx.orlower ctx.orupper
  pure (s.grid.sy / 2 ≤ size)

/-- Draw the scroll region from the screen, which is changed already; or tell that the pane is to be redrawn. -/
def ttyRedrawRegion : Exec (TtyOut × Bool) := do
  if ← ttyLargeRegion ctx s then pure (tty, true)
  else
    let tty ←
      if ctx.ocy < ctx.orupper ∨ ctx.orlower < ctx.ocy then redrawLines k s {} ctx.xoff ctx.yoff (List.range' ctx.ocy (s.grid.sy - ctx.ocy)) tty
      else redrawLines k s {} ctx.xoff ctx.yoff (List.range' ctx.orupper (uadd ctx.orlower 1 - ctx.orupper)) tty
    pure (tty, false)

/-- Draw the line of the cursor. -/
def drawCursorLine : Exec (TtyOut × Bool) := do
  let tty ← tty.ttyDrawLine k s {} ctx.ocy ctx.xoff ctx.yoff
  pure (tty, false)

def ttyCmdInsertcharacter : Exec (TtyOut × Bool) :=
  if !tty.ttyPaneFullWidth ctx s then tty.drawCursorLine k ctx s
  else
    let tty := (tty.ttyReset k).ttyCursorPane k ctx ctx.ocx ctx.ocy
    if k.edits .ich || k.edits .ich1 then
      pure (tty.ttyEmulateRepeat (k.edits .ich) (k.edits .ich1) .ich (.ich 1) ctx.num, false)
    else tty.drawCursorLine k ctx s

def ttyCmdDeletecharacter : Exec (TtyOut × Bool) :=
  if !tty.ttyPaneFullWidth ctx s || !k.edits .dch && !k.edits .dch1 then tty.drawCursorLine k ctx s
  else
    let tty := (tty.ttyReset k).ttyCursorPane k ctx ctx.ocx ctx.ocy
    pure (tty.ttyEmulateRepeat (k.edits .dch) (k.edits .dch1) .dch (.dch 1) ctx.num, false)

/-- Insert or delete lines, by the capabilities for this. -/
def editLines (edit edit1 : TtyEdit) (item : ℕ → TtyItem) : Exec (TtyOut × Bool) :=
  if !tty.ttyPaneFullWidth ctx s || !k.edits .csr || !k.edits edit1 then tty.ttyRedrawRegion k ctx s
  else
    let tty := (tty.ttyReset k).ttyRegionPane k ctx ctx.orupper ctx.orlower
    let tty := tty.ttyCursorPane k ctx ctx.ocx ctx.ocy
    pure (tty.ttyEmulateRepeat (k.edits edit) (k.edits edit1) item (item 1) ctx.num, false)

def ttyCmdInsertline : Exec (TtyOut × Bool) := tty.editLines k ctx s .il .il1 .il

def ttyCmdDeleteline : Exec (TtyOut × Bool) := tty.editLines k ctx s .dl .dl1 .dl

/-- Clear from the cursor to the end of the line, of which so many columns are left. -/
def clearRest (n : ℕ) : TtyOut :=
  if tty.ttyPaneFullWidth ctx s && k.edits .el then tty.emit [.el] else tty.ttyRepeatSpace k n

def ttyCmdClearline : TtyOut :=
  ((tty.ttyReset k).ttyCursorPane k ctx 0 ctx.ocy).clearRest k ctx s s.grid.sx

def ttyCmdClearendofline : TtyOut :=
  ((tty.ttyReset k).ttyCursorPane k ctx ctx.ocx ctx.ocy).clearRest k ctx s (s.grid.sx - ctx.ocx)

def ttyCmdClearstartofline : TtyOut :=
  let tty := tty.ttyReset k
  if ctx.xoff = 0 ∧ k.edits .el1 then (tty.ttyCursorPane k ctx ctx.ocx ctx.ocy).emit [.el1]
  else (tty.ttyCursorPane k ctx 0 ctx.ocy).ttyRepeatSpace k (uadd ctx.ocx 1)

def ttyCmdReverseindex : Exec (TtyOut × Bool) :=
  if ctx.ocy ≠ ctx.orupper then pure (tty, false)
  else if !tty.ttyPaneFullWidth ctx s || !k.edits .csr || !k.edits .ri then tty.ttyRedrawRegion k ctx s
  else
    let tty := (tty.ttyReset k).ttyRegionPane k ctx ctx.orupper ctx.orlower
    pure ((tty.ttyCursorPane k ctx ctx.ocx ctx.orupper).emit [.ri], false)

def ttyCmdLinefeed : Exec (TtyOut × Bool) :=
  if ctx.ocy ≠ ctx.orlower then pure (tty, false)
  else if !tty.ttyPaneFullWidth ctx s || !k.edits .csr then tty.ttyRedrawRegion k ctx s
  -- If this line wrapped naturally, the cursor can just be moved to the last cell and wrap naturally.
  else if ctx.num ≠ 0 ∧ k.earlyWrap = false then pure (tty, false)
  else
    let tty := (tty.ttyReset k).ttyRegionPane k ctx ctx.orupper ctx.orlower
    pure ((tty.ttyCursorPane k ctx ctx.ocx ctx.ocy).ttyPutc k 10, false)

/-- One row down. -/
def cursorDownRow : TtyOut :=
  let tty := tty.ttyEmulateRepeat (k.has .cud) (k.has .cud1) (fun n => .seq (.code1 .cud n)) (.seq (.code .cud1)) 1
  { tty with pos := { tty.pos with cy := uadd tty.pos.cy 1 } }

/-- Clear so many rows, and go below them. -/
def clearDown : ℕ → TtyOut → TtyOut
  | 0, tty => tty
  | n + 1, tty => clearDown n ((tty.emit [.el]).cursorDownRow k)

/-- Clear so many rows. -/
def clearRows : ℕ → TtyOut → TtyOut
  | 0, tty => tty
  | n + 1, tty => (clearDown k n tty).emit [.el]

/-- Write spaces on the rows from one up to another one. -/
def spaceRows (lo hi : ℕ) : TtyOut :=
  (List.range' lo (hi - lo)).foldl (fun tty j => (tty.ttyCursorPane k ctx 0 j).ttyRepeatSpace k s.grid.sx) tty

def ttyCmdClearendofscreen : Exec TtyOut := do
  let last ← usub s.grid.sy 1
  let tty := (tty.ttyReset k).ttyRegionPane k ctx 0 last
  let tty := tty.ttyCursorPane k ctx ctx.ocx ctx.ocy
  pure (if tty.ttyPaneFullWidth ctx s && k.edits .el then
      let tty := tty.emit [.el]
      if ctx.ocy ≠ last then
        clearRows k (s.grid.sy - uadd ctx.ocy 1) (tty.ttyCursorPane k ctx 0 (uadd ctx.ocy 1))
      else tty
    else (tty.ttyRepeatSpace k (s.grid.sx - ctx.ocx)).spaceRows k ctx s (uadd ctx.ocy 1) s.grid.sy)

def ttyCmdClearstartofscreen : Exec TtyOut := do
  let last ← usub s.grid.sy 1
  let tty := (tty.ttyReset k).ttyRegionPane k ctx 0 last
  let tty := tty.ttyCursorPane k ctx 0 0
  let tty := if tty.ttyPaneFullWidth ctx s && k.edits .el then clearDown k ctx.ocy tty else tty.spaceRows k ctx s 0 ctx.ocy
  pure (tty.ttyRepeatSpace k (uadd ctx.ocx 1))

def ttyCmdClearscreen : Exec TtyOut := do
  let last ← usub s.grid.sy 1
  let tty := (tty.ttyReset k).ttyRegionPane k ctx 0 last
  let tty := tty.ttyCursorPane k ctx 0 0
  pure (if tty.ttyPaneFullWidth ctx s && k.edits .el then clearRows k s.grid.sy tty
    else tty.spaceRows k ctx s 0 s.grid.sy)

def ttyCmdAlignmenttest : Exec TtyOut := do
  let last ← usub s.grid.sy 1
  let tty := (tty.ttyReset k).ttyRegionPane k ctx 0 last
  pure ((List.range s.grid.sy).foldl (fun tty j => putcs k 69 s.grid.sx (tty.ttyCursorPane k ctx 0 j)) tty)

end TtyOut

end Tmux
