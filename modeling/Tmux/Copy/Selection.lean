import Tmux.Copy.Words

/-!
# Copying the selection

The text that is selected in copy mode, line by line (`windowCopyCopyLine`), is put on the
stack of buffers (`windowCopyCopySelection`).
-/

namespace Tmux

open Exec (uadd usub)

/-! ## Buffers -/

/-- Add an item onto the top of the stack, freeing the bottom if at limit. -/
def pasteAdd (ps : List (List UInt8)) (data : List UInt8) (limit : ℕ) : List (List UInt8) :=
  if data = [] then ps else data :: ps.take (limit - 1)

/-- Replace an item on the stack. -/
def pasteReplace (ps : List (List UInt8)) (idx : ℕ) (data : List UInt8) : List (List UInt8) :=
  if data = [] then ps else ps.set idx data

/-! ## Lines -/

/-- Whether a line was wrapped at the screen edge and all of it is on screen, and its length, up to
    the last character that is not blank unless it was. -/
def lineEnd (m : CopyMode) (sy : ℕ) : Exec (Bool × ℕ) := do
  let gl ← Block.load m.backing.grid.linedata sy
  if gl.wrapped ∧ gl.celldata.length ≤ m.backing.grid.sx then pure (true, gl.celldata.length)
  else do
    let xx ← windowCopyFindLength m sy
    pure (false, xx)

/-- Copy a cell, unless it is padding. -/
def copyCellBytes (gd : Grid) (sy : ℕ) (buf : List UInt8) (i : ℕ) : Exec (List UInt8) := do
  let gc ← gridPeekCell gd i sy
  if gc.isPadding then pure buf
  else if !gc.isUtf8 then pure (buf ++ [gc.data])
  else do
    let gu ← gridPeekUtf8 gd i sy
    let gu ← Exec.follow gu
    let gu ← Exec.follow gu
    pure (buf ++ gu.data.take (gridUtf8Size gu))

/-- Copy the cells of a line from `sx` on up to `ex`. -/
def windowCopyCopyLine (m : CopyMode) (buf : List UInt8) (sy sx ex : ℕ) : Exec (List UInt8) :=
  if sx > ex then pure buf
  else do
    let (wrapped, xx) ← lineEnd m sy
    let ex := limit ex xx
    let sx := limit sx xx
    let buf ← (List.range' sx (ex - sx)).foldlM (copyCellBytes m.backing.grid sy) buf
    -- Only add a newline if the line wasn't wrapped.
    pure (if !wrapped ∨ ex ≠ xx then buf ++ [10] else buf)

/-! ## The selection -/

/-- The first place of the selection and the last one. -/
def selectionEnds (m : CopyMode) : Exec ((ℕ × ℕ) × (ℕ × ℕ)) := do
  let yy ← backingRow m
  pure (if yy < m.sely ∨ (yy = m.sely ∧ m.cx < m.selx) then ((m.cx, yy), (m.selx, m.sely))
    else ((m.selx, m.sely), (m.cx, yy)))

/-- The start of the first line, the end of the last one, and the start and the end of all other
    lines. -/
structure CopyBounds where
  firstsx : ℕ
  lastex : ℕ
  restsx : ℕ
  restex : ℕ
  deriving DecidableEq, Repr

/-- What to copy of the lines, the selection starting in the column `sx` and ending in `ex`. In
    emacs mode the bottom-right-most character is dropped, in vi mode it is kept. -/
def copyBounds (m : CopyMode) (sx ex : ℕ) : CopyBounds :=
  let kept := if m.options.modeKeys = .emacs then 0 else 1
  if m.rectflag then
    if m.selx < m.cx then
      { firstsx := m.selx, lastex := uadd m.cx kept, restsx := m.selx, restex := uadd m.cx kept }
    else { firstsx := m.cx, lastex := uadd m.selx 1, restsx := m.cx, restex := uadd m.selx 1 }
  else { firstsx := sx, lastex := uadd ex kept, restsx := 0, restex := m.screen.grid.sx }

/-- Copy the lines from `sy` to `ey`. -/
def copyLinesBetween (m : CopyMode) (sy ey : ℕ) (b : CopyBounds) : Exec (List UInt8) :=
  if sy = ey then windowCopyCopyLine m [] sy b.firstsx b.lastex
  else do
    let buf ← windowCopyCopyLine m [] sy b.firstsx b.restex
    let buf ← (List.range' (sy + 1) (ey - (sy + 1))).foldlM
      (fun buf i => windowCopyCopyLine m buf i b.restsx b.restex) buf
    windowCopyCopyLine m buf ey b.restsx b.lastex

/-- The text of the selection, if there is any. -/
def copiedText (m : CopyMode) : Exec (Option (List UInt8)) :=
  if !m.sel then pure none
  else do
    let ((sx, sy), (ex, ey)) ← selectionEnds m
    -- Trim ex to end of line.
    let xx ← windowCopyFindLength m ey
    let buf ← copyLinesBetween m sy ey (copyBounds m sx (limit ex xx))
    -- Don't bother if no data; remove final \n.
    pure (if buf = [] then none else some buf.dropLast)

/-- Add a text to the stack, or replace the item with an index. -/
def storeText (buffers : List (List UInt8)) (bufferLimit : ℕ) (idx : ℤ) (buf : List UInt8) : List (List UInt8) :=
  if idx = -1 then pasteAdd buffers buf bufferLimit else pasteReplace buffers idx.toNat buf

/-- Store the text of the selection, if there is any. -/
def windowCopyCopySelection (m : CopyMode) (buffers : List (List UInt8)) (bufferLimit : ℕ) (idx : ℤ) :
    Exec (List (List UInt8)) := do
  let text ← copiedText m
  pure ((text.map (storeText buffers bufferLimit idx)).getD buffers)

end Tmux
