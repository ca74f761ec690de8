import Tmux.Copy.Motion

/-!
# Motions over characters

The commands of copy mode that go to another character of a line, to one that is looked
for, or to the start or the end of a word, in the lines above or below if need be.
-/

namespace Tmux

open Exec (uadd usub)

/-! ## Characters -/

/-- Move up as long as the line before continues on this one. -/
def upToStart : ℕ → ℕ → CopyMode → Exec CopyMode
  | 0, _, _ => .fault .hang
  | n + 1, py, m =>
    if py > 0 then do
      let wrapped ← lineWrapped m (py - 1)
      if wrapped then do
        let m ← windowCopyCursorUp m false
        let py ← backingRow m
        upToStart n py m
      else pure m
    else pure m

def windowCopyCursorStartOfLine (m : CopyMode) : Exec CopyMode :=
  if m.cx = 0 then do
    let py ← backingRow m
    let m ← upToStart (py + 1) py m
    moveInRow m 0
  else moveInRow m 0

/-- The first column that is not blank, of `n` ones from `px` on, or the one after them. -/
def skipBlanks (gd : Grid) (py : ℕ) : ℕ → ℕ → Exec ℕ
  | 0, px => pure px
  | n + 1, px => do
    let gc ← gridPeekCell gd px py
    if gc.isUtf8 ∨ gc.data ≠ 32 then pure px else skipBlanks gd py n (px + 1)

def windowCopyCursorBackToIndentation (m : CopyMode) : Exec CopyMode := do
  let py ← backingRow m
  let xx ← windowCopyFindLength m py
  let px ← skipBlanks m.backing.grid py xx 0
  moveInRow m px

def windowCopyCursorLeft (m : CopyMode) : Exec CopyMode :=
  if m.cx = 0 then do
    let m ← windowCopyCursorUp m false
    windowCopyCursorEndOfLine m
  else moveInRow m (m.cx - 1)

/-- The column that the cursor goes right to at most. -/
def rightLimit (m : CopyMode) : Exec ℕ :=
  if m.sel && m.rectflag then pure m.screen.grid.sx
  else do
    let py ← backingRow m
    windowCopyFindLength m py

def windowCopyCursorRight (m : CopyMode) : Exec CopyMode := do
  let px ← rightLimit m
  if m.cx ≥ px then do
    let m ← windowCopyCursorStartOfLine m
    windowCopyCursorDown m false
  else moveInRow m (uadd m.cx 1)

/-! ## Jumps -/

/-- Whether a cell has a character. -/
def jumpsTo (gc : GridCell) (jumpchar : ℤ) : Bool :=
  !gc.isPadding && !gc.isUtf8 && (gc.data.toNat : ℤ) == jumpchar

/-- The first column with a character, of `n` ones from `px` on. -/
def findForward (gd : Grid) (py : ℕ) (jumpchar : ℤ) : ℕ → ℕ → Exec (Option ℕ)
  | 0, _ => pure none
  | n + 1, px => do
    let gc ← gridPeekCell gd px py
    if jumpsTo gc jumpchar then pure (some px) else findForward gd py jumpchar n (px + 1)

/-- The last column with a character, up to one. -/
def findBack (gd : Grid) (py : ℕ) (jumpchar : ℤ) : ℕ → Exec (Option ℕ)
  | 0 => do
    let gc ← gridPeekCell gd 0 py
    pure (if jumpsTo gc jumpchar then some 0 else none)
  | px + 1 => do
    let gc ← gridPeekCell gd (px + 1) py
    if jumpsTo gc jumpchar then pure (some (px + 1)) else findBack gd py jumpchar px

/-- Jump forward to a character, or to a column beside it. -/
def jumpForward (beside : ℕ → ℕ) (m : CopyMode) : Exec CopyMode := do
  let px := uadd m.cx 1
  let py ← backingRow m
  let xx ← windowCopyFindLength m py
  let found ← findForward m.backing.grid py m.jumpchar (xx - px) px
  match found with
  | none => pure m
  | some px => moveInRow m (beside px)

/-- Jump back to a character, or to a column beside it. -/
def jumpBackward (beside : ℕ → ℕ) (m : CopyMode) : Exec CopyMode := do
  let py ← backingRow m
  let found ← findBack m.backing.grid py m.jumpchar (m.cx - 1)
  match found with
  | none => pure m
  | some px => moveInRow m (beside px)

def windowCopyCursorJump (m : CopyMode) : Exec CopyMode := jumpForward id m

def windowCopyCursorJumpBack (m : CopyMode) : Exec CopyMode := jumpBackward id m

def windowCopyCursorJumpTo (m : CopyMode) : Exec CopyMode := jumpForward (· - 1) m

def windowCopyCursorJumpToBack (m : CopyMode) : Exec CopyMode := jumpBackward (uadd · 1) m

/-! ## Words -/

/-- Whether a character of the backing grid is in a set. -/
def windowCopyInSet (m : CopyMode) (px py : ℕ) (set : List UInt8) : Exec Bool := do
  let gc ← gridPeekCell m.backing.grid px py
  pure (!gc.isPadding && !gc.isUtf8 && gc.data != 0 && gc.data != 0x7f && set.contains gc.data)

/-- Skip characters that are in the set, or that are not, and the ends of lines, up to the last
    line. Gives the column, the line and its length, unless the last line ends before. -/
def skipSet (separators : List UInt8) (expected : Bool) (yy : ℕ) :
    ℕ → ℕ → ℕ → ℕ → CopyMode → Exec (CopyMode × Option (ℕ × ℕ × ℕ))
  | 0, _, _, _, _ => .fault .hang
  | n + 1, px, py, xx, m =>
    if px > xx then
      -- Move down if we're past the end of the line.
      if py = yy then pure (m, none)
      else do
        let m ← windowCopyCursorDown m false
        let py ← backingRow m
        let xx ← windowCopyFindLength m py
        skipSet separators expected yy n 0 py xx m
    else do
      let found ← windowCopyInSet m px py separators
      if found = expected then skipSet separators expected yy n (px + 1) py xx m
      else pure (m, some (px, py, xx))

/-- More steps than it takes to skip all characters of the backing grid. -/
def skipSteps (m : CopyMode) : ℕ := (m.backing.grid.hsize + m.backing.grid.sy + 1) * (m.backing.grid.sx + 3)

/-- First skip past characters that are in the set, or that are not, and then past the others. -/
def skipTwice (m : CopyMode) (separators : List UInt8) (expected : Bool) : Exec CopyMode := do
  let py ← backingRow m
  let xx ← windowCopyFindLength m py
  let yy ← usub (uadd m.backing.grid.hsize m.backing.grid.sy) 1
  let (m, found) ← skipSet separators expected yy (skipSteps m) m.cx py xx m
  match found with
  | none => pure m
  | some (px, py, xx) => do
    let (m, found) ← skipSet separators (!expected) yy (skipSteps m) px py xx m
    match found with
    | none => pure m
    | some (px, _, _) => moveInRow m px

def windowCopyCursorNextWord (m : CopyMode) (separators : List UInt8) : Exec CopyMode :=
  skipTwice m separators false

def windowCopyCursorNextWordEnd (m : CopyMode) (separators : List UInt8) : Exec CopyMode :=
  skipTwice m separators true

/-- Whether there is nothing above the cursor. -/
def atTop (m : CopyMode) : Bool :=
  m.cy = 0 ∧ (m.backing.grid.hsize = 0 ∨ m.oy ≥ m.backing.grid.hsize - 1)

/-- Move back to the previous word character. Gives its column and its line, if there is one. -/
def backToWord (separators : List UInt8) :
    ℕ → ℕ → ℕ → CopyMode → Exec (CopyMode × Option (ℕ × ℕ))
  | 0, _, _, _ => .fault .hang
  | n + 1, px, py, m =>
    if px > 0 then do
      let found ← windowCopyInSet m (px - 1) py separators
      if !found then pure (m, some (px - 1, py)) else backToWord separators n (px - 1) py m
    else if atTop m then pure (m, none)
    else do
      let m ← windowCopyCursorUp m false
      let py ← backingRow m
      let px ← windowCopyFindLength m py
      backToWord separators n px py m

/-- Move back to the beginning of a word. -/
def wordStart (m : CopyMode) (py : ℕ) (separators : List UInt8) : ℕ → Exec ℕ
  | 0 => pure 0
  | px + 1 => do
    let found ← windowCopyInSet m px py separators
    if found then pure (px + 1) else wordStart m py separators px

/-- Move to the previous place where a word begins. -/
def windowCopyCursorPreviousWord (m : CopyMode) (separators : List UInt8) : Exec CopyMode := do
  let py ← backingRow m
  let (m, found) ← backToWord separators (skipSteps m) m.cx py m
  match found with
  | none => moveInRow m 0
  | some (px, py) => do
    let px ← wordStart m py separators px
    moveInRow m px

/-! ## Pages -/

/-- Scroll back by so many lines, to the top of the history at most. -/
def scrollBack (n : ℕ) (m : CopyMode) : CopyMode :=
  { m with oy := if uadd m.oy n > m.backing.grid.hsize then m.backing.grid.hsize else uadd m.oy n }

/-- Scroll forward by so many lines, to the bottom at most. -/
def scrollForward (n : ℕ) (m : CopyMode) : CopyMode := { m with oy := if m.oy < n then 0 else m.oy - n }

/-- Adjust the selection and draw all of the screen. -/
def redrawAll (m : CopyMode) : Exec CopyMode := do
  let (m, _) ← windowCopyUpdateSelection m
  windowCopyRedrawScreen m

/-- The number of lines in a page. -/
def pageSize (m : CopyMode) : ℕ := if m.screen.grid.sy > 2 then m.screen.grid.sy - 2 else 1

def windowCopyPageup (m : CopyMode) : Exec CopyMode := redrawAll (scrollBack (pageSize m) m)

def windowCopyRectangleToggle (m : CopyMode) : Exec CopyMode := do
  let m := { m with rectflag := !m.rectflag }
  let py ← backingRow m
  let px ← windowCopyFindLength m py
  if m.cx > px then do
    let m ← windowCopyUpdateCursor m px m.cy
    redrawAll m
  else redrawAll m

end Tmux
