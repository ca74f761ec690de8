import Tmux.Copy.Mode

/-!
# Motions in copy mode

The commands of copy mode that move the cursor, and scroll when it is at the top or at
the bottom of the screen. A motion up or down keeps to a remembered column, and goes to
the end of a shorter line (`windowCopyCursorUp`, `windowCopyCursorDown`); the end and
the start of a line that wraps are looked for on the lines it continues on
(`windowCopyCursorEndOfLine`).

The end of a line and the motion down use each other: the end of a line is looked for on
other lines only from the end of the one of the cursor, and the motion down looks for it
only elsewhere (`windowCopyCursorDown_eq`).
-/

namespace Tmux

open Exec (uadd usub forget)

/-- Repeat a step so many times. -/
def times {σ : Type} (f : σ → Exec σ) : ℕ → σ → Exec σ
  | 0, s => pure s
  | n + 1, s => do
    let s ← f s
    times f n s

/-- Adjust the selection, and draw some rows again if there is one. -/
def updateSelectionRows (m : CopyMode) (py ny : ℕ) : Exec CopyMode := do
  let (m, selected) ← windowCopyUpdateSelection m
  if selected then windowCopyRedrawLines m py ny else pure m

/-- Put the cursor in a column of its row. -/
def moveInRow (m : CopyMode) (px : ℕ) : Exec CopyMode := do
  let m ← windowCopyUpdateCursor m px m.cy
  updateSelectionRows m m.cy 1

/-- Whether a line of the backing grid continues on the next one. -/
def lineWrapped (m : CopyMode) (py : ℕ) : Exec Bool := do
  let gl ← Block.load m.backing.grid.linedata py
  pure gl.wrapped

/-! ## Scrolling -/

/-- Draw a row again on a condition. -/
def writeLineIf (b : Bool) (m : CopyMode) (py : ℕ) : Exec CopyMode :=
  if b then windowCopyWriteLine m py else pure m

/-- Adjust the selection, and draw a row again that it went through. -/
def redrawSelected (m : CopyMode) (py : ℕ) : Exec CopyMode := do
  let (m, _) ← windowCopyUpdateSelection m
  windowCopyWriteLine m py

/-- Move the cursor of the screen back, and adjust the selection. -/
def finishScroll (m : CopyMode) : Exec CopyMode := do
  let m ← moveCursor m m.cx m.cy
  Prod.fst <$> windowCopyUpdateSelection m

/-- Delete lines at the top of the screen. -/
def deleteTop (m : CopyMode) (ny : ℕ) : Exec CopyMode := do
  let m ← moveCursor m 0 0
  let screen ← screenWriteDeleteline m.screen ny
  pure { m with screen }

/-- Insert lines at the top of the screen. -/
def insertTop (m : CopyMode) (ny : ℕ) : Exec CopyMode := do
  let m ← moveCursor m 0 0
  let screen ← screenWriteInsertline m.screen ny
  pure { m with screen }

def windowCopyScrollUp (m : CopyMode) (ny : ℕ) : Exec CopyMode :=
  let ny := limit ny m.oy
  if ny = 0 then pure m
  else do
    let m ← deleteTop { m with oy := m.oy - ny } ny
    let sy := m.screen.grid.sy
    let first ← forget (usub sy ny)
    let m ← windowCopyWriteLines m first ny
    let m ← windowCopyWriteLine m 0
    let m ← writeLineIf (sy > 1) m 1
    let m ← writeLineIf (sy > 3) m (sy - 2)
    if m.sel && sy > ny then do
      let m ← redrawSelected m (sy - ny - 1)
      finishScroll m
    else finishScroll m

/-- Draw the row after the new ones again, for the selection, or for the position that was in the
    first row. -/
def redrawAfter (m : CopyMode) (ny : ℕ) : Exec CopyMode :=
  if m.sel && m.screen.grid.sy > ny then redrawSelected m ny
  -- nuke position
  else writeLineIf (ny = 1) m 1

/-- Scroll down by so many lines. -/
def scrollDownBy (m : CopyMode) (ny : ℕ) : Exec CopyMode :=
  if ny = 0 then pure m
  else do
    let m ← insertTop { m with oy := uadd m.oy ny } ny
    let m ← windowCopyWriteLines m 0 ny
    let m ← redrawAfter m ny
    finishScroll m

def windowCopyScrollDown (m : CopyMode) (ny : ℕ) : Exec CopyMode :=
  if ny > m.backing.grid.hsize then pure m
  else if m.oy > m.backing.grid.hsize - ny then do
    let ny ← usub m.backing.grid.hsize m.oy
    scrollDownBy m ny
  else scrollDownBy m ny

/-! ## Up and down -/

/-- Remember the column, if the cursor is not at the end of its line, and put the cursor in the
    column remembered. -/
def recallColumn (m : CopyMode) : Exec CopyMode := do
  let oy ← backingRow m
  let ox ← windowCopyFindLength m oy
  let m := if m.cx ≠ ox then { m with lastcx := m.cx, lastsx := ox } else m
  pure { m with cx := m.lastcx }

/-- Look for the end of the line, given how, if the cursor was at the end of the last line or is
    past the one of this. -/
def keepToLine (endOfLine : CopyMode → Exec CopyMode) (m : CopyMode) : Exec CopyMode :=
  if !m.sel || !m.rectflag then do
    let py ← backingRow m
    let px ← windowCopyFindLength m py
    if (m.cx ≥ m.lastsx ∧ m.cx ≠ px) ∨ m.cx > px then endOfLine m else pure m
  else pure m

/-- The rows from the one of the cursor on, two of them unless it is the last one. -/
def rowsBelowCursor (m : CopyMode) : ℕ := if m.cy + 1 = m.screen.grid.sy then 1 else 2

/-- Go up, or scroll down. -/
def stepUp (m : CopyMode) (scrollOnly : Bool) : Exec CopyMode :=
  if scrollOnly ∨ m.cy = 0 then do
    let m ← windowCopyScrollDown m 1
    if scrollOnly then windowCopyRedrawLines m m.cy (rowsBelowCursor m) else pure m
  else do
    let m ← windowCopyUpdateCursor m m.cx (m.cy - 1)
    updateSelectionRows m m.cy (rowsBelowCursor m)

/-- Motion up, given how to look for the end of a line. -/
def cursorUpBody (endOfLine : CopyMode → Exec CopyMode) (m : CopyMode) (scrollOnly : Bool) :
    Exec CopyMode := do
  let m ← recallColumn m
  let m ← stepUp m scrollOnly
  keepToLine endOfLine m

/-- Go down, or scroll up. -/
def stepDown (m : CopyMode) (scrollOnly : Bool) : Exec CopyMode := do
  let last ← forget (usub m.screen.grid.sy 1)
  if scrollOnly ∨ m.cy = last then do
    let m ← windowCopyScrollUp m 1
    if scrollOnly ∧ m.cy > 0 then windowCopyRedrawLines m (m.cy - 1) 2 else pure m
  else do
    let m ← windowCopyUpdateCursor m m.cx (uadd m.cy 1)
    updateSelectionRows m (m.cy - 1) 2

/-- Motion down, given how to look for the end of a line. -/
def cursorDownBody (endOfLine : CopyMode → Exec CopyMode) (m : CopyMode) (scrollOnly : Bool) :
    Exec CopyMode := do
  let m ← recallColumn m
  let m ← stepDown m scrollOnly
  keepToLine endOfLine m

/-- Move down, given how, as long as the line continues on the next one. On the last line of the
    grid that goes on forever. -/
def downToEnd (down : CopyMode → Exec CopyMode) : ℕ → ℕ → CopyMode → Exec CopyMode
  | 0, _, _ => .fault .hang
  | n + 1, py, m =>
    if py < uadd m.backing.grid.sy m.backing.grid.hsize then do
      let wrapped ← lineWrapped m py
      if wrapped then do
        let m ← down m
        let py ← backingRow m
        downToEnd down n py m
      else pure m
    else pure m

/-- Motion to the end of the line from its end on this row, given how to move down. -/
def endFromEnd (down : CopyMode → Exec CopyMode) (m : CopyMode) (py px : ℕ) : Exec CopyMode := do
  let wrapped ← lineWrapped m py
  if wrapped then do
    let m ← downToEnd down (m.backing.grid.hsize + m.backing.grid.sy - py + 1) py m
    let py ← backingRow m
    let px ← windowCopyFindLength m py
    moveInRow m px
  else moveInRow m (if m.sel && m.rectflag then m.backing.grid.sx else px)

/-- Motion to the end of the line, given how to move down. -/
def endOfLineBody (down : CopyMode → Exec CopyMode) (m : CopyMode) : Exec CopyMode := do
  let py ← backingRow m
  let px ← windowCopyFindLength m py
  if m.cx = px then endFromEnd down m py px else moveInRow m px

/-- The end of a line for a cursor that is not at it. -/
def endElsewhere (m : CopyMode) : Exec CopyMode := endOfLineBody (fun _ => .fault .hang) m

def windowCopyCursorUp (m : CopyMode) (scrollOnly : Bool) : Exec CopyMode :=
  cursorUpBody endElsewhere m scrollOnly

def windowCopyCursorDown (m : CopyMode) (scrollOnly : Bool) : Exec CopyMode :=
  cursorDownBody endElsewhere m scrollOnly

def windowCopyCursorEndOfLine (m : CopyMode) : Exec CopyMode :=
  endOfLineBody (windowCopyCursorDown · false) m

/-- The end of the line does not depend on how to move down for a cursor that is not at it. -/
theorem endOfLineBody_congr (down down' : CopyMode → Exec CopyMode) {m : CopyMode}
    (h : ∀ py px, (backingRow m).value? = some py → (windowCopyFindLength m py).value? = some px → m.cx ≠ px) :
    endOfLineBody down m = endOfLineBody down' m := by
  unfold endOfLineBody
  cases hpy : backingRow m with
  | fault e => rfl
  | done w py =>
    rw [Exec.done_bind, Exec.done_bind]
    cases hpx : windowCopyFindLength m py with
    | fault e => rfl
    | done w' px =>
      have hne : m.cx ≠ px := h py px (by rw [hpy]; rfl) (by rw [hpx]; rfl)
      simp only [Exec.done_bind, if_neg hne]

/-- Keeping to the line, the end is looked for only by a cursor that is not at it. -/
theorem keepToLine_congr (down down' : CopyMode → Exec CopyMode) (m : CopyMode) :
    keepToLine (endOfLineBody down) m = keepToLine (endOfLineBody down') m := by
  unfold keepToLine
  split_ifs
  · cases hpy : backingRow m with
    | fault e => rfl
    | done w py =>
      rw [Exec.done_bind, Exec.done_bind]
      cases hpx : windowCopyFindLength m py with
      | fault e => rfl
      | done w' px =>
        simp only [Exec.done_bind]
        split_ifs with hcx
        · rw [endOfLineBody_congr down down' fun py' px' hpy' hpx' => ?_]
          obtain rfl : py = py' := by simpa [hpy, Exec.value?] using hpy'
          obtain rfl : px = px' := by simpa [hpx, Exec.value?] using hpx'
          omega
        · rfl
  · rfl

/-- The motion up goes to the end of a line as the command for it does. -/
theorem windowCopyCursorUp_eq (m : CopyMode) (scrollOnly : Bool) :
    windowCopyCursorUp m scrollOnly = cursorUpBody windowCopyCursorEndOfLine m scrollOnly := by
  unfold windowCopyCursorUp cursorUpBody
  exact bind_congr fun m => bind_congr fun m => keepToLine_congr _ _ m

/-- The motion down goes to the end of a line as the command for it does. -/
theorem windowCopyCursorDown_eq (m : CopyMode) (scrollOnly : Bool) :
    windowCopyCursorDown m scrollOnly = cursorDownBody windowCopyCursorEndOfLine m scrollOnly := by
  unfold windowCopyCursorDown cursorDownBody
  exact bind_congr fun m => bind_congr fun m => keepToLine_congr _ _ m

end Tmux
