import Tmux.Arguments
import Tmux.Copy.Words

/-!
# Searching in copy mode

A text is looked for in the backing grid as the cells that it is written with on a screen
of its own, from the cursor up or down and, if the option is on, from the other end
(`searchUp`, `searchDown`). The line it is found in is then scrolled to
(`windowCopyScrollTo`).
-/

namespace Tmux

open Exec (uadd usub)

/-- Put the cursor in a column and a line of the backing grid, the line being in the middle of
    the screen if it is neither at the top nor at the bottom of the grid. -/
def scrollTo (m : CopyMode) (px py : ℕ) : Exec CopyMode := do
  let gd := m.backing.grid
  let gap := gd.sy / 4
  let bottom ← usub (uadd gd.hsize gd.sy) gap
  if py < gd.sy then pure { m with cx := px, cy := py, oy := gd.hsize }
  else if py > bottom then do
    let cy ← usub py gd.hsize
    pure { m with cx := px, cy, oy := 0 }
  else do
    let offset ← usub (uadd py gap) gd.sy
    let cy ← usub py offset
    let oy ← usub gd.hsize offset
    pure { m with cx := px, cy, oy }

def windowCopyScrollTo (m : CopyMode) (px py : ℕ) : Exec CopyMode := do
  let m ← scrollTo m px py
  redrawAll m

/-! ## Comparing -/

/-- Compare two UTF-8 cells. -/
def gridUtf8Compare (gu1 gu2 : GridUtf8) : Bool :=
  gu1.data.take (gridUtf8Size gu1) = gu2.data.take (gridUtf8Size gu2)

/-- Whether a cell is the one searched for. -/
def windowCopySearchCompare (gd : Grid) (px py : ℕ) (sgd : Grid) (spx : ℕ) : Exec Bool := do
  let gc ← gridPeekCell gd px py
  let sgc ← gridPeekCell sgd spx 0
  if gc.isUtf8 ≠ sgc.isUtf8 then pure false
  else if gc.isUtf8 then do
    let gu ← gridPeekUtf8 gd px py
    let gu ← Exec.follow gu
    let gu ← Exec.follow gu
    let sgu ← gridPeekUtf8 sgd spx 0
    let sgu ← Exec.follow sgu
    let sgu ← Exec.follow sgu
    pure (gridUtf8Compare gu sgu)
  else pure (gc.data = sgc.data)

/-- Whether the cells from a column on are those searched for, `n` ones from the `bx`th one on. -/
def matchesFrom (gd sgd : Grid) (ax py : ℕ) : ℕ → ℕ → Exec Bool
  | 0, _ => pure true
  | n + 1, bx => do
    let same ← windowCopySearchCompare gd (uadd ax bx) py sgd bx
    if same then matchesFrom gd sgd ax py n (bx + 1) else pure false

/-- The first column, of `n` ones from `ax` on, where a line has the cells searched for. -/
def windowCopySearchLr (gd sgd : Grid) (py : ℕ) : ℕ → ℕ → Exec (Option ℕ)
  | 0, _ => pure none
  | n + 1, ax =>
    if uadd ax sgd.sx ≥ gd.sx then pure none
    else do
      let found ← matchesFrom gd sgd ax py sgd.sx 0
      if found then pure (some ax) else windowCopySearchLr gd sgd py n (ax + 1)

/-- The last column, of the first `ax` ones, where a line has the cells searched for. -/
def windowCopySearchRl (gd sgd : Grid) (py : ℕ) : ℕ → Exec (Option ℕ)
  | 0 => pure none
  | ax + 1 => do
    let room ← usub gd.sx ax
    if room < sgd.sx then windowCopySearchRl gd sgd py ax
    else do
      let found ← matchesFrom gd sgd ax py sgd.sx 0
      if found then pure (some ax) else windowCopySearchRl gd sgd py ax

/-- The last place in the first `i` lines, the last one of them being looked at up to a column. -/
def searchLinesUp (gd sgd : Grid) (sx : ℕ) : ℕ → ℕ → Exec (Option (ℕ × ℕ))
  | 0, _ => pure none
  | i + 1, last => do
    let found ← windowCopySearchRl gd sgd i (last + 1)
    match found with
    | some px => pure (some (px, i))
    | none => searchLinesUp gd sgd sx i sx

/-- The first place in `n` lines from `i` on, the first one of them being looked at from a column
    on. -/
def searchLinesDown (gd sgd : Grid) : ℕ → ℕ → ℕ → Exec (Option (ℕ × ℕ))
  | 0, _, _ => pure none
  | n + 1, i, first => do
    let found ← windowCopySearchLr gd sgd i (gd.sx - first) first
    match found with
    | some px => pure (some (px, i))
    | none => searchLinesDown gd sgd n (i + 1) 0

/-! ## Searching -/

/-- A grid with the text to search for. -/
def searchGrid (m : CopyMode) (searchstr : List UInt8) : Exec Grid := do
  let searchlen ← screenWriteStrlen m.options.utf8 searchstr
  let ss ← screenInit [] searchlen 1 0
  let ss ← screenWriteVnputs ss (-1) gridDefaultCell m.options.utf8 searchstr
  pure ss.grid

/-- The place before the cursor, unless it is at the start of the grid. -/
def placeBefore (m : CopyMode) : Exec (Option (ℕ × ℕ)) := do
  let top ← usub m.backing.grid.hsize m.oy
  let fy := uadd top m.cy
  if m.cx = 0 then
    if fy = 0 then pure none
    else do
      let fx ← usub m.backing.grid.sx 1
      pure (some (fx, fy - 1))
  else pure (some (m.cx - 1, fy))

/-- The place after the cursor, unless it is at the end of the grid. -/
def placeAfter (m : CopyMode) : Exec (Option (ℕ × ℕ)) := do
  let top ← usub m.backing.grid.hsize m.oy
  let fy := uadd top m.cy
  let last ← usub m.backing.grid.sx 1
  if m.cx = last then
    if fy = uadd m.backing.grid.hsize m.backing.grid.sy then pure none
    else pure (some (0, uadd fy 1))
  else pure (some (uadd m.cx 1, fy))

/-- Where a text is, looking up from the cursor. -/
def searchUp (m : CopyMode) (searchstr : List UInt8) : Exec (Option (ℕ × ℕ)) := do
  let gd := m.backing.grid
  let sgd ← searchGrid m searchstr
  let place ← placeBefore m
  match place with
  | none => pure none
  | some (fx, fy) => do
    let found ← searchLinesUp gd sgd gd.sx (fy + 1) fx
    match found with
    | some hit => pure (some hit)
    | none =>
      if m.options.wrapSearch then searchLinesUp gd sgd gd.sx (gd.hsize + gd.sy) (gd.sx - 1)
      else pure none

/-- Where a text is, looking down from the cursor. -/
def searchDown (m : CopyMode) (searchstr : List UInt8) : Exec (Option (ℕ × ℕ)) := do
  let gd := m.backing.grid
  let sgd ← searchGrid m searchstr
  let place ← placeAfter m
  match place with
  | none => pure none
  | some (fx, fy) => do
    let found ← searchLinesDown gd sgd (gd.hsize + gd.sy - (fy + 1)) fy fx
    match found with
    | some hit => pure (some hit)
    | none => if m.options.wrapSearch then searchLinesDown gd sgd (gd.hsize + gd.sy - 1) 0 0 else pure none

/-- Scroll to where a text is, if it is found. -/
def scrollToHit (search : CopyMode → List UInt8 → Exec (Option (ℕ × ℕ))) (m : CopyMode)
    (searchstr : List UInt8) : Exec CopyMode :=
  if searchstr = [] then pure m
  else do
    let found ← search m searchstr
    match found with
    | none => pure m
    | some (px, py) => windowCopyScrollTo m px py

def windowCopySearchUp (m : CopyMode) (searchstr : List UInt8) : Exec CopyMode :=
  scrollToHit searchUp m searchstr

def windowCopySearchDown (m : CopyMode) (searchstr : List UInt8) : Exec CopyMode :=
  scrollToHit searchDown m searchstr

/-- Scroll to a line counted from the bottom of the history. -/
def windowCopyGotoLine (m : CopyMode) (linestr : List UInt8) : Exec CopyMode :=
  match strtonum (String.ofList (linestr.map fun c => Char.ofNat c.toNat)) 0 m.backing.grid.hsize with
  | .error _ => pure m
  | .ok lineno => redrawAll { m with oy := lineno.toNat }

end Tmux
