import Tmux.Copy.Search
import Tmux.Copy.Selection
import Tmux.Tty.Keys

/-!
# Keys in copy mode

What a key does in copy mode (`windowCopyKey`), given the command that the table of keys
has for it, and what the mouse (`windowCopyMouse`), another size of the pane
(`windowCopyResize`), more output (`windowCopyVadd`) and clearing the history of the pane
(`clearHistory`) do. The table of keys is one for commands, or the one for editing while a
line is read.
-/

namespace Tmux

open Exec (uadd usub forget)

/-- The commands that a key stands for: those for editing a line, and those of copy mode. -/
inductive ModeKeyCmd
  | other
  | editCancel
  | editBackspace
  | editDeleteLine
  | editEnter
  | backToIndentation
  | bottomLine
  | cancel
  | clearSelection
  | copyLine
  | copyEndOfLine
  | copySelection
  | down
  | endOfLine
  | gotoLine
  | halfPageDown
  | halfPageUp
  | historyBottom
  | historyTop
  | jump
  | jumpAgain
  | jumpReverse
  | jumpBack
  | jumpTo
  | jumpToBack
  | left
  | middleLine
  | nextPage
  | nextSpace
  | nextSpaceEnd
  | nextWord
  | nextWordEnd
  | previousPage
  | previousSpace
  | previousWord
  | rectangleToggle
  | right
  | scrollDown
  | scrollUp
  | searchAgain
  | searchDown
  | searchReverse
  | searchUp
  | selectLine
  | startNumberPrefix
  | startOfLine
  | startSelection
  | topLine
  | up
  deriving DecidableEq, Repr

/-- A key, and whether it has modifiers. -/
structure KeyPress where
  key : ℕ
  modified : Bool := false
  deriving DecidableEq, Repr

/-- What becomes of copy mode. -/
inductive CopyResult
  | stays (m : CopyMode)
  /-- Copy mode is left, with the text that is copied and the index of the item it replaces. -/
  | leaves (copied : Option (List UInt8 × ℤ))
  deriving DecidableEq, Repr

/-- Draw the last row again. -/
def redrawLast (m : CopyMode) : Exec CopyMode := do
  let last ← forget (usub m.screen.grid.sy 1)
  windowCopyRedrawLines m last 1

/-- Copy the selection and leave copy mode. -/
def copyAndLeave (m : CopyMode) (idx : ℤ) : Exec CopyResult := do
  let text ← copiedText m
  pure (.leaves (text.map fun buf => (buf, idx)))

/-! ## Reading -/

/-- The number of times that a command is repeated. -/
def repeats (m : CopyMode) : ℕ := if m.numprefix ≤ 0 then 1 else m.numprefix.toNat

/-- The key as a character. -/
def keyChar (key : ℕ) : ℤ := if key % 256 < 128 then (key % 256 : ℕ) else (key % 256 : ℕ) - 256

/-- Jump as a type of input asks to. -/
def jumpAs : WindowCopyInputType → CopyMode → Exec CopyMode
  | .jumpForward, m => windowCopyCursorJump m
  | .jumpBack, m => windowCopyCursorJumpBack m
  | .jumpToForward, m => windowCopyCursorJumpTo m
  | .jumpToBack, m => windowCopyCursorJumpToBack m
  | _, m => pure m

/-- The jump the other way. -/
def WindowCopyInputType.reverse : WindowCopyInputType → WindowCopyInputType
  | jumpForward => jumpBack
  | jumpBack => jumpForward
  | jumpToForward => jumpToBack
  | jumpToBack => jumpToForward
  | t => t

/-- Whether a key is read to jump to. -/
def WindowCopyInputType.jumps : WindowCopyInputType → Bool
  | jumpForward | jumpBack | jumpToForward | jumpToBack => true
  | _ => false

/-- Jump to the key read. -/
def jumpToKey (m : CopyMode) (k : KeyPress) : Exec CopyMode :=
  -- Ignore keys with modifiers.
  if !k.modified then times (jumpAs m.inputtype) (repeats m) { m with jumpchar := keyChar k.key }
  else pure m

def readJump (m : CopyMode) (k : KeyPress) : Exec CopyMode := do
  let m ← jumpToKey m k
  redrawLast { m with jumptype := m.inputtype, inputtype := .off }

/-- Read a digit of the prefix. Gives whether it is one. -/
def windowCopyKeyNumericPrefix (m : CopyMode) (k : KeyPress) : Exec (CopyMode × Bool) :=
  if k.key < 48 ∨ k.key > 57 then pure (m, false)
  -- no more than three digits
  else if m.numprefix ≥ 100 then pure (m, true)
  else do
    let m ← redrawLast { m with numprefix := m.numprefix * 10 + k.key - 48 }
    pure (m, true)

/-- Search as a type of input asks to. -/
def searchAs : WindowCopyInputType → List UInt8 → CopyMode → Exec CopyMode
  | .searchUp, str, m => windowCopySearchUp m str
  | .searchDown, str, m => windowCopySearchDown m str
  | _, _, m => pure m

/-- Search for the line read. -/
def enterSearch (m : CopyMode) : Exec CopyMode := do
  let searched ← times (searchAs m.inputtype m.inputstr) (repeats m) m
  pure { searched with searchtype := m.inputtype, searchstr := m.inputstr }

/-- Carry out what a line was read for. -/
def enterLine (m : CopyMode) : Exec CopyMode :=
  match m.inputtype with
  | .searchUp | .searchDown => enterSearch m
  | .gotoLine => do
    let m ← windowCopyGotoLine m m.inputstr
    pure { m with inputstr := [] }
  | _ => pure m

/-- Stop reading a line. -/
def inputOff (m : CopyMode) : Exec CopyMode :=
  redrawLast { m with numprefix := -1, inputtype := .off, inputprompt := [] }

/-- Edit the line that is read. -/
def windowCopyKeyInput (m : CopyMode) (k : KeyPress) : ModeKeyCmd → Exec CopyMode
  | .editCancel => inputOff m
  | .editBackspace => redrawLast { m with inputstr := m.inputstr.dropLast }
  | .editDeleteLine => redrawLast { m with inputstr := [] }
  | .editEnter => do
    let m ← enterLine m
    inputOff m
  | .other =>
    if k.modified ∨ k.key < 32 ∨ k.key > 126 then redrawLast m
    else redrawLast { m with inputstr := m.inputstr ++ [UInt8.ofNat k.key] }
  | _ => redrawLast m

/-- Start reading a key or a line. -/
def inputOn (m : CopyMode) (inputtype : WindowCopyInputType) (prompt : String) : Exec CopyMode :=
  redrawLast { m with inputtype, inputprompt := asciiBytes prompt }

/-! ## Commands -/

/-- Search again, or the other way. -/
def searchRepeated (m : CopyMode) (reverse : Bool) : Exec CopyMode :=
  match m.searchtype, reverse with
  | .searchUp, false | .searchDown, true =>
    times (fun m => windowCopySearchUp m m.searchstr) (repeats m) m
  | .searchDown, false | .searchUp, true =>
    times (fun m => windowCopySearchDown m m.searchstr) (repeats m) m
  | _, _ => pure m

/-- Select to the end of the line, or of the lines below. -/
def selectToEnd (m : CopyMode) : Exec CopyMode := do
  let np := repeats m
  let m ← windowCopyStartSelection m
  let m ← times (windowCopyCursorDown · false) (np - 1) m
  let m ← windowCopyCursorEndOfLine m
  windowCopyRedrawScreen m

/-- The middle row of the screen. -/
def middleRow (m : CopyMode) : Exec ℕ := do
  let last ← usub m.screen.grid.sy 1
  pure (last / 2)

/-- Put the cursor at the start of a row. -/
def moveToRow (m : CopyMode) (row : Exec ℕ) : Exec CopyMode := do
  let cy ← row
  redrawAll { m with cx := 0, cy }

/-- The commands that move the cursor, scroll or select. -/
def windowCopyMove (m : CopyMode) (cmd : ModeKeyCmd) : Exec CopyMode :=
  let np := repeats m
  let sy := m.screen.grid.sy
  match cmd with
  | .left => times windowCopyCursorLeft np m
  | .right => times windowCopyCursorRight np m
  | .up => times (windowCopyCursorUp · false) np m
  | .down => times (windowCopyCursorDown · false) np m
  | .scrollUp => times (windowCopyCursorUp · true) np m
  | .scrollDown => times (windowCopyCursorDown · true) np m
  | .previousPage => times windowCopyPageup np m
  | .nextPage => redrawAll ((scrollForward (pageSize m))^[np] m)
  | .halfPageUp => redrawAll ((scrollBack (sy / 2))^[np] m)
  | .halfPageDown => redrawAll ((scrollForward (sy / 2))^[np] m)
  | .topLine => moveToRow m (pure 0)
  | .middleLine => moveToRow m (middleRow m)
  | .bottomLine => moveToRow m (usub sy 1)
  | .historyTop => moveToRow { m with oy := m.backing.grid.hsize } (pure 0)
  | .historyBottom => moveToRow { m with oy := 0 } (usub sy 1)
  | .startSelection => do
    let m ← windowCopyStartSelection m
    windowCopyRedrawScreen m
  | .copyLine | .selectLine => do
    let m ← windowCopyCursorStartOfLine m
    selectToEnd m
  | .copyEndOfLine => selectToEnd m
  | .clearSelection => do
    let m ← windowCopyClearSelection m
    windowCopyRedrawScreen m
  | .startOfLine => windowCopyCursorStartOfLine m
  | .backToIndentation => windowCopyCursorBackToIndentation m
  | .endOfLine => windowCopyCursorEndOfLine m
  | .nextSpace => times (windowCopyCursorNextWord · [32]) np m
  | .nextSpaceEnd => times (windowCopyCursorNextWordEnd · [32]) np m
  | .nextWord => times (windowCopyCursorNextWord · m.options.wordSeparators) np m
  | .nextWordEnd => times (windowCopyCursorNextWordEnd · m.options.wordSeparators) np m
  | .previousSpace => times (windowCopyCursorPreviousWord · [32]) np m
  | .previousWord => times (windowCopyCursorPreviousWord · m.options.wordSeparators) np m
  | .jumpAgain => times (jumpAs m.jumptype) np m
  | .jumpReverse => times (jumpAs m.jumptype.reverse) np m
  | .searchAgain => searchRepeated m false
  | .searchReverse => searchRepeated m true
  | .rectangleToggle => windowCopyRectangleToggle m
  | _ => pure m

/-- Start reading a digit of the prefix, if the key is one. -/
def startNumberPrefix (m : CopyMode) (k : KeyPress) : Exec CopyMode :=
  if k.key ≥ 48 ∧ k.key ≤ 57 then
    Prod.fst <$> windowCopyKeyNumericPrefix { m with inputtype := .numericPrefix, numprefix := 0 } k
  else pure { m with numprefix := -1 }

/-- Carry out a command. -/
def windowCopyCommand (m : CopyMode) (sess : Bool) (k : KeyPress) (cmd : ModeKeyCmd) : Exec CopyResult :=
  match cmd with
  | .cancel => pure (.leaves none)
  | .copySelection =>
    if sess then copyAndLeave m m.numprefix else pure (.stays { m with numprefix := -1 })
  | .jump => .stays <$> inputOn { m with inputstr := [] } .jumpForward "Jump Forward"
  | .jumpBack => .stays <$> inputOn { m with inputstr := [] } .jumpBack "Jump Back"
  | .jumpTo => .stays <$> inputOn { m with inputstr := [] } .jumpToForward "Jump To"
  | .jumpToBack => .stays <$> inputOn { m with inputstr := [] } .jumpToBack "Jump To Back"
  | .searchUp => .stays <$> inputOn m .searchUp "Search Up"
  | .searchDown => .stays <$> inputOn m .searchDown "Search Down"
  | .gotoLine => .stays <$> inputOn { m with inputstr := [] } .gotoLine "Goto Line"
  | .startNumberPrefix => .stays <$> startNumberPrefix m k
  | cmd => do
    let m ← windowCopyMove m cmd
    if sess ∧ (cmd = .copyLine ∨ cmd = .copyEndOfLine) then copyAndLeave m (-1)
    else pure (.stays { m with numprefix := -1 })

/-- What a key does, `cmd` being what the table of keys has for it. -/
def windowCopyKey (m : CopyMode) (sess : Bool) (k : KeyPress) (cmd : ModeKeyCmd) : Exec CopyResult :=
  if m.inputtype.jumps then .stays <$> readJump m k
  else if m.inputtype = .numericPrefix then do
    let (m, digit) ← windowCopyKeyNumericPrefix m k
    if digit then pure (.stays m)
    else do
      let m ← redrawLast { m with inputtype := .off }
      windowCopyCommand m sess k cmd
  else if m.inputtype ≠ .off then .stays <$> windowCopyKeyInput m k cmd
  else windowCopyCommand m sess k cmd

/-! ## The mouse -/

def mouseUp : ℕ := 3

def mouseButton : ℕ := 3

def mouse45 : ℕ := 64

/-- Stop reading motion, and copy the selection. -/
def resetMouse (m : CopyMode) (sess : Bool) : Exec CopyResult :=
  let m := { m with screen := (m.screen.setMode modeMouseButton false).setMode modeMouseStandard true }
  if sess then copyAndLeave m (-1) else pure (.stays m)

def windowCopyMouse (m : CopyMode) (sess : Bool) (ev : MouseEvent) : Exec CopyResult :=
  if ev.x ≥ m.screen.grid.sx then pure (.stays m)
  else if ev.y ≥ m.screen.grid.sy then pure (.stays m)
  -- If mouse wheel (buttons 4 and 5), scroll.
  else if ev.b &&& mouse45 ≠ 0 then
    if ev.b &&& mouseButton = 0 then .stays <$> times (windowCopyCursorUp · false) 5 m
    else if ev.b &&& mouseButton = 1 then do
      let m ← times (windowCopyCursorDown · false) 5 m
      if m.oy = 0 then resetMouse m sess else pure (.stays m)
    else pure (.stays m)
  -- Move the cursor while buttons are still pressed, or stop the selection on their release.
  else if m.screen.hasMode modeMouseButton then
    if ev.b &&& mouseButton ≠ mouseUp then do
      let m ← windowCopyUpdateCursor m ev.x ev.y
      let (m, selected) ← windowCopyUpdateSelection m
      if selected then .stays <$> windowCopyRedrawScreen m else pure (.stays m)
    else resetMouse m sess
  -- Otherwise if other buttons pressed, start selection and motion.
  else if ev.b &&& mouseButton ≠ mouseUp then do
    let m := { m with screen := (m.screen.setMode modeMouseStandard false).setMode modeMouseButton true }
    let m ← windowCopyUpdateCursor m ev.x ev.y
    let m ← windowCopyStartSelection m
    .stays <$> windowCopyRedrawScreen m
  else pure (.stays m)

/-! ## The backing screen -/

/-- Keep the position on the screen and in the history. -/
def clampPosition (m : CopyMode) (sx sy : ℕ) : Exec CopyMode := do
  let last ← usub sy 1
  pure { m with
    cy := limit m.cy last
    cx := limit m.cx sx
    oy := limit m.oy m.backing.grid.hsize }

/-- Resize the backing screen, if it is the one of the pane, or if it is not. -/
def resizeBacking (m : CopyMode) (ofPane : Bool) (sx sy : ℕ) : Exec Screen :=
  if m.ofPane = ofPane then screenResize m.backing sx sy else pure m.backing

/-- Another size, the backing screen having it already if it is the one of the pane. -/
def windowCopyResize (m : CopyMode) (sx sy : ℕ) : Exec CopyMode := do
  let screen ← screenResize m.screen sx sy
  let backing ← resizeBacking m false sx sy
  let m ← clampPosition { m with screen, backing } sx sy
  let m ← windowCopyClearSelection m
  let last ← forget (usub m.screen.grid.sy 1)
  let m ← windowCopyWriteLines m 0 last
  windowCopyRedrawScreen m

/-- Resize the pane. -/
def resizePane (m : CopyMode) (sx sy : ℕ) : Exec CopyMode :=
  if sx = m.screen.grid.sx ∧ sy = m.screen.grid.sy then pure m
  else do
    let backing ← resizeBacking m true sx sy
    windowCopyResize { m with backing } sx sy

/-- Write a line of output to the backing screen, on a new line unless it is the first one. -/
def writeOutput (m : CopyMode) (msg : List UInt8) : Exec Screen :=
  if m.backingWritten then do
    let backing ← screenWriteLinefeed (screenWriteCarriagereturn m.backing) false
    screenWriteVnputs backing 0 gridDefaultCell m.options.utf8 msg
  else screenWriteVnputs m.backing 0 gridDefaultCell m.options.utf8 msg

/-- Draw the top line if the history has changed. -/
def drawTop (m : CopyMode) : Exec CopyMode :=
  if m.backing.grid.hsize ≠ 0 then windowCopyRedrawLines m 0 1 else pure m

/-- Draw the top line if the history has changed, and the line written if it's visible. -/
def drawOutput (m : CopyMode) : Exec CopyMode := do
  let m ← drawTop m
  if uadd m.backing.cy m.oy < m.backing.grid.sy then windowCopyRedrawLines m m.backing.cy 1 else pure m

/-- Add a line of output. -/
def windowCopyVadd (m : CopyMode) (msg : List UInt8) : Exec CopyMode :=
  if m.ofPane then pure m
  else do
    let backing ← writeOutput m msg
    let grown ← usub backing.grid.hsize m.backing.grid.hsize
    drawOutput { m with backing, backingWritten := true, oy := uadd m.oy grown }

/-- Clear the history of the pane. -/
def clearHistory (m : CopyMode) : Exec CopyMode :=
  if m.ofPane then do
    let backing ← screenWriteClearhistory m.backing
    pure { m with backing }
  else pure m

/-! ## Runs -/

/-- What happens to a pane in copy mode. -/
inductive CopyEvent
  | key (sess : Bool) (k : KeyPress) (cmd : ModeKeyCmd)
  | mouse (sess : Bool) (ev : MouseEvent)
  | pageup
  | resize (sx sy : ℕ)
  | output (msg : List UInt8)
  | clearHistory
  deriving DecidableEq, Repr

/-- What an event does in copy mode. -/
def copyEvent (m : CopyMode) : CopyEvent → Exec CopyResult
  | .key sess k cmd => windowCopyKey m sess k cmd
  | .mouse sess ev => windowCopyMouse m sess ev
  | .pageup => .stays <$> windowCopyPageup m
  | .resize sx sy => .stays <$> resizePane m sx sy
  | .output msg => .stays <$> windowCopyVadd m msg
  | .clearHistory => .stays <$> clearHistory m

/-- A step of a run, which is over once copy mode is left. -/
def copyStep (r : CopyResult) (e : CopyEvent) : Exec CopyResult :=
  match r with
  | .stays m => copyEvent m e
  | .leaves copied => pure (.leaves copied)

/-- Enter copy mode on a pane. -/
def enterCopyMode (options : CopyOptions) (base : Screen) (modeMouse : Bool) : Exec CopyMode := do
  let m ← windowCopyInit options base modeMouse
  windowCopyInitFromPane m base

/-- Enter copy mode for the output of a command. -/
def enterForOutput (options : CopyOptions) (base : Screen) (modeMouse : Bool) : Exec CopyMode := do
  let m ← windowCopyInit options base modeMouse
  windowCopyInitForOutput m base

end Tmux
