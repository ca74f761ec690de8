import Tmux.Input.Input

/-!
# Carrying out input

The handlers of the input parser: printing (`inputPrint`, `inputUtf8Close`), control
characters (`inputC0Dispatch`), escape sequences (`inputEscDispatch`) and control
sequences (`inputCsiDispatch`). `inputByte` runs the handler of the transition for a byte
and changes the state.
-/

namespace Tmux

open Exec (usub)

/-! ## Tabs -/

/-- Move right to the next tab point, or to the last column if there is none, in `n` columns. -/
def nextTab (tabs : List Bool) (cx : ℕ) : ℕ → Exec ℕ
  | 0 => pure cx
  | n + 1 => do
    if ← bitTest tabs (cx + 1) then pure (cx + 1) else nextTab tabs (cx + 1) n

/-- Tab, but not beyond the end of the line. -/
def tabRight (s : Screen) : Exec Screen := do
  let last ← usub s.grid.sx 1
  if s.cx ≥ last then pure s
  else do
    let cx ← nextTab s.tabs s.cx (last - s.cx)
    pure { s with cx }

/-- Move left to the previous tab point, or to the first column if there is none. -/
def previousTab (tabs : List Bool) : ℕ → Exec ℕ
  | 0 => pure 0
  | cx + 1 =>
    if cx = 0 then pure 0
    else do
      if ← bitTest tabs cx then pure cx else previousTab tabs cx

/-- Find the previous tab point, n times. -/
def previousTabs (tabs : List Bool) (cx : ℕ) : ℕ → Exec ℕ
  | 0 => pure cx
  | n + 1 =>
    if cx > 0 then do
      let cx ← previousTab tabs cx
      previousTabs tabs cx n
    else pure cx

/-- Tab back. -/
def tabLeft (s : Screen) (n : ℕ) : Exec Screen := do
  let cx ← previousTabs s.tabs s.cx n
  pure { s with cx }

/-- Give the tab point at the cursor a value, if it is not past the last column. -/
def putTab (s : Screen) (b : Bool) : Exec Screen :=
  if s.cx < s.grid.sx then do
    let tabs ← bitPut s.tabs s.cx b
    pure { s with tabs }
  else pure s

/-- Clear all tab points. -/
def clearTabs (s : Screen) : Exec Screen := do
  let last ← usub s.grid.sx 1
  let tabs ← bitNclear s.tabs 0 last
  pure { s with tabs }

/-! ## Control characters -/

/-- Execute C0 control sequence. -/
def inputC0Dispatch (wp : Pane) (ch : UInt8) : Exec Pane :=
  match ch with
  | 0x08 => wp.update screenWriteBackspace
  | 0x09 => wp.update tabRight
  | 0x0a | 0x0b | 0x0c => wp.update (screenWriteLinefeed · false)
  | 0x0d => wp.update fun s => pure (screenWriteCarriagereturn s)
  | 0x0e => pure (wp.setCell fun gc => { gc with attr := gc.attr ||| gridAttrCharset })
  | 0x0f => pure (wp.setCell fun gc => { gc with attr := gc.attr &&& ~~~gridAttrCharset })
  | _ => pure wp

/-! ## Escape sequences -/

/-- Save the cell and the cursor. -/
def saveCursor (wp : Pane) : Pane :=
  { wp with ictx := { wp.ictx with
      oldCell := wp.ictx.cell
      oldCx := wp.base.cx
      oldCy := wp.base.cy } }

/-- Restore the cell and the cursor. -/
def loadCursor (wp : Pane) : Exec Pane :=
  (wp.setCell fun _ => wp.ictx.oldCell).update (screenWriteCursormove · wp.ictx.oldCx wp.ictx.oldCy)

/-- Reset the parser and the screen. -/
def inputReset (wp : Pane) : Exec Pane :=
  { wp with ictx := { wp.ictx with
      cell := gridDefaultCell
      oldCell := gridDefaultCell
      oldCx := 0
      oldCy := 0 } }.update screenWriteReset

/-- Execute an escape command. -/
def inputEsc (wp : Pane) : InputEscType → Exec Pane
  | .ris => inputReset wp
  | .ind => wp.update (screenWriteLinefeed · false)
  | .nel => wp.update fun s => screenWriteLinefeed (screenWriteCarriagereturn s) false
  | .hts => wp.update (putTab · true)
  | .ri => wp.update screenWriteReverseindex
  | .deckpam => wp.update fun s => pure (screenWriteKkeypadmode s true)
  | .deckpnm => wp.update fun s => pure (screenWriteKkeypadmode s false)
  | .decsc => pure (saveCursor wp)
  | .decrc => loadCursor wp
  | .decaln => wp.update screenWriteAlignmenttest
  -- Not really supported, but faked up enough for those that use it to switch character sets.
  | .scsonG0 => pure (wp.setCell fun gc => { gc with attr := gc.attr &&& ~~~gridAttrCharset })
  | .scsoffG0 => pure (wp.setCell fun gc => { gc with attr := gc.attr ||| gridAttrCharset })

/-- The escape command that a byte completes, if any. -/
def escCommand (ictx : InputCtx) (ch : UInt8) : Option InputEscType :=
  if ictx.discard then none else findCommand inputEscTable ictx ch

/-- Execute escape sequence. -/
def inputEscDispatch (wp : Pane) (ch : UInt8) : Exec Pane :=
  match escCommand wp.ictx ch with
  | none => pure wp
  | some type => inputEsc wp type

/-! ## Attributes -/

/-- Reset a cell but for its character set. -/
def resetCell (gc : GridCell) : GridCell := { gridDefaultCell with attr := gc.attr &&& gridAttrCharset }

/-- Set the foreground colour. -/
def setFg (gc : GridCell) (fg : ℤ) : GridCell :=
  { gc with flags := gc.flags &&& ~~~gridFlagFg256, fg := UInt8.ofNat fg.toNat }

/-- Set the background colour. -/
def setBg (gc : GridCell) (bg : ℤ) : GridCell :=
  { gc with flags := gc.flags &&& ~~~gridFlagBg256, bg := UInt8.ofNat bg.toNat }

/-- Set a colour of 256, or the default one. -/
def set256 (gc : GridCell) (n m : ℤ) : GridCell :=
  if n = 38 then
    if m = -1 then setFg gc 8
    else { gc with flags := gc.flags ||| gridFlagFg256, fg := UInt8.ofNat m.toNat }
  else
    if m = -1 then setBg gc 8
    else { gc with flags := gc.flags ||| gridFlagBg256, bg := UInt8.ofNat m.toNat }

/-- Carry out an attribute. -/
def sgrAttribute (gc : GridCell) (n : ℤ) : GridCell :=
  if n = 0 ∨ n = 10 then resetCell gc
  else if n = 1 then { gc with attr := gc.attr ||| gridAttrBright }
  else if n = 2 then { gc with attr := gc.attr ||| gridAttrDim }
  else if n = 3 then { gc with attr := gc.attr ||| gridAttrItalics }
  else if n = 4 then { gc with attr := gc.attr ||| gridAttrUnderscore }
  else if n = 5 then { gc with attr := gc.attr ||| gridAttrBlink }
  else if n = 7 then { gc with attr := gc.attr ||| gridAttrReverse }
  else if n = 8 then { gc with attr := gc.attr ||| gridAttrHidden }
  else if n = 22 then { gc with attr := gc.attr &&& ~~~(gridAttrBright ||| gridAttrDim) }
  else if n = 23 then { gc with attr := gc.attr &&& ~~~gridAttrItalics }
  else if n = 24 then { gc with attr := gc.attr &&& ~~~gridAttrUnderscore }
  else if n = 25 then { gc with attr := gc.attr &&& ~~~gridAttrBlink }
  else if n = 27 then { gc with attr := gc.attr &&& ~~~gridAttrReverse }
  else if 30 ≤ n ∧ n ≤ 37 then setFg gc (n - 30)
  else if n = 39 then setFg gc 8
  else if 40 ≤ n ∧ n ≤ 47 then setBg gc (n - 40)
  else if n = 49 then setBg gc 8
  else if 90 ≤ n ∧ n ≤ 97 then setFg gc n
  else if 100 ≤ n ∧ n ≤ 107 then setBg gc (n - 10)
  else gc

/-- Carry out the attributes from the `i`th parameter on, `n` steps at most. -/
def sgrFrom (params : List ℤ) (gc : GridCell) : ℕ → ℕ → GridCell
  | 0, _ => gc
  | fuel + 1, i =>
    if i < params.length then
      let n := inputGet params i 0 0
      if n = 38 ∨ n = 48 then
        if inputGet params (i + 1) 0 (-1) ≠ 5 then sgrFrom params gc fuel (i + 2)
        else sgrFrom params (set256 gc n (inputGet params (i + 2) 0 (-1))) fuel (i + 3)
      else sgrFrom params (sgrAttribute gc n) fuel (i + 1)
    else gc

/-- Handle CSI SGR. -/
def inputCsiDispatchSgr (params : List ℤ) (gc : GridCell) : GridCell :=
  if params.length = 0 then resetCell gc else sgrFrom params gc params.length 0

/-! ## Control sequences -/

/-- Move the cursor to the top left and clear the screen. -/
def clearHome (s : Screen) : Exec Screen := do
  let s ← screenWriteCursormove s 0 0
  screenWriteClearscreen s

/-- Set or reset a private mode that only the screen has. -/
def setScreenMode (s : Screen) (mode : ℤ) (state : Bool) : Exec Screen :=
  match mode with
  | 1 => pure (screenWriteKcursormode s state)
  | 3 => clearHome s
  | 25 => pure (screenWriteCursormode s state)
  | 1000 => pure (if state then screenWriteMousemodeOn s modeMouseStandard else screenWriteMousemodeOff s)
  | 1001 => pure (if state then s else screenWriteMousemodeOff s)
  | 1002 => pure (if state then screenWriteMousemodeOn s modeMouseButton else screenWriteMousemodeOff s)
  | 1003 => pure (if state then screenWriteMousemodeOn s modeMouseAny else screenWriteMousemodeOff s)
  | 1005 => pure (screenWriteUtf8mousemode s state)
  | 2004 => pure (screenWriteBracketpaste s state)
  | _ => pure s

/-- Enter the alternate screen. -/
def alternateOn (wp : Pane) : Exec Pane := do
  let screen ← windowPaneAlternateOn wp.screen wp.ictx.cell
  pure { wp with screen }

/-- Leave the alternate screen. -/
def alternateOff (wp : Pane) : Exec Pane := do
  let (screen, saved) ← windowPaneAlternateOff wp.screen
  pure ({ wp with screen }.setCell fun gc => saved.getD gc)

/-- Set or reset a private mode. -/
def setPrivateMode (wp : Pane) (mode : ℤ) (state : Bool) : Exec Pane :=
  if mode = 1049 then if state then alternateOn wp else alternateOff wp
  else wp.update (setScreenMode · mode state)

/-- Set or reset a mode. -/
def setMode (wp : Pane) (mode : ℤ) (state : Bool) : Exec Pane :=
  if mode = 4 then wp.update fun s => pure (screenWriteInsertmode s state) else pure wp

/-- Erase in display. -/
def eraseDisplay (s : Screen) (params : List ℤ) : Exec Screen :=
  match inputGet params 0 0 0 with
  | 0 => screenWriteClearendofscreen s
  | 1 => screenWriteClearstartofscreen s
  | 2 => screenWriteClearscreen s
  -- Linux console extension to clear history.
  | 3 => if inputGet params 1 0 0 = 0 then screenWriteClearhistory s else pure s
  | _ => pure s

/-- Erase in line. -/
def eraseLine (s : Screen) (params : List ℤ) : Exec Screen :=
  match inputGet params 0 0 0 with
  | 0 => screenWriteClearendofline s
  | 1 => screenWriteClearstartofline s
  | 2 => screenWriteClearline s
  | _ => pure s

/-- Clear the tab point at the cursor, or all of them. -/
def tabClear (s : Screen) (params : List ℤ) : Exec Screen :=
  match inputGet params 0 0 0 with
  | 0 => putTab s false
  | 3 => clearTabs s
  | _ => pure s

/-- Report the status, or the position of the cursor. -/
def deviceStatus (wp : Pane) (params : List ℤ) : Pane :=
  match inputGet params 0 0 0 with
  | 5 => inputReply wp "\x1b[0n"
  | 6 => inputReply wp ("\x1b[" ++ toString (wp.base.cy + 1) ++ ";" ++ toString (wp.base.cx + 1) ++ "R")
  | _ => wp

/-- Execute a control command that is only for the screen. -/
def screenCsi (s : Screen) (params : List ℤ) : InputCsiType → Exec Screen
  | .cbt => tabLeft s (inputCount params 0)
  | .cub => screenWriteCursorleft s (inputCount params 0)
  | .cud => screenWriteCursordown s (inputCount params 0)
  | .cuf => screenWriteCursorright s (inputCount params 0)
  | .cup => screenWriteCursormove s (inputCount params 1 - 1) (inputCount params 0 - 1)
  | .cuu => screenWriteCursorup s (inputCount params 0)
  | .cnl => screenWriteCursordown (screenWriteCarriagereturn s) (inputCount params 0)
  | .cpl => screenWriteCursorup (screenWriteCarriagereturn s) (inputCount params 0)
  | .dch => screenWriteDeletecharacter s (inputCount params 0)
  | .decstbm => screenWriteScrollregion s (inputCount params 0 - 1)
      ((inputGet params 1 1 s.grid.sy).toNat - 1)
  | .dl => screenWriteDeleteline s (inputCount params 0)
  | .ed => eraseDisplay s params
  | .el => eraseLine s params
  | .hpa => screenWriteCursormove s (inputCount params 0 - 1) s.cy
  | .ich => screenWriteInsertcharacter s (inputCount params 0)
  | .il => screenWriteInsertline s (inputCount params 0)
  | .tbc => tabClear s params
  | .vpa => screenWriteCursormove s s.cx (inputCount params 0 - 1)
  | .decscusr => pure (screenSetCursorStyle s (inputGet params 0 0 0).toNat)
  | _ => pure s

/-- Execute a control command. -/
def inputCsi (wp : Pane) (params : List ℤ) : InputCsiType → Exec Pane
  | .da => pure (if inputGet params 0 0 0 = 0 then inputReply wp "\x1b[?1;2c" else wp)
  | .daTwo => pure (if inputGet params 0 0 0 = 0 then inputReply wp "\x1b[>0;95;0c" else wp)
  | .dsr => pure (deviceStatus wp params)
  | .rcp => loadCursor wp
  | .rm => setMode wp (inputGet params 0 0 (-1)) false
  | .rmPrivate => setPrivateMode wp (inputGet params 0 0 (-1)) false
  | .scp => pure (saveCursor wp)
  | .sgr => pure (wp.setCell (inputCsiDispatchSgr params))
  | .sm => setMode wp (inputGet params 0 0 (-1)) true
  | .smPrivate => setPrivateMode wp (inputGet params 0 0 (-1)) true
  | type => wp.update (screenCsi · params type)

/-- The control command that a byte completes, if any, and its parameters. -/
def csiCommand (ictx : InputCtx) (ch : UInt8) : Option (InputCsiType × List ℤ) :=
  if ictx.discard then none
  else do
    let params ← inputSplit ictx
    let type ← findCommand inputCsiTable ictx ch
    some (type, params)

/-- Execute control sequence. -/
def inputCsiDispatch (wp : Pane) (ch : UInt8) : Exec Pane :=
  match csiCommand wp.ictx ch with
  | none => pure wp
  | some (type, params) => inputCsi wp params type

/-! ## Collecting -/

/-- Collect a byte in a buffer with room for so many, or else discard the sequence. -/
def collect (buf : List UInt8) (size : ℕ) (ch : UInt8) : List UInt8 × Bool :=
  if buf.length = size then (buf, true) else (buf ++ [ch], false)

/-- Collect intermediate string. -/
def inputIntermediate (ictx : InputCtx) (ch : UInt8) : InputCtx :=
  let (intermBuf, full) := collect ictx.intermBuf 3 ch
  { ictx with intermBuf, discard := ictx.discard || full }

/-- Collect parameter string. -/
def inputParameter (ictx : InputCtx) (ch : UInt8) : InputCtx :=
  let (paramBuf, full) := collect ictx.paramBuf 63 ch
  { ictx with paramBuf, discard := ictx.discard || full }

/-- Collect input string. -/
def inputInput (ictx : InputCtx) (ch : UInt8) : InputCtx :=
  let (inputBuf, full) := collect ictx.inputBuf 255 ch
  { ictx with inputBuf, discard := ictx.discard || full }

/-! ## Characters -/

/-- Output this character to the screen. -/
def inputPrint (wp : Pane) (ch : UInt8) : Exec Pane :=
  let wp := wp.setCell fun gc => { gc with data := ch }
  wp.update (screenWriteCell · wp.ictx.cell none)

/-- Open UTF-8 character. Gives whether the state changes: if UTF-8 is off the byte is printed
    and the state does not. -/
def inputUtf8Open (wp : Pane) (ch : UInt8) : Exec (Pane × Bool) :=
  if !wp.utf8 then do
    let wp ← inputPrint wp ch
    pure (wp, false)
  else do
    let (utf8data, _) ← utf8Open ch
    pure ({ wp with ictx := { wp.ictx with utf8data } }, true)

/-- Append to UTF-8 character. -/
def inputUtf8Add (wp : Pane) (ch : UInt8) : Exec Pane := do
  let (utf8data, _) ← utf8Append wp.ictx.utf8data ch
  pure { wp with ictx := { wp.ictx with utf8data } }

/-- The cell written for a UTF-8 character. -/
def utf8CellOf (gc : GridCell) : GridCell := { gc with flags := gc.flags ||| gridFlagUtf8 }

/-- Close UTF-8 string. -/
def inputUtf8Close (wp : Pane) (ch : UInt8) : Exec Pane := do
  let wp ← inputUtf8Add wp ch
  let wp ← wp.update (screenWriteCell · (utf8CellOf wp.ictx.cell) (some wp.ictx.utf8data))
  pure (wp.setCell fun gc => { gc with flags := (gc.flags ||| gridFlagUtf8) &&& ~~~gridFlagUtf8 })

/-! ## Changing state -/

/-- OSC terminator (ST) received: the number of the option, and what follows it after a semicolon,
    is the title of the screen or the colour of the cursor. -/
def inputExitOsc (wp : Pane) : Exec Pane :=
  let isDigit := fun c : UInt8 => 48 ≤ c && c ≤ 57
  let digits := wp.ictx.inputBuf.takeWhile isDigit
  if wp.ictx.discard ∨ digits = [] then pure wp
  else
    let option := digits.foldl (fun n c => n * 10 + (c.toNat - 48)) 0
    let p := wp.ictx.inputBuf.dropWhile isDigit
    let p := if p.head? = some 59 then p.tail else p
    match option with
    | 0 | 2 => wp.update fun s => pure (screenSetTitle s p)
    | 12 => wp.update fun s => pure (screenSetCursorColour s p)
    -- No arguments allowed.
    | 112 => wp.update fun s => pure (if p = [] then screenSetCursorColour s [] else s)
    | _ => pure wp

/-- APC terminator (ST) received. -/
def inputExitApc (wp : Pane) : Exec Pane :=
  if wp.ictx.discard then pure wp
  else wp.update fun s => pure (screenSetTitle s wp.ictx.inputBuf)

/-- What is done on leaving a state. -/
def InputState.exit (wp : Pane) : InputState → Exec Pane
  | oscString => inputExitOsc wp
  | apcString => inputExitApc wp
  | _ => pure wp

/-- What is done on entering a state. -/
def InputState.enter (ictx : InputCtx) : InputState → InputCtx
  | escEnter | csiEnter | dcsEnter | oscString | apcString | renameString => inputClear ictx
  | _ => ictx

/-- Change input state. -/
def inputSetState (wp : Pane) (state : InputState) : Exec Pane := do
  let wp ← wp.ictx.state.exit wp
  let sinceGround := if state = .ground then [] else wp.ictx.sinceGround
  pure { wp with ictx := state.enter { wp.ictx with state, sinceGround } }

/-! ## Parsing -/

/-- Run a handler on a byte. Gives whether the state changes. -/
def runHandler (wp : Pane) (ch : UInt8) : InputHandler → Exec (Pane × Bool)
  | .print => (·, true) <$> inputPrint wp ch
  | .intermediate => pure ({ wp with ictx := inputIntermediate wp.ictx ch }, true)
  | .parameter => pure ({ wp with ictx := inputParameter wp.ictx ch }, true)
  | .input => pure ({ wp with ictx := inputInput wp.ictx ch }, true)
  | .c0Dispatch => (·, true) <$> inputC0Dispatch wp ch
  | .escDispatch => (·, true) <$> inputEscDispatch wp ch
  | .csiDispatch => (·, true) <$> inputCsiDispatch wp ch
  | .dcsDispatch => pure (wp, true)
  | .utf8Open => inputUtf8Open wp ch
  | .utf8Add => (·, true) <$> inputUtf8Add wp ch
  | .utf8Close => (·, true) <$> inputUtf8Close wp ch

/-- Run the handler of a transition, if any. -/
def runTransition (wp : Pane) (ch : UInt8) (itr : InputTransition) : Exec (Pane × Bool) :=
  match itr.handler with
  | none => pure (wp, true)
  | some handler => runHandler wp ch handler

/-- Switch state, if necessary. -/
def switchState (wp : Pane) (itr : InputTransition) : Exec Pane :=
  match itr.state with
  | none => pure wp
  | some state => inputSetState wp state

/-- If not in ground state, save input. -/
def saveInput (wp : Pane) (ch : UInt8) : Pane :=
  if wp.ictx.state = .ground then wp
  else { wp with ictx := { wp.ictx with sinceGround := wp.ictx.sinceGround ++ [ch] } }

/-- The transition for a byte. -/
def findTransition (state : InputState) (ch : UInt8) : Option InputTransition :=
  state.transitions.find? fun itr => itr.first ≤ ch && ch ≤ itr.last

/-- Parse a byte of input. -/
def inputByte (wp : Pane) (ch : UInt8) : Exec Pane :=
  match findTransition wp.ictx.state ch with
  -- No transition?
  | none => .fault .fatal
  | some itr => do
    let (wp, changes) ← runTransition wp ch itr
    if changes then do
      let wp ← switchState wp itr
      pure (saveInput wp ch)
    else pure wp

/-- Parse input. -/
def inputParse (wp : Pane) (buf : List UInt8) : Exec Pane := buf.foldlM inputByte wp

end Tmux
