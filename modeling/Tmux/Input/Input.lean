import Tmux.Arguments
import Tmux.Screen.Pane

/-!
# The input parser

What a program in a pane writes is parsed one byte at a time (`inputParse`). The parser
is a state machine (`InputState`): the table of each state has a transition for every
byte, with a handler (`InputHandler`) that is run on it and the state that comes next.
The handlers collect the parts of escape sequences and carry them out on the screen of
the pane.

Left out are what the parser does to the window of the pane (its name and the flags of
its alerts), what it passes on to the terminals, and the counting of control characters
to drop output.
-/

namespace Tmux

/-! ## States -/

inductive InputState
  | ground
  | escEnter
  | escIntermediate
  | csiEnter
  | csiParameter
  | csiIntermediate
  | csiIgnore
  | dcsEnter
  | dcsParameter
  | dcsIntermediate
  | dcsHandler
  | dcsEscape
  | dcsIgnore
  | oscString
  | apcString
  | renameString
  | consumeSt
  | utf8Three
  | utf8Two
  | utf8One
  deriving DecidableEq, Repr

/-- The handlers of transitions. -/
inductive InputHandler
  | print
  | intermediate
  | parameter
  | input
  | c0Dispatch
  | escDispatch
  | csiDispatch
  | dcsDispatch
  | utf8Open
  | utf8Add
  | utf8Close
  deriving DecidableEq, Repr

/-- Input transition: the first and the last byte it is for, the handler to run on one, if any,
    and the next state, if it changes. -/
structure InputTransition where
  first : UInt8
  last : UInt8
  handler : Option InputHandler := none
  state : Option InputState := none
  deriving DecidableEq, Repr

/-- State transitions available from all states. -/
def inputStateAnywhere : List InputTransition := [
  { first := 0x18, last := 0x18, handler := some .c0Dispatch, state := some .ground },
  { first := 0x1a, last := 0x1a, handler := some .c0Dispatch, state := some .ground },
  { first := 0x1b, last := 0x1b, state := some .escEnter }]

/-- Transitions for the control characters that are carried out, or dropped, in a sequence. -/
def inputControls (handler : Option InputHandler) : List InputTransition := [
  { first := 0x00, last := 0x17, handler },
  { first := 0x19, last := 0x19, handler },
  { first := 0x1c, last := 0x1f, handler }]

def inputStateGroundTable : List InputTransition :=
  inputStateAnywhere ++ inputControls (some .c0Dispatch) ++ [
  { first := 0x20, last := 0x7e, handler := some .print },
  { first := 0x7f, last := 0x7f },
  { first := 0x80, last := 0xc1, handler := some .print },
  { first := 0xc2, last := 0xdf, handler := some .utf8Open, state := some .utf8One },
  { first := 0xe0, last := 0xef, handler := some .utf8Open, state := some .utf8Two },
  { first := 0xf0, last := 0xf4, handler := some .utf8Open, state := some .utf8Three },
  { first := 0xf5, last := 0xff, handler := some .print }]

def inputStateEscEnterTable : List InputTransition :=
  inputStateAnywhere ++ inputControls (some .c0Dispatch) ++ [
  { first := 0x20, last := 0x2f, handler := some .intermediate, state := some .escIntermediate },
  { first := 0x30, last := 0x4f, handler := some .escDispatch, state := some .ground },
  { first := 0x50, last := 0x50, state := some .dcsEnter },
  { first := 0x51, last := 0x57, handler := some .escDispatch, state := some .ground },
  { first := 0x58, last := 0x58, state := some .consumeSt },
  { first := 0x59, last := 0x59, handler := some .escDispatch, state := some .ground },
  { first := 0x5a, last := 0x5a, handler := some .escDispatch, state := some .ground },
  { first := 0x5b, last := 0x5b, state := some .csiEnter },
  { first := 0x5c, last := 0x5c, handler := some .escDispatch, state := some .ground },
  { first := 0x5d, last := 0x5d, state := some .oscString },
  { first := 0x5e, last := 0x5e, state := some .consumeSt },
  { first := 0x5f, last := 0x5f, state := some .apcString },
  { first := 0x60, last := 0x6a, handler := some .escDispatch, state := some .ground },
  { first := 0x6b, last := 0x6b, state := some .renameString },
  { first := 0x6c, last := 0x7e, handler := some .escDispatch, state := some .ground },
  { first := 0x7f, last := 0xff }]

def inputStateEscIntermediateTable : List InputTransition :=
  inputStateAnywhere ++ inputControls (some .c0Dispatch) ++ [
  { first := 0x20, last := 0x2f, handler := some .intermediate },
  { first := 0x30, last := 0x7e, handler := some .escDispatch, state := some .ground },
  { first := 0x7f, last := 0xff }]

def inputStateCsiEnterTable : List InputTransition :=
  inputStateAnywhere ++ inputControls (some .c0Dispatch) ++ [
  { first := 0x20, last := 0x2f, handler := some .intermediate, state := some .csiIntermediate },
  { first := 0x30, last := 0x39, handler := some .parameter, state := some .csiParameter },
  { first := 0x3a, last := 0x3a, state := some .csiIgnore },
  { first := 0x3b, last := 0x3b, handler := some .parameter, state := some .csiParameter },
  { first := 0x3c, last := 0x3f, handler := some .intermediate, state := some .csiParameter },
  { first := 0x40, last := 0x7e, handler := some .csiDispatch, state := some .ground },
  { first := 0x7f, last := 0xff }]

def inputStateCsiParameterTable : List InputTransition :=
  inputStateAnywhere ++ inputControls (some .c0Dispatch) ++ [
  { first := 0x20, last := 0x2f, handler := some .intermediate, state := some .csiIntermediate },
  { first := 0x30, last := 0x39, handler := some .parameter },
  { first := 0x3a, last := 0x3a, state := some .csiIgnore },
  { first := 0x3b, last := 0x3b, handler := some .parameter },
  { first := 0x3c, last := 0x3f, state := some .csiIgnore },
  { first := 0x40, last := 0x7e, handler := some .csiDispatch, state := some .ground },
  { first := 0x7f, last := 0xff }]

def inputStateCsiIntermediateTable : List InputTransition :=
  inputStateAnywhere ++ inputControls (some .c0Dispatch) ++ [
  { first := 0x20, last := 0x2f, handler := some .intermediate },
  { first := 0x30, last := 0x3f, state := some .csiIgnore },
  { first := 0x40, last := 0x7e, handler := some .csiDispatch, state := some .ground },
  { first := 0x7f, last := 0xff }]

def inputStateCsiIgnoreTable : List InputTransition :=
  inputStateAnywhere ++ inputControls (some .c0Dispatch) ++ [
  { first := 0x20, last := 0x3f },
  { first := 0x40, last := 0x7e, state := some .ground },
  { first := 0x7f, last := 0xff }]

def inputStateDcsEnterTable : List InputTransition :=
  inputStateAnywhere ++ inputControls none ++ [
  { first := 0x20, last := 0x2f, handler := some .intermediate, state := some .dcsIntermediate },
  { first := 0x30, last := 0x39, handler := some .parameter, state := some .dcsParameter },
  { first := 0x3a, last := 0x3a, state := some .dcsIgnore },
  { first := 0x3b, last := 0x3b, handler := some .parameter, state := some .dcsParameter },
  { first := 0x3c, last := 0x3f, handler := some .intermediate, state := some .dcsParameter },
  { first := 0x40, last := 0x7e, handler := some .input, state := some .dcsHandler },
  { first := 0x7f, last := 0xff }]

def inputStateDcsParameterTable : List InputTransition :=
  inputStateAnywhere ++ inputControls none ++ [
  { first := 0x20, last := 0x2f, handler := some .intermediate, state := some .dcsIntermediate },
  { first := 0x30, last := 0x39, handler := some .parameter },
  { first := 0x3a, last := 0x3a, state := some .dcsIgnore },
  { first := 0x3b, last := 0x3b, handler := some .parameter },
  { first := 0x3c, last := 0x3f, state := some .dcsIgnore },
  { first := 0x40, last := 0x7e, handler := some .input, state := some .dcsHandler },
  { first := 0x7f, last := 0xff }]

def inputStateDcsIntermediateTable : List InputTransition :=
  inputStateAnywhere ++ inputControls none ++ [
  { first := 0x20, last := 0x2f, handler := some .intermediate },
  { first := 0x30, last := 0x3f, state := some .dcsIgnore },
  { first := 0x40, last := 0x7e, handler := some .input, state := some .dcsHandler },
  { first := 0x7f, last := 0xff }]

/-- Not available from here are the transitions available from all states. -/
def inputStateDcsHandlerTable : List InputTransition := [
  { first := 0x00, last := 0x1a, handler := some .input },
  { first := 0x1b, last := 0x1b, state := some .dcsEscape },
  { first := 0x1c, last := 0xff, handler := some .input }]

/-- Not available from here are the transitions available from all states. -/
def inputStateDcsEscapeTable : List InputTransition := [
  { first := 0x00, last := 0x5b, handler := some .input, state := some .dcsHandler },
  { first := 0x5c, last := 0x5c, handler := some .dcsDispatch, state := some .ground },
  { first := 0x5d, last := 0xff, handler := some .input, state := some .dcsHandler }]

def inputStateDcsIgnoreTable : List InputTransition :=
  inputStateAnywhere ++ inputControls none ++ [{ first := 0x20, last := 0xff }]

def inputStateOscStringTable : List InputTransition :=
  inputStateAnywhere ++ [
  { first := 0x00, last := 0x06 },
  { first := 0x07, last := 0x07, state := some .ground },
  { first := 0x08, last := 0x17 },
  { first := 0x19, last := 0x19 },
  { first := 0x1c, last := 0x1f },
  { first := 0x20, last := 0xff, handler := some .input }]

def inputStateApcStringTable : List InputTransition :=
  inputStateAnywhere ++ inputControls none ++ [{ first := 0x20, last := 0xff, handler := some .input }]

def inputStateRenameStringTable : List InputTransition :=
  inputStateAnywhere ++ inputControls none ++ [{ first := 0x20, last := 0xff, handler := some .input }]

def inputStateConsumeStTable : List InputTransition :=
  inputStateAnywhere ++ inputControls none ++ [{ first := 0x20, last := 0xff }]

/-- Not available from here are the transitions available from all states. -/
def inputStateUtf8ThreeTable : List InputTransition := [
  { first := 0x00, last := 0x7f, state := some .ground },
  { first := 0x80, last := 0xbf, handler := some .utf8Add, state := some .utf8Two },
  { first := 0xc0, last := 0xff, state := some .ground }]

/-- Not available from here are the transitions available from all states. -/
def inputStateUtf8TwoTable : List InputTransition := [
  { first := 0x00, last := 0x7f, state := some .ground },
  { first := 0x80, last := 0xbf, handler := some .utf8Add, state := some .utf8One },
  { first := 0xc0, last := 0xff, state := some .ground }]

/-- Not available from here are the transitions available from all states. -/
def inputStateUtf8OneTable : List InputTransition := [
  { first := 0x00, last := 0x7f, state := some .ground },
  { first := 0x80, last := 0xbf, handler := some .utf8Close, state := some .ground },
  { first := 0xc0, last := 0xff, state := some .ground }]

/-- The transitions of a state. -/
def InputState.transitions : InputState → List InputTransition
  | ground => inputStateGroundTable
  | escEnter => inputStateEscEnterTable
  | escIntermediate => inputStateEscIntermediateTable
  | csiEnter => inputStateCsiEnterTable
  | csiParameter => inputStateCsiParameterTable
  | csiIntermediate => inputStateCsiIntermediateTable
  | csiIgnore => inputStateCsiIgnoreTable
  | dcsEnter => inputStateDcsEnterTable
  | dcsParameter => inputStateDcsParameterTable
  | dcsIntermediate => inputStateDcsIntermediateTable
  | dcsHandler => inputStateDcsHandlerTable
  | dcsEscape => inputStateDcsEscapeTable
  | dcsIgnore => inputStateDcsIgnoreTable
  | oscString => inputStateOscStringTable
  | apcString => inputStateApcStringTable
  | renameString => inputStateRenameStringTable
  | consumeSt => inputStateConsumeStTable
  | utf8Three => inputStateUtf8ThreeTable
  | utf8Two => inputStateUtf8TwoTable
  | utf8One => inputStateUtf8OneTable

/-! ## The context -/

/-- Input parser context. -/
structure InputCtx where
  cell : GridCell := gridDefaultCell
  oldCell : GridCell := gridDefaultCell
  oldCx : ℕ := 0
  oldCy : ℕ := 0
  intermBuf : List UInt8 := []
  paramBuf : List UInt8 := []
  inputBuf : List UInt8 := []
  utf8data : Utf8Data := {}
  discard : Bool := false
  state : InputState := .ground
  /-- All input received since we were last in the ground state. -/
  sinceGround : List UInt8 := []
  deriving DecidableEq, Repr

/-- A pane with its parser, and the options of its window that the parser looks at. -/
structure Pane where
  screen : PaneScreen
  ictx : InputCtx := {}
  /-- The window's option for UTF-8. -/
  utf8 : Bool := false
  /-- What was written back to the program. -/
  replies : List String := []
  deriving DecidableEq, Repr

/-- The cursor and the grid of a pane. -/
abbrev Pane.base (wp : Pane) : Screen := wp.screen.base

/-- Do an operation on the screen of a pane. -/
def Pane.update (wp : Pane) (f : Screen → Exec Screen) : Exec Pane := do
  let base ← f wp.screen.base
  pure { wp with screen := { wp.screen with base } }

/-- Change the cell of the parser. -/
def Pane.setCell (wp : Pane) (f : GridCell → GridCell) : Pane :=
  { wp with ictx := { wp.ictx with cell := f wp.ictx.cell } }

/-- Reply to terminal query. -/
def inputReply (wp : Pane) (reply : String) : Pane := { wp with replies := wp.replies ++ [reply] }

/-- Clear saved state. -/
def inputClear (ictx : InputCtx) : InputCtx :=
  { ictx with intermBuf := [], paramBuf := [], inputBuf := [], discard := false }

/-! ## Parameters -/

/-- The parts of a string between semicolons, as given by `strsep`. -/
def splitParameters : List UInt8 → List (List UInt8)
  | [] => [[]]
  | c :: l =>
    if c = 59 then [] :: splitParameters l
    else (splitParameters l).modifyHead (c :: ·)

/-- The number that a part of the parameters is, -1 if it is empty. -/
def parameterValue (out : List UInt8) : Option ℤ :=
  if out = [] then some (-1)
  else
    match strtonum (String.ofList (out.map fun c => Char.ofNat c.toNat)) 0 intMax with
    | .error _ => none
    | .ok n => some n

/-- The most parameters there can be. -/
def paramListSize : ℕ := 24

/-- Split the parameter list (if any). Fails on a part that is not a number, and as soon as the
    list is full. -/
def inputSplit (ictx : InputCtx) : Option (List ℤ) :=
  if ictx.paramBuf = [] then some []
  else do
    let params ← (splitParameters ictx.paramBuf).mapM parameterValue
    if params.length < paramListSize then some params else none

/-- Get an argument or return default value. -/
def inputGet (params : List ℤ) (validx : ℕ) (minval defval : ℤ) : ℤ :=
  match params[validx]? with
  | none => defval
  | some retval => if retval = -1 then defval else if retval < minval then minval else retval

/-- An argument that is a count or a position, from one on. -/
def inputCount (params : List ℤ) (validx : ℕ) : ℕ := (inputGet params validx 1 1).toNat

/-! ## Commands -/

/-- Escape commands. -/
inductive InputEscType
  | decaln
  | deckpam
  | deckpnm
  | decrc
  | decsc
  | hts
  | ind
  | nel
  | ri
  | ris
  | scsoffG0
  | scsonG0
  deriving DecidableEq, Repr

/-- Control (CSI) commands. -/
inductive InputCsiType
  | cbt
  | cnl
  | cpl
  | cub
  | cud
  | cuf
  | cup
  | cuu
  | da
  | daTwo
  | dch
  | decscusr
  | decstbm
  | dl
  | dsr
  | ed
  | el
  | hpa
  | ich
  | il
  | rcp
  | rm
  | rmPrivate
  | scp
  | sgr
  | sm
  | smPrivate
  | tbc
  | vpa
  deriving DecidableEq, Repr

/-- Command table entry: the last byte of a command and those before its parameters. -/
structure InputTableEntry (α : Type) where
  ch : Char
  interm : String
  type : α

/-- Escape command table. -/
def inputEscTable : List (InputTableEntry InputEscType) := [
  { ch := '0', interm := "(", type := .scsoffG0 },
  { ch := '7', interm := "", type := .decsc },
  { ch := '8', interm := "", type := .decrc },
  { ch := '8', interm := "#", type := .decaln },
  { ch := '=', interm := "", type := .deckpam },
  { ch := '>', interm := "", type := .deckpnm },
  { ch := 'B', interm := "(", type := .scsonG0 },
  { ch := 'D', interm := "", type := .ind },
  { ch := 'E', interm := "", type := .nel },
  { ch := 'H', interm := "", type := .hts },
  { ch := 'M', interm := "", type := .ri },
  { ch := 'c', interm := "", type := .ris }]

/-- Control (CSI) command table. -/
def inputCsiTable : List (InputTableEntry InputCsiType) := [
  { ch := '@', interm := "", type := .ich },
  { ch := 'A', interm := "", type := .cuu },
  { ch := 'B', interm := "", type := .cud },
  { ch := 'C', interm := "", type := .cuf },
  { ch := 'D', interm := "", type := .cub },
  { ch := 'E', interm := "", type := .cnl },
  { ch := 'F', interm := "", type := .cpl },
  { ch := 'G', interm := "", type := .hpa },
  { ch := 'H', interm := "", type := .cup },
  { ch := 'J', interm := "", type := .ed },
  { ch := 'K', interm := "", type := .el },
  { ch := 'L', interm := "", type := .il },
  { ch := 'M', interm := "", type := .dl },
  { ch := 'P', interm := "", type := .dch },
  { ch := 'Z', interm := "", type := .cbt },
  { ch := 'c', interm := "", type := .da },
  { ch := 'c', interm := ">", type := .daTwo },
  { ch := 'd', interm := "", type := .vpa },
  { ch := 'f', interm := "", type := .cup },
  { ch := 'g', interm := "", type := .tbc },
  { ch := 'h', interm := "", type := .sm },
  { ch := 'h', interm := "?", type := .smPrivate },
  { ch := 'l', interm := "", type := .rm },
  { ch := 'l', interm := "?", type := .rmPrivate },
  { ch := 'm', interm := "", type := .sgr },
  { ch := 'n', interm := "", type := .dsr },
  { ch := 'q', interm := " ", type := .decscusr },
  { ch := 'r', interm := "", type := .decstbm },
  { ch := 's', interm := "", type := .scp },
  { ch := 'u', interm := "", type := .rcp }]

/-- The command of a table for a byte and those before the parameters. -/
def findCommand {α : Type} (table : List (InputTableEntry α)) (ictx : InputCtx) (ch : UInt8) : Option α :=
  (table.find? fun entry => entry.ch.toNat = ch.toNat &&
    entry.interm.toList.map Char.toNat = ictx.intermBuf.map UInt8.toNat).map InputTableEntry.type

end Tmux
