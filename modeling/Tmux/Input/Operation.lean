import Tmux.Input.Dispatch

/-!
# What a byte of input asks of the screen

Most bytes only change the parser. The others carry out one operation (`Operation`) on
the screen of the pane: `byteOperation` is the one a byte asks for, and `perform` carries
it out.

What holds of the screen after the operation holds after the byte (`inputByte_meets`), if
it does not depend on the title of the screen and the colour of its cursor.
-/

namespace Tmux

open Exec (Meets)

/-- The operations on the screen of a pane. -/
inductive Operation
  | keep
  | backspace
  | tab
  | linefeed
  | nextLine
  | carriageReturn
  | setTab
  | reverseIndex
  | keypad (state : Bool)
  | cursorTo (cx cy : ℕ)
  | alignmentTest
  | reset
  | insertMode (state : Bool)
  | privateMode (mode : ℤ) (state : Bool)
  | command (type : InputCsiType) (params : List ℤ)
  | write (gc : GridCell) (utf8data : Option Utf8Data)
  | alternateOn (gc : GridCell)
  | alternateOff
  deriving DecidableEq, Repr

/-- Carry out an operation other than entering or leaving the alternate screen. -/
def performScreen (s : Screen) : Operation → Exec Screen
  | .backspace => screenWriteBackspace s
  | .tab => tabRight s
  | .linefeed => screenWriteLinefeed s false
  | .nextLine => screenWriteLinefeed (screenWriteCarriagereturn s) false
  | .carriageReturn => pure (screenWriteCarriagereturn s)
  | .setTab => putTab s true
  | .reverseIndex => screenWriteReverseindex s
  | .keypad state => pure (screenWriteKkeypadmode s state)
  | .cursorTo cx cy => screenWriteCursormove s cx cy
  | .alignmentTest => screenWriteAlignmenttest s
  | .reset => screenWriteReset s
  | .insertMode state => pure (screenWriteInsertmode s state)
  | .privateMode mode state => setScreenMode s mode state
  | .command type params => screenCsi s params type
  | .write gc utf8data => screenWriteCell s gc utf8data
  | .keep | .alternateOn _ | .alternateOff => pure s

/-- Carry out an operation on the screen of a pane. -/
def perform (wp : PaneScreen) : Operation → Exec PaneScreen
  | .alternateOn gc => windowPaneAlternateOn wp gc
  | .alternateOff => Prod.fst <$> windowPaneAlternateOff wp
  | op => (fun base => { wp with base }) <$> performScreen wp.base op

/-! ## Operations asked for -/

/-- The operation of a control character. -/
def controlOperation (ch : UInt8) : Operation :=
  match ch with
  | 0x08 => .backspace
  | 0x09 => .tab
  | 0x0a | 0x0b | 0x0c => .linefeed
  | 0x0d => .carriageReturn
  | _ => .keep

/-- The operation of an escape command. -/
def escOperation (wp : Pane) : InputEscType → Operation
  | .ris => .reset
  | .ind => .linefeed
  | .nel => .nextLine
  | .hts => .setTab
  | .ri => .reverseIndex
  | .deckpam => .keypad true
  | .deckpnm => .keypad false
  | .decrc => .cursorTo wp.ictx.oldCx wp.ictx.oldCy
  | .decaln => .alignmentTest
  | .decsc | .scsonG0 | .scsoffG0 => .keep

/-- The operation of setting or resetting a mode. -/
def modeOperation (mode : ℤ) (state : Bool) : Operation := if mode = 4 then .insertMode state else .keep

/-- The operation of setting or resetting a private mode. -/
def privateModeOperation (wp : Pane) (mode : ℤ) (state : Bool) : Operation :=
  if mode = 1049 then if state then .alternateOn wp.ictx.cell else .alternateOff
  else .privateMode mode state

/-- The operation of a control command. -/
def csiOperation (wp : Pane) (params : List ℤ) : InputCsiType → Operation
  | .da | .daTwo | .dsr | .scp | .sgr => .keep
  | .rcp => .cursorTo wp.ictx.oldCx wp.ictx.oldCy
  | .rm => modeOperation (inputGet params 0 0 (-1)) false
  | .rmPrivate => privateModeOperation wp (inputGet params 0 0 (-1)) false
  | .sm => modeOperation (inputGet params 0 0 (-1)) true
  | .smPrivate => privateModeOperation wp (inputGet params 0 0 (-1)) true
  | type => .command type params

/-- The operation of printing a byte. -/
def printOperation (wp : Pane) (ch : UInt8) : Operation := .write { wp.ictx.cell with data := ch } none

/-- The operation of the handler of a transition. -/
def handlerOperation (wp : Pane) (ch : UInt8) : InputHandler → Operation
  | .print => printOperation wp ch
  | .c0Dispatch => controlOperation ch
  | .escDispatch => ((escCommand wp.ictx ch).map (escOperation wp)).getD .keep
  | .csiDispatch => ((csiCommand wp.ictx ch).map fun c => csiOperation wp c.2 c.1).getD .keep
  | .utf8Open => if wp.utf8 then .keep else printOperation wp ch
  | .utf8Close =>
    match (utf8Append wp.ictx.utf8data ch).value? with
    | none => .keep
    | some (utf8data, _) => .write (utf8CellOf wp.ictx.cell) (some utf8data)
  | .intermediate | .parameter | .input | .dcsDispatch | .utf8Add => .keep

/-- The operation on the screen that a byte of input asks for. -/
def byteOperation (wp : Pane) (ch : UInt8) : Operation :=
  match findTransition wp.ictx.state ch with
  | none => .keep
  | some itr => (itr.handler.map (handlerOperation wp ch)).getD .keep

section

variable {wp : Pane} {op : Operation}

@[simp] theorem Pane.setCell_screen (wp : Pane) (f : GridCell → GridCell) :
    (wp.setCell f).screen = wp.screen := rfl

@[simp] theorem inputReply_screen (wp : Pane) (reply : String) : (inputReply wp reply).screen = wp.screen := rfl

@[simp] theorem perform_keep (wp : PaneScreen) : perform wp .keep = pure wp := rfl

theorem utf8Append_cases (utf8data : Utf8Data) (ch : UInt8) :
    (∃ p, utf8Append utf8data ch = pure p) ∨ utf8Append utf8data ch = .fault .fatal := by
  unfold utf8Append
  dsimp only
  split_ifs
  · exact .inr rfl
  · exact .inr rfl
  · exact .inl ⟨_, rfl⟩
  · exact .inl ⟨_, rfl⟩

theorem utf8Open_cases (ch : UInt8) : (∃ p, utf8Open ch = pure p) ∨ utf8Open ch = .fault .fatal := by
  unfold utf8Open
  extract_lets size
  by_cases hsize : size = 0
  · exact .inl ⟨_, if_pos hsize⟩
  · rw [if_neg hsize]
    rcases utf8Append_cases { size } ch with ⟨p, hp⟩ | hp
    · exact .inl ⟨_, by rw [hp, pure_bind]⟩
    · exact .inr (by rw [hp]; rfl)

/-- The screen of a pane on which an operation is done. -/
theorem screen_update (f : Screen → Exec Screen) :
    Pane.screen <$> wp.update f = (fun base => { wp.screen with base }) <$> f wp.base := by
  simp [Pane.update]

theorem inputC0Dispatch_performs (ch : UInt8) :
    Pane.screen <$> inputC0Dispatch wp ch = perform wp.screen (controlOperation ch) := by
  unfold controlOperation inputC0Dispatch
  split
  all_goals first | exact screen_update _ | simp

theorem inputEsc_performs (type : InputEscType) :
    Pane.screen <$> inputEsc wp type = perform wp.screen (escOperation wp type) := by
  cases type <;> simp only [inputEsc, escOperation]
  case ris => exact screen_update _
  case decrc => exact screen_update _
  all_goals first | exact screen_update _ | simp [saveCursor]

theorem alternateOn_performs : Pane.screen <$> alternateOn wp = perform wp.screen (.alternateOn wp.ictx.cell) := by
  simp [alternateOn, perform]

theorem alternateOff_performs : Pane.screen <$> alternateOff wp = perform wp.screen .alternateOff := by
  simp [alternateOff, perform]

theorem setPrivateMode_performs (mode : ℤ) (state : Bool) :
    Pane.screen <$> setPrivateMode wp mode state = perform wp.screen (privateModeOperation wp mode state) := by
  unfold setPrivateMode privateModeOperation
  split_ifs
  · exact alternateOn_performs
  · exact alternateOff_performs
  · exact screen_update _

theorem setMode_performs (mode : ℤ) (state : Bool) :
    Pane.screen <$> setMode wp mode state = perform wp.screen (modeOperation mode state) := by
  unfold setMode modeOperation
  split_ifs
  · exact screen_update _
  · simp

theorem deviceStatus_screen (params : List ℤ) : (deviceStatus wp params).screen = wp.screen := by
  unfold deviceStatus
  split <;> rfl

theorem inputCsi_performs (params : List ℤ) (type : InputCsiType) :
    Pane.screen <$> inputCsi wp params type = perform wp.screen (csiOperation wp params type) := by
  cases type <;> simp only [inputCsi, csiOperation]
  case rm => exact setMode_performs _ _
  case sm => exact setMode_performs _ _
  case rmPrivate => exact setPrivateMode_performs _ _
  case smPrivate => exact setPrivateMode_performs _ _
  case rcp => exact screen_update _
  case da => split_ifs <;> simp
  case daTwo => split_ifs <;> simp
  case dsr => simp [deviceStatus_screen]
  all_goals first | exact screen_update _ | simp [saveCursor]

theorem inputPrint_performs (ch : UInt8) :
    Pane.screen <$> inputPrint wp ch = perform wp.screen (printOperation wp ch) := by
  unfold inputPrint
  exact screen_update _

/-- A handler does the operation on the screen that it stands for, unless the parser stops the
    program. -/
theorem runHandler_performs (ch : UInt8) (handler : InputHandler) :
    (fun p => p.1.screen) <$> runHandler wp ch handler = perform wp.screen (handlerOperation wp ch handler) ∨
      runHandler wp ch handler = .fault .fatal := by
  cases handler with
  | print => exact .inl (by simpa [runHandler, handlerOperation] using inputPrint_performs ch)
  | c0Dispatch => exact .inl (by simpa [runHandler, handlerOperation] using inputC0Dispatch_performs ch)
  | escDispatch =>
    refine .inl ?_
    cases h : escCommand wp.ictx ch with
    | none => simp [runHandler, handlerOperation, inputEscDispatch, h]
    | some type => simpa [runHandler, handlerOperation, inputEscDispatch, h] using inputEsc_performs type
  | csiDispatch =>
    refine .inl ?_
    cases h : csiCommand wp.ictx ch with
    | none => simp [runHandler, handlerOperation, inputCsiDispatch, h]
    | some c => simpa [runHandler, handlerOperation, inputCsiDispatch, h] using inputCsi_performs c.2 c.1
  | utf8Open =>
    cases hutf8 : wp.utf8 with
    | false =>
      exact .inl (by simpa [runHandler, handlerOperation, inputUtf8Open, hutf8] using inputPrint_performs ch)
    | true =>
      rcases utf8Open_cases ch with ⟨p, hp⟩ | hp
      · exact .inl (by simp [runHandler, handlerOperation, inputUtf8Open, hutf8, hp])
      · exact .inr (by simp [runHandler, inputUtf8Open, hutf8, hp])
  | utf8Add =>
    rcases utf8Append_cases wp.ictx.utf8data ch with ⟨p, hp⟩ | hp
    · exact .inl (by simp [runHandler, handlerOperation, inputUtf8Add, hp])
    · exact .inr (by simp [runHandler, inputUtf8Add, hp])
  | utf8Close =>
    rcases utf8Append_cases wp.ictx.utf8data ch with ⟨p, hp⟩ | hp
    · refine .inl ?_
      simp only [runHandler, handlerOperation, inputUtf8Close, inputUtf8Add, hp, pure_bind,
        Functor.map_map, map_pure, Pane.setCell_screen, bind_pure_comp, Exec.value?_pure]
      exact screen_update _
    · exact .inr (by simp [runHandler, inputUtf8Close, inputUtf8Add, hp])
  | intermediate => exact .inl (by simp [runHandler, handlerOperation])
  | parameter => exact .inl (by simp [runHandler, handlerOperation])
  | input => exact .inl (by simp [runHandler, handlerOperation])
  | dcsDispatch => exact .inl (by simp [runHandler, handlerOperation])

end

/-! ## What a byte does -/

/-- What a pane's screen satisfies whatever its title and the colour of its cursor. -/
def Untitled (P : PaneScreen → Prop) : Prop :=
  ∀ wp title ccolour, P wp → P { wp with base := { wp.base with title, ccolour } }

section

variable {w : Exec.Allowed} {P : PaneScreen → Prop} {wp : Pane}

theorem runTransition_meets {ch : UInt8} {itr : InputTransition}
    (hfind : findTransition wp.ictx.state ch = some itr) (hfatal : w.faults .fatal)
    (h : Meets w P (perform wp.screen (byteOperation wp ch))) :
    Meets w (fun p => P p.1.screen) (runTransition wp ch itr) := by
  simp only [byteOperation, hfind] at h
  unfold runTransition
  cases hitr : itr.handler with
  | none =>
    rw [hitr] at h
    exact .pure (h.value rfl)
  | some handler =>
    rw [hitr] at h
    rcases runHandler_performs ch handler with hrun | hrun
    · exact Exec.meets_map.1 (hrun ▸ h)
    · simp only [hrun]
      exact hfatal

theorem inputExitOsc_meets (hP : Untitled P) (h : P wp.screen) :
    Meets w (fun wp' => P wp'.screen) (inputExitOsc wp) := by
  have hset : ∀ title ccolour, Meets w (fun wp' : Pane => P wp'.screen)
      (wp.update fun s => pure { s with title, ccolour }) := fun title ccolour => .pure (hP _ _ _ h)
  unfold inputExitOsc
  extract_lets _ digits option _ p
  clear_value p option digits
  by_cases hnone : wp.ictx.discard = true ∨ digits = []
  · rw [if_pos hnone]
    exact .pure h
  · rw [if_neg hnone]
    split
    · exact hset _ _
    · exact hset _ _
    · exact hset _ _
    · by_cases hp : p = []
      · simp only [hp, ↓reduceIte]
        exact hset _ _
      · simp only [hp, ↓reduceIte]
        exact .pure h
    · exact .pure h

theorem inputSetState_meets (hP : Untitled P) (h : P wp.screen) (state : InputState) :
    Meets w (fun wp' => P wp'.screen) (inputSetState wp state) := by
  suffices hexit : Meets w (fun wp' => P wp'.screen) (wp.ictx.state.exit wp) from
    hexit.bind fun wp' h' => .pure h'
  unfold InputState.exit
  split
  · exact inputExitOsc_meets hP h
  · unfold inputExitApc
    split_ifs
    · exact .pure h
    · exact .pure (hP _ _ _ h)
  · exact .pure h

theorem saveInput_screen (wp : Pane) (ch : UInt8) : (saveInput wp ch).screen = wp.screen := by
  unfold saveInput
  split_ifs <;> rfl

/-- What holds of the screen once the operation a byte asks for is carried out holds after the
    byte. -/
theorem inputByte_meets (hP : Untitled P) (hfatal : w.faults .fatal) {ch : UInt8}
    (h : Meets w P (perform wp.screen (byteOperation wp ch))) :
    Meets w (fun wp' => P wp'.screen) (inputByte wp ch) := by
  unfold inputByte
  cases hfind : findTransition wp.ictx.state ch with
  | none => exact hfatal
  | some itr =>
    refine (runTransition_meets hfind hfatal h).bind fun p hp => ?_
    dsimp only
    split_ifs
    · have hswitch : Meets w (fun wp' => P wp'.screen) (switchState p.1 itr) := by
        unfold switchState
        split
        · exact .pure hp
        · exact inputSetState_meets hP hp _
      refine hswitch.bind fun wp' h' => .pure ?_
      rwa [saveInput_screen]
    · exact .pure hp

end

end Tmux
