import Tmux.Input.Range

/-!
# Pending input

The bytes received since the parser was last in the ground state are kept, to hand a
sequence that is not finished to another parser.

What the parser has of such a sequence or character is `InputCtx.pending`. The way it
goes on from there depends on nothing else (`pending_courseByte`): the *course* of the
parser is what is left of its context without the cells and the positions that are only
for the screen, and goes on by itself (`courseByte`, `inputByte_courses`). So the bytes kept
lead a fresh parser to the same place (`reproduced_courseParse`).
-/

namespace Tmux

open Exec (Meets)

/-! ## What is pending -/

/-- Whether the parser is in a UTF-8 character. -/
def InputState.inCharacter : InputState → Bool
  | utf8Three | utf8Two | utf8One => true
  | _ => false

/-- What the parser has of what is not finished. -/
inductive Pending
  | nothing
  | character (state : InputState) (utf8data : Utf8Data)
  | sequence (state : InputState) (intermBuf paramBuf inputBuf : List UInt8) (discard : Bool)
  deriving DecidableEq, Repr

def InputCtx.pending (ictx : InputCtx) : Pending :=
  if ictx.state = .ground then .nothing
  else if ictx.state.inCharacter then .character ictx.state ictx.utf8data
  else .sequence ictx.state ictx.intermBuf ictx.paramBuf ictx.inputBuf ictx.discard

/-- The state that the parser is in with something pending. -/
def Pending.state : Pending → InputState
  | nothing => .ground
  | character state _ => state
  | sequence state _ _ _ _ => state

@[simp] theorem pending_state (ictx : InputCtx) : ictx.pending.state = ictx.state := by
  unfold InputCtx.pending
  split_ifs with h
  · exact h.symm
  · rfl
  · rfl

theorem pending_of_ground {ictx : InputCtx} (h : ictx.state = .ground) : ictx.pending = .nothing := if_pos h

/-- What is pending decides on the state, and on the character or else on the buffers. -/
theorem pending_eq_iff {a b : InputCtx} : a.pending = b.pending ↔ a.state = b.state ∧
    (a.state.inCharacter = true → a.utf8data = b.utf8data) ∧
    (a.state ≠ .ground → a.state.inCharacter = false → a.intermBuf = b.intermBuf ∧
      a.paramBuf = b.paramBuf ∧ a.inputBuf = b.inputBuf ∧ a.discard = b.discard) := by
  constructor
  · intro h
    have hstate : a.state = b.state := by rw [← pending_state a, h, pending_state]
    refine ⟨hstate, fun hin => ?_, fun hground hin => ?_⟩
    · have hground : a.state ≠ .ground := by rintro h'; rw [h'] at hin; cases hin
      simp only [InputCtx.pending, ← hstate, if_neg hground, if_pos hin, Pending.character.injEq] at h
      exact h.2
    · simp only [InputCtx.pending, ← hstate, if_neg hground, hin, Bool.false_eq_true, if_false,
        Pending.sequence.injEq] at h
      exact h.2
  · rintro ⟨hstate, hcharacter, hsequence⟩
    unfold InputCtx.pending
    rw [← hstate]
    split_ifs with hground hin
    · rfl
    · rw [hcharacter hin]
    · obtain ⟨h₁, h₂, h₃, h₄⟩ := hsequence hground (by simpa using hin)
      rw [h₁, h₂, h₃, h₄]

/-! ## The tables -/

theorem findTransition_ofNat (state : InputState) :
    ∀ n < 256, (findTransition state (UInt8.ofNat n)).isSome = true := by
  cases state <;> decide +kernel

/-- Every state has a transition for every byte. -/
theorem findTransition_total (state : InputState) (ch : UInt8) :
    ∃ itr, findTransition state ch = some itr := by
  have h := findTransition_ofNat state ch.toNat ch.toNat_lt
  rw [UInt8.ofNat_toNat] at h
  exact Option.isSome_iff_exists.1 h

/-- Handlers that read or change the character. -/
def InputHandler.onCharacter : InputHandler → Bool
  | utf8Open | utf8Add | utf8Close => true
  | _ => false

/-- From the ground state a sequence is entered by an escape, a character by its first byte. -/
theorem ground_transitions : ∀ itr ∈ InputState.ground.transitions,
    (itr.state = none ∨ itr.state = some .ground ∨ itr.state = some .escEnter) ∨
      itr.handler = some .utf8Open ∧ ∃ state, itr.state = some state ∧ state.inCharacter = true := by
  decide

/-- A character goes on with its next byte, or ends. -/
theorem character_transitions (state : InputState) (h : state.inCharacter = true) :
    ∀ itr ∈ state.transitions, (itr.state = some .ground ∧ itr.handler ≠ some .utf8Open) ∨
      itr.handler = some .utf8Add ∧ ∃ state', itr.state = some state' ∧ state'.inCharacter = true := by
  revert h
  cases state <;> decide

/-- In a sequence there are no characters. -/
theorem sequence_transitions (state : InputState) (hground : state ≠ .ground)
    (h : state.inCharacter = false) :
    ∀ itr ∈ state.transitions, (∀ handler ∈ itr.handler, handler.onCharacter = false) ∧
      ∀ state' ∈ itr.state, state'.inCharacter = false := by
  revert hground h
  cases state <;> decide

/-! ## The course of the parser -/

/-- The context without what is only for the screen. -/
def InputCtx.course (ictx : InputCtx) : InputCtx :=
  { ictx with cell := gridDefaultCell, oldCell := gridDefaultCell, oldCx := 0, oldCy := 0 }

/-- What a handler does to the course, and whether the state changes. -/
def courseHandler (utf8 : Bool) (ictx : InputCtx) (ch : UInt8) : InputHandler → InputCtx × Bool
  | .intermediate => (inputIntermediate ictx ch, true)
  | .parameter => (inputParameter ictx ch, true)
  | .input => (inputInput ictx ch, true)
  | .utf8Open =>
    if utf8 then
      ({ ictx with utf8data := (((utf8Open ch).value?).map Prod.fst).getD ictx.utf8data }, true)
    else (ictx, false)
  | .utf8Add | .utf8Close =>
    ({ ictx with utf8data := (((utf8Append ictx.utf8data ch).value?).map Prod.fst).getD ictx.utf8data }, true)
  | .print | .c0Dispatch | .escDispatch | .csiDispatch | .dcsDispatch => (ictx, true)

/-- What changing the state does to the course. -/
def courseSetState (ictx : InputCtx) (state : InputState) : InputCtx :=
  state.enter { ictx with state, sinceGround := if state = .ground then [] else ictx.sinceGround }

/-- What the handler of a transition does to the course, and whether the state changes. -/
def courseRun (utf8 : Bool) (ictx : InputCtx) (ch : UInt8) (itr : InputTransition) : InputCtx × Bool :=
  match itr.handler with
  | none => (ictx, true)
  | some handler => courseHandler utf8 ictx ch handler

/-- What switching state, if necessary, and saving the byte do to the course. -/
def courseSwitch (ictx : InputCtx) (ch : UInt8) (itr : InputTransition) : InputCtx :=
  let ictx :=
    match itr.state with
    | none => ictx
    | some state => courseSetState ictx state
  if ictx.state = .ground then ictx else { ictx with sinceGround := ictx.sinceGround ++ [ch] }

/-- What a transition does to the course. -/
def courseTransition (utf8 : Bool) (ictx : InputCtx) (ch : UInt8) (itr : InputTransition) : InputCtx :=
  let (ictx, changes) := courseRun utf8 ictx ch itr
  if changes then courseSwitch ictx ch itr else ictx

/-- What a byte does to the course. -/
def courseByte (utf8 : Bool) (ictx : InputCtx) (ch : UInt8) : InputCtx :=
  ((findTransition ictx.state ch).map (courseTransition utf8 ictx ch)).getD ictx

/-- What bytes do to the course. -/
def courseParse (utf8 : Bool) (ictx : InputCtx) (buf : List UInt8) : InputCtx :=
  buf.foldl (courseByte utf8) ictx

section

variable {wp wp' : Pane}

/-- The parser of a pane after a step, as far as its course goes. -/
def Pane.Courses (wp : Pane) (ictx : InputCtx) (wp' : Pane) : Prop :=
  wp'.ictx.course = ictx ∧ wp'.utf8 = wp.utf8

theorem Pane.Courses.refl (wp : Pane) : wp.Courses wp.ictx.course wp := ⟨rfl, rfl⟩

theorem update_courses {ictx : InputCtx} (h : wp.Courses ictx wp') (f : Screen → Exec Screen) :
    Meets .all (wp.Courses ictx) (wp'.update f) := by
  unfold Pane.update
  exact (Exec.meets_all _).bind fun base _ => .pure h

theorem setCell_courses {ictx : InputCtx} (h : wp.Courses ictx wp') (f : GridCell → GridCell) :
    wp.Courses ictx (wp'.setCell f) := h

/-- Control characters, commands and printing are only for the screen. -/
theorem inputC0Dispatch_courses (ch : UInt8) :
    Meets .all (wp.Courses wp.ictx.course) (inputC0Dispatch wp ch) := by
  unfold inputC0Dispatch
  split
  all_goals first
    | exact update_courses (.refl wp) _
    | exact .pure (setCell_courses (.refl wp) _)
    | exact .pure (.refl wp)

theorem loadCursor_courses : Meets .all (wp.Courses wp.ictx.course) (loadCursor wp) :=
  update_courses (setCell_courses (.refl wp) _) _

theorem inputEscDispatch_courses (ch : UInt8) :
    Meets .all (wp.Courses wp.ictx.course) (inputEscDispatch wp ch) := by
  unfold inputEscDispatch
  split
  · exact .pure (.refl wp)
  · rename_i type _
    cases type <;> simp only [inputEsc]
    case ris => exact update_courses ⟨rfl, rfl⟩ _
    case decrc => exact loadCursor_courses
    case decsc => exact .pure (.refl wp)
    case scsonG0 => exact .pure (setCell_courses (.refl wp) _)
    case scsoffG0 => exact .pure (setCell_courses (.refl wp) _)
    all_goals exact update_courses (.refl wp) _

theorem setPrivateMode_courses (mode : ℤ) (state : Bool) :
    Meets .all (wp.Courses wp.ictx.course) (setPrivateMode wp mode state) := by
  unfold setPrivateMode
  split_ifs
  · exact (Exec.meets_all _).bind fun screen _ => .pure (.refl wp)
  · exact (Exec.meets_all _).bind fun p _ => .pure (.refl wp)
  · exact update_courses (.refl wp) _

theorem setMode_courses (mode : ℤ) (state : Bool) :
    Meets .all (wp.Courses wp.ictx.course) (setMode wp mode state) := by
  unfold setMode
  split_ifs
  · exact update_courses (.refl wp) _
  · exact .pure (.refl wp)

theorem inputCsiDispatch_courses (ch : UInt8) :
    Meets .all (wp.Courses wp.ictx.course) (inputCsiDispatch wp ch) := by
  unfold inputCsiDispatch
  split
  · exact .pure (.refl wp)
  · rename_i type params _
    cases type <;> simp only [inputCsi]
    case da =>
      refine .pure ?_
      split_ifs <;> exact .refl wp
    case daTwo =>
      refine .pure ?_
      split_ifs <;> exact .refl wp
    case dsr =>
      refine .pure ?_
      unfold deviceStatus
      split <;> exact .refl wp
    case rcp => exact loadCursor_courses
    case rm => exact setMode_courses _ _
    case sm => exact setMode_courses _ _
    case rmPrivate => exact setPrivateMode_courses _ _
    case smPrivate => exact setPrivateMode_courses _ _
    case scp => exact .pure (.refl wp)
    case sgr => exact .pure (setCell_courses (.refl wp) _)
    all_goals exact update_courses (.refl wp) _

theorem inputPrint_courses (ch : UInt8) : Meets .all (wp.Courses wp.ictx.course) (inputPrint wp ch) := by
  unfold inputPrint
  exact update_courses (setCell_courses (.refl wp) _) _

theorem inputUtf8Add_courses (ch : UInt8) :
    Meets .all (wp.Courses (courseHandler wp.utf8 wp.ictx.course ch .utf8Add).1) (inputUtf8Add wp ch) := by
  refine (Exec.meets_all _).self.bind fun p hp => .pure ⟨?_, rfl⟩
  have hvalue : (utf8Append wp.ictx.course.utf8data ch).value? = some p := hp.2
  simp only [courseHandler, hvalue]
  rfl

/-- A handler takes the course where it goes by itself. -/
theorem runHandler_courses (ch : UInt8) (handler : InputHandler) :
    Meets .all (fun p => wp.Courses (courseHandler wp.utf8 wp.ictx.course ch handler).1 p.1 ∧
      p.2 = (courseHandler wp.utf8 wp.ictx.course ch handler).2) (runHandler wp ch handler) := by
  cases handler with
  | print => exact Exec.meets_map.2 ((inputPrint_courses ch).mono fun wp' h => ⟨h, rfl⟩)
  | c0Dispatch => exact Exec.meets_map.2 ((inputC0Dispatch_courses ch).mono fun wp' h => ⟨h, rfl⟩)
  | escDispatch => exact Exec.meets_map.2 ((inputEscDispatch_courses ch).mono fun wp' h => ⟨h, rfl⟩)
  | csiDispatch => exact Exec.meets_map.2 ((inputCsiDispatch_courses ch).mono fun wp' h => ⟨h, rfl⟩)
  | utf8Open =>
    cases hutf8 : wp.utf8 with
    | false =>
      simp only [runHandler, inputUtf8Open, courseHandler, hutf8]
      exact (inputPrint_courses ch).bind fun wp' h => .pure ⟨h, rfl⟩
    | true =>
      simp only [runHandler, inputUtf8Open, courseHandler, hutf8]
      refine (Exec.meets_all _).self.bind fun p hp => .pure ⟨⟨?_, hutf8.symm⟩, rfl⟩
      simp only [hp.2]
      rfl
  | utf8Add => exact Exec.meets_map.2 ((inputUtf8Add_courses ch).mono fun wp' h => ⟨h, rfl⟩)
  | utf8Close =>
    refine Exec.meets_map.2 ((inputUtf8Add_courses ch).bind fun wp₁ h₁ => ?_)
    exact (update_courses h₁ _).bind fun wp₂ h₂ => .pure ⟨setCell_courses h₂ _, rfl⟩
  | intermediate => exact .pure ⟨⟨rfl, rfl⟩, rfl⟩
  | parameter => exact .pure ⟨⟨rfl, rfl⟩, rfl⟩
  | input => exact .pure ⟨⟨rfl, rfl⟩, rfl⟩
  | dcsDispatch => exact .pure ⟨.refl wp, rfl⟩

theorem inputSetState_courses {ictx : InputCtx} (h : wp.Courses ictx wp') (state : InputState) :
    Meets .all (wp.Courses (courseSetState ictx state)) (inputSetState wp' state) := by
  have hexit : Meets .all (wp.Courses ictx) (wp'.ictx.state.exit wp') := by
    unfold InputState.exit
    split
    · unfold inputExitOsc
      extract_lets _ digits option _ p
      clear_value p option digits
      by_cases hnone : wp'.ictx.discard = true ∨ digits = []
      · rw [if_pos hnone]
        exact .pure h
      · rw [if_neg hnone]
        split
        all_goals first | exact update_courses h _ | exact .pure h
    · unfold inputExitApc
      split_ifs
      · exact .pure h
      · exact update_courses h _
    · exact .pure h
  refine hexit.bind fun wp₁ h₁ => .pure ⟨?_, h₁.2⟩
  rw [← h₁.1]
  cases state <;> rfl

theorem runTransition_courses (ch : UInt8) (itr : InputTransition) :
    Meets .all (fun p => wp.Courses (courseRun wp.utf8 wp.ictx.course ch itr).1 p.1 ∧
      p.2 = (courseRun wp.utf8 wp.ictx.course ch itr).2) (runTransition wp ch itr) := by
  unfold runTransition courseRun
  cases itr.handler with
  | none => exact .pure ⟨.refl wp, rfl⟩
  | some handler => exact runHandler_courses ch handler

theorem switchState_courses {ictx : InputCtx} (h : wp.Courses ictx wp') (ch : UInt8) (itr : InputTransition) :
    Meets .all (fun wp'' => wp.Courses (courseSwitch ictx ch itr) (saveInput wp'' ch)) (switchState wp' itr) := by
  have hsave : ∀ {ictx : InputCtx} {wp₁ : Pane}, wp.Courses ictx wp₁ → wp.Courses
      (if ictx.state = .ground then ictx else { ictx with sinceGround := ictx.sinceGround ++ [ch] })
      (saveInput wp₁ ch) := by
    rintro ictx wp₁ ⟨rfl, hutf8⟩
    unfold saveInput
    by_cases hground : wp₁.ictx.state = .ground
    · rw [if_pos hground, if_pos (show wp₁.ictx.course.state = .ground from hground)]
      exact ⟨rfl, hutf8⟩
    · rw [if_neg hground, if_neg (show wp₁.ictx.course.state ≠ .ground from hground)]
      exact ⟨rfl, hutf8⟩
  unfold switchState courseSwitch
  cases itr.state with
  | none => exact .pure (hsave h)
  | some state => exact (inputSetState_courses h state).mono fun wp₁ h₁ => hsave h₁

/-- A byte takes the course where it goes by itself. -/
theorem inputByte_courses (wp : Pane) (ch : UInt8) :
    Meets .all (wp.Courses (courseByte wp.utf8 wp.ictx.course ch)) (inputByte wp ch) := by
  unfold inputByte courseByte
  have hstate : wp.ictx.course.state = wp.ictx.state := rfl
  rw [hstate]
  cases findTransition wp.ictx.state ch with
  | none => trivial
  | some itr =>
    refine (runTransition_courses ch itr).bind fun p hp => ?_
    simp only [Option.map_some, Option.getD_some, courseTransition, ← hp.2]
    split_ifs
    · exact (switchState_courses hp.1 ch itr).bind fun wp₁ h₁ => .pure h₁
    · exact .pure hp.1

end

/-- Input takes the course where it goes by itself. -/
theorem inputParse_course {wp wp' : Pane} {buf : List UInt8} (h : (inputParse wp buf).value? = some wp') :
    wp'.ictx.course = courseParse wp.utf8 wp.ictx.course buf ∧ wp'.utf8 = wp.utf8 := by
  induction buf generalizing wp with
  | nil =>
    obtain rfl : wp = wp' := by simpa [inputParse] using h
    exact ⟨rfl, rfl⟩
  | cons ch buf ih =>
    rw [inputParse, List.foldlM_cons] at h
    obtain ⟨wp₁, hbyte, h⟩ := Exec.value?_bind.1 h
    obtain ⟨hcourse, hutf8⟩ := (inputByte_courses wp ch).value hbyte
    have := ih h
    rw [hcourse, hutf8] at this
    exact this

/-! ## Going on from what is pending -/

/-- The buffers of two parsers are the same. -/
def InputCtx.SameBuffers (a b : InputCtx) : Prop :=
  a.intermBuf = b.intermBuf ∧ a.paramBuf = b.paramBuf ∧ a.inputBuf = b.inputBuf ∧ a.discard = b.discard

section

variable {a b : InputCtx} {utf8 : Bool} {ch : UInt8} {itr : InputTransition}

theorem pending_sequence (hstate : a.state = b.state) (h : a.state.inCharacter = false)
    (hbuf : a.SameBuffers b) : a.pending = b.pending :=
  pending_eq_iff.2 ⟨hstate, fun hin => absurd hin (by simp [h]), fun _ _ => hbuf⟩

theorem pending_character (hstate : a.state = b.state) (h : a.state.inCharacter = true)
    (hdata : a.utf8data = b.utf8data) : a.pending = b.pending :=
  pending_eq_iff.2 ⟨hstate, fun _ => hdata, fun _ hin => absurd h (by simp [hin])⟩

/-- A character is always opened. -/
theorem utf8Open_pure (ch : UInt8) : ∃ p, utf8Open ch = pure p := by
  unfold utf8Open
  split_ifs <;> exact ⟨_, rfl⟩

theorem courseRun_state (utf8 : Bool) (a : InputCtx) (ch : UInt8) (itr : InputTransition) :
    (courseRun utf8 a ch itr).1.state = a.state := by
  unfold courseRun
  cases itr.handler with
  | none => rfl
  | some handler =>
    cases handler with
    | utf8Open => cases utf8 <;> rfl
    | _ => rfl

theorem courseRun_changes (utf8 : Bool) (a b : InputCtx) (ch : UInt8) (itr : InputTransition) :
    (courseRun utf8 a ch itr).2 = (courseRun utf8 b ch itr).2 := by
  unfold courseRun
  cases itr.handler with
  | none => rfl
  | some handler =>
    cases handler with
    | utf8Open => cases utf8 <;> rfl
    | _ => rfl

theorem InputCtx.SameBuffers.courseRun (h : a.SameBuffers b) (utf8 : Bool) (ch : UInt8) (itr : InputTransition) :
    (courseRun utf8 a ch itr).1.SameBuffers (courseRun utf8 b ch itr).1 := by
  obtain ⟨h₁, h₂, h₃, h₄⟩ := h
  unfold Tmux.courseRun
  cases itr.handler with
  | none => exact ⟨h₁, h₂, h₃, h₄⟩
  | some handler =>
    cases handler with
    | utf8Open => cases utf8 <;> exact ⟨h₁, h₂, h₃, h₄⟩
    | intermediate => simp [courseHandler, inputIntermediate, SameBuffers, h₁, h₂, h₃, h₄]
    | parameter => simp [courseHandler, inputParameter, SameBuffers, h₁, h₂, h₃, h₄]
    | input => simp [courseHandler, inputInput, SameBuffers, h₁, h₂, h₃, h₄]
    | _ => exact ⟨h₁, h₂, h₃, h₄⟩

/-- Saving the byte is nothing to what is pending. -/
theorem courseSwitch_pending (a : InputCtx) (ch : UInt8) (itr : InputTransition) :
    (courseSwitch a ch itr).pending = ((itr.state.map (courseSetState a)).getD a).pending := by
  unfold courseSwitch
  cases itr.state <;> dsimp only <;> split_ifs <;> rfl

theorem courseSetState_state (a : InputCtx) (state : InputState) : (courseSetState a state).state = state := by
  cases state <;> rfl

theorem courseSetState_utf8data (a : InputCtx) (state : InputState) :
    (courseSetState a state).utf8data = a.utf8data := by
  cases state <;> rfl

theorem InputCtx.SameBuffers.courseSetState (h : a.SameBuffers b) (state : InputState) :
    (courseSetState a state).SameBuffers (courseSetState b state) := by
  cases state <;> first | exact h | exact ⟨rfl, rfl, rfl, rfl⟩

/-- A sequence is entered with the buffers clear. -/
theorem courseSetState_escEnter (a b : InputCtx) :
    (courseSetState a .escEnter).SameBuffers (courseSetState b .escEnter) := ⟨rfl, rfl, rfl, rfl⟩

theorem findTransition_mem {state : InputState} (h : findTransition state ch = some itr) :
    itr ∈ state.transitions := List.mem_of_find?_eq_some h

/-- A transition keeps two courses with the same pending if its handler and the change of state do. -/
theorem pending_courseTransition
    (hrun : (courseRun utf8 a ch itr).2 = false →
      (courseRun utf8 a ch itr).1.pending = (courseRun utf8 b ch itr).1.pending)
    (hnone : itr.state = none → (courseRun utf8 a ch itr).1.pending = (courseRun utf8 b ch itr).1.pending)
    (hsome : ∀ state ∈ itr.state, (courseRun utf8 a ch itr).2 = true →
      (courseSetState (courseRun utf8 a ch itr).1 state).pending =
        (courseSetState (courseRun utf8 b ch itr).1 state).pending) :
    (courseTransition utf8 a ch itr).pending = (courseTransition utf8 b ch itr).pending := by
  unfold courseTransition
  have hchanges := courseRun_changes utf8 a b ch itr
  dsimp only
  rw [← hchanges]
  cases hc : (courseRun utf8 a ch itr).2 with
  | false => exact hrun hc
  | true =>
    simp only [↓reduceIte, courseSwitch_pending]
    cases hitr : itr.state with
    | none => exact hnone hitr
    | some state => exact hsome state hitr hc

/-- In the ground state nothing is pending, and both an escape and a first byte start afresh. -/
theorem pending_fromGround (hitr : itr ∈ InputState.ground.transitions) (ha : a.state = .ground)
    (hb : b.state = .ground) : (courseTransition utf8 a ch itr).pending = (courseTransition utf8 b ch itr).pending := by
  have hnothing : (courseRun utf8 a ch itr).1.pending = (courseRun utf8 b ch itr).1.pending := by
    rw [pending_of_ground ((courseRun_state utf8 a ch itr).trans ha),
      pending_of_ground ((courseRun_state utf8 b ch itr).trans hb)]
  refine pending_courseTransition (fun _ => hnothing) (fun _ => hnothing) fun state hto hchanges => ?_
  rcases ground_transitions itr hitr with (hto' | hto' | hto') | ⟨hopen, state', hto', hin⟩
  · exact absurd (hto'.symm.trans hto) nofun
  · obtain rfl := Option.some.inj (hto'.symm.trans hto)
    rfl
  · obtain rfl := Option.some.inj (hto'.symm.trans hto)
    exact pending_sequence rfl rfl (courseSetState_escEnter _ _)
  · obtain rfl := Option.some.inj (hto'.symm.trans hto)
    refine pending_character ?_ ?_ ?_
    · rw [courseSetState_state, courseSetState_state]
    · rw [courseSetState_state]
      exact hin
    · obtain ⟨p, hp⟩ := utf8Open_pure ch
      rw [courseSetState_utf8data, courseSetState_utf8data]
      cases utf8 with
      | true => simp [courseRun, hopen, courseHandler, hp]
      | false => simp [courseRun, hopen, courseHandler] at hchanges

/-- The only handler that refuses to change state is the one of a first byte. -/
theorem courseRun_refuses (h : (courseRun utf8 a ch itr).2 = false) : itr.handler = some .utf8Open := by
  unfold courseRun at h
  cases hitr : itr.handler with
  | none => simp [hitr] at h
  | some handler => cases handler <;> simp_all [courseHandler]

theorem pending_fromCharacter (hitr : itr ∈ a.state.transitions) (hin : a.state.inCharacter = true)
    (hdata : a.utf8data = b.utf8data) :
    (courseTransition utf8 a ch itr).pending = (courseTransition utf8 b ch itr).pending := by
  rcases character_transitions a.state hin itr hitr with ⟨hto, hhandler⟩ | ⟨hadd, state', hto, hin'⟩
  · refine pending_courseTransition (fun h => absurd (courseRun_refuses h) hhandler)
      (fun h => absurd (h.symm.trans hto) nofun) fun state hto' _ => ?_
    obtain rfl := Option.some.inj (hto.symm.trans hto')
    rfl
  · refine pending_courseTransition (fun h => absurd (hadd.symm.trans (courseRun_refuses h)) nofun)
      (fun h => absurd (h.symm.trans hto) nofun) fun state hto' _ => ?_
    obtain rfl := Option.some.inj (hto.symm.trans hto')
    refine pending_character ?_ ?_ ?_
    · rw [courseSetState_state, courseSetState_state]
    · rw [courseSetState_state]
      exact hin'
    · rw [courseSetState_utf8data, courseSetState_utf8data]
      simp [courseRun, hadd, courseHandler, hdata]

theorem pending_fromSequence (hitr : itr ∈ a.state.transitions) (hstate : a.state = b.state)
    (hground : a.state ≠ .ground) (hin : a.state.inCharacter = false) (hbuf : a.SameBuffers b) :
    (courseTransition utf8 a ch itr).pending = (courseTransition utf8 b ch itr).pending := by
  obtain ⟨hhandler, hto⟩ := sequence_transitions a.state hground hin itr hitr
  have hkept : (courseRun utf8 a ch itr).1.pending = (courseRun utf8 b ch itr).1.pending := by
    refine pending_sequence ?_ ?_ (hbuf.courseRun utf8 ch itr)
    · rw [courseRun_state, courseRun_state, hstate]
    · rw [courseRun_state, hin]
  refine pending_courseTransition (fun _ => hkept) (fun _ => hkept) fun state hstate' _ => ?_
  refine pending_sequence ?_ ?_ ((hbuf.courseRun utf8 ch itr).courseSetState state)
  · rw [courseSetState_state, courseSetState_state]
  · rw [courseSetState_state, hto state hstate']

/-- The course goes on from what is pending alone. -/
theorem pending_courseByte (h : a.pending = b.pending) (utf8 : Bool) (ch : UInt8) :
    (courseByte utf8 a ch).pending = (courseByte utf8 b ch).pending := by
  obtain ⟨hstate, hcharacter, hsequence⟩ := pending_eq_iff.1 h
  unfold courseByte
  rw [← hstate]
  cases hfind : findTransition a.state ch with
  | none => exact h
  | some itr =>
    have hitr := findTransition_mem hfind
    simp only [Option.map_some, Option.getD_some]
    by_cases hground : a.state = .ground
    · exact pending_fromGround (hground ▸ hitr) hground (hstate.symm.trans hground)
    · cases hin : a.state.inCharacter with
      | true => exact pending_fromCharacter hitr hin (hcharacter hin)
      | false => exact pending_fromSequence hitr hstate hground hin (hsequence hground hin)

end

/-! ## Handing on what is pending -/

theorem pending_course (ictx : InputCtx) : ictx.course.pending = ictx.pending := rfl

/-- The bytes kept, in a fresh parser, lead to what is pending, and in the ground state there are
    none. -/
def InputCtx.Reproduced (utf8 : Bool) (ictx : InputCtx) : Prop :=
  (courseParse utf8 {} ictx.sinceGround).pending = ictx.pending ∧
    (ictx.state = .ground → ictx.sinceGround = [])

section

variable {ictx : InputCtx} {utf8 : Bool}

theorem courseRun_sinceGround (utf8 : Bool) (ictx : InputCtx) (ch : UInt8) (itr : InputTransition) :
    (courseRun utf8 ictx ch itr).1.sinceGround = ictx.sinceGround := by
  unfold courseRun
  cases itr.handler with
  | none => rfl
  | some handler =>
    cases handler with
    | utf8Open => cases utf8 <;> rfl
    | _ => rfl

/-- Only in the ground state does a handler refuse to change state. -/
theorem courseRun_refuses_ground (ictx : InputCtx) {ch : UInt8} {itr : InputTransition} (hitr : itr ∈ ictx.state.transitions)
    (h : (courseRun utf8 ictx ch itr).2 = false) : ictx.state = .ground := by
  have hopen := courseRun_refuses h
  by_contra hground
  cases hin : ictx.state.inCharacter with
  | true =>
    rcases character_transitions ictx.state hin itr hitr with ⟨-, hne⟩ | ⟨hadd, -⟩
    · exact hne hopen
    · exact absurd (hopen.symm.trans hadd) nofun
  | false => exact absurd ((sequence_transitions ictx.state hground hin itr hitr).1 _ hopen) nofun

/-- Out of the ground state the byte is kept, and in it none is. -/
theorem courseSwitch_sinceGround (ictx : InputCtx) (ch : UInt8) (itr : InputTransition)
    (h : ictx.state = .ground → ictx.sinceGround = []) :
    (courseSwitch ictx ch itr).sinceGround =
      if (courseSwitch ictx ch itr).state = .ground then [] else ictx.sinceGround ++ [ch] := by
  unfold courseSwitch
  cases hitr : itr.state with
  | none =>
    dsimp only
    by_cases hground : ictx.state = .ground
    · rw [if_pos hground, if_pos hground, h hground]
    · rw [if_neg hground, if_neg hground]
  | some state =>
    have hstate := courseSetState_state ictx state
    dsimp only
    by_cases hground : state = .ground
    · subst hground
      rfl
    · have hne : (courseSetState ictx state).state ≠ .ground := by
        rw [hstate]
        exact hground
      rw [if_neg hne]
      dsimp only
      rw [if_neg hne]
      cases state <;> first | exact absurd rfl hground | rfl

theorem courseByte_sinceGround (utf8 : Bool) (ictx : InputCtx) (ch : UInt8)
    (h : ictx.state = .ground → ictx.sinceGround = []) :
    (courseByte utf8 ictx ch).sinceGround =
      if (courseByte utf8 ictx ch).state = .ground then [] else ictx.sinceGround ++ [ch] := by
  obtain ⟨itr, hitr⟩ := findTransition_total ictx.state ch
  have hbyte : courseByte utf8 ictx ch = courseTransition utf8 ictx ch itr := by
    rw [courseByte, hitr]
    rfl
  have hstate := courseRun_state utf8 ictx ch itr
  have hsince := courseRun_sinceGround utf8 ictx ch itr
  rw [hbyte]
  cases hchanges : (courseRun utf8 ictx ch itr).2 with
  | false =>
    have hground := courseRun_refuses_ground _ (findTransition_mem hitr) hchanges
    have htransition : courseTransition utf8 ictx ch itr = (courseRun utf8 ictx ch itr).1 := by
      simp [courseTransition, hchanges]
    rw [htransition, hstate, if_pos hground, hsince, h hground]
  | true =>
    have htransition : courseTransition utf8 ictx ch itr = courseSwitch (courseRun utf8 ictx ch itr).1 ch itr := by
      simp [courseTransition, hchanges]
    rw [htransition, courseSwitch_sinceGround _ ch itr fun hground => hsince.trans (h (hstate.symm.trans hground)), hsince]

theorem InputCtx.Reproduced.courseByte (h : ictx.Reproduced utf8) (ch : UInt8) :
    (courseByte utf8 ictx ch).Reproduced utf8 := by
  have hsince := courseByte_sinceGround utf8 ictx ch h.2
  by_cases hground : (Tmux.courseByte utf8 ictx ch).state = .ground
  · rw [if_pos hground] at hsince
    refine ⟨?_, fun _ => hsince⟩
    rw [hsince, pending_of_ground hground]
    rfl
  · -- one byte more on both sides
    rw [if_neg hground] at hsince
    refine ⟨?_, fun h' => absurd h' hground⟩
    rw [hsince, courseParse, List.foldl_append, List.foldl_cons, List.foldl_nil]
    exact pending_courseByte h.1 utf8 ch

theorem reproduced_courseParse (utf8 : Bool) (buf : List UInt8) : (courseParse utf8 {} buf).Reproduced utf8 := by
  refine List.foldlRecOn buf (courseByte utf8) ⟨rfl, fun _ => rfl⟩ fun ictx h ch _ => ?_
  exact h.courseByte ch

end

/-- The transitions for bytes, as long as the parser goes on, each with what is pending before it. -/
def transitionsTaken (wp : Pane) : List UInt8 → List (Pending × Option InputTransition)
  | [] => []
  | ch :: buf =>
    (wp.ictx.pending, findTransition wp.ictx.state ch) ::
      ((inputByte wp ch).value?.map fun wp' => transitionsTaken wp' buf).getD []

theorem inputByte_pending {wp₁ wp₂ q₁ q₂ : Pane} {ch : UInt8} (hpending : wp₁.ictx.pending = wp₂.ictx.pending)
    (hutf8 : wp₁.utf8 = wp₂.utf8) (h₁ : (inputByte wp₁ ch).value? = some q₁)
    (h₂ : (inputByte wp₂ ch).value? = some q₂) :
    q₁.ictx.pending = q₂.ictx.pending ∧ q₁.utf8 = q₂.utf8 := by
  obtain ⟨hcourse₁, hutf8₁⟩ := (inputByte_courses wp₁ ch).value h₁
  obtain ⟨hcourse₂, hutf8₂⟩ := (inputByte_courses wp₂ ch).value h₂
  refine ⟨?_, by rw [hutf8₁, hutf8₂, hutf8]⟩
  rw [← pending_course, ← pending_course q₂.ictx, hcourse₁, hcourse₂, hutf8]
  exact pending_courseByte (a := wp₁.ictx.course) (b := wp₂.ictx.course) hpending _ _

/-- Parsers with the same pending take the same transitions, with the same collected for their
    handlers, as long as both go on. -/
theorem transitionsTaken_prefix {wp₁ wp₂ : Pane} (hpending : wp₁.ictx.pending = wp₂.ictx.pending)
    (hutf8 : wp₁.utf8 = wp₂.utf8) (buf : List UInt8) :
    transitionsTaken wp₁ buf <+: transitionsTaken wp₂ buf ∨
      transitionsTaken wp₂ buf <+: transitionsTaken wp₁ buf := by
  induction buf generalizing wp₁ wp₂ with
  | nil => exact .inl (List.prefix_refl _)
  | cons ch buf ih =>
    have hstate : wp₁.ictx.state = wp₂.ictx.state := by
      rw [← pending_state, hpending, pending_state]
    rw [transitionsTaken, transitionsTaken, hpending, hstate, List.prefix_cons_inj, List.prefix_cons_inj]
    cases h₁ : (inputByte wp₁ ch).value? with
    | none => exact .inl List.nil_prefix
    | some q₁ =>
      cases h₂ : (inputByte wp₂ ch).value? with
      | none => exact .inr List.nil_prefix
      | some q₂ =>
        obtain ⟨hpending', hutf8'⟩ := inputByte_pending hpending hutf8 h₁ h₂
        exact ih hpending' hutf8'

/-- A parser that goes on to the end takes a transition for every byte. -/
theorem length_transitionsTaken {wp wp' : Pane} {buf : List UInt8}
    (h : (inputParse wp buf).value? = some wp') : (transitionsTaken wp buf).length = buf.length := by
  induction buf generalizing wp with
  | nil => rfl
  | cons ch buf ih =>
    rw [inputParse, List.foldlM_cons] at h
    obtain ⟨wp₁, hbyte, h⟩ := Exec.value?_bind.1 h
    rw [transitionsTaken, hbyte, List.length_cons, List.length_cons]
    exact congrArg (· + 1) (ih h)

end Tmux
