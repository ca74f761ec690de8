import Tmux.Screen.Screen
import Tmux.Screen.Width
import Tmux.Tty.Recognised

/-!
# Sending the mouse on

A mouse event that is read from the terminal is sent on to the program in a pane (`inputMouse`), as a report with
two-byte UTF-8 characters or with bytes, as the program has set the modes of its screen. What is sent is read
again as the same event, whatever the bytes after it (`inputMouse_decodes`).
-/

namespace Tmux

open Recogniser

/-! ## Sending -/

/-- Split a two-byte UTF-8 character. -/
def utf8Split2 (uc : ℕ) : List UInt8 :=
  if uc > 0x7f then [UInt8.ofNat (uc >>> 6 ||| 0xc0), UInt8.ofNat (uc &&& 0x3f ||| 0x80)] else [UInt8.ofNat uc]

/-- What is done with a mouse event: bytes are written, or a pane is put into copy mode, or nothing. -/
inductive MouseAction
  | write (buf : List UInt8)
  | copyMode
  | nothing
  deriving DecidableEq, Repr

/-- Translate mouse and output. `modeMouse` is the option `mode-mouse` of the window. -/
def inputMouse (screen : Screen) (modeMouse : Bool) (m : MouseEvent) : MouseAction :=
  if screen.hasMode allMouseModes then
    if screen.hasMode modeMouseUtf8 then
      .write ([27, 91, 77] ++ utf8Split2 (m.b + 32) ++ utf8Split2 (m.x + 33) ++ utf8Split2 (m.y + 33))
    else if m.b > 223 ∨ m.x ≥ 222 ∨ m.y > 222 then .nothing
    else .write ([27, 91, 77] ++ [UInt8.ofNat (m.b + 32), UInt8.ofNat (m.x + 33), UInt8.ofNat (m.y + 33)])
  else if m.b &&& 3 ≠ 1 ∧ modeMouse then .copyMode
  else .nothing

variable {utf8 : Bool} {m : MouseEvent} {value : ℕ} {buf rest p : List UInt8}

/-! ## Values -/

/-- A value as it is sent. -/
def mouseBytes (utf8 : Bool) (value : ℕ) : List UInt8 := if utf8 then utf8Split2 value else [UInt8.ofNat value]

/-- The largest value that can be sent. -/
def mouseLimit (utf8 : Bool) : ℕ := if utf8 then 0x7ff else 0xff

theorem mouseCoordinate_byte {c : UInt8} (h : (utf8 && 0xc2 ≤ c && c ≤ 0xf4) = false) (rest : List UInt8) :
    mouseCoordinate utf8 (c :: rest) = .found (c.toNat, rest) := by
  rw [mouseCoordinate, andThen, item]
  dsimp only
  rw [h]
  rfl

theorem mouseCoordinate_two {c : UInt8} (hc : 0xc2 ≤ c ∧ c ≤ 0xdf) (c' : UInt8) (rest : List UInt8) :
    mouseCoordinate true (c :: c' :: rest) = .found (twoBytes c c', rest) := by
  have hle : c ≤ 0xf4 := UInt8.le_trans hc.2 (by decide)
  rw [mouseCoordinate, andThen, item]
  dsimp only
  rw [if_pos (by simp [hc.1, hle]), if_pos hc.2]
  rfl

/-- The bytes that a value is split into: they are in the ranges of a first and a further byte of a character. -/
theorem utf8Split2_eq (hlow : 0x7f < value) (hhigh : value ≤ 0x7ff) :
    ∃ c c', utf8Split2 value = [c, c'] ∧ c.toNat = 0xc0 + value / 64 ∧ c'.toNat = 0x80 + value % 64 := by
  refine ⟨_, _, if_pos hlow, ?_, ?_⟩
  · have hor : value >>> 6 ||| 0xc0 = value / 64 + 0xc0 := by
      rw [Nat.shiftRight_eq_div_pow]
      exact or_shift (a := 3) (i := 6) (by omega)
    rw [hor, UInt8.toNat_ofNat', Nat.mod_eq_of_lt (by omega), Nat.add_comm]
  · have hor : value &&& 0x3f ||| 0x80 = value % 64 + 0x80 := by
      rw [and_mask 6 (by decide)]
      exact or_shift (a := 2) (i := 6) (Nat.mod_lt _ (by decide))
    rw [hor, UInt8.toNat_ofNat', Nat.mod_eq_of_lt (by omega), Nat.add_comm]

/-- A character of two bytes has the value of their last five and six bits. -/
theorem twoBytes_eq (c c' : UInt8) : twoBytes c c' = c.toNat % 32 * 64 + c'.toNat % 64 := by
  show (c'.toNat &&& 0x3f) ||| (c.toNat &&& 0x1f) <<< 6 = _
  rw [and_mask 6 (by decide), and_mask 5 (by decide), or_shift (Nat.mod_lt _ (by decide)), Nat.add_comm]
  rfl

/-- What is sent of a value is read as this value. -/
theorem mouseCoordinate_bytes (h : value ≤ mouseLimit utf8) (rest : List UInt8) :
    mouseCoordinate utf8 (mouseBytes utf8 value ++ rest) = .found (value, rest) := by
  cases utf8 with
  | false =>
    have hvalue : value < 2 ^ 8 := Nat.lt_succ_of_le h
    rw [mouseBytes, if_neg Bool.false_ne_true, List.singleton_append, mouseCoordinate_byte rfl, UInt8.toNat_ofNat',
      Nat.mod_eq_of_lt hvalue]
  | true =>
    rw [mouseBytes, if_pos rfl]
    by_cases hlow : 0x7f < value
    · obtain ⟨c, c', hsplit, hc, hc'⟩ := utf8Split2_eq hlow h
      have hhigh : value ≤ 0x7ff := h
      have hlead : 0xc2 ≤ c ∧ c ≤ 0xdf := by
        rw [UInt8.le_iff_toNat_le, UInt8.le_iff_toNat_le, hc]
        show 0xc2 ≤ 0xc0 + value / 64 ∧ 0xc0 + value / 64 ≤ 0xdf
        omega
      have hvalue : (0xc0 + value / 64) % 32 * 64 + (0x80 + value % 64) % 64 = value := by omega
      rw [hsplit, List.cons_append, List.cons_append, List.nil_append, mouseCoordinate_two hlead, twoBytes_eq, hc, hc',
        hvalue]
    · have hvalue : (UInt8.ofNat value).toNat = value := by
        rw [UInt8.toNat_ofNat', Nat.mod_eq_of_lt (by omega)]
      have hsmall : (true && 0xc2 ≤ UInt8.ofNat value && UInt8.ofNat value ≤ 0xf4) = false := by
        have hnot : ¬ 0xc2 ≤ UInt8.ofNat value := by
          rw [UInt8.le_iff_toNat_le, hvalue]
          show ¬ 0xc2 ≤ value
          omega
        rw [decide_eq_false hnot]
        rfl
      rw [utf8Split2, if_neg hlow, List.singleton_append, mouseCoordinate_byte hsmall, hvalue]

/-- A value that is read can be sent. -/
theorem mouseCoordinate_le (h : mouseCoordinate utf8 p = .found (value, rest)) : value ≤ 0x7ff := by
  obtain ⟨c, p', -, h⟩ := andThen_eq_found.1 h
  have hc := c.toNat_lt
  split_ifs at h
  · obtain ⟨c', p'', -, h⟩ := andThen_eq_found.1 h
    obtain ⟨rfl, -⟩ := Prod.mk.inj (Answer.found.inj h)
    rw [twoBytes_eq]
    omega
  · cases h
  · obtain ⟨rfl, -⟩ := Prod.mk.inj (Answer.found.inj h)
    omega

/-! ## Reports -/

/-- A mouse event whose values can be sent. -/
structure MouseEvent.Fits (m : MouseEvent) (limit : ℕ) : Prop where
  b : m.b + 32 ≤ limit
  x : m.x + 33 ≤ limit
  y : m.y + 33 ≤ limit

/-- A report as it is sent. -/
def mouseReportBytes (utf8 : Bool) (m : MouseEvent) : List UInt8 :=
  [27, 91, 77] ++ (mouseBytes utf8 (m.b + 32) ++ (mouseBytes utf8 (m.x + 33) ++ mouseBytes utf8 (m.y + 33)))

theorem mouseReport_bytes (h : m.Fits (mouseLimit utf8)) (rest : List UInt8) :
    mouseReport utf8 (mouseReportBytes utf8 m ++ rest) = .found (m, rest) := by
  have hhead : ∀ p, reportHead (fun c => c = 77) ([27, 91, 77] ++ p) = .found ((), p) := fun p => rfl
  rw [mouseReport, mouseReportBytes, List.append_assoc, List.append_assoc, List.append_assoc, andThen_found (hhead _),
    andThen_found (mouseCoordinate_bytes h.b _), andThen_found (mouseCoordinate_bytes h.x _),
    andThen_found (mouseCoordinate_bytes h.y _), if_neg (by omega)]
  rfl

theorem mouseReport_fits (h : mouseReport utf8 p = .found (m, rest)) : m.Fits 0x7ff := by
  obtain ⟨-, p₀, -, h⟩ := andThen_eq_found.1 h
  obtain ⟨b, p₁, hb, h⟩ := andThen_eq_found.1 h
  obtain ⟨x, p₂, hx, h⟩ := andThen_eq_found.1 h
  obtain ⟨y, p₃, hy, h⟩ := andThen_eq_found.1 h
  split_ifs at h with hlow
  · cases h
  · obtain ⟨rfl, -⟩ := Prod.mk.inj (Answer.found.inj h)
    have := mouseCoordinate_le hb
    have := mouseCoordinate_le hx
    have := mouseCoordinate_le hy
    constructor <;> dsimp only <;> omega

variable {m₀ : MouseEvent} {past : UInt8} {n : ℕ}

/-- A report that is sent is read as the event. -/
theorem ttyKeysMouse_bytes (h : m.Fits (mouseLimit utf8)) (m₀ : MouseEvent) (past : UInt8) :
    ttyKeysMouse utf8 m₀ (mouseReportBytes utf8 m) past = pure (m, .found (mouseReportBytes utf8 m).length) := by
  have hvalue : ∀ v, 0 < (mouseBytes utf8 v).length := fun v => by
    rw [mouseBytes, utf8Split2]
    split_ifs <;> exact Nat.succ_pos _
  have hlength : 4 ≤ (mouseReportBytes utf8 m).length := by
    have := hvalue (m.b + 32)
    rw [mouseReportBytes, List.length_append, List.length_append]
    show 4 ≤ 3 + _
    omega
  obtain ⟨r, hr, hanswers⟩ := ttyKeysMouse_past utf8 m₀ hlength past
  rw [mouseReport_bytes h] at hanswers
  rw [hr, hanswers]
  rfl

theorem reportStart_length {third : UInt8 → Bool} (h : reportStart third buf = .found ()) : 4 ≤ buf.length := by
  have hne : buf ≠ [] := by
    rintro rfl
    cases h
  have hhead := reportStart_eq third hne
  cases hreport : reportHead third buf with
  | no =>
    rw [hreport] at hhead
    rw [h] at hhead
    cases hhead
  | more =>
    rw [hreport] at hhead
    rw [h] at hhead
    cases hhead.1
  | found r =>
    obtain ⟨⟨⟩, rest⟩ := r
    rw [hreport] at hhead
    obtain ⟨hstart, c₂, rfl⟩ := hhead
    cases rest with
    | nil =>
      rw [h, if_pos rfl] at hstart
      cases hstart
    | cons c rest => simp

/-- An event that is read has values of two-byte characters at most. -/
theorem ttyKeysMouse_fits (h : ttyKeysMouse utf8 m₀ buf past = pure (m, .found n)) : m.Fits 0x7ff := by
  have hlength : 4 ≤ buf.length := by
    cases hstart : reportStart (fun c => decide (c = 77)) buf with
    | no =>
      rw [ttyKeysMouse, hstart] at h
      cases h
    | more =>
      rw [ttyKeysMouse, hstart] at h
      cases h
    | found _ => exact reportStart_length hstart
  obtain ⟨r, hr, hanswers⟩ := ttyKeysMouse_past utf8 m₀ hlength past
  rw [h, Exec.pure_inj] at hr
  subst hr
  cases hreport : mouseReport utf8 (buf ++ [past]) with
  | no =>
    rw [hreport] at hanswers
    cases hanswers
  | more =>
    rw [hreport] at hanswers
    cases hanswers
  | found r =>
    obtain ⟨m', rest⟩ := r
    rw [hreport] at hanswers
    rw [(Prod.mk.inj hanswers).1]
    exact mouseReport_fits hreport

/-- What is sent is the report of an event that can be sent. -/
theorem inputMouse_eq {screen : Screen} {modeMouse : Bool} (hm : m.Fits 0x7ff)
    (h : inputMouse screen modeMouse m = .write buf) :
    m.Fits (mouseLimit (screen.hasMode modeMouseUtf8)) ∧ buf = mouseReportBytes (screen.hasMode modeMouseUtf8) m := by
  unfold inputMouse at h
  split_ifs at h with hall hutf8 hlimit
  · rw [hutf8, mouseReportBytes]
    refine ⟨hm, (MouseAction.write.inj h).symm.trans ?_⟩
    rw [List.append_assoc, List.append_assoc]
    rfl
  · rw [Bool.eq_false_iff.2 hutf8]
    refine ⟨⟨?_, ?_, ?_⟩, (MouseAction.write.inj h).symm⟩ <;> simp only [mouseLimit, if_neg Bool.false_ne_true] <;> omega

/-- The bytes that are sent to a program for an event that was read from the terminal are read as the same event, and
    an event that no bytes are read as is not sent. -/
theorem inputMouse_decodes (h : ttyKeysMouse utf8 m₀ buf past = pure (m, .found n)) (screen : Screen) (modeMouse : Bool) :
    (∀ bytes, inputMouse screen modeMouse m = .write bytes → ∀ m₁ past₁,
      ttyKeysMouse (screen.hasMode modeMouseUtf8) m₁ bytes past₁ = pure (m, .found bytes.length)) ∧
    ((∀ bytes m₁ past₁ k, ttyKeysMouse (screen.hasMode modeMouseUtf8) m₁ bytes past₁ ≠ pure (m, .found k)) →
      ∀ bytes, inputMouse screen modeMouse m ≠ .write bytes) := by
  have hdecodes : ∀ bytes, inputMouse screen modeMouse m = .write bytes → ∀ m₁ past₁,
      ttyKeysMouse (screen.hasMode modeMouseUtf8) m₁ bytes past₁ = pure (m, .found bytes.length) := by
    intro bytes hbytes m₁ past₁
    obtain ⟨hfits, rfl⟩ := inputMouse_eq (ttyKeysMouse_fits h) hbytes
    exact ttyKeysMouse_bytes hfits m₁ past₁
  exact ⟨hdecodes, fun hnone bytes hbytes => hnone bytes m past _ (hdecodes bytes hbytes m past)⟩

theorem inputMouse_decodes_far : ttyKeysMouse true ⟨5, 6, 7⟩ [27, 91, 77, 0x20, 0xc4, 0xad, 0x21] 0 =
    pure (⟨268, 0, 0⟩, .found 7) := by
  have hread : ttyKeysMouse true ⟨0, 0, 0⟩ [27, 91, 77, 0x20, 0xc4, 0xad, 0x21] 97 = pure (⟨268, 0, 0⟩, .found 7) := rfl
  have hsent : inputMouse { grid := gridCreate 1 1 0, mode := modeMouseStandard ||| modeMouseUtf8 } false ⟨268, 0, 0⟩ =
      .write [27, 91, 77, 0x20, 0xc4, 0xad, 0x21] := rfl
  exact (inputMouse_decodes hread _ _).1 _ hsent ⟨5, 6, 7⟩ 0

end Tmux
