import Tmux.Screen.Style
import Tmux.Screen.Write

/-!
# Writing text and copying lines

Strings are written to a screen character by character (`screenWriteVnputs`), the UTF-8
ones among them read from several bytes, with embedded styles or not (`screenWriteCnputs`),
and lines of another screen are copied to it cell by cell (`screenWriteCopy`), all with
`screenWriteCell`.

A string is the list of its bytes, none of them zero.
-/

namespace Tmux

open Exec.Allowed (Lenient)
open Exec (Meets uadd usub meets_fault meets_follow_any)

/-! ## Strings -/

/-- Write character. -/
def screenWritePutc (s : Screen) (gc : GridCell) (ch : UInt8) : Exec Screen :=
  screenWriteCell s { gc with data := ch } none

/-- Write `n` spaces. -/
def writeSpaces (gc : GridCell) (s : Screen) : ℕ → Exec Screen
  | 0 => pure s
  | n + 1 => do
    let s ← screenWritePutc s gc 32
    writeSpaces gc s n

/-- Append bytes to a UTF-8 character until it is finished. Gives the rest of them. -/
def utf8Finish (utf8data : Utf8Data) : List UInt8 → Exec (Utf8Data × List UInt8)
  | [] => .fault .overread
  | ch :: ptr => do
    let (utf8data, more) ← utf8Append utf8data ch
    if more ≠ 0 then utf8Finish utf8data ptr else pure (utf8data, ptr)

/-- The first character of a string and the rest of it: a UTF-8 character, if it is on and the
    string has all of it, or a byte. Nothing if the string has only a part of it. -/
def readCharacter (utf8flag : Bool) (ch : UInt8) (ptr : List UInt8) :
    Exec (Option (Option Utf8Data × List UInt8)) :=
  if utf8flag && ch > 0x7f then do
    let (utf8data, more) ← utf8Open ch
    if more = 0 then pure (some (none, ptr))
    else if ptr.length < utf8data.size - 1 then pure none
    else do
      let (utf8data, ptr) ← utf8Finish utf8data ptr
      pure (some (some utf8data, ptr))
  else pure (some (none, ptr))

/-- Split a string after the first `]` of it. -/
def splitStyle (ptr : List UInt8) : Option (List UInt8 × List UInt8) :=
  let last := strcspn ptr [93]
  if last = ptr.length then none else some (ptr.take last, ptr.drop (last + 1))

/-- Apply to a cell the style that a string starts with, if styles are embedded in it and `defgc` is
    the cell with the default one. Gives nothing if it starts with no style, or else the cell and the
    rest of the string, and not even these if the style has no end. -/
def embeddedStyle (defgc : Option GridCell) (gc : GridCell) (ch : UInt8) (ptr : List UInt8) :
    Option (Option (GridCell × List UInt8)) :=
  match defgc, ptr with
  | some defgc, 91 :: ptr =>
    if ch = 35 then some ((splitStyle ptr).map fun (style, ptr) => (screenWriteParsestyle defgc gc style, ptr))
    else none
  | _, _ => none

/-- Write a string from a place on, `size` columns being written. The cell is changed from character
    to character. The places left are at most `n`. -/
def nputsFrom (defgc : Option GridCell) (maxlen : ℤ) (utf8flag : Bool) :
    ℕ → List UInt8 → ℕ → GridCell → Screen → Exec Screen
  | 0, _, _, _, s => pure s
  | _ + 1, [], _, _, s => pure s
  | n + 1, ch :: ptr, size, gc, s =>
    match embeddedStyle defgc gc ch ptr with
    -- No ]. Not much point in doing anything.
    | some none => pure s
    | some (some (gc, ptr)) => nputsFrom defgc maxlen utf8flag n ptr size gc s
    | none => do
      match ← readCharacter utf8flag ch ptr with
      | none => pure s
      | some (some utf8data, ptr) =>
        if maxlen > 0 ∧ (size + utf8data.width : ℤ) > maxlen then
          writeSpaces (defgc.getD gc) s (maxlen.toNat - size)
        else do
          let s ← screenWriteCell s { gc with flags := gc.flags ||| gridFlagUtf8 } (some utf8data)
          nputsFrom defgc maxlen utf8flag n ptr (size + utf8data.width)
            { gc with flags := gc.flags &&& ~~~gridFlagUtf8 } s
      | some (none, ptr) =>
        if maxlen > 0 ∧ (size + 1 : ℤ) > maxlen then pure s
        else do
          let s ← screenWritePutc s gc ch
          nputsFrom defgc maxlen utf8flag n ptr (size + 1) { gc with data := ch } s

/-- Write string with length limit (-1 for unlimited). -/
def screenWriteVnputs (s : Screen) (maxlen : ℤ) (gc : GridCell) (utf8flag : Bool) (msg : List UInt8) :
    Exec Screen :=
  nputsFrom none maxlen utf8flag msg.length msg 0 gc s

/-- Write string, similar to nputs, but with embedded formatting (#[]). -/
def screenWriteCnputs (s : Screen) (maxlen : ℤ) (gc : GridCell) (utf8flag : Bool) (msg : List UInt8) :
    Exec Screen :=
  nputsFrom (some gc) maxlen utf8flag msg.length msg 0 gc s

/-- Write simple string (no UTF-8 or maximum length). -/
def screenWritePuts (s : Screen) (gc : GridCell) (msg : List UInt8) : Exec Screen :=
  screenWriteVnputs s (-1) gc false msg

/-- The length of a string from a place on. The places left are at most `n`. -/
def strlenFrom (utf8flag : Bool) : ℕ → List UInt8 → Exec ℕ
  | 0, _ => pure 0
  | _ + 1, [] => pure 0
  | n + 1, ch :: ptr => do
    match ← readCharacter utf8flag ch ptr with
    | none => pure 0
    | some (utf8data, ptr) => do
      let size ← strlenFrom utf8flag n ptr
      pure (size + (utf8data.map Utf8Data.width).getD 1)

/-- Calculate string length. -/
def screenWriteStrlen (utf8flag : Bool) (msg : List UInt8) : Exec ℕ := strlenFrom utf8flag msg.length msg

/-- Whether a string starts with an embedded style. -/
def startsStyle : List UInt8 → Bool
  | 35 :: 91 :: _ => true
  | _ => false

/-- What is left of a string after the first `]` of it. -/
def afterStyle (ptr : List UInt8) : List UInt8 := (ptr.dropWhile fun c => c ≠ 93).drop 1

/-- A string without the styles embedded in it. The places left are at most `n`. -/
def stripStyles : ℕ → List UInt8 → List UInt8
  | 0, _ => []
  | _ + 1, [] => []
  | n + 1, ch :: ptr =>
    if startsStyle (ch :: ptr) then stripStyles n (afterStyle ptr) else ch :: stripStyles n ptr

/-- Calculate string length, with embedded formatting. -/
def Text.screenWriteCstrlen (utf8flag : Bool) (msg : List UInt8) : Exec ℕ :=
  screenWriteStrlen utf8flag (stripStyles msg.length msg)

/-! ## Screens with text -/

/-- A line with a text of ASCII characters. -/
def lineOfText (text : List UInt8) : GridLine :=
  { celldata := text.map fun data => { gridDefaultCell with data } }

/-- A screen of a size with lines of text, the last `sy` ones of them on it and the others in the
    history. -/
def screenOfText (sx sy cx cy : ℕ) (text : List (List UInt8)) : Screen where
  grid := { gridCreate sx sy 2000 with hsize := text.length - sy, linedata := text.map lineOfText }
  cx := cx
  cy := cy
  rlower := sy - 1
  mode := modeCursor ||| modeWrap

/-! ## Copying -/

/-- The UTF-8 data of a cell, to be written again. -/
def gridUtf8Copy (gu : GridUtf8) : Exec Utf8Data :=
  if gridUtf8Size gu > utf8Size then .fault .fatal
  else pure { data := gu.data.take (gridUtf8Size gu), size := gridUtf8Size gu, width := gu.width.toNat }

/-- Copy a cell of a line. -/
def copyCell (gl : GridLine) (s : Screen) (xx : ℕ) : Exec Screen :=
  match gl.celldata[xx]? with
  | none => screenWriteCell s gridDefaultCell none
  | some gc =>
    if !gc.isUtf8 then screenWriteCell s gc none
    else do
      -- Reinject the UTF-8 sequence.
      let gu ← Block.load gl.utf8data xx
      let gu ← Exec.follow gu
      let utf8data ← gridUtf8Copy gu
      screenWriteCell s gc (some utf8data)

/-- Whether a copy of `nx` columns from `px` on is to the end of a grid, and past the real end of
    the line. -/
def copiesToEnd (gd : Grid) (gl : GridLine) (px nx : ℕ) : Bool :=
  uadd px nx = gd.sx ∧ uadd px nx > gl.celldata.length

/-- Copy `nx` cells of a row from `px` on. -/
def copyRow (s : Screen) (gd : Grid) (px yy nx : ℕ) : Exec Screen :=
  if yy < uadd gd.hsize gd.sy then do
    let gl ← Block.load gd.linedata yy
    -- Limit to the real end of the line then use a clear EOL only if copying to the end.
    let ax := limit px gl.celldata.length
    let bx := if copiesToEnd gd gl px nx then gl.celldata.length else uadd px nx
    let s ← (List.range' ax (bx - ax)).foldlM (copyCell gl) s
    if copiesToEnd gd gl px nx then screenWriteClearendofline s else pure s
  else screenWriteClearline s

/-- Copy rows one after the other, each to the next row of the screen. -/
def copyRows (gd : Grid) (px nx cx : ℕ) : ℕ → ℕ → ℕ → Screen → Exec Screen
  | 0, _, _, s => pure s
  | n + 1, yy, cy, s => do
    let s ← copyRow s gd px yy nx
    let s ← screenWriteCursormove s cx (cy + 1)
    copyRows gd px nx cx n (yy + 1) (cy + 1) s

/-- Copy from another screen. -/
def screenWriteCopy (s src : Screen) (px py nx ny : ℕ) : Exec Screen :=
  copyRows src.grid px nx s.cx ny py s.cy s

/-! ## What text keeps -/

section

variable {w : Exec.Allowed} [w.Lenient]

theorem utf8Append_meets (utf8data : Utf8Data) (ch : UInt8) : Meets w (fun _ => True) (utf8Append utf8data ch) := by
  unfold utf8Append
  split_ifs
  · exact meets_fault nofun
  · exact meets_fault nofun
  · extract_lets u
    split_ifs
    · exact .pure trivial
    · exact .pure trivial

theorem utf8Finish_meets (utf8data : Utf8Data) (ptr : List UInt8) :
    Meets w (fun _ => True) (utf8Finish utf8data ptr) := by
  induction ptr generalizing utf8data with
  | nil => exact meets_fault nofun
  | cons ch ptr ih =>
    refine (utf8Append_meets utf8data ch).bind fun ⟨u, more⟩ _ => ?_
    dsimp only
    split_ifs
    · exact ih u
    · exact .pure trivial

theorem readCharacter_meets (utf8flag : Bool) (ch : UInt8) (ptr : List UInt8) :
    Meets w (fun _ => True) (readCharacter utf8flag ch ptr) := by
  have hopen : Meets w (fun _ => True) (utf8Open ch) := by
    unfold utf8Open
    extract_lets size
    split_ifs
    · exact .pure trivial
    · exact (utf8Append_meets _ ch).bind fun _ _ => .pure trivial
  unfold readCharacter
  split_ifs
  · refine hopen.bind fun ⟨u, more⟩ _ => ?_
    dsimp only
    split_ifs
    · exact .pure trivial
    · exact .pure trivial
    · exact (utf8Finish_meets u ptr).bind fun _ _ => .pure trivial
  · exact .pure trivial

theorem gridUtf8Copy_meets (gu : GridUtf8) : Meets w (fun _ => True) (gridUtf8Copy gu) := by
  unfold gridUtf8Copy
  split_ifs
  · exact meets_fault nofun
  · exact .pure trivial

variable {P : Screen → Prop}
  (hcell : ∀ s gc utf8data, P s → Meets w P (screenWriteCell s gc utf8data))

include hcell

omit [w.Lenient] in
theorem writeSpaces_meets {s : Screen} (h : P s) (gc : GridCell) (n : ℕ) : Meets w P (writeSpaces gc s n) := by
  induction n generalizing s with
  | zero => exact .pure h
  | succ n ih => exact (hcell s _ _ h).bind fun s₁ h₁ => ih h₁

/-- What every cell written keeps is kept by a string. -/
theorem nputsFrom_meets (defgc : Option GridCell) (maxlen : ℤ) (utf8flag : Bool) (n : ℕ) (msg : List UInt8)
    (size : ℕ) (gc : GridCell) {s : Screen} (h : P s) :
    Meets w P (nputsFrom defgc maxlen utf8flag n msg size gc s) := by
  induction n generalizing s msg size gc with
  | zero => exact .pure h
  | succ n ih =>
    cases msg with
    | nil => exact .pure h
    | cons ch ptr =>
      rw [nputsFrom]
      rcases embeddedStyle defgc gc ch ptr with _ | _ | ⟨gc', rest⟩
      · refine (readCharacter_meets utf8flag ch ptr).bind fun next _ => ?_
        rcases next with _ | ⟨_ | utf8data, rest⟩
        · exact .pure h
        · dsimp only
          split_ifs
          · exact .pure h
          · exact (hcell s _ _ h).bind fun s₁ h₁ => ih rest _ _ h₁
        · dsimp only
          split_ifs
          · exact writeSpaces_meets hcell h _ _
          · exact (hcell s _ _ h).bind fun s₁ h₁ => ih rest _ _ h₁
      · exact .pure h
      · exact ih rest size gc' h

theorem copyCell_meets (gl : GridLine) {s : Screen} (h : P s) (xx : ℕ) : Meets w P (copyCell gl s xx) := by
  unfold copyCell
  split
  · exact hcell s _ _ h
  · split_ifs
    · exact hcell s _ _ h
    · refine (Block.meets_load (Lenient.faults _ nofun) xx).bind fun gu _ => (meets_follow_any gu).bind fun gu _ => ?_
      exact (gridUtf8Copy_meets gu).bind fun u _ => hcell s _ _ h

variable (hend : ∀ s, P s → Meets w P (screenWriteClearendofline s))
  (hline : ∀ s, P s → Meets w P (screenWriteClearline s))

include hend hline

theorem copyRow_meets {s : Screen} (h : P s) (gd : Grid) (px yy nx : ℕ) : Meets w P (copyRow s gd px yy nx) := by
  unfold copyRow
  split_ifs
  · refine (Block.meets_load (Lenient.faults _ nofun) yy).bind fun gl _ => ?_
    refine (Meets.foldlM h fun s₁ xx _ h₁ => copyCell_meets hcell gl h₁ xx).bind fun s₂ h₂ => ?_
    split_ifs
    · exact hend s₂ h₂
    · exact .pure h₂
  · exact hline s h

/-- What every cell written keeps, as do clearing and moving the cursor, is kept by a copy. -/
theorem screenWriteCopy_meets (hmove : ∀ s cx cy, P s → Meets w P (screenWriteCursormove s cx cy)) {s : Screen}
    (h : P s) (src : Screen) (px py nx ny : ℕ) : Meets w P (screenWriteCopy s src px py nx ny) := by
  suffices hrows : ∀ n yy cy (s₁ : Screen), P s₁ → Meets w P (copyRows src.grid px nx s.cx n yy cy s₁) from
    hrows ny py s.cy s h
  intro n
  induction n with
  | zero => exact fun _ _ _ h₁ => .pure h₁
  | succ n ih =>
    intro yy cy s₁ h₁
    refine (copyRow_meets hcell hend hline h₁ src.grid px yy nx).bind fun s₂ h₂ => ?_
    exact (hmove s₂ s.cx (cy + 1) h₂).bind fun s₃ h₃ => ih _ _ s₃ h₃

end

end Tmux
