import Mathlib.Algebra.GroupWithZero.Nat
import Tmux.Arguments
import Tmux.Grid.Grid
import Tmux.Utf8

/-!
# Styles

A style is a list of colours and attributes, such as "fg=red,bright", embedded in a string
(`screenWriteParsestyle`). Colours are names, numbers of the palette of 256 colours, or the
one of these closest to an RGB colour (`colourFromstring`).

A style changes the colours and attributes of a cell, and nothing else of it
(`screenWriteParsestyle_keeps`).
-/

namespace Tmux

/-! ## Strings -/

/-- A byte in lower case. -/
def lowerByte (c : UInt8) : UInt8 := if 65 ≤ c && c ≤ 90 then c + 32 else c

/-- Whether two strings are the same but for their case. -/
def strcaseEq (s text : List UInt8) : Bool := s.map lowerByte == text.map lowerByte

/-- The number of bytes before the first one of `reject`. -/
def strcspn (s reject : List UInt8) : ℕ := (s.takeWhile fun c => !reject.contains c).length

/-- The number of bytes before the first one that is not of `accept`. -/
def strspn (s accept : List UInt8) : ℕ := (s.takeWhile accept.contains).length

/-! ## Colours -/

/-- An RGB colour. -/
structure ColourRgb where
  r : UInt8
  g : UInt8
  b : UInt8
  deriving DecidableEq, Repr

/-- The level of one of the six steps of a colour. -/
def colourLevel (i : ℕ) : UInt8 := if i ≠ 0 then UInt8.ofNat (i * 40 + 55) else 0

/-- The RGB table of 256 colours but the first 16. These are often changed by users and
    terminals so it does not include them. -/
def colourRgb256 : List ColourRgb :=
  -- The colours first, then the greys.
  ((List.range 216).map fun i => ⟨colourLevel (i / 36), colourLevel (i / 6 % 6), colourLevel (i % 6)⟩) ++
    (List.range 24).map fun i => ⟨UInt8.ofNat (8 + i * 10), UInt8.ofNat (8 + i * 10), UInt8.ofNat (8 + i * 10)⟩

/-- Get colour RGB distance. -/
def colourRgbDistance (rgb1 rgb2 : ColourRgb) : ℕ :=
  let square := fun a b : UInt8 => ((a.toNat : ℤ) - b.toNat).natAbs ^ 2
  square rgb1.r rgb2.r + square rgb1.g rgb2.g + square rgb1.b rgb2.b

/-- Work out the nearest colour from the 256 colour set. -/
def colourRgbFind (rgb : ColourRgb) : ℕ :=
  (colourRgb256.zipIdx.foldl (fun (lowest, colour) (entry, i) =>
    if colourRgbDistance entry rgb < lowest then (colourRgbDistance entry rgb, 16 + i) else (lowest, colour))
    (Exec.word - 1, 16)).2

/-- The value of a hexadecimal digit. -/
def hexDigit (c : UInt8) : Option ℕ :=
  if 48 ≤ c && c ≤ 57 then some (c.toNat - 48)
  else if 65 ≤ c && c ≤ 70 then some (c.toNat - 55)
  else if 97 ≤ c && c ≤ 102 then some (c.toNat - 87)
  else none

/-- Read an RGB colour of six hexadecimal digits. -/
def rgbFromstring (s : List UInt8) : Option ColourRgb :=
  match s.mapM hexDigit with
  | some [r, r', g, g', b, b'] =>
    some ⟨UInt8.ofNat (16 * r + r'), UInt8.ofNat (16 * g + g'), UInt8.ofNat (16 * b + b')⟩
  | _ => none

/-- The colours with a name. -/
def colourNames : List (String × ℕ) :=
  [("black", 0), ("red", 1), ("green", 2), ("yellow", 3), ("blue", 4), ("magenta", 5), ("cyan", 6), ("white", 7),
    ("default", 8)]

/-- The bright colours. Their numbers are not accepted for them: one of their digits is to be the
    end of the string, too. -/
def brightNames : List (String × ℕ) :=
  [("brightblack", 90), ("brightred", 91), ("brightgreen", 92), ("brightyellow", 93), ("brightblue", 94),
    ("brightmagenta", 95), ("brightcyan", 96), ("brightwhite", 97)]

/-- Convert colour from string. -/
def colourFromstring (s : List UInt8) : Option ℕ :=
  if s.head? = some 35 ∧ s.length = 7 then
    (rgbFromstring s.tail).map fun rgb => colourRgbFind rgb ||| 0x100
  else if strcaseEq (s.take 6) (asciiBytes "colour") then
    match strtonum (String.ofList ((s.drop 6).map fun c => Char.ofNat c.toNat)) 0 255 with
    | .error _ => none
    | .ok n => some (n.toNat ||| 0x100)
  else
    let named := fun (name, c) => strcaseEq s (asciiBytes name) || s == [48 + UInt8.ofNat c]
    match colourNames.find? named with
    | some (_, c) => some c
    | none => (brightNames.find? fun (name, _) => strcaseEq s (asciiBytes name)).map Prod.snd

/-! ## Attributes -/

/-- The names of attributes. -/
def attributeNames : List (String × UInt8) :=
  [("bright", gridAttrBright), ("bold", gridAttrBright), ("dim", gridAttrDim), ("underscore", gridAttrUnderscore),
    ("blink", gridAttrBlink), ("reverse", gridAttrReverse), ("hidden", gridAttrHidden),
    ("italics", gridAttrItalics)]

/-- The bytes between attributes: space, comma or bar. -/
def attributeDelimiters : List UInt8 := [32, 44, 124]

/-- Read attributes from a place on. The places left are at most `n`. -/
def attributesFrom : ℕ → UInt8 → List UInt8 → Option UInt8
  | 0, attr, _ => some attr
  | n + 1, attr, str =>
    let fin := strcspn str attributeDelimiters
    match attributeNames.find? fun (name, _) => strcaseEq (str.take fin) (asciiBytes name) with
    | none => none
    | some (_, bit) =>
      let rest := str.drop (fin + strspn (str.drop fin) attributeDelimiters)
      if rest = [] then some (attr ||| bit) else attributesFrom n (attr ||| bit) rest

def attributesFromstring (str : List UInt8) : Option UInt8 :=
  if str = [] ∨ strcspn str attributeDelimiters = 0 then none
  else if attributeDelimiters.contains (str.getLast?.getD 0) then none
  else if strcaseEq str (asciiBytes "default") ∨ strcaseEq str (asciiBytes "none") then some 0
  else attributesFrom str.length 0 str

/-! ## Styles -/

/-- The bytes between the parts of a style: space or comma. -/
def styleDelimiters : List UInt8 := [32, 44]

/-- The size of the buffer for a part of a style. -/
def styleSize : ℕ := 32

/-- Set or unset the flag for a colour of the palette of 256. -/
def setFlag256 (flags flag : UInt8) (val : ℕ) : UInt8 :=
  if val &&& 0x100 ≠ 0 then flags ||| flag else flags &&& ~~~flag

/-- Set the colour that a letter stands for, back to the default one of `defgc` if it is 8. -/
def styleColour (defgc gc : GridCell) (letter : UInt8) (val : ℕ) : Option GridCell :=
  let colour := UInt8.ofNat (val &&& 0xff)
  if lowerByte letter = 102 then
    if val ≠ 8 then some { gc with flags := setFlag256 gc.flags gridFlagFg256 val, fg := colour }
    else some { gc with fg := defgc.fg }
  else if lowerByte letter = 98 then
    if val ≠ 8 then some { gc with flags := setFlag256 gc.flags gridFlagBg256 val, bg := colour }
    else some { gc with bg := defgc.bg }
  else none

/-- Apply a part of a style. -/
def stylePart (defgc gc : GridCell) (tmp : List UInt8) : Option GridCell :=
  if strcaseEq tmp (asciiBytes "default") then
    some { gc with fg := defgc.fg, bg := defgc.bg, attr := defgc.attr }
  else if tmp.length > 3 ∧ strcaseEq (tmp.tail.take 2) (asciiBytes "g=") then
    (colourFromstring (tmp.drop 3)).bind fun val => styleColour defgc gc (tmp.headD 0) val
  else if tmp.length > 2 ∧ strcaseEq (tmp.take 2) (asciiBytes "no") then
    (attributesFromstring (tmp.drop 2)).map fun val => { gc with attr := gc.attr &&& ~~~val }
  else (attributesFromstring tmp).map fun val => { gc with attr := gc.attr ||| val }

/-- Apply the parts of a style from a place on. The places left are at most `n`. -/
def styleFrom (defgc : GridCell) : ℕ → GridCell → List UInt8 → Option GridCell
  | 0, gc, _ => some gc
  | n + 1, gc, text =>
    let fin := strcspn text styleDelimiters
    if fin > styleSize - 1 then none
    else
      match stylePart defgc gc (text.take fin) with
      | none => none
      | some gc =>
        let rest := text.drop (fin + strspn (text.drop fin) styleDelimiters)
        if rest = [] then some gc else styleFrom defgc n gc rest

/-- Parse an embedded style of the form "fg=colour,bg=colour,bright,...". The cell is left as it is
    if a part of it is not valid. -/
def screenWriteParsestyle (defgc gc : GridCell) (text : List UInt8) : GridCell :=
  if text = [] then gc
  else if styleDelimiters.contains (text.getLast?.getD 0) then gc
  else (styleFrom defgc text.length gc text).getD gc

/-! ## What a style keeps -/

/-- Two cells with the same data, both padding or not, and both with UTF-8 data or not. -/
structure GridCell.SameContent (gc gc' : GridCell) : Prop where
  data : gc'.data = gc.data
  isPadding : gc'.isPadding = gc.isPadding
  isUtf8 : gc'.isUtf8 = gc.isUtf8

variable {defgc gc gc' gc'' : GridCell}

theorem GridCell.SameContent.refl (gc : GridCell) : gc.SameContent gc := ⟨rfl, rfl, rfl⟩

theorem GridCell.SameContent.trans (h : gc.SameContent gc') (h' : gc'.SameContent gc'') : gc.SameContent gc'' :=
  ⟨h'.data.trans h.data, h'.isPadding.trans h.isPadding, h'.isUtf8.trans h.isUtf8⟩

theorem setFlag256_kept {flag other : UInt8} (hflag : flag &&& other = 0) (flags : UInt8) (val : ℕ) :
    setFlag256 flags flag val &&& other = flags &&& other := by
  rw [setFlag256]
  split_ifs
  · exact flags_set hflag flags
  · exact flags_clear hflag flags

theorem styleColour_keeps {letter : UInt8} {val : ℕ} (h : styleColour defgc gc letter val = some gc') :
    gc.SameContent gc' := by
  rw [styleColour] at h
  split_ifs at h <;> obtain rfl := Option.some.inj h
  · exact ⟨rfl, by rw [GridCell.isPadding, setFlag256_kept (by decide)]; rfl,
      by rw [GridCell.isUtf8, setFlag256_kept (by decide)]; rfl⟩
  · exact ⟨rfl, rfl, rfl⟩
  · exact ⟨rfl, by rw [GridCell.isPadding, setFlag256_kept (by decide)]; rfl,
      by rw [GridCell.isUtf8, setFlag256_kept (by decide)]; rfl⟩
  · exact ⟨rfl, rfl, rfl⟩

theorem stylePart_keeps {tmp : List UInt8} (h : stylePart defgc gc tmp = some gc') : gc.SameContent gc' := by
  rw [stylePart] at h
  split_ifs at h
  · obtain rfl := Option.some.inj h
    exact ⟨rfl, rfl, rfl⟩
  · obtain ⟨val, -, hcolour⟩ := Option.bind_eq_some_iff.1 h
    exact styleColour_keeps hcolour
  · obtain ⟨val, -, rfl⟩ := Option.map_eq_some_iff.1 h
    exact ⟨rfl, rfl, rfl⟩
  · obtain ⟨val, -, rfl⟩ := Option.map_eq_some_iff.1 h
    exact ⟨rfl, rfl, rfl⟩

theorem styleFrom_keeps {n : ℕ} {text : List UInt8} (h : styleFrom defgc n gc text = some gc') :
    gc.SameContent gc' := by
  induction n generalizing gc text with
  | zero =>
    obtain rfl := Option.some.inj h
    exact .refl gc
  | succ n ih =>
    rw [styleFrom] at h
    by_cases hlong : strcspn text styleDelimiters > styleSize - 1
    · rw [if_pos hlong] at h
      cases h
    · rw [if_neg hlong] at h
      cases hpart : stylePart defgc gc (text.take (strcspn text styleDelimiters)) with
      | none =>
        rw [hpart] at h
        cases h
      | some gc₁ =>
        rw [hpart] at h
        dsimp only at h
        have hkeeps := stylePart_keeps hpart
        split_ifs at h
        · obtain rfl := Option.some.inj h
          exact hkeeps
        · exact hkeeps.trans (ih h)

/-- A style changes nothing of a cell but its colours and attributes. -/
theorem screenWriteParsestyle_keeps (defgc gc : GridCell) (text : List UInt8) :
    gc.SameContent (screenWriteParsestyle defgc gc text) := by
  rw [screenWriteParsestyle]
  split_ifs
  · exact .refl gc
  · exact .refl gc
  · cases hstyle : styleFrom defgc text.length gc text with
    | none => exact .refl gc
    | some gc' => exact styleFrom_keeps hstyle

end Tmux
