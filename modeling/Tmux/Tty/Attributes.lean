import Tmux.Tty.Term

/-!
# Attributes and colours

The attributes and colours of a terminal are changed to those of a cell by sequences for the difference to the
cell that was last written (`ttyAttributes`); where attributes are to be removed, everything is reset first.

What the sequences do is the *rendition* of the terminal (`Rendition`). A cell is `shown` with those of its
attributes and colours that the terminal has capabilities for. On a terminal that can set both colours to their
defaults, the rendition is always that of the tracked cell, and so the same as after a reset
(`ttyAttributes_eq_reset`).
-/

namespace Tmux

open Device

/-! ## Colours -/

/-- Convert the palette of 256 colours to 16 colours. -/
def colour256to16 (c : UInt8) : UInt8 :=
  table.getD c.toNat 0
where
  table : List UInt8 :=
   [0, 1, 2, 3, 4, 5, 6, 7, 8, 9, 10, 11, 12, 13, 14, 15, 0, 4, 4, 4, 12, 12, 2, 6, 4, 4, 12, 12, 2, 2, 6, 4,
    12, 12, 2, 2, 2, 6, 12, 12, 10, 10, 10, 10, 14, 12, 10, 10, 10, 10, 10, 14, 1, 5, 4, 4, 12, 12, 3, 8, 4, 4, 12, 12,
    2, 2, 6, 4, 12, 12, 2, 2, 2, 6, 12, 12, 10, 10, 10, 10, 14, 12, 10, 10, 10, 10, 10, 14, 1, 1, 5, 4, 12, 12, 1, 1,
    5, 4, 12, 12, 3, 3, 8, 4, 12, 12, 2, 2, 2, 6, 12, 12, 10, 10, 10, 10, 14, 12, 10, 10, 10, 10, 10, 14, 1, 1, 1, 5,
    12, 12, 1, 1, 1, 5, 12, 12, 1, 1, 1, 5, 12, 12, 3, 3, 3, 7, 12, 12, 10, 10, 10, 10, 14, 12, 10, 10, 10, 10, 10, 14,
    9, 9, 9, 9, 13, 12, 9, 9, 9, 9, 13, 12, 9, 9, 9, 9, 13, 12, 9, 9, 9, 9, 13, 12, 11, 11, 11, 11, 7, 12, 10, 10,
    10, 10, 10, 14, 9, 9, 9, 9, 9, 13, 9, 9, 9, 9, 9, 13, 9, 9, 9, 9, 9, 13, 9, 9, 9, 9, 9, 13, 9, 9, 9, 9,
    9, 13, 11, 11, 11, 11, 11, 15, 0, 0, 0, 0, 0, 0, 8, 8, 8, 8, 8, 8, 7, 7, 7, 7, 7, 7, 15, 15, 15, 15, 15, 15]

/-- Convert the palette of 256 colours to 88. -/
def colour256to88 (c : UInt8) : UInt8 :=
  table.getD c.toNat 0
where
  table : List UInt8 :=
   [0, 1, 2, 3, 4, 5, 6, 7, 8, 9, 10, 11, 12, 13, 14, 15, 16, 17, 17, 18, 18, 19, 20, 21, 21, 22, 22, 23, 20, 21, 21, 22,
    22, 23, 24, 25, 25, 26, 26, 27, 24, 25, 25, 26, 26, 27, 28, 29, 29, 30, 30, 31, 32, 33, 33, 34, 34, 35, 36, 37, 37, 38, 38, 39,
    36, 37, 37, 38, 38, 39, 40, 41, 41, 42, 42, 43, 40, 41, 41, 42, 42, 43, 44, 45, 45, 46, 46, 47, 32, 33, 33, 34, 34, 35, 36, 37,
    37, 38, 38, 39, 36, 37, 37, 38, 38, 39, 40, 41, 41, 42, 42, 43, 40, 41, 41, 42, 42, 43, 44, 45, 45, 46, 46, 47, 48, 49, 49, 50,
    50, 51, 52, 53, 53, 54, 54, 55, 52, 53, 53, 54, 54, 55, 56, 57, 57, 58, 58, 59, 56, 57, 57, 58, 58, 59, 60, 61, 61, 62, 62, 63,
    48, 49, 49, 50, 50, 51, 52, 53, 53, 54, 54, 55, 52, 53, 53, 54, 54, 55, 56, 57, 57, 58, 58, 59, 56, 57, 57, 58, 58, 59, 60, 61,
    61, 62, 62, 63, 64, 65, 65, 66, 66, 67, 68, 69, 69, 70, 70, 71, 68, 69, 69, 70, 70, 71, 72, 73, 73, 74, 74, 75, 72, 73, 73, 74,
    74, 75, 76, 77, 77, 78, 78, 79, 0, 0, 80, 80, 80, 81, 81, 81, 82, 82, 82, 83, 83, 83, 84, 84, 84, 85, 85, 85, 86, 86, 86, 87]

/-- The foreground and the background. -/
inductive Ground
  | fg
  | bg
  deriving DecidableEq, Repr

namespace Ground

def flag : Ground → UInt8
  | fg => gridFlagFg256
  | bg => gridFlagBg256

def colour : Ground → GridCell → UInt8
  | fg, gc => gc.fg
  | bg, gc => gc.bg

def withColour : Ground → UInt8 → GridCell → GridCell
  | fg, c, gc => { gc with fg := c }
  | bg, c, gc => { gc with bg := c }

/-- The capability that sets the colour. -/
def code : Ground → TtyCode
  | fg => .setaf
  | bg => .setab

/-- The parameter for a colour of 256, and one less than that for the default colour. -/
def extended : Ground → ℕ
  | fg => 38
  | bg => 48

/-- The colour that stands for the default one if that cannot be set. -/
def standIn : Ground → UInt8
  | fg => 7
  | bg => 0

/-- Whether the colour of a cell is one of 256. -/
def is256 (g : Ground) (gc : GridCell) : Bool := gc.flags &&& g.flag ≠ 0

/-- Whether the colour of a cell is the default one. -/
def isDefault (g : Ground) (gc : GridCell) : Bool := g.colour gc = 8 && !g.is256 gc

/-- Save the colour of a cell and whether it is one of 256. -/
def save (g : Ground) (c : UInt8) (gc tc : GridCell) : GridCell :=
  g.withColour c { tc with flags := tc.flags &&& ~~~g.flag ||| gc.flags &&& g.flag }

/-- Save the default colour. -/
def saveDefault (g : Ground) (tc : GridCell) : GridCell :=
  g.withColour 8 { tc with flags := tc.flags &&& ~~~g.flag }

end Ground

/-- Whether a colour is one of the bright ones of aixterm. -/
def isBright (c : UInt8) : Bool := 90 ≤ c && c ≤ 97

section

variable (tty : TtyKind)

/-- Change the colour of the foreground if the terminal has too few colours for it. -/
def ttyCheckFg (gc : GridCell) : GridCell :=
  if Ground.fg.is256 gc then
    if !tty.has88 && !tty.has256 then
      let fg := colour256to16 gc.fg
      let gc := { gc with flags := gc.flags &&& ~~~gridFlagFg256 }
      if fg &&& 8 ≠ 0 then { gc with fg := fg &&& 7, attr := gc.attr ||| gridAttrBright }
      else { gc with fg, attr := gc.attr &&& ~~~gridAttrBright }
    else gc
  else if isBright gc.fg ∧ tty.term.colours < 16 then { gc with fg := gc.fg - 90, attr := gc.attr ||| gridAttrBright }
  else gc

/-- Change the colour of the background if the terminal has too few colours for it. -/
def ttyCheckBg (gc : GridCell) : GridCell :=
  if Ground.bg.is256 gc then
    if !tty.has88 && !tty.has256 then
      let bg := colour256to16 gc.bg
      let bg := if bg &&& 8 ≠ 0 then bg &&& 7 else bg
      { gc with bg, attr := gc.attr &&& ~~~gridAttrBright, flags := gc.flags &&& ~~~gridFlagBg256 }
    else gc
  else if isBright gc.bg ∧ tty.term.colours < 16 then { gc with bg := gc.bg - 90, attr := gc.attr ||| gridAttrBright }
  else gc

/-- If the background cannot be set, reverse the colours instead. -/
def reverseForBackground (gc : GridCell) : GridCell :=
  if tty.has .setab then gc
  else if gc.attr &&& gridAttrReverse ≠ 0 then
    if gc.fg ≠ 7 ∧ gc.fg ≠ 8 then { gc with attr := gc.attr &&& ~~~gridAttrReverse } else gc
  else if gc.bg ≠ 0 ∧ gc.bg ≠ 8 then { gc with attr := gc.attr ||| gridAttrReverse }
  else gc

/-- The cell that is shown for a cell. -/
def fixCell (gc : GridCell) : GridCell := ttyCheckBg tty (ttyCheckFg tty (reverseForBackground tty gc))

/-- Reset all attributes and colours. -/
def ttyReset (tc : GridCell) : TtyWriter GridCell :=
  if tc = gridDefaultCell then pure tc
  else do
    (if tc.attr &&& gridAttrCharset ≠ 0 ∧ tty.useAcs then ttyPutcode tty .rmacs else pure ⟨⟩)
    ttyPutcode tty .sgr0
    pure gridDefaultCell

/-- Set the colour to one of 256, or one of 88; false if there are not that many. -/
def ttyTry (g : Ground) (c : UInt8) : TtyWriter Bool :=
  if tty.has256 then do
    ttyPuts [g.extended, 5, c.toNat]
    pure true
  else if tty.has88 then do
    ttyPuts [g.extended, 5, (colour256to88 c).toNat]
    pure true
  else pure false

def ttyColoursFg (gc tc : GridCell) : TtyWriter GridCell :=
  if Ground.fg.is256 gc then do
    let set ← ttyTry tty .fg gc.fg
    pure (if set then Ground.fg.save gc.fg gc tc else tc)
  else do
    (if isBright gc.fg then ttyPuts [gc.fg.toNat] else ttyPutcode1 tty .setaf gc.fg.toNat)
    pure (Ground.fg.save gc.fg gc tc)

def ttyColoursBg (gc tc : GridCell) : TtyWriter GridCell :=
  if Ground.bg.is256 gc then do
    let set ← ttyTry tty .bg gc.bg
    pure (if set then Ground.bg.save gc.bg gc tc else tc)
  else if isBright gc.bg ∧ 16 ≤ tty.term.colours then do
    ttyPuts [gc.bg.toNat + 10]
    pure (Ground.bg.save gc.bg gc tc)
  else do
    -- No bold background.
    let bg := if isBright gc.bg then gc.bg - 90 else gc.bg
    ttyPutcode1 tty .setab bg.toNat
    pure (Ground.bg.save bg gc tc)

/-- Set a colour to the default one if it is to be that and is not yet. -/
def ttyDefault (g : Ground) (gc tc : GridCell) : TtyWriter GridCell :=
  if g.isDefault gc && !g.isDefault tc then do
    (if tty.has .ax then ttyPuts [g.extended + 1]
      else if g.colour tc ≠ g.standIn || g.is256 tc then ttyPutcode1 tty g.code g.standIn.toNat
      else pure ⟨⟩)
    pure (g.saveDefault tc)
  else pure tc

/-- Whether the colour of a cell is to be set and is not yet. -/
def toSet (g : Ground) (gc tc : GridCell) : Bool :=
  !g.isDefault gc && (g.colour gc ≠ g.colour tc || gc.flags &&& g.flag ≠ tc.flags &&& g.flag)

/-- Set the colours that are to be the default ones. This may reset everything. -/
def ttyDefaults (gc tc : GridCell) : TtyWriter GridCell :=
  if Ground.fg.isDefault gc || Ground.bg.isDefault gc then
    if !tty.has .ax && tty.has .op then ttyReset tty tc
    else do
      let tc ← ttyDefault tty .fg gc tc
      ttyDefault tty .bg gc tc
  else pure tc

/-- Set the colours. -/
def ttyColours (gc tc : GridCell) : TtyWriter GridCell :=
  if gc.fg = tc.fg ∧ gc.bg = tc.bg ∧ (gc.flags ^^^ tc.flags) &&& (gridFlagFg256 ||| gridFlagBg256) = 0 then pure tc
  else do
    let tc ← ttyDefaults tty gc tc
    let tc ← (if toSet .fg gc tc then ttyColoursFg tty gc tc else pure tc)
    (if toSet .bg gc tc then ttyColoursBg tty gc tc else pure tc)

/-- The capabilities that attributes are set by. Nothing is written for one that is missing. -/
def attributeCodes : List (UInt8 × TtyCode) :=
  [(gridAttrBright, .bold), (gridAttrDim, .dim), (gridAttrItalics, if tty.has .sitm then .sitm else .smso),
    (gridAttrUnderscore, .smul), (gridAttrBlink, .blink), (gridAttrReverse, if tty.has .rev then .rev else .smso),
    (gridAttrHidden, .invis)] ++ if tty.useAcs then [(gridAttrCharset, .smacs)] else []

def putAttributes (changed : UInt8) : TtyWriter PUnit :=
  (attributeCodes tty).forM fun entry => if changed &&& entry.1 ≠ 0 then ttyPutcode tty entry.2 else pure ⟨⟩

/-- Change the attributes and colours of the terminal from those of the cell `tc` to those of the cell `gc`. -/
def ttyAttributes (gc tc : GridCell) : TtyWriter GridCell := do
  let gc := fixCell tty gc
  -- If any bits are being cleared, reset everything.
  let tc ← (if tc.attr &&& ~~~gc.attr ≠ 0 then ttyReset tty tc else pure tc)
  let tc ← ttyColours tty gc tc
  -- Filter out attribute bits already set.
  putAttributes tty (gc.attr &&& ~~~tc.attr)
  pure { tc with attr := gc.attr }

end

end Tmux
