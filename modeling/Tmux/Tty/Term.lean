import Tmux.Library.Device
import Tmux.Grid.Grid

/-!
# The terminal that is written to

A terminal has capabilities (`TtyCode`), each a sequence that it takes. What is written to it is a list of such
sequences (`TtySequence`): those of capabilities, with their parameters, and those that are the same on every
terminal. The sequence of a capability that is missing is empty.
-/

namespace Tmux

open Device

/-- The capabilities that attributes, colours and the cursor go by. -/
inductive TtyCode
  | acsc | ax | op
  | bold | dim | sitm | smso | smul | blink | rev | invis | smacs
  | rmacs | sgr0 | setaf | setab
  | cup | home | cub1 | cuf1 | cuu1 | cud1 | cub | cuf | cuu | cud | hpa | vpa
  deriving DecidableEq, Repr

/-- Whether a terminal has 256 or 88 colours. -/
structure TermFlags where
  colours256 : Bool := false
  colours88 : Bool := false
  deriving DecidableEq

/-- A terminal, by its capabilities and the number of its colours. -/
structure TtyTerm where
  has : TtyCode → Bool
  colours : ℕ := 0
  flags : TermFlags := {}

/-- What is known of a terminal and does not change: besides its description, the flags that a client is started
    with, and whether it takes UTF-8. -/
structure TtyKind where
  term : TtyTerm
  termFlags : TermFlags := {}
  utf8 : Bool := false

/-- A sequence that is written to a terminal. -/
inductive TtySequence
  /-- A control character. -/
  | char (ch : UInt8)
  | code (c : TtyCode)
  | code1 (c : TtyCode) (a : ℤ)
  | code2 (c : TtyCode) (a b : ℤ)
  /-- A sequence for attributes and colours, by its parameters. -/
  | sgr (params : List ℕ)
  deriving DecidableEq, Repr

/-- Something that writes to a terminal. -/
abbrev TtyWriter (α : Type) := Writer (List TtySequence) α

variable (tty : TtyKind)

def TtyKind.has (c : TtyCode) : Bool := tty.term.has c

/-- Whether the alternate character set is used. -/
def TtyKind.useAcs : Bool := tty.has .acsc && !tty.utf8

def TtyKind.has256 : Bool := tty.term.flags.colours256 || tty.termFlags.colours256

def TtyKind.has88 : Bool := tty.term.flags.colours88 || tty.termFlags.colours88

def ttyPutc (ch : UInt8) : TtyWriter PUnit := write (.char ch)

def ttyPutcode (c : TtyCode) : TtyWriter PUnit := if tty.has c then write (.code c) else pure ⟨⟩

def ttyPutcode1 (c : TtyCode) (a : ℤ) : TtyWriter PUnit := if tty.has c then write (.code1 c a) else pure ⟨⟩

def ttyPutcode2 (c : TtyCode) (a b : ℤ) : TtyWriter PUnit := if tty.has c then write (.code2 c a b) else pure ⟨⟩

def ttyPuts (params : List ℕ) : TtyWriter PUnit := write (.sgr params)

end Tmux
