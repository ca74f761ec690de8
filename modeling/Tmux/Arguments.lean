import Mathlib.Data.Int.Notation
import Mathlib.Tactic.Common

/-!
# Command arguments

The flags given to a command (`Args`), and the conversion of the value of one to
a number within bounds (`argsStrtonum`). A value is the text of a decimal number
and nothing after it (`strtonum`).
-/

namespace Tmux

/-- The largest signed word. -/
def intMax : ℕ := 2147483647

/-- The largest signed long word. -/
def llongMax : ℤ := 9223372036854775807

/-- The smallest signed long word. -/
def llongMin : ℤ := -9223372036854775808

/-- The flags given to a command: those without a value, and those with one. -/
structure Args where
  flags : List Char := []
  values : List (Char × String) := []
  deriving DecidableEq, Repr

/-- Whether a flag is present. -/
def argsHas (args : Args) (ch : Char) : Bool := ch ∈ args.flags || (args.values.lookup ch).isSome

/-- The characters skipped before a number. -/
def isSpace (c : Char) : Bool := c = ' ' || ('\t' ≤ c && c ≤ '\r')

/-- The value of a list of digits. -/
def digitsValue (ds : List Char) : ℕ := ds.foldl (fun n c => 10 * n + (c.toNat - '0'.toNat)) 0

/-- Read a number at the start of a text, skipping spaces and with a sign or not. Gives
    the number, whether it was out of range and is the closest in range, and the rest of the
    text; or nothing if there is no number. -/
def strtoll (s : List Char) : Option (ℤ × Bool × List Char) :=
  let s := s.dropWhile isSpace
  let negative := s.head? = some '-'
  let s := if s.head? = some '-' ∨ s.head? = some '+' then s.tail else s
  let digits := s.takeWhile Char.isDigit
  if digits.isEmpty then none
  else
    let n : ℤ := if negative then -(digitsValue digits : ℤ) else digitsValue digits
    let ll := max llongMin (min llongMax n)
    some (ll, ll != n, s.dropWhile Char.isDigit)

/-- Convert a text to a number from `minval` to `maxval`, or tell what is wrong with it. -/
def strtonum (numstr : String) (minval maxval : ℤ) : Except String ℤ :=
  if minval > maxval then .error "invalid"
  else
    match strtoll numstr.toList with
    | none => .error "invalid"
    | some (ll, erange, ep) =>
      if ep ≠ [] then .error "invalid"
      else if (ll = llongMin ∧ erange) ∨ ll < minval then .error "too small"
      else if (ll = llongMax ∧ erange) ∨ ll > maxval then .error "too large"
      else .ok ll

/-- Convert the value of a flag to a number. -/
def argsStrtonum (args : Args) (ch : Char) (minval maxval : ℤ) : Except String ℤ :=
  match args.values.lookup ch with
  | none => .error "missing"
  | some value => strtonum value minval maxval

/-- A number converted is within its bounds. -/
theorem strtonum_bounds {numstr : String} {minval maxval ll : ℤ}
    (h : strtonum numstr minval maxval = .ok ll) : minval ≤ ll ∧ ll ≤ maxval := by
  unfold strtonum at h
  split at h
  · cases h
  · split at h
    · cases h
    · split_ifs at h with _ hmin hmax
      obtain rfl : _ = ll := by simpa using h
      exact ⟨Int.not_lt.1 fun hlt => hmin (.inr hlt), Int.not_lt.1 fun hlt => hmax (.inr hlt)⟩

end Tmux
