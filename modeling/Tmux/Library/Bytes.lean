import Mathlib.Algebra.Order.Ring.Nat
import Mathlib.Tactic.Common

/-!
# Numbers as bytes

A number is kept in memory as a number of bytes, the lowest ones first (`bytesOf`), and read from them
again (`ofBytes`).
-/

namespace Bytes

/-- The lowest `n` bytes of a number. -/
def bytesOf : ℕ → ℕ → List UInt8
  | 0, _ => []
  | n + 1, x => UInt8.ofNat x :: bytesOf n (x / 256)

/-- The number that bytes are of. -/
def ofBytes : List UInt8 → ℕ
  | [] => 0
  | b :: l => b.toNat + 256 * ofBytes l

@[simp] theorem length_bytesOf (n x : ℕ) : (bytesOf n x).length = n := by
  induction n generalizing x with
  | zero => rfl
  | succ n ih => rw [bytesOf, List.length_cons, ih]

/-- As much of a number is read again as its bytes have of it. -/
theorem ofBytes_bytesOf (n x : ℕ) : ofBytes (bytesOf n x) = x % 256 ^ n := by
  induction n generalizing x with
  | zero => simp [bytesOf, ofBytes, Nat.mod_one]
  | succ n ih =>
    have hlow : (UInt8.ofNat x).toNat = x % 256 := by simp
    rw [bytesOf, ofBytes, ih, hlow, Nat.pow_succ', Nat.mod_mul]

end Bytes
