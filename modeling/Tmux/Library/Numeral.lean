import Mathlib.Algebra.GroupWithZero.Nat
import Mathlib.Tactic.Common

/-!
# Numerals

The numeral of a number in a base of at most sixteen (`numeral`), as the bytes of its digits. It is
read by going through it from the left (`foldl_numeral`): the value of the bytes read is multiplied by
the base, and the value of the next digit added to it.
-/

namespace Numeral

/-- The byte of a digit. -/
def digitByte (d : ℕ) : UInt8 := if d < 10 then 48 + UInt8.ofNat d else 87 + UInt8.ofNat d

/-- The digits of a number in a base, those past nine in lower case. -/
def numeral (base n : ℕ) : List UInt8 := (Nat.toDigits base n).map fun c => UInt8.ofNat c.toNat

variable {b n : ℕ}

theorem digitByte_digitChar {d : ℕ} (hd : d < 16) : UInt8.ofNat (Nat.digitChar d).toNat = digitByte d := by
  revert d
  decide

/-- The last digit is split off. -/
theorem numeral_eq (hb : 1 < b) (hmax : b ≤ 16) (n : ℕ) :
    numeral b n = (if n < b then [] else numeral b (n / b)) ++ [digitByte (n % b)] := by
  have hmod := Nat.mod_lt n (by omega : 0 < b)
  rw [numeral, Nat.toDigits_eq_if hb]
  split_ifs with hn
  · rw [Nat.mod_eq_of_lt hn, List.map_singleton, digitByte_digitChar (Nat.lt_of_lt_of_le hn hmax), List.nil_append]
  · rw [List.map_append, List.map_singleton, digitByte_digitChar (Nat.lt_of_lt_of_le hmod hmax)]
    rfl

theorem numeral_ne_nil (hb : 1 < b) (hmax : b ≤ 16) (n : ℕ) : numeral b n ≠ [] := by
  rw [numeral_eq hb hmax]
  exact List.append_ne_nil_of_right_ne_nil _ (List.cons_ne_nil _ _)

/-- A numeral has digits of its base only. -/
theorem exists_digit_of_mem (hb : 1 < b) (hmax : b ≤ 16) {c : UInt8} (hc : c ∈ numeral b n) :
    ∃ d < b, c = digitByte d := by
  induction n using Nat.strongRecOn with
  | ind n ih =>
    rw [numeral_eq hb hmax, List.mem_append, List.mem_singleton] at hc
    rcases hc with hc | rfl
    · split_ifs at hc with hn
      · exact absurd hc List.not_mem_nil
      · exact ih (n / b) (Nat.div_lt_self (by omega) hb) hc
    · exact ⟨_, Nat.mod_lt n (by omega), rfl⟩

/-- A number below a power of the base has at most as many digits. -/
theorem length_numeral_le (hb : 1 < b) (hmax : b ≤ 16) {k : ℕ} (hk : k ≠ 0) (hn : n < b ^ k) :
    (numeral b n).length ≤ k := by
  induction k generalizing n with
  | zero => exact absurd rfl hk
  | succ k ih =>
    rw [numeral_eq hb hmax, List.length_append, List.length_singleton]
    split_ifs with hlt
    · exact Nat.le_add_left 1 k
    · rw [Nat.add_le_add_iff_right]
      refine ih ?_ (Nat.div_lt_of_lt_mul ?_)
      · rintro rfl
        exact hlt (by simpa using hn)
      · rwa [Nat.pow_succ, Nat.mul_comm] at hn

/-- A numeral is read as its number. -/
theorem foldl_numeral {value : UInt8 → ℕ} (hb : 1 < b) (hmax : b ≤ 16) (hvalue : ∀ d < b, value (digitByte d) = d)
    (n : ℕ) : (numeral b n).foldl (fun m c => b * m + value c) 0 = n := by
  induction n using Nat.strongRecOn with
  | ind n ih =>
    have hmod := hvalue _ (Nat.mod_lt n (by omega : 0 < b))
    rw [numeral_eq hb hmax, List.foldl_append, List.foldl_cons, List.foldl_nil, hmod]
    split_ifs with hn
    · rw [List.foldl_nil, Nat.mul_zero, Nat.zero_add, Nat.mod_eq_of_lt hn]
    · rw [ih (n / b) (Nat.div_lt_self (by omega) hb), Nat.div_add_mod]

end Numeral
