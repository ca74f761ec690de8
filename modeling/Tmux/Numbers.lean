import Tmux.Library.Exec
import Tmux.Library.Numeral

/-!
# Numbers in texts

Numbers are printed in decimal (`decimal`), and read where a text starts with one: by `strtoul`, or as
the words (`scanUnsigned`) and the hexadecimal short words (`scanShortHex`) that `sscanf` reads. A
decimal number before something else is read back (`scanUnsigned_decimal`).
-/

namespace Tmux

open Numeral

variable {s rest : List UInt8} {n : ℕ}

def isSpaceByte (c : UInt8) : Bool := c == 32 || (9 ≤ c && c ≤ 13)

def isDigitByte (c : UInt8) : Bool := 48 ≤ c && c ≤ 57

/-- Convert a decimal number, and what follows it. -/
def strtoul (s : List UInt8) : ℕ × List UInt8 :=
  let t := s.dropWhile isSpaceByte
  let negative := t.head? == some 45
  let t := if negative || t.head? == some 43 then t.tail else t
  let digits := t.takeWhile isDigitByte
  let value := digits.foldl (fun n c => 10 * n + (c.toNat - 48)) 0
  if digits = [] then (0, s)
  else if value ≥ 2 ^ 64 then (2 ^ 64 - 1, t.dropWhile isDigitByte)
  else (if negative then (2 ^ 64 - value) % 2 ^ 64 else value, t.dropWhile isDigitByte)

/-- Print a number, as by `%u`. -/
def decimal (n : ℕ) : List UInt8 := numeral 10 n

/-- Read a word, as `sscanf` by `%u`, and what follows it. -/
def scanUnsigned (s : List UInt8) : Option (ℕ × List UInt8) :=
  if (strtoul s).2 = s then none else some ((strtoul s).1 % Exec.word, (strtoul s).2)

def isHexByte (c : UInt8) : Bool := isDigitByte c || (65 ≤ c && c ≤ 70) || (97 ≤ c && c ≤ 102)

def hexByteValue (c : UInt8) : ℕ := if c ≤ 57 then c.toNat - 48 else if c ≤ 70 then c.toNat - 55 else c.toNat - 87

/-- Read a hexadecimal short word, as `sscanf` by `%hx`. -/
def scanShortHex (s : List UInt8) : Option ℕ :=
  let t := s.dropWhile isSpaceByte
  let negative := t.head? == some 45
  let t := if negative || t.head? == some 43 then t.tail else t
  let t := if t.head? = some 48 ∧ (t.tail.head? = some 120 ∨ t.tail.head? = some 88) then t.drop 2 else t
  let digits := t.takeWhile isHexByte
  let value := digits.foldl (fun n c => 16 * n + hexByteValue c) 0
  if digits = [] then none
  else if value ≥ 2 ^ 64 then some 65535
  else some ((if negative then 2 ^ 64 - value else value) % 65536)

/-- What follows the hexadecimal short word that is read. -/
def scanShortHexRest (s : List UInt8) : List UInt8 :=
  let t := s.dropWhile isSpaceByte
  let t := if t.head? == some 45 || t.head? == some 43 then t.tail else t
  let t := if t.head? = some 48 ∧ (t.tail.head? = some 120 ∨ t.tail.head? = some 88) then t.drop 2 else t
  t.dropWhile isHexByte

/-! ## Digits -/

theorem isDigitByte_digitByte : ∀ d < 10, isDigitByte (digitByte d) = true := by
  decide

theorem isHexByte_digitByte : ∀ d < 16, isHexByte (digitByte d) = true := by
  decide

theorem digitByte_not_skipped : ∀ d < 10, isSpaceByte (digitByte d) = false ∧ digitByte d ≠ 45 ∧ digitByte d ≠ 43 := by
  decide

theorem digitByte_value : ∀ d < 10, (digitByte d).toNat - 48 = d := by
  decide

theorem isDigitByte_of_mem {c : UInt8} (hc : c ∈ decimal n) : isDigitByte c = true := by
  obtain ⟨d, hd, rfl⟩ := exists_digit_of_mem (by decide) (by decide) hc
  exact isDigitByte_digitByte d hd

theorem decimal_ne_nil (n : ℕ) : decimal n ≠ [] := numeral_ne_nil (by decide) (by decide) n

/-- A decimal number starts with a digit. -/
theorem exists_decimal (n : ℕ) : ∃ d < 10, ∃ t, decimal n = digitByte d :: t := by
  obtain ⟨c, t, heq⟩ := List.exists_cons_of_ne_nil (decimal_ne_nil n)
  obtain ⟨d, hd, rfl⟩ := exists_digit_of_mem (b := 10) (n := n) (by decide) (by decide) (heq ▸ List.mem_cons_self)
  exact ⟨d, hd, t, heq⟩

/-- What follows a number does not go on with digits. -/
def EndsNumber (rest : List UInt8) : Prop := ∀ c ∈ rest.head?, isDigitByte c = false

theorem EndsNumber.takeWhile (h : EndsNumber rest) : rest.takeWhile isDigitByte = [] := by
  cases rest with
  | nil => rfl
  | cons c t => exact List.takeWhile_cons_of_neg (by simp [h c rfl])

theorem EndsNumber.dropWhile (h : EndsNumber rest) : rest.dropWhile isDigitByte = rest := by
  cases rest with
  | nil => rfl
  | cons c t => exact List.dropWhile_cons_of_neg (by simp [h c rfl])

theorem takeWhile_decimal (h : EndsNumber rest) : (decimal n ++ rest).takeWhile isDigitByte = decimal n := by
  rw [List.takeWhile_append_of_pos fun c => isDigitByte_of_mem, h.takeWhile, List.append_nil]

theorem dropWhile_decimal (h : EndsNumber rest) : (decimal n ++ rest).dropWhile isDigitByte = rest := by
  rw [List.dropWhile_append_of_pos fun c => isDigitByte_of_mem, h.dropWhile]

/-! ## Reading -/

/-- A decimal number is converted back. -/
theorem strtoul_decimal (hn : n < 2 ^ 64) (h : EndsNumber rest) : strtoul (decimal n ++ rest) = (n, rest) := by
  obtain ⟨d, hd, t, heq⟩ := exists_decimal n
  obtain ⟨hspace, hminus, hplus⟩ := digitByte_not_skipped d hd
  have hskip : (decimal n ++ rest).dropWhile isSpaceByte = decimal n ++ rest := by
    rw [heq, List.cons_append, List.dropWhile_cons_of_neg (by simp [hspace])]
  have hhead : (decimal n ++ rest).head? = some (digitByte d) := by rw [heq, List.cons_append, List.head?_cons]
  have hvalue : (decimal n).foldl (fun n c => 10 * n + (c.toNat - 48)) 0 = n :=
    foldl_numeral (by decide) (by decide) digitByte_value n
  have hroom : ¬ 18446744073709551616 ≤ n := Nat.not_le.2 hn
  simp [strtoul, hskip, hhead, hminus, hplus, takeWhile_decimal h, dropWhile_decimal h, hvalue, decimal_ne_nil, hroom]

/-- A word printed is read back. -/
theorem scanUnsigned_decimal (hn : n < Exec.word) (h : EndsNumber rest) :
    scanUnsigned (decimal n ++ rest) = some (n, rest) := by
  have hread := strtoul_decimal (Nat.lt_trans hn (by decide : Exec.word < 2 ^ 64)) h
  rw [scanUnsigned, hread, if_neg, Nat.mod_eq_of_lt hn]
  intro heq
  exact decimal_ne_nil n (List.self_eq_append_left.1 heq)

theorem endsNumber_cons {c : UInt8} (hc : isDigitByte c = false) (t : List UInt8) : EndsNumber (c :: t) := by
  rintro _ ⟨⟩
  exact hc

theorem hexByteValue_digitByte : ∀ d < 16, hexByteValue (digitByte d) = d := by
  decide

theorem digitByte_not_sign : ∀ d < 16, isSpaceByte (digitByte d) = false ∧ digitByte d ≠ 45 ∧ digitByte d ≠ 43 ∧
    digitByte d ≠ 120 ∧ digitByte d ≠ 88 := by
  decide

/-- A short word printed in hexadecimal, after blanks, is read back. -/
theorem scanShortHex_hex (hn : n < 65536) (k : ℕ) (rest : List UInt8) :
    scanShortHex ((numeral 16 n).leftpad k 32 ++ 44 :: rest) = some n := by
  have hmem : ∀ c ∈ numeral 16 n, ∃ d < 16, c = digitByte d := fun c hc => exists_digit_of_mem (by decide) (by decide) hc
  obtain ⟨c, t, heq⟩ := List.exists_cons_of_ne_nil (numeral_ne_nil (b := 16) (by decide) (by decide) n)
  obtain ⟨d, hd, rfl⟩ := hmem c (heq ▸ List.mem_cons_self)
  obtain ⟨hspace, hminus, hplus, -, -⟩ := digitByte_not_sign d hd
  have hskip : ((numeral 16 n).leftpad k 32 ++ 44 :: rest).dropWhile isSpaceByte = numeral 16 n ++ 44 :: rest := by
    rw [List.leftpad, List.append_assoc, List.dropWhile_append_of_pos, heq, List.cons_append,
      List.dropWhile_cons_of_neg (by simp [hspace])]
    intro c hc
    rw [(List.mem_replicate.1 hc).2]
    rfl
  have hdigits : (numeral 16 n ++ 44 :: rest).takeWhile isHexByte = numeral 16 n := by
    rw [List.takeWhile_append_of_pos, List.takeWhile_cons_of_neg (by decide), List.append_nil]
    intro c hc
    obtain ⟨d, hd, rfl⟩ := hmem c hc
    exact isHexByte_digitByte d hd
  have hvalue : (numeral 16 n).foldl (fun n c => 16 * n + hexByteValue c) 0 = n :=
    foldl_numeral (by decide) (by decide) hexByteValue_digitByte n
  have hhead : (numeral 16 n ++ 44 :: rest).head? = some (digitByte d) := by rw [heq, List.cons_append, List.head?_cons]
  have hsecond : ∀ c ∈ (numeral 16 n ++ 44 :: rest).tail.head?, c ≠ 120 ∧ c ≠ 88 := by
    rw [heq, List.cons_append, List.tail_cons]
    cases t with
    | nil =>
      rintro _ ⟨⟩
      decide
    | cons c' t =>
      rintro _ ⟨⟩
      obtain ⟨d', hd', rfl⟩ := hmem c' (heq ▸ List.mem_cons_of_mem _ List.mem_cons_self)
      exact (digitByte_not_sign d' hd').2.2.2
  have hprefixed : ¬ ((numeral 16 n ++ 44 :: rest).tail.head? = some 120 ∨
      (numeral 16 n ++ 44 :: rest).tail.head? = some 88) :=
    fun h => h.elim (fun h => (hsecond _ h).1 rfl) fun h => (hsecond _ h).2 rfl
  have hne := numeral_ne_nil (b := 16) (by decide) (by decide) n
  have hpositive : (some (digitByte d) == some 43) = false := by simp [hplus]
  have hnegative : (some (digitByte d) == some 45) = false := by simp [hminus]
  have hroom : ¬ n ≥ 2 ^ 64 := by omega
  simp only [scanShortHex, hskip, hhead, hpositive, hnegative, Bool.or_self, Bool.false_eq_true, if_false, hprefixed,
    and_false, hdigits,
    hvalue, hne, hroom, Nat.mod_eq_of_lt hn]

end Tmux
