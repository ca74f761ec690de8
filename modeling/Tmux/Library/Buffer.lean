import Tmux.Library.CString

/-!
# Growing buffers

A buffer that a text is put together in: a block of memory, and how much of it is used. It is made twice as
large as often as needed before more is put into it (`append`), so that there is *room* (`Room`) for the
null byte at the end (`finish`).
-/

open Exec CString

/-- A block of memory, and the number of bytes used at its start. -/
structure Buffer where
  data : List UInt8
  off : ℕ
  deriving DecidableEq

namespace Buffer

variable {b : Buffer} {n fuel : ℕ}

/-- There is room for another byte. -/
def Room (b : Buffer) : Prop := b.off < b.data.length

/-- What has been put into the buffer. -/
def text (b : Buffer) : List UInt8 := b.data.take b.off

/-- Double the block until `n` bytes are unused. A block without any byte cannot be doubled. -/
def reserve : ℕ → Buffer → ℕ → Exec Buffer
  | 0, _, _ => .fault .hang
  | fuel + 1, b, n =>
    if b.off ≤ b.data.length ∧ b.data.length - b.off < n then
      if b.data = [] then .fault .fatal else reserve fuel { b with data := Block.resize 0 b.data (2 * b.data.length) } n
    else pure b

/-- Put bytes into the buffer, leaving room for one more. -/
def append (b : Buffer) (s : List UInt8) : Exec Buffer := do
  let b ← reserve (b.off + s.length + 2) b (s.length + 1)
  let data ← put b.data b.off s
  pure { data, off := b.off + s.length }

/-- The block, with a null byte after what has been put into it. -/
def finish (b : Buffer) : Exec (List UInt8) := Block.store b.data b.off 0

/-- Doubling ends, as each time there is at least one byte more. -/
theorem reserve_eq (hb : b.Room) (hpos : 0 < fuel) (hfuel : b.off + n < fuel + b.data.length) :
    ∃ data, reserve fuel b n = pure ⟨data, b.off⟩ ∧ b.off + n ≤ data.length ∧ data.take b.off = b.text := by
  induction fuel generalizing b with
  | zero => exact absurd hpos (Nat.lt_irrefl 0)
  | succ fuel ih =>
    have hroom : b.off < b.data.length := hb
    rw [reserve]
    split_ifs with hfull hnil
    · rw [hnil] at hroom
      exact absurd hroom (Nat.not_lt_zero _)
    · have hlen : (Block.resize 0 b.data (2 * b.data.length)).length = 2 * b.data.length := Block.length_resize ..
      have hkept : (Block.resize 0 b.data (2 * b.data.length)).take b.off = b.text := by
        rw [Block.resize, List.take_of_length_le (Nat.le_mul_of_pos_left _ Nat.two_pos),
          List.take_append_of_le_length (Nat.le_of_lt hroom), text]
      obtain ⟨data, hdata, hle, htake⟩ := ih (b := { b with data := Block.resize 0 b.data (2 * b.data.length) })
        (show b.off < (Block.resize 0 b.data (2 * b.data.length)).length by rw [hlen]; omega) (by omega)
        (show b.off + n < fuel + (Block.resize 0 b.data (2 * b.data.length)).length by rw [hlen]; omega)
      exact ⟨data, hdata, hle, htake.trans hkept⟩
    · exact ⟨b.data, rfl, by omega, rfl⟩

/-- Bytes are put after those that are there, and there is room for another one. -/
theorem append_eq (hb : b.Room) (s : List UInt8) : ∃ b', b.append s = pure b' ∧ b'.Room ∧ b'.text = b.text ++ s := by
  have hfuel : b.off + (s.length + 1) < b.off + s.length + 2 + b.data.length := by omega
  obtain ⟨data, hreserve, hle, htake⟩ := reserve_eq hb (Nat.succ_pos _) hfuel
  refine ⟨⟨data.take b.off ++ (s ++ data.drop (b.off + s.length)), b.off + s.length⟩, ?_, ?_, ?_⟩
  · rw [append, hreserve, pure_bind, put, if_pos (show b.off + s.length ≤ data.length by omega)]
    rfl
  · simp only [Room, List.length_append, List.length_take, List.length_drop]
    omega
  · rw [text, ← htake, ← List.append_assoc]
    exact List.take_left' (by rw [List.length_append, List.length_take, Nat.min_eq_left (by omega)])

theorem finish_eq (hb : b.Room) : ∃ r, b.finish = pure (b.text ++ 0 :: r) := by
  have hroom : b.off < b.data.length := hb
  refine ⟨b.data.drop (b.off + 1), ?_⟩
  rw [finish, Block.store_eq hroom, text, List.set_eq_take_append_cons_drop, if_pos hroom]

end Buffer
