import Tmux.Library.Block

/-!
# Texts in memory

A *text* is a list of bytes other than the null one (`Text`). In memory it stands where its bytes do, with
a null byte after them: `textAt` is the text at an address, `strlen` its length, which faults if no null
byte follows in the block.

`put` stores bytes one after the other, and `snprint` stores a text and a null byte into a number of
bytes, cutting the text if it does not fit there, as `snprintf` and `strlcpy` do; its value is the length
of the whole text.
-/

namespace CString

open Exec

/-- A list of bytes without a null byte in it. -/
abbrev Text := {s : List UInt8 // 0 ∉ s}

variable {m p s t r : List UInt8} {i n : ℕ}

/-- The bytes up to the first null one. -/
def beforeNull (m : List UInt8) : List UInt8 := m.takeWhile (· ≠ 0)

theorem zero_notMem_beforeNull (m : List UInt8) : 0 ∉ beforeNull m := fun h => by
  simpa using List.all_eq_true.1 List.all_takeWhile 0 h

/-- The text at an address. -/
def textAt (m : List UInt8) (i : ℕ) : Text := ⟨beforeNull (m.drop i), zero_notMem_beforeNull _⟩

/-- The length of the text at an address. -/
def strlen (m : List UInt8) (i : ℕ) : Exec ℕ :=
  if 0 ∈ m.drop i then pure (textAt m i).1.length else .fault .overread

/-- The place, counted from an address, where a byte other than the null one is in the text there, if it
    is. -/
def strchr (m : List UInt8) (i : ℕ) (c : UInt8) : Exec (Option ℕ) :=
  if 0 ∈ m.drop i then pure ((textAt m i).1.idxOf? c)
  else
    match (m.drop i).idxOf? c with
    | none => .fault .overread
    | some n => pure (some n)

/-- Store bytes from an address on. -/
def put (m : List UInt8) (i : ℕ) (s : List UInt8) : Exec (List UInt8) :=
  if i + s.length ≤ m.length then pure (m.take i ++ (s ++ m.drop (i + s.length))) else .fault .overread

/-- Store as much of a text as fits into `n` bytes at an address, and a null byte after it. -/
def snprint (m : List UInt8) (i n : ℕ) (s : List UInt8) : Exec (List UInt8 × ℕ) :=
  if n = 0 then pure (m, s.length)
  else do
    let m ← put m i (s.take (n - 1) ++ [0])
    pure (m, s.length)

/-- The bytes before the first null byte are all of them where a null byte comes next. -/
theorem beforeNull_append (hs : 0 ∉ s) (r : List UInt8) : beforeNull (s ++ 0 :: r) = s := by
  rw [beforeNull, List.takeWhile_append_of_pos, List.takeWhile_cons_of_neg (by decide), List.append_nil]
  intro c hc
  exact decide_eq_true fun h => hs (h ▸ hc)

/-- A null byte is found after a text without one. -/
theorem exists_eq_beforeNull_append (h : 0 ∈ m) : ∃ r, m = beforeNull m ++ 0 :: r := by
  obtain ⟨s, r, rfl, hs⟩ := List.eq_append_cons_of_mem h
  exact ⟨r, by rw [beforeNull_append hs]⟩

theorem textAt_append (hp : p.length = i) (t : Text) (r : List UInt8) : textAt (p ++ (t.1 ++ 0 :: r)) i = t := by
  apply Subtype.ext
  show beforeNull (List.drop i _) = t.1
  rw [List.drop_left' hp, beforeNull_append t.2]

theorem strlen_append (hp : p.length = i) (t : Text) (r : List UInt8) :
    strlen (p ++ (t.1 ++ 0 :: r)) i = pure t.1.length := by
  rw [strlen, textAt_append hp, List.drop_left' hp, if_pos (List.mem_append_right _ List.mem_cons_self)]

theorem strchr_append (hp : p.length = i) (t : Text) (c : UInt8) (r : List UInt8) :
    strchr (p ++ (t.1 ++ 0 :: r)) i c = pure (t.1.idxOf? c) := by
  rw [strchr, textAt_append hp, List.drop_left' hp, if_pos (List.mem_append_right _ List.mem_cons_self)]

/-- Bytes are stored in the place of as many others. -/
theorem put_append (hp : p.length = i) (hst : s.length = t.length) (r : List UInt8) :
    put (p ++ (t ++ r)) i s = pure (p ++ (s ++ r)) := by
  subst hp
  rw [put, if_pos, List.take_left, ← List.drop_drop, List.drop_left, hst, List.drop_left]
  simp only [List.length_append]
  omega

variable {q : List UInt8}

theorem store_append (hp : p.length = i) (a b : UInt8) (q : List UInt8) :
    Block.store (p ++ a :: q) i b = pure (p ++ b :: q) := by
  subst hp
  rw [Block.store_eq (by rw [List.length_append, List.length_cons]; omega), List.set_append_right _ _ (Nat.le_refl _),
    Nat.sub_self, List.set_cons_zero]

/-- A text that fits into the rest of a block is stored as a whole. -/
theorem snprint_of_lt (hp : p.length = i) (hq : q.length = n) (hs : s.length < n) :
    snprint (p ++ q) i n s = pure (p ++ (s ++ 0 :: q.drop (s.length + 1)), s.length) := by
  have hput := put_append (s := s ++ [0]) (t := q.take (s.length + 1)) hp
    (by rw [List.length_append, List.length_take, List.length_singleton]; omega) (q.drop (s.length + 1))
  rw [List.take_append_drop, List.append_assoc, List.singleton_append] at hput
  rw [snprint, if_neg (by omega), List.take_of_length_le (by omega), hput, pure_bind]

/-- What is stored of a text that does not fit into `n` bytes. -/
def cut (n : ℕ) (s : List UInt8) : List UInt8 := if n = 0 then [] else s.take (n - 1) ++ [0]

theorem length_cut (hs : n ≤ s.length) : (cut n s).length = n := by
  unfold cut
  split_ifs with h0
  · exact h0.symm
  · rw [List.length_append, List.length_take, List.length_singleton]
    omega

/-- A text that does not fit fills the rest of a block. -/
theorem snprint_of_le (hp : p.length = i) (hq : q.length = n) (hs : n ≤ s.length) :
    snprint (p ++ q) i n s = pure (p ++ cut n s, s.length) := by
  unfold snprint cut
  split_ifs with h0
  · rw [List.length_eq_zero_iff.1 (hq.trans h0)]
  · have hput := put_append (s := s.take (n - 1) ++ [0]) (t := q) hp
      (by rw [List.length_append, List.length_take, List.length_singleton]; omega) []
    rw [List.append_nil, List.append_nil] at hput
    rw [hput, pure_bind]

/-- Storing keeps the size of the block, and what is before the address. -/
theorem meets_put {w : Allowed} (hw : w.faults .overread) (m : List UInt8) (i : ℕ) (s : List UInt8) :
    Meets w (fun m' => m'.length = m.length) (put m i s) := by
  unfold put
  split_ifs with h
  · refine .pure ?_
    simp only [List.length_append, List.length_take, List.length_drop]
    omega
  · exact hw

theorem meets_snprint {w : Allowed} (hw : w.faults .overread) (m : List UInt8) (i n : ℕ) (s : List UInt8) :
    Meets w (fun a => a.1.length = m.length ∧ a.2 = s.length) (snprint m i n s) := by
  unfold snprint
  split_ifs
  · exact .pure ⟨rfl, rfl⟩
  · exact (meets_put hw m i _).bind fun m' hm' => .pure ⟨hm', rfl⟩

end CString
