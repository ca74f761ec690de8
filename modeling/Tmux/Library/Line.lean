import Mathlib.Data.List.DropRight
import Tmux.Library.CString

/-!
# Lines with a cursor

A line that is edited is the text before its cursor and the text after it (`Line`). In memory it stands at
the start of a block with a null byte after it, and the cursor is an index into it (`Held`). A block holds
some line with its cursor at an index exactly if the index is no further than the text there is long
(`exists_held_iff`).

Bytes are moved down over others (`move_down`) when a part of a line is removed, and up (`move_up`) when
there is to be room for another part. So the part of the text before the cursor that is after a given
beginning of it is removed (`Held.keepBefore`), the text after the cursor is cut off (`Held.truncate`), and
a block grows with the line that it holds (`Held.grow`).
-/

namespace CString

open Exec

/-- A text some of whose bytes are those of another one. -/
def Text.part (t : Text) (s : List UInt8) (h : s ⊆ t.1) : Text := ⟨s, fun h0 => t.2 (h h0)⟩

instance : Append Text := ⟨fun s t => ⟨s.1 ++ t.1, fun h => (List.mem_append.1 h).elim s.2 t.2⟩⟩

instance : EmptyCollection Text := ⟨⟨[], List.not_mem_nil⟩⟩

instance : Inhabited Text := ⟨∅⟩

@[simp] theorem Text.val_append (s t : Text) : (s ++ t).1 = s.1 ++ t.1 := rfl

@[simp] theorem Text.val_empty : (∅ : Text).1 = [] := rfl

/-- A line: the texts before and after its cursor. -/
structure Line where
  before : Text
  after : Text
  deriving DecidableEq

namespace Line

variable {l : Line} {m : List UInt8} {i j : ℕ}

def text (l : Line) : Text := l.before ++ l.after

/-- The cursor, as an index into the text. -/
def index (l : Line) : ℕ := l.before.1.length

/-- The line with its cursor elsewhere. -/
def moveTo (l : Line) (j : ℕ) : Line :=
  ⟨l.text.part (l.text.1.take j) (List.take_subset _ _), l.text.part (l.text.1.drop j) (List.drop_subset _ _)⟩

/-- The line with its cursor at the end of a text. -/
def atEnd (t : Text) : Line := ⟨t, ∅⟩

/-- The line with a text put in before its cursor. -/
def insert (l : Line) (s : Text) : Line := { l with before := l.before ++ s }

/-- The line with only the beginning of the text before its cursor. -/
def keepBefore (l : Line) (s : List UInt8) (h : s ⊆ l.before.1) : Line := { l with before := l.before.part s h }

/-- The line with only the rest of the text after its cursor. -/
def keepAfter (l : Line) (s : List UInt8) (h : s ⊆ l.after.1) : Line := { l with after := l.after.part s h }

/-- A block holds the line at its start, and the index is its cursor. -/
def Held (l : Line) (m : List UInt8) (i : ℕ) : Prop :=
  i = l.before.1.length ∧ ∃ r, m = l.before.1 ++ (l.after.1 ++ 0 :: r)

theorem length_text : l.text.1.length = l.before.1.length + l.after.1.length := List.length_append

theorem held_atEnd (t : Text) (r : List UInt8) : (atEnd t).Held (t.1 ++ 0 :: r) t.1.length := ⟨rfl, r, rfl⟩

theorem held_of {b a r : List UInt8} (hb : l.before.1 = b) (ha : l.after.1 = a) (hi : i = b.length)
    (hm : m = b ++ (a ++ 0 :: r)) : l.Held m i :=
  ⟨hb ▸ hi, r, by rw [hm, hb, ha]⟩

theorem Held.eq_text (h : l.Held m i) : ∃ r, m = l.text.1 ++ 0 :: r := by
  obtain ⟨-, r, rfl⟩ := h
  exact ⟨r, (List.append_assoc ..).symm⟩

theorem Held.strlen (h : l.Held m i) : strlen m 0 = pure (l.before.1.length + l.after.1.length) := by
  obtain ⟨r, rfl⟩ := h.eq_text
  rw [← length_text]
  exact strlen_append (p := []) rfl l.text r

theorem Held.textAt (h : l.Held m i) : textAt m 0 = l.text := by
  obtain ⟨r, rfl⟩ := h.eq_text
  exact textAt_append (p := []) rfl l.text r

theorem Held.lt_length (h : l.Held m i) : l.before.1.length + l.after.1.length < m.length := by
  obtain ⟨-, r, rfl⟩ := h
  simp only [List.length_append, List.length_cons]
  omega

theorem Held.moveTo (h : l.Held m i) (hj : j ≤ l.before.1.length + l.after.1.length) : (l.moveTo j).Held m j := by
  obtain ⟨r, rfl⟩ := h.eq_text
  refine ⟨?_, r, ?_⟩
  · exact (List.length_take_of_le (hj.trans_eq length_text.symm)).symm
  · show l.text.1 ++ _ = l.text.1.take j ++ (l.text.1.drop j ++ _)
    rw [← List.append_assoc, List.take_append_drop]

theorem exists_held_iff : (∃ l : Line, l.Held m i) ↔ ∃ n, CString.strlen m 0 = pure n ∧ i ≤ n := by
  constructor
  · rintro ⟨l, h⟩
    exact ⟨_, h.strlen, h.1.le.trans (Nat.le_add_right _ _)⟩
  · rintro ⟨n, hn, hi⟩
    unfold CString.strlen at hn
    split_ifs at hn with h0
    obtain rfl := pure_injective hn
    obtain ⟨r, hr⟩ := exists_eq_beforeNull_append h0
    have hheld : (atEnd (CString.textAt m 0)).Held m (CString.textAt m 0).1.length := by
      have := held_atEnd (CString.textAt m 0) r
      rwa [show (CString.textAt m 0).1 ++ 0 :: r = m from hr.symm] at this
    exact ⟨_, hheld.moveTo (hi.trans (Nat.le_add_right _ _))⟩

end Line

/-! ## Moving bytes -/

variable {p x y r : List UInt8} {dst src n k : ℕ}

theorem load_append (hp : p.length = n) (c : UInt8) (r : List UInt8) : Block.load (p ++ c :: r) n = pure c := by
  subst hp
  exact Block.load_eq (by rw [List.getElem?_append_right (Nat.le_refl _), Nat.sub_self, List.getElem?_cons_zero])

/-- Bytes are moved down over others before them. -/
theorem move_down (hp : p.length = dst) (hx : p.length + x.length = src) (hy : y.length = n) (r : List UInt8) :
    ∃ r', Block.move (p ++ (x ++ (y ++ r))) dst src n = pure (p ++ (y ++ r')) ∧ r'.length = x.length + r.length := by
  subst hp hx hy
  refine ⟨(x ++ (y ++ r)).drop y.length, ?_, ?_⟩
  · rw [Block.move, if_pos, List.take_left, ← List.drop_drop, List.drop_left, List.drop_left, List.take_left,
      ← List.drop_drop, List.drop_left]
    simp only [List.length_append]
    omega
  · simp only [List.length_drop, List.length_append]
    omega

/-- Bytes are moved up, which leaves room for others before them. -/
theorem move_up (hp : p.length = src) (hk : src + k = dst) (hy : y.length = n) (hr : k ≤ r.length) :
    ∃ g r', Block.move (p ++ (y ++ r)) dst src n = pure (p ++ (g ++ (y ++ r'))) ∧ g.length = k := by
  subst hp hk hy
  refine ⟨(y ++ r).take k, (y ++ r).drop (k + y.length), ?_, ?_⟩
  · rw [Block.move, if_pos, List.drop_left, List.take_left, List.take_append, List.take_of_length_le (by omega),
      Nat.add_sub_cancel_left, List.append_assoc, Nat.add_assoc, ← List.drop_drop, List.drop_left]
    simp only [List.length_append]
    omega
  · rw [List.length_take, List.length_append, Nat.min_eq_left (by omega)]

theorem resize_append (fresh : UInt8) (h : p.length ≤ n) (r : List UInt8) :
    Block.resize fresh (p ++ r) n = p ++ Block.resize fresh r (n - p.length) := by
  rw [Block.resize, Block.resize, List.take_append, List.take_of_length_le h, List.append_assoc, List.length_append,
    Nat.sub_sub]

namespace Line

variable {l : Line} {m s : List UInt8} {i : ℕ}

/-- A block that is made larger holds the same line. -/
theorem Held.grow (h : l.Held m i) (fresh : UInt8) (hn : l.before.1.length + l.after.1.length < n) :
    l.Held (Block.resize fresh m n) i := by
  obtain ⟨hi, r, rfl⟩ := h
  have hlen : (l.before.1 ++ (l.after.1 ++ [0])).length ≤ n := by
    simp only [List.length_append, List.length_singleton]
    omega
  have hresize := resize_append fresh hlen r
  simp only [List.append_assoc, List.singleton_append] at hresize
  exact ⟨hi, _, hresize⟩

/-- The text after a beginning of the one before the cursor is removed. -/
theorem Held.keepBefore (h : l.Held m i) (hs : s <+: l.before.1) :
    ∃ r, Block.move m s.length i (l.after.1.length + 1) = pure (s ++ (l.after.1 ++ 0 :: r)) ∧
      i - s.length ≤ r.length := by
  obtain ⟨rfl, r, rfl⟩ := h
  obtain ⟨x, hx⟩ := hs
  have hi : s.length + x.length = l.before.1.length := by rw [← hx, List.length_append]
  have hn : (l.after.1 ++ [0]).length = l.after.1.length + 1 := List.length_append
  obtain ⟨r', hmove, hr'⟩ := move_down rfl hi hn r
  rw [List.append_assoc, List.append_assoc, List.singleton_append, List.singleton_append, ← List.append_assoc s x,
    hx] at hmove
  exact ⟨r', hmove, by omega⟩

/-- The text after the cursor is cut off. -/
theorem Held.truncate (h : l.Held m i) :
    ∃ m', Block.store m i 0 = pure m' ∧ (l.keepAfter [] (List.nil_subset _)).Held m' i := by
  obtain ⟨rfl, r, rfl⟩ := h
  obtain ⟨c, q, hq⟩ := List.exists_cons_of_ne_nil (List.append_ne_nil_of_right_ne_nil l.after.1 (List.cons_ne_nil 0 r))
  rw [hq]
  exact ⟨_, store_append rfl c 0 q, rfl, q, rfl⟩

end Line

end CString
