import Mathlib.Tactic.Common
import Mathlib.Data.Nat.Notation

/-!
# Splicing a row of entries

A row of entries is seen as the function giving the entry at an index. Entries are inserted
(`Splice.Inserted`) or deleted (`Splice.Deleted`) at a place, those from there up to an end
moving to make room or to fill the gap.

Both are done by moving a group of entries, which leaves fresh ones where it was
(`Splice.move`), and by filling others with fresh ones (`Splice.fill`): deleting and
inserting need both if more entries come or go than are left after them
(`inserted_move_iff`).
-/

namespace Splice

universe u

variable {α : Type u} {Fresh : α → Prop} {a : α} {old new : ℕ → α} {p n e i : ℕ}

/-- Fresh entries are inserted at `p`, `n` of them: the others move towards the end `e`, and the
    last ones are lost. -/
structure Inserted (Fresh : α → Prop) (p n e : ℕ) (old new : ℕ → α) : Prop where
  before : ∀ i < p, new i = old i
  fresh : ∀ i, p ≤ i → i < p + n → Fresh (new i)
  moved : ∀ i, p + n ≤ i → i < e → new i = old (i - n)

/-- The `n` entries from `p` on are deleted: those after them, up to the end `e`, move to their
    place, and fresh ones come last. -/
structure Deleted (Fresh : α → Prop) (p n e : ℕ) (old new : ℕ → α) : Prop where
  before : ∀ i < p, new i = old i
  moved : ∀ i, p ≤ i → i + n < e → new i = old (i + n)
  fresh : ∀ i, p ≤ i → e ≤ i + n → i < e → Fresh (new i)

/-- Inserting or deleting entries. -/
inductive Edit
  | insert
  | delete
  deriving DecidableEq, Repr

/-- What inserting or deleting `n` entries at `p` makes of a row of entries. -/
def Edit.Done (Fresh : α → Prop) (p n e : ℕ) (old new : ℕ → α) : Edit → Prop
  | .insert => Inserted Fresh p n e old new
  | .delete => Deleted Fresh p n e old new

/-- Move a group of `n` entries from `src` to `dst`, leaving fresh ones. -/
def move (a : α) (dst src n : ℕ) (old : ℕ → α) (i : ℕ) : α :=
  if dst ≤ i ∧ i < dst + n then old (src + (i - dst))
  else if src ≤ i ∧ i < src + n then a else old i

/-- Fill the entries from `lo` on up to `hi` with fresh ones. -/
def fill (a : α) (lo hi : ℕ) (old : ℕ → α) (i : ℕ) : α := if lo ≤ i ∧ i < hi then a else old i

theorem move_of_lt {dst src : ℕ} (hdst : i < dst) (hsrc : i < src) : move a dst src n old i = old i := by
  rw [move, if_neg (by omega), if_neg (by omega)]

theorem move_of_le {dst src : ℕ} (hdst : dst + n ≤ i) (hsrc : src + n ≤ i) :
    move a dst src n old i = old i := by
  rw [move, if_neg (by omega), if_neg (by omega)]

/-- Only the entries before the end count. -/
theorem Deleted.congr {new' : ℕ → α} (h : Deleted Fresh p n e old new) (heq : ∀ i < e, new' i = new i)
    (hp : p ≤ e) : Deleted Fresh p n e old new' :=
  ⟨fun i hi => (heq i (by omega)).trans (h.before i hi), fun i hi hin => (heq i (by omega)).trans (h.moved i hi hin),
    fun i hi hin hie => heq i hie ▸ h.fresh i hi hin hie⟩

/-- Nothing is filled up to an end that is not after the start. -/
theorem fill_of_le {lo hi : ℕ} (h : hi ≤ lo) : fill a lo hi old = old := by
  funext i
  rw [fill, if_neg (by omega)]

/-- Moving the entries makes room for new ones if there are no more of them than are moved, or if
    those left alone are fresh. -/
theorem inserted_move_iff (ha : Fresh a) (hn : p + n ≤ e) :
    Inserted Fresh p n e old (move a (p + n) p (e - p - n) old) ↔
      ∀ i, e ≤ i + n → i < p + n → Fresh (old i) := by
  constructor
  · intro h i hi hin
    have hfresh := h.fresh i (by omega) hin
    rwa [move, if_neg (by omega), if_neg (by omega)] at hfresh
  · intro hfresh
    refine ⟨fun i hi => ?_, fun i hi hin => ?_, fun i hi hie => ?_⟩
    · exact move_of_lt (by omega) hi
    · rw [move, if_neg (by omega)]
      split_ifs with hmoved
      · exact ha
      · exact hfresh i (by omega) hin
    · rw [move, if_pos (by omega)]
      congr 1
      omega

/-- Filling the entries left alone as well makes room for new ones. -/
theorem inserted_fill (ha : Fresh a) (hn : p + n ≤ e) :
    Inserted Fresh p n e old (fill a (e - n) (p + n) (move a (p + n) p (e - p - n) old)) := by
  refine ⟨fun i hi => ?_, fun i hi hin => ?_, fun i hi hie => ?_⟩
  · rw [fill, if_neg (by omega), move_of_lt (by omega) hi]
  · rw [fill]
    split_ifs with hfill
    · exact ha
    · rw [move, if_neg (by omega), if_pos (by omega)]
      exact ha
  · rw [fill, if_neg (by omega), move, if_pos (by omega)]
    congr 1
    omega

/-- Moving the entries after a gap to it, and filling those left alone, closes it. -/
theorem deleted_fill (ha : Fresh a) (hn : p + n ≤ e) :
    Deleted Fresh p n e old (fill a (e - n) (p + n) (move a p (p + n) (e - p - n) old)) := by
  refine ⟨fun i hi => ?_, fun i hi hin => ?_, fun i hi hin hie => ?_⟩
  · rw [fill, if_neg (by omega), move_of_lt hi (by omega)]
  · rw [fill, if_neg (by omega), move, if_pos (by omega)]
    congr 1
    omega
  · rw [fill]
    split_ifs with hfill
    · exact ha
    · rw [move, if_neg (by omega), if_pos (by omega)]
      exact ha

end Splice
