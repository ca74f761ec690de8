import Tmux.Status.PromptWords

/-!
# Editing a line

What the commands of a prompt do to the line that its buffer holds (`lineEdited`), and that the buffer holds
the line that it leads to afterwards (`promptEdit_edits`), if the command stays within the buffer
(`Prompt.Within`). Deleting a character moves one byte more than there are up to the end of the text, and
completing a word at a blank looks for another byte before it.
-/

namespace Tmux

open Exec (usub usub_of_le)
open CString Line

variable {ctx : PromptContext} {history : List Text} {p : Prompt} {l : Line} {size : ℕ} {x : Exec Prompt}

/-! ## Lines -/

theorem prefix_beforeWord (sep : UInt8 → Bool) (s : List UInt8) : beforeWord sep s <+: s :=
  (List.rdropWhile_prefix _ _).trans (List.rdropWhile_prefix _ _)

/-- What is pasted of some bytes: those up to the first control character. -/
def pasted (data : List UInt8) : Text :=
  ⟨data.takeWhile fun ch => !(ch < 32 || ch = 127), fun h => absurd (List.mem_takeWhile_imp h) (by decide)⟩

/-- The word around the cursor, and the line with another text in its place. -/
def wordAround (l : Line) : Text :=
  l.before.part (l.before.1.rtakeWhile fun c => !isBlank c) (List.rtakeWhile_suffix _ _).subset ++
    l.after.part (l.after.1.takeWhile fun c => !isBlank c) (List.takeWhile_prefix _).subset

def replaceAround (l : Line) (s : Text) : Line where
  before := l.before.part (l.before.1.rdropWhile fun c => !isBlank c) (List.rdropWhile_prefix _ _).subset ++ s
  after := l.after.part (l.after.1.dropWhile fun c => !isBlank c) (List.dropWhile_suffix _).subset

/-- The line after the word at the cursor is completed, unless there is a blank, or the word is too long. -/
def lineCompleted (names : List Text) (l : Line) : Line :=
  if (l.before.1.getLast?.or l.after.1.head?) = some 32 ∨ (wordAround l).1.length > 63 then l
  else ((statusPromptComplete names (wordAround l)).map (replaceAround l)).getD l

/-- The bytes before and after the cursor are exchanged, or the last two at the end, and the cursor is after
    them. -/
def transposed (before after : List UInt8) : List UInt8 × List UInt8 :=
  match before.reverse, after with
  | c :: b, d :: a => (b.reverse ++ [d, c], a)
  | d :: c :: b, [] => (b.reverse ++ [d, c], [])
  | _, _ => (before, after)

theorem transposed_cons (b a : List UInt8) (c d : UInt8) : transposed (b ++ [c]) (d :: a) = (b ++ [d, c], a) := by
  simp [transposed]

theorem transposed_nil (b : List UInt8) (c d : UInt8) : transposed (b ++ [c, d]) [] = (b ++ [d, c], []) := by
  simp [transposed]

theorem transposed_perm (b a : List UInt8) : ((transposed b a).1 ++ (transposed b a).2).Perm (b ++ a) := by
  fun_cases transposed b a with
  | case1 c b' d a' h =>
    have hb : b = b'.reverse ++ [c] := by rw [← List.reverse_reverse b, h, List.reverse_cons]
    rw [hb, List.append_assoc, List.append_assoc]
    exact (List.Perm.swap c d a').append_left _
  | case2 d c b' h =>
    have hb : b = b'.reverse ++ [c, d] := by
      rw [← List.reverse_reverse b, h, List.reverse_cons, List.reverse_cons, List.append_assoc, List.singleton_append]
    rw [hb, List.append_nil, List.append_nil]
    exact (List.Perm.swap c d []).append_left _
  | case3 => exact List.Perm.refl _

def lineTransposed (l : Line) : Line where
  before := l.text.part (transposed l.before.1 l.after.1).1 fun _ h =>
    (transposed_perm _ _).subset (List.mem_append_left _ h)
  after := l.text.part (transposed l.before.1 l.after.1).2 fun _ h =>
    (transposed_perm _ _).subset (List.mem_append_right _ h)

/-- What a command does to a line, with a place in the history. -/
def lineEdited (ctx : PromptContext) (history : List Text) (hindex : ℕ) (l : Line) : EditCmd → Line
  | .cursorLeft => l.moveTo (l.index - 1)
  | .switchModeAppend | .cursorRight => l.moveTo (min (l.index + 1) l.text.1.length)
  | .switchModeBeginLine | .startOfLine => l.moveTo 0
  | .switchModeAppendLine | .endOfLine => l.moveTo l.text.1.length
  | .complete => lineCompleted ctx.names l
  | .backspace => l.keepBefore l.before.1.dropLast (List.dropLast_subset _)
  | .delete => l.keepAfter l.after.1.tail (List.tail_suffix _).subset
  | .deleteLine => atEnd ∅
  | .deleteToEndOfLine => l.keepAfter [] (List.nil_subset _)
  | .deleteWord => l.keepBefore (beforeWord (isSeparator ctx.wordSeparators) l.before.1) (prefix_beforeWord _ _).subset
  | .nextSpace => l.moveTo (l.text.1.length - (fromNextWord (isSeparator blank) l.after.1).length)
  | .nextWord => l.moveTo (l.text.1.length - (fromNextWord (isSeparator ctx.wordSeparators) l.after.1).length)
  | .nextSpaceEnd => l.moveTo (l.text.1.length - (fromWordEnd (isSeparator blank) l.after.1).length)
  | .nextWordEnd => l.moveTo (l.text.1.length - (fromWordEnd (isSeparator ctx.wordSeparators) l.after.1).length)
  | .previousSpace => l.moveTo (beforeWord (isSeparator blank) l.before.1).length
  | .previousWord => l.moveTo (beforeWord (isSeparator ctx.wordSeparators) l.before.1).length
  | .historyUp => (history.reverse[hindex]?.map atEnd).getD l
  | .historyDown => atEnd (if hindex ≤ 1 then ∅ else history.reverse[hindex - 2]?.getD ∅)
  | .paste => (ctx.paste.map fun data => l.insert (pasted data)).getD l
  | .transposeChars => lineTransposed l
  | .switchMode | .enter | .cancel | .other | .none => l

/-! ## The edits of a buffer -/

/-- A computation changes the buffer of a prompt and its cursor only, and the buffer holds a line afterwards. -/
def EditsTo (x : Exec Prompt) (p : Prompt) (l : Line) : Prop :=
  ∃ m i, x = pure { p with buffer := m, index := i } ∧ l.Held m i

theorem keepAfter_self {s : List UInt8} (h : s = l.after.1) : l.keepAfter s (h ▸ List.Subset.refl _) = l := by
  subst h
  rfl

theorem promptBackspace_edits (h : l.Held p.buffer p.index) (hsize : l.before.1.length + l.after.1.length = size) :
    EditsTo (promptBackspace p size) p (l.keepBefore l.before.1.dropLast (List.dropLast_subset _)) := by
  obtain ⟨hi, r, hm⟩ := id h
  obtain ⟨⟨b, hb⟩, a, ha⟩ := l
  dsimp only at hi hm hsize ⊢
  rcases List.eq_nil_or_concat' b with rfl | ⟨b, c, rfl⟩
  · rw [promptBackspace, if_neg (show ¬p.index ≠ 0 from not_not.2 hi)]
    exact ⟨_, _, rfl, h⟩
  rw [List.length_append, List.length_singleton] at hi hsize
  rw [promptBackspace, if_pos (by omega)]
  split_ifs with hend
  · obtain rfl : a = [] := List.eq_nil_of_length_eq_zero (by omega)
    rw [hm, List.append_assoc, List.singleton_append, store_append (by omega), pure_bind]
    exact ⟨_, _, rfl, held_of (r := 0 :: r) List.dropLast_concat rfl (by omega) rfl⟩
  · obtain ⟨r', hmove, -⟩ := h.keepBefore (List.prefix_append b [c])
    have hn : size + 1 - p.index = a.length + 1 := by omega
    have hdst : p.index - 1 = b.length := by omega
    rw [usub_of_le (by omega), pure_bind, hn, hdst, hmove, pure_bind]
    exact ⟨_, _, rfl, held_of List.dropLast_concat rfl rfl rfl⟩

/-- Deleting a character is one of the line if the buffer has another byte after the null one, or the cursor is at
    the end. -/
theorem promptDelete_edits (h : l.Held p.buffer p.index) (hsize : l.before.1.length + l.after.1.length = size)
    (hroom : p.index = size ∨ size + 1 < p.buffer.length) :
    EditsTo (promptDelete p size) p (l.keepAfter l.after.1.tail (List.tail_suffix _).subset) := by
  obtain ⟨hi, r, hm⟩ := id h
  obtain ⟨⟨b, hb⟩, a, ha⟩ := l
  dsimp only at hi hm hsize ⊢
  cases a with
  | nil =>
    rw [promptDelete, if_neg (show ¬p.index ≠ size from not_not.2 (hi.trans hsize))]
    exact ⟨_, _, rfl, h⟩
  | cons c a =>
    rw [List.length_cons] at hsize
    have hr : r ≠ [] := by
      rintro rfl
      rw [hm] at hroom
      simp only [List.length_append, List.length_cons, List.length_nil] at hroom
      omega
    obtain ⟨d, r, rfl⟩ := List.exists_cons_of_ne_nil hr
    have hn : size + 1 - p.index = (a ++ [0, d]).length := by
      simp only [List.length_append, List.length_cons, List.length_nil]
      omega
    obtain ⟨r', hmove, -⟩ := move_down hi.symm (show b.length + [c].length = p.index + 1 by rw [hi]; rfl) hn.symm r
    have hm' : p.buffer = b ++ ([c] ++ (a ++ [0, d] ++ r)) := by rw [hm]; simp
    rw [promptDelete, if_pos (by omega), usub_of_le (by omega), pure_bind, hm', hmove, pure_bind]
    exact ⟨_, _, rfl, held_of (r := d :: r') rfl rfl hi (by rw [List.append_assoc]; rfl)⟩

/-- Deleting a character reads a byte after the buffer if that ends with the null byte. -/
theorem promptDelete_fault (h : p.index < size) (hlen : p.buffer.length = size + 1) :
    promptDelete p size = .fault .overread := by
  rw [promptDelete, if_pos (Nat.ne_of_lt h), usub_of_le (by omega), pure_bind, Block.move, if_neg (by omega)]
  rfl

theorem promptDeleteLine_edits (h : l.Held p.buffer p.index) : EditsTo (promptDeleteLine p) p (atEnd ∅) := by
  obtain ⟨c, q, hq⟩ := List.exists_cons_of_length_pos (Nat.zero_lt_of_lt h.lt_length)
  have hstore : Block.store p.buffer 0 0 = pure (0 :: q) := by
    rw [hq]
    exact store_append (p := []) rfl c 0 q
  rw [promptDeleteLine, hstore, pure_bind]
  exact ⟨_, _, rfl, held_atEnd ∅ q⟩

theorem promptDeleteToEndOfLine_edits (h : l.Held p.buffer p.index)
    (hsize : l.before.1.length + l.after.1.length = size) :
    EditsTo (promptDeleteToEndOfLine p size) p (l.keepAfter [] (List.nil_subset _)) := by
  unfold promptDeleteToEndOfLine
  split_ifs with hend
  · obtain ⟨m, hstore, hm⟩ := h.truncate
    rw [hstore, pure_bind]
    exact ⟨_, _, rfl, hm⟩
  · have hafter : l.after.1 = [] := List.eq_nil_of_length_eq_zero (by have := h.1; omega)
    rw [keepAfter_self hafter.symm]
    exact ⟨_, _, rfl, h⟩

theorem promptDeleteWord_edits (wsep : Text) (h : l.Held p.buffer p.index)
    (hsize : l.before.1.length + l.after.1.length = size) :
    EditsTo (promptDeleteWord wsep p size) p
      (l.keepBefore (beforeWord (isSeparator wsep) l.before.1) (prefix_beforeWord _ _).subset) := by
  obtain ⟨hi, r, hm⟩ := id h
  have hprefix := prefix_beforeWord (isSeparator wsep) l.before.1
  obtain ⟨r', hmove, hr'⟩ := h.keepBefore hprefix
  have hle := hprefix.length_le
  have hword : previousWord wsep p.buffer p.index = pure (beforeWord (isSeparator wsep) l.before.1).length := by
    rw [hm, hi]
    exact previousWord_eq wsep _ _
  have hn : size + 1 - p.index = l.after.1.length + 1 := by omega
  rw [promptDeleteWord, hword, pure_bind, usub_of_le (by omega), pure_bind, hn, hmove, pure_bind, usub_of_le (by omega),
    pure_bind, usub_of_le (by omega), pure_bind]
  -- The null byte that was moved is among the bytes that are filled, if there are any.
  generalize hk : p.index - (beforeWord (isSeparator wsep) l.before.1).length = k at hr'
  obtain ⟨q, hq⟩ : ∃ q, List.replicate k 0 ++ (0 :: r').drop k = 0 :: q := by
    cases k with
    | zero => exact ⟨r', rfl⟩
    | succ k => exact ⟨_, rfl⟩
  have hput := put_append (p := beforeWord (isSeparator wsep) l.before.1 ++ l.after.1) (s := List.replicate k 0)
    (t := (0 :: r').take k) (i := size - k) (by rw [List.length_append]; omega)
    (by rw [List.length_replicate, List.length_take_of_le (by rw [List.length_cons]; omega)]) ((0 :: r').drop k)
  rw [List.take_append_drop, hq, List.append_assoc, List.append_assoc] at hput
  rw [hput, pure_bind]
  exact ⟨_, _, rfl, held_of rfl rfl rfl rfl⟩

/-- Bytes are put in where there is room for them. -/
theorem promptInsert_eq (h : l.Held p.buffer p.index) (hsize : l.before.1.length + l.after.1.length = size)
    (s : List UInt8) (hroom : size + s.length < p.buffer.length) :
    ∃ r, promptInsert p size s =
      pure { p with buffer := l.before.1 ++ s ++ (l.after.1 ++ 0 :: r), index := p.index + s.length } := by
  obtain ⟨hi, r, hm⟩ := h
  have hlen : size + (r.length + 1) = p.buffer.length := by
    rw [hm, ← hsize]
    simp only [List.length_append, List.length_cons, Nat.add_assoc]
  unfold promptInsert
  split_ifs with hend
  · have hafter : l.after.1 = [] := List.eq_nil_of_length_eq_zero (by omega)
    have htake : s.length = ((0 :: r).take s.length).length := by
      rw [List.length_take_of_le (by rw [List.length_cons]; omega)]
    have hput := put_append hi.symm htake ((0 :: r).drop s.length)
    obtain ⟨d, q, hq⟩ := List.exists_cons_of_length_pos (l := (0 :: r).drop s.length) (by
      rw [List.length_drop, List.length_cons]
      omega)
    have hindex : (l.before.1 ++ s).length = p.index + s.length := by rw [List.length_append, hi]
    rw [List.take_append_drop, hq, ← List.append_assoc] at hput
    rw [hm, hafter, List.nil_append, hput, pure_bind, store_append hindex, pure_bind]
    exact ⟨q, rfl⟩
  · have hn : size + 1 - p.index = (l.after.1 ++ [0]).length := by
      rw [List.length_append, List.length_singleton]
      omega
    obtain ⟨g, r', hmove, hg⟩ := move_up hi.symm (Eq.refl (p.index + s.length)) hn.symm
      (show s.length ≤ r.length by omega)
    have hm' : p.buffer = l.before.1 ++ (l.after.1 ++ [0] ++ r) := by rw [hm]; simp
    rw [usub_of_le (by omega), pure_bind, hm', hmove, pure_bind, put_append hi.symm hg.symm, pure_bind]
    exact ⟨r', by simp⟩

/-- A text is put into the line. -/
theorem promptInsert_edits (h : l.Held p.buffer p.index) (hsize : l.before.1.length + l.after.1.length = size) (s : Text)
    (hroom : size + s.1.length < p.buffer.length) : EditsTo (promptInsert p size s.1) p (l.insert s) := by
  obtain ⟨r, hinsert⟩ := promptInsert_eq h hsize s.1 hroom
  rw [hinsert]
  have hindex : p.index + s.1.length = (l.before.1 ++ s.1).length := by rw [List.length_append, h.1]
  exact ⟨_, _, rfl, held_of (l := l.insert s) rfl rfl hindex rfl⟩

theorem promptPaste_edits (ctx : PromptContext) (h : l.Held p.buffer p.index)
    (hsize : l.before.1.length + l.after.1.length = size) :
    EditsTo (promptPaste ctx p size) p ((ctx.paste.map fun data => l.insert (pasted data)).getD l) := by
  unfold promptPaste
  cases ctx.paste with
  | none => exact ⟨_, _, rfl, h⟩
  | some data =>
    have hgrown := h.grow ctx.fresh (n := size + (pasted data).1.length + 1) (by omega)
    exact promptInsert_edits (p := { p with buffer := Block.resize ctx.fresh p.buffer (size + (pasted data).1.length + 1) })
      hgrown hsize (pasted data) (by rw [Block.length_resize]; exact Nat.lt_succ_self _)

theorem promptTransposeChars_eq {u q : List UInt8} {c d : UInt8} (hm : p.buffer = u ++ c :: d :: q)
    (hi : (if p.index < size then p.index + 1 else p.index) = u.length + 2) :
    promptTransposeChars p size = pure { p with buffer := u ++ d :: c :: q, index := u.length + 2 } := by
  have hlen : (u ++ [c]).length = u.length + 1 := List.length_append
  have hload : Block.load (u ++ c :: d :: q) (u.length + 1) = pure d := by
    simpa using load_append hlen d q
  have hstore : Block.store (u ++ d :: d :: q) (u.length + 1) c = pure (u ++ d :: c :: q) := by
    simpa using store_append (p := u ++ [d]) List.length_append d c q
  rw [promptTransposeChars, hi, if_pos (Nat.le_add_left 2 _), hm, Nat.add_sub_cancel, load_append rfl, pure_bind,
    Nat.add_succ_sub_one, hload, pure_bind, store_append rfl, pure_bind, hstore, pure_bind]

theorem promptTransposeChars_of_lt (hi : (if p.index < size then p.index + 1 else p.index) < 2) :
    promptTransposeChars p size = pure p := if_neg (Nat.not_le.2 hi)

theorem promptTransposeChars_edits (h : l.Held p.buffer p.index)
    (hsize : l.before.1.length + l.after.1.length = size) :
    EditsTo (promptTransposeChars p size) p (lineTransposed l) := by
  obtain ⟨hi, r, hm⟩ := id h
  obtain ⟨⟨b, hb⟩, a, ha⟩ := l
  dsimp only at hi hm hsize
  have hlen : ∀ b : List UInt8, ∀ c d : UInt8, b.length + 2 = (b ++ [d, c]).length := fun b c d => by
    rw [List.length_append]
    rfl
  cases a with
  | nil =>
    rw [List.length_nil] at hsize
    have hend : (if p.index < size then p.index + 1 else p.index) = b.length := by rw [if_neg (by omega), hi]
    rcases List.eq_nil_or_concat' b with rfl | ⟨b, d, rfl⟩
    · rw [promptTransposeChars_of_lt (by rw [hend]; decide)]
      exact ⟨_, _, rfl, h⟩
    rcases List.eq_nil_or_concat' b with rfl | ⟨b, c, rfl⟩
    · rw [promptTransposeChars_of_lt (by rw [hend]; exact Nat.one_lt_two)]
      exact ⟨_, _, rfl, h⟩
    have htransposed : transposed (b ++ [c] ++ [d]) [] = (b ++ [d, c], []) := by
      rw [List.append_assoc]
      exact transposed_nil b c d
    have hmem : p.buffer = b ++ c :: d :: 0 :: r := by rw [hm, List.append_assoc, List.append_assoc]; rfl
    rw [List.append_assoc] at hend
    rw [promptTransposeChars_eq hmem (hend.trans (hlen b d c).symm)]
    exact ⟨_, _, rfl, held_of (r := r) (congrArg Prod.fst htransposed) (congrArg Prod.snd htransposed) (hlen b c d)
      (List.append_assoc b [d, c] _).symm⟩
  | cons d a =>
    rw [List.length_cons] at hsize
    have hend : (if p.index < size then p.index + 1 else p.index) = b.length + 1 := by rw [if_pos (by omega), hi]
    rcases List.eq_nil_or_concat' b with rfl | ⟨b, c, rfl⟩
    · rw [promptTransposeChars_of_lt (by rw [hend]; decide)]
      exact ⟨_, _, rfl, h⟩
    have htransposed := transposed_cons b a c d
    have hmem : p.buffer = b ++ c :: d :: (a ++ 0 :: r) := by rw [hm, List.append_assoc]; rfl
    rw [List.length_append] at hend
    rw [promptTransposeChars_eq hmem hend]
    exact ⟨_, _, rfl, held_of (r := r) (congrArg Prod.fst htransposed) (congrArg Prod.snd htransposed) (hlen b c d)
      (List.append_assoc b [d, c] _).symm⟩

/-! ## History -/

/-- Indices of the history are counted from its last line. -/
theorem load_history {n : ℕ} (h : n < history.length) :
    ∃ line, Block.load history (history.length - (n + 1)) = pure line ∧ history.reverse[n]? = some line := by
  have hget := List.getElem?_reverse h
  rw [Nat.sub_sub, Nat.add_comm 1] at hget
  have hline := List.getElem?_eq_getElem (show history.length - (n + 1) < history.length by omega)
  exact ⟨_, Block.load_eq hline, hget.trans hline⟩

theorem statusPromptUpHistory_eq {hindex : ℕ} (h : hindex ≤ history.length) :
    statusPromptUpHistory history hindex = pure (history.reverse[hindex]?.map fun line => (line, hindex + 1)) := by
  unfold statusPromptUpHistory
  split_ifs with hend
  · rw [List.getElem?_eq_none (by rw [List.length_reverse]; omega)]
    rfl
  · have hlt : hindex < history.length := by omega
    obtain ⟨line, hload, hline⟩ := load_history hlt
    rw [usub_of_le (by omega), pure_bind, hload, pure_bind, hline]
    rfl

theorem statusPromptDownHistory_eq {hindex : ℕ} (h : hindex ≤ history.length) :
    statusPromptDownHistory history hindex =
      pure (if hindex ≤ 1 then ∅ else history.reverse[hindex - 2]?.getD ∅, hindex - 1) := by
  unfold statusPromptDownHistory
  match hindex with
  | 0 => rw [if_pos (.inr rfl), if_pos (Nat.zero_le 1)]
  | 1 => rw [if_neg (by omega), if_pos rfl, if_pos (Nat.le_refl 1)]
  | n + 2 =>
    have hlt : n < history.length := by omega
    obtain ⟨line, hload, hline⟩ := load_history hlt
    rw [if_neg (by omega), if_neg (by omega), usub_of_le (by omega), pure_bind, if_neg (by omega), Nat.add_sub_cancel,
      hline]
    exact (congrArg (· >>= _) hload).trans (pure_bind _ _)

theorem promptHistoryUp_edits (h : l.Held p.buffer p.index) (hh : p.hindex ≤ history.length) :
    ∃ n ≤ history.length, EditsTo (promptHistoryUp history p) { p with hindex := n }
      ((history.reverse[p.hindex]?.map atEnd).getD l) := by
  rw [promptHistoryUp, statusPromptUpHistory_eq hh, pure_bind]
  cases hline : history.reverse[p.hindex]? with
  | none => exact ⟨p.hindex, hh, _, _, rfl, h⟩
  | some line =>
    have hlt : p.hindex < history.reverse.length := (List.getElem?_eq_some_iff.1 hline).1
    exact ⟨p.hindex + 1, by rwa [List.length_reverse] at hlt, _, _, rfl, held_atEnd line []⟩

theorem promptHistoryDown_edits (hh : p.hindex ≤ history.length) :
    ∃ n ≤ history.length, EditsTo (promptHistoryDown history p) { p with hindex := n }
      (atEnd (if p.hindex ≤ 1 then ∅ else history.reverse[p.hindex - 2]?.getD ∅)) := by
  rw [promptHistoryDown, statusPromptDownHistory_eq hh, pure_bind]
  exact ⟨p.hindex - 1, (Nat.sub_le _ _).trans hh, _, _, rfl, held_atEnd _ []⟩

/-! ## Completion -/

/-- A text is put in the place of a part of the line. -/
theorem replaceWord_edits {b w a r : List UInt8} {first last : ℕ} {s : Text} (fresh : UInt8)
    (hm : p.buffer = b ++ (w ++ (a ++ 0 :: r))) (hfirst : first = b.length) (hlast : last = b.length + w.length)
    (hsize : size = b.length + w.length + a.length) (hb : l.before.1 = b ++ s.1) (ha : l.after.1 = a) :
    EditsTo (replaceWord fresh p size first last s) p l := by
  subst hfirst hlast hsize
  have hrest : (a ++ [0]).length = a.length + 1 := List.length_append
  obtain ⟨r', hdown, -⟩ := move_down rfl rfl hrest r
  have hfits : (b ++ (a ++ [0])).length ≤ b.length + a.length + s.1.length + 1 := by
    rw [List.length_append, hrest]
    omega
  have hresize := resize_append fresh hfits r'
  have hgap : b.length + a.length + s.1.length + 1 - (b ++ (a ++ [0])).length = s.1.length := by
    rw [List.length_append, hrest]
    omega
  obtain ⟨g, r'', hup, hg⟩ := move_up (r := Block.resize fresh r' s.1.length) (rfl : b.length = b.length)
    (Eq.refl (b.length + s.1.length)) hrest (Nat.le_of_eq (Block.length_resize ..).symm)
  have hm' : p.buffer = b ++ (w ++ (a ++ [0] ++ r)) := by rw [hm]; simp
  have hsize : b.length + w.length + a.length - (b.length + w.length - b.length) = b.length + a.length := by omega
  rw [hgap, List.append_assoc, List.append_assoc, ← List.append_assoc a] at hresize
  rw [replaceWord, usub_of_le (by omega), pure_bind, Nat.add_sub_cancel_left, hm', hdown, pure_bind,
    usub_of_le (by omega), pure_bind, hsize]
  dsimp only
  rw [hresize, List.append_assoc, hup, pure_bind, put_append rfl hg.symm, pure_bind]
  refine ⟨_, _, rfl, held_of (r := r'') hb ha List.length_append.symm ?_⟩
  simp

/-- The byte that a word is completed at, if there is one, and what is before and after it. -/
theorem exists_atCursor {b a : List UInt8} (h : b ++ a ≠ []) :
    ∃ u c v, u ++ c :: v = b ++ a ∧ (if b.length ≠ 0 then b.length - 1 else b.length) = u.length ∧
      b.getLast?.or a.head? = some c ∧ (b ++ a).take (max b.length 1) = u ++ [c] ∧
      ((b = u ++ [c] ∧ a = v) ∨ (b = [] ∧ u = [] ∧ a = c :: v)) := by
  rcases List.eq_nil_or_concat' b with rfl | ⟨u, c, rfl⟩
  · obtain ⟨c, v, rfl⟩ := List.exists_cons_of_ne_nil h
    exact ⟨[], c, v, rfl, rfl, rfl, rfl, .inr ⟨rfl, rfl, rfl⟩⟩
  · refine ⟨u, c, a, by simp, by simp, by simp, ?_, .inl ⟨rfl, rfl⟩⟩
    rw [List.length_append, List.length_singleton, Nat.max_eq_left (Nat.le_add_left 1 _)]
    exact List.take_left' List.length_append

theorem load_zero {s : List UInt8} (h0 : 0 ∉ s) (hne : s ≠ []) (q : List UInt8) :
    ∃ d, Block.load (s ++ q) 0 = pure d ∧ d ≠ 0 := by
  obtain ⟨d, s, rfl⟩ := List.exists_cons_of_ne_nil hne
  exact ⟨d, load_append (p := []) rfl d (s ++ q), fun h => h0 (h ▸ List.mem_cons_self)⟩

/-- What is around the byte that a word is completed at. -/
theorem wordAround_eq {u v : List UInt8} {c : UInt8} (hc : isBlank c = false)
    (h : (l.before.1 = u ++ [c] ∧ l.after.1 = v) ∨ (l.before.1 = [] ∧ u = [] ∧ l.after.1 = c :: v)) :
    (wordAround l).1 = (u.rtakeWhile fun c => !isBlank c) ++ (c :: v.takeWhile fun c => !isBlank c) ∧
      l.before.1.rdropWhile (fun c => !isBlank c) = u.rdropWhile (fun c => !isBlank c) ∧
      l.after.1.dropWhile (fun c => !isBlank c) = v.dropWhile (fun c => !isBlank c) := by
  have hpass : (fun c => !isBlank c) c = true := by simp only [hc, Bool.not_false]
  have hval : (wordAround l).1 = (l.before.1.rtakeWhile fun c => !isBlank c) ++ (l.after.1.takeWhile fun c => !isBlank c) :=
    rfl
  rcases h with ⟨hb, ha⟩ | ⟨hb, rfl, ha⟩
  · rw [hval, hb, ha, List.rtakeWhile_concat_pos (fun c => !isBlank c) u c hpass,
      List.rdropWhile_concat_pos (fun c => !isBlank c) u c hpass, List.append_assoc, List.singleton_append]
    exact ⟨rfl, rfl, rfl⟩
  · rw [hval, hb, ha, List.takeWhile_cons_of_pos (p := fun c => !isBlank c) hpass,
      List.dropWhile_cons_of_pos (p := fun c => !isBlank c) hpass]
    exact ⟨rfl, rfl, rfl⟩

/-- Completing the word at the cursor is what it is for the line, unless there are only blanks up to it. -/
theorem promptComplete_edits (ctx : PromptContext) (h : l.Held p.buffer p.index)
    (hsize : l.before.1.length + l.after.1.length = size)
    (hblank : l.text.1 = [] ∨ ∃ c ∈ l.text.1.take (max p.index 1), isBlank c = false) :
    EditsTo (promptComplete ctx p size) p (lineCompleted ctx.names l) := by
  obtain ⟨hi, r, hm⟩ := id h
  have htext : l.text.1 = l.before.1 ++ l.after.1 := rfl
  have h0 : 0 ∉ l.before.1 ++ l.after.1 := l.text.2
  rw [htext] at hblank
  by_cases hne : l.before.1 ++ l.after.1 = []
  · -- Nothing is completed in an empty line.
    obtain ⟨hb, ha⟩ := List.append_eq_nil_iff.1 hne
    have hload : Block.load p.buffer 0 = pure 0 := by
      rw [hm, hb, ha]
      exact load_append (p := []) rfl 0 r
    have hsame : lineCompleted ctx.names l = l := by
      have hword : wordAround l = ∅ := Subtype.ext (by simp [wordAround, Text.part, hb, ha])
      rw [lineCompleted, hword, statusPromptComplete, if_pos rfl]
      simp
    rw [promptComplete, hload, pure_bind, if_pos rfl, hsame]
    exact ⟨_, _, rfl, h⟩
  obtain ⟨u, c, v, huv, hu, hc, htake, hcases⟩ := exists_atCursor hne
  rw [hi, htake] at hblank
  obtain ⟨x, hx, hxblank⟩ := hblank.resolve_left hne
  obtain ⟨d, hload, hd⟩ := load_zero h0 hne (0 :: r)
  rw [← List.append_assoc] at hm
  have hm' : p.buffer = u ++ c :: (v ++ 0 :: r) := by rw [hm, ← huv, List.append_assoc, List.cons_append]
  have hu0 : 0 ∉ u := fun h => h0 (huv ▸ List.mem_append_left _ h)
  have hv0 : 0 ∉ v := fun h => h0 (huv ▸ List.mem_append_right _ (List.mem_cons_of_mem _ h))
  have hc0 : c ≠ 0 := fun h => h0 (huv ▸ List.mem_append_right _ (h ▸ List.mem_cons_self))
  rw [promptComplete, hm, hload, pure_bind, if_neg hd, ← hm, hi, hu, lineCompleted, hc]
  cases hcblank : isBlank c with
  | true =>
    -- The cursor is at a blank, and its word would end before it.
    obtain rfl : c = 32 := of_decide_eq_true hcblank
    have hxu : x ∈ u := (List.mem_append.1 hx).resolve_right fun h => by
      rw [List.mem_singleton.1 h, hcblank] at hxblank
      cases hxblank
    have hnil : u.rdropWhile isBlank ≠ [] := fun h => by
      rw [List.rdropWhile_eq_nil_iff.1 h x hxu] at hxblank
      cases hxblank
    have hle := (List.rdropWhile_prefix isBlank u).length_le
    rw [if_pos (.inl rfl), hm', wordAt_blank hu0 v r, if_neg hnil, pure_bind]
    dsimp only
    rw [if_pos (.inl (hle.trans (Nat.le_add_right _ _)))]
    exact ⟨_, _, rfl, h⟩
  | false =>
    obtain ⟨hword, hbefore, hafter⟩ := wordAround_eq hcblank hcases
    have hsome : some c ≠ some 32 := fun h => by
      rw [Option.some.inj h] at hcblank
      cases hcblank
    have hstart : (u.rdropWhile fun c => !isBlank c).length + (u.rtakeWhile fun c => !isBlank c).length = u.length := by
      rw [← List.length_append, List.rdropWhile_append_rtakeWhile]
    have hlast : u.length + (c :: v.takeWhile fun c => !isBlank c).length =
        (u.rdropWhile fun c => !isBlank c).length + (wordAround l).1.length := by
      rw [hword, List.length_append]
      omega
    have hpos : 0 < (wordAround l).1.length := by
      rw [hword, List.length_append, List.length_cons]
      omega
    have hmem : p.buffer = (u.rdropWhile fun c => !isBlank c) ++
        ((wordAround l).1 ++ ((v.dropWhile fun c => !isBlank c) ++ 0 :: r)) :=
      calc p.buffer = u ++ c :: (v ++ 0 :: r) := hm'
        _ = (u.rdropWhile fun c => !isBlank c) ++ (u.rtakeWhile fun c => !isBlank c) ++
            c :: ((v.takeWhile fun c => !isBlank c) ++ (v.dropWhile fun c => !isBlank c) ++ 0 :: r) := by
          rw [List.rdropWhile_append_rtakeWhile, List.takeWhile_append_dropWhile]
        _ = _ := by
          rw [hword]
          simp only [List.append_assoc, List.cons_append]
    have hread : textAt ((p.buffer.drop (u.rdropWhile fun c => !isBlank c).length).take (wordAround l).1.length ++ [0]) 0 =
        wordAround l := by
      rw [hmem, List.drop_left, List.take_left]
      exact textAt_append (p := []) rfl (wordAround l) []
    have hwithin : (u.rdropWhile fun c => !isBlank c).length + (wordAround l).1.length ≤ p.buffer.length := by
      rw [hmem]
      simp only [List.length_append]
      omega
    rw [hm', wordAt_eq hcblank hc0 hv0 u r, pure_bind, ← hm', hlast]
    dsimp only
    rw [Nat.add_sub_cancel_left, if_pos hwithin, hread]
    by_cases hlong : (wordAround l).1.length > 63
    · rw [if_pos (.inr hlong), if_pos (.inr hlong)]
      exact ⟨_, _, rfl, h⟩
    rw [if_neg (by omega), if_neg (by simp [hsome, hlong])]
    cases statusPromptComplete ctx.names (wordAround l) with
    | none => exact ⟨_, _, rfl, h⟩
    | some s =>
      refine replaceWord_edits ctx.fresh hmem rfl rfl ?_ (congrArg (· ++ s.1) hbefore) hafter
      have hv := congrArg List.length (List.takeWhile_append_dropWhile (p := fun c => !isBlank c) (l := v))
      have hall := congrArg List.length huv
      rw [List.length_append] at hv
      rw [List.length_append, List.length_append, List.length_cons, hsize] at hall
      rw [List.length_cons] at hlast
      omega

/-- With only blanks up to the cursor, the byte before the buffer is read. -/
theorem promptComplete_fault (ctx : PromptContext) (h : l.Held p.buffer p.index) (hne : l.text.1 ≠ [])
    (hblank : ∀ c ∈ l.text.1.take (max p.index 1), isBlank c = true) :
    promptComplete ctx p size = .fault .overread := by
  obtain ⟨hi, r, hm⟩ := h
  have h0 : 0 ∉ l.before.1 ++ l.after.1 := l.text.2
  obtain ⟨u, c, v, huv, hu, -, htake, -⟩ := exists_atCursor (show l.before.1 ++ l.after.1 ≠ [] from hne)
  obtain ⟨d, hload, hd⟩ := load_zero h0 hne (0 :: r)
  rw [hi] at hblank
  have hblank' : ∀ x ∈ u ++ [c], isBlank x = true := fun x hx => hblank x (htake.symm ▸ hx)
  have hc : c = 32 := of_decide_eq_true (hblank' c (List.mem_append_right _ List.mem_cons_self))
  have hnil : u.rdropWhile isBlank = [] :=
    List.rdropWhile_eq_nil_iff.2 fun x hx => hblank' x (List.mem_append_left _ hx)
  have hu0 : 0 ∉ u := fun h => h0 (huv ▸ List.mem_append_left _ h)
  have hm' : p.buffer = u ++ 32 :: (v ++ 0 :: r) := by
    rw [hm, ← List.append_assoc, ← huv, hc, List.append_assoc, List.cons_append]
  rw [← List.append_assoc] at hm
  rw [promptComplete, hm, hload, pure_bind, if_neg hd, ← hm, hi, hu, hm', wordAt_blank hu0 v r, if_pos hnil]
  rfl

/-! ## All commands -/

/-- A command stays within the buffer: to delete a character, there is another byte after the null one, or
    nothing to delete, and to complete a word, there is a byte up to the cursor that is not blank, or nothing at
    all. -/
def Prompt.Within (p : Prompt) : EditCmd → Prop
  | .delete => p.index = (textAt p.buffer 0).1.length ∨ (textAt p.buffer 0).1.length + 1 < p.buffer.length
  | .complete => (textAt p.buffer 0).1 = [] ∨ ∃ c ∈ (textAt p.buffer 0).1.take (max p.index 1), isBlank c = false
  | _ => True

instance (p : Prompt) (cmd : EditCmd) : Decidable (p.Within cmd) := by
  unfold Prompt.Within
  split <;> infer_instance

theorem edits_moveTo {q : Prompt} {j : ℕ} (h : l.Held p.buffer p.index) (hq : q = { p with index := j })
    (hj : j ≤ l.text.1.length) : EditsTo (pure q) p (l.moveTo j) :=
  ⟨p.buffer, j, by rw [hq], h.moveTo (hj.trans_eq length_text)⟩

theorem edits_search {y : Exec ℕ} {j : ℕ} (h : l.Held p.buffer p.index) (hy : y = pure j) (hj : j ≤ l.text.1.length) :
    EditsTo (do pure { p with index := ← y }) p (l.moveTo j) := by
  rw [hy, pure_bind]
  exact edits_moveTo h rfl hj

/-- What a command does with the buffer is what it does to the line, if it stays within the buffer. -/
theorem promptEdit_edits (ctx : PromptContext) {cmd : EditCmd} (h : l.Held p.buffer p.index)
    (hsize : l.before.1.length + l.after.1.length = size) (hh : p.hindex ≤ history.length) (hw : p.Within cmd) :
    ∃ n ≤ history.length, EditsTo (promptEdit ctx history p size cmd) { p with hindex := n }
      (lineEdited ctx history p.hindex l cmd) := by
  have htext : l.text.1.length = size := length_text.trans hsize
  have hindex : p.index = l.index := h.1
  have hle : p.index ≤ size := by rw [h.1, ← hsize]; exact Nat.le_add_right _ _
  have hnext : ∀ wsep, nextWord wsep p.buffer size p.index =
      pure (l.text.1.length - (fromNextWord (isSeparator wsep) l.after.1).length) := fun wsep => by
    obtain ⟨hi, r, hm⟩ := h
    rw [hm, hi, htext, nextWord_eq wsep r hsize]
  have hend : ∀ wsep, nextWordEnd wsep p.buffer size p.index =
      pure (l.text.1.length - (fromWordEnd (isSeparator wsep) l.after.1).length) := fun wsep => by
    obtain ⟨hi, r, hm⟩ := h
    rw [hm, hi, htext, nextWordEnd_eq wsep r hsize]
  have hprevious : ∀ wsep, previousWord wsep p.buffer p.index =
      pure (beforeWord (isSeparator wsep) l.before.1).length := fun wsep => by
    obtain ⟨hi, r, hm⟩ := h
    rw [hm, hi, previousWord_eq]
  have hbefore : ∀ sep, (beforeWord sep l.before.1).length ≤ l.text.1.length := fun sep => by
    have := (prefix_beforeWord sep l.before.1).length_le
    rw [length_text]
    omega
  have hleft : EditsTo (pure (if p.index > 0 then { p with index := p.index - 1 } else p)) p (l.moveTo (l.index - 1)) := by
    refine edits_moveTo h ?_ (by omega)
    split_ifs with hpos
    · rw [hindex]
    · have hstays : p.index - 1 = p.index := by omega
      rw [← hindex, hstays]
  have hright : EditsTo (pure (if p.index < size then { p with index := p.index + 1 } else p)) p
      (l.moveTo (min (l.index + 1) l.text.1.length)) := by
    refine edits_moveTo h ?_ (Nat.min_le_right _ _)
    rw [← hindex, htext]
    split_ifs with hlt
    · rw [Nat.min_eq_left hlt]
    · have hstays : min (p.index + 1) size = p.index := by omega
      rw [hstays]
  cases cmd with
  | cursorLeft => exact ⟨p.hindex, hh, hleft⟩
  | switchModeAppend | cursorRight => exact ⟨p.hindex, hh, hright⟩
  | switchModeBeginLine | startOfLine => exact ⟨p.hindex, hh, edits_moveTo h rfl (Nat.zero_le _)⟩
  | switchModeAppendLine | endOfLine => exact ⟨p.hindex, hh, edits_moveTo h (by rw [htext]) (Nat.le_refl _)⟩
  | complete =>
    refine ⟨p.hindex, hh, promptComplete_edits ctx h hsize ?_⟩
    rw [← h.textAt]
    exact hw
  | backspace => exact ⟨p.hindex, hh, promptBackspace_edits h hsize⟩
  | delete =>
    refine ⟨p.hindex, hh, promptDelete_edits h hsize ?_⟩
    rw [← htext, ← h.textAt]
    exact hw
  | deleteLine => exact ⟨p.hindex, hh, promptDeleteLine_edits h⟩
  | deleteToEndOfLine => exact ⟨p.hindex, hh, promptDeleteToEndOfLine_edits h hsize⟩
  | deleteWord => exact ⟨p.hindex, hh, promptDeleteWord_edits ctx.wordSeparators h hsize⟩
  | nextSpace | nextWord => exact ⟨p.hindex, hh, edits_search h (hnext _) (Nat.sub_le _ _)⟩
  | nextSpaceEnd | nextWordEnd => exact ⟨p.hindex, hh, edits_search h (hend _) (Nat.sub_le _ _)⟩
  | previousSpace | previousWord => exact ⟨p.hindex, hh, edits_search h (hprevious _) (hbefore _)⟩
  | historyUp => exact promptHistoryUp_edits h hh
  | historyDown => exact promptHistoryDown_edits hh
  | paste => exact ⟨p.hindex, hh, promptPaste_edits ctx h hsize⟩
  | transposeChars => exact ⟨p.hindex, hh, promptTransposeChars_edits h hsize⟩
  | switchMode | enter | cancel | other | none => exact ⟨p.hindex, hh, _, _, rfl, h⟩

end Tmux
