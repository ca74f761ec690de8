import Mathlib.Data.List.Nodup
import Mathlib.Data.List.TakeWhile
import Tmux.Library.CString

/-!
# Padding in capabilities

A capability may have paddings `$<...>` in it, which are removed before it is sent (`ttyTermStrip`). The
string is copied to a buffer of `size` bytes character by character; a padding is skipped, and then the
character after it is copied, whatever it is. So the null byte is copied and passed if a padding is at the
end, and a padding that follows another directly is copied.

Characters are copied from places. What is copied is said of entries `α` with a byte each, which are bytes
or bytes with their places (`List.zipIdx`), so that equal characters in different places are told apart.

What is left without paddings is `withoutPadding`, and the strings that are stripped right are `Clear`
(`ttyTermStrip_iff`).
-/

namespace Tmux

open CString (Text)

section Copy

variable {α : Type} (byte : α → UInt8)

/-- Skip the characters before a `>` or the end. -/
def skipPadding : List α → Exec (List α)
  | [] => .fault .overread
  | c :: ptr => if byte c ≠ 0 ∧ byte c ≠ 62 then skipPadding ptr else pure (c :: ptr)

/-- Where the next character is copied from. -/
def stripSkip (ptr : List α) : Exec (List α) := do
  let c ← Block.load ptr 0
  if byte c = 36 then do
    let d ← Block.load ptr 1
    if byte d = 60 then do
      let ptr ← skipPadding byte ptr
      let e ← Block.load ptr 0
      if byte e = 62 then pure ptr.tail else pure ptr
    else pure ptr
  else pure ptr

/-- Copy characters into the buffer until it is full. -/
def stripLoop (size : ℕ) : ℕ → List α → List α → Exec (List α)
  | 0, _, _ => .fault .hang
  | fuel + 1, ptr, buf => do
    let c ← Block.load ptr 0
    if byte c = 0 then pure buf
    else do
      let ptr ← stripSkip byte ptr
      let c ← Block.load ptr 0
      if buf.length + 1 = size - 1 then pure (buf ++ [c]) else stripLoop size fuel ptr.tail (buf ++ [c])

/-- The characters before the null one. -/
def beforeEnd (s : List α) : List α := s.takeWhile fun c => byte c ≠ 0

/-- A string without its padding. -/
def ttyTermStrip (size : ℕ) (s : List α) : Exec (List α) := do
  match ← CString.strchr (s.map byte) 0 36 with
  | none => pure (beforeEnd byte s)
  | some _ => do
    let buf ← stripLoop byte size s.length s []
    pure (beforeEnd byte buf)

/-! ## Paddings -/

/-- The start of a padding is next. -/
def marked : List α → Bool
  | c :: d :: _ => byte c = 36 && byte d = 60
  | _ => false

/-- The characters after the next `>`. -/
def afterPadding (s : List α) : List α := (s.dropWhile fun c => byte c ≠ 62).tail

/-- A padding is next. -/
def padded (s : List α) : Bool := marked byte s && s.any fun c => byte c = 62

/-- The characters that are in no padding, from inside of one or not. -/
def withoutPaddingFrom : Bool → List α → List α
  | _, [] => []
  | true, c :: s => withoutPaddingFrom (byte c ≠ 62) s
  | false, c :: s =>
    if padded byte (c :: s) then withoutPaddingFrom true s else c :: withoutPaddingFrom false s

def withoutPadding (s : List α) : List α := withoutPaddingFrom byte false s

/-- Among the first `n` characters that are in no padding, each `$<` starts a padding, and each padding has a
    character after it that starts no other; there may be a padding at the end just before the last of the `n`. -/
def Clear : ℕ → List α → Prop
  | 0, _ => True
  | n + 1, s =>
    s = [] ∨ (marked byte s = false ∧ Clear n s.tail) ∨
      (padded byte s = true ∧ padded byte (afterPadding byte s) = false ∧
        if afterPadding byte s = [] then n = 0 else Clear n (afterPadding byte s).tail)

variable {byte} {s buf : List α} {nul c : α} {size fuel n : ℕ}

theorem withoutPaddingFrom_true (s : List α) :
    withoutPaddingFrom byte true s = withoutPadding byte (afterPadding byte s) := by
  induction s with
  | nil => rfl
  | cons c s ih =>
    by_cases hc : byte c = 62
    · rw [withoutPaddingFrom, afterPadding, List.dropWhile_cons_of_neg (by simpa using hc), decide_eq_false (not_not.2 hc)]
      rfl
    · rw [withoutPaddingFrom, afterPadding, List.dropWhile_cons_of_pos (by simpa using hc), decide_eq_true hc]
      exact ih

theorem withoutPadding_cons (h : padded byte (c :: s) = false) :
    withoutPadding byte (c :: s) = c :: withoutPadding byte s := by
  rw [withoutPadding, withoutPaddingFrom, if_neg (by rw [h]; exact Bool.false_ne_true)]
  rfl

theorem byte_of_marked (h : marked byte (c :: s) = true) : byte c = 36 := by
  cases s with
  | nil => cases h
  | cons d s =>
    rw [marked, Bool.and_eq_true, decide_eq_true_iff] at h
    exact h.1

theorem afterPadding_cons (h : marked byte (c :: s) = true) : afterPadding byte (c :: s) = afterPadding byte s := by
  have hc : byte c ≠ 62 := by
    rw [byte_of_marked h]
    decide
  rw [afterPadding, afterPadding, List.dropWhile_cons_of_pos (by simpa using hc)]

theorem withoutPadding_of_padded (h : padded byte s = true) :
    withoutPadding byte s = withoutPadding byte (afterPadding byte s) := by
  cases s with
  | nil => rfl
  | cons c s =>
    rw [withoutPadding, withoutPaddingFrom, if_pos h, withoutPaddingFrom_true,
      afterPadding_cons (Bool.and_eq_true_iff.1 h).1]

theorem withoutPaddingFrom_sublist (inside : Bool) (s : List α) : (withoutPaddingFrom byte inside s).Sublist s := by
  fun_induction withoutPaddingFrom byte inside s with
  | case1 => exact List.Sublist.refl _
  | case2 c s ih => exact ih.cons c
  | case3 c s hpad ih => exact ih.cons c
  | case4 c s hpad ih => exact ih.cons_cons c

theorem beforeEnd_append (hs : ∀ c ∈ s, byte c ≠ 0) (r : List α) : beforeEnd byte (s ++ r) = s ++ beforeEnd byte r :=
  List.takeWhile_append_of_pos fun c hc => decide_eq_true (hs c hc)

theorem beforeEnd_self (hs : ∀ c ∈ s, byte c ≠ 0) : beforeEnd byte s = s :=
  List.takeWhile_eq_self_iff.2 fun c hc => decide_eq_true (hs c hc)

theorem afterPadding_sublist (s : List α) : (afterPadding byte s).Sublist s :=
  (List.tail_sublist _).trans (List.dropWhile_sublist _)

/-! ## Copying -/

theorem skipPadding_eq (hnul : byte nul = 0) (hs : ∀ c ∈ s, byte c ≠ 0) :
    skipPadding byte (s ++ [nul]) = pure ((s.dropWhile fun c => byte c ≠ 62) ++ [nul]) := by
  induction s with
  | nil => rw [List.nil_append, skipPadding, if_neg fun h => h.1 hnul]; rfl
  | cons c s ih =>
    obtain ⟨hc, hs⟩ := List.forall_mem_cons.1 hs
    by_cases hclose : byte c = 62
    · rw [List.cons_append, skipPadding, if_neg fun h => h.2 hclose, List.dropWhile_cons_of_neg (by simpa using hclose)]
      rfl
    · rw [List.cons_append, skipPadding, if_pos ⟨hc, hclose⟩, ih hs, List.dropWhile_cons_of_pos (by simpa using hclose)]

/-- Before a character is copied, a padding is skipped, or everything after a `$<` that starts none. -/
theorem stripSkip_eq (hnul : byte nul = 0) (hs : ∀ c ∈ s, byte c ≠ 0) (hne : s ≠ []) :
    stripSkip byte (s ++ [nul]) = pure ((if marked byte s then afterPadding byte s else s) ++ [nul]) := by
  obtain ⟨c, s, rfl⟩ := List.exists_cons_of_ne_nil hne
  have hload : ∀ (d : α) (r : List α), Block.load (d :: r) 0 = pure d := fun _ _ => rfl
  have hnext : ∀ (d : α) (r : List α), Block.load (c :: d :: r) 1 = pure d := fun _ _ => rfl
  rw [stripSkip, List.cons_append, hload, pure_bind]
  by_cases hc : byte c = 36
  · rw [if_pos hc]
    cases s with
    | nil =>
      have hend : ¬ byte nul = 60 := by
        rw [hnul]
        decide
      rw [List.nil_append, hnext, pure_bind, if_neg hend, marked, if_neg Bool.false_ne_true]
      · rfl
      · rintro _ _ _ ⟨⟩
    | cons d s =>
      rw [List.cons_append, hnext, pure_bind]
      by_cases hd : byte d = 60
      · rw [if_pos hd, ← List.cons_append, ← List.cons_append, skipPadding_eq hnul hs, pure_bind, marked, decide_eq_true hc,
          decide_eq_true hd, Bool.and_self, if_pos rfl, afterPadding]
        cases hrest : (c :: d :: s).dropWhile fun c => byte c ≠ 62 with
        | nil =>
          have hend : ¬ byte nul = 62 := by
            rw [hnul]
            decide
          rw [List.nil_append, hload, pure_bind, if_neg hend]
          rfl
        | cons e r =>
          have he : byte e = 62 := by
            have hhead := List.head?_dropWhile_not (fun c => decide (byte c ≠ 62)) (c :: d :: s)
            rw [hrest] at hhead
            simpa using hhead
          rw [List.cons_append, hload, pure_bind, if_pos he]
          rfl
      · rw [if_neg hd, marked, decide_eq_false hd, Bool.and_false, if_neg Bool.false_ne_true]
        rfl
  · have hmarked : marked byte (c :: s) = false := by
      cases hm : marked byte (c :: s) with
      | false => rfl
      | true => exact absurd (byte_of_marked hm) hc
    rw [if_neg hc, hmarked, if_neg Bool.false_ne_true]
    rfl

/-- What is in the buffer stays. -/
theorem stripLoop_prefix {ptr b : List α} (h : stripLoop byte size fuel ptr buf = pure b) : buf <+: b := by
  induction fuel generalizing ptr buf with
  | zero => cases h
  | succ fuel ih =>
    obtain ⟨c, -, h⟩ := Exec.bind_eq_pure.1 h
    by_cases hc : byte c = 0
    · rw [if_pos hc] at h
      exact (Exec.pure_inj.1 h).symm ▸ List.prefix_rfl
    · rw [if_neg hc] at h
      obtain ⟨ptr', -, h⟩ := Exec.bind_eq_pure.1 h
      obtain ⟨d, -, h⟩ := Exec.bind_eq_pure.1 h
      by_cases hfull : buf.length + 1 = size - 1
      · rw [if_pos hfull] at h
        exact ⟨[d], Exec.pure_inj.1 h⟩
      · rw [if_neg hfull] at h
        exact (List.prefix_append _ _).trans (ih h)

/-- One character is copied. -/
theorem stripLoop_succ {ptr r : List α} (hs : ∀ c ∈ s, byte c ≠ 0) (hne : s ≠ []) (hptr : s ++ [nul] = ptr)
    (hskip : stripSkip byte ptr = pure (c :: r)) :
    stripLoop byte size (fuel + 1) ptr buf =
      if (buf ++ [c]).length = size - 1 then pure (buf ++ [c]) else stripLoop byte size fuel r (buf ++ [c]) := by
  obtain ⟨d, s, rfl⟩ := List.exists_cons_of_ne_nil hne
  subst hptr
  have hload : ∀ (d : α) (r : List α), Block.load (d :: r) 0 = pure d := fun _ _ => rfl
  rw [stripLoop, hskip, List.cons_append, hload, pure_bind, if_neg (hs d List.mem_cons_self), pure_bind, hload,
    pure_bind, List.length_append, List.length_singleton]
  rfl

/-- The null byte is copied, and what is after it. -/
theorem stripLoop_past {ptr : List α} (hnul : byte nul = 0) (hs : ∀ c ∈ s, byte c ≠ 0) (hne : s ≠ [])
    (hbuf : ∀ c ∈ buf, byte c ≠ 0) (hptr : s ++ [nul] = ptr) (hskip : stripSkip byte ptr = pure [nul]) {b : List α} :
    beforeEnd byte <$> stripLoop byte size (fuel + 1) ptr buf = pure b ↔ buf.length + 1 = size - 1 ∧ b = buf := by
  rw [stripLoop_succ hs hne hptr hskip, List.length_append, List.length_singleton]
  by_cases hfull : buf.length + 1 = size - 1
  · have hend : beforeEnd byte [nul] = [] := List.takeWhile_cons_of_neg (by simpa using hnul)
    rw [if_pos hfull, map_pure, beforeEnd_append hbuf, hend, List.append_nil, Exec.pure_inj]
    exact ⟨fun h => ⟨hfull, h.symm⟩, fun h => h.2.symm⟩
  · rw [if_neg hfull]
    refine iff_of_false (fun h => ?_) fun h => hfull h.1
    obtain ⟨b', h, -⟩ := Exec.map_eq_pure.1 h
    cases fuel <;> cases h

theorem stripLoop_length {ptr b : List α} (hlen : buf.length < size - 1) (h : stripLoop byte size fuel ptr buf = pure b) :
    b.length ≤ size - 1 := by
  induction fuel generalizing ptr buf with
  | zero => cases h
  | succ fuel ih =>
    obtain ⟨c, -, h⟩ := Exec.bind_eq_pure.1 h
    by_cases hc : byte c = 0
    · rw [if_pos hc] at h
      exact Exec.pure_inj.1 h ▸ hlen.le
    · rw [if_neg hc] at h
      obtain ⟨ptr', -, h⟩ := Exec.bind_eq_pure.1 h
      obtain ⟨d, -, h⟩ := Exec.bind_eq_pure.1 h
      have hmore : (buf ++ [d]).length = buf.length + 1 := List.length_append
      by_cases hfull : buf.length + 1 = size - 1
      · rw [if_pos hfull] at h
        rw [← Exec.pure_inj.1 h, hmore]
        exact hfull.le
      · rw [if_neg hfull] at h
        exact ih (by omega) h

theorem padded_of_afterPadding (hmarked : marked byte s = true) (h : afterPadding byte s ≠ []) :
    padded byte s = true := by
  refine Bool.and_eq_true_iff.2 ⟨hmarked, List.any_eq_true.2 ?_⟩
  by_contra hnone
  have hdrop : s.dropWhile (fun c => byte c ≠ 62) = [] :=
    List.dropWhile_eq_nil_iff.2 fun c hc => decide_eq_true fun h62 => hnone ⟨c, hc, decide_eq_true h62⟩
  exact h (by rw [afterPadding, hdrop, List.tail_nil])

/-- The rest of a string is stripped right exactly if it is clear. The entries are in different places, so where a
    padding is copied, the result has an entry of it. -/
theorem stripLoop_iff (hnul : byte nul = 0) (hs : ∀ c ∈ s, byte c ≠ 0) (hdup : s.Nodup) (hbuf : ∀ c ∈ buf, byte c ≠ 0)
    (hlen : buf.length + n = size - 1) (hfuel : s.length < fuel) :
    beforeEnd byte <$> (if buf.length = size - 1 then pure buf else stripLoop byte size fuel (s ++ [nul]) buf) =
      pure (buf ++ (withoutPadding byte s).take n) ↔ Clear byte n s := by
  induction n generalizing s buf fuel with
  | zero =>
    rw [if_pos ((Nat.add_zero _).symm.trans hlen), map_pure, beforeEnd_self hbuf, List.take_zero, List.append_nil]
    exact iff_of_true rfl trivial
  | succ n ih =>
    rw [if_neg (by omega), Clear]
    obtain ⟨fuel, rfl⟩ := Nat.exists_eq_add_of_lt hfuel
    cases s with
    | nil =>
      rw [stripLoop, List.nil_append, show Block.load [nul] 0 = pure nul from rfl, pure_bind, if_pos hnul, map_pure,
        beforeEnd_self hbuf]
      exact iff_of_true (congrArg pure (List.append_nil buf).symm) (.inl rfl)
    | cons c s =>
      -- The next entry is `d`, which is in no padding.
      have hcopy : ∀ d r, stripSkip byte (c :: s ++ [nul]) = pure (d :: r ++ [nul]) → (d :: r).Sublist (c :: s) →
          withoutPadding byte (c :: s) = d :: withoutPadding byte r →
          (beforeEnd byte <$> stripLoop byte size ((c :: s).length + fuel + 1) (c :: s ++ [nul]) buf =
            pure (buf ++ (withoutPadding byte (c :: s)).take (n + 1)) ↔ Clear byte n r) := by
        intro d r hskip hsub hwithout
        have hd : ∀ e ∈ buf ++ [d], byte e ≠ 0 := fun e he => by
          rcases List.mem_append.1 he with he | he
          · exact hbuf e he
          · exact hs e (hsub.subset ((List.mem_singleton.1 he) ▸ List.mem_cons_self))
        rw [stripLoop_succ hs (List.cons_ne_nil c s) rfl hskip, hwithout, List.take_succ_cons,
          List.append_cons buf d (List.take n _)]
        refine ih (fun e he => hs e (hsub.subset (List.mem_cons_of_mem _ he))) (hdup.sublist hsub).of_cons hd ?_ ?_
        · rw [List.length_append, List.length_singleton]
          omega
        · have := hsub.length_le
          rw [List.length_cons] at this
          omega
      have hskip := stripSkip_eq hnul hs (List.cons_ne_nil c s)
      cases hmarked : marked byte (c :: s) with
      | false =>
        have hpadded : padded byte (c :: s) = false := by rw [padded, hmarked, Bool.false_and]
        rw [hmarked, if_neg Bool.false_ne_true] at hskip
        rw [hcopy c s hskip (List.Sublist.refl _) (withoutPadding_cons hpadded), hpadded]
        simp
      | true =>
        rw [hmarked, if_pos rfl] at hskip
        cases hafter : afterPadding byte (c :: s) with
        | nil =>
          rw [hafter] at hskip
          rw [stripLoop_past hnul hs (List.cons_ne_nil c s) hbuf rfl hskip, List.append_right_eq_self]
          cases hpadded : padded byte (c :: s) with
          | false =>
            rw [withoutPadding_cons hpadded]
            simp
          | true =>
            rw [withoutPadding_of_padded hpadded, hafter]
            simp [withoutPadding, withoutPaddingFrom, padded, marked]
            omega
        | cons d r =>
          have hpadded := padded_of_afterPadding hmarked (by rw [hafter]; exact List.cons_ne_nil d r)
          have hsub : (d :: r).Sublist (c :: s) := hafter ▸ afterPadding_sublist (c :: s)
          rw [hafter] at hskip
          cases hnext : padded byte (d :: r) with
          | false =>
            rw [hcopy d r hskip hsub (by rw [withoutPadding_of_padded hpadded, hafter, withoutPadding_cons hnext]),
              hpadded]
            simp
          | true =>
            refine iff_of_false (fun h => ?_) (by simp)
            obtain ⟨b, hb, hend⟩ := Exec.map_eq_pure.1 h
            have hcopied : buf ++ [d] <+: b := by
              rw [stripLoop_succ hs (List.cons_ne_nil c s) rfl hskip] at hb
              split_ifs at hb
              · exact Exec.pure_inj.1 hb ▸ List.prefix_rfl
              · exact stripLoop_prefix hb
            obtain ⟨b', rfl⟩ := hcopied
            rw [List.append_assoc, beforeEnd_append hbuf, List.append_cancel_left_eq, List.singleton_append, beforeEnd,
              List.takeWhile_cons_of_pos (by simpa using hs d (hsub.subset List.mem_cons_self)),
              withoutPadding_of_padded hpadded, hafter, withoutPadding_of_padded hnext,
              afterPadding_cons (Bool.and_eq_true_iff.1 hnext).1] at hend
            have hmem : d ∈ withoutPadding byte (afterPadding byte r) :=
              List.mem_of_mem_take (hend ▸ List.mem_cons_self)
            refine (List.nodup_cons.1 (hdup.sublist hsub)).1 ?_
            exact (afterPadding_sublist r).subset ((withoutPaddingFrom_sublist false _).subset hmem)

theorem withoutPadding_of_notMem (h : ∀ c ∈ s, byte c ≠ 36) : withoutPadding byte s = s := by
  induction s with
  | nil => rfl
  | cons c s ih =>
    obtain ⟨hc, hs⟩ := List.forall_mem_cons.1 h
    have hpadded : padded byte (c :: s) = false :=
      Bool.eq_false_iff.2 fun hpad => hc (byte_of_marked (Bool.and_eq_true_iff.1 hpad).1)
    rw [withoutPadding_cons hpadded, ih hs]

theorem clear_of_notMem (h : ∀ c ∈ s, byte c ≠ 36) : Clear byte n s := by
  induction n generalizing s with
  | zero => exact trivial
  | succ n ih =>
    cases s with
    | nil => exact .inl rfl
    | cons c s =>
      obtain ⟨hc, hs⟩ := List.forall_mem_cons.1 h
      exact .inr (.inl ⟨Bool.eq_false_iff.2 fun hm => hc (byte_of_marked hm), ih hs⟩)

/-- Entries that are in different places are stripped right exactly if they are clear. -/
theorem strips_iff (hsize : 1 < size) (hnul : byte nul = 0) (hs : ∀ c ∈ s, byte c ≠ 0) (hdup : s.Nodup) :
    (∃ k, size - 1 ≤ k ∧ ttyTermStrip byte size (s ++ [nul]) = pure ((withoutPadding byte s).take k)) ↔
      Clear byte (size - 1) s := by
  have hend : beforeEnd byte (s ++ [nul]) = s := by
    rw [beforeEnd_append hs, beforeEnd, List.takeWhile_cons_of_neg (by simpa using hnul), List.append_nil]
  have htext : 0 ∉ s.map byte := fun h0 => by
    obtain ⟨c, hc, hbyte⟩ := List.mem_map.1 h0
    exact hs c hc hbyte
  have hstrchr : CString.strchr ((s ++ [nul]).map byte) 0 36 = pure ((s.map byte).idxOf? 36) := by
    rw [List.map_append, List.map_singleton, hnul]
    exact CString.strchr_append (p := []) rfl ⟨_, htext⟩ 36 []
  rw [ttyTermStrip, hstrchr]
  cases hmarker : (s.map byte).idxOf? 36 with
  | none =>
    have hnone : ∀ c ∈ s, byte c ≠ 36 := fun c hc h36 =>
      List.idxOf?_eq_none_iff.1 hmarker (List.mem_map.2 ⟨c, hc, h36⟩)
    refine iff_of_true ⟨max (size - 1) s.length, le_max_left _ _, ?_⟩ (clear_of_notMem hnone)
    rw [pure_bind, hend, withoutPadding_of_notMem hnone, List.take_of_length_le (le_max_right _ _)]
  | some i =>
    have hloop : beforeEnd byte <$> (if ([] : List α).length = size - 1 then pure [] else
          stripLoop byte size (s ++ [nul]).length (s ++ [nul]) []) = pure ([] ++ (withoutPadding byte s).take (size - 1)) ↔
        Clear byte (size - 1) s :=
      stripLoop_iff hnul hs hdup (fun c hc => absurd hc List.not_mem_nil) (Nat.zero_add _)
        (by rw [List.length_append]; exact Nat.lt_succ_self _)
    rw [if_neg (by rw [List.length_nil]; omega), List.nil_append] at hloop
    rw [← hloop, pure_bind]
    constructor
    · rintro ⟨k, hk, h⟩
      obtain ⟨b, hb, hbuf⟩ := Exec.bind_eq_pure.1 h
      have hlength : (beforeEnd byte b).length ≤ size - 1 :=
        (List.takeWhile_sublist _).length_le.trans (stripLoop_length (by rw [List.length_nil]; omega) hb)
      rw [hb, map_pure, ← List.take_of_length_le hlength, Exec.pure_inj.1 hbuf, List.take_take, Nat.min_eq_left hk]
    · intro h
      exact ⟨size - 1, Nat.le_refl _, h⟩

end Copy

/-! ## Other entries -/

section Map

variable {α β : Type} (f : α → β) (byte : β → UInt8)

theorem load_map (l : List α) (i : ℕ) : Block.load (l.map f) i = f <$> Block.load l i := by
  rw [Block.load, Block.load, List.getElem?_map]
  cases l[i]? <;> rfl

theorem skipPadding_map (l : List α) : skipPadding byte (l.map f) = List.map f <$> skipPadding (byte ∘ f) l := by
  induction l with
  | nil => rfl
  | cons c l ih =>
    rw [List.map_cons, skipPadding, skipPadding, ih, apply_ite (Functor.map (List.map f))]
    rfl

theorem stripSkip_map (l : List α) : stripSkip byte (l.map f) = List.map f <$> stripSkip (byte ∘ f) l := by
  rw [stripSkip, stripSkip, load_map, load_map, skipPadding_map]
  simp only [bind_map_left, map_bind, apply_ite (Functor.map (List.map f)), map_pure, List.map_tail, load_map,
    Function.comp_apply]

theorem stripLoop_map (size fuel : ℕ) (l buf : List α) :
    stripLoop byte size fuel (l.map f) (buf.map f) = List.map f <$> stripLoop (byte ∘ f) size fuel l buf := by
  induction fuel generalizing l buf with
  | zero => rfl
  | succ fuel ih =>
    rw [stripLoop, stripLoop, load_map, stripSkip_map]
    simp only [bind_map_left, map_bind, apply_ite (Functor.map (List.map f)), map_pure, load_map, ← ih, List.map_append,
      List.length_map, List.map_tail, Function.comp_apply, List.map_singleton]

/-- Only the bytes of the entries are looked at. -/
theorem ttyTermStrip_map (size : ℕ) (l : List α) :
    ttyTermStrip byte size (l.map f) = List.map f <$> ttyTermStrip (byte ∘ f) size l := by
  have hend : ∀ l : List α, beforeEnd byte (l.map f) = (beforeEnd (byte ∘ f) l).map f := fun l => by
    rw [beforeEnd, List.takeWhile_map]
    rfl
  rw [ttyTermStrip, ttyTermStrip, List.map_map, map_bind]
  congr 1
  funext o
  cases o with
  | none =>
    show pure (beforeEnd byte (l.map f)) = List.map f <$> pure (beforeEnd (byte ∘ f) l)
    rw [hend, map_pure]
  | some i =>
    have hloop := stripLoop_map f byte size l.length l []
    show stripLoop byte size (l.map f).length (l.map f) [] >>= _ = List.map f <$> (stripLoop _ size l.length l [] >>= _)
    rw [List.length_map, ← List.map_nil, hloop, bind_map_left, map_bind]
    simp only [hend, map_pure]

end Map

/-! ## Strings -/

/-- A capability without its padding, with the place of each character. -/
def ttyTermStripPlaces (size : ℕ) (s : Text) : Exec (List (UInt8 × ℕ)) :=
  ttyTermStrip Prod.fst size (s.1 ++ [0]).zipIdx

/-- The characters of a capability are those in their places. -/
theorem ttyTermStrip_eq (size : ℕ) (s : Text) :
    ttyTermStrip id size (s.1 ++ [0]) = List.map Prod.fst <$> ttyTermStripPlaces size s := by
  have := ttyTermStrip_map Prod.fst id size (s.1 ++ [0]).zipIdx
  rwa [List.zipIdx_map_fst] at this

/-- All the paddings of a capability are removed, the characters that are in none are kept, in order, and cut only at
    the size of the buffer, and nothing past the null byte is read, exactly if the capability is clear. -/
theorem ttyTermStrip_iff {size : ℕ} (hsize : 1 < size) (s : Text) :
    (∃ k, size - 1 ≤ k ∧ ttyTermStripPlaces size s = pure ((withoutPadding Prod.fst s.1.zipIdx).take k)) ↔
      Clear Prod.fst (size - 1) s.1.zipIdx := by
  have hplaces : (s.1 ++ [0]).zipIdx = s.1.zipIdx ++ [(0, s.1.length)] := by
    rw [List.zipIdx_append, Nat.zero_add]
    rfl
  rw [ttyTermStripPlaces, hplaces]
  refine strips_iff hsize rfl (fun c hc hzero => ?_) ?_
  · exact s.2 (Eq.mp (congrArg (· ∈ s.1) hzero) (List.fst_mem_of_mem_zipIdx hc))
  · exact List.Nodup.of_map Prod.snd (by rw [List.zipIdx_map_snd]; exact List.nodup_range')

theorem ttyTermStrip_iff_small : ∃ k, 255 ≤ k ∧
    ttyTermStripPlaces 256 ⟨[97, 36, 60, 53, 62, 98], by decide⟩ = pure ([(97, 0), (98, 5)].take k) := by
  have hlast : ∀ n, Clear Prod.fst (n + 1) [((36 : UInt8), 1), (60, 2), (53, 3), (62, 4), (98, 5)] := fun n =>
    .inr (.inr ⟨rfl, rfl, clear_of_notMem fun _ h => absurd h List.not_mem_nil⟩)
  have hclear : Clear Prod.fst 255 [((97 : UInt8), 0), (36, 1), (60, 2), (53, 3), (62, 4), (98, 5)] :=
    .inr (.inl ⟨rfl, hlast 253⟩)
  exact (ttyTermStrip_iff (show 1 < 256 by decide) ⟨[97, 36, 60, 53, 62, 98], by decide⟩).2 hclear

/-- A padding at the end, and one that follows another. -/
theorem ttyTermStrip_wrong :
    ttyTermStrip id 8192 [97, 36, 60, 53, 62, 0] = .fault .overread ∧
      ttyTermStrip id 8192 [36, 60, 49, 62, 36, 60, 50, 62, 120, 0] = pure [36, 60, 50, 62, 120] :=
  ⟨rfl, rfl⟩

end Tmux
