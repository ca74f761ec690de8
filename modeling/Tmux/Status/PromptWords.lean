import Tmux.Status.Prompt

/-!
# Words in a prompt

Where the searches of a prompt for words end: those of the movements by words, given a set of separators
(`previousWord_eq`, `nextWord_eq`, `nextWordEnd_eq`), and the one for the word to complete. The latter finds
the bytes around the cursor that are not blank (`wordAt_eq`). If the cursor is at a blank, it leaves the
buffer at its start if nothing but blanks is before it (`wordAt_blank`).
-/

namespace Tmux

open CString

variable {stop : UInt8 → Bool} {a b q r : List UInt8} {size fuel : ℕ}

/-! ## Looking for words -/

/-- Going back ends in front of the bytes that do not pass the test, and of the one that does. -/
theorem backTo_eq (stop : UInt8 → Bool) (b q : List UInt8) :
    backTo stop (b ++ q) b.length = pure ((b.rdropWhile fun c => !stop c).length - 1) := by
  induction b using List.reverseRecOn generalizing q with
  | nil => rfl
  | append_singleton b c ih =>
    rw [List.length_append, List.length_singleton, backTo, List.append_assoc, List.singleton_append,
      load_append rfl, pure_bind]
    split_ifs with hc
    · rw [List.rdropWhile_concat_neg _ _ _ (by simp [hc]), List.length_append, List.length_singleton,
        Nat.add_sub_cancel]
    · rw [List.rdropWhile_concat_pos _ _ _ (by simp [hc])]
      exact ih (c :: q)

/-- Going back ends after the byte that passes the test. -/
theorem backAfter_eq (stop : UInt8 → Bool) (b q : List UInt8) :
    backAfter stop (b ++ q) b.length = pure (b.rdropWhile fun c => !stop c).length := by
  induction b using List.reverseRecOn generalizing q with
  | nil => rfl
  | append_singleton b c ih =>
    rw [List.length_append, List.length_singleton, backAfter, List.append_assoc, List.singleton_append,
      load_append rfl, pure_bind]
    split_ifs with hc
    · rw [List.rdropWhile_concat_neg _ _ _ (by simp [hc]), List.length_append, List.length_singleton]
    · rw [List.rdropWhile_concat_pos _ _ _ (by simp [hc])]
      exact ih (c :: q)

/-- Going on ends at a byte that passes the test, or at the null byte. -/
theorem onTo_eq (stop : UInt8 → Bool) (r : List UInt8) (hsize : b.length + a.length = size) (hfuel : a.length ≤ fuel) :
    onTo stop (b ++ (a ++ 0 :: r)) size (fuel + 1) b.length =
      pure (size - (a.tail.dropWhile fun c => !stop c).length) := by
  induction a generalizing b fuel with
  | nil =>
    have hend : ¬b.length ≠ size := not_not.2 hsize
    rw [onTo, if_neg hend, ← hsize]
    rfl
  | cons c a ih =>
    rw [List.length_cons] at hsize hfuel
    obtain ⟨fuel, rfl⟩ := Nat.exists_eq_add_of_lt (Nat.zero_lt_of_lt hfuel)
    have hlen : (b ++ [c]).length = b.length + 1 := List.length_append
    have hmem : b ++ (c :: a ++ 0 :: r) = b ++ [c] ++ (a ++ 0 :: r) := by simp
    have hfuel' : a.length ≤ 0 + fuel := by omega
    have hrec := ih (b := b ++ [c]) (by rw [hlen]; omega) hfuel'
    rw [onTo, if_pos (by omega), hmem, ← hlen, List.tail_cons, hrec]
    cases a with
    | nil =>
      rw [List.nil_append, load_append rfl, pure_bind]
      split_ifs
      · exact congrArg pure (by rw [hlen]; exact hsize)
      · rfl
    | cons d a =>
      rw [List.cons_append, load_append rfl, pure_bind, List.tail_cons, List.dropWhile_cons]
      cases hd : stop d with
      | true =>
        simp only [Bool.not_true, Bool.false_eq_true, if_true, if_false, hlen, List.length_cons]
        exact congrArg pure (by rw [List.length_cons] at hsize; omega)
      | false => rfl

/-- What is before the last word of a text, a word being between separators. -/
def beforeWord (sep : UInt8 → Bool) (s : List UInt8) : List UInt8 := (s.rdropWhile sep).rdropWhile fun c => !sep c

/-- What is from the next word of a text on. -/
def fromNextWord (sep : UInt8 → Bool) (s : List UInt8) : List UInt8 :=
  (s.tail.dropWhile fun c => !sep c).tail.dropWhile sep

/-- What is from the next end of a word of a text on. -/
def fromWordEnd (sep : UInt8 → Bool) (s : List UInt8) : List UInt8 :=
  (s.tail.dropWhile sep).tail.dropWhile fun c => !sep c

theorem previousWord_eq (wsep : Text) (b q : List UInt8) :
    previousWord wsep (b ++ q) b.length = pure (beforeWord (isSeparator wsep) b).length := by
  rw [previousWord, backTo_eq, pure_bind, beforeWord]
  simp only [Bool.not_not]
  obtain ⟨x, hx⟩ := List.rdropWhile_prefix (isSeparator wsep) b
  rcases List.eq_nil_or_concat (b.rdropWhile (isSeparator wsep)) with hnil | ⟨y, c, hy⟩
  · rw [hnil]
    rfl
  · have hc : isSeparator wsep c = false := by
      have := List.rdropWhile_last_not (isSeparator wsep) b (by rw [hy, List.concat_eq_append]; exact List.concat_ne_nil _ _)
      simpa [hy] using this
    have hmem : b ++ q = y ++ (c :: (x ++ q)) := by
      rw [← hx, hy, List.concat_eq_append, List.append_assoc, List.append_assoc, List.singleton_append]
    rw [hy, hmem, List.concat_eq_append, List.length_append, List.length_singleton, Nat.add_sub_cancel, backAfter_eq,
      List.rdropWhile_concat_pos _ _ _ (by simp [hc])]

/-- Going on twice, from a part of the line that was gone over to the next. -/
theorem onTo_onTo (stop stop' : UInt8 → Bool) (r : List UInt8) (hsize : b.length + a.length = size)
    (hfuel : a.length ≤ fuel) :
    (do
      let idx ← onTo stop (b ++ (a ++ 0 :: r)) size (fuel + 1) b.length
      onTo stop' (b ++ (a ++ 0 :: r)) size (fuel + 1) idx) =
      pure (size - (((a.tail.dropWhile fun c => !stop c).tail).dropWhile fun c => !stop' c).length) := by
  obtain ⟨x, hx⟩ := (List.dropWhile_suffix fun c => !stop c).trans (List.tail_suffix a)
  rw [onTo_eq stop r hsize hfuel, pure_bind]
  generalize (a.tail.dropWhile fun c => !stop c) = y at hx
  subst hx
  rw [List.length_append] at hsize hfuel
  have hlen : (b ++ x).length = size - y.length := by rw [List.length_append]; omega
  have hsize' : (b ++ x).length + y.length = size := by rw [hlen]; omega
  have := onTo_eq stop' r hsize' (Nat.le_of_add_left_le hfuel)
  rwa [List.append_assoc, ← List.append_assoc x, hlen] at this

theorem nextWord_eq (wsep : Text) (r : List UInt8) (hsize : b.length + a.length = size) :
    nextWord wsep (b ++ (a ++ 0 :: r)) size b.length = pure (size - (fromNextWord (isSeparator wsep) a).length) := by
  rw [nextWord, onTo_onTo _ _ r hsize (by simp only [List.length_append]; omega), fromNextWord]
  simp only [Bool.not_not]

theorem nextWordEnd_eq (wsep : Text) (r : List UInt8) (hsize : b.length + a.length = size) :
    nextWordEnd wsep (b ++ (a ++ 0 :: r)) size b.length = pure (size - (fromWordEnd (isSeparator wsep) a).length) := by
  rw [nextWordEnd, onTo_onTo _ _ r hsize (by simp only [List.length_append]; omega), fromWordEnd]
  simp only [Bool.not_not]

/-! ## The word at the cursor -/

def isBlank (c : UInt8) : Bool := c = 32

variable {c d : UInt8} {u v : List UInt8}

theorem backToBlank_blank (u q : List UInt8) : backToBlank (u ++ 32 :: q) u.length = pure u.length := by
  cases h : u.length with
  | zero => rfl
  | succ n =>
    rw [backToBlank, load_append h, pure_bind]
    rfl

theorem backToBlank_eq (hc : isBlank c = false) (u q : List UInt8) :
    backToBlank (u ++ c :: q) u.length = pure ((u.rdropWhile fun c => !isBlank c).length - 1) := by
  induction u using List.reverseRecOn generalizing c q with
  | nil => rfl
  | append_singleton u d ih =>
    have hlen : (u ++ [d]).length = u.length + 1 := List.length_append
    rw [hlen, backToBlank, load_append hlen, pure_bind, if_pos (of_decide_eq_false hc), List.append_assoc,
      List.singleton_append]
    cases hd : isBlank d with
    | true =>
      obtain rfl : d = 32 := of_decide_eq_true hd
      rw [backToBlank_blank, List.rdropWhile_concat_neg _ _ _ (by decide), hlen, Nat.add_sub_cancel]
    | false => rw [List.rdropWhile_concat_pos _ _ _ (by simp [hd]), ih hd]

theorem scanTo_eq (ha : ∀ x ∈ a, stop x = false) (hd : stop d = true) (b q : List UInt8) (hfuel : a.length ≤ fuel) :
    scanTo stop (b ++ (a ++ d :: q)) (fuel + 1) b.length = pure (b.length + a.length) := by
  induction a generalizing b fuel with
  | nil =>
    rw [scanTo, List.nil_append, load_append rfl, pure_bind, if_pos hd]
    rfl
  | cons x a ih =>
    rw [List.forall_mem_cons] at ha
    obtain ⟨fuel, rfl⟩ := Nat.exists_eq_add_of_lt (Nat.zero_lt_of_lt hfuel)
    have hfuel' : a.length ≤ 0 + fuel := by
      rw [List.length_cons] at hfuel
      omega
    have hrec := ih ha.2 (b ++ [x]) hfuel'
    rw [List.append_assoc, List.singleton_append, List.length_append, List.length_singleton] at hrec
    rw [scanTo, List.cons_append, load_append rfl, pure_bind, if_neg (by simp [ha.1]), hrec, List.length_cons,
      Nat.add_assoc, Nat.add_comm 1]

/-- Going back over blanks ends at the byte before them, if there is one. -/
theorem backOverBlanks_eq {s : List UInt8} {i : ℕ} (hs : s.length = i + 1) (q : List UInt8) :
    backOverBlanks (s ++ q) i =
      if s.rdropWhile isBlank = [] then .fault .overread else pure ((s.rdropWhile isBlank).length - 1) := by
  induction i generalizing s q with
  | zero =>
    obtain ⟨x, rfl⟩ := List.length_eq_one_iff.1 hs
    have hload : Block.load ([x] ++ q) 0 = pure x := load_append (p := []) rfl x q
    rw [backOverBlanks, hload, pure_bind, List.rdropWhile_singleton]
    by_cases hx : x = 32
    · have hblank : isBlank x = true := decide_eq_true hx
      rw [if_pos hx, if_pos hblank, if_pos rfl]
    · have hblank : ¬isBlank x = true := fun h => hx (of_decide_eq_true h)
      rw [if_neg hx, if_neg hblank, if_neg (List.cons_ne_nil _ _)]
      rfl
  | succ i ih =>
    rcases List.eq_nil_or_concat s with rfl | ⟨s, x, rfl⟩
    · cases hs
    rw [List.concat_eq_append] at hs ⊢
    have hlen : s.length = i + 1 := by
      rw [List.length_append, List.length_singleton] at hs
      exact Nat.succ_injective hs
    rw [List.append_assoc, List.singleton_append, backOverBlanks, load_append hlen, pure_bind]
    by_cases hx : x = 32
    · have hblank : isBlank x = true := decide_eq_true hx
      rw [if_pos hx, List.rdropWhile_concat_pos _ _ _ hblank, ih hlen]
    · have hblank : ¬isBlank x = true := fun h => hx (of_decide_eq_true h)
      rw [if_neg hx, List.rdropWhile_concat_neg _ _ _ hblank, if_neg (List.concat_ne_nil _ _), List.length_append,
        List.length_singleton, hlen]
      rfl

/-- In a word, going back to a blank and on over blanks ends at the start of the word. -/
theorem promptWordStart_eq (hc : isBlank c = false) (u q : List UInt8) (hfuel : 0 < fuel) :
    (do
      let first ← backToBlank (u ++ c :: q) u.length
      scanTo (fun c => c ≠ 32) (u ++ c :: q) (fuel + 1) first) = pure (u.rdropWhile fun c => !isBlank c).length := by
  have hu : (u.rdropWhile fun c => !isBlank c) ++ (u.rtakeWhile fun c => !isBlank c) = u :=
    List.rdropWhile_append_rtakeWhile
  obtain ⟨d, q', hq', hd⟩ : ∃ d q', (u.rtakeWhile fun c => !isBlank c) ++ c :: q = d :: q' ∧ isBlank d = false := by
    cases hx : u.rtakeWhile fun c => !isBlank c with
    | nil => exact ⟨c, q, rfl, hc⟩
    | cons d x =>
      have hd : d ∈ u.rtakeWhile fun c => !isBlank c := by rw [hx]; exact List.mem_cons_self
      exact ⟨d, x ++ c :: q, rfl, by simpa using List.mem_rtakeWhile_imp hd⟩
  have hmem : u ++ c :: q = (u.rdropWhile fun c => !isBlank c) ++ d :: q' := by rw [← hq', ← List.append_assoc, hu]
  have hstop : decide (d ≠ 32) = true := decide_eq_true (of_decide_eq_false hd)
  rw [backToBlank_eq hc, pure_bind, hmem]
  rcases List.eq_nil_or_concat (u.rdropWhile fun c => !isBlank c) with hnil | ⟨y, e, hy⟩
  · rw [hnil]
    exact scanTo_eq (a := []) (List.forall_mem_nil _) hstop [] q' (Nat.zero_le _)
  · have he : isBlank e = true := by
      have := List.rdropWhile_last_not (fun c => !isBlank c) u (by rw [hy, List.concat_eq_append]; exact List.concat_ne_nil _ _)
      simpa [hy] using this
    have hover : ∀ x ∈ [e], decide (x ≠ 32) = false := by
      intro x hx
      obtain rfl := List.mem_singleton.1 hx
      exact decide_eq_false (not_not.2 (of_decide_eq_true he))
    rw [hy, List.concat_eq_append, List.length_append, List.length_singleton, Nat.add_sub_cancel, List.append_assoc]
    exact scanTo_eq hover hstop y q' hfuel

/-- In a word, going on to a blank and back over blanks ends at the end of the word. -/
theorem promptWordEnd_eq (hc : isBlank c = false) (hc0 : c ≠ 0) (hv : 0 ∉ v) (u r : List UInt8)
    (hfuel : v.length < fuel) :
    (do
      let last ← scanTo (fun c => c = 0 || c = 32) (u ++ c :: (v ++ 0 :: r)) (fuel + 1) u.length
      let last ← backOverBlanks (u ++ c :: (v ++ 0 :: r)) last
      let c ← Block.load (u ++ c :: (v ++ 0 :: r)) last
      pure (if c ≠ 0 then last + 1 else last)) = pure (u.length + (c :: v.takeWhile fun c => !isBlank c).length) := by
  obtain ⟨d, q, hq, hd⟩ : ∃ d q, (v.dropWhile fun c => !isBlank c) ++ 0 :: r = d :: q ∧ (d = 0 ∨ isBlank d = true) := by
    cases hz : v.dropWhile fun c => !isBlank c with
    | nil => exact ⟨0, r, rfl, .inl rfl⟩
    | cons d z =>
      have hne : (v.dropWhile fun c => !isBlank c) ≠ [] := by rw [hz]; exact List.cons_ne_nil _ _
      have hd := List.head_dropWhile_not (fun c => !isBlank c) hne
      simp only [hz, List.head_cons, Bool.not_eq_false'] at hd
      exact ⟨d, z ++ 0 :: r, rfl, .inr hd⟩
  have hword : ∀ x ∈ c :: v.takeWhile fun c => !isBlank c, x ≠ 0 ∧ isBlank x = false := by
    refine List.forall_mem_cons.2 ⟨⟨hc0, hc⟩, fun x hx => ⟨?_, ?_⟩⟩
    · rintro rfl
      exact hv ((List.takeWhile_prefix _).subset hx)
    · simpa using List.mem_takeWhile_imp hx
  have hmem : c :: (v ++ 0 :: r) = (c :: v.takeWhile fun c => !isBlank c) ++ d :: q := by
    rw [← hq, List.cons_append, ← List.append_assoc, List.takeWhile_append_dropWhile]
  have hfuel' : (c :: v.takeWhile fun c => !isBlank c).length ≤ fuel := by
    have := (List.takeWhile_prefix (fun c => !isBlank c) (l := v)).length_le
    rw [List.length_cons]
    omega
  rw [hmem]
  rcases List.eq_nil_or_concat (c :: v.takeWhile fun c => !isBlank c) with hnil | ⟨w, g, hw⟩
  · cases hnil
  rw [List.concat_eq_append] at hw
  rw [hw] at hword hfuel' ⊢
  have hg := hword g (List.mem_append_right _ List.mem_cons_self)
  have hstop : ∀ x ∈ w ++ [g], (decide (x = 0) || decide (x = 32)) = false := fun x hx => by
    have h32 : decide (x = 32) = false := (hword x hx).2
    rw [decide_eq_false (hword x hx).1, h32, Bool.or_false]
  have hend : (decide (d = 0) || decide (d = 32)) = true := by
    rcases hd with h0 | h32
    · rw [decide_eq_true h0, Bool.true_or]
    · rw [show decide (d = 32) = true from h32, Bool.or_true]
  have hlen : (u ++ w).length + 1 = u.length + (w ++ [g]).length := by
    simp only [List.length_append, List.length_singleton, Nat.add_assoc]
  have hback := backOverBlanks_eq (s := u ++ w ++ [g] ++ [d]) (i := u.length + (w ++ [g]).length) (by
    rw [List.length_append, List.length_append, ← hlen]
    rfl) q
  have hmem' : u ++ (w ++ [g] ++ d :: q) = u ++ w ++ [g] ++ [d] ++ q := by simp
  rw [scanTo_eq hstop hend u q hfuel', pure_bind, hmem', hback]
  cases hblank : isBlank d with
  | true =>
    rw [List.rdropWhile_concat_pos _ _ _ hblank, List.rdropWhile_concat_neg _ _ _ (by simp [hg.2]),
      if_neg (List.concat_ne_nil _ _), pure_bind, List.length_append, List.length_singleton, Nat.add_sub_cancel,
      List.append_assoc, List.append_assoc, List.singleton_append, load_append rfl, pure_bind, if_pos hg.1, hlen]
  | false =>
    obtain rfl : d = 0 := hd.resolve_right (by simp [hblank])
    have hpos : (u ++ w ++ [g] ++ [0]).length - 1 = u.length + (w ++ [g]).length := by
      rw [List.length_append, List.length_append, List.length_singleton, List.length_singleton, Nat.add_sub_cancel, hlen]
    have hload : Block.load (u ++ w ++ [g] ++ [0] ++ q) (u.length + (w ++ [g]).length) = pure 0 := by
      rw [List.append_assoc (u ++ w ++ [g])]
      exact load_append (by rw [List.length_append, List.length_singleton, hlen]) 0 q
    rw [List.rdropWhile_concat_neg _ _ _ (by simp [hblank]), if_neg (List.concat_ne_nil _ _), pure_bind, hpos, hload,
      pure_bind]
    rfl

/-- The word at a byte that is not blank is what is around it up to blanks. -/
theorem wordAt_eq (hc : isBlank c = false) (hc0 : c ≠ 0) (hv : 0 ∉ v) (u r : List UInt8) :
    wordAt (u ++ c :: (v ++ 0 :: r)) u.length =
      pure ((u.rdropWhile fun c => !isBlank c).length, u.length + (c :: v.takeWhile fun c => !isBlank c).length) := by
  have hlen : v.length < (u ++ c :: (v ++ 0 :: r)).length := by
    simp only [List.length_append, List.length_cons]
    omega
  have hstart := promptWordStart_eq hc u (v ++ 0 :: r) (Nat.zero_lt_of_lt hlen)
  have hend := promptWordEnd_eq hc hc0 hv u r hlen
  obtain ⟨first, hback, hfirst⟩ := Exec.bind_eq_pure.1 hstart
  obtain ⟨last, hscan, hrest⟩ := Exec.bind_eq_pure.1 hend
  obtain ⟨last', hover, hrest⟩ := Exec.bind_eq_pure.1 hrest
  obtain ⟨d, hload, hlast⟩ := Exec.bind_eq_pure.1 hrest
  rw [wordAt, hback, pure_bind, hfirst, pure_bind, hscan, pure_bind, hover, pure_bind, hload, pure_bind,
    Exec.pure_injective hlast]

/-- At a blank there is no word, but its end is looked for before the first byte if all of them are blank. -/
theorem wordAt_blank (hu : 0 ∉ u) (v r : List UInt8) :
    wordAt (u ++ 32 :: (v ++ 0 :: r)) u.length =
      if u.rdropWhile isBlank = [] then .fault .overread
      else pure (u.length + (32 :: v.takeWhile isBlank).length, (u.rdropWhile isBlank).length) := by
  obtain ⟨d, q, hq, hd⟩ : ∃ d q, (v.dropWhile isBlank) ++ 0 :: r = d :: q ∧ isBlank d = false := by
    cases hz : v.dropWhile isBlank with
    | nil => exact ⟨0, r, rfl, rfl⟩
    | cons d z =>
      have hne : v.dropWhile isBlank ≠ [] := by rw [hz]; exact List.cons_ne_nil _ _
      have hd := List.head_dropWhile_not isBlank hne
      simp only [hz, List.head_cons] at hd
      exact ⟨d, z ++ 0 :: r, rfl, hd⟩
  have hfirst : scanTo (fun c => c ≠ 32) (u ++ 32 :: (v ++ 0 :: r)) ((u ++ 32 :: (v ++ 0 :: r)).length + 1) u.length =
      pure (u.length + (32 :: v.takeWhile isBlank).length) := by
    have hmem : 32 :: (v ++ 0 :: r) = (32 :: v.takeWhile isBlank) ++ d :: q := by
      rw [← hq, List.cons_append, ← List.append_assoc, List.takeWhile_append_dropWhile]
    rw [hmem]
    refine scanTo_eq ?_ (decide_eq_true (of_decide_eq_false hd)) u q ?_
    · refine List.forall_mem_cons.2 ⟨rfl, fun x hx => decide_eq_false (not_not.2 ?_)⟩
      have hblank : isBlank x = true := List.mem_takeWhile_imp hx
      exact of_decide_eq_true hblank
    · simp only [List.length_append]
      omega
  have hlast : scanTo (fun c => c = 0 || c = 32) (u ++ 32 :: (v ++ 0 :: r)) ((u ++ 32 :: (v ++ 0 :: r)).length + 1)
      u.length = pure u.length :=
    scanTo_eq (a := []) (List.forall_mem_nil _) rfl u _ (Nat.zero_le _)
  have hback := backOverBlanks_eq (s := u ++ [32]) (i := u.length) List.length_append (v ++ 0 :: r)
  rw [List.append_assoc, List.singleton_append, List.rdropWhile_concat_pos _ _ _ rfl] at hback
  rw [wordAt, backToBlank_blank, pure_bind, hfirst, pure_bind, hlast, pure_bind, hback]
  split_ifs with hnil
  · rfl
  · obtain ⟨x, hx⟩ := List.rdropWhile_prefix isBlank u
    rcases List.eq_nil_or_concat (u.rdropWhile isBlank) with h | ⟨y, e, hy⟩
    · exact absurd h hnil
    rw [List.concat_eq_append] at hy
    have he0 : e ≠ 0 := by
      rintro rfl
      exact hu (by rw [← hx, hy]; simp)
    have hmem : u ++ 32 :: (v ++ 0 :: r) = y ++ e :: (x ++ 32 :: (v ++ 0 :: r)) := by
      rw [← List.singleton_append (x := e), ← List.append_assoc y, ← hy, ← List.append_assoc, hx]
    rw [pure_bind, hy, List.length_append, List.length_singleton, Nat.add_sub_cancel, hmem, load_append rfl, pure_bind,
      if_pos he0]

end Tmux
