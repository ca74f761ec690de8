import Tmux.Tty.Decode

/-!
# What the decoding of keys finds

The functions that look for a key in the buffer find what is recognised there, or nothing if there
is nothing. Where more bytes are needed they may go wrong, as they look at the byte past the
buffer: `ttyKeysDevice_eq`, `ttyKeysMouse_eq` and `xtermKeysFind_eq` say when they do not.
Key strings are found as they are recognised (`ttyKeysFind_eq`).
-/

namespace Tmux

open Recogniser

variable {buf : List UInt8} {past : UInt8}

/-! ## Reports -/

/-- The start of a report is looked at as its head is recognised, but for what follows. -/
theorem reportStart_eq (third : UInt8 → Bool) (hbuf : buf ≠ []) :
    match reportHead third buf with
    | .no => reportStart third buf = .no
    | .more => reportStart third buf = .more ∧ buf.length ≤ 2
    | .found ((), rest) => reportStart third buf = (if rest = [] then .more else .found ()) ∧
        ∃ c₂, buf = 27 :: 91 :: c₂ :: rest := by
  obtain ⟨c₀, buf, rfl⟩ := List.exists_cons_of_ne_nil hbuf
  by_cases h₀ : c₀ = 27
  · subst h₀
    rcases buf with _ | ⟨c₁, buf⟩
    · exact ⟨rfl, by simp⟩
    by_cases h₁ : c₁ = 91
    · subst h₁
      rcases buf with _ | ⟨c₂, buf⟩
      · exact ⟨rfl, by simp⟩
      cases h₂ : third c₂ with
      | false => simp [reportStart, reportHead, byte, item, andThen, h₂]
      | true => simp [reportStart, reportHead, byte, item, andThen, h₂]
    · simp [reportStart, reportHead, byte, item, andThen, h₁]
  · simp [reportStart, reportHead, byte, item, andThen, h₀]

/-- The rest of a reply is read as it is recognised, but for the byte past the buffer. -/
theorem deviceText_eq (past : UInt8) (room : ℕ) (buf : List UInt8) :
    match replyText room buf with
    | .no => deviceText past room buf = .no
    | .more => past ≠ 99 → deviceText past room buf = .more
    | .found ((), rest) => ∃ tmp, deviceText past room buf = .found tmp ∧ buf = tmp ++ 99 :: rest := by
  induction room generalizing buf with
  | zero => rfl
  | succ room ih =>
    rcases buf with _ | ⟨c, buf⟩
    · exact fun h => if_neg h
    rw [replyText, andThen, item]
    dsimp only
    by_cases hc : c = 99
    · rw [if_pos hc]
      exact ⟨[], if_pos hc, by rw [hc]; rfl⟩
    · rw [if_neg hc]
      have hbuf := ih buf
      rw [deviceText, if_neg hc]
      cases hr : replyText room buf with
      | no =>
        rw [hr] at hbuf
        dsimp only at hbuf ⊢
        rw [hbuf]
      | more =>
        rw [hr] at hbuf
        dsimp only at hbuf ⊢
        intro hpast
        rw [hbuf hpast]
      | found r =>
        rw [hr] at hbuf
        obtain ⟨tmp, htmp, rfl⟩ := hbuf
        exact ⟨c :: tmp, by rw [htmp], rfl⟩

/-- A reply is read as it is recognised, unless the byte past the buffer ends it. -/
theorem ttyKeysDevice_eq (hbuf : buf ≠ []) (past : UInt8) :
    match deviceReply buf with
    | .no => ttyKeysDevice buf past = .no
    | .more => (4 ≤ buf.length → past ≠ 99) → ttyKeysDevice buf past = .more
    | .found ((), rest) => ∃ size version, ttyKeysDevice buf past = .found (size, version) ∧ buf.drop size = rest := by
  have hstart := reportStart_eq (fun c => c = 62 || c = 63) hbuf
  unfold deviceReply ttyKeysDevice andThen
  cases hhead : reportHead (fun c => c = 62 || c = 63) buf with
  | no =>
    rw [hhead] at hstart
    rw [hstart]
  | more =>
    rw [hhead] at hstart
    rw [hstart.1]
    exact fun _ => rfl
  | found r =>
    obtain ⟨⟨⟩, rest⟩ := r
    rw [hhead] at hstart
    obtain ⟨hstart, c₂, rfl⟩ := hstart
    rw [hstart]
    dsimp only
    rcases rest with _ | ⟨c₃, rest⟩
    · exact fun _ => rfl
    rw [if_neg (List.cons_ne_nil _ _), show List.drop 3 (27 :: 91 :: c₂ :: c₃ :: rest) = c₃ :: rest from rfl]
    have htext := deviceText_eq past 63 (c₃ :: rest)
    cases hr : replyText 63 (c₃ :: rest) with
    | no =>
      rw [hr] at htext
      dsimp only at htext ⊢
      rw [htext]
    | more =>
      rw [hr] at htext
      exact fun hpast => by rw [htext (hpast (by simp))]
    | found r =>
      rw [hr] at htext
      obtain ⟨tmp, htmp, hrest⟩ := htext
      dsimp only
      rw [htmp]
      refine ⟨_, _, rfl, ?_⟩
      rw [hrest, show 4 + tmp.length = tmp.length + 1 + 3 by omega]
      simp

/-! ## The mouse -/

/-- Opening a UTF-8 character of two bytes. -/
theorem utf8Open_two {ch : UInt8} (hlow : 0xc2 ≤ ch) (hhigh : ch ≤ 0xdf) :
    utf8Open ch = pure ({ data := [ch], size := 2 }, 1) := by
  simp [utf8Open, utf8Append, utf8Size, hlow, hhigh]

theorem utf8Open_long {ch : UInt8} (hlow : ¬ ch ≤ 0xdf) (hhigh : ch ≤ 0xf4) :
    ∃ u, utf8Open ch = pure (u, 1) ∧ u.size ≠ 2 := by
  by_cases hch : ch ≤ 0xef
  · have he0 : 0xe0 ≤ ch := UInt8.le_iff_toNat_le.2 (UInt8.lt_iff_toNat_lt.1 (UInt8.not_le.1 hlow))
    refine ⟨{ data := [ch], size := 3 }, ?_, (by decide : (3 : ℕ) ≠ 2)⟩
    simp [utf8Open, utf8Append, utf8Size, hlow, he0, hch]
  · have hf0 : 0xf0 ≤ ch := UInt8.le_iff_toNat_le.2 (UInt8.lt_iff_toNat_lt.1 (UInt8.not_le.1 hch))
    refine ⟨{ data := [ch], size := 4 }, ?_, (by decide : (4 : ℕ) ≠ 2)⟩
    simp [utf8Open, utf8Append, utf8Size, hlow, hch, hf0, hhigh]

theorem utf8Open_none {ch : UInt8} (h : ¬ (0xc2 ≤ ch ∧ ch ≤ 0xf4)) : utf8Open ch = pure ({}, 0) := by
  have hbytes : ¬ (0xc2 ≤ ch ∧ ch ≤ 0xdf) ∧ ¬ (0xe0 ≤ ch ∧ ch ≤ 0xef) ∧ ¬ (0xf0 ≤ ch ∧ ch ≤ 0xf4) := by
    simp only [UInt8.le_iff_toNat_le, UInt8.reduceToNat] at h ⊢
    omega
  simp [utf8Open, hbytes.1, hbytes.2.1, hbytes.2.2]

/-- A value of a report is read as it is recognised, the byte past the buffer being taken as part of it. -/
theorem readMouse_eq (utf8 : Bool) {size : ℕ} (hsize : size ≤ buf.length + 1) :
    readMouse utf8 buf past size = pure (match mouseCoordinate utf8 ((buf ++ [past]).drop size) with
      | .no => .no
      | .more => .more
      | .found (value, rest) => .found (value, buf.length + 1 - rest.length)) := by
  have hlength : (buf ++ [past]).length = buf.length + 1 := by simp
  unfold readMouse
  by_cases hend : buf.length < size
  · rw [if_pos hend, List.drop_eq_nil_of_le (by omega)]
    rfl
  obtain ⟨ch, rest, hdrop⟩ : ∃ ch rest, (buf ++ [past]).drop size = ch :: rest :=
    List.exists_cons_of_length_pos (by rw [List.length_drop]; omega)
  have hrest : rest.length + 1 = buf.length + 1 - size := by
    rw [← hlength, ← List.length_drop, hdrop, List.length_cons]
  have hload : (buf ++ [past])[size]? = some ch := by rw [← List.head?_drop, hdrop, List.head?_cons]
  have hnext : (buf ++ [past])[size + 1]? = rest.head? := by
    rw [← List.head?_drop, ← List.drop_drop, hdrop, List.drop_one, List.tail_cons]
  rw [if_neg hend, Block.load_eq hload, pure_bind, hdrop, mouseCoordinate, andThen, item]
  dsimp only
  cases utf8 with
  | false =>
    rw [if_neg Bool.false_ne_true, if_neg (by simp)]
    dsimp only [unit]
    rw [show buf.length + 1 - rest.length = size + 1 by omega]
  | true =>
    rw [if_pos rfl]
    by_cases hopens : 0xc2 ≤ ch ∧ ch ≤ 0xf4
    · rw [if_pos (by simpa using hopens)]
      by_cases htwo : ch ≤ 0xdf
      · rw [utf8Open_two hopens.1 htwo, pure_bind, if_pos htwo]
        rcases rest with _ | ⟨ch', rest⟩
        · have hlast : buf.length < size + 1 := by
            rw [List.length_nil] at hrest
            omega
          simp [hlast, andThen, item]
        · have hlast : ¬ buf.length < size + 1 := by
            rw [List.length_cons] at hrest
            omega
          simp only [List.head?_cons] at hnext
          have hsize : buf.length + 1 - rest.length = size + 2 := by
            rw [List.length_cons] at hrest
            omega
          simp [hlast, andThen, item, Block.load_eq hnext, utf8Append, utf8Size, unit, twoBytes, utf8Combine, hsize]
      · obtain ⟨u, hu, hsize⟩ := utf8Open_long htwo hopens.2
        rw [hu, pure_bind, if_neg htwo]
        simp [hsize, nothing]
    · rw [utf8Open_none hopens, pure_bind, if_neg (c := _ = true) (by simpa using hopens)]
      dsimp only [unit]
      rw [show buf.length + 1 - rest.length = size + 1 by omega]
      rfl

/-- The answer about a report, and the mouse if it is one. -/
def MouseAnswers (n : ℕ) (r : MouseEvent × Answer ℕ) : Answer (MouseEvent × List UInt8) → Prop
  | .no => r.2 = .no
  | .more => r.2 = .more
  | .found (m, rest) => r = (m, .found (n - rest.length))

/-- A value is read, and what follows it is read after it. -/
theorem mouseValue_answers (utf8 : Bool) {size : ℕ} (hsize : size ≤ buf.length + 1) (m : MouseEvent)
    {go : ℕ → ℕ → Exec (MouseEvent × Answer ℕ)} {S : ℕ → Recogniser UInt8 MouseEvent}
    (hgo : ∀ value, ∀ size ≤ buf.length + 1, ∃ r, go value size = pure r ∧
      MouseAnswers (buf.length + 1) r (S value ((buf ++ [past]).drop size))) :
    ∃ r, mouseValue utf8 buf past size m go = pure r ∧
      MouseAnswers (buf.length + 1) r ((mouseCoordinate utf8).andThen S ((buf ++ [past]).drop size)) := by
  have hlength : (buf ++ [past]).length = buf.length + 1 := by simp
  rw [mouseValue, readMouse_eq utf8 hsize, pure_bind, andThen]
  cases hvalue : mouseCoordinate utf8 ((buf ++ [past]).drop size) with
  | no => exact ⟨_, rfl, rfl⟩
  | more => exact ⟨_, rfl, rfl⟩
  | found r =>
    have hsuffix := ((takes_mouseCoordinate utf8).splits hvalue).trans (List.drop_suffix size (buf ++ [past]))
    have hdrop := List.suffix_iff_eq_drop.1 hsuffix
    rw [hlength] at hdrop
    obtain ⟨r', hr, hanswers⟩ := hgo r.1 (buf.length + 1 - r.2.length) (Nat.sub_le _ _)
    rw [← hdrop] at hanswers
    exact ⟨r', hr, hanswers⟩

/-- A report is read as it is recognised, the byte past the buffer being taken as part of it. -/
theorem ttyKeysMouse_past (utf8 : Bool) (m : MouseEvent) (hbuf : 4 ≤ buf.length) (past : UInt8) :
    ∃ r, ttyKeysMouse utf8 m buf past = pure r ∧
      MouseAnswers (buf.length + 1) r (mouseReport utf8 (buf ++ [past])) := by
  have hne : buf ≠ [] := List.ne_nil_of_length_pos (by omega)
  have hstart := reportStart_eq (fun c => decide (c = 77)) hne
  unfold ttyKeysMouse mouseReport
  rw [andThen]
  cases hhead : reportHead (fun c => decide (c = 77)) buf with
  | no =>
    rw [hhead] at hstart
    dsimp only at hstart
    rw [hstart, (stable_reportHead _).no hhead]
    exact ⟨_, rfl, rfl⟩
  | more =>
    rw [hhead] at hstart
    exact absurd hstart.2 (by omega)
  | found r =>
    obtain ⟨⟨⟩, rest⟩ := r
    rw [hhead] at hstart
    obtain ⟨hstart, c₂, hcons⟩ := hstart
    have hrest : rest ≠ [] := by
      rintro rfl
      rw [hcons] at hbuf
      exact absurd hbuf (by simp)
    have hdrop : (buf ++ [past]).drop 3 = rest ++ [past] := by rw [hcons]; rfl
    rw [hstart, if_neg hrest, (stable_reportHead _).found hhead]
    dsimp only
    rw [← hdrop]
    refine mouseValue_answers utf8 (by omega) m fun b size hsize => mouseValue_answers utf8 hsize _ fun x size hsize =>
      mouseValue_answers utf8 hsize _ fun y size hsize => ⟨_, rfl, ?_⟩
    unfold checkMouse
    dsimp only
    split_ifs with hvalues
    · exact rfl
    · refine congrArg (Prod.mk _) (congrArg Answer.found ?_)
      rw [List.length_drop, List.length_append, List.length_singleton]
      omega

/-- A mouse report is given up: there is none, or there is none with the byte past the buffer. -/
def MouseGivenUp (utf8 : Bool) (buf : List UInt8) (past : UInt8) : Prop :=
  mouseReport utf8 buf = .no ∨ 4 ≤ buf.length ∧ mouseReport utf8 (buf ++ [past]) = .no

instance (utf8 : Bool) (buf : List UInt8) (past : UInt8) : Decidable (MouseGivenUp utf8 buf past) := by
  unfold MouseGivenUp
  infer_instance

/-- A report is read as it is recognised, or is given up, if the byte past the buffer does not finish it. -/
theorem ttyKeysMouse_eq (utf8 : Bool) (m : MouseEvent) (hbuf : buf ≠ []) (past : UInt8)
    (hcut : 4 ≤ buf.length → mouseReport utf8 buf = .more → ∀ r, mouseReport utf8 (buf ++ [past]) ≠ .found r) :
    ∃ m' answer, ttyKeysMouse utf8 m buf past = pure (m', answer) ∧
      match mouseReport utf8 buf with
      | .found (mouse, rest) => m' = mouse ∧ ∃ size, answer = .found size ∧ buf.drop size = rest
      | _ => answer = if MouseGivenUp utf8 buf past then .no else .more := by
  by_cases hlong : 4 ≤ buf.length
  · obtain ⟨⟨m', answer⟩, hr, hanswers⟩ := ttyKeysMouse_past utf8 m hlong past
    refine ⟨m', answer, hr, ?_⟩
    cases hreport : mouseReport utf8 buf with
    | no =>
      rw [(stable_mouseReport utf8).no hreport] at hanswers
      exact hanswers.trans (if_pos (.inl hreport)).symm
    | more =>
      cases hpast : mouseReport utf8 (buf ++ [past]) with
      | no =>
        rw [hpast] at hanswers
        exact hanswers.trans (if_pos (.inr ⟨hlong, hpast⟩)).symm
      | more =>
        rw [hpast] at hanswers
        exact hanswers.trans (if_neg (by simp [MouseGivenUp, hreport, hpast])).symm
      | found r => exact absurd hpast (hcut hlong hreport r)
    | found r =>
      rw [(stable_mouseReport utf8).found hreport] at hanswers
      obtain ⟨rfl, rfl⟩ := Prod.mk.inj hanswers
      refine ⟨rfl, _, rfl, ?_⟩
      rw [List.length_append, List.length_singleton, Nat.add_sub_add_right]
      exact (takes_mouseReport utf8).splits.drop_eq hreport
  · -- A shorter one has no values yet.
    have hstart := reportStart_eq (fun c => decide (c = 77)) hbuf
    unfold ttyKeysMouse
    cases hhead : reportHead (fun c => decide (c = 77)) buf with
    | no =>
      rw [hhead] at hstart
      dsimp only at hstart
      have hreport : mouseReport utf8 buf = .no := andThen_no hhead
      rw [hstart, hreport]
      exact ⟨_, _, rfl, (if_pos (.inl hreport)).symm⟩
    | more =>
      rw [hhead] at hstart
      have hreport : mouseReport utf8 buf = .more := andThen_more hhead
      rw [hstart.1, hreport]
      exact ⟨_, _, rfl, (if_neg (by simp [MouseGivenUp, hreport, hlong])).symm⟩
    | found r =>
      obtain ⟨⟨⟩, rest⟩ := r
      rw [hhead] at hstart
      obtain ⟨hstart, c₂, hcons⟩ := hstart
      obtain rfl : rest = [] := by
        rw [hcons] at hlong
        exact List.eq_nil_of_length_eq_zero (by simp only [List.length_cons] at hlong; omega)
      have hreport : mouseReport utf8 buf = .more := by rw [mouseReport, andThen_found hhead]; rfl
      rw [hstart, if_pos rfl, hreport]
      exact ⟨_, _, rfl, (if_neg (by simp [MouseGivenUp, hreport, hlong])).symm⟩

/-! ## Keys with modifiers -/

/-- The character of a template that is compared with the byte past the buffer lets it go on. -/
def admits (t buf : List UInt8) (past : UInt8) : Prop :=
  t[buf.length]? = some wildcard ∨ t[buf.length]? = some past

instance (t buf : List UInt8) (past : UInt8) : Decidable (admits t buf past) := by
  unfold admits
  infer_instance

/-- A template is matched as it is recognised, but for the byte past the buffer. -/
theorem matchFrom_eq (past : UInt8) (t buf : List UInt8) :
    match template t buf with
    | .no => matchFrom past t buf = .no
    | .more => matchFrom past t buf = if admits t buf past then .more else .no
    | .found (bs, rest) => matchFrom past t buf = .found () ∧ buf = bs ++ rest ∧ bs.length = t.length := by
  induction t generalizing buf with
  | nil => exact ⟨by unfold matchFrom; rfl, rfl, rfl⟩
  | cons c t ih =>
    rcases buf with _ | ⟨b, buf⟩
    · show matchFrom past (c :: t) [] = _
      unfold matchFrom admits
      by_cases hc : c = wildcard
      · simp [hc]
      · by_cases hpast : c = past
        · simp [hpast]
        · simp [hc, eq_comm]
    · rw [template, andThen, item]
      by_cases hb : c ≠ wildcard ∧ b ≠ c
      · simp [hb, matchFrom]
      · have hbuf := ih buf
        rw [if_neg hb, matchFrom, if_neg hb]
        dsimp only
        rw [andThen]
        cases hr : template t buf with
        | no =>
          rw [hr] at hbuf
          exact hbuf
        | more =>
          rw [hr] at hbuf
          exact hbuf
        | found r =>
          rw [hr] at hbuf
          obtain ⟨hmatch, hcons, hlength⟩ := hbuf
          exact ⟨hmatch, by rw [hcons]; rfl, by rw [List.length_cons, List.length_cons, hlength]⟩

theorem template_cons {c b : UInt8} {t : List UInt8} (h : ¬ (c ≠ wildcard ∧ b ≠ c)) :
    template (c :: t) (b :: buf) = (template t).andThen (fun bs => unit (b :: bs)) buf := by
  rw [template, andThen, item, if_neg h]

/-- The modifiers are in the bytes that match. -/
theorem xtermKeysModifiers_append {t bs : List UInt8} (ht : wildcard ∈ t) (hbs : bs.length = t.length)
    (rest : List UInt8) : xtermKeysModifiers t (bs ++ rest) = xtermKeysModifiers t bs := by
  unfold xtermKeysModifiers
  rw [List.getElem?_append_left (hbs ▸ List.idxOf_lt_length_of_mem ht)]

/-- A key that is recognised is found. -/
theorem xtermKeysFindIn_eq {table : List XtermKeysEntry} (h : ∀ entry ∈ table, wildcard ∈ entry.template)
    (hbuf : buf ≠ []) (past : UInt8) :
    match xtermKeyIn table buf with
    | .no => xtermKeysFindIn buf past table = .no
    | .more => True
    | .found (key, rest) => ∃ size, xtermKeysFindIn buf past table = .found (size, key) ∧ buf.drop size = rest := by
  induction table with
  | nil => rfl
  | cons entry table ih =>
    have htable := ih fun entry' hentry => h entry' (List.mem_cons_of_mem _ hentry)
    have hmatch := matchFrom_eq past entry.template buf
    rw [xtermKeyIn, orElse, andThen, xtermKeysFindIn, xtermKeysMatch,
      if_neg fun h => hbuf (List.eq_nil_of_length_eq_zero h)]
    cases hr : template entry.template buf with
    | no =>
      rw [hr] at hmatch
      dsimp only at hmatch ⊢
      rw [hmatch]
      exact htable
    | more => trivial
    | found r =>
      obtain ⟨bs, rest⟩ := r
      rw [hr] at hmatch
      obtain ⟨hmatch, hcons, hlength⟩ := hmatch
      rw [hmatch]
      refine ⟨entry.template.length, ?_, ?_⟩
      · rw [hcons, xtermKeysModifiers_append (h entry List.mem_cons_self) hlength]
      · rw [hcons, ← hlength, List.drop_left]

/-- The start of a key of xterm is in the buffer, and the byte past it lets it go on. -/
def XtermGoesOn (table : List XtermKeysEntry) (buf : List UInt8) (past : UInt8) : Prop :=
  ∃ entry ∈ table, template entry.template buf = .more ∧ admits entry.template buf past

instance (table : List XtermKeysEntry) (buf : List UInt8) (past : UInt8) : Decidable (XtermGoesOn table buf past) := by
  unfold XtermGoesOn
  infer_instance

/-- If no key is recognised, the byte past the buffer tells if one may be. -/
theorem xtermKeysFindIn_past {table : List XtermKeysEntry}
    (h : ∀ entry ∈ table, ∀ r, template entry.template buf ≠ .found r) (hbuf : buf ≠ []) (past : UInt8) :
    xtermKeysFindIn buf past table = if XtermGoesOn table buf past then .more else .no := by
  unfold XtermGoesOn
  induction table with
  | nil => exact (if_neg (by simp)).symm
  | cons entry table ih =>
    have htable := ih fun entry' hentry => h entry' (List.mem_cons_of_mem _ hentry)
    have hmatch := matchFrom_eq past entry.template buf
    rw [xtermKeysFindIn, xtermKeysMatch, if_neg fun h => hbuf (List.eq_nil_of_length_eq_zero h)]
    cases hr : template entry.template buf with
    | no =>
      rw [hr] at hmatch
      dsimp only at hmatch
      rw [hmatch, htable]
      simp [hr]
    | more =>
      rw [hr] at hmatch
      dsimp only at hmatch
      rw [hmatch]
      by_cases hadmits : admits entry.template buf past
      · simp [hadmits, hr]
      · rw [if_neg hadmits, htable]
        simp [hadmits]
    | found r => exact absurd hr (h entry List.mem_cons_self r)

/-- Two templates match the same bytes, as far as both go. -/
def agrees : List UInt8 → List UInt8 → Bool
  | c :: t, c' :: t' => (c == wildcard || c' == wildcard || c == c') && agrees t t'
  | _, _ => true

theorem agrees_of_template {t t' : List UInt8} {r : List UInt8 × List UInt8} (h : template t buf = .more)
    (h' : template t' buf = .found r) : agrees t t' = true ∧ t'.length < t.length := by
  induction t generalizing t' buf r with
  | nil => cases h
  | cons c t ih =>
    rcases t' with _ | ⟨c', t'⟩
    · exact ⟨rfl, Nat.succ_pos _⟩
    rcases buf with _ | ⟨b, buf⟩
    · cases h'
    by_cases hb : c ≠ wildcard ∧ b ≠ c
    · rw [template, andThen, item, if_pos hb] at h
      cases h
    by_cases hb' : c' ≠ wildcard ∧ b ≠ c'
    · rw [template, andThen, item, if_pos hb'] at h'
      cases h'
    rw [template_cons hb, andThen] at h
    rw [template_cons hb'] at h'
    obtain ⟨bs, p, hr', -⟩ := andThen_eq_found.1 h'
    have ht : template t buf = .more := by
      cases hr : template t buf with
      | no => rw [hr] at h; cases h
      | more => rfl
      | found r => rw [hr] at h; cases h
    obtain ⟨hagrees, hlt⟩ := ih ht hr'
    refine ⟨?_, Nat.succ_lt_succ hlt⟩
    rw [agrees, hagrees, Bool.and_true]
    grind

theorem exists_more_of_xtermKeyIn {table : List XtermKeysEntry} (h : xtermKeyIn table buf = .more) :
    ∃ entry ∈ table, template entry.template buf = .more := by
  induction table with
  | nil => cases h
  | cons entry table ih =>
    rw [xtermKeyIn, orElse, andThen] at h
    cases hr : template entry.template buf with
    | no =>
      rw [hr] at h
      exact (ih h).imp fun _ hentry => ⟨List.mem_cons_of_mem _ hentry.1, hentry.2⟩
    | more => exact ⟨entry, List.mem_cons_self, hr⟩
    | found r =>
      rw [hr] at h
      cases h

/-- No template of xterm is matched where the start of one is. -/
theorem template_not_found {entry' : XtermKeysEntry} (hentry' : entry' ∈ xtermKeysTable)
    (hmore : template entry'.template buf = .more) :
    ∀ entry ∈ xtermKeysTable, ∀ r, template entry.template buf ≠ .found r := by
  intro entry hentry r hr
  obtain ⟨hagrees, hlt⟩ := agrees_of_template hmore hr
  have htable : ∀ entry' ∈ xtermKeysTable, ∀ entry ∈ xtermKeysTable,
      entry.template.length < entry'.template.length → agrees entry'.template entry.template = false := by
    decide +kernel
  rw [htable entry' hentry' entry hentry hlt] at hagrees
  cases hagrees

/-- No key of xterm is recognised where a longer one may be. -/
theorem xtermKey_not_found (h : xtermKey buf = .more) :
    ∀ entry ∈ xtermKeysTable, ∀ r, template entry.template buf ≠ .found r := by
  obtain ⟨entry', hentry', hmore⟩ := exists_more_of_xtermKeyIn h
  exact template_not_found hentry' hmore

/-- A key of xterm is found as it is recognised, if the byte past the buffer lets it go on. -/
theorem xtermKeysFind_eq (hbuf : buf ≠ []) (past : UInt8) :
    match xtermKey buf with
    | .no => xtermKeysFind buf past = .no
    | .more => xtermKeysFind buf past = if XtermGoesOn xtermKeysTable buf past then .more else .no
    | .found (key, rest) => ∃ size, xtermKeysFind buf past = .found (size, key) ∧ buf.drop size = rest := by
  have hwildcard : ∀ entry ∈ xtermKeysTable, wildcard ∈ entry.template := by decide +kernel
  have heq := xtermKeysFindIn_eq hwildcard hbuf past
  cases hr : xtermKey buf with
  | no =>
    rw [xtermKey] at hr
    rw [hr] at heq
    exact heq
  | more => exact xtermKeysFindIn_past (xtermKey_not_found hr) hbuf past
  | found r =>
    rw [xtermKey] at hr
    rw [hr] at heq
    exact heq

/-! ## Key strings -/

/-- The keys of a tree are keys, and there is one where a string ends. -/
def TtyKey.Keyed : TtyKey → Prop
  | .nil => True
  | .node _ key left right next =>
    key ≠ keycMouse ∧ (next = .nil → key ≠ keycNone) ∧ left.Keyed ∧ right.Keyed ∧ next.Keyed

/-- A key string is found as it is recognised. -/
theorem ttyKeysFind1_eq {tree : TtyKey} (h : tree.Keyed) (c : UInt8) (buf : List UInt8) (size : ℕ) :
    match keyString tree (c :: buf) with
    | .no => ttyKeysFind1 tree c buf size = none
    | .more => ∃ key n, ttyKeysFind1 tree c buf size = some (key, true, n)
    | .found (key, rest) => ∃ n, ttyKeysFind1 tree c buf size = some (key, false, size + n) ∧
        (c :: buf).drop n = rest ∧ key ≠ keycMouse := by
  induction tree generalizing c buf size with
  | nil => rfl
  | node ch key left right next ihl ihr ihn =>
    obtain ⟨hmouse, hend, hleft, hright, hnext⟩ := h
    unfold keyString ttyKeysFind1
    by_cases hch : ch = c
    · simp only [if_pos hch]
      by_cases hnil : next = .nil
      · rw [if_pos hnil]
        refine ⟨1, ?_, rfl, hmouse⟩
        cases buf with
        | nil => simp [hnil]
        | cons c' buf => exact if_pos ⟨hnil, hend hnil⟩
      · rw [if_neg hnil]
        cases buf with
        | nil =>
          rcases next with _ | ⟨ch', key', left', right', next'⟩
          · exact absurd rfl hnil
          · exact ⟨key, size + 1, rfl⟩
        | cons c' buf =>
          have hbuf := ihn hnext c' buf (size + 1)
          dsimp only
          rw [if_neg fun h => hnil h.1]
          cases hr : keyString next (c' :: buf) with
          | no =>
            rw [hr] at hbuf
            exact hbuf
          | more =>
            rw [hr] at hbuf
            exact hbuf
          | found r =>
            rw [hr] at hbuf
            obtain ⟨n, hfind, hdrop, hkey⟩ := hbuf
            exact ⟨n + 1, by rw [hfind, Nat.add_assoc, Nat.add_comm 1 n], hdrop, hkey⟩
    · simp only [if_neg hch]
      split_ifs
      · exact ihl hleft c buf size
      · exact ihr hright c buf size

theorem ttyKeysFind_eq {tree : TtyKey} (h : tree.Keyed) (hbuf : buf ≠ []) :
    match keyString tree buf with
    | .no => ttyKeysFind tree buf = none
    | .more => ∃ key n, ttyKeysFind tree buf = some (key, true, n)
    | .found (key, rest) => ∃ n, ttyKeysFind tree buf = some (key, false, n) ∧ buf.drop n = rest ∧ key ≠ keycMouse := by
  obtain ⟨c, buf, rfl⟩ := List.exists_cons_of_ne_nil hbuf
  have hfind := ttyKeysFind1_eq h c buf 0
  simp only [Nat.zero_add] at hfind
  exact hfind

/-- What a table of key strings may have for keys. -/
def IsKey (key : KeyCode) : Prop := key ≠ keycNone ∧ key ≠ keycMouse

instance (key : KeyCode) : Decidable (IsKey key) := inferInstanceAs (Decidable (_ ∧ _))

theorem ttyKeyChain_keyed {key : KeyCode} (hkey : IsKey key) (s : List UInt8) : (ttyKeyChain key s).Keyed := by
  induction s with
  | nil => trivial
  | cons c s ih =>
    cases s with
    | nil => exact ⟨hkey.2, fun _ => hkey.1, trivial, trivial, trivial⟩
    | cons c' s =>
      refine ⟨by decide, fun hnil => ?_, trivial, trivial, ih⟩
      cases s <;> cases hnil

theorem ttyKeysAdd1_ne_nil {key : KeyCode} (tree : TtyKey) {s : List UInt8} (hs : s ≠ []) :
    ttyKeysAdd1 key tree s ≠ .nil := by
  obtain ⟨c, s, rfl⟩ := List.exists_cons_of_ne_nil hs
  cases tree with
  | nil => cases s <;> exact nofun
  | node ch k left right next =>
    unfold ttyKeysAdd1
    split_ifs <;> exact nofun

theorem ttyKeysAdd1_keyed {key : KeyCode} (hkey : IsKey key) {tree : TtyKey} (h : tree.Keyed) (s : List UInt8) :
    (ttyKeysAdd1 key tree s).Keyed := by
  induction tree generalizing s with
  | nil =>
    cases s with
    | nil => trivial
    | cons c s => exact ttyKeyChain_keyed hkey _
  | node ch k left right next ihl ihr ihn =>
    cases s with
    | nil => exact h
    | cons c s =>
      obtain ⟨hmouse, hend, hleft, hright, hnext⟩ := h
      unfold ttyKeysAdd1
      split_ifs with hch hs
      · exact ⟨hkey.2, fun _ => hkey.1, hleft, hright, hnext⟩
      · exact ⟨hmouse, fun hnil => absurd hnil (ttyKeysAdd1_ne_nil next hs), hleft, hright, ihn hnext s⟩
      · exact ⟨hmouse, hend, ihl hleft _, hright, hnext⟩
      · exact ⟨hmouse, hend, hleft, ihr hright _, hnext⟩

theorem replaceKey_eq_nil {key : KeyCode} {tree : TtyKey} {s : List UInt8} (h : replaceKey key tree s = .nil) :
    tree = .nil := by
  cases tree with
  | nil => rfl
  | node ch k left right next =>
    cases s with
    | nil => cases h
    | cons c s =>
      unfold replaceKey at h
      split_ifs at h

theorem replaceKey_keyed {key : KeyCode} (hkey : IsKey key) {tree : TtyKey} (h : tree.Keyed) (s : List UInt8) :
    (replaceKey key tree s).Keyed := by
  induction tree generalizing s with
  | nil => exact h
  | node ch k left right next ihl ihr ihn =>
    cases s with
    | nil => exact h
    | cons c s =>
      obtain ⟨hmouse, hend, hleft, hright, hnext⟩ := h
      unfold replaceKey
      split_ifs with hch hs
      · exact ⟨hkey.2, fun _ => hkey.1, hleft, hright, hnext⟩
      · exact ⟨hmouse, fun hnil => hend (replaceKey_eq_nil hnil), hleft, hright, ihn hnext s⟩
      · exact ⟨hmouse, hend, ihl hleft _, hright, hnext⟩
      · exact ⟨hmouse, hend, hleft, ihr hright _, hnext⟩

/-- The tree of a table has its keys where strings end. -/
theorem ttyKeysInit_keyed {table : List (List UInt8 × KeyCode)} (h : ∀ entry ∈ table, IsKey entry.2) :
    (ttyKeysInit table).Keyed := by
  unfold ttyKeysInit
  refine List.foldlRecOn (motive := TtyKey.Keyed) table _ trivial fun tree htree entry hentry => ?_
  have hkey := h entry hentry
  obtain ⟨s, key⟩ := entry
  dsimp only
  split
  · unfold ttyKeysAdd
    split
    · exact ttyKeysAdd1_keyed hkey htree _
    · exact replaceKey_keyed hkey htree _
  · exact htree

end Tmux
