import Mathlib.Data.Nat.Find
import Tmux.Screen.Columns

/-!
# The width of a text with styles

The width of a text with embedded styles is calculated without them
(`Text.screenWriteCstrlen`): they are left out of it byte by byte, and then its characters are read.
Where the text is written, characters and styles are read one after the other. The text is
as wide as was calculated, and so are all its initial parts, if and only if no character
takes in the start of a style (`screenWriteCstrlen_drawn_iff`).
-/

namespace Tmux

open Exec (uadd usub)

variable {styled utf8flag : Bool} {msg ptr rest p : List UInt8} {ch : UInt8} {defgc : Option GridCell} {gc : GridCell}
  {u : Utf8Data} {n k : ℕ}

/-! ## Styles -/

theorem startsStyle_iff : startsStyle (ch :: ptr) = true ↔ ch = 35 ∧ ∃ rest, ptr = 91 :: rest := by
  constructor
  · intro h
    unfold startsStyle at h
    split at h
    · rename_i rest heq
      obtain ⟨rfl, rfl⟩ := List.cons.inj heq
      exact ⟨rfl, rest, rfl⟩
    · cases h
  · rintro ⟨rfl, rest, rfl⟩
    rfl

/-- A style that a text starts with, the text being long enough for it. -/
theorem startsStyle_prefix (h : p <+: msg) (hstyle : startsStyle p = true) : startsStyle msg = true := by
  obtain ⟨rest, rfl⟩ := h
  cases p with
  | nil => cases hstyle
  | cons ch ptr =>
    obtain ⟨rfl, rest', rfl⟩ := startsStyle_iff.1 hstyle
    rfl

theorem afterStyle_length (ptr : List UInt8) : (afterStyle ptr).length ≤ ptr.length := by
  rw [afterStyle, List.length_drop]
  exact (Nat.sub_le _ _).trans (List.dropWhile_sublist _).length_le

theorem afterStyle_end {style : List UInt8} (h : 93 ∉ style) (rest : List UInt8) :
    afterStyle (style ++ 93 :: rest) = rest := by
  have hall : ∀ c ∈ style, decide (c ≠ (93 : UInt8)) = true := fun c hc => decide_eq_true fun heq => h (heq ▸ hc)
  rw [afterStyle, List.dropWhile_append_of_pos hall]
  rfl

theorem afterStyle_open (h : 93 ∉ ptr) : afterStyle ptr = [] := by
  have hall : ∀ c ∈ ptr, decide (c ≠ (93 : UInt8)) = true := fun c hc => decide_eq_true fun heq => h (heq ▸ hc)
  rw [afterStyle, List.dropWhile_eq_nil_iff.2 hall]
  rfl

/-- A style has an end or not. -/
theorem style_cases (ptr : List UInt8) :
    93 ∉ ptr ∨ ∃ style rest, 93 ∉ style ∧ ptr = style ++ 93 :: rest := by
  by_cases h : (93 : UInt8) ∈ ptr
  · obtain ⟨style, rest, rfl, hstyle⟩ := List.eq_append_cons_of_mem h
    exact .inr ⟨style, rest, hstyle, rfl⟩
  · exact .inl h

theorem strcspn_end {style : List UInt8} (h : 93 ∉ style) (rest : List UInt8) :
    strcspn (style ++ 93 :: rest) [93] = style.length := by
  have hall : ∀ c ∈ style, (!List.contains [93] c) = true := fun c hc => by
    have hne : c ≠ 93 := fun heq => h (heq ▸ hc)
    simpa using hne
  rw [strcspn, List.takeWhile_append_of_pos hall, List.takeWhile_cons_of_neg (by simp), List.append_nil]

theorem strcspn_open (h : 93 ∉ ptr) : strcspn ptr [93] = ptr.length := by
  have hall : ∀ c ∈ ptr, (!List.contains [93] c) = true := fun c hc => by
    have hne : c ≠ 93 := fun heq => h (heq ▸ hc)
    simpa using hne
  rw [strcspn, List.takeWhile_eq_self_iff.2 hall]

/-- What is read of a text where a style may start. -/
theorem embeddedStyle_eq (defgc : Option GridCell) (gc : GridCell) (ch : UInt8) (ptr : List UInt8) :
    embeddedStyle defgc gc ch ptr = none ∧ (defgc = none ∨ startsStyle (ch :: ptr) = false) ∨
    ∃ next, embeddedStyle defgc gc ch ptr = some next ∧ defgc.isSome = true ∧ startsStyle (ch :: ptr) = true ∧
      (next = none ∧ afterStyle ptr = [] ∨ ∃ gc', next = some (gc', afterStyle ptr)) := by
  cases defgc with
  | none => exact .inl ⟨rfl, .inl rfl⟩
  | some d =>
    cases hstyle : startsStyle (ch :: ptr) with
    | false =>
      refine .inl ⟨?_, .inr rfl⟩
      unfold embeddedStyle
      split
      · rename_i hptr
        have hch : ch ≠ 35 := fun heq => by
          rw [heq, startsStyle_iff.2 ⟨rfl, _, rfl⟩] at hstyle
          cases hstyle
        exact if_neg hch
      · rfl
    | true =>
      obtain ⟨rfl, rest, rfl⟩ := startsStyle_iff.1 hstyle
      refine .inr ⟨(splitStyle rest).map fun p => (screenWriteParsestyle d gc p.1, p.2), rfl, rfl, rfl, ?_⟩
      rcases style_cases rest with hopen | ⟨style, after, hstyle', rfl⟩
      · refine .inl ⟨?_, afterStyle_open (by simpa using hopen)⟩
        rw [splitStyle, strcspn_open hopen, if_pos rfl]
        rfl
      · refine .inr ⟨screenWriteParsestyle d gc style, ?_⟩
        have hafter := afterStyle_end (by simpa using hstyle' : (93 : UInt8) ∉ 91 :: style) after
        rw [List.cons_append] at hafter
        rw [splitStyle, strcspn_end hstyle', if_neg (by simp), hafter]
        simp

/-! ## The columns of a text -/

/-- The number of columns of a text, with embedded styles or not. -/
def styledColumns (styled utf8flag : Bool) (msg : List UInt8) : ℕ :=
  columns (characters (if styled then some gridDefaultCell else none) utf8flag msg gridDefaultCell)

theorem charactersFrom_nil (n : ℕ) : charactersFrom defgc utf8flag n [] gc = [] := by cases n <;> rfl

/-- What a text starts with, as far as columns go: those of it and the rest, or nothing. -/
def nextColumns (styled utf8flag : Bool) (ch : UInt8) (ptr : List UInt8) : Option (ℕ × List UInt8) :=
  if styled && startsStyle (ch :: ptr) then some (0, afterStyle ptr)
  else match (readCharacter utf8flag ch ptr).value? with
    | some (some (utf8data, rest)) => some ((utf8data.map Utf8Data.width).getD 1, rest)
    | _ => none

theorem readCharacter_length {utf8data : Option Utf8Data}
    (h : readCharacter utf8flag ch ptr = pure (some (utf8data, rest))) : rest.length ≤ ptr.length := by
  rcases readCharacter_cases utf8flag ch with hread | ⟨size, -, -, -, -, hread⟩
  · obtain ⟨-, rfl⟩ := Prod.mk.inj (Option.some.inj (Exec.pure_injective ((hread ptr).symm.trans h)))
    exact le_rfl
  · have hnext := Exec.pure_injective ((hread ptr).symm.trans h)
    split_ifs at hnext
    obtain ⟨-, rfl⟩ := Prod.mk.inj (Option.some.inj hnext)
    rw [List.length_drop]
    exact Nat.sub_le _ _

/-- Where no style starts, a character is read. -/
theorem nextColumns_read {next : Option (Option Utf8Data × List UInt8)}
    (hno : (styled && startsStyle (ch :: ptr)) = false) (hread : readCharacter utf8flag ch ptr = pure next) :
    nextColumns styled utf8flag ch ptr =
      next.map fun (utf8data, rest) => ((utf8data.map Utf8Data.width).getD 1, rest) := by
  rw [nextColumns, if_neg (by simp [hno]), hread, Exec.value?_pure]
  cases next <;> rfl

theorem nextColumns_length {w : ℕ} (h : nextColumns styled utf8flag ch ptr = some (w, rest)) :
    rest.length ≤ ptr.length := by
  cases hstart : (styled && startsStyle (ch :: ptr)) with
  | true =>
    rw [nextColumns, if_pos hstart] at h
    obtain ⟨-, rfl⟩ := Prod.mk.inj (Option.some.inj h)
    exact afterStyle_length ptr
  | false =>
    obtain ⟨next, hread⟩ := readCharacter_pure utf8flag ch ptr
    rw [nextColumns_read hstart hread] at h
    obtain ⟨⟨utf8data, rest'⟩, rfl, hrest⟩ := Option.map_eq_some_iff.1 h
    obtain ⟨-, rfl⟩ := Prod.mk.inj hrest
    exact readCharacter_length hread

/-- The columns of a text do not depend on the cells that it is written with. -/
theorem columns_next (defgc : Option GridCell) (utf8flag : Bool) (ch : UInt8) (hgc : gc.Plain) (hn : ptr.length < n) :
    (nextColumns defgc.isSome utf8flag ch ptr = none ∧ columns (charactersFrom defgc utf8flag n (ch :: ptr) gc) = 0) ∨
    ∃ w rest gc', nextColumns defgc.isSome utf8flag ch ptr = some (w, rest) ∧ gc'.Plain ∧
      columns (charactersFrom defgc utf8flag n (ch :: ptr) gc) =
        w + columns (charactersFrom defgc utf8flag (n - 1) rest gc') := by
  obtain ⟨m, rfl⟩ := Nat.exists_eq_add_of_lt hn
  rw [charactersFrom, Nat.add_sub_cancel]
  rcases embeddedStyle_eq defgc gc ch ptr with ⟨hstyle, hnone⟩ | ⟨next, hstyle, hsome, hstart, hnext⟩
  · have hno : (defgc.isSome && startsStyle (ch :: ptr)) = false := by
      rcases hnone with rfl | hstart
      · rfl
      · rw [hstart, Bool.and_false]
    obtain ⟨next, hread⟩ := readCharacter_pure utf8flag ch ptr
    rw [nextColumns_read hno hread, hstyle, hread, Exec.value?_pure]
    rcases next with _ | ⟨_ | utf8data, rest⟩
    · exact .inl ⟨rfl, rfl⟩
    · refine .inr ⟨1, rest, _, rfl, hgc.withData ch, ?_⟩
      dsimp only
      rw [columns_cons, hgc.width]
    · refine .inr ⟨utf8data.width, rest, _, rfl, hgc.cleared, ?_⟩
      dsimp only
      rw [columns_cons, hgc.utf8Width]
  · rw [nextColumns, if_pos (by rw [hsome, hstart]; rfl), hstyle]
    rcases hnext with ⟨rfl, hafter⟩ | ⟨gc', rfl⟩
    · refine .inr ⟨0, _, gc, rfl, hgc, ?_⟩
      rw [hafter, charactersFrom_nil]
      rfl
    · exact .inr ⟨0, _, gc', rfl, embeddedStyle_plain hgc hstyle, (Nat.zero_add _).symm⟩

/-- Nor on how many places are left. -/
theorem columns_eq (hgc : gc.Plain) (hn : msg.length ≤ n) :
    columns (charactersFrom defgc utf8flag n msg gc) = styledColumns defgc.isSome utf8flag msg := by
  suffices hboth : ∀ {defgc' : Option GridCell} {gc' : GridCell} {n' : ℕ}, defgc'.isSome = defgc.isSome → gc'.Plain →
      msg.length ≤ n' →
      columns (charactersFrom defgc utf8flag n msg gc) = columns (charactersFrom defgc' utf8flag n' msg gc') from
    hboth (by cases defgc <;> rfl) gridDefaultCell_plain le_rfl
  intro defgc' gc' n' hsome hgc' hn'
  induction n generalizing msg gc gc' n' with
  | zero =>
    obtain rfl := List.length_eq_zero_iff.1 (Nat.le_zero.1 hn)
    rw [charactersFrom_nil, charactersFrom_nil]
  | succ n ih =>
    cases msg with
    | nil => rw [charactersFrom_nil, charactersFrom_nil]
    | cons ch ptr =>
      rcases columns_next defgc utf8flag ch hgc hn with
          ⟨hnext, hcolumns⟩ | ⟨w, rest, gc₁, hnext, hgc₁, hcolumns⟩ <;>
        rcases columns_next defgc' utf8flag ch hgc' hn' with
          ⟨hnext', hcolumns'⟩ | ⟨w', rest', gc₁', hnext', hgc₁', hcolumns'⟩ <;>
        rw [hsome, hnext] at hnext'
      · rw [hcolumns, hcolumns']
      · cases hnext'
      · cases hnext'
      · obtain ⟨rfl, rfl⟩ := Prod.mk.inj (Option.some.inj hnext')
        have hlength := nextColumns_length hnext
        rw [List.length_cons] at hn hn'
        rw [hcolumns, hcolumns', Nat.add_sub_cancel,
          ih hgc₁ (by omega) hgc₁' (by omega : rest.length ≤ n' - 1)]

theorem styledColumns_cons (styled utf8flag : Bool) (ch : UInt8) (ptr : List UInt8) :
    styledColumns styled utf8flag (ch :: ptr) =
      ((nextColumns styled utf8flag ch ptr).map fun (w, rest) => w + styledColumns styled utf8flag rest).getD 0 := by
  set defgc := if styled then some gridDefaultCell else none with hdefgc
  have hsome : defgc.isSome = styled := by cases styled <;> rfl
  rcases columns_next defgc utf8flag ch gridDefaultCell_plain (Nat.lt_succ_self ptr.length) with
    ⟨hnext, hcolumns⟩ | ⟨w, rest, gc', hnext, hgc', hcolumns⟩
  · rw [hsome] at hnext
    rw [hnext]
    exact hcolumns
  · rw [Nat.succ_sub_one, columns_eq hgc' (nextColumns_length hnext), hsome] at hcolumns
    rw [hsome] at hnext
    rw [hnext]
    exact hcolumns

theorem styledColumns_of_next {w : ℕ} (h : nextColumns styled utf8flag ch ptr = some (w, rest)) :
    styledColumns styled utf8flag (ch :: ptr) = w + styledColumns styled utf8flag rest := by
  rw [styledColumns_cons, h]
  rfl

theorem styledColumns_of_none (h : nextColumns styled utf8flag ch ptr = none) :
    styledColumns styled utf8flag (ch :: ptr) = 0 := by
  rw [styledColumns_cons, h]
  rfl

theorem prefix_drop (h : p <+: msg) (i : ℕ) : p.drop i <+: msg.drop i := by
  obtain ⟨rest, rfl⟩ := h
  rw [List.drop_append]
  exact List.prefix_append _ _

/-! ## What a text starts with -/

/-- A byte that a character of so many bytes starts with. -/
structure OpensCharacter (utf8flag : Bool) (ch : UInt8) (size : ℕ) : Prop where
  two : 2 ≤ size
  four : size ≤ 4
  opens : utf8Open ch = pure ({ data := [ch], size }, 1)
  high : ch > 0x7f
  short : ∀ styled ptr, ptr.length < size - 1 → nextColumns styled utf8flag ch ptr = none
  next : ∀ styled ptr, size - 1 ≤ ptr.length → nextColumns styled utf8flag ch ptr =
    some (utf8Width { data := ch :: ptr.take (size - 1), size }, ptr.drop (size - 1))

theorem startsStyle_high (h : ch > 0x7f) (ptr : List UInt8) : startsStyle (ch :: ptr) = false := by
  rw [Bool.eq_false_iff]
  intro hstart
  obtain ⟨rfl, -⟩ := startsStyle_iff.1 hstart
  exact absurd h (by decide)

/-- The columns of a character, whatever its width is. -/
theorem map_character (data : List UInt8) (size width : ℕ) (rest : List UInt8) :
    (some (some ({ data, size, width } : Utf8Data), rest)).map
      (fun (utf8data, rest) => ((utf8data.map Utf8Data.width).getD 1, rest)) = some (width, rest) := rfl

/-- A text that starts with no style starts with a byte or with a character of more of them. -/
theorem next_cases (utf8flag : Bool) (ch : UInt8) :
    (∀ styled ptr, (styled && startsStyle (ch :: ptr)) = false → nextColumns styled utf8flag ch ptr = some (1, ptr)) ∨
      ∃ size, OpensCharacter utf8flag ch size := by
  rcases readCharacter_cases utf8flag ch with hread | ⟨size, htwo, hfour, hopen, hhigh, hread⟩
  · exact .inl fun styled ptr hstart => nextColumns_read hstart (hread ptr)
  · have hstart : ∀ styled ptr, (styled && startsStyle (ch :: ptr)) = false := fun styled ptr => by
      rw [startsStyle_high hhigh, Bool.and_false]
    refine .inr ⟨size, htwo, hfour, hopen, hhigh, fun styled ptr hshort => ?_, fun styled ptr hlong => ?_⟩
    · rw [nextColumns_read (hstart styled ptr) (hread ptr), if_pos hshort]
      rfl
    · rw [nextColumns_read (hstart styled ptr) (hread ptr), if_neg (by omega), map_character]

theorem nextColumns_style (h : startsStyle (ch :: ptr) = true) :
    nextColumns true utf8flag ch ptr = some (0, afterStyle ptr) := if_pos (by rw [h]; rfl)

/-! ## Leaving out the styles -/

/-- A text without its styles. -/
def stripped (msg : List UInt8) : List UInt8 := stripStyles msg.length msg

theorem stripStyles_nil (n : ℕ) : stripStyles n [] = [] := by cases n <;> rfl

theorem stripStyles_eq (hn : msg.length ≤ n) : stripStyles n msg = stripped msg := by
  suffices hboth : ∀ {k : ℕ}, msg.length ≤ k → stripStyles n msg = stripStyles k msg from hboth le_rfl
  intro k hk
  induction n generalizing msg k with
  | zero =>
    obtain rfl := List.length_eq_zero_iff.1 (Nat.le_zero.1 hn)
    rw [stripStyles_nil, stripStyles_nil]
  | succ n ih =>
    cases msg with
    | nil => rw [stripStyles_nil, stripStyles_nil]
    | cons ch ptr =>
      rw [List.length_cons] at hn hk
      obtain ⟨m, rfl⟩ := Nat.exists_eq_add_of_lt (by omega : 0 < k)
      have hafter := afterStyle_length ptr
      rw [Nat.zero_add, stripStyles, stripStyles, ih (by omega : (afterStyle ptr).length ≤ n) (by omega : _ ≤ m),
        ih (by omega : ptr.length ≤ n) (by omega : _ ≤ m)]

theorem stripped_style (h : startsStyle (ch :: ptr) = true) : stripped (ch :: ptr) = stripped (afterStyle ptr) := by
  rw [stripped, List.length_cons, stripStyles, if_pos h, stripStyles_eq (afterStyle_length ptr)]

theorem stripped_cons (h : startsStyle (ch :: ptr) = false) : stripped (ch :: ptr) = ch :: stripped ptr := by
  rw [stripped, List.length_cons, stripStyles, if_neg (by simp [h]), stripStyles_eq le_rfl]

theorem stripped_length (msg : List UInt8) : (stripped msg).length ≤ msg.length := by
  suffices hall : ∀ n, (stripStyles n msg).length ≤ msg.length from hall _
  intro n
  induction n generalizing msg with
  | zero => exact Nat.zero_le _
  | succ n ih =>
    cases msg with
    | nil => exact le_rfl
    | cons ch ptr =>
      have hrest := ih (afterStyle ptr)
      have hptr := ih ptr
      have hafter := afterStyle_length ptr
      rw [stripStyles]
      split_ifs
      · rw [List.length_cons]
        omega
      · rw [List.length_cons, List.length_cons]
        omega

/-- Bytes that no style starts in are kept. -/
theorem stripped_keeps (ptr : List UInt8) (k : ℕ) (h : ∀ i < k, startsStyle (ptr.drop i) = false) (hk : k ≤ ptr.length) :
    stripped ptr = ptr.take k ++ stripped (ptr.drop k) := by
  induction k generalizing ptr with
  | zero => rfl
  | succ k ih =>
    cases ptr with
    | nil => exact absurd hk (Nat.not_succ_le_zero k)
    | cons ch ptr =>
      rw [stripped_cons (h 0 (Nat.succ_pos k)), List.take_succ_cons, List.cons_append, List.drop_succ_cons,
        ih ptr (fun i hi => h (i + 1) (Nat.succ_lt_succ hi)) (Nat.le_of_succ_le_succ hk)]

/-! ## Texts whose styles are whole -/

/-- Whether no character of a text takes in the start of a style. The places left are at most `n`. -/
def stylesWhole (utf8flag : Bool) : ℕ → List UInt8 → Bool
  | 0, _ => true
  | _ + 1, [] => true
  | n + 1, ch :: ptr =>
    match nextColumns true utf8flag ch ptr with
    | none => true
    | some (_, rest) =>
      (startsStyle (ch :: ptr) || (List.range (ptr.length - rest.length)).all fun i => !startsStyle (ptr.drop i)) &&
        stylesWhole utf8flag n rest

theorem stylesWhole_nil (n : ℕ) : stylesWhole utf8flag n [] = true := by cases n <;> rfl

theorem stylesWhole_style (h : startsStyle (ch :: ptr) = true) :
    stylesWhole utf8flag (n + 1) (ch :: ptr) = stylesWhole utf8flag n (afterStyle ptr) := by
  rw [stylesWhole, nextColumns_style h]
  dsimp only
  rw [h, Bool.true_or, Bool.true_and]

/-- Texts that start with no style, by what they start with. -/
theorem stylesWhole_byte (h : startsStyle (ch :: ptr) = false) (hnext : nextColumns true utf8flag ch ptr = some (1, ptr)) :
    stylesWhole utf8flag (n + 1) (ch :: ptr) = stylesWhole utf8flag n ptr := by
  rw [stylesWhole, hnext]
  dsimp only
  rw [Nat.sub_self, h]
  rfl

theorem OpensCharacter.stylesWhole_short {size : ℕ} (h : OpensCharacter utf8flag ch size)
    (hshort : ptr.length < size - 1) : stylesWhole utf8flag (n + 1) (ch :: ptr) = true := by
  rw [stylesWhole, h.short true ptr hshort]

theorem OpensCharacter.stylesWhole_iff {size : ℕ} (h : OpensCharacter utf8flag ch size) (hlong : size - 1 ≤ ptr.length) :
    stylesWhole utf8flag (n + 1) (ch :: ptr) = true ↔
      (∀ i < size - 1, startsStyle (ptr.drop i) = false) ∧ stylesWhole utf8flag n (ptr.drop (size - 1)) = true := by
  rw [stylesWhole, h.next true ptr hlong]
  dsimp only
  rw [startsStyle_high h.high, Bool.false_or, Bool.and_eq_true, List.all_eq_true, List.length_drop,
    Nat.sub_sub_self hlong]
  simp

/-! ## As wide as calculated -/

/-- A text whose styles are whole is as wide with them as without them. -/
theorem styledColumns_stripped (hn : msg.length ≤ n) (h : stylesWhole utf8flag n msg = true) :
    styledColumns true utf8flag msg = styledColumns false utf8flag (stripped msg) := by
  induction n generalizing msg with
  | zero =>
    obtain rfl := List.length_eq_zero_iff.1 (Nat.le_zero.1 hn)
    rfl
  | succ n ih =>
    cases msg with
    | nil => rfl
    | cons ch ptr =>
      rw [List.length_cons] at hn
      cases hstart : startsStyle (ch :: ptr) with
      | true =>
        rw [stylesWhole_style hstart] at h
        have hlength := afterStyle_length ptr
        rw [styledColumns_of_next (nextColumns_style hstart), stripped_style hstart, ← ih (by omega) h, Nat.zero_add]
      | false =>
        rw [stripped_cons hstart]
        rcases next_cases utf8flag ch with hbyte | ⟨size, hopen⟩
        · have hnext := hbyte true ptr (by rw [hstart]; rfl)
          rw [stylesWhole_byte hstart hnext] at h
          rw [styledColumns_of_next hnext, styledColumns_of_next (hbyte false _ rfl), ih (by omega) h]
        · rcases Nat.lt_or_ge ptr.length (size - 1) with hshort | hlong
          · have hlength := stripped_length ptr
            rw [styledColumns_of_none (hopen.short true ptr hshort), styledColumns_of_none (hopen.short false _ (by omega))]
          · obtain ⟨hwhole, hrest⟩ := (hopen.stylesWhole_iff hlong).1 h
            have htake : (ptr.take (size - 1)).length = size - 1 := List.length_take_of_le hlong
            have hnext := hopen.next false (ptr.take (size - 1) ++ stripped (ptr.drop (size - 1)))
              (by rw [List.length_append, htake]; omega)
            rw [List.take_left' htake, List.drop_left' htake] at hnext
            rw [stripped_keeps ptr (size - 1) hwhole hlong, styledColumns_of_next (hopen.next true ptr hlong),
              styledColumns_of_next hnext,
              ih (by rw [List.length_drop]; omega) hrest]

/-- The styles of an initial part are whole, too. -/
theorem stylesWhole_prefix (hp : p <+: msg) (h : stylesWhole utf8flag n msg = true) :
    stylesWhole utf8flag n p = true := by
  induction n generalizing msg p with
  | zero => rfl
  | succ n ih =>
    cases p with
    | nil => rfl
    | cons ch p =>
      obtain ⟨rest, rfl⟩ := hp
      have hp : p <+: p ++ rest := List.prefix_append p rest
      rw [List.cons_append] at h
      cases hstart : startsStyle (ch :: p) with
      | true =>
        have hwhole : startsStyle (ch :: (p ++ rest)) = true := startsStyle_prefix (List.prefix_append (ch :: p) rest) hstart
        rw [stylesWhole_style hwhole] at h
        rw [stylesWhole_style hstart]
        rcases style_cases p with hopen | ⟨style, after, hstyle, rfl⟩
        · rw [afterStyle_open hopen, stylesWhole_nil]
        · rw [List.append_assoc, List.cons_append, afterStyle_end hstyle] at h
          rw [afterStyle_end hstyle]
          exact ih (List.prefix_append after rest) h
      | false =>
        rcases next_cases utf8flag ch with hbyte | ⟨size, hopen⟩
        · rw [stylesWhole_byte hstart (hbyte true p (by rw [hstart]; rfl))]
          cases hwhole : startsStyle (ch :: (p ++ rest)) with
          | false =>
            rw [stylesWhole_byte hwhole (hbyte true _ (by rw [hwhole]; rfl))] at h
            exact ih (List.prefix_append p rest) h
          | true =>
            -- The text starts with a style, and the part is the first byte of it.
            obtain ⟨rfl, rest', hrest⟩ := startsStyle_iff.1 hwhole
            cases p with
            | nil => exact stylesWhole_nil n
            | cons c p =>
              obtain ⟨rfl, -⟩ := List.cons.inj hrest
              cases hstart
        · rcases Nat.lt_or_ge p.length (size - 1) with hshort | hlong
          · exact hopen.stylesWhole_short hshort
          · obtain ⟨hwhole, hrest⟩ := (hopen.stylesWhole_iff (by rw [List.length_append]; omega)).1 h
            refine (hopen.stylesWhole_iff hlong).2 ⟨fun i hi => ?_, ih ?_ hrest⟩
            · rw [Bool.eq_false_iff]
              intro hcut
              exact absurd (hwhole i hi) (by rw [ startsStyle_prefix (prefix_drop hp i) hcut]; decide)
            · exact prefix_drop hp (size - 1)

/-! ## Characters that take in the start of a style -/

/-- The first byte of a character of four bytes. -/
theorem utf8Open_four (h : utf8Open ch = pure ({ data := [ch], size := 4 }, 1)) : 0xf0 ≤ ch.toNat := by
  by_contra hlow
  have hsize : ∀ size, size ≠ 4 → utf8Open ch ≠ pure ({ data := [ch], size }, 1) := fun size hne heq =>
    hne (congrArg (fun p => p.1.size) (Exec.pure_injective (heq.symm.trans h)))
  by_cases htwo : 0xc2 ≤ ch.toNat ∧ ch.toNat ≤ 0xdf
  · exact hsize 2 (by decide) (utf8Open_eq (by decide) (by rw [if_pos htwo]))
  · by_cases hthree : 0xe0 ≤ ch.toNat ∧ ch.toNat ≤ 0xef
    · exact hsize 3 (by decide) (utf8Open_eq (by decide) (by rw [if_neg htwo, if_pos hthree]))
    · have hnone : utf8Open ch = pure ({}, 0) := by
        have hout : (if 0xc2 ≤ ch && ch ≤ 0xdf then 2 else if 0xe0 ≤ ch && ch ≤ 0xef then 3
            else if 0xf0 ≤ ch && ch ≤ 0xf4 then 4 else 0) = 0 := by
          simp only [UInt8.le_iff_toNat_le, UInt8.reduceToNat, Bool.and_eq_true, decide_eq_true_eq]
          rw [if_neg htwo, if_neg hthree, if_neg (by omega)]
        rw [utf8Open, hout]
        rfl
      have hzero : (0 : ℤ) = 1 := congrArg Prod.snd (Exec.pure_injective (hnone.symm.trans h))
      exact absurd hzero (by decide)

/-- Characters past the entries of the table have a width of one. -/
theorem utf8Width_past {u : Utf8Data} (h : 0xe01ef < utf8Combine u) : utf8Width u = 1 := by
  have hlast : utf8WidthTable.all (fun item => item.last ≤ 0xe01ef) = true := by decide +kernel
  have hnone : utf8WidthTable.find? (·.has (utf8Combine u)) = none := by
    refine List.find?_eq_none.2 fun item hitem => ?_
    have hle := of_decide_eq_true (List.all_eq_true.1 hlast item hitem)
    simp only [Utf8WidthEntry.has, Bool.and_eq_true, decide_eq_true_eq]
    omega
  rw [utf8Width_eq, assignedWidth, hnone]
  rfl

/-- A character that takes in the start of a style has a width. -/
theorem utf8Width_cut {size i : ℕ} (h : OpensCharacter utf8flag ch size) (hi : i + 2 < size)
    (hstart : startsStyle (ptr.drop i) = true) : 1 ≤ utf8Width { data := ch :: ptr.take (size - 1), size } := by
  have hfour := h.four
  obtain rfl | rfl : size = 3 ∨ size = 4 := by omega
  · -- The bytes are '#' and '[', and all of the sixteen characters that end with them have a width.
    obtain rfl : i = 0 := by omega
    have hall : ∀ k < 16, 1 ≤ assignedWidth utf8WidthTable (0x1b ||| 0x23 <<< 6 ||| k <<< 12) := by decide +kernel
    cases ptr with
    | nil => cases hstart
    | cons c ptr =>
      obtain ⟨rfl, rest, rfl⟩ := startsStyle_iff.1 hstart
      have hbits : ch.toNat &&& 0x0f < 16 := Nat.and_lt_two_pow _ (by decide : 0x0f < 2 ^ 4)
      have hvalue : utf8Combine { data := ch :: (35 :: 91 :: rest).take 2, size := 3 } =
          0x1b ||| 0x23 <<< 6 ||| (ch.toNat &&& 0x0f) <<< 12 := by simp [utf8Combine]
      exact (hall _ hbits).trans_eq ((utf8Width_eq _).trans (congrArg (assignedWidth utf8WidthTable) hvalue)).symm
  · have hfirst := utf8Open_four h.opens
    have hbound := ch.toNat_lt
    refine (utf8Width_past ?_).ge
    have hbits : 0x30 ≤ ch.toNat &&& 0x3f := by
      have hmask : ch.toNat &&& 0x3f = ch.toNat % 2 ^ 6 := and_mask 6 (by decide)
      omega
    have hshift : 0x30 <<< 18 ≤ (ch.toNat &&& 0x3f) <<< 18 := by
      rw [Nat.shiftLeft_eq, Nat.shiftLeft_eq]
      exact Nat.mul_le_mul_right _ hbits
    exact lt_of_lt_of_le (by decide : 0xe01ef < 0x30 <<< 18) (hshift.trans Nat.right_le_or)

/-- A text up to the start of a style that its first character takes in is not as wide as was
    calculated. -/
theorem exists_cut {size i : ℕ} (h : OpensCharacter utf8flag ch size) (hlong : size - 1 ≤ ptr.length) (hi : i < size - 1)
    (hstart : startsStyle (ptr.drop i) = true) (hfirst : ∀ k < i, startsStyle (ptr.drop k) = false) :
    ∃ p, p <+: ptr ∧ 1 ≤ styledColumns true utf8flag (ch :: p) ∧
      styledColumns false utf8flag (stripped (ch :: p)) = 0 := by
  have htwo := h.two
  have hfour := h.four
  obtain ⟨head, tail, rfl, hhead⟩ : ∃ head tail, ptr = head ++ tail ∧ head.length = i :=
    ⟨ptr.take i, ptr.drop i, (List.take_append_drop i ptr).symm, List.length_take_of_le (by omega)⟩
  rw [List.drop_left' hhead] at hstart
  cases tail with
  | nil => cases hstart
  | cons c tail =>
    obtain ⟨rfl, rest, rfl⟩ := startsStyle_iff.1 hstart
    -- The character and the start of the style, whichever ends last.
    set more := rest.take (size - 1 - (i + 2)) with hmore
    have hmore_length : more.length ≤ 1 := by
      rw [hmore, List.length_take]
      omega
    rw [List.length_append, List.length_cons, List.length_cons, hhead] at hlong
    have hpart : head ++ 35 :: 91 :: more <+: head ++ 35 :: 91 :: rest :=
      (List.prefix_append_right_inj head).2 ((List.prefix_append_right_inj [35, 91]).2 (List.take_prefix _ _))
    refine ⟨head ++ 35 :: 91 :: more, hpart, ?_, ?_⟩
    · have hnext := h.next true (head ++ 35 :: 91 :: more) (by
        rw [List.length_append, List.length_cons, List.length_cons, hhead, hmore, List.length_take]
        omega)
      rw [styledColumns_of_next hnext]
      by_cases hin : i + 2 < size
      · refine (utf8Width_cut h hin (?_ : startsStyle ((head ++ 35 :: 91 :: more).drop i) = true)).trans (Nat.le_add_right _ _)
        rw [List.drop_left' hhead]
        rfl
      · -- The bracket is a byte of its own.
        have hnil : more = [] := by
          rw [hmore, show size - 1 - (i + 2) = 0 by omega, List.take_zero]
        have hbracket : (head ++ 35 :: 91 :: more).drop (size - 1) = [91] := by
          rw [hnil, show size - 1 = (head ++ [35]).length by rw [List.length_append, hhead]; simp; omega,
            show head ++ [35, 91] = head ++ [35] ++ [91] by simp, List.drop_left]
        have hone : styledColumns true utf8flag [91] = 1 := by cases utf8flag <;> rfl
        rw [hbracket, hone]
        exact Nat.le_add_left 1 _
    · have hkeeps := stripped_keeps (head ++ 35 :: 91 :: more) i (fun k hk => ?_) (by
        rw [List.length_append, hhead]
        exact Nat.le_add_right _ _)
      · have hafter : afterStyle (91 :: more) = [] := by
          match more, hmore_length with
          | [], _ => rfl
          | [c], _ =>
            rw [afterStyle, List.dropWhile_cons_of_pos (by decide)]
            by_cases hc : c = 93
            · rw [hc]
              rfl
            · rw [List.dropWhile_cons_of_pos (by simpa using hc)]
              rfl
        rw [List.take_left' hhead, List.drop_left' hhead, stripped_style rfl, hafter] at hkeeps
        rw [stripped_cons (startsStyle_high h.high _), hkeeps]
        refine styledColumns_of_none (h.short false _ ?_)
        rw [List.length_append, hhead]
        exact hi
      · rw [Bool.eq_false_iff]
        intro hcut
        exact absurd (hfirst k hk) (by rw [ startsStyle_prefix (prefix_drop hpart k) hcut]; decide)

/-- A text with a style that is not whole has an initial part that is not as wide as was calculated. -/
theorem exists_prefix_cut (hn : msg.length ≤ n) (h : stylesWhole utf8flag n msg = false) :
    ∃ p, p <+: msg ∧ styledColumns true utf8flag p ≠ styledColumns false utf8flag (stripped p) := by
  induction n generalizing msg with
  | zero => cases h
  | succ n ih =>
    cases msg with
    | nil => cases h
    | cons ch ptr =>
      rw [List.length_cons] at hn
      cases hstart : startsStyle (ch :: ptr) with
      | true =>
        rw [stylesWhole_style hstart] at h
        obtain ⟨rfl, ptr', rfl⟩ := startsStyle_iff.1 hstart
        rcases style_cases ptr' with hopen | ⟨style, rest, hstyle, rfl⟩
        · rw [afterStyle_open (by simpa using hopen), stylesWhole_nil] at h
          cases h
        · have hstyle' : (93 : UInt8) ∉ 91 :: style := by simpa using hstyle
          have hafter := afterStyle_end hstyle'
          simp only [List.cons_append] at hafter
          rw [hafter] at h
          rw [List.length_cons, List.length_append, List.length_cons] at hn
          obtain ⟨p, hp, hne⟩ := ih (by omega) h
          refine ⟨35 :: 91 :: (style ++ 93 :: p), ?_, ?_⟩
          · simpa using hp
          · rw [styledColumns_of_next (nextColumns_style rfl), stripped_style rfl, hafter, Nat.zero_add]
            exact hne
      | false =>
        have hpart : ∀ p, p <+: ptr → startsStyle (ch :: p) = false := fun p hp => by
          rw [Bool.eq_false_iff]
          intro hcut
          rw [ startsStyle_prefix ((List.prefix_cons_inj ch).2 hp) hcut] at hstart
          cases hstart
        rcases next_cases utf8flag ch with hbyte | ⟨size, hopen⟩
        · rw [stylesWhole_byte hstart (hbyte true ptr (by rw [hstart]; rfl))] at h
          obtain ⟨p, hp, hne⟩ := ih (by omega) h
          refine ⟨ch :: p, (List.prefix_cons_inj ch).2 hp, ?_⟩
          rw [stripped_cons (hpart p hp), styledColumns_of_next (hbyte true p (by rw [hpart p hp]; rfl)),
            styledColumns_of_next (hbyte false _ rfl)]
          exact fun heq => hne (Nat.add_left_cancel heq)
        · rcases Nat.lt_or_ge ptr.length (size - 1) with hshort | hlong
          · rw [hopen.stylesWhole_short hshort] at h
            cases h
          · by_cases hcut : ∃ i, i < size - 1 ∧ startsStyle (ptr.drop i) = true
            · -- The first style that starts in the character.
              obtain ⟨hi, hstyle⟩ := Nat.find_spec hcut
              obtain ⟨p, hp, hone, hzero⟩ := exists_cut hopen hlong hi hstyle fun k hk => by
                have hnot := Nat.find_min hcut hk
                rw [Bool.eq_false_iff]
                exact fun hstyle' => hnot ⟨hk.trans hi, hstyle'⟩
              exact ⟨ch :: p, (List.prefix_cons_inj ch).2 hp, by omega⟩
            · have hwhole : ∀ i < size - 1, startsStyle (ptr.drop i) = false := fun i hi => by
                rw [Bool.eq_false_iff]
                exact fun hstyle => hcut ⟨i, hi, hstyle⟩
              have hrest : stylesWhole utf8flag n (ptr.drop (size - 1)) = false := by
                rw [Bool.eq_false_iff]
                intro htrue
                rw [(hopen.stylesWhole_iff hlong).2 ⟨hwhole, htrue⟩] at h
                cases h
              obtain ⟨p, hp, hne⟩ := ih (by rw [List.length_drop]; omega) hrest
              have htake : (ptr.take (size - 1)).length = size - 1 := List.length_take_of_le hlong
              have hpre : ptr.take (size - 1) ++ p <+: ptr := by
                conv_rhs => rw [← List.take_append_drop (size - 1) ptr]
                exact (List.prefix_append_right_inj _).2 hp
              refine ⟨ch :: (ptr.take (size - 1) ++ p), (List.prefix_cons_inj ch).2 hpre, ?_⟩
              have hnext := fun styled rest => hopen.next styled (ptr.take (size - 1) ++ rest)
                (by rw [List.length_append, htake]; exact Nat.le_add_right _ _)
              simp only [List.take_left' htake, List.drop_left' htake] at hnext
              have hkeeps := stripped_keeps (ptr.take (size - 1) ++ p) (size - 1) (fun i hi => by
                rw [Bool.eq_false_iff]
                intro hcut'
                exact absurd (hwhole i hi) (by rw [ startsStyle_prefix (prefix_drop hpre i) hcut']; decide))
                (by rw [List.length_append, htake]; exact Nat.le_add_right _ _)
              rw [List.take_left' htake, List.drop_left' htake] at hkeeps
              rw [stripped_cons (hpart _ hpre), hkeeps, styledColumns_of_next (hnext true p),
                styledColumns_of_next (hnext false _)]
              exact fun heq => hne (Nat.add_left_cancel heq)

/-! ## The claim of a text -/

/-- A text with styles is written to as many columns as was calculated, where there are so many of
    them. -/
def MeasuredAsDrawn (utf8flag : Bool) (msg : List UInt8) : Prop :=
  ∃ size, Text.screenWriteCstrlen utf8flag msg = pure size ∧ ∀ gc : GridCell, gc.Plain →
    columns (characters (some gc) utf8flag msg gc) = size ∧
      ∀ s : Screen, s.CanAppend size → ∃ s', screenWriteCnputs s (-1) gc utf8flag msg = pure s' ∧ s'.cx = s.cx + size

theorem measuredAsDrawn_iff :
    MeasuredAsDrawn utf8flag msg ↔ styledColumns true utf8flag msg = styledColumns false utf8flag (stripped msg) := by
  have hmeasured : Text.screenWriteCstrlen utf8flag msg = pure (styledColumns false utf8flag (stripped msg)) :=
    screenWriteStrlen_columns utf8flag _ gridDefaultCell_plain
  constructor
  · rintro ⟨size, hsize, hdrawn⟩
    rw [hmeasured] at hsize
    rw [Exec.pure_injective hsize]
    exact (hdrawn gridDefaultCell gridDefaultCell_plain).1
  · intro heq
    refine ⟨_, hmeasured, fun gc hgc => ?_⟩
    have hcolumns : columns (characters (some gc) utf8flag msg gc) = styledColumns false utf8flag (stripped msg) :=
      (columns_eq hgc le_rfl).trans heq
    refine ⟨hcolumns, fun s hs => ?_⟩
    obtain ⟨s', hwrite, hcx⟩ := nputsFrom_append (by decide : (-1 : ℤ) ≤ 0) hs utf8flag msg hgc hcolumns.le
    exact ⟨s', hwrite, hcolumns ▸ hcx⟩

/-- A text and all its initial parts are as wide as was calculated if and only if no character takes
    in the start of a style. -/
theorem screenWriteCstrlen_drawn_iff (utf8flag : Bool) (msg : List UInt8) :
    (∀ p, p <+: msg → MeasuredAsDrawn utf8flag p) ↔ stylesWhole utf8flag msg.length msg = true := by
  constructor
  · intro hall
    by_contra hcut
    obtain ⟨p, hp, hne⟩ := exists_prefix_cut le_rfl (by simpa using hcut)
    exact hne (measuredAsDrawn_iff.1 (hall p hp))
  · intro h p hp
    exact measuredAsDrawn_iff.2 (styledColumns_stripped hp.length_le ( stylesWhole_prefix hp h))

/-- A style between the bytes of a character: the first one and the `#` are read as a character, and the
    other three bytes take up a column each. -/
theorem screenWriteCstrlen_between : ¬ MeasuredAsDrawn true [0xc3, 35, 91, 93, 0xa9] := by
  intro h
  have heq := measuredAsDrawn_iff.1 h
  obtain ⟨size, hopen⟩ := (next_cases true 0xc3).resolve_left fun hbyte => absurd (hbyte false [] rfl) (by decide)
  have htwo : utf8Open 0xc3 = pure ({ data := [0xc3], size := 2 }, 1) := rfl
  obtain rfl : size = 2 := congrArg (fun p => p.1.size) (Exec.pure_injective (hopen.opens.symm.trans htwo))
  have hstripped : stripped [0xc3, 35, 91, 93, 0xa9] = [0xc3, 0xa9] := by decide
  have hrest : styledColumns true true ([35, 91, 93, 0xa9].drop (2 - 1)) = 3 := by decide
  have hnone : styledColumns false true ([0xa9].drop (2 - 1)) = 0 := by decide
  rw [hstripped, styledColumns_of_next (hopen.next true [35, 91, 93, 0xa9] (by decide)),
    styledColumns_of_next (hopen.next false [0xa9] (by decide)), hrest, hnone] at heq
  have hle := utf8Width_le { data := 0xc3 :: [0xa9].take (2 - 1), size := 2 }
  omega

end Tmux
