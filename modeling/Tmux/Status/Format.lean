import Tmux.Library.Buffer

/-!
# Formats

The expansion of the keys in a template (`formatExpand`): `#{key}` stands for the value of a key in a tree
(`FormatTree`), `#{?key,a,b}` for one of two texts, and some letters after a `#` for keys of their own. The
template is read from memory, where nothing is behind its null byte, and the text is put together in a
growing buffer.

A `#` that nothing follows is taken together with the null byte after it, and what comes next is read past
the end of the template. `takesNull` tells whether the expansion gets to such a `#`: that is the only thing
that can go wrong (`formatExpand_iff`).
-/

namespace Tmux

open Exec CString

/-- The keys and their values. -/
abbrev FormatTree := List (List UInt8 × Text)

/-- Add a key and its value, unless the key is there. -/
def formatAdd (ft : FormatTree) (key : List UInt8) (value : Text) : FormatTree :=
  if (ft.lookup key).isSome then ft else ft ++ [(key, value)]

def formatFind (ft : FormatTree) (key : List UInt8) : Option Text := ft.lookup key

/-- The keys that capital letters stand for. -/
def formatAliases (ch : UInt8) : Option (List UInt8) :=
  match ch with
  | 68 => some [112, 97, 110, 101, 95, 105, 100] -- pane_id
  | 70 => some [119, 105, 110, 100, 111, 119, 95, 102, 108, 97, 103, 115] -- window_flags
  | 72 => some [104, 111, 115, 116] -- host
  | 73 => some [119, 105, 110, 100, 111, 119, 95, 105, 110, 100, 101, 120] -- window_index
  | 80 => some [112, 97, 110, 101, 95, 105, 110, 100, 101, 120] -- pane_index
  | 83 => some [115, 101, 115, 115, 105, 111, 110, 95, 110, 97, 109, 101] -- session_name
  | 84 => some [112, 97, 110, 101, 95, 116, 105, 116, 108, 101] -- pane_title
  | 87 => some [119, 105, 110, 100, 111, 119, 95, 110, 97, 109, 101] -- window_name
  | _ => none

/-- What comes before and after the first comma. -/
def splitComma (s : List UInt8) : Option (List UInt8 × List UInt8) :=
  (s.idxOf? 44).map fun n => (s.take n, s.drop (n + 1))

/-- The key of a conditional has a value other than `0`. -/
def formatTrue (ft : FormatTree) (key : List UInt8) : Bool :=
  match formatFind ft key with
  | none => false
  | some value => value.1 ≠ [48]

/-- What a key between braces is replaced by, if it is not a conditional without its commas. -/
def formatValue (ft : FormatTree) (key : List UInt8) : Option (List UInt8) :=
  if key.head? = some 63 then do
    let (name, rest) ← splitComma key.tail
    let (first, second) ← splitComma rest
    pure (if formatTrue ft name then first else second)
  else some (((formatFind ft key).map Subtype.val).getD [])

/-- Put what a key is replaced by into the buffer. -/
def formatReplace (ft : FormatTree) (key : List UInt8) (buf : Buffer) : Exec (Option Buffer) :=
  match formatValue ft key with
  | none => pure none
  | some value => do pure (some (← buf.append value))

/-- Expand the rest of a template. -/
def formatScan (ft : FormatTree) : ℕ → List UInt8 → Buffer → Exec Buffer
  | 0, _, _ => .fault .hang
  | fuel + 1, fmt, buf => do
    let c ← Block.load fmt 0
    if c = 0 then pure buf
    else if c ≠ 35 then do
      let buf ← buf.append [c]
      formatScan ft fuel (fmt.drop 1) buf
    else do
      let ch ← Block.load fmt 1
      let fmt := fmt.drop 2
      if ch = 123 then do
        match ← strchr fmt 0 125 with
        | none => pure buf
        | some n =>
          match ← formatReplace ft (fmt.take n) buf with
          | none => pure buf
          | some buf => formatScan ft fuel (fmt.drop (n + 1)) buf
      else
        match formatAliases ch with
        | some s =>
          match ← formatReplace ft s buf with
          | none => pure buf
          | some buf => formatScan ft fuel fmt buf
        | none => do
          let buf ← buf.append [ch]
          formatScan ft fuel fmt buf

/-- Expand a template. There are no more steps than bytes of it. -/
def formatExpand (ft : FormatTree) (fmt : List UInt8) : Exec (List UInt8) := do
  let buf ← formatScan ft fmt.length fmt { data := List.replicate 64 0, off := 0 }
  buf.finish

/-! ## Items -/

/-- What a letter or key after a `#` is replaced by, and what is left of the template, unless the expansion
    ends there. -/
def hashItem (ft : FormatTree) : List UInt8 → Option (List UInt8 × List UInt8)
  | [] => none
  | ch :: fmt =>
    if ch = 123 then do
      let n ← fmt.idxOf? 125
      let value ← formatValue ft (fmt.take n)
      pure (value, fmt.drop (n + 1))
    else
      match formatAliases ch with
      | some s => (formatValue ft s).map (·, fmt)
      | none => some ([ch], fmt)

/-- What comes first in a template, and what is left of it. -/
def formatItem (ft : FormatTree) : List UInt8 → Option (List UInt8 × List UInt8)
  | [] => none
  | c :: fmt => if c ≠ 35 then some ([c], fmt) else hashItem ft fmt

/-- The expansion gets to a `#` with nothing after it, in `n` items. -/
def takesNull (ft : FormatTree) : ℕ → List UInt8 → Bool
  | 0, _ => false
  | n + 1, fmt =>
    fmt == [35] || match formatItem ft fmt with
      | none => false
      | some (_, fmt) => takesNull ft n fmt

/-- What `n` items of a template are replaced by. -/
def expansion (ft : FormatTree) : ℕ → List UInt8 → List UInt8
  | 0, _ => []
  | n + 1, fmt =>
    match formatItem ft fmt with
    | none => []
    | some (value, fmt) => value ++ expansion ft n fmt

variable {ft : FormatTree} {fmt : List UInt8} {buf : Buffer} {fuel n : ℕ}

theorem formatReplace_eq (hbuf : buf.Room) {key value : List UInt8} (hvalue : formatValue ft key = some value) :
    ∃ buf', formatReplace ft key buf = pure (some buf') ∧ buf'.Room ∧ buf'.text = buf.text ++ value := by
  obtain ⟨buf', happend, hroom, htext⟩ := Buffer.append_eq hbuf value
  exact ⟨buf', by rw [formatReplace, hvalue]; dsimp only; rw [happend]; rfl, hroom, htext⟩

theorem formatReplace_none {key : List UInt8} (hvalue : formatValue ft key = none) :
    formatReplace ft key buf = pure none := by
  rw [formatReplace, hvalue]

/-- What is left of a template is shorter, and has no null byte in it. -/
theorem formatItem_rest {value rest : List UInt8} (hfmt : 0 ∉ fmt) (h : formatItem ft fmt = some (value, rest)) :
    rest.length < fmt.length ∧ 0 ∉ rest := by
  obtain ⟨pre, hpre, hlen⟩ : ∃ pre, fmt = pre ++ rest ∧ 0 < pre.length := by
    rcases fmt with _ | ⟨c, fmt⟩
    · cases h
    rw [formatItem] at h
    split_ifs at h with hc
    · obtain ⟨-, rfl⟩ := Prod.mk.inj (Option.some.inj h)
      exact ⟨[c], rfl, Nat.one_pos⟩
    rcases fmt with _ | ⟨ch, fmt⟩
    · cases h
    rw [hashItem] at h
    split_ifs at h with hch
    · obtain ⟨n, -, h⟩ := Option.bind_eq_some_iff.1 h
      obtain ⟨value', -, h⟩ := Option.bind_eq_some_iff.1 h
      obtain ⟨-, rfl⟩ := Prod.mk.inj (Option.some.inj h)
      exact ⟨c :: ch :: fmt.take (n + 1), by simp, Nat.succ_pos _⟩
    · refine ⟨[c, ch], ?_, Nat.two_pos⟩
      split at h
      · obtain ⟨value', -, h⟩ := Option.map_eq_some_iff.1 h
        rw [← (Prod.mk.inj h).2]
        rfl
      · rw [← (Prod.mk.inj (Option.some.inj h)).2]
        rfl
  subst hpre
  rw [List.length_append]
  exact ⟨by omega, fun h0 => hfmt (List.mem_append_right _ h0)⟩

theorem idxOf?_lt {c : UInt8} (h : fmt.idxOf? c = some n) : n < fmt.length :=
  (List.findIdx?_eq_some_iff_getElem.1 h).1

theorem strchr_text (hfmt : 0 ∉ fmt) (c : UInt8) : strchr (fmt ++ [0]) 0 c = pure (fmt.idxOf? c) :=
  strchr_append (p := []) rfl ⟨fmt, hfmt⟩ c []

/-- An iteration replaces what comes first. -/
theorem formatScan_item (fuel : ℕ) (hfmt : 0 ∉ fmt) (hbuf : buf.Room) {value rest : List UInt8}
    (h : formatItem ft fmt = some (value, rest)) :
    ∃ buf', formatScan ft (fuel + 1) (fmt ++ [0]) buf = formatScan ft fuel (rest ++ [0]) buf' ∧ buf'.Room ∧
      buf'.text = buf.text ++ value := by
  rcases fmt with _ | ⟨c, fmt⟩
  · cases h
  have hc0 : c ≠ 0 := fun h0 => hfmt (h0 ▸ List.mem_cons_self)
  rw [formatItem] at h
  rw [formatScan, Block.load_eq (a := c) rfl, pure_bind, if_neg hc0]
  split_ifs at h with hc
  · obtain ⟨rfl, rfl⟩ := Prod.mk.inj (Option.some.inj h)
    obtain ⟨buf', happend, hroom, htext⟩ := Buffer.append_eq hbuf [c]
    exact ⟨buf', by rw [if_pos hc, happend, pure_bind]; rfl, hroom, htext⟩
  rw [if_neg hc]
  rcases fmt with _ | ⟨ch, fmt⟩
  · cases h
  rw [hashItem] at h
  rw [Block.load_eq (a := ch) rfl, pure_bind]
  have hdrop : (c :: ch :: fmt ++ [0]).drop 2 = fmt ++ [0] := rfl
  have hfmt' : 0 ∉ fmt := fun h0 => hfmt (List.mem_cons_of_mem _ (List.mem_cons_of_mem _ h0))
  split_ifs at h ⊢ with hch
  · obtain ⟨n, hn, h⟩ := Option.bind_eq_some_iff.1 h
    obtain ⟨value', hvalue, h⟩ := Option.bind_eq_some_iff.1 h
    obtain ⟨rfl, rfl⟩ := Prod.mk.inj (Option.some.inj h)
    have hlt := idxOf?_lt hn
    obtain ⟨buf', hreplace, hroom, htext⟩ := formatReplace_eq hbuf hvalue
    refine ⟨buf', ?_, hroom, htext⟩
    dsimp only
    rw [hdrop, strchr_text hfmt', hn, pure_bind]
    dsimp only
    rw [List.take_append_of_le_length (Nat.le_of_lt hlt), List.drop_append_of_le_length hlt, hreplace, pure_bind]
  · dsimp only
    cases halias : formatAliases ch with
    | none =>
      rw [halias] at h
      obtain ⟨rfl, rfl⟩ := Prod.mk.inj (Option.some.inj h)
      obtain ⟨buf', happend, hroom, htext⟩ := Buffer.append_eq hbuf [ch]
      exact ⟨buf', by dsimp only; rw [happend, pure_bind, hdrop], hroom, htext⟩
    | some s =>
      rw [halias] at h
      obtain ⟨value', hvalue, h⟩ := Option.map_eq_some_iff.1 h
      obtain ⟨rfl, rfl⟩ := Prod.mk.inj h
      obtain ⟨buf', hreplace, hroom, htext⟩ := formatReplace_eq hbuf hvalue
      exact ⟨buf', by dsimp only; rw [hreplace, pure_bind, hdrop], hroom, htext⟩

/-- An iteration ends the expansion where nothing more is replaced, unless it takes the null byte. -/
theorem formatScan_end (hfmt : 0 ∉ fmt) (hne : fmt ≠ [35]) (h : formatItem ft fmt = none) :
    formatScan ft (fuel + 1) (fmt ++ [0]) buf = pure buf := by
  rcases fmt with _ | ⟨c, fmt⟩
  · rw [formatScan, Block.load_eq (a := 0) rfl, pure_bind, if_pos rfl]
  have hc0 : c ≠ 0 := fun h0 => hfmt (h0 ▸ List.mem_cons_self)
  rw [formatItem] at h
  rw [formatScan, Block.load_eq (a := c) rfl, pure_bind, if_neg hc0]
  split_ifs at h with hc
  rw [if_neg hc]
  rcases fmt with _ | ⟨ch, fmt⟩
  · exact absurd (congrArg (· :: []) (not_not.1 hc)) hne
  rw [hashItem] at h
  rw [Block.load_eq (a := ch) rfl, pure_bind]
  have hdrop : (c :: ch :: fmt ++ [0]).drop 2 = fmt ++ [0] := rfl
  have hfmt' : 0 ∉ fmt := fun h0 => hfmt (List.mem_cons_of_mem _ (List.mem_cons_of_mem _ h0))
  split_ifs at h ⊢ with hch
  · dsimp only
    rw [hdrop, strchr_text hfmt', pure_bind]
    cases hn : fmt.idxOf? 125 with
    | none => rfl
    | some n =>
      rw [hn] at h
      have hlt := idxOf?_lt hn
      have hvalue : formatValue ft (fmt.take n) = none := by
        rcases hvalue : formatValue ft (fmt.take n) with _ | value
        · rfl
        · simp [hvalue] at h
      dsimp only
      rw [List.take_append_of_le_length (Nat.le_of_lt hlt), formatReplace_none hvalue, pure_bind]
  · dsimp only
    cases halias : formatAliases ch with
    | none => simp [halias] at h
    | some s =>
      rw [halias] at h
      dsimp only
      rw [formatReplace_none (Option.map_eq_none_iff.1 h), pure_bind]

/-- A `#` alone is taken together with the null byte, and nothing is left to be read. -/
theorem formatScan_hash (hbuf : buf.Room) : formatScan ft (fuel + 2) [35, 0] buf = .fault .overread := by
  obtain ⟨buf', happend, -⟩ := Buffer.append_eq hbuf [0]
  rw [formatScan, Block.load_eq (a := 35) rfl, pure_bind, if_neg (by decide), if_neg (by decide),
    Block.load_eq (a := 0) rfl, pure_bind]
  dsimp only
  rw [if_neg (by decide), show formatAliases 0 = none from rfl]
  dsimp only
  rw [happend, pure_bind, formatScan]
  rfl

/-- The expansion of a template ends, except at a `#` that it gets to with nothing after it. -/
theorem formatScan_eq (ft : FormatTree) (hfmt : 0 ∉ fmt) (hbuf : buf.Room) (hfuel : fmt.length < fuel) (hn : fmt.length ≤ n) :
    if takesNull ft n fmt = true then formatScan ft fuel (fmt ++ [0]) buf = .fault .overread
    else ∃ buf', formatScan ft fuel (fmt ++ [0]) buf = pure buf' ∧ buf'.Room ∧
      buf'.text = buf.text ++ expansion ft n fmt := by
  induction n generalizing fmt buf fuel with
  | zero =>
    obtain ⟨fuel, rfl⟩ := Nat.exists_eq_add_of_lt hfuel
    rw [List.length_eq_zero_iff.1 (Nat.le_zero.1 hn)]
    refine ⟨buf, formatScan_end List.not_mem_nil (List.cons_ne_nil _ _).symm rfl, hbuf, ?_⟩
    exact (List.append_nil _).symm
  | succ n ih =>
    obtain ⟨fuel, rfl⟩ : ∃ k, fuel = k + 1 := Nat.exists_eq_succ_of_ne_zero (by omega)
    rw [takesNull, expansion]
    by_cases h35 : fmt = [35]
    · subst h35
      obtain ⟨fuel, rfl⟩ : ∃ k, fuel = k + 1 := Nat.exists_eq_succ_of_ne_zero (by simp at hfuel; omega)
      exact (if_pos rfl).mpr (formatScan_hash hbuf)
    · rw [beq_eq_false_iff_ne.2 h35, Bool.false_or]
      cases hitem : formatItem ft fmt with
      | none =>
        refine (if_neg Bool.false_ne_true).mpr ⟨buf, formatScan_end hfmt h35 hitem, hbuf, ?_⟩
        exact (List.append_nil _).symm
      | some item =>
        obtain ⟨value, rest⟩ := item
        obtain ⟨hlt, hrest⟩ := formatItem_rest hfmt hitem
        obtain ⟨buf₁, hscan, hroom, htext⟩ := formatScan_item fuel hfmt hbuf hitem
        have hfuel' : rest.length < fuel := by omega
        have h := ih hrest hroom hfuel' (by omega)
        dsimp only
        rw [hscan]
        split_ifs at h ⊢ with htakes
        · exact h
        · obtain ⟨buf', h, hroom', htext'⟩ := h
          exact ⟨buf', h, hroom', by rw [htext', htext, List.append_assoc]⟩

/-- The expansion of a template is its text, unless it takes the null byte at the end of the template. -/
theorem formatExpand_eq (ft : FormatTree) (fmt : Text) :
    if takesNull ft fmt.1.length fmt.1 = true then formatExpand ft (fmt.1 ++ [0]) = .fault .overread
    else ∃ r, formatExpand ft (fmt.1 ++ [0]) = pure (expansion ft fmt.1.length fmt.1 ++ 0 :: r) := by
  have hroom : Buffer.Room { data := List.replicate 64 0, off := 0 } := by
    show 0 < (List.replicate 64 (0 : UInt8)).length
    rw [List.length_replicate]
    decide
  have h := formatScan_eq ft fmt.2 hroom (Nat.lt_succ_self _) (Nat.le_refl _)
  rw [formatExpand, List.length_append, List.length_singleton]
  split_ifs at h ⊢
  · rw [h, Exec.fault_bind]
  · obtain ⟨buf', h, hroom', htext⟩ := h
    obtain ⟨r, hfinish⟩ := Buffer.finish_eq hroom'
    refine ⟨r, ?_⟩
    rw [h, pure_bind, hfinish, htext]
    rfl

/-- The template of a conditional. -/
def conditional (key a b : List UInt8) : List UInt8 := 35 :: 123 :: 63 :: (key ++ 44 :: (a ++ 44 :: (b ++ [125])))

theorem idxOf?_append_cons {c : UInt8} {s : List UInt8} (hs : c ∉ s) (r : List UInt8) :
    (s ++ c :: r).idxOf? c = some s.length := by
  have hnone : s.findIdx? (· == c) = none := by
    rw [List.findIdx?_eq_none_iff]
    exact fun x hx => beq_eq_false_iff_ne.2 fun h => hs (h ▸ hx)
  rw [List.idxOf?, List.findIdx?_append, hnone]
  simp [List.findIdx?_cons]

theorem splitComma_append {s : List UInt8} (hs : 44 ∉ s) (r : List UInt8) : splitComma (s ++ 44 :: r) = some (s, r) := by
  rw [splitComma, idxOf?_append_cons hs, Option.map_some, List.take_left, ← List.drop_drop, List.drop_left]
  rfl

/-- A conditional between braces is one item. -/
theorem formatItem_conditional (ft : FormatTree) {key a b : List UInt8} (h : 44 ∉ key ∧ 44 ∉ a)
    (hbrace : 125 ∉ key ∧ 125 ∉ a ∧ 125 ∉ b) :
    formatItem ft (conditional key a b) = some (if formatTrue ft key then a else b, []) := by
  have hkey : 125 ∉ 63 :: (key ++ 44 :: (a ++ 44 :: b)) := by
    simp only [List.mem_cons, List.mem_append, not_or]
    exact ⟨by decide, hbrace.1, by decide, hbrace.2.1, by decide, hbrace.2.2⟩
  have hfmt : 63 :: (key ++ 44 :: (a ++ 44 :: (b ++ [125]))) = 63 :: (key ++ 44 :: (a ++ 44 :: b)) ++ [125] := by
    simp
  have hvalue : formatValue ft (63 :: (key ++ 44 :: (a ++ 44 :: b))) = some (if formatTrue ft key then a else b) := by
    rw [formatValue, if_pos (by rfl), List.tail_cons, splitComma_append h.1, Option.bind_eq_bind, Option.bind_some]
    dsimp only
    rw [splitComma_append h.2]
    rfl
  rw [conditional, formatItem, if_neg (not_not.2 rfl), hashItem, if_pos rfl, hfmt, idxOf?_append_cons hkey,
    Option.bind_eq_bind, Option.bind_some, List.take_left, hvalue, ← List.drop_drop, List.drop_left]
  rfl

/-- The key of a conditional counts as true if it has a value and this is not `0`. -/
theorem formatTrue_iff {key : List UInt8} :
    formatTrue ft key = true ↔ ∃ value, formatFind ft key = some value ∧ value.1 ≠ [48] := by
  unfold formatTrue
  cases formatFind ft key with
  | none => simp
  | some value => simp

theorem notMem_append_append {c : UInt8} {s t u : List UInt8} (h : c ∉ s ++ t ++ u) : c ∉ s ∧ c ∉ t ∧ c ∉ u := by
  rw [List.mem_append, List.mem_append, not_or, not_or] at h
  exact ⟨h.1.1, h.1.2, h.2⟩

/-- Expanding a template stays in it and in the buffer, and ends, exactly if the expansion does not get to a
    `#` right before the null byte. And a conditional stands for its first text if its key has a value other
    than `0`, and for the second one otherwise. -/
theorem formatExpand_iff (ft : FormatTree) :
    (∀ fmt : Text, (∃ buf, formatExpand ft (fmt.1 ++ [0]) = pure buf) ↔ takesNull ft fmt.1.length fmt.1 = false) ∧
    ∀ key a b : List UInt8, 0 ∉ key ++ a ++ b → 44 ∉ key ++ a ++ b → 125 ∉ key ++ a ++ b →
      ((∃ value, formatFind ft key = some value ∧ value.1 ≠ [48]) →
        ∃ r, formatExpand ft (conditional key a b ++ [0]) = pure (a ++ 0 :: r)) ∧
      ((¬ ∃ value, formatFind ft key = some value ∧ value.1 ≠ [48]) →
        ∃ r, formatExpand ft (conditional key a b ++ [0]) = pure (b ++ 0 :: r)) := by
  refine ⟨fun fmt => ?_, fun key a b h0 hcomma hbrace => ?_⟩
  · have h := formatExpand_eq ft fmt
    split_ifs at h with htakes
    · rw [h, htakes]
      constructor
      · rintro ⟨buf, hbuf⟩
        cases hbuf
      · exact fun hfalse => absurd hfalse.symm Bool.false_ne_true
    · obtain ⟨r, h⟩ := h
      exact ⟨fun _ => Bool.eq_false_iff.2 htakes, fun _ => ⟨_, h⟩⟩
  · have h0 := notMem_append_append h0
    have hcomma := notMem_append_append hcomma
    have hitem := formatItem_conditional ft ⟨hcomma.1, hcomma.2.1⟩ (notMem_append_append hbrace)
    have htext : 0 ∉ conditional key a b := by
      simp only [conditional, List.mem_cons, List.mem_append, List.not_mem_nil, not_or]
      exact ⟨by decide, by decide, by decide, h0.1, by decide, h0.2.1, by decide, h0.2.2, by decide, not_false⟩
    have hlen : ∃ n, (conditional key a b).length = n + 2 := ⟨_, rfl⟩
    obtain ⟨n, hn⟩ := hlen
    have h := formatExpand_eq ft ⟨conditional key a b, htext⟩
    have hne : conditional key a b ≠ [35] := fun h => List.cons_ne_nil _ _ (List.cons.inj h).2
    have htakes : takesNull ft (n + 2) (conditional key a b) = false := by
      rw [takesNull, hitem, beq_eq_false_iff_ne.2 hne]
      rfl
    have hexpansion : expansion ft (n + 2) (conditional key a b) = if formatTrue ft key then a else b := by
      rw [expansion, hitem]
      exact List.append_nil _
    have hexpand : ∃ r, formatExpand ft (conditional key a b ++ [0]) =
        pure ((if formatTrue ft key then a else b) ++ 0 :: r) := by
      rw [hn, htakes, hexpansion, if_neg Bool.false_ne_true] at h
      exact h
    rw [← formatTrue_iff]
    refine ⟨fun htrue => ?_, fun hfalse => ?_⟩
    · rwa [if_pos htrue] at hexpand
    · rwa [if_neg hfalse] at hexpand

/-- With a `host` that has a value, a template with a conditional in it. -/
theorem formatExpand_host :
    ((∃ buf, formatExpand [([104], ⟨[120], by decide⟩)] ([35, 123, 104, 125, 33] ++ [0]) = pure buf) ↔
        takesNull [([104], ⟨[120], by decide⟩)] 5 [35, 123, 104, 125, 33] = false) ∧
      ∃ r, formatExpand [([104], ⟨[120], by decide⟩)] (conditional [104] [121] [110] ++ [0]) = pure ([121] ++ 0 :: r) :=
  ⟨(formatExpand_iff [([104], ⟨[120], by decide⟩)]).1 ⟨[35, 123, 104, 125, 33], by decide⟩,
    ((formatExpand_iff [([104], ⟨[120], by decide⟩)]).2 [104] [121] [110] (by decide) (by decide) (by decide)).1
      ⟨⟨[120], by decide⟩, rfl, by decide⟩⟩

/-- The template `a#`, whose `#` is taken together with the null byte. -/
theorem formatExpand_reads_past : formatExpand [] ([97, 35] ++ [0]) = .fault .overread := by
  rfl

end Tmux
