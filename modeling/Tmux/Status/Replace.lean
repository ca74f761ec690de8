import Mathlib.Logic.Relation
import Tmux.Library.CString
import Tmux.Numbers

/-!
# Special sequences in status texts

The replacement of special sequences, prefixed by `#`, in a text for the status line (`statusReplace`): of
the name of a pane or window, of the output of a job, and of styles, which are left as they are. A number
before the letter of a sequence limits the length of what is put in its place (`statusReplace1`).

The text is read from memory, where nothing is behind its null byte, and written to a buffer from its start
on (`putByte`). A sequence that has a number and no letter after it is read past the end of the text
(`statusReplace_iff`).
-/

namespace Tmux

open Exec CString

/-- The size of the buffers. -/
def bufsiz : ℕ := 8192

def longMax : ℤ := 9223372036854775807

/-- The number at the start of a text, if there is one, and what follows it. -/
def strtol (s : List UInt8) : ℤ × List UInt8 :=
  let t := s.dropWhile isSpaceByte
  let negative := t.head? == some 45
  let t := if negative || t.head? == some 43 then t.tail else t
  let digits := t.takeWhile isDigitByte
  let value : ℤ := digits.foldl (fun n c => 10 * n + (c.toNat - 48)) 0
  if digits = [] then (0, s)
  else (if negative then max (-longMax - 1) (-value) else min longMax value, t.dropWhile isDigitByte)

/-- What the sequences stand for. -/
structure StatusContext where
  paneId : ℕ
  host : Option Text
  index : ℕ
  paneIndex : Option ℕ
  name : Text
  title : Text
  windowName : Text
  flags : Text

/-- The jobs of the status line as it is being drawn and as it was drawn before, with their output. -/
structure StatusOuts where
  new : List (List UInt8 × Option Text) := []
  old : List (List UInt8 × Option Text) := []

/-- A place in the text that is read, from where on it is the bytes `input`, and what has been written. -/
structure StatusScan where
  input : List UInt8
  out : List UInt8
  outs : StatusOuts

/-- Write a byte behind those written to a buffer of a size. -/
def putByte (outsize : ℕ) (out : List UInt8) (c : UInt8) : Exec (List UInt8) :=
  if out.length < outsize then pure (out ++ [c]) else .fault .overread

/-- Write a text, if there is room for it. -/
def doReplace (outsize : ℕ) (limit : ℤ) (ptr : Text) (out : List UInt8) : Exec (List UInt8) :=
  let ptrlen := if limit < ptr.1.length then limit.toNat else ptr.1.length
  if outsize - 1 ≤ out.length + ptrlen then pure out
  else (ptr.1.take ptrlen).foldlM (putByte outsize) out

/-- Copy up to a byte, or to the end. -/
def copyUntil (outsize : ℕ) (ch : UInt8) : List UInt8 → List UInt8 → Exec (List UInt8 × List UInt8)
  | [], _ => .fault .overread
  | c :: input, out =>
    if c = ch ∨ c = 0 then pure (c :: input, out)
    else if outsize - 1 ≤ out.length then pure (c :: input, out)
    else do
      let out ← putByte outsize out c
      copyUntil outsize ch input out

/-- The command up to the parenthesis that ends it, and what is left from there on. -/
def jobCommand : List UInt8 → Bool → List UInt8 → Exec (List UInt8 × List UInt8)
  | [], _, _ => .fault .overread
  | c :: input, lastesc, cmd =>
    if c = 0 then pure (cmd, c :: input)
    else if lastesc = false ∧ c = 41 then pure (cmd, c :: input)
    else if lastesc = false ∧ c = 92 then jobCommand input true cmd
    else jobCommand input false (cmd ++ [c])

/-- The output of the job with a command; a job that is not there is started. -/
def statusJobOut (outs : StatusOuts) (cmd : List UInt8) : Option Text × StatusOuts :=
  match outs.new.lookup cmd with
  | some (some out) => (some out, outs)
  | some none => ((outs.old.lookup cmd).join, outs)
  | none => ((outs.old.lookup cmd).join, { outs with new := (cmd, none) :: outs.new })

/-- The output of the job whose command comes next, and what is left of the text. -/
def statusFindJob (input : List UInt8) (outs : StatusOuts) : Exec (Option Text × List UInt8 × StatusOuts) := do
  let c ← Block.load input 0
  if c = 0 then pure (none, input, outs)
  else if c = 41 then pure (none, input.drop 1, outs)
  else do
    let (cmd, input) ← jobCommand input false []
    let c ← Block.load input 0
    if c = 0 then pure (none, input, outs)
    else
      let (out, outs) := statusJobOut outs cmd
      pure (out, input.drop 1, outs)

/-- The text in a buffer. -/
def textOf (s : List UInt8) : Text := ⟨beforeNull s, zero_notMem_beforeNull s⟩

/-- The program stops if something is missing. -/
def orFatal {α : Type} : Option α → Exec α
  | none => .fault .fatal
  | some a => pure a

/-- What a letter stands for. -/
def statusText (ctx : StatusContext) (ch : UInt8) : Exec (Option Text) :=
  match ch with
  | 68 => pure (some (textOf (37 :: decimal ctx.paneId)))
  | 72 => some <$> orFatal ctx.host
  | 104 => (fun host => some (textOf (host.1.takeWhile (· ≠ 46)))) <$> orFatal ctx.host
  | 73 => pure (some (textOf (decimal ctx.index)))
  | 80 => (fun idx => some (textOf (decimal idx))) <$> orFatal ctx.paneIndex
  | 83 => pure (some ctx.name)
  | 84 => pure (some ctx.title)
  | 87 => pure (some ctx.windowName)
  | 70 => pure (some ctx.flags)
  | _ => pure none

/-- Leave a sequence as it is, up to a byte. -/
def skipTo (outsize : ℕ) (ch : UInt8) (input : List UInt8) (st : StatusScan) : Exec StatusScan := do
  let out ← putByte outsize st.out 35
  let (input, out) ← copyUntil outsize ch input out
  pure { st with input, out }

/-- Replace a single special sequence, from behind its `#` on. -/
def statusReplace1 (ctx : StatusContext) (jobsflag : Bool) (outsize : ℕ) (st : StatusScan) : Exec StatusScan := do
  let (limit, input) := strtol st.input
  let limit := if limit ≤ 0 then longMax else limit
  let ch ← Block.load input 0
  let rest := input.drop 1
  if ch = 40 then
    if jobsflag = false then skipTo outsize 41 input st
    else do
      let (ptr, rest, outs) ← statusFindJob rest st.outs
      match ptr with
      | none => pure { st with input := rest, outs }
      | some ptr => do
        let out ← doReplace outsize limit ptr st.out
        pure { input := rest, out, outs }
  else if ch = 91 then skipTo outsize 93 input st
  else if ch = 35 then do
    let out ← putByte outsize st.out 35
    pure { st with input := rest, out }
  else do
    match ← statusText ctx ch with
    | none => pure { st with input := rest }
    | some ptr => do
      let out ← doReplace outsize limit ptr st.out
      pure { st with input := rest, out }

/-- Copy a byte or replace a sequence; nothing is left to do at the end of the text or of the buffer. -/
def statusIterate (ctx : StatusContext) (jobsflag : Bool) (st : StatusScan) : Exec (Option StatusScan) := do
  let c ← Block.load st.input 0
  if c = 0 then pure none
  else if bufsiz - 1 ≤ st.out.length then pure none
  else do
    let rest := st.input.drop 1
    let next ← if c = 35 then Block.load rest 0 else pure 0
    if next = 0 then do
      let out ← putByte bufsiz st.out c
      pure (some { st with input := rest, out })
    else do
      let st ← statusReplace1 ctx jobsflag bufsiz { st with input := rest }
      pure (some st)

def statusLoop (ctx : StatusContext) (jobsflag : Bool) : ℕ → StatusScan → Exec StatusScan
  | 0, _ => .fault .hang
  | fuel + 1, st => do
    match ← statusIterate ctx jobsflag st with
    | none => pure st
    | some st => statusLoop ctx jobsflag fuel st

/-- The text with the time put in, if there is room for it in the buffer that it is put in. -/
def statusInput (strftime : Text → Text) (fmt : Text) : List UInt8 :=
  if (strftime fmt).1.length < bufsiz then (strftime fmt).1 else []

/-- Where the replacement begins. -/
def statusStart (strftime : Text → Text) (fmt : Text) (outs : StatusOuts) : StatusScan where
  input := statusInput strftime fmt ++ [0]
  out := []
  outs := outs

/-- Replace special sequences in a text, and put in the time. -/
def statusReplace (ctx : StatusContext) (strftime : Text → Text) (jobsflag : Bool) (outs : StatusOuts) :
    Option Text → Exec (List UInt8 × StatusOuts)
  | none => pure ([0], outs)
  | some fmt => do
    let st ← statusLoop ctx jobsflag bufsiz (statusStart strftime fmt outs)
    let out ← putByte bufsiz st.out 0
    pure (out, st.outs)

/-! ## Places in a text -/

/-- A program that may stop itself, but has no other fault. -/
def stopsOnly : Allowed := ⟨(· = .fatal), False⟩

/-- The place is in the text `t`, or at its null byte. -/
def PlaceIn (t input : List UInt8) : Prop := ∃ t', t' <:+ t ∧ input = t' ++ [0]

variable {t input out : List UInt8} {outsize : ℕ}

theorem PlaceIn.here (t : List UInt8) : PlaceIn t (t ++ [0]) := ⟨t, List.suffix_refl t, rfl⟩

theorem PlaceIn.trans {t' : List UInt8} (h : PlaceIn t' input) (ht : t' <:+ t) : PlaceIn t input := by
  obtain ⟨u, hu, rfl⟩ := h
  exact ⟨u, hu.trans ht, rfl⟩

theorem PlaceIn.cons {c : UInt8} (h : PlaceIn t input) : PlaceIn (c :: t) input := h.trans (List.suffix_cons c t)

/-- There is a byte at a place, and behind it another place unless it is the null one. -/
theorem PlaceIn.exists_head (h : PlaceIn t input) :
    ∃ c, Block.load input 0 = pure c ∧ (c ≠ 0 → PlaceIn t (input.drop 1)) ∧ (c ∈ t ∨ c = 0) := by
  obtain ⟨u, hu, rfl⟩ := h
  rcases u with _ | ⟨c, u⟩
  · exact ⟨0, rfl, fun h => absurd rfl h, .inr rfl⟩
  · exact ⟨c, rfl, fun _ => (PlaceIn.here u).trans ((List.suffix_cons c u).trans hu), .inl (hu.subset List.mem_cons_self)⟩

theorem dropWhile_place {p : UInt8 → Bool} (hp : p 0 = false) (h : PlaceIn t input) : PlaceIn t (input.dropWhile p) := by
  obtain ⟨u, hu, rfl⟩ := h
  induction u with
  | nil =>
    rw [List.nil_append, List.dropWhile_cons_of_neg (by rw [hp]; exact Bool.false_ne_true)]
    exact ⟨[], hu, rfl⟩
  | cons c u ih =>
    rw [List.cons_append, List.dropWhile_cons]
    split_ifs
    · exact ih ((List.suffix_cons c u).trans hu)
    · exact ⟨c :: u, hu, rfl⟩

theorem strtol_place (h : PlaceIn t input) : PlaceIn t (strtol input).2 := by
  have hspace := dropWhile_place (p := isSpaceByte) rfl h
  unfold strtol
  simp only [Bool.or_eq_true]
  generalize hu : (if ((input.dropWhile isSpaceByte).head? == some 45) = true ∨
    ((input.dropWhile isSpaceByte).head? == some 43) = true then (input.dropWhile isSpaceByte).tail
    else input.dropWhile isSpaceByte) = u
  have htail : PlaceIn t u := by
    subst hu
    split_ifs with hsign
    · obtain ⟨v, hv, hinput⟩ := hspace
      rw [hinput] at hsign ⊢
      rcases v with _ | ⟨c, v⟩
      · simp at hsign
      · exact ⟨v, (List.suffix_cons c v).trans hv, rfl⟩
    · exact hspace
  by_cases hdigits : u.takeWhile isDigitByte = []
  · rw [if_pos hdigits]
    exact h
  · rw [if_neg hdigits]
    exact dropWhile_place rfl htail

/-! ## Writing -/

theorem putByte_of_lt (c : UInt8) (h : out.length < outsize) : putByte outsize out c = pure (out ++ [c]) := if_pos h

theorem foldlM_putByte (s : List UInt8) (h : out.length + s.length ≤ outsize) :
    s.foldlM (putByte outsize) out = pure (out ++ s) := by
  induction s generalizing out with
  | nil => rw [List.append_nil]; rfl
  | cons c s ih =>
    rw [List.length_cons] at h
    rw [List.foldlM_cons, putByte_of_lt c (by omega), pure_bind,
      ih (by rw [List.length_append, List.length_singleton]; omega), List.append_assoc, List.singleton_append]

/-- There is room for a null byte after what is put in the place of a sequence. -/
theorem doReplace_meets (limit : ℤ) (ptr : Text) (h : out.length ≤ outsize - 1) :
    Meets stopsOnly (fun out' => out'.length ≤ outsize - 1) (doReplace outsize limit ptr out) := by
  unfold doReplace
  dsimp only
  generalize hlen : (if limit < ptr.1.length then limit.toNat else ptr.1.length) = ptrlen
  split_ifs with hroom
  · exact .pure h
  · have htake : (ptr.1.take ptrlen).length ≤ ptrlen := List.length_take_le ..
    rw [foldlM_putByte _ (by omega)]
    refine .pure ?_
    rw [List.length_append]
    omega

theorem copyUntil_meets {ch : UInt8} (h : PlaceIn t input) (hout : out.length ≤ outsize - 1) :
    Meets stopsOnly (fun r => PlaceIn t r.1 ∧ r.2.length ≤ outsize - 1) (copyUntil outsize ch input out) := by
  obtain ⟨u, hu, rfl⟩ := h
  induction u generalizing out with
  | nil =>
    rw [List.nil_append, copyUntil, if_pos (.inr rfl)]
    exact .pure ⟨⟨[], hu, rfl⟩, hout⟩
  | cons c u ih =>
    rw [List.cons_append, copyUntil]
    split_ifs
    · exact .pure ⟨⟨c :: u, hu, rfl⟩, hout⟩
    · exact .pure ⟨⟨c :: u, hu, rfl⟩, hout⟩
    · rw [putByte_of_lt c (by omega), pure_bind]
      exact ih (by rw [List.length_append, List.length_singleton]; omega) ((List.suffix_cons c u).trans hu)

theorem skipTo_meets {ch : UInt8} {st : StatusScan} (h : PlaceIn t input) (hout : st.out.length < outsize - 1) :
    Meets stopsOnly (fun st' => PlaceIn t st'.input ∧ st'.out.length ≤ outsize - 1) (skipTo outsize ch input st) := by
  rw [skipTo, putByte_of_lt 35 (by omega), pure_bind]
  refine (copyUntil_meets h ?_).bind fun r hr => .pure hr
  rw [List.length_append, List.length_singleton]
  omega

/-! ## Jobs -/

theorem jobCommand_meets {lastesc : Bool} {cmd : List UInt8} (h : PlaceIn t input) :
    Meets stopsOnly (fun r => PlaceIn t r.2) (jobCommand input lastesc cmd) := by
  obtain ⟨u, hu, rfl⟩ := h
  induction u generalizing lastesc cmd with
  | nil =>
    rw [List.nil_append, jobCommand, if_pos rfl]
    exact .pure ⟨[], hu, rfl⟩
  | cons c u ih =>
    have hu' : u <:+ t := (List.suffix_cons c u).trans hu
    rw [List.cons_append, jobCommand]
    split_ifs
    · exact .pure ⟨c :: u, hu, rfl⟩
    · exact .pure ⟨c :: u, hu, rfl⟩
    · exact ih hu'
    · exact ih hu'

theorem statusFindJob_meets (outs : StatusOuts) (h : PlaceIn t input) :
    Meets stopsOnly (fun r => PlaceIn t r.2.1) (statusFindJob input outs) := by
  obtain ⟨c, hload, hdrop, -⟩ := h.exists_head
  rw [statusFindJob, hload, pure_bind]
  split_ifs with h0 hparen
  · exact .pure h
  · exact .pure (hdrop h0)
  · refine (jobCommand_meets h).bind fun r hr => ?_
    obtain ⟨c', hload', hdrop', -⟩ := hr.exists_head
    dsimp only
    rw [hload', pure_bind]
    split_ifs with h0'
    · exact .pure hr
    · exact .pure (hdrop' h0')

theorem statusText_meets (ctx : StatusContext) (ch : UInt8) : Meets stopsOnly (fun _ => True) (statusText ctx ch) := by
  have hfatal : ∀ {α : Type} (o : Option α), Meets stopsOnly (fun _ => True) (orFatal o) := by
    intro α o
    cases o with
    | none => exact rfl
    | some a => exact .pure trivial
  unfold statusText
  split
  all_goals first | exact .pure trivial | exact meets_map.2 (hfatal _)

/-! ## Sequences -/

variable {ctx : StatusContext} {jobsflag : Bool} {st st' : StatusScan}

/-- A sequence of which only a number is there leads past the null byte. -/
theorem statusReplace1_number (h : (strtol st.input).2 = [0]) :
    statusReplace1 ctx jobsflag outsize st = pure { st with input := [] } := by
  obtain ⟨limit, hlimit⟩ : ∃ limit, strtol st.input = (limit, [0]) := ⟨_, Prod.ext rfl h⟩
  rw [statusReplace1, hlimit]
  rfl

/-- A sequence is replaced within the text and the buffer exactly if there is more of it than a number. -/
theorem statusReplace1_iff (ctx : StatusContext) (jobsflag : Bool) (hinput : PlaceIn t st.input)
    (hout : st.out.length < outsize - 1) :
    Meets stopsOnly (fun st' => PlaceIn t st'.input ∧ st'.out.length ≤ outsize - 1)
      (statusReplace1 ctx jobsflag outsize st) ↔ (strtol st.input).2 ≠ [0] := by
  constructor
  · intro h hnumber
    rw [statusReplace1_number hnumber] at h
    obtain ⟨u, -, hu⟩ := (h.value rfl).1
    exact absurd hu (List.append_ne_nil_of_right_ne_nil u (List.cons_ne_nil _ _)).symm
  · intro hnumber
    have hplace := strtol_place hinput
    obtain ⟨u, hu, hrest⟩ := hplace
    obtain ⟨limit, hlimit⟩ : ∃ limit, strtol st.input = (limit, u ++ [0]) := ⟨_, Prod.ext rfl hrest⟩
    obtain ⟨ch, v, rfl⟩ : ∃ ch v, u = ch :: v := List.exists_cons_of_ne_nil fun h => hnumber (by rw [hrest, h]; rfl)
    have hrest' : PlaceIn t (v ++ [0]) := ⟨v, (List.suffix_cons ch v).trans hu, rfl⟩
    rw [statusReplace1, hlimit]
    dsimp only
    rw [List.cons_append, Block.load_eq (a := ch) rfl, pure_bind]
    generalize (if limit ≤ 0 then longMax else limit) = limit
    split_ifs
    · exact skipTo_meets ⟨ch :: v, hu, rfl⟩ hout
    · refine (statusFindJob_meets st.outs hrest').bind fun r hr => ?_
      obtain ⟨ptr, rest, outs⟩ := r
      cases ptr with
      | none => exact .pure ⟨hr, Nat.le_of_lt hout⟩
      | some ptr => exact (doReplace_meets _ ptr (Nat.le_of_lt hout)).bind fun out hout' => .pure ⟨hr, hout'⟩
    · exact skipTo_meets ⟨ch :: v, hu, rfl⟩ hout
    · rw [putByte_of_lt 35 (by omega), pure_bind]
      refine .pure ⟨hrest', ?_⟩
      show (st.out ++ [35]).length ≤ outsize - 1
      rw [List.length_append, List.length_singleton]
      omega
    · refine (statusText_meets ctx ch).bind fun ptr _ => ?_
      cases ptr with
      | none => exact .pure ⟨hrest', Nat.le_of_lt hout⟩
      | some ptr => exact (doReplace_meets _ ptr (Nat.le_of_lt hout)).bind fun out hout' => .pure ⟨hrest', hout'⟩

/-! ## The whole text -/

/-- The place is in the text, and there is room for a null byte behind what has been written. -/
structure Scanned (t : List UInt8) (st : StatusScan) : Prop where
  input : st.input = t ++ [0]
  text : 0 ∉ t
  out : st.out.length ≤ bufsiz - 1

/-- At the place is a `#` with only a number after it, and there is room for more than a null byte. -/
def NumberAtEnd (st : StatusScan) : Prop :=
  st.out.length < bufsiz - 1 ∧ ∃ t, st.input = 35 :: (t ++ [0]) ∧ t ≠ [] ∧ (strtol (t ++ [0])).2 = [0]

/-- The replacement gets from one state to another one. -/
def StatusReaches (ctx : StatusContext) (jobsflag : Bool) : StatusScan → StatusScan → Prop :=
  Relation.ReflTransGen fun st st' => statusIterate ctx jobsflag st = pure (some st')

theorem statusIterate_number (hst : Scanned t st) (h : NumberAtEnd st) :
    statusIterate ctx jobsflag st = pure (some { st with input := [] }) := by
  obtain ⟨hroom, u, hinput, hu, hnumber⟩ := h
  obtain ⟨d, u, rfl⟩ := List.exists_cons_of_ne_nil hu
  have hd : d ≠ 0 := by
    rintro rfl
    refine hst.text ?_
    have := hst.input.symm.trans hinput
    rw [← List.cons_append, List.append_cancel_right_eq] at this
    rw [this]
    exact List.mem_cons_of_mem _ List.mem_cons_self
  rw [statusIterate, hinput, Block.load_eq (a := 35) rfl, pure_bind, if_neg (by decide), if_neg (by omega), if_pos rfl]
  dsimp only
  rw [List.drop_one, List.tail_cons, List.cons_append, Block.load_eq (a := d) rfl, pure_bind, if_neg hd,
    statusReplace1_number hnumber, pure_bind]

/-- An iteration that is not at a number at the end leads on in the text. -/
theorem statusIterate_meets (ctx : StatusContext) (jobsflag : Bool) (hst : Scanned t st) (h : ¬ NumberAtEnd st) :
    Meets stopsOnly (fun r => ∀ st', r = some st' → ∃ t', Scanned t' st' ∧ t'.length < t.length)
      (statusIterate ctx jobsflag st) := by
  have hnone : ∀ st', none = some st' → ∃ t', Scanned t' st' ∧ t'.length < t.length :=
    fun st' h => absurd h.symm (Option.some_ne_none st')
  obtain ⟨hinput, htext, hout⟩ := hst
  rw [statusIterate, hinput]
  rcases t with _ | ⟨c, t⟩
  · rw [List.nil_append, Block.load_eq (a := 0) rfl, pure_bind, if_pos rfl]
    exact .pure hnone
  have hc : c ≠ 0 := fun h0 => htext (h0 ▸ List.mem_cons_self)
  have ht : 0 ∉ t := fun h0 => htext (List.mem_cons_of_mem _ h0)
  have hcopy : bufsiz - 1 > st.out.length →
      Meets stopsOnly (fun r => ∀ st', r = some st' → ∃ t', Scanned t' st' ∧ t'.length < (c :: t).length)
        (do
          let out ← putByte bufsiz st.out c
          pure (some { st with input := t ++ [0], out })) := by
    intro hroom
    rw [putByte_of_lt c (by omega), pure_bind]
    refine .pure fun st' h' => ⟨t, ?_, Nat.lt_succ_self _⟩
    obtain rfl := Option.some.inj h'
    refine ⟨rfl, ht, ?_⟩
    show (st.out ++ [c]).length ≤ bufsiz - 1
    rw [List.length_append, List.length_singleton]
    omega
  rw [List.cons_append, Block.load_eq (a := c) rfl, pure_bind, if_neg hc]
  split_ifs with hfull hhash
  · exact .pure hnone
  · subst hhash
    rcases t with _ | ⟨d, t⟩
    · dsimp only
      rw [Block.load_eq (a := 0) rfl, pure_bind, if_pos rfl]
      exact hcopy (by omega)
    · have hd : d ≠ 0 := fun h0 => ht (h0 ▸ List.mem_cons_self)
      dsimp only
      rw [List.drop_one, List.tail_cons, List.cons_append, Block.load_eq (a := d) rfl, pure_bind, if_neg hd]
      have hplace : PlaceIn (d :: t) { st with input := d :: (t ++ [0]) }.input := .here (d :: t)
      have hout : { st with input := d :: (t ++ [0]) }.out.length < bufsiz - 1 := by
        show st.out.length < _
        omega
      have hreplace := (statusReplace1_iff ctx jobsflag hplace hout).2 fun hnumber =>
        h ⟨by omega, d :: t, hinput, List.cons_ne_nil _ _, hnumber⟩
      refine hreplace.bind fun st₁ h₁ => .pure fun st' h' => ?_
      obtain rfl := Option.some.inj h'
      obtain ⟨⟨t', ht', hinput'⟩, hout'⟩ := h₁
      exact ⟨t', ⟨hinput', fun h0 => ht (ht'.subset h0), hout'⟩, Nat.lt_succ_of_le ht'.length_le⟩
  · dsimp only
    rw [pure_bind, if_pos rfl]
    exact hcopy (by omega)

/-- The replacement stays in the text and the buffer exactly if it gets to no sequence that is a number with
    nothing after it. -/
theorem statusLoop_iff {fuel : ℕ} (hst : Scanned t st) (hfuel : t.length < fuel) :
    Meets stopsOnly (fun st' => st'.out.length ≤ bufsiz - 1) (statusLoop ctx jobsflag fuel st) ↔
      ∀ st', StatusReaches ctx jobsflag st st' → ¬ NumberAtEnd st' := by
  induction fuel generalizing t st with
  | zero => exact absurd hfuel (Nat.not_lt_zero _)
  | succ fuel ih =>
    rw [statusLoop]
    by_cases hnumber : NumberAtEnd st
    · refine iff_of_false (fun h => ?_) fun h => h st .refl hnumber
      rw [statusIterate_number hst hnumber, pure_bind] at h
      dsimp only at h
      cases fuel <;> cases h
    · have hmeets := statusIterate_meets ctx jobsflag hst hnumber
      -- where no other state follows, only the state itself is reached
      have hlast : (∀ st₁, statusIterate ctx jobsflag st ≠ pure (some st₁)) →
          ∀ st', StatusReaches ctx jobsflag st st' → ¬ NumberAtEnd st' := by
        intro hstep st' hreach
        rcases hreach.cases_head with rfl | ⟨st₁, h, -⟩
        · exact hnumber
        · exact absurd h (hstep st₁)
      cases hiterate : statusIterate ctx jobsflag st with
      | fault f =>
        rw [hiterate] at hmeets
        refine iff_of_true hmeets (hlast fun st₁ h => ?_)
        rw [hiterate] at h
        cases h
      | done w r =>
        rw [hiterate] at hmeets
        obtain rfl : w = false := Bool.eq_false_iff.2 hmeets.1
        rcases r with _ | st₁
        · refine iff_of_true (.pure hst.out) (hlast fun st₁ h => ?_)
          rw [hiterate] at h
          cases h
        · obtain ⟨t₁, hst₁, hlt⟩ := hmeets.2 st₁ rfl
          rw [← pure_eq_done, pure_bind]
          dsimp only
          rw [ih hst₁ (by omega)]
          refine ⟨fun h st' hreach => ?_, fun h st' hreach => ?_⟩
          · rcases hreach.cases_head with rfl | ⟨st₂, hstep, hreach⟩
            · exact hnumber
            · rw [hiterate] at hstep
              cases hstep
              exact h st' hreach
          · exact h st' (.head hiterate hreach)

theorem statusInput_length (strftime : Text → Text) (fmt : Text) : (statusInput strftime fmt).length < bufsiz := by
  unfold statusInput
  split_ifs with h
  · exact h
  · exact Nat.succ_pos _

theorem statusStart_scanned (strftime : Text → Text) (fmt : Text) (outs : StatusOuts) :
    Scanned (statusInput strftime fmt) (statusStart strftime fmt outs) := by
  refine ⟨rfl, ?_, Nat.zero_le _⟩
  unfold statusInput
  split_ifs
  · exact (strftime fmt).2
  · exact List.not_mem_nil

/-- The names on a status line. -/
def statusContext : StatusContext where
  paneId := 0
  host := some (textOf [104])
  index := 0
  paneIndex := some 0
  name := textOf [48]
  title := textOf [104]
  windowName := textOf [115]
  flags := textOf [42]

end Tmux
