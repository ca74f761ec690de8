import Tmux.Arguments
import Tmux.Library.CString

/-!
# Printing commands

A command is printed with its flags and arguments (`argsPrint`, `cmdPrint`), and a list of commands with
semicolons between them (`cmdListPrint`), into a number of bytes at an address. What is printed is told
apart from how it gets there: `argsText`, `cmdText` and `cmdListText` are the texts.

* A text that fits is printed as a whole, and its length is returned (`argsPrint_of_lt`, `cmdPrint_of_lt`,
  `printCmds_of_lt`).
* Where it does not fit, the length of what would have been printed is returned, or a byte past the end is
  written (`argsPrint_of_le`, `cmdPrint_of_le`, `printCmds_of_le`).
-/

namespace Tmux

open Exec CString

/-- The arguments of a command as they are stored: which flags are set, the values of those that have one,
    and the arguments after them. -/
structure StoredArgs where
  flags : ℕ → Bool
  values : ℕ → Option Text
  argv : List Text

structure StoredCmd where
  name : Text
  args : StoredArgs

def scharMax : ℕ := 127

/-- Print a text into `n` bytes at an address, if the numbers of bytes are signed words. -/
def xsnprintf (m : List UInt8) (i n : ℕ) (s : List UInt8) : Exec (List UInt8 × ℕ) :=
  if intMax < n ∨ intMax < s.length then .fault .fatal else snprint m i n s

/-- A text with a space in it is put between quotes. -/
def quoted (s : Text) : List UInt8 := if 32 ∈ s.1 then 34 :: (s.1 ++ [34]) else s.1

namespace StoredArgs

variable (args : StoredArgs)

/-- The flags without a value. -/
def plain : List UInt8 :=
  ((List.range scharMax).filter fun i => args.flags i && (args.values i).isNone).map UInt8.ofNat

/-- The flags with a value, and their values. -/
def valued : List (List UInt8) :=
  (List.range scharMax).filterMap fun i =>
    if args.flags i then (args.values i).map fun v => 45 :: UInt8.ofNat i :: 32 :: quoted v else none

end StoredArgs

/-- A word is printed with a space before it, unless it is the first one. -/
def spaced (off : ℕ) (s : List UInt8) : List UInt8 := if off ≠ 0 then 32 :: s else s

/-- Print flags; nothing is returned if the buffer is full. -/
def printFlags (b len : ℕ) : List UInt8 → List UInt8 → ℕ → Exec (List UInt8 × Option ℕ)
  | [], m, off => pure (m, some off)
  | i :: is, m, off =>
    if off = len - 1 then do
      let m ← Block.store m (b + off) 0
      pure (m, none)
    else do
      let m ← Block.store m (b + off) i
      let m ← Block.store m (b + off + 1) 0
      printFlags b len is m (off + 1)

/-- A dash with no flag after it is taken back. -/
def dropDash (b : ℕ) (m : List UInt8) (off : ℕ) : Exec (List UInt8 × ℕ) :=
  if off = 1 then do
    let m ← Block.store m b 0
    pure (m, 0)
  else pure (m, off)

/-- Print words; nothing is returned if the buffer is full before the last one. -/
def printWords (b len : ℕ) : List (List UInt8) → List UInt8 → ℕ → Exec (List UInt8 × Option ℕ)
  | [], m, off => pure (m, some off)
  | s :: ss, m, off =>
    if len ≤ off then pure (m, none)
    else do
      let (m, n) ← xsnprintf m (b + off) (len - off) (spaced off s)
      printWords b len ss m (off + n)

/-- Go on unless the buffer is full. -/
def unlessFull (len : ℕ) (r : List UInt8 × Option ℕ) (f : List UInt8 → ℕ → Exec (List UInt8 × ℕ)) :
    Exec (List UInt8 × ℕ) :=
  match r.2 with
  | none => pure (r.1, len)
  | some off => f r.1 off

def argsPrint (args : StoredArgs) (m : List UInt8) (b len : ℕ) : Exec (List UInt8 × ℕ) :=
  if len = 0 then pure (m, 0)
  else do
    let m ← Block.store m b 45
    let r ← printFlags b len args.plain m 1
    unlessFull len r fun m off => do
      let (m, off) ← dropDash b m off
      let r ← printWords b len args.valued m off
      unlessFull len r fun m off => do
        let r ← printWords b len (args.argv.map quoted) m off
        unlessFull len r fun m off => pure (m, off)

def cmdPrint (cmd : StoredCmd) (m : List UInt8) (b len : ℕ) : Exec (List UInt8 × ℕ) := do
  let (m, off) ← xsnprintf m b len (cmd.name.1 ++ [32])
  if off < len then do
    let (m, used) ← argsPrint cmd.args m (b + off) (len - off)
    let off := if used = 0 then off - 1 else off + used
    let m ← Block.store m (b + off) 0
    pure (m, off)
  else pure (m, off)

/-- Print the commands of a list from the offset `off` on. -/
def printCmds (b len : ℕ) : List StoredCmd → List UInt8 → ℕ → Exec (List UInt8 × ℕ)
  | [], m, off => pure (m, off)
  | cmd :: cmds, m, off =>
    if len ≤ off then pure (m, off)
    else do
      let (m, n) ← cmdPrint cmd m (b + off) (len - off)
      let off := off + n
      if len ≤ off then pure (m, off)
      else if cmds ≠ [] then do
        let (m, n) ← xsnprintf m (b + off) (len - off) [32, 59, 32]
        printCmds b len cmds m (off + n)
      else printCmds b len cmds m off

def cmdListPrint (cmdlist : List StoredCmd) (m : List UInt8) (b len : ℕ) : Exec (List UInt8 × ℕ) :=
  printCmds b len cmdlist m 0

/-! ## What is printed -/

/-- The flags without a value, as they are printed. -/
def flagsText (args : StoredArgs) : List UInt8 := if args.plain = [] then [] else 45 :: args.plain

/-- What comes after the flags without a value. -/
def argsWords (args : StoredArgs) : List (List UInt8) := args.valued ++ args.argv.map quoted

/-- Words added to a text, with a space before each. -/
def withWords (ss : List (List UInt8)) (t : List UInt8) : List UInt8 :=
  ss.foldl (fun t s => t ++ spaced t.length s) t

def argsText (args : StoredArgs) : List UInt8 := withWords (argsWords args) (flagsText args)

/-- A command with a space after its name. -/
def cmdText (cmd : StoredCmd) : List UInt8 := cmd.name.1 ++ 32 :: argsText cmd.args

/-- A command, without the space after its name if nothing follows. -/
def cmdTrimmed (cmd : StoredCmd) : List UInt8 := if argsText cmd.args = [] then cmd.name.1 else cmdText cmd

/-- A list of commands with semicolons between them, and with a space after the name of the last one. -/
def cmdListText : List StoredCmd → List UInt8
  | [] => []
  | [cmd] => cmdText cmd
  | cmd :: cmds => cmdTrimmed cmd ++ 32 :: 59 :: 32 :: cmdListText cmds

/-- A list of commands with semicolons between them. -/
def cmdListTrimmed : List StoredCmd → List UInt8
  | [] => []
  | [cmd] => cmdTrimmed cmd
  | cmd :: cmds => cmdTrimmed cmd ++ 32 :: 59 :: 32 :: cmdListTrimmed cmds

theorem length_le_withWords (ss : List (List UInt8)) (t : List UInt8) : t.length ≤ (withWords ss t).length := by
  induction ss generalizing t with
  | nil => exact Nat.le_refl _
  | cons s ss ih =>
    have := ih (t ++ spaced t.length s)
    rw [List.length_append] at this
    exact Nat.le_trans (Nat.le_add_right _ _) this

/-! ## Text that fits -/

variable {b len off : ℕ} {p t q : List UInt8} {args : StoredArgs} {cmd : StoredCmd}

theorem xsnprintf_of_lt {s : List UInt8} {i n : ℕ} (hp : p.length = i) (hq : q.length = n) (hs : s.length < n)
    (hn : n ≤ intMax) : xsnprintf (p ++ q) i n s = pure (p ++ (s ++ 0 :: q.drop (s.length + 1)), s.length) := by
  rw [xsnprintf, if_neg (by omega), snprint_of_lt hp hq hs]

/-- Flags that fit are printed, with a null byte after the last one. -/
theorem printFlags_of_lt (is : List UInt8) (hp : p.length = b + off) (hq : off + q.length = len)
    (hfit : off + is.length < len) :
    ∃ q', printFlags b len is (p ++ q) off = pure (p ++ (is ++ q'), some (off + is.length)) ∧
      off + is.length + q'.length = len ∧ (is ≠ [] → ∃ r, q' = 0 :: r) := by
  induction is generalizing p q off with
  | nil => exact ⟨q, rfl, hq, fun h => absurd rfl h⟩
  | cons i is ih =>
    rw [List.length_cons] at hfit
    obtain ⟨x, q, rfl⟩ : ∃ x q', q = x :: q' := List.exists_cons_of_ne_nil fun h => by
      rw [h, List.length_nil] at hq
      omega
    obtain ⟨y, q, rfl⟩ : ∃ y q', q = y :: q' := List.exists_cons_of_ne_nil fun h => by
      rw [h, List.length_singleton] at hq
      omega
    simp only [List.length_cons] at hq
    have hp' : (p ++ [i]).length = b + (off + 1) := by rw [List.length_append, List.length_singleton, hp, Nat.add_assoc]
    have hq' : off + 1 + (0 :: q).length = len := by rw [List.length_cons]; omega
    obtain ⟨q', hrest, hlen, hnull⟩ := ih hp' hq' (by omega)
    have hi : p ++ i :: y :: q = (p ++ [i]) ++ y :: q := by rw [List.append_assoc, List.singleton_append]
    refine ⟨q', ?_, by rw [List.length_cons]; omega, fun _ => ?_⟩
    · rw [printFlags, if_neg (by omega), store_append hp, pure_bind, hi,
        store_append (by rw [List.length_append, List.length_singleton]; omega), pure_bind, hrest, List.length_cons]
      rw [List.append_assoc, List.singleton_append, List.cons_append, Nat.add_assoc, Nat.add_comm 1]
    · rcases is with _ | ⟨j, is⟩
      · obtain ⟨h, -⟩ := Prod.mk.inj (pure_inj.1 hrest)
        exact ⟨q, (List.append_cancel_left h).symm⟩
      · exact hnull (List.cons_ne_nil _ _)

/-- Words that fit are printed. -/
theorem printWords_of_lt (ss : List (List UInt8)) {r : List UInt8} (hp : p.length = b)
    (hr : t.length + 1 + r.length = len) (hmax : ss = [] ∨ len - t.length ≤ intMax)
    (hfit : (withWords ss t).length < len) :
    ∃ r', printWords b len ss (p ++ (t ++ 0 :: r)) t.length =
        pure (p ++ (withWords ss t ++ 0 :: r'), some (withWords ss t).length) ∧
      (withWords ss t).length + 1 + r'.length = len := by
  induction ss generalizing t r with
  | nil => exact ⟨r, rfl, hr⟩
  | cons s ss ih =>
    have hmax' := hmax.resolve_left (List.cons_ne_nil _ _)
    have hle := length_le_withWords ss (t ++ spaced t.length s)
    have hfit' : (withWords ss (t ++ spaced t.length s)).length < len := hfit
    have hlen : (t ++ spaced t.length s).length = t.length + (spaced t.length s).length := List.length_append
    have hprint := xsnprintf_of_lt (p := p ++ t) (q := 0 :: r) (s := spaced t.length s) (i := b + t.length)
      (n := len - t.length) (by rw [List.length_append, hp]) (by rw [List.length_cons]; omega) (by omega) hmax'
    rw [List.append_assoc] at hprint
    obtain ⟨r', hrest, hlen'⟩ := ih (t := t ++ spaced t.length s) (r := (0 :: r).drop ((spaced t.length s).length + 1))
      (by rw [List.length_drop, List.length_cons]; omega) (.inr (by omega)) hfit'
    refine ⟨r', ?_, hlen'⟩
    rw [printWords, if_neg (by omega), hprint, pure_bind]
    rw [hlen, List.append_assoc] at hrest
    rw [List.append_assoc]
    exact hrest

/-- Words may be printed in two goes. -/
theorem printWords_append (ss ss' : List (List UInt8)) (m : List UInt8) (off : ℕ) :
    (do
      let r ← printWords b len ss m off
      unlessFull len r fun m off => do
        let r ← printWords b len ss' m off
        unlessFull len r fun m off => pure (m, off)) =
    (do
      let r ← printWords b len (ss ++ ss') m off
      unlessFull len r fun m off => pure (m, off)) := by
  induction ss generalizing m off with
  | nil => rw [printWords, pure_bind]; rfl
  | cons s ss ih =>
    rw [List.cons_append, printWords, printWords]
    split_ifs with hfull
    · rw [pure_bind, pure_bind]
      rfl
    · simp only [bind_assoc]
      refine bind_congr fun r => ?_
      exact ih r.1 (off + r.2)

/-- The arguments in two goes: the flags without a value, then the words. -/
theorem argsPrint_eq (args : StoredArgs) (m : List UInt8) (b len : ℕ) :
    argsPrint args m b len = if len = 0 then pure (m, 0) else (do
      let m ← Block.store m b 45
      let r ← printFlags b len args.plain m 1
      unlessFull len r fun m off => do
        let (m, off) ← dropDash b m off
        let r ← printWords b len (argsWords args) m off
        unlessFull len r fun m off => pure (m, off)) := by
  unfold argsPrint argsWords
  simp only [printWords_append]

/-- The flags are printed, where there are any, or the buffer is left empty. -/
theorem printFlags_bind (args : StoredArgs) (k : List UInt8 → ℕ → Exec (List UInt8 × ℕ)) (hp : p.length = b)
    (hq : q.length = len) (hlen : 0 < len) (hfit : (flagsText args).length < len) :
    ∃ r, (do
        let m ← Block.store (p ++ q) b 45
        let r ← printFlags b len args.plain m 1
        unlessFull len r fun m off => do
          let (m, off) ← dropDash b m off
          k m off) = k (p ++ (flagsText args ++ 0 :: r)) (flagsText args).length ∧
      (flagsText args).length + 1 + r.length = len := by
  obtain ⟨x, q, rfl⟩ := List.exists_cons_of_ne_nil (List.ne_nil_of_length_pos (hq.symm ▸ hlen))
  rw [List.length_cons] at hq
  rw [store_append hp, pure_bind]
  unfold flagsText at hfit ⊢
  split_ifs at hfit ⊢ with hplain
  · refine ⟨q, ?_, by simpa [Nat.add_comm] using hq⟩
    rw [hplain, printFlags, pure_bind]
    show (do let (m, off) ← dropDash b (p ++ 45 :: q) 1; k m off) = _
    rw [dropDash, if_pos rfl, store_append hp, pure_bind, pure_bind]
    rfl
  · rw [List.length_cons] at hfit
    have hp' : (p ++ [45]).length = b + 1 := by rw [List.length_append, List.length_singleton, hp]
    have hq' : 1 + q.length = len := by omega
    obtain ⟨q', hprint, hlen', hnull⟩ := printFlags_of_lt args.plain hp' hq' (by omega)
    obtain ⟨r, rfl⟩ := hnull hplain
    refine ⟨r, ?_, by rw [List.length_cons] at hlen' ⊢; omega⟩
    rw [List.append_assoc, List.append_assoc, List.singleton_append, List.singleton_append] at hprint
    have hpos := List.length_pos_iff.2 hplain
    rw [hprint, pure_bind, List.length_cons, List.cons_append, Nat.add_comm args.plain.length 1]
    show (do let (m, off) ← dropDash b _ (1 + args.plain.length); k m off) = _
    rw [dropDash, if_neg (by omega), pure_bind]

/-- Arguments that fit are printed. -/
theorem argsPrint_of_lt (args : StoredArgs) (hp : p.length = b) (hq : q.length = len)
    (hmax : argsWords args = [] ∨ len - (flagsText args).length ≤ intMax) (hfit : (argsText args).length < len) :
    ∃ r, argsPrint args (p ++ q) b len = pure (p ++ (argsText args ++ 0 :: r), (argsText args).length) ∧
      (argsText args).length + 1 + r.length = len := by
  have hflags := length_le_withWords (argsWords args) (flagsText args)
  obtain ⟨r, hprint, hr⟩ := printFlags_bind args (fun m off => do
    let r ← printWords b len (argsWords args) m off
    unlessFull len r fun m off => pure (m, off)) hp hq (by omega) (Nat.lt_of_le_of_lt hflags hfit)
  obtain ⟨r', hwords, hr'⟩ := printWords_of_lt (argsWords args) hp hr hmax hfit
  refine ⟨r', ?_, hr'⟩
  rw [argsPrint_eq, if_neg (by omega), hprint, hwords]
  rfl

/-- A command that fits with a space after its name is printed. -/
theorem cmdPrint_of_lt (cmd : StoredCmd) (hp : p.length = b) (hq : q.length = len) (hmax : len ≤ intMax)
    (hfit : (cmdText cmd).length < len) :
    ∃ r, cmdPrint cmd (p ++ q) b len = pure (p ++ (cmdTrimmed cmd ++ 0 :: r), (cmdTrimmed cmd).length) ∧
      (cmdTrimmed cmd).length + 1 + r.length = len := by
  have hname : (cmd.name.1 ++ [32]).length = cmd.name.1.length + 1 := by
    rw [List.length_append, List.length_singleton]
  have htext : (cmdText cmd).length = cmd.name.1.length + 1 + (argsText cmd.args).length := by
    rw [cmdText, List.length_append, List.length_cons]
    omega
  have hp' : (p ++ (cmd.name.1 ++ [32])).length = b + (cmd.name.1.length + 1) := by rw [List.length_append, hname, hp]
  have hq' : (0 :: q.drop (cmd.name.1.length + 1 + 1)).length = len - (cmd.name.1.length + 1) := by
    rw [List.length_cons, List.length_drop]
    omega
  obtain ⟨r, hprint, hr⟩ := argsPrint_of_lt cmd.args hp' hq' (.inr (by omega)) (by omega)
  rw [List.append_assoc] at hprint
  rw [cmdPrint, xsnprintf_of_lt hp hq (by omega) hmax, pure_bind, hname]
  dsimp only
  rw [if_pos (by omega), hprint, pure_bind]
  dsimp only
  unfold cmdTrimmed cmdText
  split_ifs with h0 hnil hnil
  · refine ⟨0 :: r, ?_, by rw [List.length_cons]; omega⟩
    have hstore := store_append (p := p ++ cmd.name.1) (i := b + cmd.name.1.length)
      (by rw [List.length_append, hp]) 32 0 (0 :: r)
    rw [List.append_assoc, List.append_assoc] at hstore
    rw [hnil, List.nil_append, List.append_assoc, List.append_assoc, List.singleton_append, Nat.add_sub_cancel, hstore,
      pure_bind]
  · exact absurd (List.length_eq_zero_iff.1 h0) hnil
  · exact absurd (congrArg List.length hnil) h0
  · refine ⟨r, ?_, by rw [List.length_append, List.length_cons]; omega⟩
    have hstore := store_append (p := p ++ (cmd.name.1 ++ 32 :: argsText cmd.args))
      (i := b + (cmd.name.1.length + 1 + (argsText cmd.args).length))
      (by simp only [List.length_append, List.length_cons, hp]; omega) 0 0 r
    rw [List.append_assoc, List.append_assoc, List.cons_append] at hstore
    rw [List.append_assoc, List.append_assoc, List.singleton_append, hstore, pure_bind, List.append_assoc,
      List.cons_append, List.length_append, List.length_cons, Nat.add_assoc, Nat.add_comm 1]

/-- A command is printed without the space after its name if nothing is behind it. -/
theorem cmdTrimmed_length (cmd : StoredCmd) :
    (cmdTrimmed cmd).length ≤ (cmdText cmd).length ∧ (cmdText cmd).length ≤ (cmdTrimmed cmd).length + 1 := by
  unfold cmdTrimmed cmdText
  split_ifs with hnil
  · rw [hnil, List.length_append, List.length_singleton]
    omega
  · omega

/-- The separator is printed after a command. -/
theorem separator_of_lt {r : List UInt8} (hp : p.length = b + off) (hr : off + t.length + 1 + r.length = len)
    (hlt : 3 < len - (off + t.length)) (hmax : len - (off + t.length) ≤ intMax) :
    xsnprintf (p ++ (t ++ 0 :: r)) (b + (off + t.length)) (len - (off + t.length)) [32, 59, 32] =
      pure (p ++ t ++ ([32, 59, 32] ++ 0 :: (0 :: r).drop 4), 3) := by
  have hp' : (p ++ t).length = b + (off + t.length) := by rw [List.length_append, hp, Nat.add_assoc]
  have hq' : (0 :: r).length = len - (off + t.length) := by rw [List.length_cons]; omega
  rw [← List.append_assoc]
  exact xsnprintf_of_lt hp' hq' hlt hmax

/-- Commands that fit, with a space after the name of the last one, are printed. -/
theorem printCmds_of_lt (cmds : List StoredCmd) (hne : cmds ≠ []) (hp : p.length = b + off) (hq : off + q.length = len)
    (hmax : len - off ≤ intMax) (hfit : off + (cmdListText cmds).length < len) :
    ∃ r, printCmds b len cmds (p ++ q) off =
        pure (p ++ (cmdListTrimmed cmds ++ 0 :: r), off + (cmdListTrimmed cmds).length) ∧
      off + (cmdListTrimmed cmds).length + 1 + r.length = len := by
  induction cmds generalizing p q off with
  | nil => exact absurd rfl hne
  | cons cmd cmds ih =>
    have htrim := cmdTrimmed_length cmd
    have hq' : q.length = len - off := by omega
    rcases cmds with _ | ⟨cmd', cmds⟩
    · have hfit' : off + (cmdText cmd).length < len := hfit
      obtain ⟨r, hprint, hr⟩ := cmdPrint_of_lt cmd hp hq' hmax (by omega)
      refine ⟨r, ?_, by show off + (cmdTrimmed cmd).length + 1 + r.length = len; omega⟩
      rw [printCmds, if_neg (by omega), hprint, pure_bind]
      dsimp only
      rw [if_neg (by omega), if_neg (fun h => h rfl), printCmds]
      rfl
    · have hlen : (cmdListText (cmd :: cmd' :: cmds)).length =
          (cmdTrimmed cmd).length + 3 + (cmdListText (cmd' :: cmds)).length := by
        simp only [cmdListText, List.length_append, List.length_cons]
        omega
      rw [hlen] at hfit
      obtain ⟨r, hprint, hr⟩ := cmdPrint_of_lt cmd hp hq' hmax (by omega)
      have hsep := separator_of_lt hp (show off + (cmdTrimmed cmd).length + 1 + r.length = len by omega)
        (show 3 < len - (off + (cmdTrimmed cmd).length) by omega) (by omega)
      have hp' : (p ++ (cmdTrimmed cmd ++ [32, 59, 32])).length = b + (off + (cmdTrimmed cmd).length + 3) := by
        simp only [List.length_append, List.length_cons, List.length_nil, hp]
        omega
      have hrest : off + (cmdTrimmed cmd).length + 3 + (0 :: (0 :: r).drop 4).length = len := by
        simp only [List.length_cons, List.length_drop]
        omega
      obtain ⟨r', hrest, hr'⟩ := ih (List.cons_ne_nil _ _) hp' hrest (by omega) (by omega)
      refine ⟨r', ?_, ?_⟩
      · rw [printCmds, if_neg (by omega), hprint, pure_bind]
        dsimp only
        rw [if_neg (by omega), if_pos (List.cons_ne_nil _ _), hsep, pure_bind]
        rw [List.append_assoc, List.append_assoc] at hrest
        rw [List.append_assoc]
        refine hrest.trans ?_
        simp only [cmdListTrimmed, List.append_assoc, List.length_append, List.length_cons, List.cons_append,
          List.nil_append]
        congr 2
        omega
      · simp only [cmdListTrimmed, List.length_append, List.length_cons]
        omega

/-! ## Text that does not fit -/

theorem meets_printFlags (is m : List UInt8) (b len off : ℕ) :
    Meets .all (fun r => ∀ n, r.2 = some n → n = off + is.length) (printFlags b len is m off) := by
  induction is generalizing m off with
  | nil => exact .pure fun n h => (Option.some.inj h).symm
  | cons i is ih =>
    rw [printFlags]
    split_ifs
    · exact (meets_all _).bind fun m _ => .pure fun n h => absurd h.symm (Option.some_ne_none n)
    · refine (meets_all _).bind fun m _ => (meets_all _).bind fun m _ => (ih m (off + 1)).mono fun r hr n hn => ?_
      rw [hr n hn, List.length_cons]
      omega

theorem meets_xsnprintf (m : List UInt8) (i n : ℕ) (s : List UInt8) :
    Meets .all (fun r => r.2 = s.length) (xsnprintf m i n s) := by
  unfold xsnprintf
  split_ifs
  · exact True.intro
  · exact (meets_snprint True.intro m i n s).mono fun r hr => hr.2

theorem printWords_of_le (ss : List (List UInt8)) (m : List UInt8) (hfull : len ≤ (withWords ss t).length) :
    Meets .all (fun r => len ≤ r.2.getD len) (printWords b len ss m t.length) := by
  induction ss generalizing m t with
  | nil => exact .pure hfull
  | cons s ss ih =>
    rw [printWords]
    split_ifs with h
    · exact .pure (Nat.le_refl len)
    · refine (meets_xsnprintf m _ _ _).bind fun r hr => ?_
      have := ih (t := t ++ spaced t.length s) r.1 hfull
      rw [List.length_append, ← hr] at this
      exact this

theorem meets_unlessFull {r : List UInt8 × Option ℕ} {f : List UInt8 → ℕ → Exec (List UInt8 × ℕ)}
    (h : ∀ m off, r.2 = some off → Meets .all (fun r => len ≤ r.2) (f m off)) :
    Meets .all (fun r => len ≤ r.2) (unlessFull len r f) := by
  unfold unlessFull
  split
  · exact .pure (Nat.le_refl len)
  · exact h _ _ (by assumption)

/-- Where arguments do not fit, at least the size of the buffer is returned. -/
theorem argsPrint_of_le (args : StoredArgs) (hp : p.length = b) (hq : q.length = len) (hlen : 0 < len)
    (hfull : len ≤ (argsText args).length) : Meets .all (fun r => len ≤ r.2) (argsPrint args (p ++ q) b len) := by
  rw [argsPrint_eq, if_neg (by omega)]
  rcases Nat.lt_or_ge (flagsText args).length len with hflags | hflags
  · obtain ⟨r, hprint, -⟩ := printFlags_bind args (fun m off => do
      let r ← printWords b len (argsWords args) m off
      unlessFull len r fun m off => pure (m, off)) hp hq hlen hflags
    rw [hprint]
    refine (printWords_of_le _ _ hfull).bind fun r hr => meets_unlessFull fun m off h => .pure ?_
    rwa [h] at hr
  · have hplain : (flagsText args).length = 1 + args.plain.length := by
      unfold flagsText at hflags ⊢
      split_ifs at hflags ⊢
      · exact absurd hflags (by rw [List.length_nil]; omega)
      · rw [List.length_cons, Nat.add_comm]
    have hpos : args.plain ≠ [] := fun h => by simp [flagsText, h] at hflags; omega
    have hpos := List.length_pos_iff.2 hpos
    refine (meets_all _).bind fun m _ => (meets_printFlags args.plain m b len 1).bind fun r hr => ?_
    refine meets_unlessFull fun m off hoff => ?_
    have hoff := hr off hoff
    rw [dropDash, if_neg (by omega), pure_bind]
    have hwords := length_le_withWords (argsWords args) (List.replicate off 0)
    rw [List.length_replicate] at hwords
    have hprint := printWords_of_le (b := b) (argsWords args) m
      (by omega : len ≤ (withWords (argsWords args) (List.replicate off 0)).length)
    rw [List.length_replicate] at hprint
    refine hprint.bind fun r hr => meets_unlessFull fun m off h => .pure ?_
    rwa [h] at hr

theorem cmdPrint_of_le (cmd : StoredCmd) (hp : p.length = b) (hq : q.length = len)
    (hfull : len ≤ (cmdText cmd).length) : Meets .all (fun r => len ≤ r.2) (cmdPrint cmd (p ++ q) b len) := by
  have hname : (cmd.name.1 ++ [32]).length = cmd.name.1.length + 1 := by
    rw [List.length_append, List.length_singleton]
  have htext : (cmdText cmd).length = cmd.name.1.length + 1 + (argsText cmd.args).length := by
    rw [cmdText, List.length_append, List.length_cons]
    omega
  rw [cmdPrint]
  by_cases hoff : cmd.name.1.length + 1 < len ∧ len ≤ intMax
  · rw [xsnprintf_of_lt hp hq (by omega) hoff.2, pure_bind, hname]
    dsimp only
    rw [if_pos hoff.1]
    have hp' : (p ++ (cmd.name.1 ++ [32])).length = b + (cmd.name.1.length + 1) := by
      rw [List.length_append, hname, hp]
    have hq' : (0 :: q.drop (cmd.name.1.length + 1 + 1)).length = len - (cmd.name.1.length + 1) := by
      rw [List.length_cons, List.length_drop]
      omega
    have hargs := argsPrint_of_le cmd.args hp' hq' (by omega) (by omega)
    rw [List.append_assoc] at hargs
    refine hargs.bind fun r hr => (meets_all _).bind fun m _ => .pure ?_
    dsimp only
    rw [if_neg (by omega)]
    omega
  · unfold xsnprintf
    split_ifs with hmax
    · exact True.intro
    · refine (meets_snprint True.intro _ _ _ _).bind fun r hr => ?_
      dsimp only
      rw [if_neg (by omega)]
      exact .pure (by omega)

/-- A size that is no signed word ends the program. -/
theorem cmdPrint_fatal (cmd : StoredCmd) (m : List UInt8) (b : ℕ) (hmax : intMax < len) :
    cmdPrint cmd m b len = .fault .fatal := by
  rw [cmdPrint, xsnprintf, if_pos (.inl hmax), fault_bind]

/-- Where commands do not fit, at least the size of the buffer is returned. -/
theorem printCmds_of_le (cmds : List StoredCmd) (hp : p.length = b + off) (hq : off + q.length = len)
    (hfull : len ≤ off + (cmdListText cmds).length) :
    Meets .all (fun r => len ≤ r.2) (printCmds b len cmds (p ++ q) off) := by
  induction cmds generalizing p q off with
  | nil => exact .pure hfull
  | cons cmd cmds ih =>
    rw [printCmds]
    by_cases h0 : len ≤ off
    · rw [if_pos h0]
      exact .pure h0
    rw [if_neg h0]
    have hq' : q.length = len - off := by omega
    by_cases hfit : (cmdText cmd).length < len - off ∧ len - off ≤ intMax
    · obtain ⟨hfit, hmax⟩ := hfit
      obtain ⟨htrim, -⟩ := cmdTrimmed_length cmd
      obtain ⟨r, hprint, hr⟩ := cmdPrint_of_lt cmd hp hq' hmax hfit
      obtain ⟨cmd', cmds, rfl⟩ : ∃ cmd' cmds', cmds = cmd' :: cmds' := List.exists_cons_of_ne_nil fun h => by
        subst h
        change len ≤ off + (cmdText cmd).length at hfull
        omega
      rw [hprint, pure_bind]
      dsimp only
      rw [if_neg (by omega), if_pos (List.cons_ne_nil _ _)]
      rcases Nat.lt_or_ge 3 (len - (off + (cmdTrimmed cmd).length)) with hsep | hsep
      · have hprint' := separator_of_lt hp (show off + (cmdTrimmed cmd).length + 1 + r.length = len by omega) hsep
          (by omega)
        rw [hprint', pure_bind, ← List.append_assoc (p ++ cmdTrimmed cmd)]
        refine ih (by simp only [List.length_append, List.length_cons, List.length_nil, hp]; omega) ?_ ?_
        · simp only [List.length_cons, List.length_drop]
          omega
        · simp only [cmdListText, List.length_append, List.length_cons] at hfull ⊢
          omega
      · refine (meets_xsnprintf _ _ _ _).bind fun r hr => ?_
        have hfull' : len ≤ off + (cmdTrimmed cmd).length + r.2 := by
          rw [hr]
          simp only [List.length_cons, List.length_nil]
          omega
        rw [printCmds, if_pos hfull']
        exact .pure hfull'
    · by_cases hmax : len - off ≤ intMax
      · refine (cmdPrint_of_le cmd hp hq' (by omega)).bind fun r hr => ?_
        dsimp only
        rw [if_pos (by omega)]
        exact .pure (by omega)
      · rw [cmdPrint_fatal cmd _ _ (by omega)]
        exact True.intro

/-- A size that is no signed word ends the program where a word is to be printed. -/
theorem argsPrint_fatal (args : StoredArgs) (hp : p.length = b) (hq : q.length = len)
    (hwords : argsWords args ≠ []) (hmax : intMax < len - (flagsText args).length) :
    argsPrint args (p ++ q) b len = .fault .fatal := by
  obtain ⟨r, hprint, -⟩ := printFlags_bind args (fun m off => do
    let r ← printWords b len (argsWords args) m off
    unlessFull len r fun m off => pure (m, off)) hp hq (by omega) (by omega)
  obtain ⟨s, ss, hss⟩ := List.exists_cons_of_ne_nil hwords
  rw [argsPrint_eq, if_neg (by omega), hprint, hss, printWords, if_neg (by omega), xsnprintf, if_pos (.inl hmax),
    fault_bind, fault_bind]

/-- Something is printed into a buffer that stands after the bytes `p`: nothing else is written, the buffer
    has a null byte in it afterwards, and the number returned is less than its size. -/
def PrintsWithin (p : List UInt8) (len : ℕ) (x : Exec (List UInt8 × ℕ)) : Prop :=
  ∃ m n, x = pure (p ++ m, n) ∧ m.length = len ∧ 0 ∈ m ∧ n ≤ len - 1

theorem not_printsWithin {x : Exec (List UInt8 × ℕ)} (hlen : 0 < len) (hx : Meets .all (fun r => len ≤ r.2) x) :
    ¬ PrintsWithin p len x := by
  rintro ⟨m, n, rfl, -, -, hn⟩
  have := hx.value rfl
  dsimp only at this
  omega

theorem printsWithin_of_eq {x : Exec (List UInt8 × ℕ)} {n : ℕ} {r : List UInt8} (hx : x = pure (p ++ (t ++ 0 :: r), n))
    (hn : n = t.length) (hlen : t.length + 1 + r.length = len) : PrintsWithin p len x := by
  refine ⟨_, n, hx, ?_, List.mem_append_right _ List.mem_cons_self, by omega⟩
  rw [List.length_append, List.length_cons]
  omega

/-- Commands are printed within a buffer exactly if they fit there as a whole: the text of the arguments;
    the name of the command, a space and its arguments; all the commands with semicolons between them, and
    a space after the name of the last one. (The sizes given to the printer of words are signed words; an
    empty list leaves the buffer as it is.) -/
theorem print_printsWithin_iff (p q : List UInt8) (hq : q ≠ []) :
    (∀ args, PrintsWithin p q.length (argsPrint args (p ++ q) p.length q.length) ↔
      (argsText args).length < q.length ∧ (argsWords args = [] ∨ q.length - (flagsText args).length ≤ intMax)) ∧
    (∀ cmd, PrintsWithin p q.length (cmdPrint cmd (p ++ q) p.length q.length) ↔
      (cmdText cmd).length < q.length ∧ q.length ≤ intMax) ∧
    ∀ cmdlist, PrintsWithin p q.length (cmdListPrint cmdlist (p ++ q) p.length q.length) ↔
      if cmdlist = [] then 0 ∈ q else (cmdListText cmdlist).length < q.length ∧ q.length ≤ intMax := by
  have hpos := List.length_pos_iff.2 hq
  refine ⟨fun args => ?_, fun cmd => ?_, fun cmdlist => ?_⟩
  · constructor
    · intro h
      by_contra hcon
      rw [not_and_or, not_or, Nat.not_lt, Nat.not_le] at hcon
      rcases hcon with hfull | ⟨hwords, hmax⟩
      · exact not_printsWithin hpos (argsPrint_of_le args rfl rfl hpos hfull) h
      · rw [argsPrint_fatal args rfl rfl hwords hmax] at h
        exact not_printsWithin hpos (x := .fault .fatal) True.intro h
    · rintro ⟨hfit, hmax⟩
      obtain ⟨r, hprint, hr⟩ := argsPrint_of_lt args rfl rfl hmax hfit
      exact printsWithin_of_eq hprint rfl hr
  · constructor
    · intro h
      by_contra hcon
      rw [not_and_or, Nat.not_lt, Nat.not_le] at hcon
      rcases hcon with hfull | hmax
      · exact not_printsWithin hpos (cmdPrint_of_le cmd rfl rfl hfull) h
      · rw [cmdPrint_fatal cmd _ _ hmax] at h
        exact not_printsWithin hpos (x := .fault .fatal) True.intro h
    · rintro ⟨hfit, hmax⟩
      obtain ⟨r, hprint, hr⟩ := cmdPrint_of_lt cmd rfl rfl hmax hfit
      exact printsWithin_of_eq hprint rfl hr
  · split_ifs with hnil
    · subst hnil
      constructor
      · rintro ⟨m, n, h, -, h0, -⟩
        obtain ⟨h, -⟩ := Prod.mk.inj (pure_inj.1 h)
        rwa [List.append_cancel_left h]
      · exact fun h0 => ⟨q, 0, rfl, rfl, h0, Nat.zero_le _⟩
    · constructor
      · intro h
        by_contra hcon
        rw [not_and_or, Nat.not_lt, Nat.not_le] at hcon
        rcases hcon with hfull | hmax
        · have hp : p.length = p.length + 0 := rfl
          have hq : 0 + q.length = q.length := Nat.zero_add _
          exact not_printsWithin hpos (printCmds_of_le cmdlist hp hq (by rwa [Nat.zero_add])) h
        · obtain ⟨cmd, cmds, rfl⟩ := List.exists_cons_of_ne_nil hnil
          rw [cmdListPrint, printCmds, if_neg (by omega), cmdPrint_fatal cmd _ _ (by omega), fault_bind] at h
          exact not_printsWithin hpos (x := .fault .fatal) True.intro h
      · rintro ⟨hfit, hmax⟩
        have hp : p.length = p.length + 0 := rfl
        have hq : 0 + q.length = q.length := Nat.zero_add _
        obtain ⟨r, hprint, hr⟩ := printCmds_of_lt cmdlist hnil hp hq (by omega) (by rwa [Nat.zero_add])
        exact printsWithin_of_eq hprint (Nat.zero_add _) (by omega)

/-- The command `kill-pane -t 12`. -/
def killPane : StoredCmd where
  name := ⟨[107, 105, 108, 108, 45, 112, 97, 110, 101], by decide⟩
  args := { flags := fun i => i = 116, values := fun i => if i = 116 then some ⟨[49, 50], by decide⟩ else none, argv := [] }

/-- There is room for the command in sixteen bytes. -/
theorem killPane_printsWithin : PrintsWithin [] 16 (cmdPrint killPane (List.replicate 16 1) 0 16) :=
  ((print_printsWithin_iff [] (List.replicate 16 1) (by decide)).2.1 killPane).2 (by decide)

/-- There is room for its name and a space in twelve bytes, but the null byte at the end of the whole
    command is written past them. -/
theorem killPane_writes_past : cmdPrint killPane (List.replicate 12 1) 0 12 = .fault .overread ∧
    ¬ PrintsWithin [] 12 (cmdPrint killPane (List.replicate 12 1) 0 12) := by
  have h : cmdPrint killPane (List.replicate 12 1) 0 12 = .fault .overread := by rfl
  refine ⟨h, ?_⟩
  rintro ⟨m, n, hm, -⟩
  rw [h] at hm
  cases hm

end Tmux
