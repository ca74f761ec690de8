import Tmux.Library.Line
import Tmux.Tty.Keys

/-!
# The prompt of the status line

A key for the prompt edits its buffer (`statusPromptKey`): the table of keys has a command for it
(`modeKeyLookup`), and a key without a command is put into the buffer itself. The buffer is a block of
memory with the text and a null byte after it, and is only made larger where a text is put in. Commands move
the cursor by characters and words, delete characters and words, complete the word at the cursor
(`promptComplete`), paste, exchange characters, and put in lines of the history.

A text that is entered, and each one of a prompt for a single key, is given to a function of the prompt,
which takes the prompt away, leaves it, or puts another one in its place (`PromptAnswer`).
-/

namespace Tmux

open Exec (usub)
open CString

/-! ## Keys -/

/-- The commands for editing a prompt, or that a key has none: it is put in, or ignored. -/
inductive EditCmd
  | none
  | other
  | backspace
  | cancel
  | complete
  | cursorLeft
  | cursorRight
  | delete
  | deleteLine
  | deleteToEndOfLine
  | deleteWord
  | endOfLine
  | enter
  | historyDown
  | historyUp
  | nextSpace
  | nextSpaceEnd
  | nextWord
  | nextWordEnd
  | paste
  | previousSpace
  | previousWord
  | startOfLine
  | switchMode
  | switchModeAppend
  | switchModeAppendLine
  | switchModeBeginLine
  | transposeChars
  deriving DecidableEq, Repr

structure ModeKeyBinding where
  key : KeyCode
  mode : Fin 2
  cmd : EditCmd
  deriving DecidableEq, Repr

/-- The command for a key in a mode, and the mode after it. In the mode 1, a key without a binding is
    ignored. -/
def modeKeyLookup (tree : List ModeKeyBinding) (mode : Fin 2) (key : KeyCode) : EditCmd × Fin 2 :=
  match tree.find? fun mbind => mbind.key = key ∧ mbind.mode = mode with
  | none => (if mode ≠ 0 then .none else .other, mode)
  | some mbind =>
    match mbind.cmd with
    | .switchMode | .switchModeAppend | .switchModeAppendLine | .switchModeBeginLine => (mbind.cmd, 1 - mode)
    | cmd => (cmd, mode)

/-! ## The history -/

/-- The lines kept in the history. -/
def promptHistory : ℕ := 100

/-- The line before the one at an index of the history, if there is one, and its index. -/
def statusPromptUpHistory (history : List Text) (idx : ℕ) : Exec (Option (Text × ℕ)) :=
  if history.length = 0 ∨ idx = history.length then pure none
  else do
    let n ← usub history.length (idx + 1)
    let line ← Block.load history n
    pure (some (line, idx + 1))

/-- The line after the one at an index of the history, or an empty one, and its index. -/
def statusPromptDownHistory (history : List Text) (idx : ℕ) : Exec (Text × ℕ) :=
  if history.length = 0 ∨ idx = 0 then pure (∅, idx)
  else if idx - 1 = 0 then pure (∅, idx - 1)
  else do
    let n ← usub history.length (idx - 1)
    let line ← Block.load history n
    pure (line, idx - 1)

/-- Add a line to the history, unless it is the last one of it already. -/
def statusPromptAddHistory (history : List Text) (line : Text) : List Text :=
  if history.getLast? = some line then history
  else (if history.length = promptHistory then history.tail else history) ++ [line]

/-! ## Completion -/

/-- What is left of a prefix after the first byte in which it differs from a name is cut off. A name that
    ends before does not cut it. -/
def commonPrefix : List UInt8 → List UInt8 → List UInt8
  | a :: p, b :: s => if a = b then a :: commonPrefix p s else []
  | p, _ => p

theorem commonPrefix_subset (p s : List UInt8) : commonPrefix p s ⊆ p := by
  fun_induction commonPrefix p s with
  | case1 p a s ih => exact List.cons_subset_cons _ ih
  | case2 => exact List.nil_subset _
  | case3 => exact List.Subset.refl _

/-- The one name that starts with a text, with a blank, or what all those that do have in common. The names
    are those of the commands and the options. -/
def statusPromptComplete (names : List Text) (s : Text) : Option Text :=
  if s = ∅ then none
  else
    match names.filter fun name => s.1 <+: name.1 with
    | [] => none
    | [name] => some (name ++ ⟨[32], by decide⟩)
    | name :: list => some (list.foldl (fun p s => p.part (commonPrefix p.1 s.1) (commonPrefix_subset _ _)) name)

/-! ## The state -/

/-- A prompt: its buffer, the place in it and in the history, the mode of its keys, and whether it is for a
    single key. -/
structure Prompt where
  buffer : List UInt8
  index : ℕ
  hindex : ℕ := 0
  mode : Fin 2 := 0
  single : Bool := false
  deriving DecidableEq, Repr

/-- What the function of a prompt does with it: leave it, take it away, or set another text or prompt. -/
inductive PromptAnswer
  | keep
  | clear
  | update (input : Text)
  | set (input : Text) (single : Bool)
  deriving DecidableEq

/-- What a prompt depends on: the table of keys, the separators of words, the names to complete, the top
    paste buffer, the function of the prompt, and what is in memory that is new. -/
structure PromptContext where
  tree : List ModeKeyBinding
  wordSeparators : Text
  names : List Text
  paste : Option (List UInt8)
  callback : Option Text → PromptAnswer
  fresh : UInt8

/-- The prompt of a client, and the history. -/
structure PromptState where
  prompt : Option Prompt
  history : List Text
  deriving DecidableEq

/-- The prompt after its function is called. -/
def Prompt.answered (p : Prompt) : PromptAnswer → Option Prompt
  | .keep => some p
  | .clear => none
  | .update input => some { p with buffer := input.1 ++ [0], index := input.1.length, hindex := 0 }
  | .set input single => some { buffer := input.1 ++ [0], index := input.1.length, single }

/-! ## Looking for words -/

/-- A byte is in a set of separators, as found by `strchr`, which finds the null byte as well. -/
def isSeparator (wsep : Text) (c : UInt8) : Bool := c = 0 || c ∈ wsep.1

/-- Go back until at a byte that passes a test, or at the start. -/
def backTo (stop : UInt8 → Bool) (buffer : List UInt8) : ℕ → Exec ℕ
  | 0 => pure 0
  | idx + 1 => do
    let c ← Block.load buffer idx
    if stop c then pure idx else backTo stop buffer idx

/-- Go back until after a byte that passes a test, or at the start. -/
def backAfter (stop : UInt8 → Bool) (buffer : List UInt8) : ℕ → Exec ℕ
  | 0 => pure 0
  | idx + 1 => do
    let c ← Block.load buffer idx
    if stop c then pure (idx + 1) else backAfter stop buffer idx

/-- Go on until at a byte that passes a test, or at the end. -/
def onTo (stop : UInt8 → Bool) (buffer : List UInt8) (size : ℕ) : ℕ → ℕ → Exec ℕ
  | 0, _ => .fault .hang
  | fuel + 1, idx =>
    if idx ≠ size then do
      let c ← Block.load buffer (idx + 1)
      if stop c then pure (idx + 1) else onTo stop buffer size fuel (idx + 1)
    else pure idx

/-- The start of the word before an index. -/
def previousWord (wsep : Text) (buffer : List UInt8) (idx : ℕ) : Exec ℕ := do
  -- Find a non-separator.
  let idx ← backTo (fun c => !isSeparator wsep c) buffer idx
  -- Find the separator at the beginning of the word.
  backAfter (isSeparator wsep) buffer idx

/-- The start of the word after an index. -/
def nextWord (wsep : Text) (buffer : List UInt8) (size idx : ℕ) : Exec ℕ := do
  -- Find a separator.
  let idx ← onTo (isSeparator wsep) buffer size (buffer.length + 1) idx
  -- Find the word right after the separation.
  onTo (fun c => !isSeparator wsep c) buffer size (buffer.length + 1) idx

/-- The end of the word after an index. -/
def nextWordEnd (wsep : Text) (buffer : List UInt8) (size idx : ℕ) : Exec ℕ := do
  -- Find a word.
  let idx ← onTo (fun c => !isSeparator wsep c) buffer size (buffer.length + 1) idx
  -- Find the separator at the end of the word.
  onTo (isSeparator wsep) buffer size (buffer.length + 1) idx

/-! ## Editing -/

def blank : Text := ⟨[32], by decide⟩

/-- `while (first > buffer && *first != ' ') first--` -/
def backToBlank (buffer : List UInt8) : ℕ → Exec ℕ
  | 0 => pure 0
  | first + 1 => do
    let c ← Block.load buffer (first + 1)
    if c ≠ 32 then backToBlank buffer first else pure (first + 1)

/-- `while (*first == ' ') first++`, for any test of when to stop. -/
def scanTo (stop : UInt8 → Bool) (buffer : List UInt8) : ℕ → ℕ → Exec ℕ
  | 0, _ => .fault .hang
  | fuel + 1, idx => do
    let c ← Block.load buffer idx
    if stop c then pure idx else scanTo stop buffer fuel (idx + 1)

/-- `while (*last == ' ') last--`, which does not stop at the start of the buffer. -/
def backOverBlanks (buffer : List UInt8) : ℕ → Exec ℕ
  | 0 => do
    let c ← Block.load buffer 0
    if c = 32 then .fault .overread else pure 0
  | last + 1 => do
    let c ← Block.load buffer (last + 1)
    if c = 32 then backOverBlanks buffer last else pure (last + 1)

/-- Where the word at an index starts and ends. -/
def wordAt (buffer : List UInt8) (idx : ℕ) : Exec (ℕ × ℕ) := do
  let first ← backToBlank buffer idx
  let first ← scanTo (fun c => c ≠ 32) buffer (buffer.length + 1) first
  let last ← scanTo (fun c => c = 0 || c = 32) buffer (buffer.length + 1) idx
  let last ← backOverBlanks buffer last
  let c ← Block.load buffer last
  pure (first, if c ≠ 0 then last + 1 else last)

/-- Put a text in the place of the bytes from `first` to `last`. -/
def replaceWord (fresh : UInt8) (p : Prompt) (size first last : ℕ) (s : Text) : Exec Prompt := do
  -- Trim out word.
  let n ← usub size last
  let buffer ← Block.move p.buffer first last (n + 1)
  let size ← usub size (last - first)
  -- Insert the new word.
  let size := size + s.1.length
  let buffer := Block.resize fresh buffer (size + 1)
  let buffer ← Block.move buffer (first + s.1.length) first (n + 1)
  let buffer ← put buffer first s.1
  pure { p with buffer, index := first + s.1.length }

/-- Complete the word at the cursor, if it fits into 64 bytes. -/
def promptComplete (ctx : PromptContext) (p : Prompt) (size : ℕ) : Exec Prompt := do
  let c ← Block.load p.buffer 0
  if c = 0 then pure p
  else do
    let (first, last) ← wordAt p.buffer (if p.index ≠ 0 then p.index - 1 else p.index)
    if last ≤ first ∨ last - first > 63 then pure p
    else if last ≤ p.buffer.length then
      match statusPromptComplete ctx.names (textAt ((p.buffer.drop first).take (last - first) ++ [0]) 0) with
      | none => pure p
      | some s => replaceWord ctx.fresh p size first last s
    else .fault .overread

def promptBackspace (p : Prompt) (size : ℕ) : Exec Prompt :=
  if p.index ≠ 0 then
    if p.index = size then do
      let buffer ← Block.store p.buffer (p.index - 1) 0
      pure { p with buffer, index := p.index - 1 }
    else do
      let n ← usub (size + 1) p.index
      let buffer ← Block.move p.buffer (p.index - 1) p.index n
      pure { p with buffer, index := p.index - 1 }
  else pure p

/-- As many bytes are moved as there are from the cursor on, and not from the byte after it on. -/
def promptDelete (p : Prompt) (size : ℕ) : Exec Prompt :=
  if p.index ≠ size then do
    let n ← usub (size + 1) p.index
    let buffer ← Block.move p.buffer p.index (p.index + 1) n
    pure { p with buffer }
  else pure p

def promptDeleteLine (p : Prompt) : Exec Prompt := do
  let buffer ← Block.store p.buffer 0 0
  pure { p with buffer, index := 0 }

def promptDeleteToEndOfLine (p : Prompt) (size : ℕ) : Exec Prompt :=
  if p.index < size then do
    let buffer ← Block.store p.buffer p.index 0
    pure { p with buffer }
  else pure p

def promptDeleteWord (wsep : Text) (p : Prompt) (size : ℕ) : Exec Prompt := do
  let idx ← previousWord wsep p.buffer p.index
  let n ← usub (size + 1) p.index
  let buffer ← Block.move p.buffer idx p.index n
  let k ← usub p.index idx
  let n ← usub size k
  let buffer ← put buffer n (List.replicate k 0)
  pure { p with buffer, index := idx }

/-- Put a text in before the cursor, the buffer being large enough: its end is moved, or written anew. -/
def promptInsert (p : Prompt) (size : ℕ) (s : List UInt8) : Exec Prompt :=
  if p.index = size then do
    let buffer ← put p.buffer p.index s
    let buffer ← Block.store buffer (p.index + s.length) 0
    pure { p with buffer, index := p.index + s.length }
  else do
    let n ← usub (size + 1) p.index
    let buffer ← Block.move p.buffer (p.index + s.length) p.index n
    let buffer ← put buffer p.index s
    pure { p with buffer, index := p.index + s.length }

/-- Paste up to the first control character. -/
def promptPaste (ctx : PromptContext) (p : Prompt) (size : ℕ) : Exec Prompt :=
  match ctx.paste with
  | none => pure p
  | some data =>
    let s := data.takeWhile fun ch => !(ch < 32 || ch = 127)
    promptInsert { p with buffer := Block.resize ctx.fresh p.buffer (size + s.length + 1) } size s

def promptTransposeChars (p : Prompt) (size : ℕ) : Exec Prompt :=
  let idx := if p.index < size then p.index + 1 else p.index
  if idx ≥ 2 then do
    let swapc ← Block.load p.buffer (idx - 2)
    let c ← Block.load p.buffer (idx - 1)
    let buffer ← Block.store p.buffer (idx - 2) c
    let buffer ← Block.store buffer (idx - 1) swapc
    pure { p with buffer, index := idx }
  else pure p

def promptHistoryUp (history : List Text) (p : Prompt) : Exec Prompt := do
  match ← statusPromptUpHistory history p.hindex with
  | none => pure p
  | some (line, hindex) => pure { p with buffer := line.1 ++ [0], index := line.1.length, hindex }

def promptHistoryDown (history : List Text) (p : Prompt) : Exec Prompt := do
  let (line, hindex) ← statusPromptDownHistory history p.hindex
  pure { p with buffer := line.1 ++ [0], index := line.1.length, hindex }

/-- A key that is put in stands for a character. -/
def isCharacter (key : KeyCode) : Bool := !(key &&& 0xff00 != 0 || key.slt 32 || key == 127)

/-- The character of a key, of which only the last eight bits are stored. -/
def keyByte (key : KeyCode) : UInt8 := UInt8.ofBitVec (key.setWidth 8)

/-- What a command does with the buffer, for those that only edit it. -/
def promptEdit (ctx : PromptContext) (history : List Text) (p : Prompt) (size : ℕ) : EditCmd → Exec Prompt
  | .cursorLeft => pure (if p.index > 0 then { p with index := p.index - 1 } else p)
  | .switchModeAppend | .cursorRight => pure (if p.index < size then { p with index := p.index + 1 } else p)
  | .switchModeBeginLine | .startOfLine => pure { p with index := 0 }
  | .switchModeAppendLine | .endOfLine => pure { p with index := size }
  | .complete => promptComplete ctx p size
  | .backspace => promptBackspace p size
  | .delete => promptDelete p size
  | .deleteLine => promptDeleteLine p
  | .deleteToEndOfLine => promptDeleteToEndOfLine p size
  | .deleteWord => promptDeleteWord ctx.wordSeparators p size
  | .nextSpace => do pure { p with index := ← nextWord blank p.buffer size p.index }
  | .nextWord => do pure { p with index := ← nextWord ctx.wordSeparators p.buffer size p.index }
  | .nextSpaceEnd => do pure { p with index := ← nextWordEnd blank p.buffer size p.index }
  | .nextWordEnd => do pure { p with index := ← nextWordEnd ctx.wordSeparators p.buffer size p.index }
  | .previousSpace => do pure { p with index := ← previousWord blank p.buffer p.index }
  | .previousWord => do pure { p with index := ← previousWord ctx.wordSeparators p.buffer p.index }
  | .historyUp => promptHistoryUp history p
  | .historyDown => promptHistoryDown history p
  | .paste => promptPaste ctx p size
  | .transposeChars => promptTransposeChars p size
  | .switchMode | .enter | .cancel | .other | .none => pure p

/-- What a command does: one that only edits the buffer does that, and the text may be given to the function of the
    prompt by the others. -/
def promptCommand (ctx : PromptContext) (history : List Text) (p : Prompt) (size : ℕ) (key : KeyCode) :
    EditCmd → Exec PromptState
  | .enter => do
    let c ← Block.load p.buffer 0
    let history := if c ≠ 0 then statusPromptAddHistory history (textAt p.buffer 0) else history
    pure { prompt := p.answered (ctx.callback (some (textAt p.buffer 0))), history }
  | .cancel => pure { prompt := p.answered (ctx.callback none), history }
  | .other =>
    if isCharacter key then do
      let p ← promptInsert { p with buffer := Block.resize ctx.fresh p.buffer (size + 2) } size [keyByte key]
      let prompt := if p.single then p.answered (ctx.callback (some (textAt p.buffer 0))) else some p
      pure { prompt, history }
    else pure { prompt := some p, history }
  | cmd => do
    let p ← promptEdit ctx history p size cmd
    pure { prompt := some p, history }

/-- Handle a key in a prompt. -/
def statusPromptKey (ctx : PromptContext) (history : List Text) (p : Prompt) (key : KeyCode) : Exec PromptState := do
  let size ← strlen p.buffer 0
  let (cmd, mode) := modeKeyLookup ctx.tree p.mode key
  promptCommand ctx history { p with mode } size key cmd

/-- What happens: a key for the prompt, if there is one, or a line that another client adds to the history. -/
inductive PromptEvent
  | key (ctx : PromptContext) (key : KeyCode)
  | history (line : Text)

def promptEvent (s : PromptState) : PromptEvent → Exec PromptState
  | .key ctx key =>
    match s.prompt with
    | none => pure s
    | some p => statusPromptKey ctx s.history p key
  | .history line => pure { s with history := statusPromptAddHistory s.history line }

/-- Some of the keys of `emacs`. -/
def emacsKeys : PromptContext where
  tree := [⟨keycLeft, 0, .cursorLeft⟩, ⟨keycDc, 0, .delete⟩, ⟨9, 0, .complete⟩]
  wordSeparators := blank
  names := []
  paste := none
  callback _ := .keep
  fresh := 0

def emptyPrompt : PromptState := ⟨some { buffer := [0], index := 0 }, []⟩

end Tmux
