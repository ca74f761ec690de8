import Tmux.Library.CString

/-!
# Parsing a command string

A command string is split into words (`cmdStringWords`), with quotes (`cmdStringString`), variables of the
environment (`cmdStringVariable`) and home directories (`cmdStringExpandTilde`), and the words into commands
(`cmdListParse`). The string is read from memory, where nothing is behind its null byte, at a place that goes
on by one for every byte that is got and back by one for a byte that is put back. (No text is nearly as long
as memory is large, so the tests for that are left out.)
-/

namespace Tmux

open Exec CString

/-! ## The environment -/

/-- The variables of an environment. One that is marked for removal has no value. -/
abbrev Environ := List (List UInt8 × Option Text)

def environFind (env : Environ) (name : List UInt8) : Option (Option Text) := env.lookup name

def environSet (env : Environ) (name : List UInt8) (value : Option Text) : Environ :=
  if (environFind env name).isSome then env.map fun envent => if envent.1 = name then (name, value) else envent
  else env ++ [(name, value)]

/-- Set a variable from a word of the form `NAME=VALUE`. -/
def environPut (env : Environ) (var : Text) : Environ :=
  match var.1.idxOf? 61 with
  | none => env
  | some n => environSet env (var.1.take n)
      (some ⟨var.1.drop (n + 1), fun h => var.2 (List.mem_of_mem_drop h)⟩)

/-- The home directories: of the user that the server runs as, and of users by their names. -/
structure Passwd where
  home : Option Text
  homeOf : List UInt8 → Option Text

/-! ## Characters -/

/-- The byte at a place, which goes on unless it is at the end. -/
def cmdStringGetc (s : List UInt8) (p : ℕ) : Exec (Option UInt8 × ℕ) := do
  let ch ← Block.load s p
  pure (if ch = 0 then (none, p) else (some ch, p + 1))

def cmdStringUngetc (p : ℕ) : Exec ℕ := if p = 0 then .fault .overread else pure (p - 1)

def cmdStringFirst (ch : UInt8) : Bool := ch = 95 || (97 ≤ ch && ch ≤ 122) || (65 ≤ ch && ch ≤ 90)

def cmdStringOther (ch : UInt8) : Bool := cmdStringFirst ch || (48 ≤ ch && ch ≤ 57)

/-! ## Variables -/

/-- Read the rest of the name of a variable, and the byte after it. -/
def variableName (s : List UInt8) : ℕ → ℕ → List UInt8 → Exec (List UInt8 × Option UInt8 × ℕ)
  | 0, _, _ => .fault .hang
  | fuel + 1, p, buf => do
    let (ch, p) ← cmdStringGetc s p
    match ch with
    | none => pure (buf, none, p)
    | some ch => if cmdStringOther ch then variableName s fuel p (buf ++ [ch]) else pure (buf, some ch, p)

/-- The value of a variable; nothing if there is no such variable. -/
def variableValue (env : Environ) (name : List UInt8) : Exec (List UInt8) :=
  match environFind env name with
  | none => pure []
  | some value => do
    let value ← follow value
    pure value.1

/-- What a variable stands for, unless its name is not ended. -/
def cmdStringVariable (env : Environ) (s : List UInt8) (fuel p : ℕ) : Exec (Option (List UInt8) × ℕ) := do
  let (ch, p) ← cmdStringGetc s p
  match ch with
  | none => pure (none, p)
  | some ch =>
    if ch = 123 then do
      let (ch, p) ← cmdStringGetc s p
      match ch with
      | none => pure (none, p)
      | some ch =>
        if !cmdStringFirst ch then pure (none, p)
        else do
          let (buf, ch, p) ← variableName s fuel p [ch]
          if ch ≠ some 125 then pure (none, p)
          else do
            let value ← variableValue env buf
            pure (some value, p)
    else if !cmdStringFirst ch then pure (some [36, ch], p)
    else do
      let (buf, ch, p) ← variableName s fuel p [ch]
      let p ← if ch ≠ none then cmdStringUngetc p else pure p
      let value ← variableValue env buf
      pure (some value, p)

/-! ## Quotes -/

/-- The character that a backslash stands for together with the next one. -/
def escaped (ch : UInt8) : UInt8 :=
  if ch = 101 then 27 else if ch = 114 then 13 else if ch = 110 then 10 else if ch = 116 then 9 else ch

/-- Read up to a byte, with backslashes and variables or without, unless that byte is missing. -/
def cmdStringString (env : Environ) (s : List UInt8) (endch : UInt8) (esc : Bool) :
    ℕ → ℕ → List UInt8 → Exec (Option (List UInt8) × ℕ)
  | 0, _, _ => .fault .hang
  | fuel + 1, p, buf => do
    let (ch, p) ← cmdStringGetc s p
    match ch with
    | none => pure (none, p)
    | some ch =>
      if ch = endch then pure (some buf, p)
      else if ch = 92 ∧ esc then do
        let (ch, p) ← cmdStringGetc s p
        match ch with
        | none => pure (none, p)
        | some ch => cmdStringString env s endch esc fuel p (buf ++ [escaped ch])
      else if ch = 36 ∧ esc then do
        let (t, p) ← cmdStringVariable env s fuel p
        match t with
        | none => pure (none, p)
        | some t => cmdStringString env s endch esc fuel p (buf ++ t)
      else cmdStringString env s endch esc fuel p (buf ++ [ch])

/-- The home directory after a `~`: that of the variable `HOME`, unless it is empty, or of a user. -/
def homeDirectory (env : Environ) (pw : Passwd) : Exec (Option Text) :=
  match environFind env [72, 79, 77, 69] with
  | none => pure pw.home
  | some value => do
    let value ← follow value
    pure (if value.1 ≠ [] then some value else pw.home)

def cmdStringExpandTilde (env : Environ) (pw : Passwd) (s : List UInt8) (fuel p : ℕ) : Exec (Option (List UInt8) × ℕ) := do
  let (ch, p) ← cmdStringGetc s p
  if ch = some 47 then do
    let home ← homeDirectory env pw
    pure (home.map fun home => home.1 ++ [47], p)
  else do
    let p ← cmdStringUngetc p
    let (username, p) ← cmdStringString env s 47 false fuel p []
    match username with
    | none => pure (none, p)
    | some username => pure ((pw.homeOf username).map fun home => home.1 ++ [47], p)

/-! ## Words -/

/-- Add a text to the word, which begins with it if there is none yet. -/
def addText (buf : Option (List UInt8)) (t : List UInt8) : Option (List UInt8) := some (buf.getD [] ++ t)

/-- The word ends, if there is one. -/
def endWord (buf : Option (List UInt8)) (argv : List (List UInt8)) : List (List UInt8) := argv ++ buf.toList

/-- Discard the rest of the line. -/
def skipComment (s : List UInt8) : ℕ → ℕ → Exec ℕ
  | 0, _ => .fault .hang
  | fuel + 1, p => do
    let (ch, p) ← cmdStringGetc s p
    match ch with
    | none => pure p
    | some _ => skipComment s fuel p

/-- Split a string into words; nothing if there is an error. -/
def cmdStringWords (env : Environ) (pw : Passwd) (s : List UInt8) :
    ℕ → ℕ → Option (List UInt8) → List (List UInt8) → Exec (Option (List (List UInt8)))
  | 0, _, _, _ => .fault .hang
  | fuel + 1, p, buf, argv => do
    let (ch, p) ← cmdStringGetc s p
    match ch with
    | none => pure (some (endWord buf argv))
    | some ch =>
      if ch = 39 then do
        let (t, p) ← cmdStringString env s 39 false fuel p []
        match t with
        | none => pure none
        | some t => cmdStringWords env pw s fuel p (addText buf t) argv
      else if ch = 34 then do
        let (t, p) ← cmdStringString env s 34 true fuel p []
        match t with
        | none => pure none
        | some t => cmdStringWords env pw s fuel p (addText buf t) argv
      else if ch = 36 then do
        let (t, p) ← cmdStringVariable env s fuel p
        match t with
        | none => pure none
        | some t => cmdStringWords env pw s fuel p (addText buf t) argv
      else if ch = 35 then do
        let _ ← skipComment s fuel p
        pure (some (endWord buf argv))
      else if ch = 32 ∨ ch = 9 then cmdStringWords env pw s fuel p none (endWord buf argv)
      else if ch = 126 ∧ buf = none then do
        let (t, p) ← cmdStringExpandTilde env pw s fuel p
        match t with
        | none => pure none
        | some t => cmdStringWords env pw s fuel p (addText buf t) argv
      else cmdStringWords env pw s fuel p (addText buf [ch]) argv

/-! ## Commands -/

section Commands

variable {γ ε : Type}

/-- The argument vectors that are parsed as commands, and the commands or the first error. -/
abbrev CmdCalls (γ ε : Type) := List (List (List UInt8)) × Except ε (List γ)

/-- Split the arguments that are left into commands, `cur` being those since the last split. -/
def cmdListSplit (cmdParse : List (List UInt8) → Except ε γ) :
    List (List UInt8) → List (List UInt8) → List (List (List UInt8)) → List γ → CmdCalls γ ε
  | [], cur, calls, cmds =>
    if cur ≠ [] then
      match cmdParse cur with
      | .error cause => (calls ++ [cur], .error cause)
      | .ok cmd => (calls ++ [cur], .ok (cmds ++ [cmd]))
    else (calls, .ok cmds)
  | arg :: argv, cur, calls, cmds =>
    if arg.getLast? ≠ some 59 then cmdListSplit cmdParse argv (cur ++ [arg]) calls cmds
    else if arg.dropLast.getLast? = some 92 then
      cmdListSplit cmdParse argv (cur ++ [arg.dropLast.dropLast ++ [59]]) calls cmds
    else
      let newArgv := if arg.dropLast ≠ [] then cur ++ [arg.dropLast] else cur
      match cmdParse newArgv with
      | .error cause => (calls ++ [newArgv], .error cause)
      | .ok cmd => cmdListSplit cmdParse argv [] (calls ++ [newArgv]) (cmds ++ [cmd])

def cmdListParse (cmdParse : List (List UInt8) → Except ε γ) (argv : List (List UInt8)) : CmdCalls γ ε :=
  cmdListSplit cmdParse argv [] [] []

/-- Why there is no list of commands. -/
inductive CmdStringCause (ε : Type)
  /-- "invalid or unknown command". -/
  | invalid (s : List UInt8)
  | empty
  | parse (cause : ε)

/-- What parsing a command string gives: the environment afterwards, the argument vectors that are parsed as
    commands, and the commands or an error. -/
structure CmdStringResult (γ ε : Type) where
  env : Environ
  calls : List (List (List UInt8)) := []
  cmdlist : Except (CmdStringCause ε) (List γ)

/-- A word has an equals sign before any blank. -/
def isAssignment (word : List UInt8) : Bool := (word.takeWhile fun c => c ≠ 32 && c ≠ 9).contains 61

/-- Take assignments off the start of the words, and make them. -/
def putVariables (env : Environ) : List (List UInt8) → Environ × List (List UInt8)
  | [] => (env, [])
  | word :: argv =>
    if isAssignment word then putVariables (environPut env ⟨beforeNull word, zero_notMem_beforeNull word⟩) argv
    else (env, word :: argv)

/-- Parse a command string. There are no more steps than bytes of it and one for a byte that is put back. -/
def cmdStringParse (env : Environ) (pw : Passwd) (cmdParse : List (List UInt8) → Except ε γ) (s : List UInt8) :
    Exec (CmdStringResult γ ε) := do
  match ← cmdStringWords env pw s (s.length + 1) 0 none [] with
  | none => pure { env, cmdlist := .error (.invalid (beforeNull s)) }
  | some argv =>
    let (env, argv) := putVariables env argv
    if argv = [] then pure { env, cmdlist := .error .empty }
    else
      match cmdListParse cmdParse argv with
      | (calls, .error cause) => pure { env, calls, cmdlist := .error (.parse cause) }
      | (calls, .ok cmds) => pure { env, calls, cmdlist := .ok cmds }

end Commands

end Tmux
