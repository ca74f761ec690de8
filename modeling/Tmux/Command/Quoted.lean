import Tmux.Command.Pieces

/-!
# Command sequences as lines

Every sequence of commands can be written as a line of a configuration file: each argument in quotes
(`inQuotes`), single or double ones, with a backslash before a semicolon at its end (`escapeSemicolon`), and the
commands with a semicolon between them (`commandLine`). Parsing the line parses the same commands again
(`cmdStringParse_commandLine`).
-/

namespace Tmux

open Exec CString

/-! ## Writing -/

inductive Quotes
  | single
  | double
  deriving DecidableEq

/-- A byte between quotes: a single quote is written between double ones. -/
def quotedByte : Quotes → UInt8 → List UInt8
  | .single, c => if c = 39 then [39, 34, 39, 34, 39] else [c]
  | .double, c => if c = 34 ∨ c = 36 ∨ c = 92 then [92, c] else [c]

def quoteMark : Quotes → UInt8
  | .single => 39
  | .double => 34

def inQuotes (q : Quotes) (t : List UInt8) : List UInt8 := quoteMark q :: (t.flatMap (quotedByte q) ++ [quoteMark q])

/-- Write a backslash before a semicolon at the end. -/
def escapeSemicolon (arg : List UInt8) : List UInt8 :=
  if arg.getLast? = some 59 then arg.dropLast ++ [92, 59] else arg

/-- The words of argument vectors, with a lone semicolon between two of them. -/
def vectorWords (write : List UInt8 → List UInt8) (vs : List (List Text)) : List (List UInt8) :=
  List.intercalate [[59]] (vs.map fun argv => argv.map fun arg => write arg.1)

theorem zero_notMem_inQuotes {t : List UInt8} (q : Quotes) (h : 0 ∉ t) : 0 ∉ inQuotes q t := by
  have hmark : (0 : UInt8) ≠ quoteMark q := by cases q <;> decide
  refine List.not_mem_cons_of_ne_of_not_mem hmark fun h0 => ?_
  rcases List.mem_append.1 h0 with h0 | h0
  · obtain ⟨c, hc, h0⟩ := List.mem_flatMap.1 h0
    have hne : c ≠ 0 := fun h' => h (h' ▸ hc)
    cases q with
    | single =>
      rw [quotedByte] at h0
      split at h0
      · exact absurd h0 (by decide)
      · exact hne (List.mem_singleton.1 h0).symm
    | double =>
      rw [quotedByte] at h0
      split at h0
      · rcases List.mem_cons.1 h0 with h0 | h0
        · exact absurd h0 (by decide)
        · exact hne (List.mem_singleton.1 h0).symm
      · exact hne (List.mem_singleton.1 h0).symm
  · exact hmark (List.mem_singleton.1 h0)

/-- An argument ends in a semicolon, before which the backslash is written, or it is written as it is. -/
theorem escapeSemicolon_cases (arg : List UInt8) :
    (∃ b, arg = b ++ [59] ∧ escapeSemicolon arg = b ++ [92, 59]) ∨
    (arg.getLast? ≠ some 59 ∧ escapeSemicolon arg = arg) := by
  by_cases hlast : arg.getLast? = some 59
  · obtain ⟨b, rfl⟩ := List.getLast?_eq_some_iff.1 hlast
    refine .inl ⟨b, rfl, ?_⟩
    rw [escapeSemicolon, if_pos hlast, List.dropLast_concat]
  · exact .inr ⟨hlast, if_neg hlast⟩

theorem zero_notMem_escapeSemicolon {arg : List UInt8} (h : 0 ∉ arg) : 0 ∉ escapeSemicolon arg := by
  rcases escapeSemicolon_cases arg with ⟨b, rfl, hwritten⟩ | ⟨-, hwritten⟩
  · rw [hwritten]
    refine fun h0 => (List.mem_append.1 h0).elim (fun h0 => h (List.mem_append_left _ h0)) (by decide)
  · rwa [hwritten]

/-- What holds of all bytes of the items and of the separator holds of all bytes of the joined items. -/
theorem forall_mem_intercalate {α : Type} {P : α → Prop} {sep : List α} {items : List (List α)}
    (hsep : ∀ a ∈ sep, P a) (hitems : ∀ item ∈ items, ∀ a ∈ item, P a) : ∀ a ∈ List.intercalate sep items, P a := by
  induction items with
  | nil => exact fun a ha => absurd ha List.not_mem_nil
  | cons item items ih =>
    have hrest := ih fun item' h => hitems item' (List.mem_cons_of_mem _ h)
    rcases items with _ | ⟨item', items⟩
    · rw [List.intercalate_singleton]
      exact hitems item List.mem_cons_self
    · rw [List.intercalate_cons_cons]
      intro a ha
      rcases List.mem_append.1 ha with ha | ha
      · rcases List.mem_append.1 ha with ha | ha
        · exact hitems item List.mem_cons_self a ha
        · exact hsep a ha
      · exact hrest a ha

/-- The line that argument vectors are written as. -/
def commandLine (q : Quotes) (vs : List (List Text)) : Text :=
  ⟨List.intercalate [32] (vectorWords (fun arg => inQuotes q (escapeSemicolon arg)) vs), by
    intro h0
    refine forall_mem_intercalate (P := fun c => (0 : UInt8) ≠ c) ?_ ?_ 0 h0 rfl
    · simp
    · refine forall_mem_intercalate (P := fun w => ∀ c ∈ w, (0 : UInt8) ≠ c) ?_ fun words hwords w hw c hc h => ?_
      · simp
      · obtain ⟨argv, -, rfl⟩ := List.mem_map.1 hwords
        obtain ⟨arg, -, rfl⟩ := List.mem_map.1 hw
        exact zero_notMem_inQuotes q (zero_notMem_escapeSemicolon arg.2) (h ▸ hc)⟩

/-! ## Reading -/

variable {env : Environ} {pw : Passwd} {argv : List (List UInt8)}

/-- A text that is read as a part of a word, wherever it stands outside of quotes. -/
def ReadsAs (env : Environ) (pw : Passwd) (w t : List UInt8) : Prop :=
  ∀ word r buf argv, putTogether env pw (scan (.plain word) (w ++ r)) buf argv =
    putTogether env pw (scan (.plain true) r) (addText buf t) argv

theorem scan_single_quoted (c : UInt8) (r w : List UInt8) :
    putTogether env pw (scan .single (quotedByte .single c ++ r)) (some w) argv =
      putTogether env pw (scan .single r) (some (w ++ [c])) argv := by
  rw [quotedByte]
  split
  · next h =>
    rw [h]
    show putTogether env pw (.text [] :: .text [39] :: .text [] :: scan .single r) (some w) argv = _
    rw [putTogether, putTogether, putTogether, addText, addText, addText]
    simp
  · next h =>
    rw [List.singleton_append, scan_cons (show scanStep .single c = _ from if_neg h)]
    rfl

theorem scan_double_quoted (c : UInt8) (r w : List UInt8) :
    putTogether env pw (scan .double (quotedByte .double c ++ r)) (some w) argv =
      putTogether env pw (scan .double r) (some (w ++ [c])) argv := by
  rw [quotedByte]
  split
  · next h =>
    have hc : escaped c = c := by
      rcases h with rfl | rfl | rfl <;> rfl
    show putTogether env pw (.text [escaped c] :: scan .double r) (some w) argv = _
    rw [hc]
    rfl
  · next h =>
    have hstep : scanStep .double c = ([.text [c]], some .double) := by
      rw [scanStep, scanDouble, if_neg fun h' => h (.inl h'), if_neg fun h' => h (.inr (.inr h')),
        if_neg fun h' => h (.inr (.inl h'))]
    rw [List.singleton_append, scan_cons hstep]
    rfl

/-- What is in quotes is read as it is. -/
theorem inQuotes_readsAs (q : Quotes) (t : List UInt8) : ReadsAs env pw (inQuotes q t) t := by
  intro word r buf argv
  have hbyte : ∃ mode, (∀ c r w, putTogether env pw (scan mode (quotedByte q c ++ r)) (some w) argv =
      putTogether env pw (scan mode r) (some (w ++ [c])) argv) ∧
      (∀ r, scan (.plain word) (quoteMark q :: r) = .text [] :: scan mode r) ∧
      ∀ r, scan mode (quoteMark q :: r) = scan (.plain true) r := by
    cases q with
    | single => exact ⟨.single, scan_single_quoted, fun _ => rfl, fun _ => rfl⟩
    | double => exact ⟨.double, scan_double_quoted, fun _ => rfl, fun _ => rfl⟩
  obtain ⟨mode, hbyte, hopen, hclose⟩ := hbyte
  have hbytes : ∀ t w, putTogether env pw (scan mode (t.flatMap (quotedByte q) ++ ([quoteMark q] ++ r))) (some w) argv =
      putTogether env pw (scan (.plain true) r) (some (w ++ t)) argv := by
    intro t
    induction t with
    | nil =>
      intro w
      rw [List.flatMap_nil, List.nil_append, List.singleton_append, hclose, List.append_nil]
    | cons c t ih =>
      intro w
      rw [List.flatMap_cons, List.append_assoc, hbyte, ih, List.append_assoc, List.singleton_append]
  rw [inQuotes, List.cons_append, List.append_assoc, hopen, putTogether, addText, List.append_nil, hbytes]
  rfl

theorem semicolon_readsAs : ReadsAs env pw [59] [59] := fun _ _ _ _ => rfl

/-- Words that are read as texts, with blanks between them, are split into those texts. -/
theorem putTogether_words {ws ts : List (List UInt8)} (h : List.Forall₂ (ReadsAs env pw) ws ts)
    (argv : List (List UInt8)) :
    putTogether env pw (scan (.plain false) (List.intercalate [32] ws)) none argv = pure (some (argv ++ ts)) := by
  induction h generalizing argv with
  | nil =>
    rw [List.intercalate_nil]
    rfl
  | @cons w t ws ts hw hws ih =>
    rcases ws with _ | ⟨w', ws⟩
    · cases hws
      have h := hw false [] none argv
      rw [List.append_nil] at h
      rw [List.intercalate_singleton, h]
      rfl
    · rw [List.intercalate_cons_cons, List.append_assoc, hw]
      show putTogether env pw (.blank :: scan (.plain false) (List.intercalate [32] (w' :: ws))) _ argv = _
      rw [putTogether, ih]
      simp [addText, endWord]

/-! ## Splitting into commands -/

section Commands

variable {γ ε : Type} (cmdParse : List (List UInt8) → Except ε γ)

/-- The argument vectors that are parsed until one is not accepted. -/
def parsedUntilError : List (List (List UInt8)) → List (List (List UInt8))
  | [] => []
  | argv :: vs => argv :: if (cmdParse argv).isOk then parsedUntilError vs else []

theorem parsedUntilError_prefix (vs : List (List (List UInt8))) : parsedUntilError cmdParse vs <+: vs := by
  induction vs with
  | nil => exact List.prefix_rfl
  | cons argv vs ih =>
    rw [parsedUntilError, List.prefix_cons_inj]
    split
    · exact ih
    · exact List.nil_prefix

/-- An argument is taken as it is, without the backslash that is written before its semicolon. -/
theorem cmdListSplit_escapeSemicolon (arg : List UInt8) (argv cur : List (List UInt8)) (calls : List (List (List UInt8)))
    (cmds : List γ) :
    cmdListSplit cmdParse (escapeSemicolon arg :: argv) cur calls cmds =
      cmdListSplit cmdParse argv (cur ++ [arg]) calls cmds := by
  rw [cmdListSplit]
  rcases escapeSemicolon_cases arg with ⟨b, rfl, hwritten⟩ | ⟨hlast, hwritten⟩
  · have hsplit : b ++ [92, 59] = (b ++ [92]) ++ [59] := by rw [List.append_assoc]; rfl
    rw [hwritten, hsplit, if_neg (not_not.2 List.getLast?_concat), List.dropLast_concat, if_pos List.getLast?_concat,
      List.dropLast_concat]
  · rw [hwritten, if_pos hlast]

theorem cmdListSplit_vector (v : List Text) (argv cur : List (List UInt8)) (calls : List (List (List UInt8)))
    (cmds : List γ) :
    cmdListSplit cmdParse ((v.map fun arg => escapeSemicolon arg.1) ++ argv) cur calls cmds =
      cmdListSplit cmdParse argv (cur ++ v.map Subtype.val) calls cmds := by
  induction v generalizing cur with
  | nil => rw [List.map_nil, List.map_nil, List.nil_append, List.append_nil]
  | cons arg v ih =>
    rw [List.map_cons, List.cons_append, cmdListSplit_escapeSemicolon, ih, List.append_assoc]
    rfl

/-- The words of argument vectors are split into those vectors again. -/
theorem cmdListSplit_vectorWords {vs : List (List Text)} (hvs : ∀ v ∈ vs, v ≠ []) (calls : List (List (List UInt8)))
    (cmds : List γ) :
    cmdListSplit cmdParse (vectorWords escapeSemicolon vs) [] calls cmds =
      (calls ++ parsedUntilError cmdParse (vs.map (·.map Subtype.val)),
        ((vs.map (·.map Subtype.val)).mapM cmdParse).map (cmds ++ ·)) := by
  induction vs generalizing calls cmds with
  | nil =>
    show (calls, Except.ok cmds) = (calls ++ [], Except.ok (cmds ++ []))
    rw [List.append_nil, List.append_nil]
  | cons v vs ih =>
    have hv : v.map Subtype.val ≠ [] := fun h => hvs v List.mem_cons_self (List.map_eq_nil_iff.1 h)
    rw [List.map_cons, parsedUntilError, List.mapM_cons]
    rcases vs with _ | ⟨v', vs⟩
    · rw [vectorWords, List.map_singleton, List.intercalate_singleton, ← List.append_nil (List.map _ v),
        cmdListSplit_vector, List.nil_append, cmdListSplit, if_pos hv]
      cases cmdParse (v.map Subtype.val) <;> rfl
    · have hwords : vectorWords escapeSemicolon (v :: v' :: vs) =
          (v.map fun arg => escapeSemicolon arg.1) ++ [59] :: vectorWords escapeSemicolon (v' :: vs) := by
        rw [vectorWords, List.map_cons, List.map_cons, List.intercalate_cons_cons, List.append_assoc]
        rfl
      rw [hwords, cmdListSplit_vector, List.nil_append, cmdListSplit, if_neg (by decide), if_neg (by decide),
        if_neg (by decide)]
      dsimp only
      cases cmdParse (v.map Subtype.val) with
      | error cause => rfl
      | ok cmd =>
        dsimp only
        rw [ih fun w hw => hvs w (List.mem_cons_of_mem _ hw), List.append_assoc]
        cases (List.map (fun argv => List.map Subtype.val argv) (v' :: vs)).mapM cmdParse with
        | error cause => rfl
        | ok cmds' =>
          show (_, Except.ok (cmds ++ [cmd] ++ cmds')) = (_, Except.ok (cmds ++ cmd :: cmds'))
          rw [List.append_assoc]
          rfl

variable {cmdParse}

theorem isAssignment_cons (c : UInt8) (b : List UInt8) :
    isAssignment (c :: b) = ((c ≠ 32 && c ≠ 9) && (61 == c || isAssignment b)) := by
  rw [isAssignment, List.takeWhile_cons]
  cases (decide (c ≠ 32) && decide (c ≠ 9)) with
  | false => rfl
  | true => rw [if_pos rfl, List.contains_cons, Bool.true_and, isAssignment]

/-- What has no equals sign does not make an assignment of a word. -/
theorem isAssignment_append {b t : List UInt8} (ht : 61 ∉ t) : isAssignment (b ++ t) = isAssignment b := by
  induction b with
  | nil =>
    have hnot : 61 ∉ t.takeWhile fun c => c ≠ 32 && c ≠ 9 := fun h => ht ((List.takeWhile_sublist _).subset h)
    rw [List.nil_append, isAssignment, List.contains_eq_mem, decide_eq_false hnot]
    rfl
  | cons c b ih => rw [List.cons_append, isAssignment_cons, isAssignment_cons, ih]

theorem isAssignment_escapeSemicolon (arg : List UInt8) : isAssignment (escapeSemicolon arg) = isAssignment arg := by
  rcases escapeSemicolon_cases arg with ⟨b, rfl, hwritten⟩ | ⟨-, hwritten⟩
  · rw [hwritten, isAssignment_append (by decide), isAssignment_append (by decide)]
  · rw [hwritten]

theorem vectorWords_readsAs (q : Quotes) (vs : List (List Text)) :
    List.Forall₂ (ReadsAs env pw) (vectorWords (fun arg => inQuotes q (escapeSemicolon arg)) vs)
      (vectorWords escapeSemicolon vs) := by
  induction vs with
  | nil => exact .nil
  | cons v vs ih =>
    have hv : List.Forall₂ (ReadsAs env pw) (v.map fun arg => inQuotes q (escapeSemicolon arg.1))
        (v.map fun arg => escapeSemicolon arg.1) := by
      rw [List.forall₂_map_left_iff, List.forall₂_map_right_iff, List.forall₂_same]
      exact fun arg _ => inQuotes_readsAs q (escapeSemicolon arg.1)
    rcases vs with _ | ⟨v', vs⟩
    · rw [vectorWords, vectorWords, List.map_singleton, List.map_singleton, List.intercalate_singleton,
        List.intercalate_singleton]
      exact hv
    · rw [vectorWords, vectorWords, List.map_cons, List.map_cons, List.map_cons, List.map_cons,
        List.intercalate_cons_cons, List.intercalate_cons_cons]
      exact List.rel_append (List.rel_append hv (.cons semicolon_readsAs .nil)) ih

/-- The first word is the first argument. -/
theorem vectorWords_cons (write : List UInt8 → List UInt8) (arg : Text) (argv : List Text) (vs : List (List Text)) :
    ∃ words, vectorWords write ((arg :: argv) :: vs) = write arg.1 :: words := by
  rcases vs with _ | ⟨v, vs⟩
  · rw [vectorWords, List.map_singleton, List.intercalate_singleton]
    exact ⟨_, rfl⟩
  · rw [vectorWords, List.map_cons, List.map_cons, List.map_cons, List.intercalate_cons_cons]
    exact ⟨_, rfl⟩

/-- A line that vectors of arguments are written as, the first of which is no assignment, is parsed as those vectors
    of arguments, in order, until one is not accepted. -/
theorem cmdStringParse_commandLine (env : Environ) (pw : Passwd) (cmdParse : List (List UInt8) → Except ε γ)
    (q : Quotes) (arg : Text) (argv : List Text) (vs : List (List Text)) (hvs : ∀ v ∈ vs, v ≠ [])
    (harg : isAssignment arg.1 = false) :
    cmdStringParse env pw cmdParse (inMemory (commandLine q ((arg :: argv) :: vs))) = pure {
      env
      calls := parsedUntilError cmdParse (((arg :: argv) :: vs).map (·.map Subtype.val))
      cmdlist := ((((arg :: argv) :: vs).map (·.map Subtype.val)).mapM cmdParse).mapError .parse } := by
  have hwords : cmdStringWords env pw (inMemory (commandLine q ((arg :: argv) :: vs)))
      ((inMemory (commandLine q ((arg :: argv) :: vs))).length + 1) 0 none [] =
      pure (some (vectorWords escapeSemicolon ((arg :: argv) :: vs))) := by
    rw [cmdStringWords_text]
    exact putTogether_words (vectorWords_readsAs q _) []
  obtain ⟨words, hcons⟩ := vectorWords_cons escapeSemicolon arg argv vs
  have hnone : putVariables env (vectorWords escapeSemicolon ((arg :: argv) :: vs)) =
      (env, vectorWords escapeSemicolon ((arg :: argv) :: vs)) := by
    rw [hcons, putVariables, isAssignment_escapeSemicolon, harg, if_neg Bool.false_ne_true]
  have hvectors : ∀ v ∈ (arg :: argv) :: vs, v ≠ [] := List.forall_mem_cons.2 ⟨List.cons_ne_nil arg argv, hvs⟩
  rw [cmdStringParse, hwords, pure_bind]
  dsimp only
  rw [hnone]
  dsimp only
  rw [if_neg (by rw [hcons]; exact List.cons_ne_nil _ _), cmdListParse, cmdListSplit_vectorWords cmdParse hvectors]
  cases (((arg :: argv) :: vs).map fun v => v.map Subtype.val).mapM cmdParse with
  | error cause => rfl
  | ok cmds => rfl

/-- The commands `a ;` and `'` in single quotes, where `a` alone is not accepted. -/
theorem cmdStringParse_commandLine_small :
    isAssignment [97] = false ∧
    cmdStringParse [] ⟨none, fun _ => none⟩ (fun argv => if argv = [[97]] then .error () else .ok argv)
      (inMemory (commandLine .single [[⟨[97], by decide⟩, ⟨[59], by decide⟩], [⟨[39], by decide⟩]])) = pure {
      env := []
      calls := [[[97], [59]], [[39]]]
      cmdlist := .ok [[[97], [59]], [[39]]] } :=
  ⟨rfl, cmdStringParse_commandLine [] ⟨none, fun _ => none⟩ (fun argv => if argv = [[97]] then .error () else .ok argv)
    .single ⟨[97], by decide⟩ [⟨[59], by decide⟩] [[⟨[39], by decide⟩]]
    (fun v hv => List.mem_singleton.1 hv ▸ List.cons_ne_nil _ _) rfl⟩

end Commands

end Tmux
