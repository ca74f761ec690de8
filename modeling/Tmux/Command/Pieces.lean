import Tmux.Command.Parse

/-!
# The pieces of a command string

What the parser finds in a command string does not depend on the values of variables: it is a list of
*pieces* (`scan`), got byte by byte by a machine with a few modes (`Mode`). Putting the pieces together
(`putTogether`) looks up variables and home directories, and stops at the first error.

That is what the parser does (`cmdStringWords_eq`), whose places in memory go forth and back. So it stays in
the string and ends, and the only thing that can go wrong is a variable without a value (`missesValue`) among
the pieces that it gets to (`cmdStringParse_iff`).
-/

namespace Tmux

open Exec CString

/-- What is found in a command string. -/
inductive Piece
  /-- A text that is added to the word. -/
  | text (t : List UInt8)
  /-- The value of a variable. -/
  | value (name : List UInt8)
  /-- The home directory of the user that the server runs as. -/
  | home
  /-- The home directory of a user. -/
  | user (name : List UInt8)
  /-- The word ends. -/
  | blank
  | error
  deriving DecidableEq

/-- Where the parser is. -/
inductive Mode
  /-- Outside of quotes, in a word or not. -/
  | plain (word : Bool)
  | single
  | double
  /-- After a backslash between double quotes. -/
  | backslash
  /-- After a `$`, between double quotes or not. -/
  | dollar (quoted : Bool)
  /-- After `${`. -/
  | brace (quoted : Bool)
  /-- In the name of a variable, between braces or not. -/
  | name (quoted braced : Bool) (acc : List UInt8)
  /-- After a `~` at the start of a word. -/
  | tilde
  | user (acc : List UInt8)

/-- After a variable, the mode is that before the `$`, in a word. -/
def afterVariable (quoted : Bool) : Mode := if quoted then .double else .plain true

/-- The piece that ends at a byte outside of names, and the mode after it; none if nothing is read after it. -/
def scanPlain (word : Bool) (c : UInt8) : List Piece × Option Mode :=
  if c = 39 then ([.text []], some .single)
  else if c = 34 then ([.text []], some .double)
  else if c = 36 then ([], some (.dollar false))
  else if c = 35 then ([], none)
  else if c = 32 ∨ c = 9 then ([.blank], some (.plain false))
  else if c = 126 ∧ word = false then ([], some .tilde)
  else ([.text [c]], some (.plain true))

def scanDouble (c : UInt8) : List Piece × Option Mode :=
  if c = 34 then ([], some (.plain true))
  else if c = 92 then ([], some .backslash)
  else if c = 36 then ([], some (.dollar true))
  else ([.text [c]], some .double)

/-- The pieces that end at a byte, and the mode after it. -/
def scanStep : Mode → UInt8 → List Piece × Option Mode
  | .plain word, c => scanPlain word c
  | .single, c => if c = 39 then ([], some (.plain true)) else ([.text [c]], some .single)
  | .double, c => scanDouble c
  | .backslash, c => ([.text [escaped c]], some .double)
  | .dollar quoted, c =>
    if c = 123 then ([], some (.brace quoted))
    else if cmdStringFirst c then ([], some (.name quoted false [c]))
    else ([.text [36, c]], some (afterVariable quoted))
  | .brace quoted, c => if cmdStringFirst c then ([], some (.name quoted true [c])) else ([.error], none)
  | .name quoted braced acc, c =>
    if cmdStringOther c then ([], some (.name quoted braced (acc ++ [c])))
    else if braced then if c = 125 then ([.value acc], some (afterVariable quoted)) else ([.error], none)
    else
      -- The byte after the name is read again.
      let (pieces, mode) := if quoted then scanDouble c else scanPlain true c
      (.value acc :: pieces, mode)
  | .tilde, c => if c = 47 then ([.home], some (.plain true)) else ([], some (.user [c]))
  | .user acc, c => if c = 47 then ([.user acc], some (.plain true)) else ([], some (.user (acc ++ [c])))

/-- The pieces at the end of the string. -/
def scanEnd : Mode → List Piece
  | .plain _ => []
  | .name quoted braced acc => if braced then [.error] else if quoted then [.value acc, .error] else [.value acc]
  | _ => [.error]

/-- The pieces of a string from a mode on. -/
def scan : Mode → List UInt8 → List Piece
  | mode, [] => scanEnd mode
  | mode, c :: s =>
    match scanStep mode c with
    | (pieces, some mode) => pieces ++ scan mode s
    | (pieces, none) => pieces

/-- Put words together from pieces; nothing if there is an error. -/
def putTogether (env : Environ) (pw : Passwd) :
    List Piece → Option (List UInt8) → List (List UInt8) → Exec (Option (List (List UInt8)))
  | [], buf, argv => pure (some (endWord buf argv))
  | .text t :: pieces, buf, argv => putTogether env pw pieces (addText buf t) argv
  | .value name :: pieces, buf, argv => do
    let value ← variableValue env name
    putTogether env pw pieces (addText buf value) argv
  | .home :: pieces, buf, argv => do
    match ← homeDirectory env pw with
    | none => pure none
    | some home => putTogether env pw pieces (addText buf (home.1 ++ [47])) argv
  | .user name :: pieces, buf, argv =>
    match pw.homeOf name with
    | none => pure none
    | some home => putTogether env pw pieces (addText buf (home.1 ++ [47])) argv
  | .blank :: pieces, buf, argv => putTogether env pw pieces none (endWord buf argv)
  | .error :: _, _, _ => pure none

/-- A variable without a value is among the pieces before the first error. -/
def missesValue (env : Environ) (pw : Passwd) : List Piece → Bool
  | [] => false
  | .value name :: pieces => environFind env name == some none || missesValue env pw pieces
  | .home :: pieces =>
    match environFind env [72, 79, 77, 69] with
    | some none => true
    | some (some value) => (value.1 ≠ [] || pw.home.isSome) && missesValue env pw pieces
    | none => pw.home.isSome && missesValue env pw pieces
  | .user name :: pieces => (pw.homeOf name).isSome && missesValue env pw pieces
  | .error :: _ => false
  | _ :: pieces => missesValue env pw pieces

/-! ## Places -/

variable {env : Environ} {pw : Passwd} {s r : List UInt8} {p n fuel : ℕ} {buf : Option (List UInt8)}
  {argv : List (List UInt8)}

/-- The bytes from a place on, up to the null byte at the end. -/
structure RestAt (s : List UInt8) (p : ℕ) (r : List UInt8) : Prop where
  drop : s.drop p = r ++ [0]
  text : 0 ∉ r

theorem RestAt.tail {c : UInt8} (h : RestAt s p (c :: r)) : RestAt s (p + 1) r where
  drop := by rw [← List.drop_drop, h.drop]; rfl
  text h0 := h.text (List.mem_cons_of_mem _ h0)

theorem RestAt.load {c : UInt8} (h : s.drop p = c :: r) : Block.load s p = pure c := by
  refine Block.load_eq ?_
  rw [← List.head?_drop, h]
  rfl

theorem getc_nil (h : RestAt s p []) : cmdStringGetc s p = pure (none, p) := by
  rw [cmdStringGetc, RestAt.load h.drop, pure_bind, if_pos rfl]

theorem getc_cons {c : UInt8} (h : RestAt s p (c :: r)) : cmdStringGetc s p = pure (some c, p + 1) := by
  have hc : c ≠ 0 := fun h0 => h.text (h0 ▸ List.mem_cons_self)
  rw [cmdStringGetc, RestAt.load h.drop, pure_bind, if_neg hc]

theorem ungetc_succ (p : ℕ) : cmdStringUngetc (p + 1) = pure p := rfl

/-! ## Variables -/

/-- A place with fewer bytes after it than a bound, from where on the pieces go on from a mode. -/
def GoesOn (s : List UInt8) (n : ℕ) (pieces : List Piece) (mode : Mode) (p : ℕ) : Prop :=
  ∃ r, RestAt s p r ∧ r.length < n ∧ scan mode r = pieces

theorem scan_cons {mode : Mode} {c : UInt8} {pieces : List Piece} {mode' : Mode}
    (h : scanStep mode c = (pieces, some mode')) (r : List UInt8) : scan mode (c :: r) = pieces ++ scan mode' r := by
  rw [scan, h]

theorem scan_cons_none {mode : Mode} {c : UInt8} {pieces : List Piece} (h : scanStep mode c = (pieces, none))
    (r : List UInt8) : scan mode (c :: r) = pieces := by
  rw [scan, h]

/-- The byte after a name without braces is read in the mode that follows. -/
theorem scan_name_end (quoted : Bool) {acc : List UInt8} {c : UInt8} (hother : cmdStringOther c = false)
    (r : List UInt8) : scan (.name quoted false acc) (c :: r) = .value acc :: scan (afterVariable quoted) (c :: r) := by
  have hstep : scanStep (.name quoted false acc) c =
      (.value acc :: (scanStep (afterVariable quoted) c).1, (scanStep (afterVariable quoted) c).2) := by
    rw [scanStep, hother, if_neg Bool.false_ne_true, if_neg Bool.false_ne_true]
    cases quoted <;> rfl
  rcases hafter : scanStep (afterVariable quoted) c with ⟨pieces, _ | mode⟩
  · rw [hafter] at hstep
    rw [scan_cons_none hstep, scan_cons_none hafter]
  · rw [hafter] at hstep
    rw [scan_cons hstep, scan_cons hafter, List.cons_append]

/-- The name of a variable is read up to a byte that is in no name, or to the end. -/
theorem variableName_eq (quoted braced : Bool) (h : RestAt s p r) (hfuel : r.length < fuel) (acc : List UInt8) :
    ∃ acc' c p', variableName s fuel p acc = pure (acc', c, p') ∧
      match c with
      | none => RestAt s p' [] ∧ scan (.name quoted braced acc) r = scanEnd (.name quoted braced acc')
      | some c => cmdStringOther c = false ∧ ∃ q r', p' = q + 1 ∧ RestAt s q (c :: r') ∧ r'.length < r.length ∧
          scan (.name quoted braced acc) r = scan (.name quoted braced acc') (c :: r') := by
  induction fuel generalizing p r acc with
  | zero => exact absurd hfuel (Nat.not_lt_zero _)
  | succ fuel ih =>
    rcases r with _ | ⟨c, r⟩
    · exact ⟨acc, none, p, by rw [variableName, getc_nil h, pure_bind], h, rfl⟩
    · rw [variableName, getc_cons h, pure_bind]
      dsimp only
      cases hother : cmdStringOther c with
      | true =>
        obtain ⟨acc', c', p', hname, hrest⟩ := ih h.tail (Nat.lt_of_succ_lt_succ hfuel) (acc ++ [c])
        refine ⟨acc', c', p', by rw [if_pos rfl, hname], ?_⟩
        have hstep : scanStep (.name quoted braced acc) c = ([], some (.name quoted braced (acc ++ [c]))) := by
          rw [scanStep, if_pos hother]
        rw [scan_cons hstep, List.nil_append]
        cases c' with
        | none => exact hrest
        | some c' =>
          obtain ⟨hc', q, r', rfl, hq, hlen, hscan'⟩ := hrest
          exact ⟨hc', q, r', rfl, hq, Nat.lt_succ_of_lt hlen, hscan'⟩
      | false =>
        exact ⟨acc, some c, p + 1, by rw [if_neg Bool.false_ne_true], hother, p, r, rfl, h, Nat.lt_succ_self _, rfl⟩

/-- A variable is a text or the value of a name, after which the pieces go on; or an error. -/
theorem cmdStringVariable_eq (env : Environ) (quoted : Bool) (h : RestAt s p r) (hfuel : r.length < fuel)
    (hn : r.length < n) :
    (∃ p', cmdStringVariable env s fuel p = pure (none, p') ∧ scan (.dollar quoted) r = [.error]) ∨
    (∃ t p' pieces, cmdStringVariable env s fuel p = pure (some t, p') ∧
      scan (.dollar quoted) r = .text t :: pieces ∧ GoesOn s n pieces (afterVariable quoted) p') ∨
    ∃ name p' pieces, cmdStringVariable env s fuel p = (do let value ← variableValue env name; pure (some value, p')) ∧
      scan (.dollar quoted) r = .value name :: pieces ∧ GoesOn s n pieces (afterVariable quoted) p' := by
  rcases r with _ | ⟨c, r⟩
  · exact .inl ⟨p, by rw [cmdStringVariable, getc_nil h, pure_bind], rfl⟩
  have hlt : r.length < fuel := Nat.lt_of_succ_lt hfuel
  have hltn : r.length < n := Nat.lt_of_succ_lt hn
  rw [cmdStringVariable, getc_cons h, pure_bind]
  dsimp only
  by_cases hbrace : c = 123
  · rw [if_pos hbrace]
    have hstep : scanStep (.dollar quoted) c = ([], some (.brace quoted)) := by rw [scanStep, if_pos hbrace]
    rw [scan_cons hstep, List.nil_append]
    rcases r with _ | ⟨d, r⟩
    · exact .inl ⟨p + 1, by rw [getc_nil h.tail, pure_bind], rfl⟩
    rw [getc_cons h.tail, pure_bind]
    dsimp only
    cases hfirst : cmdStringFirst d with
    | false =>
      exact .inl ⟨_, if_pos rfl, scan_cons_none (by rw [scanStep, hfirst, if_neg Bool.false_ne_true]) r⟩
    | true =>
      rw [if_neg (by decide)]
      have hstep : scanStep (.brace quoted) d = ([], some (.name quoted true [d])) := by rw [scanStep, if_pos hfirst]
      obtain ⟨acc, c', p', hname, hrest⟩ := variableName_eq quoted true h.tail.tail (Nat.lt_of_succ_lt hlt) [d]
      rw [scan_cons hstep, List.nil_append, hname, pure_bind]
      dsimp only
      cases c' with
      | none =>
        refine .inl ⟨p', if_pos (Option.some_ne_none _).symm, hrest.2⟩
      | some c' =>
        obtain ⟨hother, q, r', rfl, hq, hlen, hscan'⟩ := hrest
        rw [hscan']
        by_cases hclose : c' = 125
        · refine .inr (.inr ⟨acc, q + 1, scan (afterVariable quoted) r', ?_, ?_, r', hq.tail, ?_, rfl⟩)
          · rw [if_neg (by rw [hclose]; exact not_not.2 rfl)]
          · have hend : scanStep (.name quoted true acc) c' = ([.value acc], some (afterVariable quoted)) := by
              rw [scanStep, hother, if_neg Bool.false_ne_true, if_pos rfl, if_pos hclose]
            exact scan_cons hend r'
          · exact Nat.lt_trans hlen (Nat.lt_of_succ_lt hltn)
        · have hend : scanStep (.name quoted true acc) c' = ([.error], none) := by
            rw [scanStep, hother, if_neg Bool.false_ne_true, if_pos rfl, if_neg hclose]
          exact .inl ⟨q + 1, if_pos fun h => hclose (Option.some.inj h), scan_cons_none hend r'⟩
  · rw [if_neg hbrace]
    cases hfirst : cmdStringFirst c with
    | false =>
      have hstep : scanStep (.dollar quoted) c = ([.text [36, c]], some (afterVariable quoted)) := by
        rw [scanStep, if_neg hbrace, hfirst, if_neg Bool.false_ne_true]
      exact .inr (.inl ⟨[36, c], p + 1, _, if_pos rfl, scan_cons hstep r, r, h.tail, hltn, rfl⟩)
    | true =>
      rw [if_neg (by decide)]
      have hstep : scanStep (.dollar quoted) c = ([], some (.name quoted false [c])) := by
        rw [scanStep, if_neg hbrace, if_pos hfirst]
      obtain ⟨acc, c', p', hname, hrest⟩ := variableName_eq quoted false h.tail hlt [c]
      rw [scan_cons hstep, List.nil_append, hname, pure_bind]
      dsimp only
      cases c' with
      | none =>
        refine .inr (.inr ⟨acc, p', scan (afterVariable quoted) [], ?_, ?_, [], hrest.1,
          Nat.lt_of_le_of_lt (Nat.zero_le _) hltn, rfl⟩)
        · rw [if_neg (not_not.2 rfl), pure_bind]
        · rw [hrest.2]
          cases quoted <;> rfl
      | some c' =>
        obtain ⟨hother, q, r', rfl, hq, hlen, hscan'⟩ := hrest
        refine .inr (.inr ⟨acc, q, scan (afterVariable quoted) (c' :: r'), ?_, ?_, c' :: r', hq, ?_, rfl⟩)
        · rw [if_pos (Option.some_ne_none c'), ungetc_succ, pure_bind]
        · rw [hscan', scan_name_end quoted hother]
        · rw [List.length_cons]
          omega

/-! ## Quotes and home directories -/

/-- Without backslashes and variables, a string is what is before the byte that ends it. -/
theorem cmdStringString_plain (env : Environ) (endch : UInt8) (h : RestAt s p r) (hfuel : r.length < fuel)
    (buf : List UInt8) :
    (∃ t p' r', r = t ++ endch :: r' ∧ endch ∉ t ∧ RestAt s p' r' ∧
      cmdStringString env s endch false fuel p buf = pure (some (buf ++ t), p')) ∨
    (endch ∉ r ∧ ∃ p', cmdStringString env s endch false fuel p buf = pure (none, p')) := by
  induction fuel generalizing p r buf with
  | zero => exact absurd hfuel (Nat.not_lt_zero _)
  | succ fuel ih =>
    rcases r with _ | ⟨c, r⟩
    · exact .inr ⟨List.not_mem_nil, p, by rw [cmdStringString, getc_nil h, pure_bind]⟩
    rw [cmdStringString, getc_cons h, pure_bind]
    dsimp only
    by_cases hend : c = endch
    · refine .inl ⟨[], p + 1, r, by rw [hend, List.nil_append], List.not_mem_nil, h.tail, ?_⟩
      rw [if_pos hend, List.append_nil]
    · rw [if_neg hend, if_neg fun h => Bool.false_ne_true h.2, if_neg fun h => Bool.false_ne_true h.2]
      rcases ih h.tail (Nat.lt_of_succ_lt_succ hfuel) (buf ++ [c]) with ⟨t, p', r', rfl, ht, hr', heq⟩ | ⟨hr, p', heq⟩
      · refine .inl ⟨c :: t, p', r', rfl, ?_, hr', ?_⟩
        · exact List.not_mem_cons_of_ne_of_not_mem (Ne.symm hend) ht
        · rw [heq, List.append_assoc, List.singleton_append]
      · exact .inr ⟨List.not_mem_cons_of_ne_of_not_mem (Ne.symm hend) hr, p', heq⟩

theorem scan_single {t : List UInt8} (h : 39 ∉ t) (r : List UInt8) :
    scan .single (t ++ r) = t.map (fun c => .text [c]) ++ scan .single r := by
  induction t with
  | nil => rfl
  | cons c t ih =>
    obtain ⟨hc, ht⟩ := List.ne_and_not_mem_of_not_mem_cons h
    have hstep : scanStep .single c = ([.text [c]], some .single) := if_neg (Ne.symm hc)
    rw [List.cons_append, scan_cons hstep, ih ht]
    rfl

theorem scan_user {t : List UInt8} (h : 47 ∉ t) (acc r : List UInt8) :
    scan (.user acc) (t ++ r) = scan (.user (acc ++ t)) r := by
  induction t generalizing acc with
  | nil => rw [List.nil_append, List.append_nil]
  | cons c t ih =>
    obtain ⟨hc, ht⟩ := List.ne_and_not_mem_of_not_mem_cons h
    have hstep : scanStep (.user acc) c = ([], some (.user (acc ++ [c]))) := if_neg (Ne.symm hc)
    rw [List.cons_append, scan_cons hstep, List.nil_append, ih ht, List.append_assoc, List.singleton_append]

/-- Texts one after the other are added to the word. -/
theorem putTogether_texts (t : List UInt8) (pieces : List Piece) (w : List UInt8) :
    putTogether env pw (t.map (fun c => .text [c]) ++ pieces) (some w) argv =
      putTogether env pw pieces (some (w ++ t)) argv := by
  induction t generalizing w with
  | nil => rw [List.append_nil]; rfl
  | cons c t ih =>
    rw [List.map_cons, List.cons_append, putTogether]
    refine (ih (w ++ [c])).trans ?_
    rw [List.append_assoc, List.singleton_append]

/-- Go on with a text, if there is one. -/
def withText (next : List UInt8 → ℕ → Exec (Option (List (List UInt8)))) (x : Option (List UInt8) × ℕ) :
    Exec (Option (List (List UInt8))) :=
  match x.1 with
  | none => pure none
  | some t => next t x.2

/-- Going on with a text in the same way as with the pieces from a mode on. -/
def GoesOnFrom (env : Environ) (pw : Passwd) (s : List UInt8) (n : ℕ) (buf : Option (List UInt8))
    (argv : List (List UInt8)) (mode : Mode) (next : List UInt8 → ℕ → Exec (Option (List (List UInt8)))) : Prop :=
  ∀ t p r, RestAt s p r → r.length < n → next t p = putTogether env pw (scan mode r) (addText buf t) argv

variable {next : List UInt8 → ℕ → Exec (Option (List (List UInt8)))}

/-- A variable, and what comes after it, is put together from the pieces after the dollar sign. -/
theorem cmdStringVariable_bind (quoted : Bool) (h : RestAt s p r) (hfuel : r.length < fuel) (hn : r.length < n)
    (hnext : GoesOnFrom env pw s n buf argv (afterVariable quoted) next) :
    cmdStringVariable env s fuel p >>= withText next =
      putTogether env pw (scan (.dollar quoted) r) buf argv := by
  rcases cmdStringVariable_eq env quoted h hfuel hn with ⟨p', heq, hscan⟩ |
    ⟨t, p', pieces, heq, hscan, r', hr', hn', rfl⟩ | ⟨name, p', pieces, heq, hscan, r', hr', hn', rfl⟩
  · rw [heq, hscan, pure_bind]
    rfl
  · rw [heq, hscan, pure_bind]
    exact hnext t p' r' hr' hn'
  · rw [heq, hscan, bind_assoc, putTogether]
    refine bind_congr fun value => ?_
    rw [pure_bind]
    exact hnext value p' r' hr' hn'

/-- A string in single quotes, and what comes after it. -/
theorem cmdStringString_single (h : RestAt s p r) (hfuel : r.length < fuel) (hn : r.length < n) (w : List UInt8)
    (hnext : GoesOnFrom env pw s n (some w) argv (.plain true) next) :
    cmdStringString env s 39 false fuel p [] >>= withText next =
      putTogether env pw (scan .single r) (some w) argv := by
  rcases cmdStringString_plain env 39 h hfuel [] with ⟨t, p', r', rfl, ht, hr', heq⟩ | ⟨hr, p', heq⟩
  · rw [heq, pure_bind, scan_single ht, putTogether_texts, scan_cons (show scanStep .single 39 = _ from rfl),
      List.nil_append, List.nil_append]
    refine hnext t p' r' hr' (Nat.lt_of_le_of_lt ?_ hn)
    rw [List.length_append, List.length_cons]
    omega
  · have hscan : scan .single r = r.map (fun c => .text [c]) ++ [.error] := by
      have h := scan_single hr []
      rwa [List.append_nil] at h
    rw [heq, pure_bind, hscan, putTogether_texts]
    rfl

/-- A string in double quotes, and what comes after it. -/
theorem cmdStringString_double (h : RestAt s p r) (hfuel : r.length < fuel) (hn : r.length < n) (w t : List UInt8)
    (hnext : GoesOnFrom env pw s n (some w) argv (.plain true) next) :
    cmdStringString env s 34 true fuel p t >>= withText next =
      putTogether env pw (scan .double r) (some (w ++ t)) argv := by
  induction fuel generalizing p r t with
  | zero => exact absurd hfuel (Nat.not_lt_zero _)
  | succ fuel ih =>
    rw [cmdStringString, bind_assoc]
    rcases r with _ | ⟨c, r⟩
    · rw [getc_nil h, pure_bind, pure_bind]
      rfl
    have hlt : r.length < fuel := Nat.lt_of_succ_lt_succ hfuel
    have hltn : r.length < n := Nat.lt_of_succ_lt hn
    rw [getc_cons h, pure_bind]
    dsimp only
    by_cases hend : c = 34
    · have hstep : scanStep .double c = ([], some (.plain true)) := if_pos hend
      rw [if_pos hend, pure_bind, scan_cons hstep, List.nil_append]
      exact hnext t (p + 1) r h.tail hltn
    rw [if_neg hend]
    by_cases hback : c = 92
    · have hstep : scanStep .double c = ([], some .backslash) := by
        rw [scanStep, scanDouble, if_neg hend, if_pos hback]
      rw [if_pos ⟨hback, rfl⟩, scan_cons hstep, List.nil_append, bind_assoc]
      rcases r with _ | ⟨d, r⟩
      · rw [getc_nil h.tail, pure_bind, pure_bind]
        rfl
      · rw [getc_cons h.tail, pure_bind, scan_cons (show scanStep .backslash d = _ from rfl)]
        refine (ih h.tail.tail (Nat.lt_of_succ_lt hlt) (Nat.lt_of_succ_lt hltn) (t ++ [escaped d])).trans ?_
        rw [← List.append_assoc]
        rfl
    rw [if_neg fun h => hback h.1]
    by_cases hdollar : c = 36
    · have hstep : scanStep .double c = ([], some (.dollar true)) := by
        rw [scanStep, scanDouble, if_neg hend, if_neg hback, if_pos hdollar]
      rw [if_pos ⟨hdollar, rfl⟩, scan_cons hstep, List.nil_append, bind_assoc]
      -- What comes after the variable is the rest of the string.
      have hrest : GoesOnFrom env pw s (min n fuel) (some (w ++ t)) argv .double
          fun v p => cmdStringString env s 34 true fuel p (t ++ v) >>= withText next := fun v p r hr hlt => by
        refine (ih hr (hlt.trans_le (min_le_right n fuel)) (hlt.trans_le (min_le_left n fuel)) (t ++ v)).trans ?_
        rw [← List.append_assoc]
        rfl
      rw [← cmdStringVariable_bind true h.tail hlt (lt_min hltn hlt) hrest]
      refine bind_congr fun x => ?_
      rcases x with ⟨_ | v, p'⟩ <;> rfl
    · have hstep : scanStep .double c = ([.text [c]], some .double) := by
        rw [scanStep, scanDouble, if_neg hend, if_neg hback, if_neg hdollar]
      rw [if_neg fun h => hdollar h.1, scan_cons hstep]
      refine (ih h.tail hlt hltn (t ++ [c])).trans ?_
      rw [← List.append_assoc]
      rfl

/-- A home directory, and what comes after it. At the end of the string, the `~` is read again. -/
theorem cmdStringExpandTilde_bind (h : RestAt s p (126 :: r)) (hfuel : r.length + 1 < fuel) (hn : r.length < n)
    (hnext : GoesOnFrom env pw s n buf argv (.plain true) next) :
    cmdStringExpandTilde env pw s fuel (p + 1) >>= withText next = putTogether env pw (scan .tilde r) buf argv := by
  rw [cmdStringExpandTilde, bind_assoc]
  rcases r with _ | ⟨c, r⟩
  · rw [getc_nil h.tail, pure_bind]
    dsimp only
    rw [if_neg (Option.some_ne_none _).symm, ungetc_succ, pure_bind, bind_assoc]
    rcases cmdStringString_plain env 47 h hfuel [] with ⟨t, p', r', heq, ht, -⟩ | ⟨-, p', heq⟩
    · have hmem : (47 : UInt8) ∈ [126] := heq ▸ List.mem_append_right _ List.mem_cons_self
      exact absurd hmem (by decide)
    · rw [heq, pure_bind, pure_bind]
      rfl
  rw [getc_cons h.tail, pure_bind]
  dsimp only
  by_cases hslash : c = 47
  · have hstep : scanStep .tilde c = ([.home], some (.plain true)) := if_pos hslash
    rw [if_pos (congrArg some hslash), scan_cons hstep, bind_assoc, List.singleton_append, putTogether]
    refine bind_congr fun home => ?_
    rw [pure_bind]
    cases home with
    | none => rfl
    | some home => exact hnext _ _ r h.tail.tail (Nat.lt_of_succ_lt hn)
  · have hstep : scanStep .tilde c = ([], some (.user [c])) := if_neg hslash
    rw [if_neg fun h => hslash (Option.some.inj h), ungetc_succ, pure_bind, bind_assoc, scan_cons hstep, List.nil_append]
    rcases cmdStringString_plain env 47 h.tail (Nat.lt_of_succ_lt hfuel) [] with
      ⟨t, p', r', heq, ht, hr', hread⟩ | ⟨hr, p', hread⟩
    · obtain ⟨t, rfl⟩ : ∃ t', t = c :: t' := by
        rcases t with _ | ⟨d, t⟩
        · exact absurd (List.cons.inj heq).1 hslash
        · exact ⟨t, by rw [(List.cons.inj heq).1]⟩
      obtain rfl : r = t ++ 47 :: r' := (List.cons.inj heq).2
      have hscan : scan (.user [c]) (t ++ 47 :: r') = .user (c :: t) :: scan (.plain true) r' := by
        rw [scan_user (List.not_mem_of_not_mem_cons ht)]
        exact scan_cons (show scanStep (.user (c :: t)) 47 = _ from rfl) r'
      rw [hread, pure_bind, pure_bind, hscan, List.nil_append, putTogether]
      cases pw.homeOf (c :: t) with
      | none => rfl
      | some home =>
        refine hnext _ p' r' hr' ?_
        rw [List.length_cons, List.length_append, List.length_cons] at hn
        omega
    · have hscan : scan (.user [c]) r = [.error] := by
        have h := scan_user (List.not_mem_of_not_mem_cons hr) [c] []
        rwa [List.append_nil] at h
      rw [hread, pure_bind, pure_bind, hscan]
      rfl

/-! ## Words -/

theorem skipComment_eq (h : RestAt s p r) (hfuel : r.length < fuel) : ∃ p', skipComment s fuel p = pure p' := by
  induction fuel generalizing p r with
  | zero => exact absurd hfuel (Nat.not_lt_zero _)
  | succ fuel ih =>
    rw [skipComment]
    rcases r with _ | ⟨c, r⟩
    · exact ⟨p, by rw [getc_nil h, pure_bind]⟩
    · rw [getc_cons h, pure_bind]
      exact ih h.tail (Nat.lt_of_succ_lt_succ hfuel)

/-- The words are put together from the pieces of the string. -/
theorem cmdStringWords_eq (env : Environ) (pw : Passwd) (h : RestAt s p r) (hfuel : r.length + 1 < fuel)
    (buf : Option (List UInt8)) (argv : List (List UInt8)) :
    cmdStringWords env pw s fuel p buf argv = putTogether env pw (scan (.plain buf.isSome) r) buf argv := by
  induction fuel generalizing p r buf argv with
  | zero => exact absurd hfuel (Nat.not_lt_zero _)
  | succ fuel ih =>
    rw [cmdStringWords]
    rcases r with _ | ⟨c, r⟩
    · rw [getc_nil h, pure_bind]
      rfl
    have hlt : r.length + 1 < fuel := Nat.lt_of_succ_lt_succ hfuel
    have hr : r.length < fuel := Nat.lt_of_succ_lt hlt
    have hn : r.length < r.length + 1 := Nat.lt_succ_self _
    have hnext : GoesOnFrom env pw s (r.length + 1) buf argv (.plain true)
        fun t p => cmdStringWords env pw s fuel p (addText buf t) argv :=
      fun t p r' hr' hn' => ih hr' (Nat.lt_of_le_of_lt hn' hlt) (addText buf t) argv
    -- Quotes begin a word, even with nothing between them.
    have hword : GoesOnFrom env pw s (r.length + 1) (some (buf.getD [])) argv (.plain true)
        fun t p => cmdStringWords env pw s fuel p (addText buf t) argv := hnext
    rw [getc_cons h, pure_bind]
    dsimp only
    by_cases hsingle : c = 39
    · have hstep : scanStep (.plain buf.isSome) c = ([.text []], some .single) := if_pos hsingle
      rw [if_pos hsingle, scan_cons hstep, List.singleton_append, putTogether, addText, List.append_nil]
      exact cmdStringString_single h.tail hr hn (buf.getD []) hword
    rw [if_neg hsingle]
    by_cases hdouble : c = 34
    · have hstep : scanStep (.plain buf.isSome) c = ([.text []], some .double) := by
        rw [scanStep, scanPlain, if_neg hsingle, if_pos hdouble]
      rw [if_pos hdouble, scan_cons hstep, List.singleton_append, putTogether, addText]
      exact cmdStringString_double h.tail hr hn (buf.getD []) [] hword
    rw [if_neg hdouble]
    by_cases hdollar : c = 36
    · have hstep : scanStep (.plain buf.isSome) c = ([], some (.dollar false)) := by
        rw [scanStep, scanPlain, if_neg hsingle, if_neg hdouble, if_pos hdollar]
      rw [if_pos hdollar, scan_cons hstep, List.nil_append]
      exact cmdStringVariable_bind false h.tail hr hn hnext
    rw [if_neg hdollar]
    by_cases hcomment : c = 35
    · have hstep : scanStep (.plain buf.isSome) c = ([], none) := by
        rw [scanStep, scanPlain, if_neg hsingle, if_neg hdouble, if_neg hdollar, if_pos hcomment]
      obtain ⟨p', hskip⟩ := skipComment_eq h.tail hr
      rw [if_pos hcomment, scan_cons_none hstep, hskip, pure_bind]
      rfl
    rw [if_neg hcomment]
    by_cases hblank : c = 32 ∨ c = 9
    · have hstep : scanStep (.plain buf.isSome) c = ([.blank], some (.plain false)) := by
        rw [scanStep, scanPlain, if_neg hsingle, if_neg hdouble, if_neg hdollar, if_neg hcomment, if_pos hblank]
      rw [if_pos hblank, scan_cons hstep, List.singleton_append, putTogether]
      exact ih h.tail hlt none (endWord buf argv)
    rw [if_neg hblank]
    have hplain : scanStep (.plain buf.isSome) c =
        if c = 126 ∧ buf.isSome = false then ([], some .tilde) else ([.text [c]], some (.plain true)) := by
      rw [scanStep, scanPlain, if_neg hsingle, if_neg hdouble, if_neg hdollar, if_neg hcomment, if_neg hblank]
    by_cases htilde : c = 126 ∧ buf = none
    · rw [if_pos ⟨htilde.1, by rw [htilde.2]; rfl⟩] at hplain
      rw [if_pos htilde, scan_cons hplain, List.nil_append]
      rw [htilde.1] at h
      exact cmdStringExpandTilde_bind h hlt hn hnext
    · rw [if_neg fun h => htilde ⟨h.1, Option.isNone_iff_eq_none.1 (by rw [← Option.not_isSome, h.2]; rfl)⟩] at hplain
      rw [if_neg htilde, scan_cons hplain, List.singleton_append, putTogether]
      exact ih h.tail hlt (addText buf [c]) argv

/-- The memory of a text. -/
def inMemory (s : Text) : List UInt8 := s.1 ++ [0]

theorem cmdStringWords_text (env : Environ) (pw : Passwd) (s : Text) :
    cmdStringWords env pw (inMemory s) ((inMemory s).length + 1) 0 none [] =
      putTogether env pw (scan (.plain false) s.1) none [] := by
  refine cmdStringWords_eq env pw ⟨rfl, s.2⟩ ?_ none []
  rw [inMemory, List.length_append]
  exact Nat.lt_succ_self _

/-! ## Missing values -/

theorem variableValue_eq_null {name : List UInt8} (h : environFind env name = some none) :
    variableValue env name = .fault .null := by
  rw [variableValue, h]
  rfl

theorem variableValue_returns {name : List UInt8} (h : environFind env name ≠ some none) :
    ∃ value, variableValue env name = pure value := by
  rw [variableValue]
  rcases hfind : environFind env name with _ | _ | value
  · exact ⟨[], rfl⟩
  · exact absurd hfind h
  · exact ⟨value.1, rfl⟩

/-- The home directory is that of a variable without a value, or there is one or none. -/
theorem homeDirectory_cases (env : Environ) (pw : Passwd) (pieces : List Piece) :
    (homeDirectory env pw = .fault .null ∧ missesValue env pw (.home :: pieces) = true) ∨
    ∃ home, homeDirectory env pw = pure home ∧
      missesValue env pw (.home :: pieces) = (home.isSome && missesValue env pw pieces) := by
  rw [homeDirectory, missesValue]
  rcases environFind env [72, 79, 77, 69] with _ | _ | value
  · exact .inr ⟨pw.home, rfl, rfl⟩
  · exact .inl ⟨rfl, rfl⟩
  · refine .inr ⟨if value.1 ≠ [] then some value else pw.home, rfl, ?_⟩
    by_cases hempty : value.1 = []
    · simp [hempty]
    · simp [hempty]

/-- A variable without a value that is got to is a null pointer that is followed. -/
theorem putTogether_of_missesValue {pieces : List Piece} (h : missesValue env pw pieces = true)
    (buf : Option (List UInt8)) (argv : List (List UInt8)) :
    putTogether env pw pieces buf argv = .fault .null := by
  induction pieces generalizing buf argv with
  | nil => exact absurd h Bool.false_ne_true
  | cons piece pieces ih =>
    cases piece with
    | text t => exact ih h _ _
    | blank => exact ih h _ _
    | error => exact absurd h Bool.false_ne_true
    | value name =>
      rw [putTogether]
      by_cases hname : environFind env name = some none
      · rw [variableValue_eq_null hname, fault_bind]
      · obtain ⟨value, hvalue⟩ := variableValue_returns hname
        rw [missesValue, beq_false_of_ne hname, Bool.false_or] at h
        rw [hvalue, pure_bind, ih h]
    | user name =>
      rw [missesValue, Bool.and_eq_true, Option.isSome_iff_exists] at h
      obtain ⟨⟨home, hhome⟩, h⟩ := h
      rw [putTogether, hhome]
      exact ih h _ _
    | home =>
      rw [putTogether]
      rcases homeDirectory_cases env pw pieces with ⟨hhome, -⟩ | ⟨home, hhome, hmisses⟩
      · rw [hhome, fault_bind]
      · rw [hmisses, Bool.and_eq_true, Option.isSome_iff_exists] at h
        obtain ⟨⟨home, rfl⟩, h⟩ := h
        rw [hhome, pure_bind]
        exact ih h _ _

theorem putTogether_returns {pieces : List Piece} (h : missesValue env pw pieces = false)
    (buf : Option (List UInt8)) (argv : List (List UInt8)) :
    ∃ words, putTogether env pw pieces buf argv = pure words := by
  induction pieces generalizing buf argv with
  | nil => exact ⟨_, rfl⟩
  | cons piece pieces ih =>
    cases piece with
    | text t => exact ih h _ _
    | blank => exact ih h _ _
    | error => exact ⟨none, rfl⟩
    | value name =>
      rw [missesValue, Bool.or_eq_false_iff] at h
      obtain ⟨value, hvalue⟩ := variableValue_returns (beq_eq_false_iff_ne.1 h.1)
      rw [putTogether, hvalue, pure_bind]
      exact ih h.2 _ _
    | user name =>
      rw [putTogether]
      cases hhome : pw.homeOf name with
      | none => exact ⟨none, rfl⟩
      | some home =>
        rw [missesValue, hhome] at h
        exact ih h _ _
    | home =>
      rw [putTogether]
      rcases homeDirectory_cases env pw pieces with ⟨-, hmisses⟩ | ⟨home, hhome, hmisses⟩
      · exact absurd (hmisses.symm.trans h) (by decide)
      · rw [hhome, pure_bind]
        cases home with
        | none => exact ⟨none, rfl⟩
        | some home => exact ih (hmisses.symm.trans h) _ _

/-- Nothing goes wrong after the words. -/
theorem cmdStringParse_of_words {γ ε : Type} {cmdParse : List (List UInt8) → Except ε γ}
    {words : Option (List (List UInt8))} (h : cmdStringWords env pw s (s.length + 1) 0 none [] = pure words) :
    ∃ result, cmdStringParse env pw cmdParse s = pure result := by
  rw [cmdStringParse, h, pure_bind]
  cases words with
  | none => exact ⟨_, rfl⟩
  | some argv =>
    dsimp only
    by_cases hempty : (putVariables env argv).2 = []
    · exact ⟨_, if_pos hempty⟩
    · rw [if_neg hempty]
      rcases cmdListParse cmdParse (putVariables env argv).2 with ⟨calls, cause | cmds⟩
      · exact ⟨_, rfl⟩
      · exact ⟨_, rfl⟩

/-- Parsing a command string never leaves the string and ends; it follows a null pointer exactly if it gets to a
    variable without a value, and otherwise gives an error or the list of commands. -/
theorem cmdStringParse_iff {γ ε : Type} (env : Environ) (pw : Passwd) (cmdParse : List (List UInt8) → Except ε γ)
    (s : Text) :
    ((∃ result, cmdStringParse env pw cmdParse (inMemory s) = pure result) ↔
      missesValue env pw (scan (.plain false) s.1) = false) ∧
    ((∃ result, cmdStringParse env pw cmdParse (inMemory s) = pure result) ∨
      cmdStringParse env pw cmdParse (inMemory s) = .fault .null) := by
  cases hmisses : missesValue env pw (scan (.plain false) s.1) with
  | true =>
    have hfault : cmdStringParse env pw cmdParse (inMemory s) = .fault .null := by
      rw [cmdStringParse, cmdStringWords_text, putTogether_of_missesValue hmisses, fault_bind]
    refine ⟨⟨fun h => ?_, fun h => absurd h.symm Bool.false_ne_true⟩, .inr hfault⟩
    obtain ⟨result, h⟩ := h
    rw [hfault] at h
    exact absurd h (by simp [pure_eq_done])
  | false =>
    obtain ⟨words, hwords⟩ := putTogether_returns hmisses none []
    rw [← cmdStringWords_text] at hwords
    have hreturns : ∃ result, cmdStringParse env pw cmdParse (inMemory s) = pure result := cmdStringParse_of_words hwords
    exact ⟨⟨fun _ => rfl, fun _ => hreturns⟩, .inl hreturns⟩

/-- Parsing `$A` when the variable `A` is marked for removal does not return. -/
theorem cmdStringParse_removed :
    ¬∃ result : CmdStringResult Unit Unit, cmdStringParse [([65], none)] ⟨none, fun _ => none⟩ (fun _ => .ok ())
      (inMemory ⟨[36, 65], by decide⟩) = pure result := by
  rintro ⟨result, h⟩
  have hfault : cmdStringParse [([65], none)] ⟨none, fun _ => none⟩ (fun _ => .ok ())
      (inMemory ⟨[36, 65], by decide⟩) = (.fault .null : Exec (CmdStringResult Unit Unit)) := rfl
  rw [hfault] at h
  exact absurd h (by simp [pure_eq_done])

end Tmux
