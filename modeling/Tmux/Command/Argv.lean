import Tmux.Library.CString

/-!
# Arguments in a message

The client packs the arguments of a command into the buffer of a message (`cmdPackArgv`), each with a
null byte after it, and the server unpacks them (`cmdUnpackArgv`) from the buffer that it receives, whose
last byte it makes null. What a client sends need not have been packed: unpacking gives the first texts of
any buffer, if it holds as many as are asked for (`unpackArgs_eq`).
-/

namespace Tmux

open Exec CString

variable {p q m : List UInt8}

/-- Copy the arguments one after the other to an address with `len` bytes; tells whether they fit. -/
def packArgs : List Text → List UInt8 → ℕ → ℕ → Exec (List UInt8 × Bool)
  | [], m, _, _ => pure (m, true)
  | arg :: argv, m, buf, len => do
    let (m, n) ← snprint m buf len arg.1
    if len ≤ n then pure (m, false)
    else
      let arglen := arg.1.length + 1
      packArgs argv m (buf + arglen) (len - arglen)

def cmdPackArgv (argv : List Text) (m : List UInt8) (buf len : ℕ) : Exec (List UInt8 × Bool) := do
  let m ← Block.store m buf 0
  packArgs argv m buf len

/-- Take `argc` arguments one after the other from an address with `len` bytes. -/
def unpackArgs (m : List UInt8) : ℕ → ℕ → ℕ → Exec (Option (List Text))
  | 0, _, _ => pure (some [])
  | argc + 1, buf, len =>
    if len = 0 then pure none
    else do
      let arglen := (← strlen m buf) + 1
      let argv ← unpackArgs m argc (buf + arglen) (len - arglen)
      pure (argv.map (textAt m buf :: ·))

def cmdUnpackArgv (m : List UInt8) (buf len argc : ℕ) : Exec (List UInt8 × Option (List Text)) :=
  if argc = 0 then pure (m, some [])
  else do
    let m ← Block.store m (buf + len - 1) 0
    let argv ← unpackArgs m argc buf len
    pure (m, argv)

/-- The arguments that the server takes from a message, whose last byte it makes null. -/
def serverUnpackArgv (data : List UInt8) (argc : ℕ) : Exec (List UInt8 × Option (List Text)) := do
  let data ← Block.store data (data.length - 1) 0
  cmdUnpackArgv data 0 data.length argc

/-- Arguments, each with a null byte after it. -/
def packed (argv : List Text) : List UInt8 := argv.flatMap fun arg => arg.1 ++ [0]

@[simp] theorem packed_nil : packed [] = [] := rfl

theorem packed_cons (arg : Text) (argv : List Text) : packed (arg :: argv) = arg.1 ++ 0 :: packed argv := by
  rw [packed, List.flatMap_cons, List.append_assoc, List.singleton_append]
  rfl

/-! ## Packing -/

/-- Arguments are packed if there is room for all of them, and nothing is written elsewhere. -/
theorem packArgs_eq (argv : List Text) (p q : List UInt8) :
    ∃ q', packArgs argv (p ++ q) p.length q.length = pure (p ++ q', decide ((packed argv).length ≤ q.length)) ∧
      q'.length = q.length ∧ ((packed argv).length ≤ q.length → q' = packed argv ++ q.drop (packed argv).length) := by
  induction argv generalizing p q with
  | nil => exact ⟨q, rfl, rfl, fun _ => rfl⟩
  | cons arg argv ih =>
    have hlen : (packed (arg :: argv)).length = arg.1.length + 1 + (packed argv).length := by
      simp only [packed_cons, List.length_append, List.length_cons]
      omega
    rcases Nat.lt_or_ge arg.1.length q.length with hfit | hfull
    · obtain ⟨q', hrest, hlen', hpacked⟩ := ih (p ++ (arg.1 ++ [0])) (q.drop (arg.1.length + 1))
      have hdrop : (q.drop (arg.1.length + 1)).length = q.length - (arg.1.length + 1) := List.length_drop
      refine ⟨arg.1 ++ 0 :: q', ?_, ?_, fun h => ?_⟩
      · rw [packArgs, snprint_of_lt rfl rfl hfit, pure_bind]
        simp only [List.length_append, List.length_singleton, hdrop, List.append_assoc, List.singleton_append] at hrest
        dsimp only
        rw [if_neg (by omega), hrest]
        congr 2
        exact decide_eq_decide.2 (by omega)
      · simp only [List.length_append, List.length_cons, hlen', hdrop]
        omega
      · rw [hpacked (by omega), List.drop_drop, hlen, packed_cons, List.append_assoc, List.cons_append]
    · have hmiss : decide ((packed (arg :: argv)).length ≤ q.length) = false := decide_eq_false (by omega)
      refine ⟨cut q.length arg.1, ?_, length_cut hfull, fun h => absurd h (by omega)⟩
      rw [packArgs, snprint_of_le rfl rfl hfull, pure_bind, hmiss]
      exact if_pos hfull

/-- The buffer is left with the arguments at its start, if they fit. -/
theorem cmdPackArgv_eq (argv : List Text) (hm : m ≠ []) :
    ∃ m', cmdPackArgv argv m 0 m.length = pure (m', decide ((packed argv).length ≤ m.length)) ∧
      m'.length = m.length ∧ ((packed argv).length ≤ m.length → packed argv <+: m') := by
  obtain ⟨m', hpack, hlen, hpacked⟩ := packArgs_eq argv [] (m.set 0 0)
  rw [List.length_set] at hpack hlen hpacked
  refine ⟨m', ?_, hlen, fun h => ⟨_, (hpacked h).symm⟩⟩
  rw [cmdPackArgv, Block.store_eq (List.length_pos_iff.2 hm), pure_bind]
  exact hpack

/-! ## Unpacking -/

/-- The first of the arguments packed in a buffer is the text up to the first null byte of it. -/
theorem packed_cons_prefix {arg t : Text} {argv : List Text} {r : List UInt8} :
    packed (arg :: argv) <+: t.1 ++ 0 :: r ↔ arg = t ∧ packed argv <+: r := by
  rw [packed_cons]
  constructor
  · rintro ⟨r', h⟩
    rw [List.append_assoc, List.cons_append] at h
    have harg : arg.1 = t.1 := by
      rw [← beforeNull_append arg.2 (packed argv ++ r'), h, beforeNull_append t.2]
    rw [harg, List.append_cancel_left_eq, List.cons.injEq] at h
    exact ⟨Subtype.ext harg, r', h.2⟩
  · rintro ⟨rfl, r', rfl⟩
    exact ⟨r', by rw [List.append_assoc, List.cons_append]⟩

/-- Unpacking from what is empty or ends with a null byte gives the arguments that it has packed at its
    start, as many as asked for, or nothing if there are fewer. -/
theorem unpackArgs_eq (argc : ℕ) (p q : List UInt8) (hq : q = [] ∨ q.getLast? = some 0) :
    ∃ r, unpackArgs (p ++ q) argc p.length q.length = pure r ∧
      ∀ argv, r = some argv ↔ argv.length = argc ∧ packed argv <+: q := by
  induction argc generalizing p q with
  | zero =>
    refine ⟨some [], rfl, fun argv => ⟨?_, fun h => ?_⟩⟩
    · rintro ⟨⟩
      exact ⟨rfl, List.nil_prefix⟩
    · rw [List.length_eq_zero_iff.1 h.1]
  | succ argc ih =>
    rcases hq with rfl | hlast
    · refine ⟨none, rfl, fun argv => ⟨fun h => absurd h (Option.some_ne_none argv).symm, fun h => ?_⟩⟩
      obtain ⟨arg, argv, rfl⟩ := List.exists_cons_of_length_eq_add_one h.1
      have := List.prefix_nil.1 h.2
      rw [packed_cons] at this
      exact absurd this (List.append_ne_nil_of_right_ne_nil _ (List.cons_ne_nil _ _))
    · obtain ⟨q', hq'⟩ := exists_eq_beforeNull_append (List.mem_of_getLast? hlast)
      obtain ⟨t, ht⟩ : ∃ t : Text, t.1 = beforeNull q := ⟨⟨_, zero_notMem_beforeNull q⟩, rfl⟩
      rw [← ht] at hq'
      obtain ⟨r, hr, hargv⟩ := ih (p ++ (t.1 ++ [0])) q' (by
        rw [hq', List.getLast?_append, List.getLast?_cons] at hlast
        rcases List.eq_nil_or_concat q' with h | ⟨s, c, rfl⟩
        · exact .inl h
        · exact .inr (by simpa using hlast))
      refine ⟨r.map (t :: ·), ?_, fun argv => ?_⟩
      · rw [hq', unpackArgs, if_neg (by simp), strlen_append rfl, pure_bind, textAt_append rfl]
        have hbuf : (p ++ (t.1 ++ [0])).length = p.length + (t.1.length + 1) := by simp
        have hlen : (t.1 ++ 0 :: q').length - (t.1.length + 1) = q'.length := by simp; omega
        rw [List.append_assoc, List.append_assoc, List.singleton_append, hbuf] at hr
        dsimp only
        rw [hlen, hr, pure_bind]
      · rw [hq']
        cases argv with
        | nil => simp
        | cons arg argv =>
          rw [ packed_cons_prefix, List.length_cons, Nat.add_right_cancel_iff, Option.map_eq_some_iff]
          constructor
          · rintro ⟨argv', h, hcons⟩
            obtain ⟨rfl, rfl⟩ := List.cons.inj hcons
            exact ⟨((hargv _).1 h).1, rfl, ((hargv _).1 h).2⟩
          · rintro ⟨hlen, rfl, hpre⟩
            exact ⟨argv, (hargv _).2 ⟨hlen, hpre⟩, rfl⟩

/-- A buffer has as many arguments packed at its start as it has null bytes. -/
theorem exists_packed_prefix {argc : ℕ} {q : List UInt8} :
    (∃ argv : List Text, argv.length = argc ∧ packed argv <+: q) ↔ argc ≤ q.count 0 := by
  induction argc generalizing q with
  | zero => exact ⟨fun _ => Nat.zero_le _, fun _ => ⟨[], rfl, List.nil_prefix⟩⟩
  | succ argc ih =>
    by_cases h0 : 0 ∈ q
    · obtain ⟨q', hq'⟩ := exists_eq_beforeNull_append h0
      obtain ⟨t, ht⟩ : ∃ t : Text, t.1 = beforeNull q := ⟨⟨_, zero_notMem_beforeNull q⟩, rfl⟩
      rw [← ht] at hq'
      have hcount : q.count 0 = q'.count 0 + 1 := by
        rw [hq', List.count_append, List.count_eq_zero_of_not_mem t.2, List.count_cons_self, Nat.zero_add]
      rw [hcount, Nat.add_le_add_iff_right, ← ih, hq']
      constructor
      · rintro ⟨argv, hlen, hpre⟩
        obtain ⟨arg, argv, rfl⟩ := List.exists_cons_of_length_eq_add_one hlen
        exact ⟨argv, Nat.succ.inj hlen, ( packed_cons_prefix.1 hpre).2⟩
      · rintro ⟨argv, hlen, hpre⟩
        exact ⟨t :: argv, congrArg (· + 1) hlen, packed_cons_prefix.2 ⟨rfl, hpre⟩⟩
    · rw [List.count_eq_zero_of_not_mem h0]
      refine ⟨?_, fun h => absurd h (by omega)⟩
      rintro ⟨argv, hlen, hpre⟩
      obtain ⟨arg, argv, rfl⟩ := List.exists_cons_of_length_eq_add_one hlen
      rw [packed_cons] at hpre
      exact absurd (hpre.subset (List.mem_append_right _ List.mem_cons_self)) h0

/-- Unpacking a buffer with its last byte made null. -/
theorem cmdUnpackArgv_eq (argc : ℕ) (hm : m ≠ []) :
    ∃ m' r, cmdUnpackArgv m 0 m.length argc = pure (m', r) ∧
      ∀ argv, r = some argv ↔ argv.length = argc ∧ packed argv <+: m.set (m.length - 1) 0 := by
  have hpos := List.length_pos_iff.2 hm
  by_cases h0 : argc = 0
  · refine ⟨m, some [], if_pos h0, fun argv => ⟨?_, fun h => ?_⟩⟩
    · rintro ⟨⟩
      exact ⟨h0.symm, List.nil_prefix⟩
    · rw [List.length_eq_zero_iff.1 (h.1.trans h0)]
  · obtain ⟨r, hr, hargv⟩ := unpackArgs_eq argc [] (m.set (m.length - 1) 0) (.inr (by
      rw [List.getLast?_eq_getElem?, List.length_set, List.getElem?_set_self (by omega)]))
    refine ⟨m.set (m.length - 1) 0, r, ?_, hargv⟩
    rw [List.nil_append, List.length_set] at hr
    rw [cmdUnpackArgv, if_neg h0, Nat.zero_add, Block.store_eq (by omega), pure_bind]
    exact (congrArg (· >>= _) hr).trans (pure_bind _ _)

/-- Packed arguments stay where the last byte of the buffer is made null. -/
theorem packed_prefix_set {argv : List Text} (h : packed argv <+: m) : packed argv <+: m.set (m.length - 1) 0 := by
  obtain ⟨r, rfl⟩ := h
  rcases List.eq_nil_or_concat r with rfl | ⟨r, c, rfl⟩
  · rcases List.eq_nil_or_concat argv with rfl | ⟨argv, arg, rfl⟩
    · exact List.nil_prefix
    · have hpacked : packed (argv.concat arg) = packed argv ++ arg.1 ++ [0] := by
        simp [packed, List.concat_eq_append]
      rw [List.append_nil, hpacked, List.length_append, List.length_singleton, Nat.add_sub_cancel,
        List.set_append_right _ _ (Nat.le_refl _), Nat.sub_self]
      exact List.prefix_refl _
  · rw [List.concat_eq_append, ← List.append_assoc, List.length_append, List.length_singleton, Nat.add_sub_cancel,
      List.set_append_right _ _ (Nat.le_refl _), List.append_assoc]
    exact List.prefix_append _ _

/-- Arguments survive the message: whenever they are packed, they are unpacked, both from the buffer and
    as the server does. And whatever the buffer that the server receives, unpacking stays in it, and gives
    arguments exactly if there are as many texts with a null byte after them at its start. -/
theorem cmdPackArgv_cmdUnpackArgv :
    (∀ (argv : List Text) (m m' : List UInt8), cmdPackArgv argv m 0 m.length = pure (m', true) →
      (∃ m'', cmdUnpackArgv m' 0 m'.length argv.length = pure (m'', some argv)) ∧
        ∃ m'', serverUnpackArgv m' argv.length = pure (m'', some argv)) ∧
      ∀ (data : List UInt8) (argc : ℕ), data ≠ [] →
        ∃ m' r, serverUnpackArgv data argc = pure (m', r) ∧
          (∀ argv, r = some argv ↔ argv.length = argc ∧ packed argv <+: data.set (data.length - 1) 0) ∧
          (r.isSome = true ↔ argc ≤ (data.set (data.length - 1) 0).count 0) := by
  have hserver : ∀ (data : List UInt8) (argc : ℕ), data ≠ [] → ∃ m' r, serverUnpackArgv data argc = pure (m', r) ∧
      ∀ argv, r = some argv ↔ argv.length = argc ∧ packed argv <+: data.set (data.length - 1) 0 := by
    intro data argc hdata
    obtain ⟨m', r, hr, hargv⟩ := cmdUnpackArgv_eq (m := data.set (data.length - 1) 0) argc
      (fun h => hdata ((List.set_eq_nil_iff _ _).1 h))
    refine ⟨m', r, ?_, fun argv => ?_⟩
    · rw [serverUnpackArgv, Block.store_eq (by have := List.length_pos_iff.2 hdata; omega), pure_bind]
      exact hr
    · rw [hargv, List.length_set, List.set_set]
  refine ⟨fun argv m m' hpack => ?_, fun data argc hdata => ?_⟩
  · have hm : m ≠ [] := by
      rintro rfl
      cases hpack
    obtain ⟨m₁, hpack', hlen, hpre⟩ := cmdPackArgv_eq argv hm
    rw [hpack', pure_inj, Prod.mk.injEq, decide_eq_true_iff] at hpack
    obtain ⟨rfl, hfit⟩ := hpack
    have hm₁ : m₁ ≠ [] := fun h => hm (List.length_eq_zero_iff.1 (by rw [← hlen, h]; rfl))
    obtain ⟨m₂, r, hr, hargv⟩ := cmdUnpackArgv_eq argv.length hm₁
    obtain ⟨m₃, r', hr', hargv'⟩ := hserver m₁ argv.length hm₁
    rw [(hargv argv).2 ⟨rfl, packed_prefix_set (hpre hfit)⟩] at hr
    rw [(hargv' argv).2 ⟨rfl, packed_prefix_set (hpre hfit)⟩] at hr'
    exact ⟨⟨m₂, hr⟩, m₃, hr'⟩
  · obtain ⟨m', r, hr, hargv⟩ := hserver data argc hdata
    refine ⟨m', r, hr, hargv, ?_⟩
    rw [← exists_packed_prefix, Option.isSome_iff_exists]
    exact exists_congr hargv

/-- Two arguments, the second empty, in a buffer of eight bytes; and three asked for of bytes with two
    null ones among them. -/
theorem cmdPackArgv_cmdUnpackArgv_small :
    ((∃ m'', cmdUnpackArgv [108, 115, 0, 0, 1, 1, 1, 1] 0 8 2 = pure (m'', some [⟨[108, 115], by decide⟩, ⟨[], by decide⟩])) ∧
      ∃ m'', serverUnpackArgv [108, 115, 0, 0, 1, 1, 1, 1] 2 = pure (m'', some [⟨[108, 115], by decide⟩, ⟨[], by decide⟩])) ∧
      ∃ m' r, serverUnpackArgv [97, 0, 98, 99] 3 = pure (m', r) ∧
        (∀ argv, r = some argv ↔ argv.length = 3 ∧ packed argv <+: [97, 0, 98, 0]) ∧
        (r.isSome = true ↔ 3 ≤ List.count (0 : UInt8) [97, 0, 98, 0]) :=
  ⟨cmdPackArgv_cmdUnpackArgv.1 [⟨[108, 115], by decide⟩, ⟨[], by decide⟩] (List.replicate 8 1)
      [108, 115, 0, 0, 1, 1, 1, 1] rfl,
    cmdPackArgv_cmdUnpackArgv.2 [97, 0, 98, 99] 3 (List.cons_ne_nil _ _)⟩

end Tmux
