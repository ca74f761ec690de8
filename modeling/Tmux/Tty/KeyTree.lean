import Tmux.Tty.Recognised

/-!
# The tree of key strings as a map

A tree of key strings has a node for every string that was added and for everything such a string
starts with (`TtyKey.Represents`). Adding a string assigns it its key and leaves the others alone,
except where a string is added after one that it starts with, which has no longer ones yet
(`Shadowed`): the shorter one is found then, and gets the key in the place of the string.

The tree is a map from strings to the keys last assigned to them as long as no such string is added
(`keyTree_faithful_iff`).
-/

namespace Tmux

variable {tree : TtyKey} {s t p : List UInt8} {key : KeyCode} {longer : Bool}

/-! ## Nodes -/

/-- The node of a string: its key, and whether there are longer strings. -/
def TtyKey.node? : TtyKey → List UInt8 → Option (KeyCode × Bool)
  | .nil, _ => none
  | .node .., [] => none
  | .node ch key left right next, c :: s =>
    if ch = c then if s = [] then some (key, decide (next ≠ .nil)) else next.node? s
    else if charLt c ch then left.node? (c :: s)
    else right.node? (c :: s)

@[simp] theorem TtyKey.node?_empty (tree : TtyKey) : tree.node? [] = none := by
  cases tree <;> rfl

/-- What is found of a string at a node: all of it, or what it starts with if there are no longer
    ones. -/
def TtyKey.StopsAt (tree : TtyKey) (p u : List UInt8) (key : KeyCode) (longer : Bool) : Prop :=
  tree.node? p = some (key, longer) ∧ (u = [] ∨ (longer = false ∧ key ≠ keycNone))

theorem ttyKeysFind1_eq_of_stopsAt {c : UInt8} {u : List UInt8} (h : tree.StopsAt (c :: p) u key longer) (size : ℕ) :
    ttyKeysFind1 tree c (p ++ u) size = some (key, longer, size + (p.length + 1)) := by
  obtain ⟨hnode, hstop⟩ := h
  induction tree generalizing c p size with
  | nil => cases hnode
  | node ch k left right next ihl ihr ihn =>
    unfold TtyKey.node? at hnode
    unfold ttyKeysFind1
    split_ifs at hnode with hch hp hlt
    · -- All of `p` is found at this node.
      obtain ⟨rfl, rfl⟩ := Prod.mk.inj (Option.some.inj hnode)
      subst hp
      rw [if_pos hch]
      cases u with
      | nil => rfl
      | cons c' u =>
        obtain ⟨hnext, hk⟩ := hstop.resolve_left (List.cons_ne_nil c' u)
        have hnil : next = .nil := by simpa using hnext
        simp [hnil, hk]
    · obtain ⟨c', p, rfl⟩ := List.exists_cons_of_ne_nil hp
      have hnext : next ≠ .nil := by
        rintro rfl
        cases hnode
      rw [if_pos hch, List.cons_append]
      dsimp only
      rw [if_neg fun h => hnext h.1, ihn (size + 1) hnode, List.length_cons]
      congr 3
      omega
    · rw [if_neg hch, if_pos hlt]
      exact ihl size hnode
    · rw [if_neg hch, if_neg hlt]
      exact ihr size hnode

theorem ttyKeysFind1_stopsAt {c : UInt8} {buf : List UInt8} {size n : ℕ}
    (h : ttyKeysFind1 tree c buf size = some (key, longer, n)) :
    ∃ p u, buf = p ++ u ∧ tree.StopsAt (c :: p) u key longer ∧ n = size + (p.length + 1) := by
  induction tree generalizing c buf size with
  | nil => cases h
  | node ch k left right next ihl ihr ihn =>
    unfold ttyKeysFind1 at h
    unfold TtyKey.StopsAt TtyKey.node?
    by_cases hch : ch = c
    · simp only [if_pos hch] at h ⊢
      cases buf with
      | nil =>
        obtain ⟨rfl, rfl, rfl⟩ : k = key ∧ decide (next ≠ .nil) = longer ∧ size + 1 = n := by simpa using h
        exact ⟨[], [], rfl, ⟨if_pos rfl, .inl rfl⟩, rfl⟩
      | cons c' buf =>
        dsimp only at h
        split_ifs at h with hend
        · obtain ⟨rfl, rfl, rfl⟩ : k = key ∧ false = longer ∧ size + 1 = n := by simpa using h
          exact ⟨[], c' :: buf, rfl, ⟨by simp [hend.1], .inr ⟨rfl, hend.2⟩⟩, rfl⟩
        · obtain ⟨p, u, rfl, hstop, rfl⟩ := ihn h
          refine ⟨c' :: p, u, rfl, ?_, by rw [List.length_cons]; omega⟩
          rw [if_neg (List.cons_ne_nil c' p)]
          exact hstop
    · simp only [if_neg hch] at h ⊢
      split_ifs at h ⊢ with hlt
      · exact ihl h
      · exact ihr h

/-- A string is found at the node that a search stops at. -/
theorem ttyKeysFind_iff {n : ℕ} : ttyKeysFind tree s = some (key, longer, n) ↔
    ∃ p u, s = p ++ u ∧ tree.StopsAt p u key longer ∧ n = p.length := by
  constructor
  · intro h
    cases s with
    | nil => cases h
    | cons c buf =>
      obtain ⟨p, u, rfl, hstop, rfl⟩ := ttyKeysFind1_stopsAt h
      exact ⟨c :: p, u, rfl, hstop, by rw [Nat.zero_add, List.length_cons]⟩
  · rintro ⟨p, u, rfl, hstop, rfl⟩
    cases p with
    | nil =>
      rw [TtyKey.StopsAt, TtyKey.node?_empty] at hstop
      cases hstop.1
    | cons c p =>
      have hfind := ttyKeysFind1_eq_of_stopsAt hstop 0
      rwa [Nat.zero_add] at hfind

/-! ## Adding a node -/

theorem ttyKeyChain_eq_nil (key : KeyCode) (s : List UInt8) : ttyKeyChain key s = .nil ↔ s = [] := by
  rcases s with _ | ⟨c, _ | ⟨c', s⟩⟩ <;> simp [ttyKeyChain]

theorem ttyKeyChain_node? (key : KeyCode) (s t : List UInt8) : (ttyKeyChain key s).node? t =
    if t = [] then none else if t = s then some (key, false) else if t <+: s then some (keycNone, true) else none := by
  induction s generalizing t with
  | nil =>
    cases t with
    | nil => rfl
    | cons c t => simp [ttyKeyChain, TtyKey.node?]
  | cons c s ih =>
    rcases t with _ | ⟨c', t⟩
    · simp
    rcases s with _ | ⟨d, s⟩
    · rw [ttyKeyChain, TtyKey.node?]
      by_cases hch : c = c'
      · subst hch
        cases t <;> simp [TtyKey.node?]
      · simp [hch, Ne.symm hch, TtyKey.node?]
    · rw [ttyKeyChain, TtyKey.node?, ih]
      · by_cases hch : c = c'
        · subst hch
          cases t <;> simp [ttyKeyChain_eq_nil]
        · simp [hch, Ne.symm hch, TtyKey.node?]
      · exact List.cons_ne_nil d s

/-- Adding a node to the tree gives it its key, and what it starts with has nodes then. -/
theorem ttyKeysAdd1_node? (key : KeyCode) (tree : TtyKey) (hs : s ≠ []) (t : List UInt8) :
    (ttyKeysAdd1 key tree s).node? t =
      if t = [] then none else if t = s then some (key, (tree.node? t).any (·.2))
      else if t <+: s then some ((tree.node? t).elim keycNone (·.1), true) else tree.node? t := by
  induction tree generalizing s t with
  | nil =>
    rw [show ttyKeysAdd1 key .nil s = ttyKeyChain key s by cases s <;> rfl, ttyKeyChain_node?]
    rfl
  | node ch k left right next ihl ihr ihn =>
    obtain ⟨c, s, rfl⟩ := List.exists_cons_of_ne_nil hs
    rcases t with _ | ⟨c', t⟩
    · simp
    rw [ttyKeysAdd1]
    by_cases hch : c = ch
    · subst hch
      rw [if_pos rfl]
      by_cases hs : s = []
      · subst hs
        by_cases hc : c = c'
        · subst hc
          cases t <;> simp [TtyKey.node?]
        · simp [TtyKey.node?, hc, Ne.symm hc]
      · by_cases hc : c = c'
        · subst hc
          cases t <;> simp [TtyKey.node?, hs, ihn hs, ttyKeysAdd1_ne_nil next hs, Ne.symm hs]
        · simp [TtyKey.node?, hs, hc, Ne.symm hc]
    · rw [if_neg hch]
      have hl := ihl (List.cons_ne_nil c s) (c' :: t)
      have hr := ihr (List.cons_ne_nil c s) (c' :: t)
      by_cases hc : c' = c
      · -- The same way is gone for both strings.
        subst hc
        cases hlt : charLt c' ch <;> simp only [hlt, TtyKey.node?, if_neg (Ne.symm hch), hl, hr, if_true, if_false,
          Bool.false_eq_true]
      · have hne : c' :: t ≠ c :: s := fun h => hc (List.cons.inj h).1
        have hprefix : ¬ c' :: t <+: c :: s := fun h => hc (List.cons_prefix_cons.1 h).1
        rw [if_neg (List.cons_ne_nil c' t), if_neg hne, if_neg hprefix] at hl hr ⊢
        cases charLt c ch <;> simp only [TtyKey.node?, hl, hr, if_true, if_false, Bool.false_eq_true]

/-! ## Replacing a key -/

/-- Replacing the key of the node that a search stops at. -/
theorem replaceKey_node? {u : List UInt8} {k : KeyCode} (h : tree.StopsAt p u k longer) (t : List UInt8) :
    (replaceKey key tree (p ++ u)).node? t = if t = p then some (key, longer) else tree.node? t := by
  obtain ⟨hnode, hstop⟩ := h
  induction tree generalizing p t with
  | nil => cases hnode
  | node ch k' left right next ihl ihr ihn =>
    rcases p with _ | ⟨c, p⟩
    · cases hnode
    rcases t with _ | ⟨c', t⟩
    · simp
    rw [TtyKey.node?] at hnode
    rw [List.cons_append, replaceKey]
    by_cases hch : ch = c
    · subst hch
      rw [if_pos rfl] at hnode ⊢
      by_cases hp : p = []
      · -- The search stops at this node.
        subst hp
        rw [if_pos rfl] at hnode
        obtain ⟨rfl, rfl⟩ := Prod.mk.inj (Option.some.inj hnode)
        rw [List.nil_append, if_pos (hstop.imp_right fun hend => ⟨by simpa using hend.1, hend.2⟩)]
        by_cases hc : c' = ch
        · subst hc
          cases t <;> simp [TtyKey.node?]
        · simp [TtyKey.node?, hc, Ne.symm hc]
      · rw [if_neg hp] at hnode
        have hnext : next ≠ .nil := by
          rintro rfl
          cases hnode
        have hkeep : replaceKey key next (p ++ u) ≠ .nil := fun hnil => hnext (replaceKey_eq_nil hnil)
        rw [if_neg (by simp [hp, hnext])]
        by_cases hc : c' = ch
        · subst hc
          cases t <;> simp [TtyKey.node?, hnext, hkeep, ihn _ hnode, Ne.symm hp]
        · simp [TtyKey.node?, hc, Ne.symm hc]
    · rw [if_neg hch] at hnode ⊢
      by_cases hless : charLt c ch = true
      · rw [if_pos hless] at hnode ⊢
        have hl := ihl (c' :: t) hnode
        rw [List.cons_append] at hl
        by_cases hc : c' :: t = c :: p
        · obtain ⟨rfl, rfl⟩ := List.cons.inj hc
          simp only [TtyKey.node?, if_neg hch, if_pos hless, hl]
        · simp only [TtyKey.node?, hl, if_neg hc]
      · rw [if_neg hless] at hnode ⊢
        have hr := ihr (c' :: t) hnode
        rw [List.cons_append] at hr
        by_cases hc : c' :: t = c :: p
        · obtain ⟨rfl, rfl⟩ := List.cons.inj hc
          simp only [TtyKey.node?, if_neg hch, if_neg hless, hr]
        · simp only [TtyKey.node?, hr, if_neg hc]

/-! ## The map -/

/-- The keys assigned to strings by calls, one after the other. -/
def assigned (calls : List (List UInt8 × KeyCode)) : List UInt8 → Option KeyCode :=
  calls.foldl (fun m call => Function.update m call.1 (some call.2)) fun _ => none

/-- The tree after calls, one after the other. -/
def keyTree (calls : List (List UInt8 × KeyCode)) : TtyKey :=
  calls.foldl (fun tree call => ttyKeysAdd tree call.1 call.2) .nil

variable {m : List UInt8 → Option KeyCode}

/-- A string has a key and others start with it. -/
def HasLonger (m : List UInt8 → Option KeyCode) (s : List UInt8) : Prop := ∃ t, s <+: t ∧ t ≠ s ∧ (m t).isSome

/-- A string starts with one that has a key, but no longer strings. -/
def Shadowed (m : List UInt8 → Option KeyCode) (s : List UInt8) : Prop :=
  ∃ p, p <+: s ∧ p ≠ s ∧ (∃ key, m p = some key ∧ key ≠ keycNone) ∧ ¬ HasLonger m p

/-- The nodes of a tree are those of the strings that have keys, and of what they start with. -/
structure TtyKey.Represents (tree : TtyKey) (m : List UInt8 → Option KeyCode) : Prop where
  empty : m [] = none
  node : ∀ s key longer, tree.node? s = some (key, longer) ↔
    s ≠ [] ∧ key = (m s).getD keycNone ∧ (longer = true ↔ HasLonger m s) ∧ ((m s).isSome ∨ HasLonger m s)

/-- What is found in a tree is what a map has: of a string with a key that key, the string being found in full,
    and of one without a key, that does not start with one that has, nothing unless others start with it. -/
structure TtyKey.Faithful (tree : TtyKey) (m : List UInt8 → Option KeyCode) : Prop where
  found : ∀ s key, m s = some key → ∃ longer, ttyKeysFind tree s = some (key, longer, s.length)
  partly : ∀ s, s ≠ [] → (∀ p, p <+: s → m p = none) → HasLonger m s →
    ∃ n, ttyKeysFind tree s = some (keycNone, true, n)
  none : ∀ s, s ≠ [] → (∀ p, p <+: s → m p = none) → ¬ HasLonger m s → ttyKeysFind tree s = none

theorem TtyKey.Represents.stopsAt (h : tree.Represents m) {u : List UInt8} (hstop : tree.StopsAt p u key longer) :
    p ≠ [] ∧ key = (m p).getD keycNone ∧ (longer = true ↔ HasLonger m p) ∧ ((m p).isSome ∨ HasLonger m p) :=
  (h.node p key longer).1 hstop.1

theorem TtyKey.Represents.faithful (h : tree.Represents m) : tree.Faithful m where
  found s key hs := by
    classical
    refine ⟨decide (HasLonger m s), ttyKeysFind_iff.2 ⟨s, [], (List.append_nil s).symm, ⟨?_, .inl rfl⟩, rfl⟩⟩
    refine (h.node _ _ _).2 ⟨?_, by rw [hs]; rfl, decide_eq_true_iff, .inl (by rw [hs]; rfl)⟩
    rintro rfl
    rw [h.empty] at hs
    cases hs
  partly s hs hnone hlonger := by
    refine ⟨s.length, ttyKeysFind_iff.2 ⟨s, [], (List.append_nil s).symm, ⟨?_, .inl rfl⟩, rfl⟩⟩
    exact (h.node _ _ _).2 ⟨hs, by rw [hnone s List.prefix_rfl]; rfl, by simp [hlonger], .inr hlonger⟩
  none s hs hnone hlonger := by
    by_contra hfind
    obtain ⟨⟨key, longer, n⟩, hfind⟩ := Option.ne_none_iff_exists'.1 hfind
    obtain ⟨p, u, rfl, hstop, -⟩ := ttyKeysFind_iff.1 hfind
    obtain ⟨-, hkey, hlong, hsome⟩ := h.stopsAt hstop
    rw [hnone p (List.prefix_append p u)] at hkey hsome
    have hp := hsome.resolve_left nofun
    rcases hstop.2 with rfl | ⟨-, hk⟩
    · exact hlonger (by rwa [List.append_nil])
    · exact hk hkey

/-- With another key, longer strings are there for what the string starts with. -/
theorem hasLonger_update : HasLonger (Function.update m s (some key)) t ↔ HasLonger m t ∨ (t <+: s ∧ s ≠ t) := by
  constructor
  · rintro ⟨u, htu, hne, hu⟩
    by_cases hus : u = s
    · subst hus
      exact .inr ⟨htu, hne⟩
    · rw [Function.update_of_ne hus] at hu
      exact .inl ⟨u, htu, hne, hu⟩
  · rintro (⟨u, htu, hne, hu⟩ | ⟨hts, hne⟩)
    · refine ⟨u, htu, hne, ?_⟩
      by_cases hus : u = s
      · rw [hus, Function.update_self]
        rfl
      · rwa [Function.update_of_ne hus]
    · exact ⟨s, hts, hne, by rw [Function.update_self]; rfl⟩

theorem TtyKey.Represents.node_eq_none (h : tree.Represents m) (hs : s ≠ []) :
    tree.node? s = none ↔ m s = none ∧ ¬ HasLonger m s := by
  classical
  constructor
  · intro hnone
    by_contra hnot
    have hnode := (h.node s ((m s).getD keycNone) (decide (HasLonger m s))).2
      ⟨hs, rfl, decide_eq_true_iff, by rwa [not_and_or, not_not, ← ne_eq, Option.ne_none_iff_isSome] at hnot⟩
    rw [hnone] at hnode
    cases hnode
  · rintro ⟨hnone, hlonger⟩
    by_contra hnode
    obtain ⟨⟨key, longer⟩, hnode⟩ := Option.ne_none_iff_exists'.1 hnode
    obtain ⟨-, -, -, hsome | hlong⟩ := (h.node s key longer).1 hnode
    · rw [hnone] at hsome
      cases hsome
    · exact hlonger hlong

/-- The key at a node is the one of the string. -/
theorem TtyKey.Represents.key_eq (h : tree.Represents m) (hs : s ≠ []) :
    (tree.node? s).elim keycNone (·.1) = (m s).getD keycNone := by
  cases hnode : tree.node? s with
  | none =>
    rw [((h.node_eq_none hs).1 hnode).1]
    rfl
  | some r => exact ((h.node s r.1 r.2).1 hnode).2.1

/-- Adding a string that no shorter one hides assigns it its key. -/
theorem TtyKey.Represents.add (h : tree.Represents m) (hs : s ≠ []) (hshadow : ¬ Shadowed m s) (key : KeyCode) :
    (ttyKeysAdd tree s key).Represents (Function.update m s (some key)) := by
  have hempty : Function.update m s (some key) [] = none := by rw [Function.update_of_ne hs.symm, h.empty]
  unfold ttyKeysAdd
  cases hfind : ttyKeysFind tree s with
  | none =>
    have hnode : tree.node? s = none := by
      by_contra hnode
      obtain ⟨⟨k, longer⟩, hnode⟩ := Option.ne_none_iff_exists'.1 hnode
      rw [ttyKeysFind_iff.2 ⟨s, [], (List.append_nil s).symm, ⟨hnode, .inl rfl⟩, rfl⟩] at hfind
      cases hfind
    have hnone := (h.node_eq_none hs).1 hnode
    refine ⟨hempty, fun t k longer => ?_⟩
    rw [ttyKeysAdd1_node? key tree hs, hasLonger_update]
    by_cases ht : t = []
    · simp [ht]
    rw [if_neg ht]
    by_cases hts : t = s
    · subst hts
      rw [if_pos rfl, hnode, Function.update_self]
      simp [hs, hnone.2, eq_comm]
    rw [if_neg hts, Function.update_of_ne hts]
    by_cases hprefix : t <+: s
    · rw [if_pos hprefix, h.key_eq ht]
      simp only [Option.some.injEq, Prod.mk.injEq, ne_eq, ht, not_false_eq_true, true_and, hprefix, Ne.symm hts,
        and_self, or_true, iff_true, and_true]
      exact and_congr eq_comm eq_comm
    · rw [if_neg hprefix, h.node]
      simp [ hprefix]
  | some r =>
    obtain ⟨k₀, longer₀, n⟩ := r
    obtain ⟨p, u, rfl, hstop, -⟩ := ttyKeysFind_iff.1 hfind
    obtain ⟨hp, hkey, hlong, hsome⟩ := h.stopsAt hstop
    -- The node is that of the string itself, or else a shorter one would hide the string.
    obtain rfl : u = [] := by
      by_contra hu
      obtain ⟨hend, hk⟩ := hstop.2.resolve_left hu
      refine hshadow ⟨p, List.prefix_append p u, fun hpu => hu (by simpa using hpu), ?_, fun hl => ?_⟩
      · cases hm : m p with
        | none =>
          rw [hm] at hkey
          exact absurd hkey hk
        | some k₁ =>
          rw [hm] at hkey
          exact ⟨k₁, rfl, fun h₁ => hk (hkey.trans h₁)⟩
      · rw [hlong.2 hl] at hend
        cases hend
    rw [List.append_nil] at hempty ⊢
    have hreplace : ∀ t, (replaceKey key tree _).node? t = _ := replaceKey_node? hstop
    rw [List.append_nil] at hreplace
    refine ⟨hempty, fun t k longer => ?_⟩
    dsimp only
    rw [hreplace, hasLonger_update]
    by_cases htp : t = p
    · subst htp
      rw [if_pos rfl, Function.update_self]
      simp only [Option.some.injEq, Prod.mk.injEq, ne_eq, hp, not_false_eq_true, true_and, Option.getD_some,
        Option.isSome_some, true_or, and_true, not_true_eq_false, and_false, or_false, ← hlong]
      exact and_congr eq_comm (by cases longer₀ <;> cases longer <;> simp)
    rw [if_neg htp, h.node, Function.update_of_ne htp]
    by_cases ht : t = []
    · simp [ht]
    by_cases hprefix : t <+: p
    · -- Longer strings than what the string starts with are there already.
      have hlonger : HasLonger m t := by
        rcases hsome with hsome | ⟨v, hpv, hne, hv⟩
        · exact ⟨p, hprefix, Ne.symm htp, hsome⟩
        · refine ⟨v, hprefix.trans hpv, ?_, hv⟩
          rintro rfl
          exact htp ( hprefix.eq_of_length_le hpv.length_le)
      simp [hlonger]
    · simp [ hprefix]

/-! ## Runs -/

/-- A string added after one that it starts with, which has a key but no longer ones, is not found in full, or
    the shorter one loses its key. -/
theorem TtyKey.Represents.not_faithful (h : tree.Represents m) (hshadow : Shadowed m s) (key : KeyCode) :
    ¬ (ttyKeysAdd tree s key).Faithful (Function.update m s (some key)) := by
  obtain ⟨p, ⟨u, rfl⟩, hne, ⟨k, hm, hk⟩, hend⟩ := hshadow
  have hp : p ≠ [] := by
    rintro rfl
    rw [h.empty] at hm
    cases hm
  have hu : u ≠ [] := by
    rintro rfl
    exact hne (List.append_nil p).symm
  have hstop : tree.StopsAt p u k false := by
    refine ⟨(h.node p k false).2 ⟨hp, by rw [hm]; rfl, by simp [hend], .inl (by rw [hm]; rfl)⟩, .inr ⟨rfl, hk⟩⟩
  have hadd : ttyKeysAdd tree (p ++ u) key = replaceKey key tree (p ++ u) := by
    rw [ttyKeysAdd, ttyKeysFind_iff.2 ⟨p, u, rfl, hstop, rfl⟩]
  have hnode : (replaceKey key tree (p ++ u)).node? p = some (key, false) := by
    rw [replaceKey_node? hstop, if_pos rfl]
  intro hfaithful
  rw [hadd] at hfaithful
  by_cases hkey : key = keycNone
  · -- The shorter string has lost its key.
    obtain ⟨longer, hfind⟩ := hfaithful.found p k (by rw [Function.update_of_ne hne, hm])
    rw [ttyKeysFind_iff.2 ⟨p, [], (List.append_nil p).symm, ⟨hnode, .inl rfl⟩, rfl⟩] at hfind
    obtain ⟨rfl, -⟩ := Prod.mk.inj (Option.some.inj hfind)
    exact hk hkey
  · -- The shorter string is found in the place of the longer one.
    obtain ⟨longer, hfind⟩ := hfaithful.found (p ++ u) key (by rw [Function.update_self])
    rw [ttyKeysFind_iff.2 ⟨p, u, rfl, ⟨hnode, .inr ⟨rfl, hkey⟩⟩, rfl⟩] at hfind
    have hlen := (Prod.mk.inj (Prod.mk.inj (Option.some.inj hfind)).2).2
    exact hu (by simpa using hlen)

theorem assigned_concat (calls : List (List UInt8 × KeyCode)) (s : List UInt8) (key : KeyCode) :
    assigned (calls ++ [(s, key)]) = Function.update (assigned calls) s (some key) := by
  rw [assigned, List.foldl_append]
  rfl

theorem keyTree_concat (calls : List (List UInt8 × KeyCode)) (s : List UInt8) (key : KeyCode) :
    keyTree (calls ++ [(s, key)]) = ttyKeysAdd (keyTree calls) s key := by
  rw [keyTree, List.foldl_append]
  rfl

theorem represents_nil : (keyTree []).Represents (assigned []) where
  empty := rfl
  node s key longer := by
    have hlonger : ¬ HasLonger (assigned []) s := fun ⟨t, _, _, ht⟩ => by cases ht
    simp [keyTree, assigned, TtyKey.node?, HasLonger]

/-- After calls none of which adds a string that a shorter one hides, the tree represents what is assigned. -/
theorem keyTree_represents {calls : List (List UInt8 × KeyCode)} (hcalls : ∀ call ∈ calls, call.1 ≠ [])
    (h : ∀ before s key, before ++ [(s, key)] <+: calls → ¬ Shadowed (assigned before) s) :
    (keyTree calls).Represents (assigned calls) := by
  induction calls using List.reverseRecOn with
  | nil => exact represents_nil
  | append_singleton calls call ih =>
    obtain ⟨s, key⟩ := call
    have hbefore := ih (fun call hc => hcalls call (List.mem_append_left _ hc))
      fun before s' key' hb => h before s' key' (hb.trans (List.prefix_append _ _))
    rw [keyTree_concat, assigned_concat]
    exact hbefore.add (hcalls (s, key) (by simp)) (h calls s key List.prefix_rfl) key

/-- The tree of key strings is a map from strings to the keys last assigned to them, after every one of a run of
    calls, if and only if no call of the run adds a string after one that it starts with that is not the
    start of another one yet. -/
theorem keyTree_faithful_iff (calls : List (List UInt8 × KeyCode)) (hcalls : ∀ call ∈ calls, call.1 ≠ []) :
    (∀ before, before <+: calls → (keyTree before).Faithful (assigned before)) ↔
      ∀ before s key, before ++ [(s, key)] <+: calls → ¬ Shadowed (assigned before) s := by
  constructor
  · intro hfaithful before s key hbefore
    -- By induction on the calls before, none of which is hidden itself.
    induction hlen : before.length using Nat.strong_induction_on generalizing before s key with
    | _ n ih =>
      intro hshadow
      have hprefix : before <+: calls := (List.prefix_append _ _).trans hbefore
      have hrep : (keyTree before).Represents (assigned before) :=
        keyTree_represents (fun call hc => hcalls call ( hprefix.subset hc)) fun before' s' key' hb =>
          ih before'.length (by simpa [← hlen, Nat.succ_le_iff] using hb.length_le) before' s' key' (hb.trans hprefix) rfl
      have hall := hfaithful _ hbefore
      rw [keyTree_concat, assigned_concat] at hall
      exact hrep.not_faithful hshadow key hall
  · intro h before hbefore
    exact (keyTree_represents (fun call hc => hcalls call (hbefore.subset hc)) fun before' s' key' hb =>
      h before' s' key' (hb.trans hbefore)).faithful

/-- A string with another one after it: each is found with its key. -/
theorem keyTree_faithful_longer_first :
    ((keyTree [([91, 65, 126], keycHome), ([91, 65], keycUp)]).Faithful
      (assigned [([91, 65, 126], keycHome), ([91, 65], keycUp)])) := by
  refine (keyTree_faithful_iff _ (by simp)).2 (fun before s key hbefore => ?_) _ List.prefix_rfl
  rintro ⟨p, hp, hne, ⟨k, hk, -⟩, -⟩
  rcases before with _ | ⟨call, _ | ⟨call', before⟩⟩
  · cases hk
  · obtain ⟨rfl, ⟨rfl, rfl⟩, -⟩ : ([91, 65, 126], keycHome) = call ∧ (([91, 65] : List UInt8) = s ∧ keycUp = key) ∧ True := by
      simpa [eq_comm] using hbefore
    have hlen := hp.length_le
    rw [assigned, List.foldl_cons, List.foldl_nil] at hk
    by_cases hp' : p = [91, 65, 126]
    · subst hp'
      simp at hlen
    · rw [Function.update_of_ne hp'] at hk
      cases hk
  · have hlen := hbefore.length_le
    simp at hlen

/-- A string with a longer one after it: the key of the longer one is that of the shorter one. -/
theorem keyTree_not_faithful_shorter_first :
    ¬ (keyTree [([91, 65], keycUp), ([91, 65, 126], keycHome)]).Faithful
      (assigned [([91, 65], keycUp), ([91, 65, 126], keycHome)]) := fun h => by
  obtain ⟨longer, hfind⟩ := h.found [91, 65] keycUp (by decide)
  revert hfind
  cases longer <;> decide

end Tmux
