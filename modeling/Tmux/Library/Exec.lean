import Mathlib.Data.Int.Cast.Basic
import Mathlib.Tactic.Common

/-!
# Computations on machine words

A computation of a C function on unsigned words: it *faults*, having no result,
or is done with a value, together with a mark telling whether an unsigned
subtraction on the way wrapped below zero.

* A `Fault` is a loop that never ends, a missing object that is followed, an access
  past the end of a buffer or of a bit string, the use of an object that is freed, or
  the program stopping itself.
* `pure a` is the computation that returns `a` and wraps nowhere. A result
  "`x` returns `a`, without fault and without wrapping" is stated as the
  equation `x = pure a`, so that it rewrites the computations that call `x`.
* `usub`, `uadd` and `uaddi` are the unsigned difference, the unsigned sum, and
  the sum of an unsigned word and a signed change, reduced modulo `word` when they
  leave the range. `sint` is the result of a signed operation, marked in the same way
  when it leaves the range.
-/

namespace Exec

/-- Why a computation has no result. -/
inductive Fault
  /-- A loop whose state no longer changes goes on forever. -/
  | hang
  /-- A missing object is followed. -/
  | null
  /-- A buffer is accessed past its end. -/
  | overread
  /-- A bit past the end of a bit string is used. -/
  | bit
  /-- An object is used after it is freed. -/
  | freed
  /-- The program stops itself. -/
  | fatal
  deriving DecidableEq, Repr

end Exec

/-- A computation: a fault, or a value and whether a subtraction wrapped. -/
inductive Exec (α : Type*)
  | fault (f : Exec.Fault)
  | done (wrapped : Bool) (a : α)
  deriving DecidableEq, Repr

namespace Exec

universe u

variable {α β : Type u}

/-- Run `x`, then `f` on its value; wrapping anywhere marks the result. -/
def bind (x : Exec α) (f : α → Exec β) : Exec β :=
  match x with
  | fault e => fault e
  | done w a =>
    match f a with
    | fault e => fault e
    | done w' b => done (w || w') b

instance : Monad Exec where
  pure := done false
  bind := bind

@[simp] theorem fault_bind (e : Fault) (f : α → Exec β) : (fault e : Exec α) >>= f = fault e := rfl

@[simp] theorem fault_map (e : Fault) (f : α → β) : f <$> (fault e : Exec α) = fault e := rfl

theorem done_bind (w : Bool) (a : α) (f : α → Exec β) :
    (done w a : Exec α) >>= f = match f a with
      | fault e => fault e
      | done w' b => done (w || w') b := rfl

/-- Returning `a` is being done with `a`, nothing having wrapped. -/
theorem pure_eq_done (a : α) : (pure a : Exec α) = done false a := rfl

instance : LawfulMonad Exec :=
  LawfulMonad.mk' Exec
    (fun x => by
      cases x with
      | fault e => rfl
      | done w a =>
        show done (w || false) a = done w a
        rw [Bool.or_false])
    (fun a f => by
      rw [pure_eq_done, done_bind]
      cases f a <;> simp)
    (fun x f g => by
      cases x with
      | fault e => rfl
      | done w a =>
        rw [done_bind, done_bind]
        cases f a with
        | fault e => rfl
        | done w' b =>
          simp only [done_bind]
          cases g b <;> simp [Bool.or_assoc])

theorem pure_injective : Function.Injective (pure : α → Exec α) := fun _ _ h => by
  simpa [pure_eq_done] using h

@[simp] theorem pure_inj {a b : α} : (pure a : Exec α) = pure b ↔ a = b := pure_injective.eq_iff

/-- A computation of two steps returns when both do. -/
theorem bind_eq_pure {x : Exec α} {f : α → Exec β} {b : β} :
    x >>= f = pure b ↔ ∃ a, x = pure a ∧ f a = pure b := by
  constructor
  · intro h
    cases x with
    | fault e => exact absurd h (by simp [pure_eq_done])
    | done w a =>
      rw [done_bind] at h
      cases hf : f a with
      | fault e => simp [hf, pure_eq_done] at h
      | done w' b' =>
        simp only [hf, pure_eq_done, done.injEq, Bool.or_eq_false_iff] at h
        exact ⟨a, by rw [h.1.1, pure_eq_done], by rw [hf, h.1.2, h.2, pure_eq_done]⟩
  · rintro ⟨a, rfl, hf⟩
    rw [pure_bind, hf]

theorem map_eq_pure {x : Exec α} {f : α → β} {b : β} :
    f <$> x = pure b ↔ ∃ a, x = pure a ∧ f a = b := by
  rw [map_eq_pure_bind, bind_eq_pure]
  simp only [pure_inj]

/-- Follow a pointer: a fault if it is missing. -/
def follow : Option α → Exec α
  | none => fault .null
  | some a => pure a

@[simp] theorem follow_some (a : α) : follow (some a) = pure a := rfl

@[simp] theorem follow_none : follow (none : Option α) = fault .null := rfl

/-- Mapping a computation that returns on every entry of a list returns, entry by entry. -/
theorem mapM_eq_pure {f : α → Exec β} {R : α → β → Prop} {l : List α}
    (h : ∀ a ∈ l, ∃ b, f a = pure b ∧ R a b) :
    ∃ l', l.mapM f = pure l' ∧ List.Forall₂ R l l' := by
  induction l with
  | nil => exact ⟨[], by simp, .nil⟩
  | cons a l ih =>
    obtain ⟨b, hb, hab⟩ := h a List.mem_cons_self
    obtain ⟨l', hl', hR⟩ := ih fun c hc => h c (List.mem_cons_of_mem _ hc)
    exact ⟨b :: l', by simp [hb, hl'], .cons hab hR⟩

/-- What a computation mapped over a list returns is what it returns on every entry. -/
theorem forall₂_of_mapM_eq_pure {f : α → Exec β} {l : List α} {l' : List β} (h : l.mapM f = pure l') :
    List.Forall₂ (fun a b => f a = pure b) l l' := by
  induction l generalizing l' with
  | nil =>
    obtain rfl : [] = l' := by simpa using h
    exact .nil
  | cons a l ih =>
    rw [List.mapM_cons] at h
    obtain ⟨b, hb, h⟩ := bind_eq_pure.1 h
    obtain ⟨bs, hbs, h⟩ := bind_eq_pure.1 h
    obtain rfl : b :: bs = l' := by simpa using h
    exact .cons hb (ih hbs)

/-- Entries related to each other have the same image under a function kept by the relation. -/
theorem map_eq_of_forall₂ {γ : Type*} {R : α → β → Prop} {l : List α} {l' : List β}
    (h : List.Forall₂ R l l') {f : α → γ} {g : β → γ} (hR : ∀ a b, R a b → g b = f a) :
    l'.map g = l.map f := by
  induction h with
  | nil => rfl
  | cons hab _ ih => rw [List.map_cons, List.map_cons, hR _ _ hab, ih]

/-- What is related to a list with an entry in it has the related entry in the same place. -/
theorem forall₂_append_cons {R : α → β → Prop} {l r : List α} {a : α} {l' : List β}
    (h : List.Forall₂ R (l ++ a :: r) l') :
    ∃ s b t, l' = s ++ b :: t ∧ List.Forall₂ R l s ∧ R a b ∧ List.Forall₂ R r t := by
  induction l generalizing l' with
  | nil =>
    cases h with
    | cons hab hr => exact ⟨[], _, _, rfl, .nil, hab, hr⟩
  | cons c l ih =>
    cases h with
    | cons hc h =>
      obtain ⟨s, b, t, rfl, hs, hb, ht⟩ := ih h
      exact ⟨_ :: s, b, t, rfl, .cons hc hs, hb, ht⟩

/-! ## Results -/

/-- The value of a computation, if it has one. -/
def value? : Exec α → Option α
  | fault _ => none
  | done _ a => some a

/-- Whether a subtraction wrapped in a computation that has a result. -/
def wraps : Exec α → Bool
  | fault _ => false
  | done w _ => w

@[simp] theorem value?_pure (a : α) : (pure a : Exec α).value? = some a := rfl

@[simp] theorem wraps_pure (a : α) : (pure a : Exec α).wraps = false := rfl

@[simp] theorem value?_fault (f : Fault) : (fault f : Exec α).value? = none := rfl

@[simp] theorem value?_follow (o : Option α) : (follow o).value? = o := by cases o <;> rfl

/-- A computation of two steps has a value when both have. -/
theorem value?_bind {x : Exec α} {f : α → Exec β} {b : β} :
    (x >>= f).value? = some b ↔ ∃ a, x.value? = some a ∧ (f a).value? = some b := by
  cases x with
  | fault e => simp
  | done w a =>
    rw [done_bind]
    cases hf : f a <;> simp [value?, hf]

/-- The values of a computation mapped over a list, entry by entry. -/
theorem forall₂_of_mapM {f : α → Exec β} {l : List α} {l' : List β}
    (h : (l.mapM f).value? = some l') : List.Forall₂ (fun a b => (f a).value? = some b) l l' := by
  induction l generalizing l' with
  | nil =>
    obtain rfl : [] = l' := by simpa using h
    exact .nil
  | cons a l ih =>
    rw [List.mapM_cons] at h
    obtain ⟨b, hb, h⟩ := value?_bind.1 h
    obtain ⟨bs, hbs, h⟩ := value?_bind.1 h
    obtain rfl : b :: bs = l' := by simpa using h
    exact .cons hb (ih hbs)

/-- A computation done without marking that a subtraction wrapped in it. -/
def forget : Exec α → Exec α
  | fault e => fault e
  | done _ a => done false a

@[simp] theorem forget_pure (a : α) : forget (pure a) = pure a := rfl

@[simp] theorem value?_forget (x : Exec α) : (forget x).value? = x.value? := by cases x <;> rfl

@[simp] theorem wraps_forget (x : Exec α) : (forget x).wraps = false := by cases x <;> rfl

/-! ## Words -/

/-- The number of unsigned words. -/
def word : ℕ := 4294967296

/-- The unsigned difference `a - b`. -/
def usub (a b : ℕ) : Exec ℕ :=
  if b ≤ a then pure (a - b) else done true ((a + (word - b % word)) % word)

/-- The unsigned sum `a + b`. -/
def uadd (a b : ℕ) : ℕ := (a + b) % word

/-- The unsigned sum of a word and a signed change, as by `a += c`. -/
def uaddi (a : ℕ) (c : ℤ) : Exec ℕ :=
  if 0 ≤ (a : ℤ) + c then pure ((a : ℤ) + c).toNat else done true (((a : ℤ) + c) % word).toNat

/-- The result `n` of a signed operation, which overflows out of the range of the signed words. -/
def sint (n : ℤ) : Exec ℤ :=
  if -2147483648 ≤ n ∧ n ≤ 2147483647 then pure n else done true (Int.bmod n word)

theorem usub_of_le {a b : ℕ} (h : b ≤ a) : usub a b = pure (a - b) := if_pos h

theorem sint_of_mem {n : ℤ} (h : -2147483648 ≤ n) (h' : n ≤ 2147483647) : sint n = pure n :=
  if_pos ⟨h, h'⟩

theorem uadd_of_lt {a b : ℕ} (h : a + b < word) : uadd a b = a + b := Nat.mod_eq_of_lt h

theorem usub_wraps {a b : ℕ} : (usub a b).wraps = true ↔ a < b := by
  unfold usub
  split <;> simp_all [wraps]

theorem uaddi_of_nonneg {a : ℕ} {c : ℤ} (h : 0 ≤ (a : ℤ) + c) :
    uaddi a c = pure ((a : ℤ) + c).toNat := if_pos h

/-! ## What is allowed -/

/-- What a computation is allowed to do: the faults it may have, and whether a subtraction in it
    may wrap. -/
structure Allowed where
  faults : Fault → Prop
  wraps : Prop

namespace Allowed

/-- Everything is allowed. -/
def all : Allowed := ⟨fun _ => True, True⟩

/-- One fault is not allowed. -/
def avoid (e : Fault) : Allowed := ⟨(· ≠ e), True⟩

/-- Wrapping is allowed as well. -/
def wrapping (w : Allowed) : Allowed := { w with wraps := True }

/-- Wrapping is not allowed. -/
def straight (w : Allowed) : Allowed := { w with wraps := False }

/-- Everything is allowed, but not always a loop that goes on forever. -/
class Lenient (w : Allowed) : Prop where
  faults (e : Fault) : e ≠ .hang → w.faults e
  wraps : w.wraps

instance : Lenient .all := ⟨fun _ _ => trivial, trivial⟩

instance : Lenient (.avoid .hang) := ⟨fun _ he => he, trivial⟩

end Allowed

/-- A computation does only what is allowed, and a value it has satisfies `P`. -/
def Meets (w : Allowed) (P : α → Prop) : Exec α → Prop
  | fault f => w.faults f
  | done b a => (b = true → w.wraps) ∧ P a

section Meets

variable {w : Allowed} {P Q : α → Prop} {R : β → Prop} {x : Exec α} {f : α → Exec β}

theorem Meets.pure {a : α} (h : P a) : Meets w P (Pure.pure a) := ⟨nofun, h⟩

/-- Everything is allowed to any computation. -/
theorem meets_all (x : Exec α) : Meets .all (fun _ => True) x := by
  cases x with
  | fault f => trivial
  | done b a => exact ⟨fun _ => trivial, trivial⟩

theorem Meets.value (h : Meets w P x) {a : α} (ha : x.value? = some a) : P a := by
  cases x with
  | fault f => cases ha
  | done b a' =>
    obtain rfl := Option.some.inj ha
    exact h.2

theorem Meets.not_fault (h : Meets w P x) {e : Fault} (he : ¬ w.faults e) : x ≠ fault e := by
  rintro rfl
  exact he h

theorem Meets.wraps_eq (h : Meets w P x) (hw : ¬ w.wraps) : x.wraps = false := by
  cases x with
  | fault f => rfl
  | done b a =>
    cases b with
    | false => rfl
    | true => exact absurd (h.1 rfl) hw

theorem Meets.mono (h : Meets w P x) (hP : ∀ a, P a → Q a) : Meets w Q x := by
  cases x with
  | fault f => exact h
  | done b a => exact ⟨h.1, hP a h.2⟩

theorem Meets.and (hP : Meets w P x) (hQ : Meets w Q x) : Meets w (fun a => P a ∧ Q a) x := by
  cases x with
  | fault f => exact hP
  | done b a => exact ⟨hP.1, hP.2, hQ.2⟩

/-- What is known of a value is that it is the one of the computation, besides. -/
theorem Meets.self (h : Meets w P x) : Meets w (fun a => P a ∧ x.value? = some a) x := by
  cases x with
  | fault f => exact h
  | done b a => exact ⟨h.1, h.2, rfl⟩

theorem Meets.bind (hx : Meets w P x) (hf : ∀ a, P a → Meets w R (f a)) : Meets w R (x >>= f) := by
  cases x with
  | fault g => exact hx
  | done b a =>
    have := hf a hx.2
    rw [done_bind]
    cases hfa : f a with
    | fault g => rwa [hfa] at this
    | done b' c =>
      rw [hfa] at this
      refine ⟨fun h => ?_, this.2⟩
      rcases (Bool.or_eq_true b b').mp h with h | h
      · exact hx.1 h
      · exact this.1 h

theorem meets_map {g : α → β} : Meets w R (g <$> x) ↔ Meets w (fun a => R (g a)) x := by
  rw [map_eq_pure_bind]
  cases x with
  | fault f => exact Iff.rfl
  | done b a =>
    rw [done_bind, pure_eq_done]
    simp [Meets]

/-- The rule for loops over a list: what each step keeps is kept by the loop. -/
theorem Meets.foldlM {γ : Type*} {g : α → γ → Exec α} {l : List γ} {a : α} (ha : P a)
    (hg : ∀ a, ∀ b ∈ l, P a → Meets w P (g a b)) : Meets w P (l.foldlM g a) := by
  induction l generalizing a with
  | nil => exact .pure ha
  | cons b l ih =>
    rw [List.foldlM_cons]
    exact (hg a b List.mem_cons_self ha).bind fun a ha =>
      ih ha fun a b hb => hg a b (List.mem_cons_of_mem _ hb)

theorem Meets.mapM {g : α → Exec β} {l : List α} (hg : ∀ a ∈ l, Meets w R (g a)) :
    Meets w (fun l' => ∀ b ∈ l', R b) (l.mapM g) := by
  induction l with
  | nil => exact .pure (by simp)
  | cons a l ih =>
    rw [List.mapM_cons]
    exact (hg a List.mem_cons_self).bind fun b hb =>
      (ih fun c hc => hg c (List.mem_cons_of_mem _ hc)).bind fun bs hbs =>
        .pure (List.forall_mem_cons.2 ⟨hb, hbs⟩)

/-- A computation whose only fault is one wraps, or returns, or else has that fault. -/
theorem Meets.cases {e : Fault} (h : Meets w P x) (he : ∀ e', w.faults e' → e' = e) :
    x = fault e ∨ x.wraps = true ∨ ∃ a, x = Pure.pure a := by
  cases x with
  | fault f => exact .inl (congrArg fault (he f h))
  | done b a =>
    cases b with
    | true => exact .inr (.inl rfl)
    | false => exact .inr (.inr ⟨a, rfl⟩)

/-- Where the mark of wrapping is dropped, wrapping is allowed. -/
theorem Meets.forget (h : Meets w.wrapping P x) : Meets w P (Exec.forget x) := by
  cases x with
  | fault f => exact h
  | done b a => exact ⟨nofun, h.2⟩

theorem meets_follow {o : Option α} (he : w.faults .null) (h : ∀ a ∈ o, P a) :
    Meets w P (follow o) := by
  cases o with
  | none => exact he
  | some a => exact .pure (h a rfl)

/-- A difference is right if it does not wrap, as it must not unless wrapping is allowed. -/
theorem meets_usub {a b : ℕ} (h : w.wraps ∨ b ≤ a) :
    Meets w (fun c => b ≤ a → c = a - b) (usub a b) := by
  unfold usub
  split_ifs with hb
  · exact .pure fun _ => rfl
  · exact ⟨fun _ => h.resolve_right hb, fun h' => absurd h' hb⟩

section Lenient

variable [w.Lenient]

theorem meets_fault {e : Fault} (he : e ≠ .hang) : Meets w P (fault e : Exec α) := Allowed.Lenient.faults e he

theorem meets_usub_any (a b : ℕ) : Meets w (fun _ => True) (usub a b) :=
  (meets_usub (.inl Allowed.Lenient.wraps)).mono fun _ _ => trivial

theorem meets_follow_any (o : Option α) : Meets w (fun _ => True) (follow o) :=
  meets_follow (Allowed.Lenient.faults _ nofun) fun _ _ => trivial

end Lenient

end Meets

/-! ## Refinement -/

/-- Every value that `x` has is under `f` the one of `y`. -/
def Refines {γ : Type*} (f : γ → β) (x : Exec γ) (y : Exec β) : Prop := ∀ a, x.value? = some a → y.value? = some (f a)

section Refines

universe v

variable {γ δ : Type v} {f : γ → α} {g : δ → β} {x : Exec γ} {y : Exec α} {k : γ → Exec δ} {j : α → Exec β}

theorem Refines.pure {a : γ} {b : α} (h : f a = b) : Refines f (Pure.pure a) (Pure.pure b) := by
  rintro _ ⟨⟩
  rw [value?_pure, h]

theorem Refines.bind (hx : Refines f x y) (hk : ∀ a, x.value? = some a → Refines g (k a) (j (f a))) :
    Refines g (x >>= k) (y >>= j) := by
  intro b hb
  obtain ⟨a, ha, hb⟩ := value?_bind.1 hb
  exact value?_bind.2 ⟨f a, hx a ha, hk a ha b hb⟩

/-- A last step that only the one that refines has. -/
theorem Refines.map {m : γ → δ} {g : δ → α} (hx : Refines f x y) (hm : ∀ a, g (m a) = f a) :
    Refines g (x >>= fun a => Pure.pure (m a)) y := by
  intro b hb
  obtain ⟨a, ha, hb⟩ := value?_bind.1 hb
  obtain rfl := Option.some.inj hb
  rw [hx a ha, hm]

/-- A step that only the one that refines has. -/
theorem Refines.skip {z : Exec β} (hk : ∀ a, x.value? = some a → Refines g (k a) z) : Refines g (x >>= k) z := by
  intro b hb
  obtain ⟨a, ha, hb⟩ := value?_bind.1 hb
  exact hk a ha b hb

/-- The rule for loops over a list. -/
theorem Refines.foldlM {ι : Type*} {s : γ → ι → Exec γ} {t : α → ι → Exec α} (h : ∀ a i, Refines f (s a i) (t (f a) i))
    (l : List ι) (a : γ) : Refines f (l.foldlM s a) (l.foldlM t (f a)) := by
  induction l generalizing a with
  | nil => exact .pure rfl
  | cons i l ih =>
    rw [List.foldlM_cons, List.foldlM_cons]
    exact (h a i).bind fun a' _ => ih a'

end Refines

/-! ## Runs -/

section Runs

variable {σ : Type u} {f : σ → α → Exec σ} {C : σ → α → Prop} {I : σ → Prop}

/-- Every step of a run of `l` from `s` meets the condition `C` in the state before it. -/
def Along (f : σ → α → Exec σ) (C : σ → α → Prop) : σ → List α → Prop
  | _, [] => True
  | s, a :: l => C s a ∧ ∀ s', (f s a).value? = some s' → Along f C s' l

instance Along.decidable [∀ s a, Decidable (C s a)] : ∀ (s : σ) (l : List α), Decidable (Along f C s l)
  | _, [] => isTrue trivial
  | s, a :: l =>
    match h : (f s a).value? with
    | none => decidable_of_iff (C s a) <| by simp [Along, h]
    | some s' =>
      have := Along.decidable s' l
      decidable_of_iff (C s a ∧ Along f C s' l) <| by simp [Along, h]

/-- The run rule: what a step meeting a condition keeps is kept by a run whose steps all
    meet it, and the run returns. -/
theorem foldlM_along (h : ∀ s a, C s a → I s → ∃ s', f s a = pure s' ∧ I s') {l : List α} {s : σ}
    (hl : Along f C s l) (hs : I s) : ∃ s', l.foldlM f s = pure s' ∧ I s' := by
  induction l generalizing s with
  | nil => exact ⟨s, rfl, hs⟩
  | cons a l ih =>
    obtain ⟨s', hf, hs'⟩ := h s a hl.1 hs
    rw [List.foldlM_cons, hf, pure_bind]
    exact ih (hl.2 s' (by rw [hf, value?_pure])) hs'

theorem Along.trivial (s : σ) (l : List α) : Along f (fun _ _ => True) s l := by
  induction l generalizing s with
  | nil => exact True.intro
  | cons a l ih => exact ⟨True.intro, fun s' _ => ih s'⟩

theorem Along.left {l l' : List α} {s : σ} (h : Along f C s (l ++ l')) : Along f C s l := by
  induction l generalizing s with
  | nil => trivial
  | cons a l ih => exact ⟨h.1, fun s' hs' => ih (h.2 s' hs')⟩

/-- The rest of a run meets the condition from the state that its beginning leads to. -/
theorem Along.right {l l' : List α} {s s' : σ} (h : Along f C s (l ++ l'))
    (hrun : (l.foldlM f s).value? = some s') : Along f C s' l' := by
  induction l generalizing s with
  | nil =>
    obtain rfl : s = s' := by simpa using hrun
    exact h
  | cons a l ih =>
    rw [List.foldlM_cons] at hrun
    obtain ⟨s₁, hf, hrun⟩ := value?_bind.1 hrun
    exact ih (h.2 s₁ hf) hrun

/-- The run rule for what is allowed. -/
theorem Meets.foldlM_along {w : Allowed} (h : ∀ s a, C s a → I s → Meets w I (f s a)) {l : List α} {s : σ}
    (hl : Along f C s l) (hs : I s) : Meets w I (l.foldlM f s) := by
  induction l generalizing s with
  | nil => exact .pure hs
  | cons a l ih =>
    rw [List.foldlM_cons]
    exact ((h s a hl.1 hs).self).bind fun s₁ h₁ => ih (hl.2 s₁ h₁.2) h₁.1

theorem Along.and_forall {Q : α → Prop} {l : List α} {s : σ} (h : Along f C s l) (hQ : ∀ a ∈ l, Q a) :
    Along f (fun s a => C s a ∧ Q a) s l := by
  induction l generalizing s with
  | nil => trivial
  | cons a l ih =>
    rw [List.forall_mem_cons] at hQ
    exact ⟨⟨h.1, hQ.1⟩, fun s' hs' => ih (h.2 s' hs') hQ.2⟩

/-- The run rule for runs that may fault: what a step meeting a condition keeps, if it has a
    value, is kept by a run whose steps all meet it. -/
theorem foldlM_along_value (h : ∀ s a, C s a → I s → ∀ s', (f s a).value? = some s' → I s')
    {l : List α} {s s' : σ} (hl : Along f C s l) (hs : I s) (hrun : (l.foldlM f s).value? = some s') :
    I s' := by
  induction l generalizing s with
  | nil =>
    obtain rfl : s = s' := by simpa using hrun
    exact hs
  | cons a l ih =>
    rw [List.foldlM_cons] at hrun
    obtain ⟨s₁, hf, hrun⟩ := value?_bind.1 hrun
    exact ih (hl.2 s₁ hf) (h s a hl.1 hs s₁ hf) hrun

/-- What every step keeps is kept by every run. -/
theorem foldlM_invariant (h : ∀ s a, I s → ∃ s', f s a = pure s' ∧ I s') (l : List α) {s : σ}
    (hs : I s) : ∃ s', l.foldlM f s = pure s' ∧ I s' := by
  exact foldlM_along (C := fun _ _ => True) (fun s a _ => h s a) (.trivial s l) hs

end Runs

end Exec
