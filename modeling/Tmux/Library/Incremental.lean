import Mathlib.Data.List.Basic
import Mathlib.Data.Nat.Basic
import Mathlib.Tactic.Common

/-!
# Recognising what arrives in pieces

A *recogniser* reads the start of a list that more may be added to: it finds something
there, finds that there is nothing, or asks for more (`Answer`). It is *stable* if what it
answers, other than asking for more, does not change when more is added
(`Recogniser.Stable`), which the ways to build recognisers keep.

`Recogniser.drain` is all that a recogniser finds in a list, one thing after the other, and the
rest of it.
-/

variable {α β γ : Type*}

/-- What is found at the start of a list. -/
inductive Answer (β : Type*)
  | no
  | more
  | found (b : β)
  deriving DecidableEq, Repr

theorem Answer.more_ne_found {β : Type*} (b : β) : Answer.more ≠ .found b := nofun

/-- The same answer about another thing. -/
def Answer.map {β γ : Type*} (f : β → γ) : Answer β → Answer γ
  | .no => .no
  | .more => .more
  | .found b => .found (f b)

/-- Recognises something at the start of a list, and gives the rest of it. -/
abbrev Recogniser (α β : Type*) := List α → Answer (β × List α)

namespace Recogniser

/-- Find something without reading. -/
def unit (b : β) : Recogniser α β := fun p => .found (b, p)

/-- Ask for more whatever there is. -/
def wait : Recogniser α β := fun _ => .more

/-- Read one item. -/
def item (f : α → Option β) : Recogniser α β
  | [] => .more
  | a :: p => match f a with
    | none => .no
    | some b => .found (b, p)

/-- Go on after what is found. -/
def andThen (R : Recogniser α β) (S : β → Recogniser α γ) : Recogniser α γ := fun p =>
  match R p with
  | .no => .no
  | .more => .more
  | .found (b, p) => S b p

/-- Try another one if nothing is found. -/
def orElse (R S : Recogniser α β) : Recogniser α β := fun p =>
  match R p with
  | .no => S p
  | .more => .more
  | .found b => .found b

/-- The answer does not change when more arrives. -/
structure Stable (R : Recogniser α β) : Prop where
  found : ∀ ⦃p b rest⦄, R p = .found (b, rest) → ∀ q, R (p ++ q) = .found (b, rest ++ q)
  no : ∀ ⦃p⦄, R p = .no → ∀ q, R (p ++ q) = .no

/-- The rest is one of the list. -/
def Splits (R : Recogniser α β) : Prop :=
  ∀ ⦃p b rest⦄, R p = .found (b, rest) → rest <:+ p

/-- Something is taken off the list. -/
def Takes (R : Recogniser α β) : Prop :=
  ∀ ⦃p b rest⦄, R p = .found (b, rest) → ∃ a, (a :: rest) <:+ p

variable {R : Recogniser α β} {S : β → Recogniser α γ} {p q : List α} {b : β} {rest : List α}

theorem andThen_no (h : R p = .no) : andThen R S p = .no := by rw [andThen, h]

theorem andThen_more (h : R p = .more) : andThen R S p = .more := by rw [andThen, h]

theorem andThen_found (h : R p = .found (b, rest)) : andThen R S p = S b rest := by rw [andThen, h]

theorem orElse_no {R' : Recogniser α β} (h : R p = .no) : orElse R R' p = R' p := by rw [orElse, h]

theorem orElse_more {R' : Recogniser α β} (h : R p = .more) : orElse R R' p = .more := by rw [orElse, h]

theorem orElse_found {R' : Recogniser α β} (h : R p = .found (b, rest)) : orElse R R' p = .found (b, rest) := by
  rw [orElse, h]

/-! ## Building recognisers -/

theorem stable_unit (b : β) : Stable (unit b : Recogniser α β) where
  found _ _ _ h q := by
    obtain ⟨rfl, rfl⟩ := Prod.mk.inj (Answer.found.inj h)
    rfl
  no _ h := nomatch h

theorem splits_unit (b : β) : Splits (unit b : Recogniser α β) := fun _ _ _ h => by
  obtain ⟨rfl, rfl⟩ := Prod.mk.inj (Answer.found.inj h)
  exact List.suffix_rfl

theorem stable_wait : Stable (wait : Recogniser α β) := ⟨nofun, nofun⟩

theorem takes_wait : Takes (wait : Recogniser α β) := fun _ _ _ h => nomatch h

theorem item_eq_found {f : α → Option β} :
    item f p = .found (b, rest) ↔ ∃ a, p = a :: rest ∧ f a = some b := by
  cases p with
  | nil => exact ⟨nofun, fun ⟨_, h, _⟩ => nomatch h⟩
  | cons a p =>
    unfold item
    cases hf : f a <;> simp [hf, and_comm, eq_comm]

theorem stable_item (f : α → Option β) : Stable (item f) where
  found p b rest h q := by
    obtain ⟨a, rfl, hf⟩ := item_eq_found.1 h
    exact item_eq_found.2 ⟨a, rfl, hf⟩
  no p h q := by
    cases p with
    | nil => cases h
    | cons a p =>
      unfold item at h ⊢
      dsimp only [List.cons_append] at h ⊢
      cases hf : f a with
      | none => rfl
      | some b =>
        rw [hf] at h
        cases h

theorem takes_item (f : α → Option β) : Takes (item f) := fun _ _ _ h => by
  obtain ⟨a, rfl, -⟩ := item_eq_found.1 h
  exact ⟨a, List.suffix_rfl⟩

theorem Takes.splits (h : Takes R) : Splits R := fun _ _ _ hp => by
  obtain ⟨a, ha⟩ := h hp
  exact (List.suffix_cons a _).trans ha

theorem Takes.length_lt (h : Takes R) (hp : R p = .found (b, rest)) : rest.length < p.length := by
  obtain ⟨a, ha⟩ := h hp
  exact ha.length_le

/-- The rest is what is left after so many items. -/
theorem Splits.drop_eq (h : Splits R) (hp : R p = .found (b, rest)) : p.drop (p.length - rest.length) = rest :=
  List.suffix_iff_eq_drop.1 (h hp) |>.symm

theorem andThen_eq_found {c : γ} :
    andThen R S p = .found (c, rest) ↔ ∃ b p', R p = .found (b, p') ∧ S b p' = .found (c, rest) := by
  unfold andThen
  cases hR : R p with
  | no => simp
  | more => simp
  | found r => exact ⟨fun h => ⟨r.1, r.2, rfl, h⟩, fun ⟨b, p', hr, h⟩ => by cases hr; exact h⟩

/-- Changing what is found changes nothing else. -/
theorem andThen_unit_eq_more {f : β → γ} : andThen R (fun b => unit (f b)) p = .more ↔ R p = .more := by
  unfold andThen
  cases R p <;> simp [unit]

theorem andThen_unit_eq_no {f : β → γ} : andThen R (fun b => unit (f b)) p = .no ↔ R p = .no := by
  unfold andThen
  cases R p <;> simp [unit]

theorem Stable.andThen (hR : Stable R) (hS : ∀ b, Stable (S b)) : Stable (andThen R S) where
  found _ _ _ h q := by
    obtain ⟨b, p', hp, hb⟩ := andThen_eq_found.1 h
    exact andThen_eq_found.2 ⟨b, p' ++ q, hR.found hp q, (hS b).found hb q⟩
  no p h q := by
    unfold Recogniser.andThen at h ⊢
    cases hp : R p with
    | no => rw [hR.no hp q]
    | more =>
      rw [hp] at h
      cases h
    | found r =>
      rw [hp] at h
      rw [hR.found hp q]
      exact (hS r.1).no h q

theorem Splits.andThen (hR : Splits R) (hS : ∀ b, Splits (S b)) : Splits (andThen R S) := fun _ _ _ h => by
  obtain ⟨b, p', hp, hb⟩ := andThen_eq_found.1 h
  exact (hS b hb).trans (hR hp)

theorem Takes.andThen (hR : Takes R) (hS : ∀ b, Splits (S b)) : Takes (andThen R S) := fun _ _ _ h => by
  obtain ⟨b, p', hp, hb⟩ := andThen_eq_found.1 h
  obtain ⟨a, ha⟩ := hR hp
  obtain ⟨q, rfl⟩ := hS b hb
  rcases q.eq_nil_or_concat with rfl | ⟨q, c, rfl⟩
  · exact ⟨a, ha⟩
  · refine ⟨c, List.IsSuffix.trans ⟨a :: q, ?_⟩ ha⟩
    simp

theorem Stable.orElse {R' : Recogniser α β} (hR : Stable R) (hR' : Stable R') : Stable (orElse R R') where
  found p b rest h q := by
    unfold Recogniser.orElse at h ⊢
    cases hp : R p with
    | no =>
      rw [hp] at h
      rw [hR.no hp q]
      exact hR'.found h q
    | more =>
      rw [hp] at h
      cases h
    | found r =>
      rw [hp] at h
      rw [hR.found (hp.trans h) q]
  no p h q := by
    unfold Recogniser.orElse at h ⊢
    cases hp : R p with
    | no =>
      rw [hp] at h
      rw [hR.no hp q]
      exact hR'.no h q
    | more =>
      rw [hp] at h
      cases h
    | found r =>
      rw [hp] at h
      cases h

theorem Takes.orElse {R' : Recogniser α β} (hR : Takes R) (hR' : Takes R') : Takes (orElse R R') := fun p _ _ h => by
  unfold Recogniser.orElse at h
  cases hp : R p with
  | no =>
    rw [hp] at h
    exact hR' h
  | more =>
    rw [hp] at h
    cases h
  | found r =>
    rw [hp] at h
    exact hR (hp.trans h)

/-! ## Draining a list -/

variable (R)

/-- What is found from the start of a list on, so many times at most, and the rest. -/
def drainFrom : ℕ → List α → List β × List α
  | 0, p => ([], p)
  | n + 1, p => match R p with
    | .found (b, p) => (b :: (drainFrom n p).1, (drainFrom n p).2)
    | _ => ([], p)

/-- All that is found from the start of a list on, and the rest. -/
def drain (p : List α) : List β × List α := drainFrom R p.length p

variable {R}

theorem drainFrom_eq (hR : Takes R) {n : ℕ} (hn : p.length ≤ n) : drainFrom R n p = drain R p := by
  unfold drain
  induction n using Nat.strong_induction_on generalizing p with
  | _ n ih =>
    cases n with
    | zero => rw [Nat.le_zero.1 hn]
    | succ n =>
      cases p with
      | nil =>
        rw [drainFrom, List.length_nil, drainFrom]
        cases hp : R ([] : List α) with
        | no => rfl
        | more => rfl
        | found r => exact absurd (hR.length_lt hp) (Nat.not_lt_zero _)
      | cons a p =>
        rw [List.length_cons, drainFrom, drainFrom]
        cases hp : R (a :: p) with
        | no => rfl
        | more => rfl
        | found r =>
          have hr : r.2.length < (a :: p).length := hR.length_lt hp
          simp only [List.length_cons] at hr hn
          dsimp only
          rw [ih n (Nat.lt_succ_self n) (by omega), ← ih p.length (by omega) (p := r.2) (by omega)]

theorem drain_found (hR : Takes R) (hp : R p = .found (b, rest)) :
    drain R p = (b :: (drain R rest).1, (drain R rest).2) := by
  have hlt := hR.length_lt hp
  rw [← drainFrom_eq hR (Nat.le_succ _), drainFrom, hp]
  dsimp only
  rw [drainFrom_eq hR (Nat.le_of_lt hlt)]

theorem drain_rest (hR : Takes R) (hp : ∀ r, R p ≠ .found r) : drain R p = ([], p) := by
  rw [← drainFrom_eq hR (Nat.le_succ _), drainFrom]
  cases h : R p with
  | no => rfl
  | more => rfl
  | found r => exact absurd h (hp r)

end Recogniser
