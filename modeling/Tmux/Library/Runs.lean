import Mathlib.Data.List.Induction
import Mathlib.Data.List.Infix
import Tmux.Library.Exec

/-!
# Runs that keep an invariant

A step keeps an invariant exactly under a condition. Then the invariant holds after every step of a run exactly if
every step of the run meets the condition (`prefixes_iff_along`). What the steps that return keep is kept by the runs
that return (`foldlM_of_pure`), also if it is about the steps so far (`foldlM_of_prefix`).
-/

namespace Exec

universe u

variable {σ α : Type u} {f : σ → α → Exec σ} {C : σ → α → Prop} {I : σ → Prop} {l : List α} {s : σ}

theorem prefixes_iff_along (h : ∀ s a, I s → ((∃ s', f s a = pure s' ∧ I s') ↔ C s a)) (hs : I s) :
    (∀ p, p <+: l → ∃ s', p.foldlM f s = pure s' ∧ I s') ↔ Along f C s l := by
  constructor
  · intro hrun
    induction l generalizing s with
    | nil => trivial
    | cons a l ih =>
      have hkept : ∃ s', f s a = pure s' ∧ I s' := by
        obtain ⟨s₁, hs₁, hI⟩ := hrun [a] (List.prefix_append [a] l)
        rw [List.foldlM_cons] at hs₁
        obtain ⟨s₂, hstep, hnil⟩ := bind_eq_pure.1 hs₁
        obtain rfl : s₂ = s₁ := pure_injective hnil
        exact ⟨s₂, hstep, hI⟩
      obtain ⟨s₁, hstep, hI⟩ := id hkept
      refine ⟨(h s a hs).1 hkept, fun s₂ hs₂ => ?_⟩
      rw [hstep, value?_pure] at hs₂
      obtain rfl := Option.some.inj hs₂
      refine ih hI fun p hp => ?_
      obtain ⟨s', hs', hI'⟩ := hrun (a :: p) (List.cons_prefix_cons.2 ⟨rfl, hp⟩)
      rw [List.foldlM_cons, hstep, pure_bind] at hs'
      exact ⟨s', hs', hI'⟩
  · rintro halong p ⟨rest, rfl⟩
    exact foldlM_along (fun s a hC hI => (h s a hI).2 hC) halong.left hs

/-- What every step that returns keeps is kept by every run that returns. -/
theorem foldlM_of_pure (h : ∀ s a s', I s → f s a = pure s' → I s') {l : List α} {s s' : σ} (hs : I s)
    (hrun : l.foldlM f s = pure s') : I s' := by
  induction l generalizing s with
  | nil => exact pure_inj.1 hrun ▸ hs
  | cons a l ih =>
    rw [List.foldlM_cons] at hrun
    obtain ⟨s₁, hf, hrun⟩ := bind_eq_pure.1 hrun
    exact ih (h s a s₁ hs hf) hrun

/-- What every step that returns keeps, with the steps before it, is kept by every run that returns. -/
theorem foldlM_of_prefix {J : List α → σ → Prop} {s s' : σ} {l : List α}
    (h : ∀ pre s₁ a s₂, pre.foldlM f s = pure s₁ → J pre s₁ → f s₁ a = pure s₂ → J (pre ++ [a]) s₂) (hs : J [] s)
    (hrun : l.foldlM f s = pure s') : J l s' := by
  induction l using List.reverseRecOn generalizing s' with
  | nil => exact pure_inj.1 hrun ▸ hs
  | append_singleton l a ih =>
    rw [List.foldlM_append] at hrun
    obtain ⟨s₁, hpre, hrun⟩ := bind_eq_pure.1 hrun
    rw [List.foldlM_cons] at hrun
    obtain ⟨s₂, hstep, hrun⟩ := bind_eq_pure.1 hrun
    obtain rfl := pure_inj.1 hrun
    exact h l s₁ a s₂ hpre (ih hpre) hstep

end Exec
