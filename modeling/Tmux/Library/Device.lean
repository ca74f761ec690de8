import Mathlib.Control.Monad.Writer
import Mathlib.Tactic.Common

/-!
# Programs that write to a device

A program that writes items returns a value and the list of items (`Writer`). A device takes them one after the
other, by a step function on its states: `after` is its state when it has taken all of them.

`Leads` is the triple of a program: from a state of the device with which the precondition holds, the value and
the state after it meet the postcondition. It has one rule for each way to build a program.
-/

namespace Device

variable {ι σ α β : Type} {step : σ → ι → σ}

/-- The value that a program returns. -/
def value (x : Writer (List ι) α) : α := x.run.1

/-- The items that a program writes. -/
def written (x : Writer (List ι) α) : List ι := x.run.2

/-- The state of the device when it has taken what a program writes. -/
def after (step : σ → ι → σ) (x : Writer (List ι) α) (s : σ) : σ := (written x).foldl step s

/-- Write an item. -/
def write (i : ι) : Writer (List ι) PUnit := tell [i]

@[simp] theorem value_pure (a : α) : value (pure a : Writer (List ι) α) = a := rfl

@[simp] theorem after_pure (a : α) (s : σ) : after step (pure a) s = s := rfl

@[simp] theorem after_write (i : ι) (s : σ) : after step (write i) s = step s i := rfl

@[simp] theorem value_bind (x : Writer (List ι) α) (f : α → Writer (List ι) β) :
    value (x >>= f) = value (f (value x)) := rfl

@[simp] theorem after_bind (x : Writer (List ι) α) (f : α → Writer (List ι) β) (s : σ) :
    after step (x >>= f) s = after step (f (value x)) (after step x s) :=
  List.foldl_append

/-- From a state that meets `pre`, the value and the state after a program meet `post`. -/
def Leads (step : σ → ι → σ) (pre : σ → Prop) (x : Writer (List ι) α) (post : α → σ → Prop) : Prop :=
  ∀ s, pre s → post (value x) (after step x s)

variable {pre mid' : σ → Prop} {mid post post' : α → σ → Prop} {x : Writer (List ι) α}

theorem Leads.pure {a : α} (h : ∀ s, pre s → post a s) : Leads step pre (Pure.pure a) post := h

theorem Leads.write {post : PUnit → σ → Prop} {i : ι} (h : ∀ s, pre s → post ⟨⟩ (step s i)) :
    Leads step pre (write i) post := h

theorem Leads.bind {f : α → Writer (List ι) β} {post : β → σ → Prop} (hx : Leads step pre x mid)
    (hf : ∀ a, Leads step (mid a) (f a) post) : Leads step pre (x >>= f) post := by
  intro s hs
  rw [value_bind, after_bind]
  exact hf _ _ (hx s hs)

theorem Leads.mono (hx : Leads step pre x post) (h : ∀ a s, post a s → post' a s) : Leads step pre x post' :=
  fun s hs => h _ _ (hx s hs)

/-- A program that leaves the device as it is. -/
def Keeps (step : σ → ι → σ) (x : Writer (List ι) α) : Prop := ∀ s, after step x s = s

theorem Keeps.pure (a : α) : Keeps step (Pure.pure a) := fun _ => rfl

theorem Keeps.bind {f : α → Writer (List ι) β} (hx : Keeps step x) (hf : ∀ a, Keeps step (f a)) :
    Keeps step (x >>= f) := fun s => by
  rw [after_bind, hx, hf]

end Device
