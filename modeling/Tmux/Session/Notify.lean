import Mathlib.Algebra.Order.Group.Multiset
import Tmux.Library.References

/-!
# References to windows and notifications

A window is freed with the last reference to it. Links to it have one each
(`winlinkSetWindow` in `Tmux.Session.Registry`), and so does every notification about
it that is in the queue (`notifyAdd`) until it is delivered (`notifyDrain`). While
commands are executed, the delivery is disabled, and notifications wait.

A window that is created has no reference (`windowCreate1`).

Windows are told apart by their number, which no other window ever has. Clients are
told of a window that a notification is about whether they asked to or not, and the
references to sessions and clients are left out.
-/

namespace Tmux

open Exec

/-- What a notification is about. -/
inductive NotifyType
  | windowLayoutChanged
  | windowUnlinked
  | windowLinked
  | windowRenamed
  | attachedSessionChanged
  | sessionRenamed
  | sessionCreated
  | sessionClosed
  deriving DecidableEq, Repr

/-- A notification in the queue. -/
structure NotifyEntry where
  type : NotifyType
  client : Option ℕ := none
  session : Option ℕ := none
  window : Option ℕ := none
  deriving DecidableEq, Repr

/-- The windows there are, with the references to each, and the notifications. -/
structure Windows where
  references : References ℕ := fun _ => none
  nextWindowId : ℕ := 0
  notifyQueue : List NotifyEntry := []
  notifyEnabled : Bool := true

namespace Windows

/-! ## Windows -/

/-- Create a window, without a reference. -/
def windowCreate1 (ws : Windows) : Windows × ℕ :=
  ({ ws with
      references := Function.update ws.references ws.nextWindowId (some 0)
      nextWindowId := ws.nextWindowId + 1 }, ws.nextWindowId)

/-- Destroy a window. -/
def windowDestroy (ws : Windows) (w : ℕ) : Windows :=
  { ws with references := Function.update ws.references w none }

/-- Use a window. -/
def useWindow (ws : Windows) (w : ℕ) : Exec Unit := do
  let _ ← ws.references.use w
  pure ()

/-- Take a reference to a window. -/
def windowAddRef (ws : Windows) (w : ℕ) : Exec Windows := do
  let references ← ws.references.retain w
  pure { ws with references }

/-- Drop a reference to a window, destroying it with the last one. -/
def windowRemoveRef (ws : Windows) (w : ℕ) : Exec Windows := do
  let references ← ws.references.release w
  pure { ws with references }

/-! ## Notifications -/

/-- Add a notification to the queue. -/
def notifyAdd (ws : Windows) (ne : NotifyEntry) : Exec Windows := do
  let ws := { ws with notifyQueue := ws.notifyQueue ++ [ne] }
  match ne.window with
  | none => pure ws
  | some w => ws.windowAddRef w

/-- Tell the clients of a notification, and take it off the queue. -/
def deliver (ws : Windows) (ne : NotifyEntry) : Exec Windows := do
  let ws ← match ne.window with
    | none => pure ws
    | some w => do
      ws.useWindow w
      ws.windowRemoveRef w
  pure { ws with notifyQueue := ws.notifyQueue.erase ne }

/-- Deliver the notifications in the queue. -/
def notifyDrain (ws : Windows) : Exec Windows :=
  if !ws.notifyEnabled then pure ws else ws.notifyQueue.foldlM deliver ws

/-- Enable the delivery of notifications. -/
def notifyEnable (ws : Windows) : Exec Windows := notifyDrain { ws with notifyEnabled := true }

/-- Disable the delivery of notifications. -/
def notifyDisable (ws : Windows) : Windows := { ws with notifyEnabled := false }

/-- Add a notification, and deliver it. -/
def notify (ws : Windows) (ne : NotifyEntry) : Exec Windows := do
  let ws ← ws.notifyAdd ne
  ws.notifyDrain

def notifyWindowLayoutChanged (ws : Windows) (w : ℕ) : Exec Windows :=
  ws.notify { type := .windowLayoutChanged, window := some w }

def notifyWindowUnlinked (ws : Windows) (s : ℕ) (w : Option ℕ) : Exec Windows :=
  ws.notify { type := .windowUnlinked, session := some s, window := w }

def notifyWindowLinked (ws : Windows) (s w : ℕ) : Exec Windows :=
  ws.notify { type := .windowLinked, session := some s, window := some w }

def notifyWindowRenamed (ws : Windows) (w : ℕ) : Exec Windows :=
  ws.notify { type := .windowRenamed, window := some w }

def notifyAttachedSessionChanged (ws : Windows) (c : ℕ) : Exec Windows :=
  ws.notify { type := .attachedSessionChanged, client := some c }

def notifySessionRenamed (ws : Windows) (s : ℕ) : Exec Windows :=
  ws.notify { type := .sessionRenamed, session := some s }

def notifySessionCreated (ws : Windows) (s : ℕ) : Exec Windows :=
  ws.notify { type := .sessionCreated, session := some s }

def notifySessionClosed (ws : Windows) (s : ℕ) : Exec Windows :=
  ws.notify { type := .sessionClosed, session := some s }

/-- Set the name of a window. -/
def windowSetName (ws : Windows) (w : ℕ) : Exec Windows := do
  ws.useWindow w
  ws.notifyWindowRenamed w

/-! ## Holders -/

/-- The windows that notifications in the queue hold. -/
def queued (ws : Windows) : Multiset ℕ := ↑(ws.notifyQueue.filterMap NotifyEntry.window)

/-- Every window that is there has a reference from each of its holders and from each notification
    about it, and no window is there that is not created yet. -/
structure Held (held : Multiset ℕ) (ws : Windows) : Prop where
  counts : ws.references.Counts (held + ws.queued)
  fresh : ∀ w, ws.nextWindowId ≤ w → ws.references w = none

variable {held : Multiset ℕ} {ws : Windows} {w : ℕ} {allowed : Allowed}

theorem Held.ne_none (h : ws.Held held) (hw : w ∈ held) : ws.references w ≠ none :=
  h.counts.ne_none (Multiset.mem_add.2 (.inl hw))

/-- A new window is there, and nothing holds it. -/
theorem Held.windowCreate1 (h : ws.Held held) : ws.windowCreate1.1.Held held where
  counts := h.counts.create (h.fresh _ le_rfl)
  fresh w hw := by
    have hlt : ws.nextWindowId < w := hw
    exact (Function.update_of_ne hlt.ne' ..).trans (h.fresh w hlt.le)

theorem windowCreate1_references (ws : Windows) :
    ws.windowCreate1.1.references ws.windowCreate1.2 = some 0 := Function.update_self ..

/-- A window that has no reference is destroyed. -/
theorem Held.windowDestroy (h : ws.Held held) (hw : ws.references w = some 0) :
    (ws.windowDestroy w).Held held where
  counts := h.counts.destroy fun hmem => by
    obtain ⟨n, hn⟩ := h.counts.eq_some hmem
    rw [hw] at hn
    cases hn
  fresh v hv := by
    have hne : v ≠ w := by
      rintro rfl
      rw [h.fresh v hv] at hw
      cases hw
    exact (Function.update_of_ne hne ..).trans (h.fresh v hv)

/-- Using a window that is there. -/
theorem useWindow_eq (hw : ws.references w ≠ none) : ws.useWindow w = pure () := by
  obtain ⟨n, hn⟩ := Option.ne_none_iff_exists'.1 hw
  rw [useWindow, References.use, hn]
  rfl

theorem Held.windowAddRef (h : ws.Held held) (hw : ws.references w ≠ none) :
    Meets allowed (fun ws' => Held (w ::ₘ held) ws') (ws.windowAddRef w) := by
  refine (h.counts.retain hw).bind fun references hc => .pure ⟨?_, fun v hv => hc.2 v (h.fresh v hv)⟩
  rw [Multiset.cons_add]
  exact hc.1

theorem Held.windowRemoveRef (h : ws.Held (w ::ₘ held)) :
    Meets allowed (fun ws' => Held held ws') (ws.windowRemoveRef w) := by
  have hc := h.counts
  rw [Multiset.cons_add] at hc
  exact hc.release.bind fun references hc => .pure ⟨hc.1, fun v hv => hc.2 v (h.fresh v hv)⟩

/-- A notification in the queue is one more holder. -/
theorem Held.notifyAdd (h : ws.Held held) {ne : NotifyEntry}
    (hw : ∀ w ∈ ne.window, ws.references w ≠ none) :
    Meets allowed (fun ws' => Held held ws' ∧ ws'.notifyEnabled = ws.notifyEnabled ∧
      ∀ w ∈ ne.window, w ∈ ws'.queued) (ws.notifyAdd ne) := by
  have hqueued : ∀ ws' : Windows, ws'.notifyQueue = ws.notifyQueue ++ [ne] →
      ws'.queued = (ne.window.toList : Multiset ℕ) + ws.queued := by
    intro ws' hws'
    rw [queued, hws', List.filterMap_append, ← Multiset.coe_add, add_comm]
    cases hne : ne.window <;> simp [hne, queued]
  rw [Windows.notifyAdd]
  cases hne : ne.window with
  | none =>
    refine .pure ⟨⟨?_, h.fresh⟩, rfl, by simp⟩
    rw [hqueued _ rfl, hne]
    simpa using h.counts
  | some w =>
    refine (h.counts.retain (hw w hne)).bind fun references hc =>
      .pure ⟨⟨?_, fun v hv => hc.2 v (h.fresh v hv)⟩, rfl, ?_⟩
    · rw [hqueued _ rfl, hne, add_left_comm]
      exact hc.1
    · rintro v ⟨⟩
      rw [hqueued _ rfl, hne]
      simp

/-- A notification delivered is no holder any more. -/
theorem Held.deliver {ne : NotifyEntry} {queue : List NotifyEntry} (h : ws.Held held)
    (hqueue : ws.notifyQueue = ne :: queue) :
    Meets allowed (fun ws' => Held held ws' ∧ ws'.notifyQueue = queue) (ws.deliver ne) := by
  have hrest : ws.notifyQueue.erase ne = queue := by rw [hqueue, List.erase_cons_head]
  rw [Windows.deliver]
  cases hne : ne.window with
  | none =>
    dsimp only
    rw [pure_bind]
    refine .pure ⟨⟨?_, h.fresh⟩, hrest⟩
    have hqueued : ws.queued = ↑(queue.filterMap NotifyEntry.window) := by
      rw [queued, hqueue, List.filterMap_cons_none hne]
    rw [queued, hrest, ← hqueued]
    exact h.counts
  | some w =>
    have hqueued : ws.queued = w ::ₘ ↑(queue.filterMap NotifyEntry.window) := by
      rw [queued, hqueue, List.filterMap_cons_some hne]
      rfl
    have hc := h.counts
    rw [hqueued, Multiset.add_cons] at hc
    have hw : ws.references w ≠ none := hc.ne_none (Multiset.mem_cons_self _ _)
    dsimp only
    rw [useWindow_eq hw, pure_bind, Windows.windowRemoveRef, bind_assoc]
    refine hc.release.bind fun references hc => ?_
    rw [pure_bind]
    refine .pure ⟨⟨?_, fun v hv => hc.2 v (h.fresh v hv)⟩, hrest⟩
    rw [queued, hrest]
    exact hc.1

/-- The queue is empty after all notifications are delivered. -/
theorem Held.notifyDrain (h : ws.Held held) :
    Meets allowed (fun ws' => Held held ws') ws.notifyDrain := by
  rw [Windows.notifyDrain]
  split_ifs with hdis
  · exact .pure h
  · generalize hqueue : ws.notifyQueue = queue
    clear hdis
    induction queue generalizing ws with
    | nil => exact .pure h
    | cons ne queue ih =>
      rw [List.foldlM_cons]
      exact (h.deliver hqueue).bind fun ws' h' => ih h'.1 h'.2

/-- The delivery that is disabled is not enabled by a notification, which keeps the window there. -/
theorem Held.notify (h : ws.Held held) {ne : NotifyEntry} (hw : ∀ w ∈ ne.window, ws.references w ≠ none) :
    Meets allowed (fun ws' => Held held ws' ∧ (ws.notifyEnabled = false → ws'.notifyEnabled = false ∧
      ∀ w ∈ ne.window, ws'.references w ≠ none)) (ws.notify ne) := by
  rw [Windows.notify]
  refine (h.notifyAdd hw).bind fun ws' ⟨h', hen, hqueued⟩ => ?_
  cases hdis : ws.notifyEnabled with
  | true => exact h'.notifyDrain.mono fun ws'' h'' => ⟨h'', nofun⟩
  | false =>
    rw [Windows.notifyDrain, hen, hdis]
    exact .pure ⟨h', fun _ => ⟨hen.trans hdis, fun w hwin =>
      h'.counts.ne_none (Multiset.mem_add.2 (.inr (hqueued w hwin)))⟩⟩

theorem Held.notify_held (h : ws.Held held) {ne : NotifyEntry} (hw : ∀ w ∈ ne.window, w ∈ held) :
    Meets allowed (fun ws' => Held held ws') (ws.notify ne) :=
  (h.notify fun w hwin => h.ne_none (hw w hwin)).mono fun _ h' => h'.1

end Windows

end Tmux
