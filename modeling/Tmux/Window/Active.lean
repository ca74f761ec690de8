import Tmux.Layout.Offsets
import Tmux.Window.Panes

/-!
# The active pane

The walk to a visible pane, going backwards round the list of panes, comes to a pane of
the window and does not go on forever (`visibleFrom_mem`), so that a pane of a window
can always be made its active one (`windowSetActivePane_eq`).
-/

namespace Tmux

namespace Window

variable {w : Window}

theorem getElem_mem_paneIds {i : ℕ} (hi : i < w.panes.length) : (w.panes[i]).id ∈ w.paneIds :=
  List.mem_map_of_mem (List.getElem_mem hi)

/-- The list of panes splits at a pane. -/
theorem panes_split {i : ℕ} (hi : i < w.panes.length) :
    w.panes = w.panes.take i ++ w.panes[i] :: w.panes.drop (i + 1) := by
  rw [← List.drop_eq_getElem_cons hi, List.take_append_drop]

/-- No pane before another has its identifier. -/
theorem isPane_take (hnd : w.paneIds.Nodup) {i : ℕ} (hi : i < w.panes.length) :
    ∀ p ∈ w.panes.take i, isPane (w.panes[i]).id p = false := fun p hp => by
  rw [paneIds, panes_split hi, List.map_append, List.map_cons, List.nodup_append] at hnd
  have hne : p.id ≠ (w.panes[i]).id := hnd.2.2 _ (List.mem_map_of_mem hp) _ List.mem_cons_self
  simp [isPane, hne]

theorem findPane_getElem (hnd : w.paneIds.Nodup) {i : ℕ} (hi : i < w.panes.length) :
    w.findPane (w.panes[i]).id = some w.panes[i] := by
  have hfind := Queue.find?_split (isPane_take hnd hi) (r := w.panes.drop (i + 1))
    (show isPane (w.panes[i]).id w.panes[i] = true by simp [isPane])
  rwa [← panes_split hi] at hfind

/-- Before the first pane comes the last one, before any other the previous one. -/
theorem prev_getElem (hnd : w.paneIds.Nodup) {i k : ℕ} (hi : i < w.panes.length)
    (hk : k < w.panes.length) (hki : k = if i = 0 then w.panes.length - 1 else i - 1) :
    (Queue.prev? (isPane (w.panes[i]).id) w.panes).or w.panes.getLast? = some w.panes[k] := by
  have hprev := Queue.prev?_split (isPane_take hnd hi) (r := w.panes.drop (i + 1))
    (show isPane (w.panes[i]).id w.panes[i] = true by simp [isPane])
  rw [← panes_split hi] at hprev
  rw [hprev, ← List.getElem?_eq_getElem hk, hki]
  rcases Nat.eq_zero_or_pos i with rfl | hpos
  · rw [List.take_zero, List.getLast?_nil, Option.none_or, List.getLast?_eq_getElem?, if_pos rfl]
  · rw [List.getLast?_take, if_neg (by omega), List.getElem?_eq_getElem (by omega),
      if_neg (Nat.ne_of_gt hpos), List.getElem?_eq_getElem (by omega)]
    rfl

end Window

/-- The walk comes to a pane of the window in as many steps as there are on the way back
    round to where it stops. -/
theorem visibleFrom_getElem {w : Window} (hnd : w.paneIds.Nodup) {i : ℕ} (hi : i < w.panes.length)
    {n j : ℕ} (hj : j < w.panes.length)
    (hn : (if i < j then j - i else j + (w.panes.length - i)) ≤ n) :
    ∃ a ∈ w.paneIds, visibleFrom w (w.panes[i]).id n (w.panes[j]).id = pure a := by
  induction n generalizing j with
  | zero => split at hn <;> omega
  | succ n ih =>
    rw [visibleFrom, w.findPane_getElem hnd hj, Exec.follow_some, pure_bind]
    by_cases hv : windowPaneVisible w w.panes[j]
    · exact ⟨_, w.getElem_mem_paneIds hj, if_pos hv⟩
    · obtain ⟨k, hk⟩ : ∃ k, k = if j = 0 then w.panes.length - 1 else j - 1 := ⟨_, rfl⟩
      have hkl : k < w.panes.length := by rw [hk]; split <;> omega
      rw [if_neg hv, w.prev_getElem hnd hj hkl hk, Exec.follow_some, pure_bind]
      by_cases hki : (w.panes[k]).id = (w.panes[i]).id
      · exact ⟨_, w.getElem_mem_paneIds hi, if_pos hki⟩
      · rw [if_neg hki]
        -- Not being back yet, the walk has come one step closer.
        have hne : k ≠ i := fun e => hki (by simp [e])
        refine ih hkl ?_
        split at hk <;> split at hn <;> split <;> omega

/-- The walk comes to a pane of the window. -/
theorem visibleFrom_mem {w : Window} (hnd : w.paneIds.Nodup) {wp active : ℕ} (hwp : wp ∈ w.paneIds)
    (hactive : active ∈ w.paneIds) :
    ∃ a ∈ w.paneIds, visibleFrom w wp (w.panes.length + 1) active = pure a := by
  obtain ⟨p, hp, rfl⟩ := List.mem_map.1 hwp
  obtain ⟨q, hq, rfl⟩ := List.mem_map.1 hactive
  obtain ⟨i, hi, rfl⟩ := List.getElem_of_mem hp
  obtain ⟨j, hj, rfl⟩ := List.getElem_of_mem hq
  exact visibleFrom_getElem hnd hi hj (by split <;> omega)

/-- A pane of the window, or the one the walk from it comes to, becomes the active one, and
    the one active before the last one, unless the pane is active already. -/
theorem windowSetActivePane_eq {w : Window} (hnd : w.paneIds.Nodup) {wp : ℕ} (hwp : wp ∈ w.paneIds) :
    w.active = some wp ∧ windowSetActivePane w wp = pure w ∨
      w.active ≠ some wp ∧ ∃ a ∈ w.paneIds,
        visibleFrom w wp (w.panes.length + 1) wp = pure a ∧
        windowSetActivePane w wp = pure { w with last := w.active, active := some a } := by
  unfold windowSetActivePane
  by_cases h : w.active = some wp
  · exact .inl ⟨h, if_pos h⟩
  · obtain ⟨a, ha, hwalk⟩ := visibleFrom_mem hnd hwp hwp
    exact .inr ⟨h, a, ha, hwalk, by rw [if_neg h, hwalk, pure_bind]⟩

end Tmux
