import Tmux.Layout.Tiles

/-!
# The panes around a pane

The pane in a direction from a pane (`windowPaneFindUp`, `windowPaneFindDown`, `windowPaneFindLeft`,
`windowPaneFindRight`) is the first one in the list that touches the separator on this side, or the opposite edge of the
window, and has the corner of the pane in its extent (`findTouching`). In a window that is filled there is one
(`windowPaneFind_touches`), since its panes tile it.
-/

namespace Tmux

open Rect

/-- The first visible pane that touches a visible one. -/
def findTouching (touches : WindowPane → WindowPane → Bool) (w : Window) : Option WindowPane → Option WindowPane
  | none => none
  | some wp => if !windowPaneVisible w wp then none else w.panes.find? fun wp2 => windowPaneVisible w wp2 && touches wp wp2

/-- Find the pane directly above another. -/
def windowPaneFindUp (w : Window) : Option WindowPane → Option WindowPane :=
  findTouching (fun wp wp2 =>
    let top := if wp.yoff = 0 then w.sy + 1 else wp.yoff
    let left := wp.xoff
    wp2.yoff + wp2.sy + 1 = top ∧ left ≥ wp2.xoff ∧ left ≤ wp2.xoff + wp2.sx) w

/-- Find the pane directly below another. -/
def windowPaneFindDown (w : Window) : Option WindowPane → Option WindowPane :=
  findTouching (fun wp wp2 =>
    let bottom := if wp.yoff + wp.sy + 1 ≥ w.sy then 0 else wp.yoff + wp.sy + 1
    let left := wp.xoff
    wp2.yoff = bottom ∧ left ≥ wp2.xoff ∧ left ≤ wp2.xoff + wp2.sx) w

/-- Find the pane directly to the left of another, adjacent to the left side and containing the top edge. -/
def windowPaneFindLeft (w : Window) : Option WindowPane → Option WindowPane :=
  findTouching (fun wp wp2 =>
    let left := if wp.xoff = 0 then w.sx + 1 else wp.xoff
    let top := wp.yoff
    wp2.xoff + wp2.sx + 1 = left ∧ top ≥ wp2.yoff ∧ top ≤ wp2.yoff + wp2.sy) w

/-- Find the pane directly to the right of another, adjacent to the right edge and including the top edge. -/
def windowPaneFindRight (w : Window) : Option WindowPane → Option WindowPane :=
  findTouching (fun wp wp2 =>
    let right := if wp.xoff + wp.sx + 1 ≥ w.sx then 0 else wp.xoff + wp.sx + 1
    let top := wp.yoff
    wp2.xoff = right ∧ top ≥ wp2.yoff ∧ top ≤ wp2.yoff + wp2.sy) w

/-! ## What is found -/

section Touches

variable (w : Window) (p q : WindowPane)

/-- A pane touches the separator above another one, or the bottom of the window, at the corner of the other. -/
def TouchesAbove : Prop :=
  (if p.yoff = 0 then q.yoff + q.sy = w.sy else q.yoff + q.sy + 1 = p.yoff) ∧ q.rect.Spans p.xoff

/-- A pane touches the separator below another one, or the top of the window, at the corner of the other. -/
def TouchesBelow : Prop :=
  (if p.yoff + p.sy = w.sy then q.yoff = 0 else q.yoff = p.yoff + p.sy + 1) ∧ q.rect.Spans p.xoff

/-- A pane touches the separator on the left of another one, or the right edge of the window, at the corner of the
    other. -/
def TouchesLeft : Prop :=
  (if p.xoff = 0 then q.xoff + q.sx = w.sx else q.xoff + q.sx + 1 = p.xoff) ∧ q.rect.swap.Spans p.yoff

/-- A pane touches the separator on the right of another one, or the left edge of the window, at the corner of the
    other. -/
def TouchesRight : Prop :=
  (if p.xoff + p.sx = w.sx then q.xoff = 0 else q.xoff = p.xoff + p.sx + 1) ∧ q.rect.swap.Spans p.yoff

end Touches

variable {w : Window} {root : LayoutCell} {p : WindowPane}

/-- Where some pane touches a pane, a pane is found. -/
theorem findTouching_exists (h : Filled w root) (hp : p ∈ w.panes) {touches : WindowPane → WindowPane → Bool}
    {Touches : WindowPane → Prop} (hex : ∃ q ∈ w.panes, Touches q)
    (hiff : ∀ q ∈ w.panes, touches p q = true ↔ Touches q) :
    ∃ q ∈ w.panes, findTouching touches w (some p) = some q ∧ Touches q := by
  have hvisible : (!windowPaneVisible w p) = false := by rw [h.visible p hp, Bool.not_true]
  rw [findTouching, if_neg (Bool.eq_false_iff.1 hvisible)]
  obtain ⟨q, hq, htouches⟩ := hex
  cases hfind : w.panes.find? fun wp2 => windowPaneVisible w wp2 && touches p wp2 with
  | none =>
    have hnone := List.find?_eq_none.1 hfind q hq
    rw [h.visible q hq, Bool.true_and] at hnone
    exact absurd ((hiff q hq).2 htouches) hnone
  | some q' =>
    have hq' := List.mem_of_find?_eq_some hfind
    have htouches' := List.find?_some hfind
    rw [Bool.and_eq_true] at htouches'
    exact ⟨q', hq', rfl, (hiff q' hq').1 htouches'.2⟩

/-- The rectangles that tile a window that is filled are those of its panes. -/
theorem Filled.exists_pane (h : Filled w root) (hp : p ∈ w.panes) {P : Rect → Prop}
    (hex : ∀ l, Tiling w.rect l → p.rect ∈ l → ∃ t ∈ l, P t) : ∃ q ∈ w.panes, P q.rect := by
  obtain ⟨l, htiling, hmem⟩ := h.exists_tiling
  obtain ⟨t, ht, hP⟩ := hex l htiling ((hmem _).2 ⟨p, hp, rfl⟩)
  obtain ⟨q, hq, rfl⟩ := (hmem t).1 ht
  exact ⟨q, hq, hP⟩

theorem exists_touchesAbove (h : Filled w root) (hp : p ∈ w.panes) : ∃ q ∈ w.panes, TouchesAbove w p q := by
  by_cases hy : p.yoff = 0
  · obtain ⟨q, hq, hbottom, hspans⟩ := h.exists_pane hp fun l htiling hpl =>
      htiling.exists_bottom (within_swap (htiling.within _ hpl)).spans
    exact ⟨q, hq, by rw [if_pos hy]; exact hbottom.trans (Nat.zero_add _), hspans⟩
  · obtain ⟨q, hq, hline, hspans⟩ := h.exists_pane hp fun l htiling hpl => htiling.exists_up hpl hy
    exact ⟨q, hq, by rw [if_neg hy]; exact hline, hspans⟩

theorem exists_touchesBelow (h : Filled w root) (hp : p ∈ w.panes) : ∃ q ∈ w.panes, TouchesBelow w p q := by
  by_cases hy : p.yoff + p.sy = w.sy
  · obtain ⟨q, hq, htop, hspans⟩ := h.exists_pane hp fun l htiling hpl =>
      htiling.exists_top (within_swap (htiling.within _ hpl)).spans
    exact ⟨q, hq, by rw [if_pos hy]; exact htop, hspans⟩
  · obtain ⟨q, hq, hline, hspans⟩ := h.exists_pane hp fun l htiling hpl =>
      htiling.exists_down hpl fun he => hy (he.trans (Nat.zero_add _))
    exact ⟨q, hq, by rw [if_neg hy]; exact hline, hspans⟩

theorem exists_touchesLeft (h : Filled w root) (hp : p ∈ w.panes) : ∃ q ∈ w.panes, TouchesLeft w p q := by
  by_cases hx : p.xoff = 0
  · obtain ⟨q, hq, hright, hspans⟩ := h.exists_pane hp fun l htiling hpl =>
      htiling.exists_last (htiling.within _ hpl).spans
    exact ⟨q, hq, by rw [if_pos hx]; exact hright.trans (Nat.zero_add _), hspans⟩
  · obtain ⟨q, hq, hline, hspans⟩ := h.exists_pane hp fun l htiling hpl => htiling.exists_left hpl hx
    exact ⟨q, hq, by rw [if_neg hx]; exact hline, hspans⟩

theorem exists_touchesRight (h : Filled w root) (hp : p ∈ w.panes) : ∃ q ∈ w.panes, TouchesRight w p q := by
  by_cases hx : p.xoff + p.sx = w.sx
  · obtain ⟨q, hq, hleft, hspans⟩ := h.exists_pane hp fun l htiling hpl =>
      htiling.exists_first (htiling.within _ hpl).spans
    exact ⟨q, hq, by rw [if_pos hx]; exact hleft, hspans⟩
  · obtain ⟨q, hq, hline, hspans⟩ := h.exists_pane hp fun l htiling hpl =>
      htiling.exists_right hpl fun he => hx (he.trans (Nat.zero_add _))
    exact ⟨q, hq, by rw [if_neg hx]; exact hline, hspans⟩

/-- A visible pane starts inside the window. -/
theorem off_lt_of_visible (h : windowPaneVisible w p = true) : p.xoff < w.sx ∧ p.yoff < w.sy := by
  unfold windowPaneVisible at h
  split at h
  · cases h
  · omega

/-- Below the pane there is the bottom of the window, or a separator with visible panes on its other side. -/
theorem below_eq (h : Filled w root) (hp : p ∈ w.panes) :
    (if p.yoff + p.sy + 1 ≥ w.sy then 0 else p.yoff + p.sy + 1) =
      if p.yoff + p.sy = w.sy then 0 else p.yoff + p.sy + 1 := by
  obtain ⟨q, hq, hline, -⟩ := exists_touchesBelow h hp
  have hlt := (off_lt_of_visible (h.visible q hq)).2
  by_cases hy : p.yoff + p.sy = w.sy
  · rw [if_pos hy, if_pos (by omega)]
  · rw [if_neg hy] at hline ⊢
    rw [if_neg (by omega)]

theorem right_eq (h : Filled w root) (hp : p ∈ w.panes) :
    (if p.xoff + p.sx + 1 ≥ w.sx then 0 else p.xoff + p.sx + 1) =
      if p.xoff + p.sx = w.sx then 0 else p.xoff + p.sx + 1 := by
  obtain ⟨q, hq, hline, -⟩ := exists_touchesRight h hp
  have hlt := (off_lt_of_visible (h.visible q hq)).1
  by_cases hx : p.xoff + p.sx = w.sx
  · rw [if_pos hx, if_pos (by omega)]
  · rw [if_neg hx] at hline ⊢
    rw [if_neg (by omega)]

/-- In a window that is filled, a pane is found in every direction from a pane, and touches the pane there. -/
theorem windowPaneFind_touches (h : Filled w root) (hp : p ∈ w.panes) :
    (∃ q ∈ w.panes, windowPaneFindUp w (some p) = some q ∧ TouchesAbove w p q) ∧
      (∃ q ∈ w.panes, windowPaneFindDown w (some p) = some q ∧ TouchesBelow w p q) ∧
      (∃ q ∈ w.panes, windowPaneFindLeft w (some p) = some q ∧ TouchesLeft w p q) ∧
      ∃ q ∈ w.panes, windowPaneFindRight w (some p) = some q ∧ TouchesRight w p q := by
  refine ⟨findTouching_exists h hp (exists_touchesAbove h hp) fun q _ => ?_,
    findTouching_exists h hp (exists_touchesBelow h hp) fun q _ => ?_,
    findTouching_exists h hp (exists_touchesLeft h hp) fun q _ => ?_,
    findTouching_exists h hp (exists_touchesRight h hp) fun q _ => ?_⟩
  · rw [decide_eq_true_iff]
    refine and_congr ?_ Iff.rfl
    split_ifs
    · exact Nat.succ_inj
    · exact Iff.rfl
  · rw [decide_eq_true_iff, below_eq h hp]
    refine and_congr ?_ Iff.rfl
    split_ifs <;> exact Iff.rfl
  · rw [decide_eq_true_iff]
    refine and_congr ?_ Iff.rfl
    split_ifs
    · exact Nat.succ_inj
    · exact Iff.rfl
  · rw [decide_eq_true_iff, right_eq h hp]
    refine and_congr ?_ Iff.rfl
    split_ifs <;> exact Iff.rfl

/-- The panes around the lower right one of three. -/
theorem windowPaneFind_touches_join : ⟨2, 0, some 4, 3, 3, 2, 2⟩ ∈ joinWindow.panes ∧
    (∃ q ∈ joinWindow.panes, windowPaneFindUp joinWindow (some ⟨2, 0, some 4, 3, 3, 2, 2⟩) = some q ∧
      TouchesAbove joinWindow ⟨2, 0, some 4, 3, 3, 2, 2⟩ q) ∧
    ∃ q ∈ joinWindow.panes, windowPaneFindRight joinWindow (some ⟨2, 0, some 4, 3, 3, 2, 2⟩) = some q ∧
      TouchesRight joinWindow ⟨2, 0, some 4, 3, 3, 2, 2⟩ q := by
  have hmem : ⟨2, 0, some 4, 3, 3, 2, 2⟩ ∈ joinWindow.panes := by decide
  have hfound := windowPaneFind_touches joinWindow_filled hmem
  exact ⟨hmem, hfound.1, hfound.2.2.2⟩

end Tmux
