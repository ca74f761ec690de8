import Tmux.Layout.Close

/-!
# Spare cells

A pane is put into a window in two steps: a cell is split off that of another pane
(`layoutSplitPane_spare`), and the pane is assigned to it (`layoutAssignPane_cases`).
In between the layout has a spare cell (`HasSpare`), and other panes may be closed
(`layoutClosePane_cases`).
-/

namespace Tmux

open RoseTree

/-- A pane is split off a spare cell, if there is space for it. -/
theorem layoutSplitPane_spare {w : Window} {root : LayoutCell} (h : HasLayout w root) {t : LayoutType}
    (ht : t ≠ .windowpane) {p : WindowPane} (hp : p ∈ w.panes) (size : ℤ) (before : Bool) :
    layoutSplitPane w p.id t size before = pure none ∨
      ∃ root' next id, layoutSplitPane w p.id t size before =
          pure (some ({ w with layoutRoot := some root', nextCell := next }, id)) ∧
        HasSpare { w with layoutRoot := some root', nextCell := next } root' [(some id, none)] := by
  obtain ⟨c, a, -, hw, -, -, ⟨-, hnone⟩ | ⟨-, old, new, c', next, hsome, hs, hb, hnext, hwp, -⟩⟩ :=
    layoutSplitPane_cases h ht hp size before
  · exact .inl hnone
  · obtain ⟨hids, hfresh⟩ := hs.ids hb h.ids h.fresh
    refine .inr ⟨_, next, new.id, hsome, rfl, hs.cells ht hb h.cells, ?_, hids, ?_, h.panes, ?_⟩
    · exact (congrArg Prod.fst hs.place_eq).trans h.top
    · exact fun id hid => hnext ▸ hfresh id hid
    · obtain ⟨X, Y, hX, hX'⟩ := hs.leafLinks_eq ht hb hw
      rw [hX', hwp]
      refine .trans ?_ (h.links.cons (some new.id, none))
      rw [hX]
      cases before with
      | true =>
        rw [if_pos rfl, List.append_assoc]
        exact List.perm_middle
      | false =>
        rw [if_neg Bool.false_ne_true, List.append_assoc]
        exact ((List.Perm.swap _ _ Y).append_left X).trans List.perm_middle

/-- A pane of a layout with a cell for it to spare is assigned to that cell. -/
theorem layoutAssignPane_cases {w : Window} {root : LayoutCell} {id : ℕ}
    (h : HasSpare w root [(some id, none)]) {l r : List WindowPane} (hlr : w.panes = l ++ r)
    {q : WindowPane} (hq : q.id ∉ w.paneIds) :
    ∃ root' panes, layoutAssignPane { w with panes := l ++ q :: r } id q.id =
        pure { w with layoutRoot := some root', panes } ∧
      HasLayout { w with layoutRoot := some root', panes } root' ∧
      List.Forall₂ (fun p p' => fixPane root' w.sx w.sy p = pure p')
        (l ++ { q with layoutCell := some id } :: r) panes := by
  obtain ⟨c, n, rfl, hw, rfl, hwp, -⟩ := h.exists_leaf (List.mem_append_left _ (List.mem_singleton.2 rfl))
  have hne : ∀ p ∈ l ++ r, p.id ≠ q.id := fun p hp e => hq (e ▸ List.mem_map_of_mem (hlr ▸ hp))
  rw [List.forall_mem_append] at hne
  obtain ⟨panes, hassign, hf, hid, hlink⟩ := layoutAssignPane_eq (w := { w with panes := l ++ q :: r })
    h.root_eq hw h.ids rfl hne.1 hne.2 fun p hp id hid => h.mem_cellIds (hlr ▸ hp) hid
  refine ⟨_, panes, hassign, ⟨rfl, ?_, ?_, ?_, ?_, ?_, ?_⟩, hf⟩
  · exact cells_fill h.cells (cells_leaf hw) rfl rfl rfl
  · exact (fill_val_congr CellInfo.parent (.node { n with wp := some q.id } []) (.node n []) rfl c).trans h.top
  · have hids := h.ids
    rw [cellIds_fill] at hids ⊢
    exact hids
  · intro id hid
    refine h.fresh id ?_
    rw [cellIds_fill] at hid ⊢
    exact hid
  · rw [Window.paneIds, hid, (List.perm_middle.map _).nodup_iff, List.map_cons, List.nodup_cons, ← hlr]
    exact ⟨hq, h.panes⟩
  · have hleaf : ∀ a : CellInfo, a.type = .windowpane → leafLinks (.node a []) = [(some a.id, a.wp)] :=
      fun a ha => by simp [leafLinks, CellInfo.link?, ha]
    have hlinks := h.links
    rw [leafLinks_fill, hleaf n hw, hwp, hlr, List.append_assoc] at hlinks
    have hrest : ((before c).filterMap CellInfo.link? ++ (after c).filterMap CellInfo.link?).Perm
        ((l ++ r).map WindowPane.link) := (List.perm_middle.symm.trans hlinks).cons_inv
    rw [hlink, leafLinks_fill, hleaf { n with wp := some q.id } hw, List.append_assoc]
    rw [List.map_append] at hrest
    rw [List.map_append, List.map_cons]
    exact .trans List.perm_middle (.trans (hrest.cons _) List.perm_middle.symm)

/-- Fixing a pane does not move it to another window. -/
theorem fixPanes_window {root : LayoutCell} {wsx wsy : ℕ} {panes panes' : List WindowPane}
    (h : List.Forall₂ (fun p p' => fixPane root wsx wsy p = pure p') panes panes') :
    panes'.map WindowPane.window = panes.map WindowPane.window := by
  refine Exec.map_eq_of_forall₂ h fun p p' hfix => ?_
  rw [fixPane] at hfix
  split at hfix
  · rw [Exec.pure_inj.1 hfix]
  · obtain ⟨⟨lc, cells⟩, -, hfix⟩ := Exec.bind_eq_pure.1 hfix
    rw [← Exec.pure_inj.1 hfix]

end Tmux
