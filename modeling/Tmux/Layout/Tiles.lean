import Tmux.Library.Tiling
import Tmux.Layout.Offsets
import Tmux.Window.Panes

/-!
# Layouts that fill their window

The cells containing panes of a consistent layout, placed, tile the rectangle of its root (`tiling_of_placed`).

A window is filled by its layout (`Filled`) if the layout is as large as the window, with the offsets of the cells and
the panes fixed, and all panes are visible. `layoutFixOffsets` and `layoutFixPanes` bring this about
(`filled_of_fixed`). In a window that is filled the panes tile it, in whatever order they are
(`Filled.exists_tiling`).
-/

namespace Tmux

open Rect

def CellInfo.rect (lc : CellInfo) : Rect := ⟨lc.xoff, lc.yoff, lc.sx, lc.sy⟩

def WindowPane.rect (wp : WindowPane) : Rect := ⟨wp.xoff, wp.yoff, wp.sx, wp.sy⟩

def Window.rect (w : Window) : Rect := ⟨0, 0, w.sx, w.sy⟩

/-- The cells containing panes tile the rectangle of the root. -/
theorem tiling_of_placed {root : LayoutCell} (h : Cells root) (hp : root.Everywhere PlacedAt) :
    Tiling root.val.rect ((leaves root).map CellInfo.rect) := by
  induction root using RoseTree.induct with
  | node lc cells ih =>
    rw [RoseTree.everywhere_node] at hp
    rw [RoseTree.val_node]
    by_cases hw : lc.type = .windowpane
    · obtain rfl := h.eq_nil hw
      rw [leaves_windowpane hw]
      exact .single lc.rect
    · have htiles : ∀ c ∈ cells, Tiling c.val.rect ((leaves c).map CellInfo.rect) :=
        fun c hc => ih c hc (h.below hc) (hp.2 c hc)
      obtain ⟨halong, hacross, -⟩ := (cellAt_iff_across hw).1 h.here
      rw [RoseTree.children_node, RoseTree.val_node] at halong hacross
      rw [FitsAt, if_neg hw, if_pos rfl] at halong
      rw [FitsAt, if_neg hw, if_neg (across_ne hw)] at hacross
      obtain ⟨hplaced, hoff⟩ := hp.1 hw
      have hseparated := (List.isChain_map RoseTree.val).1 (hplaced.separated hoff)
      rw [leaves_node hw, List.map_flatMap]
      obtain ⟨c, cells, rfl⟩ := List.exists_cons_of_ne_nil fun hnil : cells = [] => hacross.1 (by rw [hnil]; rfl)
      rw [List.forall_mem_map] at hoff
      rw [List.forall_mem_map] at hacross
      have hfirst := hplaced.1
      have hfirst' := hoff c List.mem_cons_self
      have hsize := hacross.2 c List.mem_cons_self
      rw [List.map_map, List.length_map] at halong
      cases ht : lc.type with
      | leftright =>
        rw [ht] at halong hacross hoff hseparated hfirst hfirst' hsize
        refine Tiling.row htiles ?_ hfirst.symm hfirst'.symm hsize.symm halong.symm
        refine hseparated.imp_of_mem_imp fun a b ha hb hab => ⟨hab.1, hab.2, ?_⟩
        exact (hacross.2 b hb).trans (hacross.2 a ha).symm
      | topbottom =>
        rw [ht] at halong hacross hoff hseparated hfirst hfirst' hsize
        refine Tiling.column htiles ?_ hfirst'.symm hfirst.symm hsize.symm halong.symm
        refine hseparated.imp_of_mem_imp fun a b ha hb hab => ⟨hab.1, hab.2, ?_⟩
        exact (hacross.2 b hb).trans (hacross.2 a ha).symm
      | windowpane => exact absurd ht hw

/-! ## Windows -/

/-- A window is filled by its layout, with all panes visible. -/
structure Filled (w : Window) (root : LayoutCell) : Prop where
  layout : HasLayout w root
  placed : root.Everywhere PlacedAt
  rect : root.val.rect = w.rect
  panes : ∀ p ∈ w.panes, fixPane root w.sx w.sy p = pure p
  visible : ∀ p ∈ w.panes, windowPaneVisible w p = true

/-- A pane that is fixed stays so. -/
theorem fixPane_fixed {root : LayoutCell} {wsx wsy : ℕ} {p p' : WindowPane}
    (h : fixPane root wsx wsy p = pure p') : fixPane root wsx wsy p' = pure p' := by
  cases hcell : p.layoutCell with
  | none =>
    rw [fixPane, hcell] at h
    obtain rfl := Exec.pure_inj.1 h
    rw [fixPane, hcell]
  | some id =>
    have hcell' := (fixPane_rest h).2.trans hcell
    rw [fixPane, hcell] at h
    obtain ⟨⟨a, cells⟩, hfind, hpane⟩ := Exec.bind_eq_pure.1 h
    rw [fixPane, hcell']
    obtain rfl := Exec.pure_inj.1 hpane
    exact Exec.bind_eq_pure.2 ⟨.node a cells, hfind, rfl⟩

/-- The panes that are fixed stay so. -/
theorem fixPanes_fixed {root : LayoutCell} {wsx wsy : ℕ} {panes panes' : List WindowPane}
    (h : List.Forall₂ (fun p p' => fixPane root wsx wsy p = pure p') panes panes') :
    ∀ p ∈ panes', fixPane root wsx wsy p = pure p := by
  induction h with
  | nil => exact fun p hp => absurd hp List.not_mem_nil
  | cons hp _ ih => exact List.forall_mem_cons.2 ⟨fixPane_fixed hp, ih⟩

/-- With the offsets and then the panes fixed, a window as large as its layout is filled if all panes are visible. -/
theorem filled_of_fixed {w : Window} {root : LayoutCell} (h : HasLayout w root) (hrect : root.val.rect = w.rect) :
    ∃ panes, layoutFixPanes { w with layoutRoot := some (layoutFixOffsets root) } w.sx w.sy =
        pure { w with layoutRoot := some (layoutFixOffsets root), panes } ∧
      ((∀ p ∈ panes, windowPaneVisible w p = true) →
        Filled { w with layoutRoot := some (layoutFixOffsets root), panes } (layoutFixOffsets root)) := by
  obtain ⟨panes, hfix, hpanes, hlayout⟩ := h.layoutFixOffsets.layoutFixPanes w.sx w.sy
  refine ⟨panes, hfix, fun hvisible => ⟨hlayout, layoutFixOffsets_placed h.cells, ?_, ?_, hvisible⟩⟩
  · rw [val_layoutFixOffsets]
    exact hrect
  · exact fixPanes_fixed hpanes

/-- What is inside the window is not cropped. -/
theorem cropSize_eq {off size wsize minimum : ℕ} (h : off + size ≤ wsize) : cropSize off size wsize minimum = size := by
  unfold cropSize
  split_ifs <;> omega

section Filled

variable {w : Window} {root : LayoutCell} {p : WindowPane} {a : CellInfo}

/-- The rectangle of a pane is that of its cell. -/
theorem Filled.rect_eq (h : Filled w root) (hp : p ∈ w.panes) (ha : a ∈ leaves root)
    (hcell : p.layoutCell = some a.id) : p.rect = a.rect := by
  have hmem := (List.mem_filter.1 ha).1
  obtain ⟨c, ts, -, hfind⟩ := exists_findCell h.layout.ids hmem
  have hfixed := h.panes p hp
  rw [fixPane, hcell] at hfixed
  dsimp only at hfixed
  rw [hfind, Exec.follow_some, pure_bind] at hfixed
  have hpane := Exec.pure_inj.1 hfixed
  -- The cell is inside the root, which is as large as the window.
  have hinside := (leaves_of_placed h.layout.cells h.placed).1 a ha
  have hroot := h.rect
  rw [CellInfo.rect, Window.rect, Rect.mk.injEq] at hroot
  have hright := hinside.right
  have hbottom := hinside.bottom
  rw [cropSize_eq (by omega), cropSize_eq (by omega)] at hpane
  rw [← hpane]
  rfl

/-- The panes of a window that is filled tile it. -/
theorem Filled.exists_tiling (h : Filled w root) :
    ∃ l, Tiling w.rect l ∧ ∀ r, r ∈ l ↔ ∃ p ∈ w.panes, p.rect = r := by
  refine ⟨(leaves root).map CellInfo.rect, h.rect ▸ tiling_of_placed h.layout.cells h.placed, fun r => ⟨?_, ?_⟩⟩
  · intro hr
    obtain ⟨a, ha, rfl⟩ := List.mem_map.1 hr
    obtain ⟨hmem, hw⟩ := List.mem_filter.1 ha
    have hlink : (some a.id, a.wp) ∈ leafLinks root :=
      List.mem_filterMap.2 ⟨a, hmem, if_pos (of_decide_eq_true hw)⟩
    obtain ⟨p, hp, hpa⟩ := List.mem_map.1 (h.layout.links.mem_iff.1 hlink)
    exact ⟨p, hp, h.rect_eq hp ha (congrArg Prod.fst hpa)⟩
  · rintro ⟨p, hp, rfl⟩
    obtain ⟨c, a, hroot, hw, -, hcell, -⟩ := h.layout.cellOf hp
    have ha : a ∈ leaves root := by
      refine List.mem_filter.2 ⟨?_, decide_eq_true hw⟩
      rw [hroot, RoseTree.nodes_fill]
      simp
    rw [h.rect_eq hp ha hcell]
    exact List.mem_map_of_mem ha

end Filled

/-- A pane beside two others, one above the other. -/
def joinPanes : LayoutCell :=
  .node { id := 0, type := .leftright, parent := none, sx := 5, sy := 5, xoff := 0, yoff := 0 }
    [.node { id := 1, parent := some 0, sx := 2, sy := 5, xoff := 0, yoff := 0, wp := some 0 } [],
      .node { id := 2, type := .topbottom, parent := some 0, sx := 2, sy := 5, xoff := 3, yoff := 0 }
        [.node { id := 3, parent := some 2, sx := 2, sy := 2, xoff := 3, yoff := 0, wp := some 1 } [],
          .node { id := 4, parent := some 2, sx := 2, sy := 2, xoff := 3, yoff := 3, wp := some 2 } []]]

/-- A window with these panes, in another order. -/
def joinWindow : Window where
  id := 0
  panes := [⟨2, 0, some 4, 3, 3, 2, 2⟩, ⟨0, 0, some 1, 0, 0, 2, 5⟩, ⟨1, 0, some 3, 3, 0, 2, 2⟩]
  sx := 5
  sy := 5
  layoutRoot := some joinPanes
  nextCell := 5

theorem joinPanes_cells : Cells joinPanes := by
  have hleaf : ∀ c : CellInfo, c.type = .windowpane → CellAt c [] := fun c hc =>
    ⟨by rw [FitsAt, if_pos hc], by rw [FitsAt, if_pos hc],
      ⟨fun h => absurd hc h, fun h => absurd hc h, fun _ h => absurd h List.not_mem_nil⟩⟩
  simp only [joinPanes, RoseTree.everywhere_node, List.forall_mem_cons, List.map_cons, List.map_nil,
    RoseTree.val_node]
  refine ⟨⟨by simp [FitsAt, CellInfo.size], by simp [FitsAt, CellInfo.size], ⟨by decide, by decide, by decide⟩⟩,
    ⟨hleaf _ rfl, by simp⟩, ⟨⟨by simp [FitsAt, CellInfo.size], by simp [FitsAt, CellInfo.size],
      ⟨by decide, by decide, by decide⟩⟩, ⟨hleaf _ rfl, by simp⟩, ⟨hleaf _ rfl, by simp⟩, by simp⟩, by simp⟩

theorem joinWindow_filled : Filled joinWindow joinPanes where
  layout :=
    { root_eq := rfl
      cells := joinPanes_cells
      top := rfl
      ids := by decide
      fresh := by decide
      panes := by decide
      links := by decide }
  placed := by
    simp [joinPanes, PlacedAt, Placed, CellInfo.off, CellInfo.size, LayoutType.across]
  rect := rfl
  panes := by
    rintro p hp
    simp only [joinWindow, List.mem_cons, List.not_mem_nil, or_false] at hp
    rcases hp with rfl | rfl | rfl <;> rfl
  visible := by decide

end Tmux
