import Mathlib.Data.List.Perm.Basic
import Mathlib.Data.List.Nodup
import Tmux.Layout.Window

/-!
# Consistent layouts

What the operations on the layout of a window preserve (`HasLayout`): every cell of
the tree is consistent with its children (`CellAt`), the addresses of the cells
are different and taken from those already allocated, and the cells containing
panes and the panes of the window point at each other (`leafLinks`).

A cell found by its address is in its place: in a tree whose addresses are
different, finding and replacing it is filling its context (`findCell_fill`,
`replaceCell_fill`). Around the place, the tree only depends on the parent and
the sizes of the cell (`CellAt.congr`).
-/

namespace Tmux

/-! ## Cells -/

/-- A cell is linked with its children: a container has at least two of them and
    no pane, and is their parent. -/
structure LinkedAt (lc : CellInfo) (cells : List CellInfo) : Prop where
  shape : lc.type ≠ .windowpane → 2 ≤ cells.length
  wp : lc.type ≠ .windowpane → lc.wp = none
  parent : ∀ c ∈ cells, c.parent = some lc.id

/-- A cell is consistent with its children: linked, and fitting along both axes. -/
structure CellAt (lc : CellInfo) (cells : List CellInfo) : Prop where
  fitsX : FitsAt .leftright lc cells
  fitsY : FitsAt .topbottom lc cells
  linked : LinkedAt lc cells

/-- Every cell of a layout is consistent with its children. -/
abbrev Cells (lc : LayoutCell) : Prop := lc.Everywhere CellAt

/-- The addresses of the cells of a layout. -/
def cellIds (lc : LayoutCell) : List ℕ := lc.nodes.map CellInfo.id

/-- The pointers between a cell containing a pane and the pane. -/
def CellInfo.link? (lc : CellInfo) : Option (Option ℕ × Option ℕ) :=
  if lc.type = .windowpane then some (some lc.id, lc.wp) else none

/-- The pointers between the cells containing panes and the panes, in order. -/
def leafLinks (lc : LayoutCell) : List (Option ℕ × Option ℕ) := lc.nodes.filterMap CellInfo.link?

/-- The pointers between a pane and its cell. -/
def WindowPane.link (wp : WindowPane) : Option ℕ × Option ℕ := (wp.layoutCell, some wp.id)

/-- The identifiers of the panes of a window. -/
def Window.paneIds (w : Window) : List ℕ := w.panes.map WindowPane.id

/-- The layout of a window is a consistent tree, linked with the panes. -/
structure HasLayout (w : Window) (root : LayoutCell) : Prop where
  root_eq : w.layoutRoot = some root
  cells : Cells root
  top : root.val.parent = none
  ids : (cellIds root).Nodup
  fresh : ∀ id ∈ cellIds root, id < w.nextCell
  panes : w.paneIds.Nodup
  links : (leafLinks root).Perm (w.panes.map WindowPane.link)

/-- As `HasLayout`, but for cells that contain no pane of the window, or none yet. -/
structure HasSpare (w : Window) (root : LayoutCell) (spare : List (Option ℕ × Option ℕ)) : Prop where
  root_eq : w.layoutRoot = some root
  cells : Cells root
  top : root.val.parent = none
  ids : (cellIds root).Nodup
  fresh : ∀ id ∈ cellIds root, id < w.nextCell
  panes : w.paneIds.Nodup
  links : (leafLinks root).Perm (spare ++ w.panes.map WindowPane.link)

theorem hasSpare_nil {w : Window} {root : LayoutCell} : HasSpare w root [] ↔ HasLayout w root :=
  ⟨fun ⟨h₁, h₂, h₃, h₄, h₅, h₆, h₇⟩ => ⟨h₁, h₂, h₃, h₄, h₅, h₆, h₇⟩,
    fun ⟨h₁, h₂, h₃, h₄, h₅, h₆, h₇⟩ => ⟨h₁, h₂, h₃, h₄, h₅, h₆, h₇⟩⟩

theorem cells_iff {lc : LayoutCell} :
    Cells lc ↔ Fits .leftright lc ∧ Fits .topbottom lc ∧ lc.Everywhere LinkedAt := by
  rw [Fits, Fits, ← RoseTree.everywhere_and, ← RoseTree.everywhere_and]
  exact ⟨fun h => h.mono fun _ _ h => ⟨h.1, h.2, h.3⟩, fun h => h.mono fun _ _ h => ⟨h.1, h.2.1, h.2.2⟩⟩

theorem Cells.fits {lc : LayoutCell} (h : Cells lc) {t : LayoutType} (ht : t ≠ .windowpane) :
    Fits t lc := by
  cases t with
  | leftright => exact (cells_iff.1 h).1
  | topbottom => exact (cells_iff.1 h).2.1
  | windowpane => exact absurd rfl ht

/-- A pane has no children. -/
theorem Cells.eq_nil {lc : CellInfo} {cells : List LayoutCell} (h : Cells (.node lc cells))
    (hw : lc.type = .windowpane) : cells = [] :=
  (fits_windowpane hw).1 (cells_iff.1 h).1

/-! ## Resizing -/

/-- The axis across an axis. -/
def LayoutType.across : LayoutType → LayoutType
  | .leftright => .topbottom
  | _ => .leftright

/-- There are two axes. -/
theorem eq_across {s t : LayoutType} (ht : t ≠ .windowpane) (hs : s ≠ .windowpane) (hst : s ≠ t) :
    s = t.across := by
  cases s <;> cases t <;>
    first | rfl | exact absurd rfl hst | exact absurd rfl hs | exact absurd rfl ht

theorem size_across_withSize (t : LayoutType) (lc : CellInfo) (n : ℕ) :
    (lc.withSize t n).size t.across = lc.size t.across := by
  cases t <;> rfl

theorem cells_iff_across {t : LayoutType} (ht : t ≠ .windowpane) {lc : LayoutCell} :
    Cells lc ↔ Fits t lc ∧ Fits t.across lc ∧ lc.Everywhere LinkedAt := by
  rw [cells_iff]
  cases t with
  | leftright => rfl
  | topbottom => exact and_left_comm
  | windowpane => exact absurd rfl ht

/-- Fitting across the axis `t` is not a matter of the sizes along it. -/
theorem fitsAt_across_erase (t : LayoutType) (lc : CellInfo) (cells : List CellInfo) :
    FitsAt t.across (lc.withSize t 0) (cells.map (·.withSize t 0)) ↔ FitsAt t.across lc cells := by
  simp only [FitsAt, CellInfo.type_withSize, List.map_eq_nil_iff, List.map_map, List.length_map,
    Function.comp_def, size_across_withSize, List.forall_mem_map, ne_eq]

theorem linkedAt_erase (t : LayoutType) (lc : CellInfo) (cells : List CellInfo) :
    LinkedAt (lc.withSize t 0) (cells.map (·.withSize t 0)) ↔ LinkedAt lc cells := by
  constructor
  · rintro ⟨h₁, h₂, h₃⟩
    exact ⟨by simpa using h₁, by simpa using h₂, by simpa using h₃⟩
  · rintro ⟨h₁, h₂, h₃⟩
    exact ⟨by simpa using h₁, by simpa using h₂, by simpa using h₃⟩

namespace Resized

variable {t : LayoutType} {change : ℤ} {lc lc' : LayoutCell}

/-- Resizing keeps a layout consistent. -/
theorem cells (ht : t ≠ .windowpane) (hr : Resized t change lc lc') (h : Cells lc) : Cells lc' := by
  rw [cells_iff_across ht] at h ⊢
  exact ⟨hr.fits, (RoseTree.everywhere_congr (fitsAt_across_erase t) hr.rest).2 h.2.1,
    (RoseTree.everywhere_congr (linkedAt_erase t) hr.rest).2 h.2.2⟩

/-- Resizing keeps what does not depend on the sizes along the axis. -/
theorem nodes_map {β : Type*} (hr : Resized t change lc lc') {g : CellInfo → β}
    (hg : ∀ a, g (a.withSize t 0) = g a) : lc'.nodes.map g = lc.nodes.map g := by
  have h : ∀ l : LayoutCell, l.nodes.map g = (erase t l).nodes.map g := fun l => by
    rw [erase, RoseTree.nodes_map, List.map_map]
    exact List.map_congr_left fun a _ => (hg a).symm
  rw [h lc', h lc, hr.rest]

theorem val_map {β : Type*} (hr : Resized t change lc lc') {g : CellInfo → β}
    (hg : ∀ a, g (a.withSize t 0) = g a) : g lc'.val = g lc.val := by
  have := congrArg (fun l : LayoutCell => g l.val) hr.rest
  simpa [erase, hg] using this

theorem cellIds_eq (hr : Resized t change lc lc') : cellIds lc' = cellIds lc :=
  hr.nodes_map fun a => a.id_withSize t 0

theorem leafLinks_eq (hr : Resized t change lc lc') : leafLinks lc' = leafLinks lc := by
  have := hr.nodes_map (g := CellInfo.link?) fun a => by simp [CellInfo.link?]
  have h : ∀ l : List CellInfo, l.filterMap CellInfo.link? =
      (l.map CellInfo.link?).filterMap id := fun l => by simp [List.filterMap_map]
  rw [leafLinks, leafLinks, h, h, this]

theorem parent_eq (hr : Resized t change lc lc') : lc'.val.parent = lc.val.parent :=
  hr.val_map fun a => a.parent_withSize t 0

theorem id_eq (hr : Resized t change lc lc') : lc'.val.id = lc.val.id :=
  hr.val_map fun a => a.id_withSize t 0

theorem size_across (hr : Resized t change lc lc') :
    lc'.val.size t.across = lc.val.size t.across :=
  hr.val_map (g := fun a => a.size t.across) fun a => size_across_withSize t a 0

/-- The panes stay roomy across the axis. -/
theorem roomy_across (hr : Resized t change lc lc') (h : Roomy t.across lc) : Roomy t.across lc' := by
  have hm := hr.nodes_map (g := fun a => (a.type, a.size t.across)) fun a => by
    rw [CellInfo.type_withSize, size_across_withSize]
  intro c hc hw
  have hmem := hm ▸ List.mem_map_of_mem (f := fun a : CellInfo => (a.type, a.size t.across)) hc
  obtain ⟨d, hd, he⟩ := List.mem_map.1 hmem
  rw [Prod.mk.injEq] at he
  exact he.2 ▸ h d hd (he.1.trans hw)

/-- The panes stay roomy along both axes. -/
theorem roomy_of (hr : Resized t change lc lc') (ht : t ≠ .windowpane) {s : LayoutType}
    (hs : s ≠ .windowpane) (h : Roomy s lc) : Roomy s lc' := by
  by_cases hst : s = t
  · subst hst
    exact hr.roomy h
  · obtain rfl := eq_across ht hs hst
    exact hr.roomy_across h

end Resized

/-! ## Cells in their places -/

section Place

open RoseTree

variable {c : List (Frame CellInfo)} {lc new : LayoutCell} {a : CellInfo}

/-- In a tree with different addresses, no other cell has the address of a given one. -/
theorem isCell_eq_false (h : (cellIds (fill c lc)).Nodup) :
    (∀ b ∈ before c, isCell lc.val.id b = false) ∧ ∀ b ∈ after c, isCell lc.val.id b = false := by
  rw [cellIds, nodes_fill, List.map_append, List.map_append, List.nodup_append,
    List.nodup_append] at h
  have hmem : lc.val.id ∈ lc.nodes.map CellInfo.id := List.mem_map_of_mem lc.val_mem_nodes
  constructor
  · intro b hb
    rw [isCell, beq_eq_false_iff_ne]
    exact h.1.2.2 _ (List.mem_map_of_mem hb) _ hmem
  · intro b hb
    rw [isCell, beq_eq_false_iff_ne]
    exact (h.2.2 _ (List.mem_append_right _ hmem) _ (List.mem_map_of_mem hb)).symm

/-- In a tree with different addresses, no sibling of a cell has its address. -/
theorem isRoot_eq_false {f : Frame CellInfo} (h : (cellIds (fill (f :: c) lc)).Nodup) :
    (∀ d ∈ f.left, isRoot lc.val.id d = false) ∧ ∀ d ∈ f.right, isRoot lc.val.id d = false := by
  obtain ⟨hb, ha⟩ := isCell_eq_false h
  constructor
  · refine fun d hd => hb _ ?_
    rw [before]
    exact List.mem_append_right _ (List.mem_cons_of_mem _
      (List.mem_flatMap.2 ⟨d, hd, d.val_mem_nodes⟩))
  · exact fun d hd => ha _ (List.mem_append_left _ (List.mem_flatMap.2 ⟨d, hd, d.val_mem_nodes⟩))

theorem findCell_fill (h : (cellIds (fill c lc)).Nodup) :
    findCell (fill c lc) lc.val.id = some lc :=
  find?_fill (isCell_eq_false h).1 (by simp [isCell])

theorem replaceCell_fill (h : (cellIds (fill c lc)).Nodup) :
    replaceCell (fill c lc) lc.val.id new = fill c new :=
  replace_fill (isCell_eq_false h).1 (isCell_eq_false h).2 (by simp [isCell])

/-- The addresses around a place, and in it. -/
theorem cellIds_fill : cellIds (fill c lc) =
    (before c).map CellInfo.id ++ cellIds lc ++ (after c).map CellInfo.id := by
  rw [cellIds, nodes_fill, List.map_append, List.map_append, cellIds]

theorem leafLinks_fill : leafLinks (fill c lc) =
    (before c).filterMap CellInfo.link? ++ leafLinks lc ++ (after c).filterMap CellInfo.link? := by
  rw [leafLinks, nodes_fill, List.filterMap_append, List.filterMap_append, leafLinks]

/-- A cell below a frame has the container in the frame for its parent. -/
theorem parent_of_fill {f : Frame CellInfo} (h : Cells (fill (f :: c) lc)) :
    lc.val.parent = some f.val.id :=
  (everywhere_fill.1 h).2.1.linked.parent _ (by simp [Frame.vals])

theorem FitsAt.congr {t : LayoutType} {l r : List CellInfo} {v v' : CellInfo}
    (h : FitsAt t a (l ++ v :: r)) (hsize : v'.size t = v.size t) : FitsAt t a (l ++ v' :: r) := by
  unfold FitsAt at h ⊢
  simp only [List.append_eq_nil_iff, reduceCtorEq, and_false, List.map_append, List.map_cons,
    hsize, ne_eq, List.length_append, List.length_cons, List.forall_mem_append, List.forall_mem_cons] at h ⊢
  exact h

/-- A container does not tell apart children with the same parent and sizes. -/
theorem CellAt.congr {l r : List CellInfo} {v v' : CellInfo} (h : CellAt a (l ++ v :: r))
    (hp : v'.parent = v.parent) (hx : v'.sx = v.sx) (hy : v'.sy = v.sy) :
    CellAt a (l ++ v' :: r) where
  fitsX := h.fitsX.congr hx
  fitsY := h.fitsY.congr hy
  linked := by
    obtain ⟨h₁, h₂, h₃⟩ := h.linked
    refine ⟨by simpa using h₁, h₂, ?_⟩
    rw [List.forall_mem_append, List.forall_mem_cons] at h₃ ⊢
    exact ⟨h₃.1, hp.trans h₃.2.1, h₃.2.2⟩

/-- Putting a consistent cell with the same parent and sizes in a place. -/
theorem cells_fill (h : Cells (fill c lc)) (hnew : Cells new) (hp : new.val.parent = lc.val.parent)
    (hx : new.val.sx = lc.val.sx) (hy : new.val.sy = lc.val.sy) : Cells (fill c new) :=
  everywhere_fill.2 ⟨hnew, (everywhere_fill.1 h).2.congr fun _ _ _ ha => ha.congr hp hx hy⟩

/-- Values that agree at two places agree at the roots of the context filled. -/
theorem fill_val_congr {β : Type*} (g : CellInfo → β) (x y : LayoutCell) (h : g x.val = g y.val)
    (c : List (Frame CellInfo)) : g (fill c x).val = g (fill c y).val := by
  induction c generalizing x y with
  | nil => exact h
  | cons f c ih => exact ih _ _ rfl

theorem size_eq_of {t : LayoutType} {v v' : CellInfo} (hx : v'.sx = v.sx) (hy : v'.sy = v.sy) :
    v'.size t = v.size t := by
  unfold CellInfo.size; split <;> assumption

theorem sx_sy_of_size {t : LayoutType} (ht : t ≠ .windowpane) {v v' : CellInfo}
    (h : v'.size t = v.size t) (h' : v'.size t.across = v.size t.across) :
    v'.sx = v.sx ∧ v'.sy = v.sy := by
  cases t with
  | leftright => exact ⟨h, h'⟩
  | topbottom => exact ⟨h', h⟩
  | windowpane => exact absurd rfl ht

theorem cellAt_iff_across {t : LayoutType} (ht : t ≠ .windowpane) {cells : List CellInfo} :
    CellAt a cells ↔ FitsAt t a cells ∧ FitsAt t.across a cells ∧ LinkedAt a cells := by
  refine ⟨fun h => ?_, fun h => ?_⟩
  · cases t with
    | leftright => exact ⟨h.1, h.2, h.3⟩
    | topbottom => exact ⟨h.2, h.1, h.3⟩
    | windowpane => exact absurd rfl ht
  · cases t with
    | leftright => exact ⟨h.1, h.2.1, h.2.2⟩
    | topbottom => exact ⟨h.2.1, h.1, h.2.2⟩
    | windowpane => exact absurd rfl ht

theorem across_ne {t : LayoutType} (ht : t ≠ .windowpane) : t ≠ t.across := by
  cases t <;> first | exact absurd rfl ht | exact LayoutType.noConfusion

/-- A child of a container running along the axis `t` may be split in two that share
    its size, less a separator; and two children merged into one. -/
theorem cellAt_split {t : LayoutType} (ht : t ≠ .windowpane) (hat : a.type = t)
    {l r : List CellInfo} {v v₁ v₂ : CellInfo} (hlr : l ≠ [] ∨ r ≠ [])
    (hsize : v₁.size t + v₂.size t + 1 = v.size t)
    (h₁ : v₁.size t.across = v.size t.across) (h₂ : v₂.size t.across = v.size t.across)
    (hp₁ : v₁.parent = v.parent) (hp₂ : v₂.parent = v.parent) :
    CellAt a (l ++ v₁ :: v₂ :: r) ↔ CellAt a (l ++ v :: r) := by
  have hw : a.type ≠ .windowpane := hat ▸ ht
  have hax : a.type ≠ t.across := fun e => across_ne ht (hat.symm.trans e)
  have hlen : 0 < l.length + r.length := by
    rcases hlr with h | h
    · have := List.length_pos_iff.2 h; omega
    · have := List.length_pos_iff.2 h; omega
  rw [cellAt_iff_across ht, cellAt_iff_across ht]
  refine and_congr ?_ (and_congr ?_ ?_)
  · rw [FitsAt, FitsAt, if_neg hw, if_neg hw, if_pos hat, if_pos hat]
    simp only [List.map_append, List.map_cons, List.sum_append, List.sum_cons, List.length_append,
      List.length_cons]
    omega
  · rw [FitsAt, FitsAt, if_neg hw, if_neg hw, if_neg hax, if_neg hax]
    simp only [ne_eq, List.append_eq_nil_iff, reduceCtorEq, and_false, not_false_eq_true, true_and,
      List.forall_mem_append, List.forall_mem_cons, h₁, h₂]
    tauto
  · constructor
    · rintro ⟨-, h₂, h₃⟩
      refine ⟨fun _ => ?_, h₂, ?_⟩
      · simp only [List.length_append, List.length_cons]; omega
      · simp only [List.forall_mem_append, List.forall_mem_cons, hp₁, hp₂] at h₃ ⊢
        tauto
    · rintro ⟨-, h₂, h₃⟩
      refine ⟨fun _ => ?_, h₂, ?_⟩
      · simp only [List.length_append, List.length_cons]; omega
      · simp only [List.forall_mem_append, List.forall_mem_cons, hp₁, hp₂] at h₃ ⊢
        tauto

end Place

end Tmux
