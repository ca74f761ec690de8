import Tmux.Layout.Invariant

/-!
# Offsets

Fixing the offsets of a layout (`layoutFixOffsets`) moves cells and changes
nothing else (`Moved`), so that a consistent layout stays consistent; and fixing
the panes (`layoutFixPanes`) only changes what a pane occupies of the window
(`HasLayout.layoutFixPanes`).

With its offsets fixed, the children of a container start at its offset and
follow one another, one cell apart (`PlacedAt`). If the layout is consistent, it
tiles the rectangle of its root (`Tiled`): the panes lie inside, no two of them
overlap, and siblings are separated by exactly one cell (`tiled_of_placed`).
-/

namespace Tmux

/-! ## Moving cells -/

/-- A cell without its offset. -/
def CellInfo.eraseOffset (lc : CellInfo) : CellInfo := { lc with xoff := 0, yoff := 0 }

/-- `lc'` is `lc` with cells at other offsets. -/
def Moved (lc lc' : LayoutCell) : Prop :=
  lc'.map CellInfo.eraseOffset = lc.map CellInfo.eraseOffset

@[simp] theorem CellInfo.size_eraseOffset (lc : CellInfo) (t : LayoutType) :
    lc.eraseOffset.size t = lc.size t := by
  unfold size eraseOffset; split <;> rfl

@[simp] theorem CellInfo.type_eraseOffset (lc : CellInfo) : lc.eraseOffset.type = lc.type := rfl

@[simp] theorem CellInfo.id_eraseOffset (lc : CellInfo) : lc.eraseOffset.id = lc.id := rfl

@[simp] theorem CellInfo.parent_eraseOffset (lc : CellInfo) :
    lc.eraseOffset.parent = lc.parent := rfl

theorem cellAt_eraseOffset (lc : CellInfo) (cells : List CellInfo) :
    CellAt lc.eraseOffset (cells.map CellInfo.eraseOffset) ↔ CellAt lc cells := by
  have hf : ∀ t, FitsAt t lc.eraseOffset (cells.map CellInfo.eraseOffset) ↔ FitsAt t lc cells :=
    fun t => by
      simp only [FitsAt, CellInfo.size_eraseOffset, List.map_map, List.length_map, Function.comp_def,
        List.map_eq_nil_iff, List.forall_mem_map, ne_eq]
      rfl
  have hl : LinkedAt lc.eraseOffset (cells.map CellInfo.eraseOffset) ↔ LinkedAt lc cells := by
    constructor
    · rintro ⟨h₁, h₂, h₃⟩
      exact ⟨by simpa using h₁, h₂, by simpa using h₃⟩
    · rintro ⟨h₁, h₂, h₃⟩
      exact ⟨by simpa using h₁, h₂, by simpa using h₃⟩
  exact ⟨fun h => ⟨(hf _).1 h.1, (hf _).1 h.2, hl.1 h.3⟩,
    fun h => ⟨(hf _).2 h.1, (hf _).2 h.2, hl.2 h.3⟩⟩

namespace Moved

variable {lc lc' : LayoutCell}

theorem refl (lc : LayoutCell) : Moved lc lc := rfl

theorem trans {lc'' : LayoutCell} (h : Moved lc lc') (h' : Moved lc' lc'') : Moved lc lc'' :=
  Eq.trans h' h

theorem cells_iff (h : Moved lc lc') : Cells lc' ↔ Cells lc :=
  RoseTree.everywhere_congr cellAt_eraseOffset h

/-- Moving cells keeps what does not depend on offsets. -/
theorem nodes_map {β : Type*} (h : Moved lc lc') {g : CellInfo → β}
    (hg : ∀ a, g a.eraseOffset = g a) : lc'.nodes.map g = lc.nodes.map g := by
  have hn : ∀ l : LayoutCell, l.nodes.map g = (l.map CellInfo.eraseOffset).nodes.map g := fun l => by
    rw [RoseTree.nodes_map, List.map_map]
    exact List.map_congr_left fun a _ => (hg a).symm
  rw [hn lc', hn lc, h]

theorem val_map {β : Type*} (h : Moved lc lc') {g : CellInfo → β}
    (hg : ∀ a, g a.eraseOffset = g a) : g lc'.val = g lc.val := by
  have := congrArg (fun l : LayoutCell => g l.val) h
  simpa [hg] using this

theorem cellIds_eq (h : Moved lc lc') : cellIds lc' = cellIds lc := h.nodes_map fun _ => rfl

theorem leafLinks_eq (h : Moved lc lc') : leafLinks lc' = leafLinks lc := by
  have := h.nodes_map (g := CellInfo.link?) fun _ => rfl
  have hf : ∀ l : List CellInfo, l.filterMap CellInfo.link? =
      (l.map CellInfo.link?).filterMap id := fun l => by simp [List.filterMap_map]
  rw [leafLinks, leafLinks, hf, hf, this]

theorem parent_eq (h : Moved lc lc') : lc'.val.parent = lc.val.parent := h.val_map fun _ => rfl

theorem roomy {t : LayoutType} (h : Moved lc lc') (hr : Roomy t lc) : Roomy t lc' := by
  have hm := h.nodes_map (g := fun a => (a.type, a.size t)) fun a => by
    rw [CellInfo.size_eraseOffset]; rfl
  intro c hc hw
  have : (c.type, c.size t) ∈ lc.nodes.map fun a => (a.type, a.size t) :=
    hm ▸ List.mem_map_of_mem (f := fun a : CellInfo => (a.type, a.size t)) hc
  obtain ⟨d, hd, he⟩ := List.mem_map.1 this
  rw [Prod.mk.injEq] at he
  exact he.2 ▸ hr d hd (he.1.trans hw)

end Moved

theorem placeCell_moved (x y : ℕ) (lc : LayoutCell) : Moved lc (placeCell x y lc) := by
  induction lc using RoseTree.induct generalizing x y with
  | node lc cells ih =>
    have hcells : ∀ (t : LayoutType) (x y : ℕ), (placeCells t x y cells).map
        (RoseTree.map CellInfo.eraseOffset) = cells.map (RoseTree.map CellInfo.eraseOffset) := by
      intro t
      induction cells with
      | nil => exact fun _ _ => rfl
      | cons c cells ihc =>
        intro x y
        have hc := ih c List.mem_cons_self
        have hcs := ihc fun d hd => ih d (List.mem_cons_of_mem _ hd)
        rw [placeCells, List.map_cons, List.map_cons, show RoseTree.map CellInfo.eraseOffset
          (placeCell x y c) = RoseTree.map CellInfo.eraseOffset c from hc x y]
        congr 1
        split <;> exact hcs _ _
    rw [Moved, placeCell, RoseTree.map_node, RoseTree.map_node]
    congr 1
    split
    · exact hcells _ _ _
    · rfl

theorem placeCells_moved (t : LayoutType) (x y : ℕ) (cells : List LayoutCell) :
    (placeCells t x y cells).map (RoseTree.map CellInfo.eraseOffset) =
      cells.map (RoseTree.map CellInfo.eraseOffset) := by
  induction cells generalizing x y with
  | nil => rfl
  | cons c cells ih =>
    rw [placeCells, List.map_cons, List.map_cons, show RoseTree.map CellInfo.eraseOffset
      (placeCell x y c) = RoseTree.map CellInfo.eraseOffset c from placeCell_moved x y c]
    congr 1
    split <;> exact ih _ _

/-- Fixing offsets moves cells and changes nothing else. -/
theorem layoutFixOffsets_moved (lc : LayoutCell) : Moved lc (layoutFixOffsets lc) := by
  cases lc with
  | node lc cells => rw [Moved, layoutFixOffsets, RoseTree.map_node, RoseTree.map_node, placeCells_moved]

@[simp] theorem val_layoutFixOffsets (lc : LayoutCell) : (layoutFixOffsets lc).val = lc.val := by
  cases lc; rfl

/-! ## Windows -/

/-- A cell in a tree with different addresses is found. -/
theorem exists_findCell {root : LayoutCell} (h : (cellIds root).Nodup) {a : CellInfo}
    (ha : a ∈ root.nodes) :
    ∃ c ts, root = RoseTree.fill c (.node a ts) ∧ findCell root a.id = some (.node a ts) := by
  obtain ⟨c, ts, rfl⟩ := RoseTree.exists_fill ha
  exact ⟨c, ts, rfl, findCell_fill h⟩

/-- A pointer between a cell and a pane is to a cell in the tree. -/
theorem mem_cellIds_of_link {root : LayoutCell} {id : ℕ} {wp : Option ℕ}
    (h : (some id, wp) ∈ leafLinks root) : id ∈ cellIds root := by
  obtain ⟨a, ha, hl⟩ := List.mem_filterMap.1 h
  rw [CellInfo.link?] at hl
  split at hl
  · obtain rfl : a.id = id := by simpa using congrArg (Option.map Prod.fst) hl
    exact List.mem_map_of_mem ha
  · exact absurd hl (by simp)

namespace HasSpare

variable {w : Window} {root : LayoutCell} {spare : List (Option ℕ × Option ℕ)}

/-- A layout with cells moved is a layout of the window. -/
theorem moved {root' : LayoutCell} (h : HasSpare w root spare) (hm : Moved root root') :
    HasSpare { w with layoutRoot := some root' } root' spare where
  root_eq := rfl
  cells := hm.cells_iff.2 h.cells
  top := hm.parent_eq.trans h.top
  ids := hm.cellIds_eq ▸ h.ids
  fresh := hm.cellIds_eq ▸ h.fresh
  panes := h.panes
  links := hm.leafLinks_eq ▸ h.links

/-- No other pane has the identifier of a given one. -/
theorem id_ne (h : HasSpare w root spare) {l r : List WindowPane} {p : WindowPane}
    (hp : w.panes = l ++ p :: r) : ∀ q ∈ l ++ r, q.id ≠ p.id := by
  have hnd := h.panes
  rw [Window.paneIds, hp, (List.perm_middle.map _).nodup_iff, List.map_cons, List.nodup_cons] at hnd
  exact fun q hq e => hnd.1 (e ▸ List.mem_map_of_mem hq)

/-- A pane is found by its identifier. -/
theorem findPane (h : HasSpare w root spare) {p : WindowPane} (hp : p ∈ w.panes) :
    w.findPane p.id = some p := by
  obtain ⟨l, r, hl⟩ := List.append_of_mem hp
  rw [Window.findPane, hl]
  refine Queue.find?_split (fun q hq => ?_) (by simp [isPane])
  rw [isPane, beq_eq_false_iff_ne]
  exact h.id_ne hl q (List.mem_append_left _ hq)

/-- A cell that is spare or the cell of a pane is a leaf of the tree. -/
theorem exists_leaf (h : HasSpare w root spare) {id : ℕ} {wp : Option ℕ}
    (hmem : (some id, wp) ∈ spare ++ w.panes.map WindowPane.link) :
    ∃ c a, root = RoseTree.fill c (.node a []) ∧ a.type = .windowpane ∧ a.id = id ∧ a.wp = wp ∧
      findCell root id = some (.node a []) := by
  obtain ⟨a, ha, hl⟩ := List.mem_filterMap.1 (h.links.mem_iff.2 hmem)
  rw [CellInfo.link?] at hl
  split at hl
  · next hw =>
    obtain ⟨c, ts, rfl, hf⟩ := exists_findCell h.ids ha
    obtain rfl : ts = [] := Cells.eq_nil (RoseTree.everywhere_fill.1 h.cells).1 hw
    simp only [Option.some.injEq, Prod.mk.injEq] at hl
    exact ⟨c, a, rfl, hw, hl.1, hl.2, hl.1 ▸ hf⟩
  · exact absurd hl (by simp)

/-- The cell of a pane is found, and has nothing below. -/
theorem cellOf (h : HasSpare w root spare) {p : WindowPane} (hp : p ∈ w.panes) :
    ∃ c a, root = RoseTree.fill c (.node a []) ∧ a.type = .windowpane ∧ a.wp = some p.id ∧
      p.layoutCell = some a.id ∧ w.cellOf p.id = pure (.node a []) := by
  have hlink : p.link ∈ spare ++ w.panes.map WindowPane.link :=
    List.mem_append_right _ (List.mem_map_of_mem hp)
  cases hcell : p.layoutCell with
  | none =>
    -- Every leaf has an address.
    obtain ⟨a, -, hl⟩ := List.mem_filterMap.1 (h.links.mem_iff.2 hlink)
    rw [CellInfo.link?, WindowPane.link, hcell] at hl
    split at hl <;> simp at hl
  | some id =>
    rw [WindowPane.link, hcell] at hlink
    obtain ⟨c, a, rfl, hw, rfl, hwp, hf⟩ := h.exists_leaf hlink
    refine ⟨c, a, rfl, hw, hwp, rfl, ?_⟩
    have hfind : w.findPane p.id = some p := h.findPane hp
    rw [Window.cellOf, hfind, Exec.follow_some, pure_bind, hcell, Exec.follow_some, pure_bind, h.root_eq,
      Exec.follow_some, pure_bind, hf, Exec.follow_some]

/-- The cell of a pane is in the tree. -/
theorem mem_cellIds (h : HasSpare w root spare) {p : WindowPane} (hp : p ∈ w.panes) {id : ℕ}
    (hid : p.layoutCell = some id) : id ∈ cellIds root := by
  have := h.links.mem_iff.2 (List.mem_append_right _ (List.mem_map_of_mem (f := WindowPane.link) hp))
  rw [WindowPane.link, hid] at this
  exact mem_cellIds_of_link this

/-- A window may change, other than in its layout and in the cells of its panes. -/
theorem congr {w' : Window} (h : HasSpare w root spare) (hr : w'.layoutRoot = w.layoutRoot)
    (hn : w'.nextCell = w.nextCell)
    (hid : w'.panes.map WindowPane.id = w.panes.map WindowPane.id)
    (hl : w'.panes.map WindowPane.link = w.panes.map WindowPane.link) : HasSpare w' root spare where
  root_eq := hr.trans h.root_eq
  cells := h.cells
  top := h.top
  ids := h.ids
  fresh := hn ▸ h.fresh
  panes := by rw [Window.paneIds, hid]; exact h.panes
  links := by rw [hl]; exact h.links

end HasSpare

namespace HasLayout

variable {w : Window} {root : LayoutCell}

/-- A layout with cells moved is a layout of the window. -/
theorem moved {root' : LayoutCell} (h : HasLayout w root) (hm : Moved root root') :
    HasLayout { w with layoutRoot := some root' } root' :=
  hasSpare_nil.1 ((hasSpare_nil.2 h).moved hm)

theorem layoutFixOffsets (h : HasLayout w root) :
    HasLayout { w with layoutRoot := some (layoutFixOffsets root) } (layoutFixOffsets root) :=
  h.moved (layoutFixOffsets_moved root)

/-- A pane is found by its identifier. -/
theorem findPane (h : HasLayout w root) {p : WindowPane} (hp : p ∈ w.panes) :
    w.findPane p.id = some p := (hasSpare_nil.2 h).findPane hp

/-- The cell of a pane is found, and has nothing below. -/
theorem cellOf (h : HasLayout w root) {p : WindowPane} (hp : p ∈ w.panes) :
    ∃ c a, root = RoseTree.fill c (.node a []) ∧ a.type = .windowpane ∧ a.wp = some p.id ∧
      p.layoutCell = some a.id ∧ w.cellOf p.id = pure (.node a []) := (hasSpare_nil.2 h).cellOf hp

/-- The cell of a pane is in the tree. -/
theorem mem_cellIds (h : HasLayout w root) {p : WindowPane} (hp : p ∈ w.panes) {id : ℕ}
    (hid : p.layoutCell = some id) : id ∈ cellIds root := (hasSpare_nil.2 h).mem_cellIds hp hid

/-- A window may change, other than in its layout and in the cells of its panes. -/
theorem congr {w' : Window} (h : HasLayout w root) (hr : w'.layoutRoot = w.layoutRoot)
    (hn : w'.nextCell = w.nextCell)
    (hid : w'.panes.map WindowPane.id = w.panes.map WindowPane.id)
    (hl : w'.panes.map WindowPane.link = w.panes.map WindowPane.link) : HasLayout w' root :=
  hasSpare_nil.1 ((hasSpare_nil.2 h).congr hr hn hid hl)

end HasLayout

/-- Fixing a pane whose cell is in the tree returns. -/
theorem fixPane_eq {root : LayoutCell} {wsx wsy : ℕ} {p : WindowPane}
    (h : (cellIds root).Nodup) (hp : ∀ id, p.layoutCell = some id → id ∈ cellIds root) :
    ∃ p', fixPane root wsx wsy p = pure p' := by
  unfold fixPane
  split
  · exact ⟨p, rfl⟩
  · next id hid =>
    obtain ⟨a, ha, rfl⟩ := List.mem_map.1 (hp id hid)
    obtain ⟨c, ts, -, hf⟩ := exists_findCell h ha
    rw [hf, Exec.follow_some, pure_bind]
    exact ⟨_, rfl⟩

/-- Fixing a pane changes only its size and offset. -/
theorem fixPane_rest {root : LayoutCell} {wsx wsy : ℕ} {p p' : WindowPane}
    (h : fixPane root wsx wsy p = pure p') : p'.id = p.id ∧ p'.layoutCell = p.layoutCell := by
  unfold fixPane at h
  split at h
  · obtain rfl := Exec.pure_inj.1 h
    exact ⟨rfl, rfl⟩
  · obtain ⟨⟨lc, cells⟩, -, h⟩ := Exec.bind_eq_pure.1 h
    obtain rfl := Exec.pure_inj.1 h
    exact ⟨rfl, rfl⟩

/-- Panes fixed have the same identifiers and cells. -/
theorem fixPanes_rest {root : LayoutCell} {wsx wsy : ℕ} {panes panes' : List WindowPane}
    (h : List.Forall₂ (fun p p' => fixPane root wsx wsy p = pure p') panes panes') :
    panes'.map WindowPane.id = panes.map WindowPane.id ∧
      panes'.map WindowPane.link = panes.map WindowPane.link := by
  refine ⟨Exec.map_eq_of_forall₂ h fun _ _ h => (fixPane_rest h).1,
    Exec.map_eq_of_forall₂ h fun _ _ h => ?_⟩
  rw [WindowPane.link, WindowPane.link, (fixPane_rest h).1, (fixPane_rest h).2]

/-- Fixing the panes changes only their sizes and offsets. -/
theorem layoutFixPanes_eq {w : Window} {root : LayoutCell} (hr : w.layoutRoot = some root)
    (h : (cellIds root).Nodup)
    (hw : ∀ p ∈ w.panes, ∀ id, p.layoutCell = some id → id ∈ cellIds root) (wsx wsy : ℕ) :
    ∃ panes, layoutFixPanes w wsx wsy = pure { w with panes } ∧
      List.Forall₂ (fun p p' => fixPane root wsx wsy p = pure p') w.panes panes ∧
      panes.map WindowPane.id = w.panes.map WindowPane.id ∧
      panes.map WindowPane.link = w.panes.map WindowPane.link := by
  obtain ⟨panes, hl, hf⟩ := Exec.mapM_eq_pure (f := fixPane root wsx wsy)
    (R := fun p p' => fixPane root wsx wsy p = pure p') fun p hp => by
      obtain ⟨p', hp'⟩ := fixPane_eq h (hw p hp)
      exact ⟨p', hp', hp'⟩
  exact ⟨panes, by rw [layoutFixPanes, hr, Exec.follow_some, pure_bind, hl, pure_bind], hf,
    fixPanes_rest hf⟩

/-- Fixing the panes keeps the layout. -/
theorem HasLayout.layoutFixPanes {w : Window} {root : LayoutCell} (h : HasLayout w root)
    (wsx wsy : ℕ) :
    ∃ panes, layoutFixPanes w wsx wsy = pure { w with panes } ∧
      List.Forall₂ (fun p p' => fixPane root wsx wsy p = pure p') w.panes panes ∧
      HasLayout { w with panes } root := by
  obtain ⟨panes, hw, hf, hid, hl⟩ :=
    layoutFixPanes_eq h.root_eq h.ids (fun p hp id => h.mem_cellIds hp) wsx wsy
  exact ⟨panes, hw, hf, h.congr rfl rfl hid hl⟩

/-! ## Rectangles -/

/-- The offset of a cell along an axis. -/
def CellInfo.off (lc : CellInfo) (type : LayoutType) : ℕ :=
  if type = .leftright then lc.xoff else lc.yoff

/-- A point lies in the rectangle of a cell. -/
def CellInfo.Contains (lc : CellInfo) (x y : ℕ) : Prop :=
  lc.xoff ≤ x ∧ x < lc.xoff + lc.sx ∧ lc.yoff ≤ y ∧ y < lc.yoff + lc.sy

/-- The rectangles of two cells do not overlap. -/
def CellInfo.Apart (a b : CellInfo) : Prop := ∀ x y, ¬ (a.Contains x y ∧ b.Contains x y)

/-- The rectangle of a cell lies inside that of another. -/
structure CellInfo.Inside (a b : CellInfo) : Prop where
  left : b.xoff ≤ a.xoff
  right : a.xoff + a.sx ≤ b.xoff + b.sx
  top : b.yoff ≤ a.yoff
  bottom : a.yoff + a.sy ≤ b.yoff + b.sy

/-- Cells follow one another along the axis `t`, separated by exactly one cell,
    side by side across it. -/
def Separated (t : LayoutType) (a b : CellInfo) : Prop :=
  b.off t = a.off t + a.size t + 1 ∧ b.off t.across = a.off t.across

/-- The cells containing panes. -/
def leaves (lc : LayoutCell) : List CellInfo := lc.nodes.filter fun c => c.type = .windowpane

/-- The panes of a layout tile the rectangle of its root, but for the separators. -/
structure Tiled (root : LayoutCell) : Prop where
  disjoint : (leaves root).Pairwise CellInfo.Apart
  inside : ∀ c ∈ leaves root, c.Inside root.val
  separated : root.Everywhere fun lc cells =>
    lc.type ≠ .windowpane → cells.IsChain (Separated lc.type)

/-- Cells follow one another along the axis `t`, from the offset `o` on. -/
def Placed (t : LayoutType) : ℕ → List CellInfo → Prop
  | _, [] => True
  | o, c :: cells => c.off t = o ∧ Placed t (o + c.size t + 1) cells

/-- The children of a container start at its offset and follow one another. -/
def PlacedAt (lc : CellInfo) (cells : List CellInfo) : Prop :=
  lc.type ≠ .windowpane →
    Placed lc.type (lc.off lc.type) cells ∧
      ∀ c ∈ cells, c.off lc.type.across = lc.off lc.type.across

@[simp] theorem val_placeCell (x y : ℕ) (lc : LayoutCell) :
    (placeCell x y lc).val = { lc.val with xoff := x, yoff := y } := by
  cases lc; rfl

theorem placeCells_placed (t : LayoutType) (ht : t ≠ .windowpane) (x y : ℕ)
    (cells : List LayoutCell) :
    Placed t (if t = .leftright then x else y) ((placeCells t x y cells).map RoseTree.val) ∧
      ∀ c ∈ (placeCells t x y cells).map RoseTree.val,
        c.off t.across = if t.across = .leftright then x else y := by
  induction cells generalizing x y with
  | nil => simp [placeCells, Placed]
  | cons c cells ih =>
    rw [placeCells, List.map_cons, Placed, List.forall_mem_cons, val_placeCell]
    cases t with
    | leftright =>
      have := ih (x + (c.val.sx + 1)) y
      exact ⟨⟨rfl, this.1⟩, rfl, this.2⟩
    | topbottom =>
      have := ih x (y + (c.val.sy + 1))
      exact ⟨⟨rfl, this.1⟩, rfl, this.2⟩
    | windowpane => exact absurd rfl ht

/-- Every container below a cell put at an offset has its children placed. -/
theorem placeCell_placed {lc : LayoutCell} (h : Cells lc) (x y : ℕ) :
    (placeCell x y lc).Everywhere PlacedAt := by
  induction lc using RoseTree.induct generalizing x y with
  | node lc cells ih =>
    have hcells : ∀ (t : LayoutType) (x y : ℕ), ∀ c ∈ placeCells t x y cells,
        c.Everywhere PlacedAt := by
      intro t
      replace h := (RoseTree.everywhere_node.1 h).2
      induction cells with
      | nil => simp [placeCells]
      | cons c cells ihc =>
        intro x y
        rw [List.forall_mem_cons] at h
        rw [placeCells, List.forall_mem_cons]
        refine ⟨ih c List.mem_cons_self h.1 x y, ?_⟩
        have hcs := ihc (fun d hd => ih d (List.mem_cons_of_mem _ hd)) h.2
        split <;> exact hcs _ _
    rw [placeCell, RoseTree.everywhere_node]
    by_cases hw : lc.type = .windowpane
    · obtain rfl := h.eq_nil hw
      exact ⟨fun hw' => absurd hw hw', by simp [hw]⟩
    · rw [if_pos hw]
      exact ⟨fun _ => placeCells_placed _ hw x y cells, hcells _ _ _⟩

/-- Fixing the offsets of a consistent layout places the children of every container. -/
theorem layoutFixOffsets_placed {lc : LayoutCell} (h : Cells lc) :
    (layoutFixOffsets lc).Everywhere PlacedAt := by
  cases lc with
  | node lc cells =>
    have := placeCell_placed h lc.xoff lc.yoff
    by_cases hw : lc.type = .windowpane
    · obtain rfl := h.eq_nil hw
      exact RoseTree.everywhere_node.2 ⟨fun hw' => absurd hw hw', by simp [placeCells]⟩
    · rwa [placeCell, if_pos hw] at this

/-! ## Tilings -/

section Placed

variable {t : LayoutType} {o : ℕ} {cells : List CellInfo}

/-- Cells that follow one another start no earlier than the first. -/
theorem Placed.le_off (h : Placed t o cells) : ∀ c ∈ cells, o ≤ c.off t := by
  induction cells generalizing o with
  | nil => simp
  | cons c cells ih =>
    rw [List.forall_mem_cons]
    exact ⟨h.1.ge, fun d hd => by have := ih h.2 d hd; omega⟩

/-- Cells that follow one another end no later than their sizes and separators add up to. -/
theorem Placed.off_le (h : Placed t o cells) :
    ∀ c ∈ cells, c.off t + c.size t + 1 ≤ o + (cells.map (·.size t)).sum + cells.length := by
  induction cells generalizing o with
  | nil => simp
  | cons c cells ih =>
    rw [List.forall_mem_cons, List.map_cons, List.sum_cons, List.length_cons, h.1]
    exact ⟨by omega, fun d hd => by have := ih h.2 d hd; omega⟩

/-- Cells that follow one another come one after the other. -/
theorem Placed.pairwise (h : Placed t o cells) :
    cells.Pairwise fun a b => a.off t + a.size t ≤ b.off t := by
  induction cells generalizing o with
  | nil => exact .nil
  | cons c cells ih =>
    refine List.pairwise_cons.2 ⟨fun d hd => ?_, ih h.2⟩
    have := h.2.le_off d hd
    have := h.1
    omega

theorem Placed.separated {v : ℕ} (h : Placed t o cells) (hv : ∀ c ∈ cells, c.off t.across = v) :
    cells.IsChain (Separated t) := by
  induction cells generalizing o with
  | nil => exact .nil
  | cons c cells ih =>
    rw [List.forall_mem_cons] at hv
    have hcells := ih h.2 hv.2
    cases cells with
    | nil => exact .singleton c
    | cons d cells =>
      refine .cons_cons ⟨?_, (hv.2 d List.mem_cons_self).trans hv.1.symm⟩ hcells
      rw [h.2.1, h.1]

end Placed

section Rectangles

variable {t : LayoutType} {a b a' b' : CellInfo}

theorem apart_of_off (h : a.off t + a.size t ≤ b.off t) : a.Apart b := by
  rintro x y ⟨⟨hx, hx', hy, hy'⟩, hbx, hbx', hby, hby'⟩
  unfold CellInfo.off CellInfo.size at h
  split at h <;> omega

theorem CellInfo.Apart.mono (h : a'.Apart b') (ha : a.Inside a') (hb : b.Inside b') :
    a.Apart b := by
  rintro x y ⟨⟨hx, hx', hy, hy'⟩, hbx, hbx', hby, hby'⟩
  refine h x y ⟨⟨?_, ?_, ?_, ?_⟩, ?_, ?_, ?_, ?_⟩ <;>
    obtain ⟨h₁, h₂, h₃, h₄⟩ := ha <;> obtain ⟨h₅, h₆, h₇, h₈⟩ := hb <;> omega

theorem CellInfo.Inside.refl (a : CellInfo) : a.Inside a := ⟨le_rfl, le_rfl, le_rfl, le_rfl⟩

theorem CellInfo.Inside.trans (h : a.Inside b) (h' : b.Inside b') : a.Inside b' :=
  ⟨h'.1.trans h.1, h.2.trans h'.2, h'.3.trans h.3, h.4.trans h'.4⟩

theorem inside_of_off (ht : t ≠ .windowpane) (h₁ : b.off t ≤ a.off t)
    (h₂ : a.off t + a.size t ≤ b.off t + b.size t) (h₃ : b.off t.across ≤ a.off t.across)
    (h₄ : a.off t.across + a.size t.across ≤ b.off t.across + b.size t.across) : a.Inside b := by
  cases t with
  | leftright => exact ⟨h₁, h₂, h₃, h₄⟩
  | topbottom => exact ⟨h₃, h₄, h₁, h₂⟩
  | windowpane => exact absurd rfl ht

end Rectangles

/-- The children of a consistent container, placed, lie inside it and do not overlap. -/
theorem inside_of_placedAt {lc : CellInfo} {cells : List CellInfo} (hw : lc.type ≠ .windowpane)
    (h : CellAt lc cells) (hp : PlacedAt lc cells) :
    (∀ c ∈ cells, c.Inside lc) ∧ cells.Pairwise CellInfo.Apart := by
  obtain ⟨hfit, hacross, -⟩ := (cellAt_iff_across hw).1 h
  rw [FitsAt, if_neg hw, if_pos rfl] at hfit
  rw [FitsAt, if_neg hw, if_neg (across_ne hw)] at hacross
  obtain ⟨hp, hoff⟩ := hp hw
  refine ⟨fun c hc => inside_of_off hw (hp.le_off c hc) ?_ (hoff c hc).ge ?_,
    hp.pairwise.imp fun h => apart_of_off h⟩
  · have := hp.off_le c hc
    omega
  · rw [hoff c hc, hacross.2 c hc]

theorem leaves_node {lc : CellInfo} (hw : lc.type ≠ .windowpane) (cells : List LayoutCell) :
    leaves (.node lc cells) = cells.flatMap leaves := by
  rw [leaves, RoseTree.nodes_node, List.filter_cons_of_neg (by simpa using hw), List.filter_flatMap]
  rfl

theorem leaves_windowpane {lc : CellInfo} (hw : lc.type = .windowpane) :
    leaves (.node lc []) = [lc] := by
  simp [leaves, hw]

/-- The panes below a node lie inside it and do not overlap. -/
theorem leaves_of_placed {root : LayoutCell} (h : Cells root) (hp : root.Everywhere PlacedAt) :
    (∀ c ∈ leaves root, c.Inside root.val) ∧ (leaves root).Pairwise CellInfo.Apart := by
  induction root using RoseTree.induct with
  | node lc cells ih =>
    rw [RoseTree.everywhere_node] at hp
    by_cases hw : lc.type = .windowpane
    · obtain rfl := h.eq_nil hw
      simp [leaves_windowpane hw, CellInfo.Inside.refl]
    · obtain ⟨hin, hapart⟩ := inside_of_placedAt hw h.here hp.1
      rw [RoseTree.children_node, List.forall_mem_map] at hin
      rw [RoseTree.children_node, List.pairwise_map] at hapart
      rw [leaves_node hw, List.pairwise_flatMap]
      simp only [List.mem_flatMap]
      have ih : ∀ c ∈ cells, _ := fun c hc => ih c hc (h.below hc) (hp.2 c hc)
      refine ⟨fun a ⟨c, hc, ha⟩ => ((ih c hc).1 a ha).trans (hin c hc), fun c hc => (ih c hc).2,
        hapart.imp_of_mem fun hc hd hcd a ha b hb => ?_⟩
      -- Panes below different children are as far apart as the children.
      exact hcd.mono ((ih _ hc).1 a ha) ((ih _ hd).1 b hb)

/-- A consistent layout tiles the rectangle of its root once every container has its
    children placed. -/
theorem tiled_of_placed {root : LayoutCell} (h : Cells root) (hp : root.Everywhere PlacedAt) :
    Tiled root where
  disjoint := (leaves_of_placed h hp).2
  inside := (leaves_of_placed h hp).1
  separated := hp.mono fun _ _ h hw => (h hw).1.separated (h hw).2

theorem layoutFixOffsets_tiled {root : LayoutCell} (h : Cells root) :
    Tiled (layoutFixOffsets root) :=
  tiled_of_placed ((layoutFixOffsets_moved root).cells_iff.2 h) (layoutFixOffsets_placed h)

end Tmux
