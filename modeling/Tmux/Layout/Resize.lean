import Tmux.Layout.Offsets

/-!
# Resizing

Resizing the whole layout after the window (`layoutResize_eq`) changes the root
along each axis by no less than it can shrink. Resizing a pane
(`layoutResizePane_eq`) finds the nearest container above it that runs along the
axis, and moves space from one of its children to another, until the change is
done or no child can give any: the container keeps its size, so that nothing
outside it changes.
-/

namespace Tmux

open RoseTree

/-! ## Resizing the layout -/

/-- The change of the root is within what it can give. -/
theorem le_resizeChange (lc : LayoutCell) (t : LayoutType) (wsize size : ℕ) :
    -(layoutResizeCheck t lc : ℤ) ≤ resizeChange lc t wsize size := by
  unfold resizeChange
  dsimp only
  split_ifs <;> omega

/-- Adjusting the root returns, with the root resized by the change. -/
theorem resizeRoot_eq {t : LayoutType} (ht : t ≠ .windowpane) {lc : LayoutCell} (hf : Fits t lc)
    (wsize size : ℕ) :
    ∃ lc', resizeRoot lc t wsize size = pure lc' ∧
      Resized t (resizeChange lc t wsize size) lc lc' := by
  unfold resizeRoot
  by_cases h : resizeChange lc t wsize size = 0
  · rw [h]
    exact ⟨lc, rfl, .refl hf⟩
  · rw [if_pos h]
    exact layoutResizeAdjust_resized ht hf (le_resizeChange lc t wsize size)

/-- A layout resized in a place whose size it keeps is a layout of the window. -/
theorem HasLayout.resize_fill {w : Window} {t : LayoutType} (ht : t ≠ .windowpane)
    {c : List (Frame CellInfo)} {lc lc' : LayoutCell} (h : HasLayout w (fill c lc)) {change : ℤ}
    (hr : Resized t change lc lc') (hc : c ≠ [] → change = 0) :
    HasLayout { w with layoutRoot := some (fill c lc') } (fill c lc') where
  root_eq := rfl
  cells := by
    have hcells := hr.cells ht (everywhere_fill.1 h.cells).1
    cases c with
    | nil => exact hcells
    | cons f c =>
      have hsize := hr.size
      rw [hc (by simp)] at hsize
      obtain ⟨hx, hy⟩ := sx_sy_of_size ht (by omega) hr.size_across
      exact cells_fill h.cells hcells hr.parent_eq hx hy
  top := (fill_val_congr CellInfo.parent lc' lc hr.parent_eq c).trans h.top
  ids := by
    have := h.ids
    rw [cellIds_fill] at this ⊢
    rwa [hr.cellIds_eq]
  fresh := by
    have := h.fresh
    rw [cellIds_fill] at this ⊢
    rwa [hr.cellIds_eq]
  panes := h.panes
  links := by
    have := h.links
    rw [leafLinks_fill] at this ⊢
    rwa [hr.leafLinks_eq]

/-- Resizing the layout of a window returns, with the root resized along both axes. -/
theorem layoutResize_eq {w : Window} {root : LayoutCell} (h : HasLayout w root) (sx sy : ℕ) :
    ∃ lc₁ lc₂ panes,
      let w' := { w with layoutRoot := some (layoutFixOffsets lc₂), panes }
      layoutResize w sx sy = pure w' ∧
      Resized .leftright (resizeChange root .leftright w.sx sx) root lc₁ ∧
      Resized .topbottom (resizeChange lc₁ .topbottom w.sy sy) lc₁ lc₂ ∧
      HasLayout w' (layoutFixOffsets lc₂) := by
  obtain ⟨lc₁, h₁, hr₁⟩ := resizeRoot_eq (by simp) (h.cells.fits (t := .leftright) (by simp)) w.sx sx
  have hw₁ := h.resize_fill (c := []) (by simp) hr₁ (by simp)
  obtain ⟨lc₂, h₂, hr₂⟩ :=
    resizeRoot_eq (by simp) (hw₁.cells.fits (t := .topbottom) (by simp)) w.sy sy
  have hw₂ := (hw₁.resize_fill (c := []) (by simp) hr₂ (by simp)).layoutFixOffsets
  obtain ⟨panes, hp, -, hw₃⟩ := hw₂.layoutFixPanes sx sy
  refine ⟨lc₁, lc₂, panes, ?_, hr₁, hr₂, hw₃⟩
  rw [layoutResize, h.root_eq, Exec.follow_some, pure_bind, h₁, pure_bind]
  exact (congrArg (· >>= _) h₂).trans ((pure_bind _ _).trans hp)

/-! ## Moving space between siblings -/

/-- The addresses of a list of siblings. -/
abbrev rootIds (cells : List LayoutCell) : List ℕ := cells.map fun c => c.val.id

section Siblings

variable {t : LayoutType} {cells cells' : List LayoutCell}

theorem ResizedList.rootIds_eq {change : ℤ} (h : ResizedList t change cells cells') :
    rootIds cells' = rootIds cells := by
  have hid : ∀ l : List LayoutCell, rootIds l = (l.map (erase t)).map fun c => c.val.id := fun l => by
    simp [rootIds, erase]
  rw [hid, hid, h.rest]

/-- In a list of siblings with different addresses, a cell splits it. -/
theorem isRoot_of_nodup {l r : List LayoutCell} {x : LayoutCell}
    (h : (rootIds (l ++ x :: r)).Nodup) : ∀ d ∈ l, isRoot x.val.id d = false := by
  rw [rootIds, List.map_append, List.map_cons, List.nodup_append] at h
  intro d hd
  rw [isRoot, isCell, beq_eq_false_iff_ne]
  exact h.2.2 _ (List.mem_map_of_mem hd) _ List.mem_cons_self

/-- Resizing one of the siblings. -/
theorem ResizedList.replace {change : ℤ} {x x' : LayoutCell} (h : (rootIds cells).Nodup)
    (hf : ∀ c ∈ cells, Fits t c) (hx : x ∈ cells) (hr : Resized t change x x') :
    ResizedList t change cells (Queue.replace (isRoot x.val.id) x' cells) ∧
      ∀ d ∈ cells, d.val.id ≠ x.val.id → d ∈ Queue.replace (isRoot x.val.id) x' cells := by
  obtain ⟨l, r, rfl⟩ := List.append_of_mem hx
  rw [Queue.replace_split (isRoot_of_nodup h) (by simp [isRoot, isCell])]
  rw [List.forall_mem_append, List.forall_mem_cons] at hf
  refine ⟨⟨?_, ?_, ?_, ?_⟩, fun d hd hne => ?_⟩
  · rw [List.map_append, List.map_append, List.map_cons, List.map_cons, hr.rest]
  · rw [List.forall_mem_append, List.forall_mem_cons]
    exact ⟨hf.1, hr.fits, hf.2.2⟩
  · have := hr.size
    simp only [List.map_append, List.map_cons, List.sum_append, List.sum_cons]
    omega
  · rw [List.forall_mem_append, List.forall_mem_cons, List.forall_mem_append, List.forall_mem_cons]
    rintro ⟨h₁, h₂, h₃⟩
    exact ⟨h₁, hr.roomy h₂, h₃⟩
  · rw [List.mem_append, List.mem_cons] at hd ⊢
    rcases hd with hd | rfl | hd
    · exact .inl hd
    · exact absurd rfl hne
    · exact .inr (.inr hd)

/-- Moving space from one sibling to another. -/
theorem move_eq (ht : t ≠ .windowpane) (add remove : LayoutCell) (h : (rootIds cells).Nodup)
    (hf : ∀ c ∈ cells, Fits t c) (hadd : add ∈ cells) (hremove : remove ∈ cells)
    (hne : remove.val.id ≠ add.val.id) {size : ℕ} (hsize : size ≤ layoutResizeCheck t remove) :
    ∃ add' remove', layoutResizeAdjust add t size = pure add' ∧
      layoutResizeAdjust remove t (-(size : ℤ)) = pure remove' ∧
      ResizedList t 0 cells (Queue.replace (isRoot remove.val.id) remove'
        (Queue.replace (isRoot add.val.id) add' cells)) := by
  obtain ⟨add', ha, hra⟩ : ∃ lc', layoutResizeAdjust add t size = pure lc' ∧ Resized t size add lc' :=
    layoutResizeAdjust_resized ht (hf add hadd) (by omega)
  obtain ⟨remove', hr, hrr⟩ : ∃ lc', layoutResizeAdjust remove t (-(size : ℤ)) = pure lc' ∧
      Resized t (-(size : ℤ)) remove lc' :=
    layoutResizeAdjust_resized ht (hf remove hremove) (by omega)
  obtain ⟨h₁, hmem⟩ := ResizedList.replace h hf hadd hra
  obtain ⟨h₂, -⟩ := ResizedList.replace (by rw [h₁.rootIds_eq]; exact h) h₁.fits
    (hmem remove hremove hne) hrr
  refine ⟨add', remove', ha, hr, ?_⟩
  have := h₁.trans h₂
  rwa [add_neg_cancel] at this

/-- A cell of a list of siblings which is not the last one. -/
def NotLast (lc : ℕ) (cells : List LayoutCell) : Prop :=
  ∃ l y r, cells = l ++ y :: r ∧ y.val.id = lc ∧ r ≠ []

theorem ResizedList.notLast {change : ℤ} {lc : ℕ} (h : ResizedList t change cells cells')
    (hlc : NotLast lc cells) : NotLast lc cells' := by
  obtain ⟨l, y, r, rfl, rfl, hr⟩ := hlc
  have hid := h.rootIds_eq
  rw [rootIds, rootIds, List.map_append, List.map_cons, List.map_eq_append_iff] at hid
  obtain ⟨l', s, rfl, -, hs⟩ := hid
  obtain ⟨y', r', rfl, hy, hr'⟩ := List.map_eq_cons_iff.1 hs
  refine ⟨l', y', r', rfl, hy, ?_⟩
  rintro rfl
  exact hr (List.map_eq_nil_iff.1 hr'.symm)

/-- Siblings have different addresses. -/
theorem ne_of_nodup {l r : List LayoutCell} {x : LayoutCell} (h : (rootIds (l ++ x :: r)).Nodup)
    {d : LayoutCell} (hd : d ∈ l ∨ d ∈ r) : d.val.id ≠ x.val.id := by
  have hp : (rootIds (l ++ x :: r)).Perm (rootIds (x :: (l ++ r))) := List.perm_middle.map _
  rw [hp.nodup_iff, rootIds, List.map_cons, List.nodup_cons] at h
  exact fun e => h.1 (e ▸ List.mem_map_of_mem (List.mem_append.2 hd))

/-- The children of a cell in a tree with different addresses have different addresses. -/
theorem rootIds_nodup {c : List (Frame CellInfo)} {f : CellInfo} {cells : List LayoutCell}
    (h : (cellIds (fill c (.node f cells))).Nodup) : (rootIds cells).Nodup := by
  have hsub : ∀ cells : List LayoutCell,
      (rootIds cells).Sublist ((cells.flatMap nodes).map CellInfo.id) := by
    intro cells
    induction cells with
    | nil => exact List.Sublist.slnil
    | cons d cells ih =>
      rw [rootIds, List.map_cons, List.flatMap_cons, nodes_eq_cons, List.cons_append, List.map_cons,
        List.map_append]
      exact .cons_cons _ (ih.trans (List.sublist_append_right _ _))
  rw [cellIds_fill] at h
  have hf := (List.nodup_append.1 (List.nodup_append.1 h).1).2.1
  rw [cellIds, nodes_node, List.map_cons, List.nodup_cons] at hf
  exact (hsub cells).nodup hf.2

/-- Growing a cell moves to it space from a sibling, if any. -/
theorem layoutResizePaneGrow_eq (ht : t ≠ .windowpane) (h : (rootIds cells).Nodup)
    (hf : ∀ c ∈ cells, Fits t c) {lc : ℕ} (hlc : NotLast lc cells) {needed : ℤ} (hn : 0 < needed) :
    ∃ cells' size, layoutResizePaneGrow cells lc t needed = pure (cells', size) ∧
      (size : ℤ) ≤ needed ∧ ResizedList t 0 cells cells' := by
  obtain ⟨l, y, r, rfl, rfl, -⟩ := hlc
  have hy : isRoot y.val.id y = true := by simp [isRoot, isCell]
  have hl := isRoot_of_nodup h
  rw [layoutResizePaneGrow, Queue.find?_split hl hy, Exec.follow_some, pure_bind]
  simp only [Queue.rest_split hl hy, Queue.front_split hl hy]
  split
  · exact ⟨_, 0, rfl, by omega, .refl hf⟩
  · next d hd =>
    have hmem : d ∈ l ∨ d ∈ r := by
      rcases Option.or_eq_some_iff.1 hd with hd | ⟨-, hd⟩
      · exact .inr (List.mem_of_find?_eq_some hd)
      · exact .inl (List.mem_reverse.1 (List.mem_of_find?_eq_some hd))
    obtain ⟨add, remove, ha, hr, hmove⟩ := move_eq ht y d h hf (by simp)
      (by simp only [List.mem_append, List.mem_cons]; tauto) (ne_of_nodup h hmem)
      (Nat.min_le_left _ needed.toNat)
    rw [ha, pure_bind, hr, pure_bind]
    exact ⟨_, _, rfl, by omega, hmove⟩

/-- Shrinking a cell moves space from it, or from one before it, to the next, if any can
    give it. -/
theorem layoutResizePaneShrink_eq (ht : t ≠ .windowpane) (h : (rootIds cells).Nodup)
    (hf : ∀ c ∈ cells, Fits t c) {lc : ℕ} (hlc : NotLast lc cells) {needed : ℤ} (hn : needed < 0) :
    ∃ cells' size, layoutResizePaneShrink cells lc t needed = pure (cells', size) ∧
      (size : ℤ) ≤ -needed ∧ ResizedList t 0 cells cells' := by
  obtain ⟨l, y, r, rfl, rfl, hr⟩ := hlc
  obtain ⟨e, r, rfl⟩ := List.exists_cons_of_ne_nil hr
  have hy : isRoot y.val.id y = true := by simp [isRoot, isCell]
  have hl := isRoot_of_nodup h
  rw [layoutResizePaneShrink, Queue.find?_split hl hy, Exec.follow_some, pure_bind]
  simp only [Queue.front_split hl hy, Queue.next?_split hl hy, List.head?_cons]
  split
  · exact ⟨_, 0, rfl, by omega, .refl hf⟩
  · next d hd =>
    have hmem : d ∈ l ∨ d = y := by
      rcases List.mem_cons.1 (List.mem_of_find?_eq_some hd) with rfl | hd
      · exact .inr rfl
      · exact .inl (List.mem_reverse.1 hd)
    -- The cell growing comes after the one shrinking.
    have hne : d.val.id ≠ e.val.id := by
      have h' : (rootIds ((l ++ [y]) ++ e :: r)).Nodup := by simpa using h
      exact ne_of_nodup h' (.inl (by simp only [List.mem_append, List.mem_singleton]; tauto))
    obtain ⟨add, remove, ha, hr, hmove⟩ := move_eq ht e d h hf (by simp)
      (by simp only [List.mem_append, List.mem_cons]; tauto) hne (Nat.min_le_left _ (-needed).toNat)
    rw [ha, pure_bind, hr, pure_bind]
    exact ⟨_, _, rfl, by omega, hmove⟩

/-- Growing or shrinking a cell again and again ends, and keeps the total size. -/
theorem resizePaneLoop_eq (ht : t ≠ .windowpane) (h : (rootIds cells).Nodup)
    (hf : ∀ c ∈ cells, Fits t c) {lc : ℕ} (hlc : NotLast lc cells) {change needed : ℤ} {n : ℕ}
    (hn : needed.natAbs ≤ n) (hpos : 0 < change → 0 ≤ needed) (hneg : change ≤ 0 → needed ≤ 0) :
    ∃ cells', resizePaneLoop lc t change n cells needed = pure cells' ∧
      ResizedList t 0 cells cells' := by
  induction n generalizing cells needed with
  | zero =>
    obtain rfl : needed = 0 := by omega
    exact ⟨cells, if_pos rfl, .refl hf⟩
  | succ n ih =>
    rw [resizePaneLoop]
    by_cases h₀ : needed = 0
    · exact ⟨cells, if_pos h₀, .refl hf⟩
    rw [if_neg h₀]
    obtain ⟨cells', size, honce, hle, hr⟩ : ∃ cells' size,
        resizePaneOnce cells lc t change needed = pure (cells', size) ∧
          size ≤ needed.natAbs ∧ ResizedList t 0 cells cells' := by
      unfold resizePaneOnce
      split
      · obtain ⟨cells', size, h₁, h₂, h₃⟩ :=
          layoutResizePaneGrow_eq ht h hf hlc (show 0 < needed by omega)
        exact ⟨cells', size, h₁, by omega, h₃⟩
      · obtain ⟨cells', size, h₁, h₂, h₃⟩ :=
          layoutResizePaneShrink_eq ht h hf hlc (show needed < 0 by omega)
        exact ⟨cells', size, h₁, by omega, h₃⟩
    rw [honce, pure_bind]
    dsimp only
    by_cases hsize : size = 0
    · exact ⟨cells', if_pos hsize, hr⟩
    rw [if_neg hsize]
    obtain ⟨cells'', hloop, hr'⟩ := ih (by rw [hr.rootIds_eq]; exact h) hr.fits (hr.notLast hlc)
      (show (if change > 0 then needed - size else needed + size).natAbs ≤ n by split <;> omega)
      (fun _ => by split <;> omega) (fun _ => by split <;> omega)
    exact ⟨cells'', hloop, by simpa using hr.trans hr'⟩

end Siblings

/-! ## Resizing a pane -/

/-- The search for a container that runs along an axis goes up the context of a cell, to
    its innermost frame that does. -/
theorem findParent_fill {c : List (Frame CellInfo)} {lc : LayoutCell} {root : LayoutCell}
    (hroot : root = fill c lc) (h : Cells root) (hids : (cellIds root).Nodup)
    (htop : root.val.parent = none) (t : LayoutType) {n : ℕ} (hn : c.length < n) :
    findParent n root lc t = pure none ∨
      ∃ c' l r f x, root = fill c' (.node f (l ++ x :: r)) ∧ f.type = t ∧
        findParent n root lc t = pure (some (x, .node f (l ++ x :: r))) := by
  induction c generalizing lc n with
  | nil =>
    obtain ⟨n, rfl⟩ := Nat.exists_eq_add_one_of_ne_zero (Nat.ne_zero_of_lt hn)
    obtain rfl : root = lc := hroot
    refine .inl ?_
    rw [findParent]
    simp only [htop]
  | cons f c ih =>
    obtain ⟨n, rfl⟩ := Nat.exists_eq_add_one_of_ne_zero (Nat.ne_zero_of_lt hn)
    have hp : lc.val.parent = some f.val.id := by
      rw [hroot] at h
      exact parent_of_fill h
    have hfind : findCell root f.val.id = some (f.plug lc) := by
      rw [hroot] at hids ⊢
      exact @findCell_fill c (f.plug lc) hids
    rw [findParent]
    simp only [hp, hfind, Exec.follow_some, pure_bind]
    by_cases hf : (f.plug lc).val.type = t
    · rw [if_pos hf]
      exact .inr ⟨c, f.left, f.right, f.val, lc, hroot, hf, rfl⟩
    · rw [if_neg hf]
      exact ih hroot (by simpa using hn)

/-- Moving back from the last of several cells gives a cell which is not the last. -/
theorem moveBack_eq {l r : List LayoutCell} {x : LayoutCell}
    (h : (rootIds (l ++ x :: r)).Nodup) (hlen : 2 ≤ (l ++ x :: r).length) :
    ∃ y, (∀ f, moveBack x (.node f (l ++ x :: r)) = pure y) ∧ NotLast y.val.id (l ++ x :: r) := by
  unfold moveBack
  rcases List.eq_nil_or_concat' r with rfl | ⟨r, z, rfl⟩
  · rcases List.eq_nil_or_concat' l with rfl | ⟨l, y, rfl⟩
    · simp at hlen
    · refine ⟨y, fun f => ?_, l, y, [x], by simp, rfl, by simp⟩
      rw [children_node, if_pos (by simp), Queue.prev?_split (isRoot_of_nodup h)
        (by simp [isRoot, isCell]), List.getLast?_concat, Exec.follow_some]
  · refine ⟨x, fun f => if_neg ?_, l, x, r ++ [z], by simp, rfl, by simp⟩
    have hz := ne_of_nodup h (d := z) (.inr (by simp))
    have hlast : (l ++ x :: (r ++ [z])).getLast? = some z := by
      rw [← List.cons_append, ← List.append_assoc, List.getLast?_concat]
    simp [hlast, hz]

/-- Resizing a pane returns, and moves space between the children of one container. -/
theorem layoutResizePane_eq {w : Window} {root : LayoutCell} (h : HasLayout w root)
    {p : WindowPane} (hp : p ∈ w.panes) {t : LayoutType} (ht : t ≠ .windowpane) (change : ℤ) :
    layoutResizePane w p.id t change = pure w ∨
    ∃ c lc lc' panes,
      let w' := { w with layoutRoot := some (layoutFixOffsets (fill c lc')), panes }
      layoutResizePane w p.id t change = pure w' ∧
      root = fill c lc ∧ Resized t 0 lc lc' ∧ HasLayout w' (layoutFixOffsets (fill c lc')) ∧
      List.Forall₂ (fun p p' => fixPane (layoutFixOffsets (fill c lc')) w.sx w.sy p = pure p')
        w.panes panes := by
  obtain ⟨c, a, hroot, hw, hwp, hc, hcell⟩ := h.cellOf hp
  have hlen : c.length < root.height := by
    have h₁ := length_add_height_le c (.node a [])
    have h₂ := (node a []).height_pos
    rw [← hroot] at h₁
    omega
  rcases findParent_fill hroot h.cells h.ids h.top t hlen with hnone | ⟨c', l, r, f, x, hroot', hf, hsome⟩
  · refine .inl ?_
    rw [layoutResizePane, hcell, pure_bind, h.root_eq, Exec.follow_some, pure_bind, hnone, pure_bind]
  · refine .inr ?_
    have hfill : HasLayout w (fill c' (.node f (l ++ x :: r))) := hroot' ▸ h
    have hn := everywhere_node.1 (everywhere_fill.1 hfill.cells).1
    have hfit : Fits t (.node f (l ++ x :: r)) := Cells.fits (everywhere_fill.1 hfill.cells).1 ht
    have hids := rootIds_nodup hfill.ids
    obtain ⟨y, hback, hnl⟩ := moveBack_eq hids (by simpa using hn.1.linked.shape (hf ▸ ht))
    obtain ⟨cells', hloop, hr⟩ := resizePaneLoop_eq ht hids (fits_node.1 hfit).2 hnl
      (le_refl change.natAbs) (fun h => h.le) (fun h => h)
    have hr' : Resized t 0 (.node f (l ++ x :: r)) (.node f cells') := by
      simpa using Resized.along ht hf hfit hr (by omega)
    obtain ⟨panes, hfix, hpanes, hw'⟩ :=
      ((hfill.resize_fill ht hr' fun _ => rfl).layoutFixOffsets).layoutFixPanes w.sx w.sy
    refine ⟨c', _, _, panes, ?_, hroot', hr', hw', hpanes⟩
    rw [layoutResizePane, hcell, pure_bind, h.root_eq, Exec.follow_some, pure_bind, hsome, pure_bind]
    simp only [hback f, pure_bind, val_node, children_node, hloop]
    rw [hroot', show replaceCell (fill c' (.node f (l ++ x :: r))) f.id (.node f cells') = _ from
      replaceCell_fill hfill.ids]
    exact hfix

end Tmux
