import Tmux.Layout.Split

/-!
# Closing a pane

Destroying the cell of a pane (`layoutDestroyCell`) gives its space to the next or
the previous sibling, which takes its place; a container left with a single cell
is replaced by it (`layoutDestroyCell_eq`). The layout stays consistent, no
pane gets smaller, and the panes left are in the same order (`MergeOf`).
-/

namespace Tmux

open RoseTree

/-! ## Merging cells -/

/-- The cell `a` of a pane and a sibling `o`, in order. -/
def mergePair (first : Bool) (a : CellInfo) (o : LayoutCell) : List LayoutCell :=
  if first then [.node a [], o] else [o, .node a []]

/-- A cell put in the place of its container. -/
def promote (f v : CellInfo) : CellInfo :=
  if f.parent = none then { v with parent := none, xoff := 0, yoff := 0 }
  else { v with parent := f.parent }

/-- The parent of a cell, and its size. -/
def CellInfo.extent (lc : CellInfo) : Option ℕ × ℕ × ℕ := (lc.parent, lc.sx, lc.sy)

/-- A tree and the tree with the space of the cell `a` of a pane given to its sibling
    `o`, resized to `o'`. -/
inductive MergeOf (a : CellInfo) (o o' : LayoutCell) : LayoutCell → LayoutCell → Prop
  /-- There are other cells in the container. -/
  | sibling {c : List (Frame CellInfo)} {f : CellInfo} {l r : List LayoutCell} (first : Bool)
      (hr : Resized f.type (a.size f.type + 1) o o') (hlr : l ≠ [] ∨ r ≠ []) :
      MergeOf a o o' (fill c (.node f (l ++ mergePair first a o ++ r)))
        (fill c (.node f (l ++ o' :: r)))
  /-- The cell left replaces the container. -/
  | only {c : List (Frame CellInfo)} {f : CellInfo} (first : Bool)
      (hr : Resized f.type (a.size f.type + 1) o o') :
      MergeOf a o o' (fill c (.node f (mergePair first a o)))
        (fill c (.node (promote f o'.val) o'.children))

theorem promote_rest (f v : CellInfo) : (promote f v).parent = f.parent ∧
    (promote f v).id = v.id ∧ (promote f v).type = v.type ∧ (promote f v).wp = v.wp ∧
      ∀ t, (promote f v).size t = v.size t := by
  unfold promote
  split
  · next h => exact ⟨h.symm, rfl, rfl, rfl, fun t => rfl⟩
  · exact ⟨rfl, rfl, rfl, rfl, fun t => rfl⟩

/-- A cell is as consistent as any with the same address, type, pane and sizes. -/
theorem CellAt.of_eq {v v' : CellInfo} {cells : List CellInfo} (h : CellAt v cells)
    (hid : v'.id = v.id) (ht : v'.type = v.type) (hwp : v'.wp = v.wp)
    (hs : ∀ t, v'.size t = v.size t) : CellAt v' cells := by
  obtain ⟨h₁, h₂, h₃, h₄, h₅⟩ := h
  refine ⟨?_, ?_, ⟨?_, ?_, ?_⟩⟩
  · simpa only [FitsAt, ht, hs] using h₁
  · simpa only [FitsAt, ht, hs] using h₂
  · rwa [ht]
  · rwa [ht, hwp]
  · rwa [hid]

theorem cells_promote {f : CellInfo} {o : LayoutCell} (h : Cells o) :
    Cells (.node (promote f o.val) o.children) := by
  obtain ⟨-, hid, ht, hwp, hs⟩ := promote_rest f o.val
  exact everywhere_node.2 ⟨h.here.of_eq hid ht hwp hs, fun d hd => h.below hd⟩

section Merge

variable {t : LayoutType} {f a : CellInfo} {o o' : LayoutCell} {l r : List LayoutCell}

theorem forall_mem_mergePair {P : LayoutCell → Prop} {first : Bool} :
    (∀ d ∈ mergePair first a o, P d) ↔ P (.node a []) ∧ P o := by
  cases first <;> simp [mergePair, and_comm]

/-- What a sibling absorbing the space of a cell gets. -/
theorem Resized.absorb (hf : f.type = t) (ht : t ≠ .windowpane) (first : Bool)
    (h : CellAt f ((l ++ mergePair first a o ++ r).map val))
    (hr : Resized t (a.size t + 1) o o') :
    a.size t + o.val.size t + 1 = o'.val.size t ∧
      a.size t.across = o'.val.size t.across ∧ o.val.size t.across = o'.val.size t.across ∧
      a.parent = o'.val.parent ∧ o.val.parent = o'.val.parent ∧
      o'.val.size t.across = f.size t.across := by
  have hsize := hr.size
  have hw : f.type ≠ .windowpane := hf ▸ ht
  have hax : f.type ≠ t.across := fun e => across_ne ht (hf.symm.trans e)
  have hacross := ((cellAt_iff_across ht).1 h).2.1
  rw [FitsAt, if_neg hw, if_neg hax] at hacross
  have hpar := h.linked.parent
  have hmem : a ∈ (l ++ mergePair first a o ++ r).map val ∧
      o.val ∈ (l ++ mergePair first a o ++ r).map val := by
    cases first <;> simp [mergePair]
  have ha := hacross.2 _ hmem.1
  have ho := hacross.2 _ hmem.2
  have hp := (hpar _ hmem.1).trans (hpar _ hmem.2).symm
  refine ⟨by omega, ?_, hr.size_across.symm, hp.trans hr.parent_eq.symm, hr.parent_eq.symm, ?_⟩
  · rw [hr.size_across, ha, ho]
  · rw [hr.size_across, ho]

/-- A container two of whose cells are merged stays consistent. -/
theorem cellAt_merge (hf : f.type = t) (ht : t ≠ .windowpane) {first : Bool}
    (h : CellAt f ((l ++ mergePair first a o ++ r).map val))
    (hr : Resized t (a.size t + 1) o o') (hlr : l ≠ [] ∨ r ≠ []) :
    CellAt f ((l ++ o' :: r).map val) := by
  obtain ⟨hs, h₁, h₂, h₃, h₄, -⟩ := hr.absorb hf ht first h
  have hlr' : l.map val ≠ [] ∨ r.map val ≠ [] := by simpa using hlr
  rw [List.map_append, List.map_cons]
  cases first with
  | true =>
    refine (cellAt_split ht hf hlr' hs h₁ h₂ h₃ h₄).1 ?_
    simpa [mergePair] using h
  | false =>
    refine (cellAt_split ht hf hlr' (by omega) h₂ h₁ h₄ h₃).1 ?_
    simpa [mergePair] using h

/-- The cell left in a container is as large as the container. -/
theorem size_only (hf : f.type = t) (ht : t ≠ .windowpane) {first : Bool}
    (h : CellAt f ((mergePair first a o).map val)) (hr : Resized t (a.size t + 1) o o') :
    o'.val.sx = f.sx ∧ o'.val.sy = f.sy := by
  obtain ⟨hs, -, -, -, -, hacross⟩ := 
    hr.absorb (l := []) (r := []) hf ht first (by simpa using h)
  refine sx_sy_of_size ht ?_ hacross
  have hfit := ((cellAt_iff_across ht).1 h).1
  rw [FitsAt, if_neg (hf ▸ ht), if_pos hf] at hfit
  cases first <;> simp [mergePair] at hfit <;> omega

/-- A container has children. -/
theorem Cells.type_ne {cells : List LayoutCell} (h : Cells (.node f cells)) (hne : cells ≠ []) :
    f.type ≠ .windowpane := fun hw => hne (h.eq_nil hw)

theorem mergePair_ne_nil (first : Bool) : mergePair first a o ≠ [] := by
  cases first <;> simp [mergePair]

variable {root root' : LayoutCell}

/-- A layout with two cells merged stays consistent. -/
theorem MergeOf.cells (hm : MergeOf a o o' root root') (h : Cells root) : Cells root' := by
  cases hm with
  | @sibling c f l r first hr hlr =>
    have hn := (everywhere_fill.1 h).1
    have ht := Cells.type_ne hn (by simp [mergePair_ne_nil])
    rw [everywhere_node] at hn
    refine cells_fill h (everywhere_node.2 ⟨cellAt_merge rfl ht hn.1 hr hlr, ?_⟩) rfl rfl rfl
    simp only [List.forall_mem_append, forall_mem_mergePair, List.forall_mem_cons] at hn ⊢
    exact ⟨hn.2.1.1, hr.cells ht hn.2.1.2.2, hn.2.2⟩
  | @only c f first hr =>
    have hn := (everywhere_fill.1 h).1
    have ht := Cells.type_ne hn (mergePair_ne_nil first)
    rw [everywhere_node] at hn
    obtain ⟨hx, hy⟩ := size_only rfl ht hn.1 hr
    obtain ⟨hp, -, -, -, hs⟩ := promote_rest f o'.val
    exact cells_fill h (cells_promote (hr.cells ht (forall_mem_mergePair.1 hn.2).2)) hp
      ((hs .leftright).trans hx) ((hs .topbottom).trans hy)

/-- Merging two cells keeps the size of the root. -/
theorem MergeOf.extent_eq (hm : MergeOf a o o' root root') (h : Cells root) :
    root'.val.extent = root.val.extent := by
  cases hm with
  | @sibling c f l r first hr hlr =>
    exact fill_val_congr CellInfo.extent (.node f (l ++ o' :: r))
      (.node f (l ++ mergePair first a o ++ r)) rfl c
  | @only c f first hr =>
    have hn := (everywhere_fill.1 h).1
    have ht := Cells.type_ne hn (mergePair_ne_nil first)
    obtain ⟨hx, hy⟩ := size_only rfl ht (everywhere_node.1 hn).1 hr
    obtain ⟨hp, -, -, -, hs⟩ := promote_rest f o'.val
    have he : (promote f o'.val).extent = f.extent := by
      rw [CellInfo.extent, CellInfo.extent, hp, ← hx, ← hy]
      exact congrArg _ (Prod.ext (hs .leftright) (hs .topbottom))
    exact fill_val_congr CellInfo.extent (.node (promote f o'.val) o'.children)
      (.node f (mergePair first a o)) he c

/-- The cells of a layout with two cells merged, in order and as seen by a function
    that knows neither sizes, parents nor offsets: those of the layout, without the
    cell and the container replaced, if any. -/
theorem MergeOf.nodes_map {β : Type*} (hm : MergeOf a o o' root root') (h : Cells root)
    {g : CellInfo → β} (hg : ∀ (b : CellInfo) t, g (b.withSize t 0) = g b)
    (hgp : ∀ f v, g (promote f v) = g v) :
    ∃ B F L R, root.nodes.map g = B ++ (F ++ (L ++ g a :: R)) ∧
      root'.nodes.map g = B ++ (L ++ R) ∧
      (F = [] ∨ ∃ f : CellInfo, f.type ≠ .windowpane ∧ F = [g f]) := by
  cases hm with
  | @sibling c f l r first hr hlr =>
    have ho := hr.nodes_map fun b => hg b _
    cases first with
    | true =>
      refine ⟨((before c ++ f :: l.flatMap nodes).map g), [], [],
        ((o.nodes ++ r.flatMap nodes ++ after c).map g), ?_, ?_, .inl rfl⟩
      · simp [nodes_fill, mergePair]
      · simp [nodes_fill, ho]
    | false =>
      refine ⟨((before c ++ f :: l.flatMap nodes).map g), [], o.nodes.map g,
        ((r.flatMap nodes ++ after c).map g), ?_, ?_, .inl rfl⟩
      · simp [nodes_fill, mergePair]
      · simp [nodes_fill, ho]
  | @only c f first hr =>
    have ho := hr.nodes_map fun b => hg b _
    have ht := Cells.type_ne (everywhere_fill.1 h).1 (mergePair_ne_nil first)
    have hnodes : (node (promote f o'.val) o'.children).nodes.map g = o.nodes.map g := by
      rw [← ho, nodes_node, nodes_eq_cons o', List.map_cons, List.map_cons, hgp]
    cases first with
    | true =>
      refine ⟨(before c).map g, [g f], [], ((o.nodes ++ after c).map g), ?_, ?_, .inr ⟨f, ht, rfl⟩⟩
      · simp [nodes_fill, mergePair]
      · rw [nodes_fill, List.map_append, List.map_append, hnodes]
        simp
    | false =>
      refine ⟨(before c).map g, [g f], o.nodes.map g, ((after c).map g), ?_, ?_, .inr ⟨f, ht, rfl⟩⟩
      · simp [nodes_fill, mergePair]
      · rw [nodes_fill, List.map_append, List.map_append, hnodes, List.append_assoc]

theorem MergeOf.cellIds_sublist (hm : MergeOf a o o' root root') (h : Cells root) :
    (cellIds root').Sublist (cellIds root) := by
  obtain ⟨B, F, L, R, hr, hr', -⟩ := hm.nodes_map h (g := CellInfo.id)
    (fun b t => b.id_withSize t 0) fun f v => (promote_rest f v).2.1
  rw [cellIds, cellIds, hr, hr']
  refine .append_left (.trans ?_ (List.sublist_append_right F _)) B
  exact .append_left (List.sublist_cons_self _ _) L

/-- The pointers between cells and panes of a layout with two cells merged, in order. -/
theorem MergeOf.leafLinks_eq (hm : MergeOf a o o' root root') (h : Cells root)
    (ha : a.type = .windowpane) :
    ∃ X Y, leafLinks root = X ++ (some a.id, a.wp) :: Y ∧ leafLinks root' = X ++ Y := by
  have hlink : ∀ l : LayoutCell, leafLinks l = (l.nodes.map CellInfo.link?).filterMap id := fun l => by
    rw [leafLinks, List.filterMap_map]; rfl
  obtain ⟨B, F, L, R, hr, hr', hF⟩ := hm.nodes_map h (g := CellInfo.link?)
    (fun b t => by simp [CellInfo.link?]) fun f v => by
      obtain ⟨-, h₁, h₂, h₃, -⟩ := promote_rest f v
      rw [CellInfo.link?, CellInfo.link?, h₁, h₂, h₃]
  have hFnil : F.filterMap id = [] := by
    rcases hF with rfl | ⟨f, hf, rfl⟩
    · rfl
    · simp [CellInfo.link?, hf]
  have ha' : a.link? = some (some a.id, a.wp) := if_pos ha
  refine ⟨(B ++ L).filterMap id, R.filterMap id, ?_, ?_⟩
  · rw [hlink, hr, List.filterMap_append, List.filterMap_append, hFnil, List.filterMap_append, ha',
      List.nil_append, List.filterMap_append, List.append_assoc]
    rfl
  · rw [hlink, hr', List.filterMap_append, List.filterMap_append, List.filterMap_append,
      List.append_assoc]

/-- Merging two cells makes no pane smaller. -/
theorem MergeOf.roomy {s : LayoutType} (hs : s ≠ .windowpane) (hm : MergeOf a o o' root root')
    (h : Cells root) (hro : Roomy s root) : Roomy s root' := by
  have key : ∀ {f : CellInfo} {first : Bool} {l r : List LayoutCell} {c : List (Frame CellInfo)},
      Cells (fill c (.node f (l ++ mergePair first a o ++ r))) →
      Roomy s (fill c (.node f (l ++ mergePair first a o ++ r))) →
      Resized f.type (a.size f.type + 1) o o' → Roomy s o' := by
    intro f first l r c h hro hr
    have ht := Cells.type_ne (everywhere_fill.1 h).1 (by simp [mergePair_ne_nil])
    refine hr.roomy_of ht hs fun b hb hw => hro b ?_ hw
    rw [nodes_fill, nodes_node]
    have : b ∈ (l ++ mergePair first a o ++ r).flatMap nodes :=
      List.mem_flatMap.2 ⟨o, by cases first <;> simp [mergePair], hb⟩
    simp only [List.mem_append, List.mem_cons, this, or_true, true_or]
  cases hm with
  | @sibling c f l r first hr hlr =>
    have ho := key h hro hr
    intro b hb hw
    rw [nodes_fill, nodes_node, List.flatMap_append, List.flatMap_cons] at hb
    by_cases hbo : b ∈ o'.nodes
    · exact ho b hbo hw
    · refine hro b ?_ hw
      rw [nodes_fill, nodes_node, List.flatMap_append, List.flatMap_append]
      simp only [List.mem_append, List.mem_cons, hbo, false_or] at hb ⊢
      tauto
  | @only c f first hr =>
    have ho := key (l := []) (r := []) (by simpa using h) (by simpa using hro) hr
    obtain ⟨-, -, ht, -, hsize⟩ := promote_rest f o'.val
    intro b hb hw
    rw [nodes_fill, nodes_node, List.mem_append, List.mem_append, List.mem_cons] at hb
    rcases hb with (hb | rfl | hb) | hb
    · exact hro b (by rw [nodes_fill]; simp [hb]) hw
    · rw [hsize]
      exact ho _ o'.val_mem_nodes (ht ▸ hw)
    · exact ho b (by rw [nodes_eq_cons]; exact List.mem_cons_of_mem _ hb) hw
    · exact hro b (by rw [nodes_fill]; simp [hb]) hw

end Merge

/-! ## Destroying a cell -/

/-- A cell with siblings makes a pair with the previous one, or with the next if it is
    the first. -/
theorem mergePair_append (a : CellInfo) (l r : List LayoutCell) (h : l ≠ [] ∨ r ≠ []) :
    ∃ first o l' r', l ++ .node a [] :: r = l' ++ mergePair first a o ++ r' ∧
      (first = true → l' = []) := by
  rcases List.eq_nil_or_concat l with rfl | ⟨l', o, rfl⟩
  · obtain ⟨o, r', rfl⟩ := List.exists_cons_of_ne_nil (h.resolve_left (by simp))
    exact ⟨true, o, [], r', by simp [mergePair], fun _ => rfl⟩
  · exact ⟨false, o, l', r, by simp [mergePair], by simp⟩

/-- The sibling found is the other one of the pair, and is resized in its place. -/
theorem otherCell_eq {c : List (Frame CellInfo)} {f : CellInfo} {a : CellInfo} {first : Bool}
    {o o' : LayoutCell} {l r : List LayoutCell} (hfirst : first = true → l = [])
    (hids : (cellIds (fill c (.node f (l ++ mergePair first a o ++ r)))).Nodup)
    (hid : o'.val.id = o.val.id) :
    otherCell (l ++ mergePair first a o ++ r) a.id = pure o ∧
      (Queue.replace (isRoot o.val.id) o' (l ++ mergePair first a o ++ r)).eraseP (isRoot a.id) =
        l ++ o' :: r := by
  have hroot : ∀ d : LayoutCell, isRoot d.val.id d = true := fun d => by simp [isRoot, isCell]
  cases first with
  | true =>
    obtain rfl := hfirst rfl
    have ho := (@isRoot_eq_false c o ⟨f, [.node a []], r⟩
      (by simpa [mergePair, fill, Frame.plug] using hids)).1
    simp only [List.mem_singleton, forall_eq] at ho
    simp only [mergePair, List.nil_append, if_true, List.cons_append]
    constructor
    · rw [otherCell, List.head?_cons, Exec.follow_some, pure_bind, val_node, if_pos rfl,
        Queue.next?, if_pos (show isRoot a.id (.node a []) = true from hroot (.node a []))]
      rfl
    · rw [Queue.replace, if_neg (by simp [ho]), Queue.replace, if_pos (hroot _)]
      exact List.eraseP_cons_of_pos (hroot (.node a []))
  | false =>
    have ha := (@isRoot_eq_false c (.node a []) ⟨f, l ++ [o], r⟩
      (by simpa [mergePair, fill, Frame.plug] using hids)).1
    have ho := (@isRoot_eq_false c o ⟨f, l, .node a [] :: r⟩
      (by simpa [mergePair, fill, Frame.plug] using hids)).1
    rw [val_node] at ha
    have hl : l ++ mergePair false a o ++ r = (l ++ [o]) ++ .node a [] :: r := by simp [mergePair]
    constructor
    · obtain ⟨d, ds, hd⟩ := List.exists_cons_of_ne_nil (show l ++ [o] ≠ [] by simp)
      have hda : d.val.id ≠ a.id := by simpa [isRoot, isCell] using ha d (by simp [hd])
      rw [otherCell, hl, show ((l ++ [o]) ++ .node a [] :: r).head? = some d by simp [hd],
        Exec.follow_some, pure_bind, if_neg hda, Queue.prev?_split ha (hroot (.node a [])),
        List.getLast?_concat, Exec.follow_some]
    · have hl' : l ++ mergePair false a o ++ r = l ++ o :: .node a [] :: r := by simp [mergePair]
      have ho' : ∀ d ∈ l ++ [o'], isRoot a.id d = false := by
        intro d hd
        rcases List.mem_append.1 hd with hd | hd
        · exact ha d (List.mem_append_left _ hd)
        · rw [List.mem_singleton.1 hd, isRoot, isCell, hid]
          exact ha o (by simp)
      rw [hl', Queue.replace_split ho (hroot o), List.append_cons l, 
        Queue.eraseP_split ho' (hroot (.node a [])), List.append_assoc]
      rfl

/-- A container left with several cells keeps them, and one left with a single cell is
    replaced by it. -/
theorem leaveCells_eq {c : List (Frame CellInfo)} {f : CellInfo} {cells : List LayoutCell}
    {o : LayoutCell} {l r : List LayoutCell} (hids : (cellIds (fill c (.node f cells))).Nodup)
    (htop : f.parent = none → c = []) :
    leaveCells (fill c (.node f cells)) f (l ++ o :: r) = pure
      (if l ≠ [] ∨ r ≠ [] then fill c (.node f (l ++ o :: r))
      else fill c (.node (promote f o.val) o.children)) := by
  have hroot : ∀ d : LayoutCell, isRoot d.val.id d = true := fun d => by simp [isRoot, isCell]
  have hrep : ∀ new, replaceCell (fill c (.node f cells)) f.id new = fill c new := fun new =>
    @replaceCell_fill c (.node f cells) new hids
  obtain ⟨d, ds, hd⟩ := List.exists_cons_of_ne_nil (show l ++ o :: r ≠ [] by simp)
  rw [leaveCells, hd, List.head?_cons, Exec.follow_some, pure_bind, Queue.next?, if_pos (hroot d)]
  split_ifs with hlr
  · -- More than one cell is left.
    obtain ⟨e, es, rfl⟩ : ∃ e es, ds = e :: es := by
      refine List.exists_cons_of_ne_nil fun hds => ?_
      have := congrArg List.length hd
      rw [hds] at this
      rcases hlr with h | h <;> have := List.length_pos_iff.2 h <;> simp at * <;> omega
    simp only [List.head?_cons, hrep]
  · rw [not_or, not_not, not_not] at hlr
    obtain ⟨rfl, rfl⟩ := hlr
    obtain ⟨rfl, rfl⟩ := List.cons.inj hd
    rw [List.head?_nil]
    cases hp : f.parent with
    | none => simp [htop hp, fill, promote, hp]
    | some p => simp only [hrep, promote, hp, reduceCtorEq, if_false]

/-- The size of a cell and a separator, as the code has it. -/
theorem absorbed_eq (t : LayoutType) (a : CellInfo) :
    (if t = .leftright then (a.sx : ℤ) + 1 else (a.sy : ℤ) + 1) = (a.size t : ℤ) + 1 := by
  unfold CellInfo.size
  split <;> rfl

/-- Only the root has no parent. -/
theorem Cells.eq_nil_of_top {c : List (Frame CellInfo)} {lc : LayoutCell} (h : Cells (fill c lc))
    (hp : lc.val.parent = none) : c = [] := by
  cases c with
  | nil => rfl
  | cons f c => exact absurd ((parent_of_fill h).symm.trans hp) (by simp)

/-- Destroying the cell of a pane which is not the last one merges it into the next or
    the previous cell. -/
theorem layoutDestroyCell_eq {c : List (Frame CellInfo)} {f : Frame CellInfo} {a : CellInfo}
    (h : Cells (fill (f :: c) (.node a []))) (hids : (cellIds (fill (f :: c) (.node a []))).Nodup) :
    ∃ o o' root', layoutDestroyCell (fill (f :: c) (.node a [])) a.id =
        pure (some root', layoutFreeCell (.node a [])) ∧
      MergeOf a o o' (fill (f :: c) (.node a [])) root' := by
  have hfind := @findCell_fill (f :: c) (.node a []) hids
  have hp : a.parent = some f.val.id := parent_of_fill h
  obtain ⟨f, left, right⟩ := f
  have hfill : fill (⟨f, left, right⟩ :: c) (.node a []) =
      fill c (.node f (left ++ .node a [] :: right)) := rfl
  rw [hfill] at h hids hfind ⊢
  have hn := (everywhere_fill.1 h).1
  have ht : f.type ≠ .windowpane := Cells.type_ne hn (by simp)
  have hcells := everywhere_node.1 hn
  have hlr : left ≠ [] ∨ right ≠ [] := by
    by_contra hnn
    rw [not_or, not_not, not_not] at hnn
    have := hcells.1.linked.shape ht
    simp [hnn.1, hnn.2] at this
  obtain ⟨first, o, l, r, hpair, hfirst⟩ := mergePair_append a left right hlr
  rw [hpair] at h hids hfind hn hcells ⊢
  have ho : Cells o := hcells.2 o (by cases first <;> simp [mergePair])
  obtain ⟨o', hadj, hr⟩ : ∃ o', layoutResizeAdjust o f.type (a.size f.type + 1) = pure o' ∧
      Resized f.type (a.size f.type + 1) o o' :=
    layoutResizeAdjust_resized ht (ho.fits ht) (by omega)
  obtain ⟨hother, herase⟩ := otherCell_eq hfirst hids hr.id_eq
  refine ⟨o, o', if l ≠ [] ∨ r ≠ [] then fill c (.node f (l ++ o' :: r))
    else fill c (.node (promote f o'.val) o'.children), ?_, ?_⟩
  · rw [layoutDestroyCell, show findCell _ a.id = _ from hfind, Exec.follow_some, pure_bind]
    simp only [val_node, hp]
    rw [show findCell (fill c (.node f (l ++ mergePair first a o ++ r))) f.id = _ from
      @findCell_fill c (.node f _) hids, Exec.follow_some, pure_bind]
    simp only [hother, pure_bind, absorbed_eq, hadj, herase,
      leaveCells_eq hids fun e => h.eq_nil_of_top e]
  · split_ifs with hlr'
    · exact .sibling first hr hlr'
    · rw [not_or, not_not, not_not] at hlr'
      obtain ⟨rfl, rfl⟩ := hlr'
      simpa using MergeOf.only first hr

/-! ## Closing a pane -/

/-- Close a pane, and take it out of its window. -/
def closePane (w : Window) (wp : ℕ) : Exec Window := do
  let w ← layoutClosePane w wp
  pure (windowRemovePane w wp)

/-- What taking a pane out of a window leaves alone. -/
theorem windowRemovePane_rest (w : Window) (wp : ℕ) :
    (windowRemovePane w wp).panes = w.panes.eraseP (isPane wp) ∧
      (windowRemovePane w wp).layoutRoot = w.layoutRoot ∧
      (windowRemovePane w wp).nextCell = w.nextCell ∧
      (windowRemovePane w wp).sx = w.sx ∧ (windowRemovePane w wp).sy = w.sy := by
  unfold windowRemovePane
  split_ifs <;> exact ⟨rfl, rfl, rfl, rfl, rfl⟩

section Spare

variable {w : Window} {root : LayoutCell} {spare : List (Option ℕ × Option ℕ)}

/-- The cell of a pane of a window with several panes, or with a spare cell, is not the root. -/
theorem HasSpare.ne_nil {c : List (Frame CellInfo)} {a : CellInfo}
    (h : HasSpare w (fill c (.node a [])) spare) (hw : a.type = .windowpane)
    (hlen : spare.length + w.panes.length ≠ 1) : c ≠ [] := by
  rintro rfl
  refine hlen ?_
  rw [← List.length_map WindowPane.link, ← List.length_append, ← h.links.length_eq]
  simp [leafLinks, fill, CellInfo.link?, hw]

/-- The window left by a cell merged into another, without its pane, has a layout. -/
theorem HasSpare.merge {w' : Window} {root' : LayoutCell} (h : HasSpare w root spare)
    {a : CellInfo} {o o' : LayoutCell} (hm : MergeOf a o o' root root') (hw : a.type = .windowpane)
    {l r : List WindowPane} {p : WindowPane} (hp : w.panes = l ++ p :: r)
    (hlink : p.link = (some a.id, a.wp)) (hroot : w'.layoutRoot = some root')
    (hnext : w'.nextCell = w.nextCell) (hid : w'.panes.map WindowPane.id = (l ++ r).map WindowPane.id)
    (hl : w'.panes.map WindowPane.link = (l ++ r).map WindowPane.link) : HasSpare w' root' spare where
  root_eq := hroot
  cells := hm.cells h.cells
  top := (congrArg Prod.fst (hm.extent_eq h.cells)).trans h.top
  ids := (hm.cellIds_sublist h.cells).nodup h.ids
  fresh id hid := hnext ▸ h.fresh id ((hm.cellIds_sublist h.cells).subset hid)
  panes := by
    rw [Window.paneIds, hid]
    have := h.panes
    rw [Window.paneIds, hp] at this
    exact ((List.sublist_cons_self p r).append_left l |>.map _).nodup this
  links := by
    rw [hl]
    obtain ⟨X, Y, hX, hX'⟩ := hm.leafLinks_eq h.cells hw
    have := h.links
    rw [hX, hp, List.map_append, List.map_cons, hlink, ← List.append_assoc] at this
    rw [hX', List.map_append, ← List.append_assoc]
    exact ((List.perm_middle.symm.trans this).trans List.perm_middle).cons_inv

/-- Closing a pane which is not the last one of its window, or not the only one in its layout,
    merges its cell into another. The pane is left without a cell. -/
theorem layoutClosePane_cases (h : HasSpare w root spare) {p : WindowPane} (hp : p ∈ w.panes)
    (hlen : spare.length + w.panes.length ≠ 1) :
    ∃ a o o' root' l r l' r', MergeOf a o o' root root' ∧ a.type = .windowpane ∧ a.wp = some p.id ∧
      w.panes = l ++ p :: r ∧
      layoutClosePane w p.id = pure { w with
        layoutRoot := some (layoutFixOffsets root')
        panes := l' ++ { p with layoutCell := none } :: r' } ∧
      HasSpare { w with layoutRoot := some (layoutFixOffsets root'), panes := l' ++ r' }
        (layoutFixOffsets root') spare ∧
      List.Forall₂ (fun p p' => fixPane (layoutFixOffsets root') w.sx w.sy p = pure p') l l' ∧
      List.Forall₂ (fun p p' => fixPane (layoutFixOffsets root') w.sx w.sy p = pure p') r r' := by
  obtain ⟨c, a, rfl, hw, hwp, hc, hcell⟩ := h.cellOf hp
  obtain ⟨f, c, rfl⟩ := List.exists_cons_of_ne_nil (h.ne_nil hw hlen)
  obtain ⟨o, o', root', hd, hm⟩ := layoutDestroyCell_eq h.cells h.ids
  obtain ⟨l, r, hlr⟩ := List.append_of_mem hp
  have hlink : p.link = (some a.id, a.wp) := by rw [WindowPane.link, hc, hwp]
  -- The layout of the window without the pane, before fixing the panes.
  have hmid : HasSpare { w with layoutRoot := some root', panes := l ++ r } root' spare :=
    h.merge hm hw hlr hlink rfl rfl rfl rfl
  have hne := h.id_ne hlr
  have hfree : layoutFreeCell (.node a []) = [p.id] := by simp [layoutFreeCell, hw, hwp]
  have hclear : { w with layoutRoot := some root' }.clearCells (layoutFreeCell (.node a [])) =
      { w with layoutRoot := some root', panes := l ++ { p with layoutCell := none } :: r } := by
    have hkeep : ∀ s : List WindowPane, (∀ q ∈ s, q.id ≠ p.id) →
        s.map (fun q => if q.id ∈ [p.id] then { q with layoutCell := none } else q) = s :=
      fun s hs => (List.map_congr_left fun q hq => if_neg (by simpa using hs q hq)).trans
        (List.map_id' _)
    rw [List.forall_mem_append] at hne
    rw [Window.clearCells, hfree, hlr, List.map_append, List.map_cons, hkeep l hne.1, hkeep r hne.2,
      if_pos List.mem_cons_self]
  have hmem : ∀ q ∈ l ++ { p with layoutCell := none } :: r, ∀ id, q.layoutCell = some id →
      id ∈ cellIds (layoutFixOffsets root') := by
    intro q hq id hid
    rw [(layoutFixOffsets_moved root').cellIds_eq]
    refine hmid.mem_cellIds (p := q) ?_ hid
    rw [List.mem_append, List.mem_cons] at hq
    rcases hq with hq | rfl | hq
    · exact List.mem_append_left _ hq
    · exact absurd hid (by simp)
    · exact List.mem_append_right _ hq
  obtain ⟨panes, hfix, hf, hid, hl⟩ := layoutFixPanes_eq (w := { w with
    layoutRoot := some (layoutFixOffsets root')
    panes := l ++ { p with layoutCell := none } :: r }) rfl
    ((layoutFixOffsets_moved root').cellIds_eq ▸ hmid.ids) hmem w.sx w.sy
  obtain ⟨l', p', r', rfl, hl', hp', hr'⟩ := Exec.forall₂_append_cons hf
  -- A pane without a cell is not fixed.
  obtain rfl : { p with layoutCell := none } = p' := Exec.pure_inj.1 hp'
  have hlr' := fixPanes_rest (List.rel_append hl' hr')
  refine ⟨a, o, o', root', l, r, l', r', hm, hw, hwp, hlr, ?_, ?_, hl', hr'⟩
  · rw [layoutClosePane, hcell, pure_bind, h.root_eq, Exec.follow_some, pure_bind, val_node, hd, pure_bind]
    dsimp only
    rw [hclear]
    exact hfix
  · exact (hmid.moved (layoutFixOffsets_moved root')).congr rfl rfl hlr'.1 hlr'.2

/-- The panes before another that are fixed do not have its identifier. -/
theorem HasSpare.isPane_eq_false (h : HasSpare w root spare) {l r l' : List WindowPane} {p : WindowPane}
    (hp : w.panes = l ++ p :: r) (hid : l'.map WindowPane.id = l.map WindowPane.id) :
    ∀ q ∈ l', isPane p.id q = false := fun q hq => by
  obtain ⟨q', hq', he⟩ := List.mem_map.1 (hid ▸ List.mem_map_of_mem (f := WindowPane.id) hq)
  rw [isPane, ← he, beq_eq_false_iff_ne]
  exact h.id_ne hp q' (List.mem_append_left _ hq')

end Spare

/-- Closing a pane which is not the last one of its window merges its cell into
    another, and takes the pane out of the window. -/
theorem closePane_cases {w : Window} {root : LayoutCell} (h : HasLayout w root) {p : WindowPane}
    (hp : p ∈ w.panes) (hlen : w.panes.length ≠ 1) :
    ∃ w' a o o' root' l r, closePane w p.id = pure w' ∧ HasLayout w' (layoutFixOffsets root') ∧
      MergeOf a o o' root root' ∧ a.type = .windowpane ∧ a.wp = some p.id ∧
      w'.sx = w.sx ∧ w'.sy = w.sy ∧ w.panes = l ++ p :: r ∧
      List.Forall₂ (fun p p' => fixPane (layoutFixOffsets root') w.sx w.sy p = pure p')
        (l ++ r) w'.panes := by
  have hs := hasSpare_nil.2 h
  obtain ⟨a, o, o', root', l, r, l', r', hm, hw, hwp, hlr, hclose, hw', hl', hr'⟩ :=
    layoutClosePane_cases hs hp (by simpa using hlen)
  set w₁ : Window := { w with
    layoutRoot := some (layoutFixOffsets root')
    panes := l' ++ { p with layoutCell := none } :: r' } with hw₁
  obtain ⟨h₁, h₂, h₃, h₄, h₅⟩ := windowRemovePane_rest w₁ p.id
  have hpanes : (windowRemovePane w₁ p.id).panes = l' ++ r' := by
    rw [h₁]
    exact Queue.eraseP_split (hs.isPane_eq_false hlr (fixPanes_rest hl').1) (by simp [isPane])
  refine ⟨windowRemovePane w₁ p.id, a, o, o', root', l, r, ?_, ?_, hm, hw, hwp, h₄, h₅, hlr, ?_⟩
  · rw [closePane, hclose, pure_bind]
  · refine (hasSpare_nil.1 hw').congr h₂ h₃ ?_ ?_
    · rw [hpanes]
    · rw [hpanes]
  · rw [hpanes]
    exact List.rel_append hl' hr'

end Tmux
