import Tmux.Layout.Offsets
import Tmux.Window.Panes

/-!
# Splitting a pane

Splitting the cell of a pane (`layoutSplitPane`) makes room for a new cell beside
it: among its siblings if the container above runs along the split, or in a
container of their own that takes its place (`SplitOf`). Either way the two cells
share the place of the one (`Share`), and the layout stays consistent once the
new cell is assigned a pane.

Splitting is refused exactly when the cell is too small for two panes of the
minimum size and a separator (`layoutSplitPane_cases`).
-/

namespace Tmux

open RoseTree

/-! ## Sizes -/

/-- The size of the second cell, within the limits. -/
theorem clamp_bounds {n total m : ℕ} (h : 5 ≤ total)
    (hm : m = if n < paneMinimum then paneMinimum else if n > total - 2 then total - 2 else n) :
    2 ≤ m ∧ m ≤ total - 2 ∧ (total < m + 3 ↔ total < n + 3) := by
  unfold paneMinimum at hm
  split_ifs at hm <;> omega

/-- The two sizes of a split add up, and the second is at least the minimum. The
    first is, too, unless the hint leaves less. -/
theorem splitSizes_eq {total : ℕ} (h : 5 ≤ total) (size : ℤ) :
    ∃ s₁ s₂, splitSizes total size = pure (s₁, s₂) ∧ s₁ + s₂ + 1 = total ∧ 2 ≤ s₂ ∧ 1 ≤ s₁ ∧
      (s₁ < 2 ↔ (total : ℤ) < size + 3) := by
  obtain ⟨n, hn, hlt⟩ : ∃ n, hintSize total size = pure n ∧
      (total < n + 3 ↔ (total : ℤ) < size + 3) := by
    unfold hintSize
    split
    · exact ⟨_, Exec.usub_of_le (by omega), by omega⟩
    · exact ⟨_, rfl, by omega⟩
  obtain ⟨m, hm⟩ : ∃ m, m = if n < paneMinimum then paneMinimum else
    if n > total - 2 then total - 2 else n := ⟨_, rfl⟩
  obtain ⟨h₂, hle, hiff⟩ := clamp_bounds h hm
  refine ⟨total - 1 - m, m, ?_, by omega, h₂, by omega, ?_⟩
  · rw [splitSizes, hn, pure_bind, Exec.usub_of_le (by omega), pure_bind,
      Exec.usub_of_le (by omega), pure_bind, ← hm, Exec.usub_of_le (by omega), pure_bind]
  · rw [← hlt, ← hiff]
    omega

section Set

variable (t : LayoutType) (lc c : CellInfo) (s₁ s₂ : ℕ) (before : Bool)

/-- Setting the place of a cell leaves the rest of it. -/
theorem setFirst_rest : (setFirst t lc s₁ c).id = c.id ∧ (setFirst t lc s₁ c).type = c.type ∧
    (setFirst t lc s₁ c).parent = c.parent ∧ (setFirst t lc s₁ c).wp = c.wp := by
  unfold setFirst; split <;> exact ⟨rfl, rfl, rfl, rfl⟩

theorem setSecond_rest : (setSecond t lc s₁ s₂ c).id = c.id ∧
    (setSecond t lc s₁ s₂ c).type = c.type ∧ (setSecond t lc s₁ s₂ c).parent = c.parent ∧
      (setSecond t lc s₁ s₂ c).wp = c.wp := by
  unfold setSecond; split <;> exact ⟨rfl, rfl, rfl, rfl⟩

theorem setOld_rest : (setOld t lc s₁ s₂ before c).id = c.id ∧
    (setOld t lc s₁ s₂ before c).type = c.type ∧ (setOld t lc s₁ s₂ before c).parent = c.parent ∧
      (setOld t lc s₁ s₂ before c).wp = c.wp := by
  unfold setOld; split
  exacts [setSecond_rest t lc c s₁ s₂, setFirst_rest t lc c s₁]

theorem setNew_rest : (setNew t lc s₁ s₂ before c).id = c.id ∧
    (setNew t lc s₁ s₂ before c).type = c.type ∧ (setNew t lc s₁ s₂ before c).parent = c.parent ∧
      (setNew t lc s₁ s₂ before c).wp = c.wp := by
  unfold setNew; split
  exacts [setFirst_rest t lc c s₁, setSecond_rest t lc c s₁ s₂]

end Set

/-- Two cells share the place of `lc` along the axis `t`, one cell apart. -/
structure Share (t : LayoutType) (lc fst snd : CellInfo) : Prop where
  size : fst.size t + snd.size t + 1 = lc.size t
  across₁ : fst.size t.across = lc.size t.across
  across₂ : snd.size t.across = lc.size t.across
  off₁ : fst.off t = lc.off t
  off₂ : snd.off t = lc.off t + fst.size t + 1
  offAcross₁ : fst.off t.across = lc.off t.across
  offAcross₂ : snd.off t.across = lc.off t.across

theorem share_setFirst_setSecond {t : LayoutType} (ht : t ≠ .windowpane) {lc c d : CellInfo}
    {s₁ s₂ : ℕ} (h : s₁ + s₂ + 1 = lc.size t) :
    Share t lc (setFirst t lc s₁ c) (setSecond t lc s₁ s₂ d) := by
  cases t with
  | leftright => exact ⟨h, rfl, rfl, rfl, rfl, rfl, rfl⟩
  | topbottom => exact ⟨h, rfl, rfl, rfl, rfl, rfl, rfl⟩
  | windowpane => exact absurd rfl ht

/-! ## Cells -/

/-- The cells of an old and a new pane, in the place of the cell `a`. -/
structure Beside (t : LayoutType) (before : Bool) (a old new : CellInfo) : Prop where
  share : if before then Share t a new old else Share t a old new
  id_eq : old.id = a.id
  wp_eq : old.wp = a.wp
  old_type : old.type = .windowpane
  new_type : new.type = .windowpane
  parent_eq : new.parent = old.parent

/-- The cells before the new cell among those of a split. -/
def splitLeft (before : Bool) (old : CellInfo) : List LayoutCell :=
  if before then [] else [.node old []]

/-- The cells after the new cell among those of a split. -/
def splitRight (before : Bool) (old : CellInfo) : List LayoutCell :=
  if before then [.node old []] else []

/-- A tree with the cell `a` of a pane split along the axis `t`, the new cell being in
    the context given, and the cells created having the addresses from `next` on. -/
inductive SplitOf (t : LayoutType) (before : Bool) (next : ℕ) (a old new : CellInfo) :
    LayoutCell → List (Frame CellInfo) → Prop
  /-- The cells are siblings. -/
  | sibling {c : List (Frame CellInfo)} {f : CellInfo} {l r : List LayoutCell} (hf : f.type = t)
      (hp : old.parent = a.parent) (hid : new.id = next) :
      SplitOf t before next a old new (fill (⟨f, l, r⟩ :: c) (.node a []))
        (⟨f, l ++ splitLeft before old, splitRight before old ++ r⟩ :: c)
  /-- The cells are in a container of their own, in the place of `a`. -/
  | nested {c : List (Frame CellInfo)} {p : CellInfo} (hp : p.type = t)
      (hpa : p.parent = a.parent) (hx : p.sx = a.sx) (hy : p.sy = a.sy) (hxo : p.xoff = a.xoff)
      (hyo : p.yoff = a.yoff) (hwp : p.wp = none) (hold : old.parent = some p.id)
      (hpid : p.id = next) (hid : new.id = next + 1) :
      SplitOf t before next a old new (fill c (.node a []))
        (⟨p, splitLeft before old, splitRight before old⟩ :: c)

theorem cellAt_leaf {a : CellInfo} (h : a.type = .windowpane) : CellAt a [] where
  fitsX := by rw [FitsAt, if_pos h]
  fitsY := by rw [FitsAt, if_pos h]
  linked := ⟨fun hw => absurd h hw, fun hw => absurd h hw, by simp⟩

theorem cells_leaf {a : CellInfo} (h : a.type = .windowpane) : Cells (.node a []) :=
  everywhere_node.2 ⟨cellAt_leaf h, by simp⟩

/-- A container of two cells that share its place. -/
theorem cellAt_pair {t : LayoutType} (ht : t ≠ .windowpane) {p fst snd : CellInfo}
    (hp : p.type = t) (hwp : p.wp = none) (h : Share t p fst snd) (h₁ : fst.parent = some p.id)
    (h₂ : snd.parent = some p.id) : CellAt p [fst, snd] := by
  have hw : p.type ≠ .windowpane := hp ▸ ht
  have hax : p.type ≠ t.across := fun e => across_ne ht (hp.symm.trans e)
  have hs := h.size
  rw [cellAt_iff_across ht, FitsAt, FitsAt, if_neg hw, if_neg hw, if_pos hp, if_neg hax]
  refine ⟨?_, ⟨by simp, ?_⟩, fun _ => by simp, fun _ => hwp, ?_⟩
  · simp only [List.map_cons, List.map_nil, List.sum_cons, List.sum_nil, List.length_cons,
      List.length_nil]
    omega
  · simp [h.across₁, h.across₂]
  · simp [h₁, h₂]

section SplitOf

variable {t : LayoutType} {before : Bool} {next : ℕ} {a old new : CellInfo} {root : LayoutCell}
  {c' : List (Frame CellInfo)}

/-- The new cell and its neighbour, in order. -/
theorem split_vals (before : Bool) (old new : CellInfo) (l r : List LayoutCell) :
    (l ++ splitLeft before old ++ .node new [] :: (splitRight before old ++ r)).map val =
      if before then l.map val ++ new :: old :: r.map val
      else l.map val ++ old :: new :: r.map val := by
  cases before <;> simp [splitLeft, splitRight]

theorem mem_split (before : Bool) {P : LayoutCell → Prop} (h : P (.node old [])) :
    (∀ d ∈ splitLeft before old, P d) ∧ ∀ d ∈ splitRight before old, P d := by
  cases before <;> simp [splitLeft, splitRight, h]

/-- A container one of whose children is split stays consistent. -/
theorem cellAt_split_vals (ht : t ≠ .windowpane) (hb : Beside t before a old new) {f : CellInfo}
    (hf : f.type = t) (hp : old.parent = a.parent) {l r : List LayoutCell}
    (h : CellAt f ((l ++ .node a [] :: r).map val)) :
    CellAt f ((l ++ splitLeft before old ++ .node new [] ::
      (splitRight before old ++ r)).map val) := by
  have hlen := h.linked.shape (hf ▸ ht)
  have hlr : l.map val ≠ [] ∨ r.map val ≠ [] := by
    by_contra hn
    rw [not_or, not_not, not_not, List.map_eq_nil_iff, List.map_eq_nil_iff] at hn
    simp [hn.1, hn.2] at hlen
  have hpn : new.parent = a.parent := hb.parent_eq.trans hp
  have hshare := hb.share
  rw [List.map_append, List.map_cons, val_node] at h
  rw [split_vals]
  cases before with
  | true =>
    rw [if_pos rfl] at hshare
    exact (cellAt_split ht hf hlr hshare.size hshare.across₁ hshare.across₂ hpn hp).2 h
  | false =>
    rw [if_neg (by simp)] at hshare
    exact (cellAt_split ht hf hlr hshare.size hshare.across₁ hshare.across₂ hp hpn).2 h

/-- A container of the two cells of a split is consistent. -/
theorem cellAt_nested_vals (ht : t ≠ .windowpane) (hb : Beside t before a old new) {p : CellInfo}
    (hp : p.type = t) (hwp : p.wp = none) (hx : p.sx = a.sx) (hy : p.sy = a.sy)
    (hxo : p.xoff = a.xoff) (hyo : p.yoff = a.yoff) (hold : old.parent = some p.id) :
    CellAt p ((splitLeft before old ++ .node new [] :: splitRight before old).map val) := by
  have hshare : ∀ {fst snd}, Share t a fst snd → Share t p fst snd := by
    rintro fst snd ⟨h₁, h₂, h₃, h₄, h₅, h₆, h₇⟩
    have hsize : ∀ t, p.size t = a.size t := fun t => size_eq_of hx hy
    have hoff : ∀ t, p.off t = a.off t := fun t => by unfold CellInfo.off; split <;> assumption
    exact ⟨by rw [hsize, h₁], by rw [hsize, h₂], by rw [hsize, h₃], by rw [hoff, h₄],
      by rw [hoff, h₅], by rw [hoff, h₆], by rw [hoff, h₇]⟩
  have hnew : new.parent = some p.id := hb.parent_eq.trans hold
  have hb := hb.share
  have hv := split_vals before old new [] []
  rw [List.nil_append, List.append_nil] at hv
  rw [hv]
  cases before with
  | true => exact cellAt_pair ht hp hwp (hshare (by simpa using hb)) hnew hold
  | false => exact cellAt_pair ht hp hwp (hshare (by simpa using hb)) hold hnew

/-- A layout with a cell split stays consistent. -/
theorem SplitOf.cells (ht : t ≠ .windowpane) (hs : SplitOf t before next a old new root c')
    (hb : Beside t before a old new) (h : Cells root) : Cells (fill c' (.node new [])) := by
  obtain ⟨hl, hr⟩ := mem_split before (P := Cells) (cells_leaf hb.old_type)
  have hnew := cells_leaf hb.new_type
  cases hs with
  | @sibling c f l r hf hp =>
    have hc : Cells (fill c (.node f (l ++ .node a [] :: r))) := h
    have hn := everywhere_node.1 (everywhere_fill.1 hc).1
    refine cells_fill (c := c) hc (everywhere_node.2 ⟨cellAt_split_vals ht hb hf hp hn.1, ?_⟩)
      rfl rfl rfl
    simp only [List.forall_mem_append, List.forall_mem_cons] at hn ⊢
    exact ⟨⟨hn.2.1, hl⟩, hnew, hr, hn.2.2.2⟩
  | @nested c p hp hpa hx hy hxo hyo hwp hold =>
    refine cells_fill (c := c) h (everywhere_node.2
      ⟨cellAt_nested_vals ht hb hp hwp hx hy hxo hyo hold, ?_⟩) hpa hx hy
    simp only [List.forall_mem_append, List.forall_mem_cons]
    exact ⟨hl, hnew, hr⟩

/-- The cells of a layout with a cell split, in order: those of the layout, with the
    two cells in the place of the one, below the container created, if any. -/
theorem SplitOf.nodes_eq (hs : SplitOf t before next a old new root c') :
    ∃ B A P, root.nodes = B ++ a :: A ∧
      (fill c' (.node new [])).nodes =
        B ++ (P ++ if before then [new, old] else [old, new]) ++ A ∧
      (∀ p ∈ P, p.type = t ∧ p.wp = none) ∧
      (P.map CellInfo.id ++ [new.id]) = List.range' next (P.length + 1) := by
  have hpair : (splitLeft before old).flatMap nodes ++ new :: (splitRight before old).flatMap nodes =
      if before then [new, old] else [old, new] := by
    cases before <;> simp [splitLeft, splitRight]
  cases hs with
  | @sibling c f l r hf hp hid =>
    refine ⟨RoseTree.before (⟨f, l, r⟩ :: c), RoseTree.after (⟨f, l, r⟩ :: c), [], by simp [nodes_fill],
      ?_, by simp, by simp [hid]⟩
    rw [nodes_fill, ← hpair]
    simp [RoseTree.before, RoseTree.after]
  | @nested c p hp hpa hx hy hxo hyo hwp hold hpid hid =>
    refine ⟨RoseTree.before c, RoseTree.after c, [p], by simp [nodes_fill], ?_, by simp [hp, hwp],
      by simp [hpid, hid, List.range'_succ]⟩
    rw [nodes_fill, ← hpair]
    simp [RoseTree.before, RoseTree.after]

/-- The addresses of a layout with a cell split: new ones from `next` on, and those of
    the layout. -/
theorem SplitOf.cellIds_perm (hs : SplitOf t before next a old new root c')
    (hb : Beside t before a old new) :
    ∃ n, new.id + 1 = next + n ∧
      (cellIds (fill c' (.node new []))).Perm (List.range' next n ++ cellIds root) := by
  obtain ⟨B, A, P, hr, hr', -, hid⟩ := hs.nodes_eq
  refine ⟨P.length + 1, ?_, ?_⟩
  · rw [List.range'_1_concat] at hid
    have := List.append_inj_right' hid rfl
    rw [List.singleton_inj] at this
    omega
  · rw [cellIds, cellIds, hr, hr', ← hid, List.perm_iff_count]
    intro x
    cases before <;> simp [List.count_cons, hb.id_eq] <;> omega

/-- The pointers between cells and panes of a layout with a cell split, in order. -/
theorem SplitOf.leafLinks_eq (ht : t ≠ .windowpane) (hs : SplitOf t before next a old new root c')
    (hb : Beside t before a old new) (ha : a.type = .windowpane) :
    ∃ X Y, leafLinks root = X ++ (some a.id, a.wp) :: Y ∧
      leafLinks (fill c' (.node new [])) = X ++ (if before then
        [(some new.id, new.wp), (some a.id, a.wp)] else [(some a.id, a.wp), (some new.id, new.wp)]) ++
          Y := by
  obtain ⟨B, A, P, hr, hr', hP, -⟩ := hs.nodes_eq
  have hPl : P.filterMap CellInfo.link? = [] := by
    rw [List.filterMap_eq_nil_iff]
    exact fun p hp => if_neg ((hP p hp).1 ▸ ht)
  have hlink : ∀ b : CellInfo, b.type = .windowpane → b.link? = some (some b.id, b.wp) :=
    fun b hb => if_pos hb
  refine ⟨B.filterMap CellInfo.link?, A.filterMap CellInfo.link?, ?_, ?_⟩
  · rw [leafLinks, hr, List.filterMap_append, List.filterMap_cons_some (hlink a ha)]
  · rw [leafLinks, hr', List.filterMap_append, List.filterMap_append, List.filterMap_append, hPl,
      List.nil_append]
    cases before <;>
      simp [hlink old hb.old_type, hlink new hb.new_type, hb.id_eq, hb.wp_eq]

/-- A layout with a cell split has different addresses, and the new ones have not been
    allocated before. -/
theorem SplitOf.ids (hs : SplitOf t before next a old new root c')
    (hb : Beside t before a old new) (h : (cellIds root).Nodup) (hfresh : ∀ id ∈ cellIds root, id < next) :
    (cellIds (fill c' (.node new []))).Nodup ∧
      ∀ id ∈ cellIds (fill c' (.node new [])), id < new.id + 1 := by
  obtain ⟨n, hn, hp⟩ := hs.cellIds_perm hb
  constructor
  · rw [hp.nodup_iff, List.nodup_append]
    refine ⟨List.nodup_range', h, fun x hx y hy => ?_⟩
    have := hfresh y hy
    rw [List.mem_range'_1] at hx
    omega
  · intro id hid
    rw [hp.mem_iff, List.mem_append, List.mem_range'_1] at hid
    rcases hid with hid | hid
    · omega
    · have := hfresh id hid
      omega

/-- The pane in the new cell is not a matter of the split. -/
theorem SplitOf.withPane (hs : SplitOf t before next a old new root c') (wp : Option ℕ) :
    SplitOf t before next a old { new with wp } root c' := by
  cases hs with
  | sibling hf hp hid => exact .sibling hf hp hid
  | nested hp hpa hx hy hxo hyo hwp hold hpid hid =>
    exact .nested hp hpa hx hy hxo hyo hwp hold hpid hid

theorem Beside.withPane (hb : Beside t before a old new) (wp : Option ℕ) :
    Beside t before a old { new with wp } := by
  obtain ⟨h, h₁, h₂, h₃, h₄, h₅⟩ := hb
  refine ⟨?_, h₁, h₂, h₃, h₄, h₅⟩
  cases before with
  | true =>
    obtain ⟨h₁, h₂, h₃, h₄, h₅, h₆, h₇⟩ := h
    exact ⟨h₁, h₂, h₃, h₄, h₅, h₆, h₇⟩
  | false =>
    obtain ⟨h₁, h₂, h₃, h₄, h₅, h₆, h₇⟩ := h
    exact ⟨h₁, h₂, h₃, h₄, h₅, h₆, h₇⟩

/-- Where a cell is: its parent, its size and its offset. -/
def CellInfo.place (lc : CellInfo) : Option ℕ × ℕ × ℕ × ℕ × ℕ :=
  (lc.parent, lc.sx, lc.sy, lc.xoff, lc.yoff)

/-- Splitting a cell keeps the place of the root. -/
theorem SplitOf.place_eq (hs : SplitOf t before next a old new root c') :
    (fill c' (.node new [])).val.place = root.val.place := by
  cases hs with
  | @sibling c f l r hf hp hid =>
    exact fill_val_congr CellInfo.place (Frame.plug ⟨f, l ++ _, _ ++ r⟩ (.node new []))
      (Frame.plug ⟨f, l, r⟩ (.node a [])) rfl c
  | @nested c p hp hpa hx hy hxo hyo hwp hold hpid hid =>
    have hplace : p.place = a.place := by
      rw [CellInfo.place, CellInfo.place, hpa, hx, hy, hxo, hyo]
    exact fill_val_congr CellInfo.place (Frame.plug ⟨p, _, _⟩ (.node new [])) (.node a []) hplace c

end SplitOf

/-! ## Splitting -/

theorem parentOfType_eq {w : Window} {c : List (Frame CellInfo)} {a : CellInfo} {t : LayoutType}
    (h : HasLayout w (fill c (.node a []))) :
    parentOfType (fill c (.node a [])) a t = pure (match c with
      | [] => none
      | f :: _ => if f.val.type = t then some (f.plug (.node a [])) else none) := by
  cases c with
  | nil => rw [parentOfType, show a.parent = none from h.top]
  | cons f c =>
    have hp : a.parent = some f.val.id := parent_of_fill h.cells
    have hf := @findCell_fill c (f.plug (.node a [])) h.ids
    rw [parentOfType, hp]
    exact congrArg (Exec.follow · >>= _) hf

/-- Panes have different identifiers. -/
theorem HasLayout.eq_of_id {w : Window} {root : LayoutCell} (h : HasLayout w root)
    {p q : WindowPane} (hp : p ∈ w.panes) (hq : q ∈ w.panes) (he : q.id = p.id) : q = p :=
  List.inj_on_of_nodup_map h.panes hq hp he

/-- Updating a pane with what it has changes nothing. -/
theorem HasLayout.updatePane_self {w : Window} {root : LayoutCell} (h : HasLayout w root)
    {p : WindowPane} (hp : p ∈ w.panes) {f : WindowPane → WindowPane} (hf : f p = p) :
    w.panes.map (fun q => if isPane p.id q then f q else q) = w.panes := by
  refine (List.map_congr_left fun q hq => ?_).trans (List.map_id' _)
  split
  · next he => rw [h.eq_of_id hp hq (by simpa [isPane] using he), hf]
  · rfl

section Split

variable {w : Window} {t : LayoutType} {p : WindowPane} {c : List (Frame CellInfo)} {a : CellInfo}
  {old new : CellInfo → CellInfo}

/-- Inserting a new cell among the siblings of the cell of a pane. -/
theorem splitSibling_eq {f : Frame CellInfo} (h : HasLayout w (fill (f :: c) (.node a [])))
    (hp : p ∈ w.panes) (hc : p.layoutCell = some a.id) (hw : a.type = .windowpane)
    (hwp : a.wp = some p.id) (hold : (old a).id = a.id) (before : Bool) :
    splitSibling w (fill (f :: c) (.node a [])) (f.plug (.node a [])) a p.id old new before =
      ({ w with
          layoutRoot := some (fill (⟨f.val, f.left ++ splitLeft before (old a),
            splitRight before (old a) ++ f.right⟩ :: c)
              (.node (new (layoutCreateCell w.nextCell (some f.val.id))) []))
          nextCell := w.nextCell + 1 },
        (new (layoutCreateCell w.nextCell (some f.val.id))).id) := by
  have hself : { a with type := .windowpane, wp := some p.id } = a := by rw [← hw, ← hwp]
  have hpanes : w.panes.map (fun q => if isPane p.id q then { q with layoutCell := some a.id } else q) =
      w.panes := h.updatePane_self hp (by rw [← hc])
  obtain ⟨hl, -⟩ := isRoot_eq_false h.ids
  rw [val_node] at hl
  have hroot : ∀ x : CellInfo, x.id = a.id → isRoot a.id (.node x []) = true := fun x hx => by
    simp [isRoot, isCell, hx]
  simp only [splitSibling, hself, Window.updatePane, hpanes, Frame.val_plug, Frame.children_plug]
  rw [Queue.replace_split hl (hroot a rfl), Queue.insertBefore_split hl (hroot _ hold),
    Queue.insertAfter_split hl (hroot _ hold),
    show replaceCell (fill (f :: c) (.node a [])) f.val.id _ = _ from
      @replaceCell_fill c (f.plug (.node a [])) _ h.ids]
  cases before <;> simp [splitLeft, splitRight, fill, Frame.plug]

/-- Putting a container in the place of the cell of a pane. -/
theorem splitNested_eq (h : HasLayout w (fill c (.node a []))) (hp : p ∈ w.panes)
    (hc : p.layoutCell = some a.id) (hw : a.type = .windowpane) (hwp : a.wp = some p.id)
    (before : Bool) :
    splitNested w (fill c (.node a [])) a p.id t old new before =
      ({ w with
          layoutRoot := some (fill (⟨splitParent w a t,
            splitLeft before (old { a with parent := some w.nextCell }),
            splitRight before (old { a with parent := some w.nextCell })⟩ :: c)
              (.node (new (layoutCreateCell (w.nextCell + 1) (some w.nextCell))) []))
          nextCell := w.nextCell + 2 },
        (new (layoutCreateCell (w.nextCell + 1) (some w.nextCell))).id) := by
  have hself : { a with type := .windowpane, wp := some p.id, parent := some w.nextCell } =
      { a with parent := some w.nextCell } := by rw [← hw, ← hwp]
  have hpanes : w.panes.map (fun q => if isPane p.id q then { q with layoutCell := some a.id } else q) =
      w.panes := h.updatePane_self hp (by rw [← hc])
  simp only [splitNested, show (splitParent w a t).id = w.nextCell from rfl, hself, Window.updatePane, hpanes]
  rw [show replaceCell (fill c (.node a [])) a.id _ = _ from @replaceCell_fill c (.node a []) _ h.ids]
  cases before <;> simp [splitLeft, splitRight, fill, Frame.plug]

/-- The cells of a split share the place of the one split. -/
theorem beside_set (ht : t ≠ .windowpane) {s₁ s₂ : ℕ} (hs : s₁ + s₂ + 1 = a.size t)
    (before : Bool) {lc lcnew : CellInfo} (hid : lc.id = a.id) (hwp : lc.wp = a.wp)
    (hw : lc.type = .windowpane) (hn : lcnew.type = .windowpane) (hp : lcnew.parent = lc.parent) :
    Beside t before a (setOld t a s₁ s₂ before lc) (setNew t a s₁ s₂ before lcnew) := by
  obtain ⟨h₁, h₂, h₃, h₄⟩ := setOld_rest t a lc s₁ s₂ before
  obtain ⟨-, h₅, h₆, -⟩ := setNew_rest t a lcnew s₁ s₂ before
  refine ⟨?_, h₁.trans hid, h₄.trans hwp, h₂.trans hw, h₅.trans hn, h₆.trans (hp.trans h₃.symm)⟩
  cases before with
  | true => exact share_setFirst_setSecond ht hs
  | false => exact share_setFirst_setSecond ht hs

/-- The two sizes are those of the cells. -/
theorem size_set (ht : t ≠ .windowpane) (s₁ s₂ : ℕ) (before : Bool) (lc lcnew : CellInfo) :
    (s₁, s₂) =
      if before then ((setNew t a s₁ s₂ before lcnew).size t, (setOld t a s₁ s₂ before lc).size t)
      else ((setOld t a s₁ s₂ before lc).size t, (setNew t a s₁ s₂ before lcnew).size t) := by
  cases t with
  | leftright => cases before <;> rfl
  | topbottom => cases before <;> rfl
  | windowpane => exact absurd rfl ht

end Split

/-- A split is refused when the cell is too small for two panes and a separator, and
    else gives a layout with the cell split, and the new cell in it. -/
theorem layoutSplitPane_cases {w : Window} {root : LayoutCell} (h : HasLayout w root)
    {t : LayoutType} (ht : t ≠ .windowpane) {p : WindowPane} (hp : p ∈ w.panes) (size : ℤ)
    (before : Bool) :
    ∃ c a, root = fill c (.node a []) ∧ a.type = .windowpane ∧ a.wp = some p.id ∧
      w.cellOf p.id = pure (.node a []) ∧
      (a.size t < 5 ∧ layoutSplitPane w p.id t size before = pure none ∨
        5 ≤ a.size t ∧ ∃ old new c' next,
          layoutSplitPane w p.id t size before = pure (some
            ({ w with layoutRoot := some (fill c' (.node new [])), nextCell := next }, new.id)) ∧
          SplitOf t before w.nextCell a old new root c' ∧ Beside t before a old new ∧
          next = new.id + 1 ∧ new.wp = none ∧
          splitSizes (a.size t) size = pure (if before then (new.size t, old.size t)
            else (old.size t, new.size t))) := by
  obtain ⟨c, a, rfl, hw, hwp, hc, hcell⟩ := h.cellOf hp
  refine ⟨c, a, rfl, hw, hwp, hcell, ?_⟩
  rw [layoutSplitPane, hcell, pure_bind]
  dsimp only
  rw [h.root_eq, Exec.follow_some, pure_bind, if_neg ht]
  rcases lt_or_ge (a.size t) 5 with hlt | hge
  · exact .inl ⟨hlt, if_pos hlt⟩
  · refine .inr ⟨hge, ?_⟩
    obtain ⟨s₁, s₂, hs, hsum, -, -, -⟩ := splitSizes_eq hge size
    rw [if_neg (show ¬ a.size t < paneMinimum * 2 + 1 by unfold paneMinimum; omega), hs, pure_bind]
    dsimp only
    rw [parentOfType_eq h, pure_bind]
    have hold := setOld_rest t a
    have hnew := setNew_rest t a
    have nested : ∃ old new c' next,
        (pure (some (splitNested w (fill c (.node a [])) a p.id t (setOld t a s₁ s₂ before)
          (setNew t a s₁ s₂ before) before)) : Exec _) = pure (some
            ({ w with layoutRoot := some (fill c' (.node new [])), nextCell := next }, new.id)) ∧
        SplitOf t before w.nextCell a old new (fill c (.node a [])) c' ∧
        Beside t before a old new ∧ next = new.id + 1 ∧ new.wp = none ∧
        (pure (s₁, s₂) : Exec _) = pure (if before then (new.size t, old.size t)
            else (old.size t, new.size t)) := by
      rw [splitNested_eq h hp hc hw hwp before]
      refine ⟨_, _, _, _, rfl, .nested rfl rfl rfl rfl rfl rfl rfl (hold _ _ _ _).2.2.1 rfl
        (hnew _ _ _ _).1, beside_set ht hsum before rfl rfl hw rfl rfl, ?_, (hnew _ _ _ _).2.2.2,
        congrArg pure (size_set ht s₁ s₂ before _ _)⟩
      rw [(hnew _ _ _ _).1]
      rfl
    cases c with
    | nil => exact nested
    | cons f c =>
      by_cases hf : f.val.type = t
      · simp only [if_pos hf]
        rw [splitSibling_eq h hp hc hw hwp (hold _ _ _ _).1 before]
        refine ⟨_, _, _, _, rfl, .sibling hf (hold _ _ _ _).2.2.1 (hnew _ _ _ _).1,
          beside_set ht hsum before rfl rfl hw rfl (parent_of_fill h.cells).symm, ?_,
          (hnew _ _ _ _).2.2.2, congrArg pure (size_set ht s₁ s₂ before _ _)⟩
        rw [(hnew _ _ _ _).1]
        rfl
      · simp only [if_neg hf]
        exact nested

/-! ## Assigning the new pane -/

/-- Assigning a pane to a cell with nothing below puts it there, and fixes the panes. -/
theorem layoutAssignPane_eq {w : Window} {c : List (Frame CellInfo)} {n : CellInfo}
    (hr : w.layoutRoot = some (fill c (.node n []))) (hw : n.type = .windowpane)
    (hids : (cellIds (fill c (.node n []))).Nodup) {l r : List WindowPane} {q : WindowPane}
    (hp : w.panes = l ++ q :: r) (hl : ∀ p ∈ l, p.id ≠ q.id) (hrest : ∀ p ∈ r, p.id ≠ q.id)
    (hlr : ∀ p ∈ l ++ r, ∀ id, p.layoutCell = some id → id ∈ cellIds (fill c (.node n []))) :
    ∃ panes, layoutAssignPane w n.id q.id = pure
        { w with layoutRoot := some (fill c (.node { n with wp := some q.id } [])), panes } ∧
      List.Forall₂ (fun p p' =>
        fixPane (fill c (.node { n with wp := some q.id } [])) w.sx w.sy p = pure p')
        (l ++ { q with layoutCell := some n.id } :: r) panes ∧
      panes.map WindowPane.id = (l ++ q :: r).map WindowPane.id ∧
      panes.map WindowPane.link =
        (l ++ { q with layoutCell := some n.id } :: r).map WindowPane.link := by
  have hnew : { n with type := .windowpane, wp := some q.id } = { n with wp := some q.id } := by
    rw [← hw]
  have hpanes : w.panes.map (fun p => if isPane q.id p then { p with layoutCell := some n.id } else p) =
      l ++ { q with layoutCell := some n.id } :: r := by
    rw [hp, List.map_append, List.map_cons, if_pos (by simp [isPane])]
    congr 1
    · refine (List.map_congr_left fun p hpl => ?_).trans (List.map_id' _)
      rw [if_neg (by simpa [isPane] using hl p hpl)]
    · congr 1
      refine (List.map_congr_left fun p hpr => ?_).trans (List.map_id' _)
      rw [if_neg (by simpa [isPane] using hrest p hpr)]
  have hids' : cellIds (fill c (.node { n with wp := some q.id } [])) =
      cellIds (fill c (.node n [])) := by
    rw [cellIds_fill, cellIds_fill]; rfl
  have hmem : ∀ p ∈ l ++ { q with layoutCell := some n.id } :: r, ∀ id, p.layoutCell = some id →
      id ∈ cellIds (fill c (.node { n with wp := some q.id } [])) := by
    intro p hp id hid
    rw [hids']
    rcases List.mem_append.1 hp with hp | hp
    · exact hlr p (List.mem_append_left _ hp) id hid
    · rcases List.mem_cons.1 hp with rfl | hp
      · obtain rfl : n.id = id := Option.some_inj.1 hid
        rw [cellIds_fill]
        simp [cellIds]
      · exact hlr p (List.mem_append_right _ hp) id hid
  obtain ⟨panes, h, hf, hid, hlink⟩ := layoutFixPanes_eq
    (w := { w with
      layoutRoot := some (fill c (.node { n with wp := some q.id } []))
      panes := l ++ { q with layoutCell := some n.id } :: r })
    rfl (hids' ▸ hids) hmem w.sx w.sy
  refine ⟨panes, ?_, hf, by simpa using hid, hlink⟩
  rw [layoutAssignPane, layoutMakeLeaf, hr, Exec.follow_some, pure_bind,
    show findCell (fill c (.node n [])) n.id = _ from findCell_fill hids, Exec.follow_some,
    pure_bind, pure_bind, val_node, hnew,
    show replaceCell (fill c (.node n [])) n.id _ = _ from replaceCell_fill hids]
  simp only [Window.updatePane, hpanes]
  exact h

/-- Split a pane, and assign a new pane, linked after the active one, to the new cell. -/
def splitPane (w : Window) (wp : ℕ) (type : LayoutType) (size : ℤ) (insertBefore : Bool)
    (active new : ℕ) : Exec Window := do
  match ← layoutSplitPane w wp type size insertBefore with
  | none => pure w
  | some (w, lc) => do
    let w ← windowAddPane { w with active := some active } new
    layoutAssignPane w lc new

/-- A new pane is linked after the active one. -/
theorem windowAddPane_eq {w : Window} {l r : List WindowPane} {act : WindowPane}
    (hp : w.panes = l ++ act :: r) (hl : ∀ p ∈ l, p.id ≠ act.id) (hact : w.active = some act.id)
    (new : ℕ) :
    windowAddPane w new = pure { w with panes := l ++ act :: windowPaneCreate w new :: r } := by
  have hl' : ∀ p ∈ l, isPane act.id p = false := fun p h => by simpa [isPane] using hl p h
  have hact' : isPane act.id act = true := by simp [isPane]
  have hfind : w.findPane act.id = some act := by
    rw [Window.findPane, hp, Queue.find?_split hl' hact']
  rw [windowAddPane, if_neg (by simp [hp]), hact, Exec.follow_some, pure_bind, hfind,
    Exec.follow_some, pure_bind, hp, Queue.insertAfter_split hl' hact']

/-- What is linked after the active pane is new. -/
theorem perm_linked {β : Type*} (f : WindowPane → β) (l r : List WindowPane) (act q : WindowPane) :
    ((l ++ act :: q :: r).map f).Perm (f q :: (l ++ act :: r).map f) := by
  have h : ((l ++ [act]).map f ++ f q :: r.map f).Perm (f q :: ((l ++ [act]).map f ++ r.map f)) :=
    List.perm_middle
  simpa using h

/-- Splitting a pane is refused when its cell is too small for two panes and a
    separator, changing nothing, and else gives a layout with the cell split and the
    new pane in the new cell. -/
theorem splitPane_cases {w : Window} {root : LayoutCell} (h : HasLayout w root) {t : LayoutType}
    (ht : t ≠ .windowpane) {p act : WindowPane} (hp : p ∈ w.panes) (hact : act ∈ w.panes)
    {new : ℕ} (hnew : new ∉ w.paneIds) (size : ℤ) (before : Bool) :
    ∃ c a, root = fill c (.node a []) ∧ a.type = .windowpane ∧ a.wp = some p.id ∧
      w.cellOf p.id = pure (.node a []) ∧
      (a.size t < 5 ∧ splitPane w p.id t size before act.id new = pure w ∨
        5 ≤ a.size t ∧ ∃ old lcnew c' panes l r,
          let w' := { w with
            active := some act.id
            layoutRoot := some (fill c' (.node lcnew []))
            nextCell := lcnew.id + 1
            panes }
          splitPane w p.id t size before act.id new = pure w' ∧
          HasLayout w' (fill c' (.node lcnew [])) ∧
          SplitOf t before w.nextCell a old lcnew root c' ∧ Beside t before a old lcnew ∧
          lcnew.wp = some new ∧
          splitSizes (a.size t) size = pure (if before then (lcnew.size t, old.size t)
            else (old.size t, lcnew.size t)) ∧
          w.panes = l ++ act :: r ∧
          List.Forall₂ (fun p p' => fixPane (fill c' (.node lcnew [])) w.sx w.sy p = pure p')
            (l ++ act :: { windowPaneCreate w new with layoutCell := some lcnew.id } :: r) panes) := by
  obtain ⟨c, a, hroot, hw, hwp, hcell, hcases⟩ := layoutSplitPane_cases h ht hp size before
  refine ⟨c, a, hroot, hw, hwp, hcell, ?_⟩
  rcases hcases with ⟨hlt, hnone⟩ | ⟨hge, old, lcnew, c', next, hsome, hs, hb, rfl, hwpn, hsz⟩
  · exact .inl ⟨hlt, by rw [splitPane, hnone, pure_bind]⟩
  · refine .inr ⟨hge, old, { lcnew with wp := some new }, c', ?_⟩
    obtain ⟨l, r, hlr⟩ := List.append_of_mem hact
    obtain ⟨hids, hfresh⟩ := hs.ids hb h.ids h.fresh
    have hnd := h.panes
    rw [Window.paneIds, hlr] at hnd hnew
    have hl : ∀ p ∈ l, p.id ≠ act.id := by
      rw [List.map_append, List.map_cons, List.nodup_append] at hnd
      exact fun p hp => hnd.2.2 _ (List.mem_map_of_mem hp) _ List.mem_cons_self
    have hne : ∀ p ∈ w.panes, p.id ≠ new := by
      rw [hlr]
      exact fun p hp e => hnew (e ▸ List.mem_map_of_mem hp)
    have hmem : ∀ p ∈ w.panes, ∀ id, p.layoutCell = some id →
        id ∈ cellIds (fill c' (.node lcnew [])) := fun p hp id hid => by
      obtain ⟨n, -, hperm⟩ := hs.cellIds_perm hb
      exact hperm.mem_iff.2 (List.mem_append_right _ (h.mem_cellIds hp hid))
    -- The window once the pane is split and the new one is linked.
    set w₁ := { w with
      active := some act.id
      layoutRoot := some (fill c' (.node lcnew []))
      nextCell := lcnew.id + 1
      panes := l ++ act :: windowPaneCreate w new :: r } with hw₁
    have hadd : windowAddPane { w with
        layoutRoot := some (fill c' (.node lcnew []))
        nextCell := lcnew.id + 1
        active := some act.id } new = pure w₁ :=
      windowAddPane_eq (w := { w with
        layoutRoot := some (fill c' (.node lcnew []))
        nextCell := lcnew.id + 1
        active := some act.id }) hlr hl rfl new
    obtain ⟨panes, hassign, hf, hid, hlink⟩ := layoutAssignPane_eq (w := w₁) (c := c')
      (n := lcnew) (l := l ++ [act]) (r := r) (q := windowPaneCreate w new) rfl hb.new_type hids
      (by simp [hw₁]) (fun p hp => hne p (by rw [hlr]; simp at hp ⊢; tauto))
      (fun p hp => hne p (by rw [hlr]; simp [hp]))
      (fun p hp => hmem p (by rw [hlr]; simp at hp ⊢; tauto))
    rw [List.append_assoc, List.singleton_append] at hf hid hlink
    refine ⟨panes, l, r, ?_, ?_, hs.withPane _, hb.withPane _, rfl, hsz, hlr, hf⟩
    · rw [splitPane, hsome, pure_bind]
      dsimp only
      rw [hadd, pure_bind]
      exact hassign
    · have hids' : cellIds (fill c' (.node { lcnew with wp := some new } [])) =
          cellIds (fill c' (.node lcnew [])) := by
        rw [cellIds_fill, cellIds_fill]; rfl
      refine ⟨rfl, (hs.withPane _).cells ht (hb.withPane _) h.cells, ?_, hids' ▸ hids,
        hids' ▸ hfresh, ?_, ?_⟩
      · exact (congrArg Prod.fst (hs.withPane (some new)).place_eq).trans h.top
      · rw [Window.paneIds, hid]
        exact (perm_linked WindowPane.id l r act _).nodup_iff.2 (List.nodup_cons.2 ⟨hnew, hnd⟩)
      · obtain ⟨X, Y, hX, hX'⟩ := (hs.withPane (some new)).leafLinks_eq ht (hb.withPane _) hw
        rw [hX', hlink]
        refine .trans ?_ (perm_linked WindowPane.link l r act _).symm
        rw [← hlr]
        refine .trans ?_ (h.links.cons _)
        rw [hX]
        cases before with
        | true =>
          rw [if_pos rfl, List.append_assoc]
          exact List.perm_middle
        | false =>
          show (X ++ [(some a.id, a.wp), (some lcnew.id, some new)] ++ Y).Perm
            ((some lcnew.id, some new) :: (X ++ (some a.id, a.wp) :: Y))
          have hperm : (X ++ [(some a.id, a.wp)] ++ (some lcnew.id, some new) :: Y).Perm
              ((some lcnew.id, some new) :: (X ++ [(some a.id, a.wp)] ++ Y)) := List.perm_middle
          simpa using hperm

end Tmux
