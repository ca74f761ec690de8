import Tmux.Arguments
import Tmux.Layout.Run

/-!
# Minimum sizes

No pane of a layout gets smaller than the minimum, as long as the hints of the
splits leave as much to both cells (`layoutRun_roomy`): the code takes the
minimum and its own separator off the size of the second cell, but leaves a
single cell to the first.

A layout whose panes have the minimum size can shrink, along an axis, by its size
less the least size of its shape (`layoutResizeCheck_add_leastSize`). Resizing
the window therefore takes the root to the size asked for, or to the least one if
that is larger, unless the root was larger than the window and could shrink: the
change is taken from the size of the window, not of the root
(`layoutResize_reaches`).
-/

namespace Tmux

open RoseTree

/-- The size of a cell is a signed word, as the changes of sizes are. -/
def Sized (t : LayoutType) (lc : LayoutCell) : Prop := lc.val.size t ≤ intMax

/-- No cell of a tree that fits is larger than the root. -/
theorem Fits.size_le {t : LayoutType} (ht : t ≠ .windowpane) {lc : LayoutCell} (h : Fits t lc) :
    ∀ c ∈ lc.nodes, c.size t ≤ lc.val.size t := by
  induction lc using RoseTree.induct with
  | node lc cells ih =>
    rw [nodes_node, List.forall_mem_cons]
    refine ⟨le_rfl, fun c hc => ?_⟩
    obtain ⟨d, hd, hc⟩ := List.mem_flatMap.1 hc
    have hcells := (fits_node.1 h).2
    refine (ih d hd (hcells d hd) c hc).trans ?_
    have hw : lc.type ≠ .windowpane := fun hw => by
      rw [(fits_windowpane hw).1 h] at hd
      exact absurd hd List.not_mem_nil
    rw [val_node]
    by_cases hlc : lc.type = t
    · have hsum := ((fits_along ht hlc).1 h).1
      have hle : d.val.size t ≤ (cells.map fun c : LayoutCell => c.val.size t).sum :=
        List.single_le_sum (fun _ _ => Nat.zero_le _) _ (List.mem_map_of_mem hd)
      have := List.length_pos_of_mem hd
      omega
    · exact (((fits_across hw hlc).1 h).2.1 d hd).le

/-! ## Runs -/

/-- The hint of a split leaves the minimum to both cells, and the sizes asked for keep the
    root within a signed word. -/
def LayoutOp.Fitting (w : Window) : LayoutOp → Prop
  | split wp type size _ _ _ =>
    ∀ lc ∈ (w.cellOf wp).value?, 5 ≤ lc.val.size type → size + 3 ≤ lc.val.size type
  | resize sx sy _ => ∀ root ∈ w.layoutRoot, sx ≤ intMax ∧ sy ≤ intMax ∧
    root.val.sx + sx ≤ intMax + w.sx ∧ root.val.sy + sy ≤ intMax + w.sy
  | _ => True

instance (w : Window) : DecidablePred (LayoutOp.Fitting w)
  | .split wp type size _ _ _ => inferInstanceAs <| Decidable <|
    ∀ lc ∈ (w.cellOf wp).value?, 5 ≤ lc.val.size type → size + 3 ≤ lc.val.size type
  | .resize sx sy _ => inferInstanceAs <| Decidable <| ∀ root ∈ w.layoutRoot, sx ≤ intMax ∧ sy ≤ intMax ∧
    root.val.sx + sx ≤ intMax + w.sx ∧ root.val.sy + sy ≤ intMax + w.sy
  | .close _ => inferInstanceAs (Decidable True)
  | .resizePane _ _ _ => inferInstanceAs (Decidable True)

/-- The panes of a layout have the minimum size, and its sizes are signed words. -/
structure Ample (root : LayoutCell) : Prop where
  roomy : ∀ t ≠ .windowpane, Roomy t root
  sized : ∀ t ≠ .windowpane, Sized t root

theorem roomy_fill {s : LayoutType} {c : List (Frame CellInfo)} {lc lc' : LayoutCell}
    (h : Roomy s (fill c lc)) (hr : Roomy s lc → Roomy s lc') : Roomy s (fill c lc') := by
  unfold Roomy at *
  simp only [nodes_fill, List.forall_mem_append] at h ⊢
  exact ⟨⟨h.1.1, hr h.1.2⟩, h.2⟩

/-- The cells of a split are as large as the minimum, if the hint leaves as much to both. -/
theorem SplitOf.roomy {t s : LayoutType} (ht : t ≠ .windowpane) (hs : s ≠ .windowpane) {before : Bool}
    {next : ℕ} {a old new : CellInfo} {root : LayoutCell} {c : List (Frame CellInfo)}
    (h : SplitOf t before next a old new root c) (hb : Beside t before a old new)
    (ha : a.type = .windowpane) (hold : 2 ≤ old.size t) (hnew : 2 ≤ new.size t)
    (hr : Roomy s root) : Roomy s (fill c (.node new [])) := by
  obtain ⟨B, A, P, hroot, hroot', hP, -⟩ := h.nodes_eq
  have hmem : a ∈ root.nodes := by simp [hroot]
  have hpair : 2 ≤ old.size s ∧ 2 ≤ new.size s := by
    by_cases hst : s = t
    · exact hst ▸ ⟨hold, hnew⟩
    · obtain rfl := eq_across ht hs hst
      have hshare := hb.share
      have hsize : 2 ≤ a.size t.across := hr a hmem ha
      cases before with
      | true => exact ⟨hshare.across₂ ▸ hsize, hshare.across₁ ▸ hsize⟩
      | false => exact ⟨hshare.across₁ ▸ hsize, hshare.across₂ ▸ hsize⟩
  unfold Roomy at hr ⊢
  rw [hroot'] 
  rw [hroot] at hr
  simp only [List.forall_mem_append, List.forall_mem_cons] at hr ⊢
  refine ⟨⟨hr.1, fun p hp hw => absurd ((hP p hp).1.symm.trans hw) ht, ?_⟩, hr.2.2⟩
  cases before <;> simp [paneMinimum, hpair]

/-- The root stays within a signed word. -/
theorem add_resizeChange_le {lc : LayoutCell} {t : LayoutType} {wsize size : ℕ}
    (hlc : lc.val.size t ≤ intMax) (hsize : size ≤ intMax)
    (h : lc.val.size t + size ≤ intMax + wsize) :
    (lc.val.size t : ℤ) + resizeChange lc t wsize size ≤ intMax := by
  unfold resizeChange
  dsimp only
  split_ifs <;> omega

theorem size_of_extent {t : LayoutType} {v v' : CellInfo} (h : v'.extent = v.extent) :
    v'.size t = v.size t :=
  size_eq_of (congrArg (·.2.1) h) (congrArg (·.2.2) h)

theorem extent_of_place {v v' : CellInfo} (h : v'.place = v.place) : v'.extent = v.extent :=
  congrArg (fun p => (p.1, p.2.1, p.2.2.1)) h

/-- A step meeting the condition keeps the panes of the minimum size. -/
theorem LayoutChange.ample {w w' : Window} {op : LayoutOp} {root root' : LayoutCell}
    (hc : LayoutChange w w' op root root') (h : HasLayout w root) (hop : op.Fitting w)
    (ha : Ample root) : Ample root' := by
  cases hc with
  | none => exact ha
  | @split wp t size before active new _ a old lcnew c ht hcell hw hmem hge hs hb hsize =>
    obtain ⟨s₁, s₂, hsplit, -, h₂, -, h₁⟩ := splitSizes_eq hge size
    have hfit : size + 3 ≤ a.size t := hop (.node a []) (by rw [hcell]; rfl) hge
    rw [hsplit, Exec.pure_inj] at hsize
    have hsizes : 2 ≤ old.size t ∧ 2 ≤ lcnew.size t := by
      cases before <;> simp only [if_true, Bool.false_eq_true, if_false, Prod.mk.injEq] at hsize <;>
        omega
    refine ⟨fun s hs' => hs.roomy ht hs' hb hw hsizes.1 hsizes.2 (ha.roomy s hs'), fun s hs' => ?_⟩
    rw [Sized, size_of_extent (extent_of_place hs.place_eq)]
    exact ha.sized s hs'
  | @merge wp a o o' _ root' hm =>
    refine ⟨fun s hs => (layoutFixOffsets_moved root').roomy (hm.roomy hs h.cells (ha.roomy s hs)),
      fun s hs => ?_⟩
    rw [Sized, val_layoutFixOffsets, size_of_extent (hm.extent_eq h.cells)]
    exact ha.sized s hs
  | @move wp t change c lc lc' ht hr =>
    refine ⟨fun s hs => (layoutFixOffsets_moved _).roomy
      (roomy_fill (ha.roomy s hs) (hr.roomy_of ht hs)), fun s hs => ?_⟩
    have hsize : lc'.val.size s = lc.val.size s := by
      have := hr.size
      by_cases hst : s = t
      · rw [hst]
        omega
      · rw [eq_across ht hs hst]
        exact hr.size_across
    rw [Sized, val_layoutFixOffsets, fill_val_congr (CellInfo.size · s) lc' lc hsize c]
    exact ha.sized s hs
  | @resize sx sy record _ lc₁ lc₂ h₁ h₂ =>
    obtain ⟨hx, hy, hwx, hwy⟩ := hop root h.root_eq
    refine ⟨fun s hs => (layoutFixOffsets_moved lc₂).roomy
      (h₂.roomy_of (by simp) hs (h₁.roomy_of (by simp) hs (ha.roomy s hs))), fun s hs => ?_⟩
    have hx₁ := h₁.size
    have hy₂ := h₂.size
    have hx₂ : lc₂.val.size .leftright = lc₁.val.size .leftright := h₂.size_across
    have hy₁ : lc₁.val.size .topbottom = root.val.size .topbottom := h₁.size_across
    have hxle : (root.val.size .leftright : ℤ) + resizeChange root .leftright w.sx sx ≤ intMax :=
      add_resizeChange_le (ha.sized _ (by simp)) hx hwx
    have hyle : (lc₁.val.size .topbottom : ℤ) + resizeChange lc₁ .topbottom w.sy sy ≤ intMax :=
      add_resizeChange_le (hy₁ ▸ ha.sized _ (by simp)) hy (hy₁ ▸ hwy)
    rw [Sized, val_layoutFixOffsets]
    cases s with
    | leftright => omega
    | topbottom => omega
    | windowpane => exact absurd rfl hs

/-- A layout of a single pane. -/
theorem ample_leaf {lc : CellInfo} (hx : paneMinimum ≤ lc.sx ∧ lc.sx ≤ intMax)
    (hy : paneMinimum ≤ lc.sy ∧ lc.sy ≤ intMax) : Ample (.node lc []) where
  roomy t _ := by
    rw [roomy_node]
    refine ⟨fun _ => ?_, by simp⟩
    unfold CellInfo.size
    split <;> [exact hx.1; exact hy.1]
  sized t _ := by
    unfold Sized CellInfo.size
    split <;> [exact hx.2; exact hy.2]

/-- The states reached by the runs whose steps meet the condition. -/
theorem layoutRun_ample {id wp sx sy : ℕ} (hx : paneMinimum ≤ sx ∧ sx ≤ intMax)
    (hy : paneMinimum ≤ sy ∧ sy ≤ intMax) {ops : List LayoutOp}
    (hops : Exec.Along layoutStep LayoutOp.Fitting (newWindow id wp sx sy) ops) :
    ∃ w root, (windowCreate id wp sx sy >>= (layoutRun · ops)) = pure w ∧ HasLayout w root ∧
      Ample root := by
  obtain ⟨w, hrun, root, h, ha⟩ := Exec.foldlM_along (I := fun w => ∃ root, HasLayout w root ∧ Ample root)
    (fun w op hop ⟨root, h, ha⟩ => by
      obtain ⟨w', root', hstep, h', hc⟩ := layoutStep_cases h op
      exact ⟨w', hstep, root', h', hc.ample h hop ha⟩) hops
    ⟨_, newWindow_hasLayout id wp sx sy, ample_leaf hx hy⟩
  exact ⟨w, root, by rw [windowCreate_eq, pure_bind]; exact hrun, h, ha⟩

/-- In every run whose steps meet the condition, nothing wraps, and no pane is smaller than
    the minimum. -/
theorem layoutRun_roomy {id wp sx sy : ℕ} (hx : paneMinimum ≤ sx ∧ sx ≤ intMax)
    (hy : paneMinimum ≤ sy ∧ sy ≤ intMax) {ops : List LayoutOp}
    (hops : Exec.Along layoutStep LayoutOp.Fitting (newWindow id wp sx sy) ops) :
    ∃ w root, (windowCreate id wp sx sy >>= (layoutRun · ops)) = pure w ∧
      w.layoutRoot = some root ∧ (∀ c ∈ leaves root, paneMinimum ≤ c.sx ∧ paneMinimum ≤ c.sy) ∧
      ∀ c ∈ root.nodes, c.sx ≤ intMax ∧ c.sy ≤ intMax := by
  obtain ⟨w, root, hrun, h, ha⟩ := layoutRun_ample hx hy hops
  refine ⟨w, root, hrun, h.root_eq, fun c hc => ?_, fun c hc => ?_⟩
  · obtain ⟨hc, hw⟩ := List.mem_filter.1 hc
    exact ⟨ha.roomy .leftright (by simp) c hc (by simpa using hw),
      ha.roomy .topbottom (by simp) c hc (by simpa using hw)⟩
  · exact ⟨((h.cells.fits (by simp)).size_le (t := .leftright) (by simp) c hc).trans
      (ha.sized .leftright (by simp)),
      ((h.cells.fits (by simp)).size_le (t := .topbottom) (by simp) c hc).trans
      (ha.sized .topbottom (by simp))⟩

/-- A run of splits, with a hint and without, a resize, a close and window resizes. -/
theorem layoutRun_roomy_run : ∃ w root, (windowCreate 0 0 80 24 >>= (layoutRun ·
    [.split 0 .leftright 30 false 0 1, .split 1 .topbottom (-1) true 0 2, .resizePane 2 .leftright 5,
      .resize 20 10 true, .close 0, .resize 132 50 true])) = pure w ∧
      w.layoutRoot = some root ∧ (∀ c ∈ leaves root, paneMinimum ≤ c.sx ∧ paneMinimum ≤ c.sy) ∧
      ∀ c ∈ root.nodes, c.sx ≤ intMax ∧ c.sy ≤ intMax :=
  layoutRun_roomy (by decide) (by decide) (by decide +kernel)

/-- With a large hint, the first of two panes is left a single column. -/
theorem layoutRun_not_roomy : ¬ ∀ (id wp sx sy : ℕ) (ops : List LayoutOp),
    paneMinimum ≤ sx → paneMinimum ≤ sy →
    ∀ w ∈ (windowCreate id wp sx sy >>= (layoutRun · ops)).value?, ∀ root ∈ w.layoutRoot,
      ∀ c ∈ leaves root, paneMinimum ≤ c.sx ∧ paneMinimum ≤ c.sy := by
  intro h
  have := h 0 0 80 24 [.split 0 .leftright 100 false 0 1] (by decide) (by decide)
  revert this
  decide +kernel

/-! ## The least size -/

mutual

/-- The least size a tree of a given shape can have: the minimum for each pane, the sum
    and the separators in a container running along the axis, and the maximum in one
    running across it. -/
def leastSize (t : LayoutType) : LayoutCell → ℕ
  | .node lc cells =>
    if lc.type = .windowpane then paneMinimum
    else if lc.type = t then (leastSizes t cells).sum + (cells.length - 1)
    else (leastSizes t cells).foldr max 0

/-- The least sizes of a list of trees. -/
def leastSizes (t : LayoutType) : List LayoutCell → List ℕ
  | [] => []
  | lc :: cells => leastSize t lc :: leastSizes t cells

end

theorem leastSizes_eq (t : LayoutType) (cells : List LayoutCell) :
    leastSizes t cells = cells.map (leastSize t) := by
  induction cells with
  | nil => rfl
  | cons c cells ih => rw [leastSizes, ih, List.map_cons]

theorem foldr_max_le {l : List ℕ} {k : ℕ} : l.foldr max 0 ≤ k ↔ ∀ a ∈ l, a ≤ k := by
  induction l with
  | nil => simp
  | cons a l ih => rw [List.foldr_cons, max_le_iff, ih, List.forall_mem_cons]

/-- The least size depends on the types of the cells only. -/
theorem leastSize_map (t : LayoutType) {f : CellInfo → CellInfo} (hf : ∀ a, (f a).type = a.type)
    (lc : LayoutCell) : leastSize t (lc.map f) = leastSize t lc := by
  induction lc using RoseTree.induct with
  | node lc cells ih =>
    have hmap : cells.map (leastSize t ∘ RoseTree.map f) = cells.map (leastSize t) :=
      List.map_congr_left ih
    rw [map_node, leastSize, leastSize, leastSizes_eq, leastSizes_eq, List.map_map, hf,
      List.length_map, hmap]

theorem Resized.leastSize_eq {t s : LayoutType} {change : ℤ} {lc lc' : LayoutCell}
    (h : Resized s change lc lc') : leastSize t lc' = leastSize t lc := by
  have herase := leastSize_map t fun a => a.type_withSize s 0
  rw [← herase lc', ← herase lc]
  exact congrArg _ h.rest

theorem Moved.leastSize_eq {t : LayoutType} {lc lc' : LayoutCell} (h : Moved lc lc') :
    leastSize t lc' = leastSize t lc := by
  have herase := leastSize_map t CellInfo.type_eraseOffset
  rw [← herase lc', ← herase lc]
  exact congrArg _ h

/-- What a list of cells can give, and the least sizes of the cells, are their sizes, if they are for
    every cell. -/
theorem checkSum_add_leastSizes {t : LayoutType} {cells : List LayoutCell}
    (h : ∀ c ∈ cells, layoutResizeCheck t c + leastSize t c = c.val.size t) :
    (cells.map (layoutResizeCheck t)).sum + (cells.map (leastSize t)).sum =
      (cells.map fun c => c.val.size t).sum := by
  rw [← List.sum_map_add, List.map_congr_left h]

/-- A layout whose panes have the minimum size can shrink to its least size. -/
theorem layoutResizeCheck_add_leastSize {t : LayoutType} (ht : t ≠ .windowpane) {lc : LayoutCell}
    (hf : Fits t lc) (hr : Roomy t lc) (hs : lc.val.size t ≤ uintMax) :
    layoutResizeCheck t lc + leastSize t lc = lc.val.size t := by
  induction lc using RoseTree.induct with
  | node lc cells ih =>
    rw [roomy_node] at hr
    rw [val_node] at hs ⊢
    by_cases hw : lc.type = .windowpane
    · have := hr.1 hw
      rw [layoutResizeCheck_windowpane hw, leastSize, if_pos hw]
      omega
    have hne := hf.ne_nil ht hw
    have hle : ∀ c ∈ cells, c.val.size t ≤ lc.size t := fun c hc =>
      hf.size_le ht c.val (nodes_subset_of_mem hc c.val_mem_nodes)
    have ih : ∀ c ∈ cells, layoutResizeCheck t c + leastSize t c = c.val.size t := fun c hc =>
      ih c hc ((fits_node.1 hf).2 c hc) (hr.2 c hc) ((hle c hc).trans hs)
    by_cases hlc : lc.type = t
    · have hsum := ((fits_along ht hlc).1 hf).1
      have hadd := checkSum_add_leastSizes ih
      have := List.length_pos_iff.2 hne
      rw [layoutResizeCheck_along ht hlc, leastSize, if_neg hw, if_pos hlc, leastSizes_eq]
      omega
    · obtain ⟨-, hsize, -⟩ := (fits_across hw hlc).1 hf
      have hleast : leastSize t (.node lc cells) = (cells.map (leastSize t)).foldr max 0 := by
        rw [leastSize, if_neg hw, if_neg hlc, leastSizes_eq]
      have hmax : ∀ c ∈ cells, leastSize t c ≤ leastSize t (.node lc cells) := fun c hc => by
        rw [hleast]
        exact foldr_max_le.1 le_rfl _ (List.mem_map_of_mem hc)
      -- What is available is at most what any child can give, and some child has the
      -- least size of the container.
      have h₁ : leastSize t (.node lc cells) ≤ lc.size t - layoutResizeCheck t (.node lc cells) := by
        rw [hleast, foldr_max_le, List.forall_mem_map]
        intro c hc
        have := ((le_layoutResizeCheck_across hw hlc).1 le_rfl).2 c hc
        have := ih c hc
        have := hsize c hc
        omega
      have h₂ : lc.size t - leastSize t (.node lc cells) ≤ layoutResizeCheck t (.node lc cells) := by
        refine (le_layoutResizeCheck_across hw hlc).2 ⟨by omega, fun c hc => ?_⟩
        have := ih c hc
        have := hsize c hc
        have := hmax c hc
        omega
      obtain ⟨c, hc⟩ := List.exists_mem_of_ne_nil cells hne
      have := ((le_layoutResizeCheck_across hw hlc).1 le_rfl).2 c hc
      have := hsize c hc
      have := ih c hc
      omega

/-! ## Reaching the size asked for -/

/-- The operation records the size of the window after a resize. -/
def LayoutOp.Records : LayoutOp → Prop
  | resize _ _ record => record = true
  | _ => True

instance : DecidablePred LayoutOp.Records
  | .resize _ _ record => inferInstanceAs (Decidable (record = true))
  | .split _ _ _ _ _ _ => inferInstanceAs (Decidable True)
  | .close _ => inferInstanceAs (Decidable True)
  | .resizePane _ _ _ => inferInstanceAs (Decidable True)

/-- A root no smaller than the window. -/
def Covers (w : Window) (root : LayoutCell) : Prop := w.sx ≤ root.val.sx ∧ w.sy ≤ root.val.sy

/-- Resizing the root reaches the size asked for, or the least one if that is larger,
    exactly if the root is as small as it can be, or as large as the window, or if the
    change would take it below the least size. -/
theorem add_resizeChange_eq_iff {t : LayoutType} (ht : t ≠ .windowpane) {lc : LayoutCell}
    (hf : Fits t lc) (hr : Roomy t lc) (hs : lc.val.size t ≤ uintMax) {wsize : ℕ}
    (hw : wsize ≤ lc.val.size t) (size : ℕ) :
    (lc.val.size t : ℤ) + resizeChange lc t wsize size =
      (if leastSize t lc ≤ size then size else leastSize t lc : ℕ) ↔
    lc.val.size t = leastSize t lc ∨ lc.val.size t = wsize ∨
      lc.val.size t + size ≤ leastSize t lc + wsize := by
  have := layoutResizeCheck_add_leastSize ht hf hr hs
  unfold resizeChange
  dsimp only
  split_ifs <;> omega

/-- The root grows to the size recorded for the window. -/
theorem le_add_resizeChange {lc : LayoutCell} {t : LayoutType} {wsize size : ℕ}
    (hw : wsize ≤ lc.val.size t) : (size : ℤ) ≤ lc.val.size t + resizeChange lc t wsize size := by
  unfold resizeChange
  dsimp only
  split_ifs <;> omega

/-- A root stays no smaller than the window, if its size is recorded after every resize. -/
theorem LayoutChange.covers {w w' : Window} {op : LayoutOp} {root root' : LayoutCell}
    (hc : LayoutChange w w' op root root') (h : HasLayout w root) (hop : op.Records)
    (hw : Covers w root) : Covers w' root' := by
  have same : w'.sx = w.sx ∧ w'.sy = w.sy → root'.val.extent = root.val.extent →
      Covers w' root' := by
    rintro ⟨hx, hy⟩ he
    rw [Covers, hx, hy, show root'.val.sx = root.val.sx from congrArg (·.2.1) he,
      show root'.val.sy = root.val.sy from congrArg (·.2.2) he]
    exact hw
  cases hc with
  | none hop hw' => exact same ⟨congrArg _ hw', congrArg _ hw'⟩ rfl
  | split ht hcell ha hmem hge hs hb hsize hw' => exact same hw' (extent_of_place hs.place_eq)
  | merge hm hw' => exact same hw' (by rw [val_layoutFixOffsets]; exact hm.extent_eq h.cells)
  | @move wp t change c lc lc' ht hr hw' =>
    refine same hw' ?_
    have hsize := hr.size
    obtain ⟨hx, hy⟩ := sx_sy_of_size ht (by omega) hr.size_across
    rw [val_layoutFixOffsets]
    exact fill_val_congr CellInfo.extent lc' lc
      (by rw [CellInfo.extent, CellInfo.extent, hr.parent_eq, hx, hy]) c
  | @resize sx sy record _ lc₁ lc₂ h₁ h₂ hw' =>
    obtain rfl : record = true := hop
    obtain ⟨hx, hy⟩ := hw'
    have hx₁ := h₁.size
    have hy₂ := h₂.size
    have hx₂ : lc₂.val.size .leftright = lc₁.val.size .leftright := h₂.size_across
    have hy₁ : lc₁.val.size .topbottom = root.val.size .topbottom := h₁.size_across
    have hxle : (sx : ℤ) ≤ root.val.size .leftright + resizeChange root .leftright w.sx sx :=
      le_add_resizeChange hw.1
    have hyle : (sy : ℤ) ≤ lc₁.val.size .topbottom + resizeChange lc₁ .topbottom w.sy sy :=
      le_add_resizeChange (hy₁ ▸ hw.2)
    rw [Covers, val_layoutFixOffsets, hx, hy]
    exact ⟨(show sx ≤ lc₂.val.size .leftright by omega), show sy ≤ lc₂.val.size .topbottom by omega⟩

/-- The size of the root along an axis is the one asked for, or the least one of the
    layout if that is larger. -/
def Reached (t : LayoutType) (root : LayoutCell) (size : ℕ) : Prop :=
  root.val.size t = if leastSize t root ≤ size then size else leastSize t root

instance (t : LayoutType) (root : LayoutCell) (size : ℕ) : Decidable (Reached t root size) :=
  inferInstanceAs (Decidable (_ = _))

/-- In every state reached by a run that records the size of the window after every
    resize, a resize reaches the size asked for along an axis exactly if the root is as
    small as it can be, or as large as the window, or if the change would take it below
    its least size. -/
theorem layoutResize_reaches {id wp sx sy : ℕ} (hx : paneMinimum ≤ sx ∧ sx ≤ intMax)
    (hy : paneMinimum ≤ sy ∧ sy ≤ intMax) {ops : List LayoutOp} (hrec : ∀ op ∈ ops, op.Records)
    {tsx tsy : ℕ} (hops : Exec.Along layoutStep LayoutOp.Fitting (newWindow id wp sx sy)
      (ops ++ [.resize tsx tsy true])) :
    ∃ w root w' root', (windowCreate id wp sx sy >>= (layoutRun · ops)) = pure w ∧
      w.layoutRoot = some root ∧ layoutResize w tsx tsy = pure w' ∧ w'.layoutRoot = some root' ∧
      (Reached .leftright root' tsx ↔ root.val.sx = leastSize .leftright root ∨
        root.val.sx = w.sx ∨ root.val.sx + tsx ≤ leastSize .leftright root + w.sx) ∧
      (Reached .topbottom root' tsy ↔ root.val.sy = leastSize .topbottom root ∨
        root.val.sy = w.sy ∨ root.val.sy + tsy ≤ leastSize .topbottom root + w.sy) := by
  obtain ⟨w, hrun, root, h, ha, hcov⟩ := Exec.foldlM_along
    (I := fun w => ∃ root, HasLayout w root ∧ Ample root ∧ Covers w root)
    (fun w op hop ⟨root, h, ha, hcov⟩ => by
      obtain ⟨w', root', hstep, h', hc⟩ := layoutStep_cases h op
      exact ⟨w', hstep, root', h', hc.ample h hop.1 ha, hc.covers h hop.2 hcov⟩)
    (hops.left.and_forall hrec)
    ⟨_, newWindow_hasLayout id wp sx sy, ample_leaf hx hy, le_refl sx, le_refl sy⟩
  obtain ⟨lc₁, lc₂, panes, hresize, h₁, h₂, -⟩ := layoutResize_eq h tsx tsy
  refine ⟨w, root, _, _, by rw [windowCreate_eq, pure_bind]; exact hrun, h.root_eq, hresize, rfl, ?_, ?_⟩
  · have hsize : (lc₂.val.size .leftright : ℤ) =
        root.val.size .leftright + resizeChange root .leftright w.sx tsx :=
      (congrArg Nat.cast (h₂.size_across : lc₂.val.size .leftright = _)).trans h₁.size
    rw [Reached, val_layoutFixOffsets, (layoutFixOffsets_moved lc₂).leastSize_eq, h₂.leastSize_eq,
      h₁.leastSize_eq, ← Int.natCast_inj, hsize]
    exact add_resizeChange_eq_iff (by simp) (h.cells.fits (by simp)) (ha.roomy _ (by simp))
      ((ha.sized _ (by simp)).trans (by decide)) hcov.1 tsx
  · have hy₁ : lc₁.val.size .topbottom = root.val.size .topbottom := h₁.size_across
    have hcells := h₁.cells (by simp) h.cells
    have hiff := add_resizeChange_eq_iff (by simp) (hcells.fits (by simp))
      (h₁.roomy_of (by simp) (by simp) (ha.roomy .topbottom (by simp)))
      (hy₁ ▸ (ha.sized _ (by simp)).trans (by decide)) (hcov.2.trans hy₁.ge) tsy
    rw [← h₂.size, h₁.leastSize_eq, hy₁, Int.natCast_inj] at hiff
    rw [Reached, val_layoutFixOffsets, (layoutFixOffsets_moved lc₂).leastSize_eq, h₂.leastSize_eq,
      h₁.leastSize_eq]
    exact hiff

/-- A window with two panes, shrunk and grown again. -/
theorem layoutResize_reaches_run : ∃ w root w' root', (windowCreate 0 0 80 24 >>= (layoutRun ·
      [.split 0 .leftright (-1) false 0 1, .resize 40 12 true])) = pure w ∧
      w.layoutRoot = some root ∧ layoutResize w 100 30 = pure w' ∧ w'.layoutRoot = some root' ∧
      (Reached .leftright root' 100 ↔ root.val.sx = leastSize .leftright root ∨
        root.val.sx = w.sx ∨ root.val.sx + 100 ≤ leastSize .leftright root + w.sx) ∧
      (Reached .topbottom root' 30 ↔ root.val.sy = leastSize .topbottom root ∨
        root.val.sy = w.sy ∨ root.val.sy + 30 ≤ leastSize .topbottom root + w.sy) :=
  layoutResize_reaches (by decide) (by decide) (by decide) (by decide +kernel)

/-- A window shrunk below the least size of two panes is smaller than its layout; with one
    of them closed, it grows by more than it is asked to. -/
theorem layoutResize_not_reaches : ¬ ∀ (id wp sx sy : ℕ) (ops : List LayoutOp) (tsx tsy : ℕ),
    paneMinimum ≤ sx → paneMinimum ≤ sy → (∀ op ∈ ops, op.Records) →
    ∀ w ∈ (windowCreate id wp sx sy >>= (layoutRun · ops)).value?,
      ∀ w' ∈ (layoutResize w tsx tsy).value?, ∀ root' ∈ w'.layoutRoot,
        Reached .leftright root' tsx ∧ Reached .topbottom root' tsy := by
  intro h
  have := h 0 0 80 24 [.split 0 .leftright (-1) false 0 1, .resize 1 24 true, .close 1] 30 24
    (by decide) (by decide) (by decide)
  revert this
  decide +kernel

end Tmux
