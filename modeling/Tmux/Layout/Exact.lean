import Tmux.Layout.Minimum

/-!
# What can be resized is exact

The check gives the space of a cell less the least size of its shape, so an adjustment
within it lowers it by as much as is taken, and growing raises it by as much as is given
(`Resized.check_eq`). More than the check gives cannot be taken from panes of the minimum
size: a loop spreading the change over children that run along the axis is left with some
of it when none of them can give more, and goes on forever, however many passes it makes
(`adjustLoop_overdrawn`); across the axis, some child is asked for more than it can give.

Put together, the check is the exact space that can be removed (`layoutResizeCheck_exact`).
-/

namespace Tmux

open RoseTree

variable {t : LayoutType} {lc lc' : LayoutCell} {cells cells' : List LayoutCell}

/-! ## Within the space available -/

/-- A change of the size changes what the check gives by as much. -/
theorem Resized.check_eq {change : ℤ} (h : Resized t change lc lc') (ht : t ≠ .windowpane) (hf : Fits t lc)
    (hr : Roomy t lc) (hs : lc.val.size t ≤ uintMax) (hs' : lc'.val.size t ≤ uintMax) :
    (layoutResizeCheck t lc' : ℤ) = layoutResizeCheck t lc + change := by
  have hold := layoutResizeCheck_add_leastSize ht hf hr hs
  have hnew := layoutResizeCheck_add_leastSize ht h.fits (h.roomy hr) hs'
  rw [h.leastSize_eq] at hnew
  have := h.size
  omega

theorem ResizedList.map_leastSize {change : ℤ} (h : ResizedList t change cells cells') :
    cells'.map (leastSize t) = cells.map (leastSize t) := by
  have herase : ∀ l : List LayoutCell, l.map (leastSize t) = (l.map (erase t)).map (leastSize t) := fun l => by
    rw [List.map_map]
    exact List.map_congr_left fun c _ => (leastSize_map t (fun a => a.type_withSize t 0) c).symm
  rw [herase cells', herase cells, h.rest]

/-- What a list of cells can give, and the least sizes of the cells, are their sizes. -/
theorem checkSum_add_leastSize (ht : t ≠ .windowpane) (hf : ∀ c ∈ cells, Fits t c) (hr : ∀ c ∈ cells, Roomy t c)
    (hs : (cells.map fun c => c.val.size t).sum ≤ uintMax) :
    checkSum t cells + (cells.map (leastSize t)).sum = (cells.map fun c => c.val.size t).sum := by
  refine checkSum_add_leastSizes fun c hc => ?_
  have hle : c.val.size t ≤ (cells.map fun c => c.val.size t).sum :=
    List.single_le_sum (fun _ _ => Nat.zero_le _) _ (List.mem_map_of_mem hc)
  exact layoutResizeCheck_add_leastSize ht (hf c hc) (hr c hc) (hle.trans hs)

theorem ResizedList.checkSum_eq {k : ℕ} (h : ResizedList t (-(k : ℤ)) cells cells') (ht : t ≠ .windowpane)
    (hf : ∀ c ∈ cells, Fits t c) (hr : ∀ c ∈ cells, Roomy t c)
    (hs : (cells.map fun c => c.val.size t).sum ≤ uintMax) :
    checkSum t cells' + k = checkSum t cells ∧ (cells'.map fun c => c.val.size t).sum ≤ uintMax := by
  have hsize := h.size
  have hs' : (cells'.map fun c => c.val.size t).sum ≤ uintMax := by omega
  have hold := checkSum_add_leastSize ht hf hr hs
  have hnew := checkSum_add_leastSize ht h.fits (h.roomy hr) hs'
  rw [h.map_leastSize] at hnew
  exact ⟨by omega, hs'⟩

/-! ## More than the space available -/

/-- Nothing but an endless loop is a fault. -/
def endless : Exec.Allowed := ⟨(· = .hang), True⟩

theorem addSize_endless (lc : CellInfo) (change : ℤ) : Exec.Meets endless (fun _ => True) (addSize t lc change) := by
  unfold addSize Exec.uaddi
  split_ifs
  · exact .pure trivial
  · exact ⟨fun _ => trivial, trivial⟩

theorem adjustPass_endless {adjust : LayoutCell → ℤ → Exec LayoutCell}
    (h : ∀ lc change, Exec.Meets endless (fun _ => True) (adjust lc change)) (cells : List LayoutCell) (change : ℤ) :
    Exec.Meets endless (fun _ => True) (adjustPass (layoutResizeCheck t) adjust cells change) := by
  induction cells generalizing change with
  | nil => exact .pure trivial
  | cons lc cells ih =>
    unfold adjustPass
    split_ifs
    · exact .pure trivial
    · exact (h _ _).bind fun _ _ => (ih _).bind fun _ _ => .pure trivial
    · exact (h _ _).bind fun _ _ => (ih _).bind fun _ _ => .pure trivial
    · exact (ih _).bind fun _ _ => .pure trivial

theorem adjustLoop_endless {adjust : LayoutCell → ℤ → Exec LayoutCell}
    (h : ∀ lc change, Exec.Meets endless (fun _ => True) (adjust lc change)) (n : ℕ) (cells : List LayoutCell)
    (change : ℤ) : Exec.Meets endless (fun _ => True) (adjustLoop (layoutResizeCheck t) adjust n cells change) := by
  induction n generalizing cells change with
  | zero =>
    unfold adjustLoop
    split_ifs
    · exact .pure trivial
    · exact rfl
  | succ n ih =>
    unfold adjustLoop
    split_ifs
    · exact .pure trivial
    · exact (adjustPass_endless h cells change).bind fun _ _ => ih _ _

/-- An adjustment wraps, or returns, or else goes on forever. -/
theorem layoutResizeAdjustAux_endless (n : ℕ) (lc : LayoutCell) (change : ℤ) :
    Exec.Meets endless (fun _ => True) (layoutResizeAdjustAux n t lc change) := by
  induction n generalizing lc change with
  | zero => exact rfl
  | succ n ih =>
    obtain ⟨lc, cells⟩ := lc
    unfold layoutResizeAdjustAux
    refine (addSize_endless lc change).bind fun lc _ => ?_
    split_ifs
    · exact .pure trivial
    · exact (Exec.Meets.mapM fun c _ => ih c change).bind fun _ _ => .pure trivial
    · exact (adjustLoop_endless ih _ cells change).bind fun _ _ => .pure trivial

/-- A loop taking more from its children than they can give never ends. -/
theorem adjustLoop_overdrawn (ht : t ≠ .windowpane) {d : ℕ} (adjust : LayoutCell → ℤ → Exec LayoutCell)
    (h : ∀ lc : LayoutCell, lc.height ≤ d → Fits t lc → 0 < layoutResizeCheck t lc →
      ∃ lc', adjust lc (-1) = pure lc' ∧ Resized t (-1) lc lc' ∧
        layoutResizeCheck t lc ≤ layoutResizeCheck t lc' + 1)
    (hd : ∀ lc ∈ cells, lc.height ≤ d) (hf : ∀ lc ∈ cells, Fits t lc) (hr : ∀ lc ∈ cells, Roomy t lc)
    (hs : (cells.map fun c => c.val.size t).sum ≤ uintMax) {c : ℕ} (hc : checkSum t cells < c) (n : ℕ) :
    adjustLoop (layoutResizeCheck t) adjust n cells (-(c : ℤ)) = .fault .hang := by
  induction n generalizing cells c with
  | zero => rw [adjustLoop, if_neg (by omega)]
  | succ n ih =>
    obtain ⟨cells₁, k, hk, -, hp, hres, -⟩ :=
      adjustPass_shrink hf (fun lc hlc => h lc (hd lc hlc) (hf lc hlc)) c
    obtain ⟨hsum, hs₁⟩ := hres.checkSum_eq ht hf hr hs
    rw [adjustLoop, if_neg (by omega), hp, pure_bind]
    exact ih (hres.height_le hd) hres.fits (hres.roomy hr) hs₁ (by omega)

theorem addSize_eq_pure {lc lc₁ : CellInfo} {change : ℤ} (h : addSize t lc change = pure lc₁) :
    0 ≤ (lc.size t : ℤ) + change ∧ lc₁ = lc.withSize t ((lc.size t : ℤ) + change).toNat := by
  by_cases h₀ : 0 ≤ (lc.size t : ℤ) + change
  · rw [addSize_eq h₀, Exec.pure_inj] at h
    exact ⟨h₀, h.symm⟩
  · obtain ⟨n, hn, -⟩ := Exec.bind_eq_pure.1 h
    rw [Exec.uaddi, if_neg h₀] at hn
    cases hn

/-- Taking more than the space available does not leave all panes with the minimum size. -/
theorem layoutResizeAdjustAux_overdrawn (ht : t ≠ .windowpane) {n : ℕ} (hn : lc.height ≤ n) (hf : Fits t lc)
    (hr : Roomy t lc) (hs : lc.val.size t ≤ uintMax) {k : ℕ} (hk : layoutResizeCheck t lc < k)
    (h : layoutResizeAdjustAux n t lc (-(k : ℤ)) = pure lc') : ¬ Roomy t lc' := by
  induction n generalizing lc lc' k with
  | zero => exact absurd hn (by have := lc.height_pos; omega)
  | succ n ih =>
    obtain ⟨lc, cells⟩ := lc
    have hle : ∀ c ∈ cells, c.val.size t ≤ uintMax := fun c hc =>
      (hf.size_le ht c.val (nodes_subset_of_mem hc c.val_mem_nodes)).trans hs
    rw [height_node_le] at hn
    rw [roomy_node] at hr
    have hcells := (fits_node.1 hf).2
    rw [layoutResizeAdjustAux] at h
    obtain ⟨lc₁, hadd, h⟩ := Exec.bind_eq_pure.1 h
    obtain ⟨h₀, rfl⟩ := addSize_eq_pure hadd
    rw [if_neg ht, CellInfo.type_withSize] at h
    by_cases hlc : lc.type = t
    · -- The loop over the children never ends.
      have hw : lc.type ≠ .windowpane := hlc ▸ ht
      have hsum := ((fits_along ht hlc).1 hf).1
      have hpos := List.length_pos_iff.2 (hf.ne_nil ht hw)
      rw [layoutResizeCheck_along ht hlc] at hk
      rw [val_node] at hs
      have hloop := adjustLoop_overdrawn ht (layoutResizeAdjustAux n t)
        (fun d hd hfd hpos => by simpa using layoutResizeAdjustAux_shrink ht hd hfd (c := 1) hpos)
        hn hcells hr.2 (by omega) hk k
      rw [if_neg (by simp [hlc]), Int.natAbs_neg, Int.natAbs_natCast, hloop] at h
      cases h
    · rw [if_pos hlc] at h
      obtain ⟨cells', hmap, h⟩ := Exec.bind_eq_pure.1 h
      obtain rfl := Exec.pure_injective h
      rw [roomy_node, CellInfo.type_withSize, CellInfo.size_withSize, not_and]
      by_cases hw : lc.type = .windowpane
      · rw [layoutResizeCheck_windowpane hw] at hk
        intro hmin
        have := hmin hw
        have := hr.1 hw
        omega
      · -- Some child cannot give as much.
        obtain ⟨c, hc, hck⟩ : ∃ c ∈ cells, layoutResizeCheck t c < k := by
          by_contra hall
          push Not at hall
          obtain ⟨c, hc⟩ := List.exists_mem_of_ne_nil cells (hf.ne_nil ht hw)
          have hku : k ≤ uintMax := ((hall c hc).trans (layoutResizeCheck_le ht (hcells c hc))).trans (hle c hc)
          exact absurd ((le_layoutResizeCheck_across hw hlc).2 ⟨hku, hall⟩) (by omega)
        obtain ⟨A, B, rfl⟩ := List.append_of_mem hc
        obtain ⟨A', c', B', rfl, -, hadjust, -⟩ :=
          Exec.forall₂_append_cons (Exec.forall₂_of_mapM_eq_pure hmap)
        exact fun _ hall => ih (hn c hc) (hcells c hc) (hr.2 c hc) (hle c hc) hck hadjust (hall c' (by simp))

/-! ## The space is exact -/

/-- What comes of asking a cell for more than it can give: an endless loop, a size that wraps,
    or a pane that is too small. -/
inductive Overdrawn (t : LayoutType) : Exec LayoutCell → Prop
  | endless : Overdrawn t (.fault .hang)
  | wraps (x : Exec LayoutCell) (h : x.wraps = true) : Overdrawn t x
  | small (lc : LayoutCell) (c : CellInfo) (hc : c ∈ lc.nodes) (hw : c.type = .windowpane)
      (hsize : c.size t < paneMinimum) : Overdrawn t (pure lc)

theorem layoutResizeAdjust_overdrawn (ht : t ≠ .windowpane) (hf : Fits t lc) (hr : Roomy t lc)
    (hs : lc.val.size t ≤ uintMax) {k : ℕ} (hk : layoutResizeCheck t lc < k) :
    Overdrawn t (layoutResizeAdjust lc t (-(k : ℤ))) := by
  unfold layoutResizeAdjust
  rcases (layoutResizeAdjustAux_endless (t := t) lc.height lc (-(k : ℤ))).cases fun _ => id with h | h | ⟨lc', h⟩
  · rw [h]
    exact .endless
  · exact .wraps _ h
  · have hsmall := layoutResizeAdjustAux_overdrawn ht le_rfl hf hr hs hk h
    rw [h]
    simp only [Roomy, not_forall, not_le] at hsmall
    obtain ⟨c, hc, hw, hsize⟩ := hsmall
    exact .small lc' c hc hw hsize

/-- What an adjustment within the space makes of a layout: it is consistent, its panes have
    the minimum size, and the space available changes by as much as the size. -/
structure Adjusted (t : LayoutType) (change : ℤ) (lc lc' : LayoutCell) : Prop where
  cells : Cells lc'
  roomy : ∀ s ≠ .windowpane, Roomy s lc'
  check : (layoutResizeCheck t lc' : ℤ) = layoutResizeCheck t lc + change

/-- **The space available is exact**: a consistent layout whose panes have the minimum size can be
    shrunk by what the check gives, and by no more, and grown by anything. -/
theorem layoutResizeCheck_exact (ht : t ≠ .windowpane) (h : Cells lc) (hr : ∀ s ≠ .windowpane, Roomy s lc)
    (hs : lc.val.size t ≤ uintMax) :
    (∀ k ≤ layoutResizeCheck t lc,
      ∃ lc', layoutResizeAdjust lc t (-(k : ℤ)) = pure lc' ∧ Adjusted t (-(k : ℤ)) lc lc') ∧
    (∀ k > layoutResizeCheck t lc, Overdrawn t (layoutResizeAdjust lc t (-(k : ℤ)))) ∧
    ∀ k, lc.val.size t + k ≤ uintMax →
      ∃ lc', layoutResizeAdjust lc t k = pure lc' ∧ Adjusted t k lc lc' := by
  have hf := h.fits ht
  have hadjust : ∀ change : ℤ, -(layoutResizeCheck t lc : ℤ) ≤ change → lc.val.size t + change ≤ uintMax →
      ∃ lc', layoutResizeAdjust lc t change = pure lc' ∧ Adjusted t change lc lc' := fun change hlo hhi => by
    obtain ⟨lc', hlc', hres⟩ := layoutResizeAdjust_resized ht hf hlo
    have hs' : lc'.val.size t ≤ uintMax := by
      have := hres.size
      omega
    exact ⟨lc', hlc', hres.cells ht h, fun s hst => hres.roomy_of ht hst (hr s hst),
      hres.check_eq ht hf (hr t ht) hs hs'⟩
  exact ⟨fun k hk => hadjust _ (by omega) (by omega),
    fun k hk => layoutResizeAdjust_overdrawn ht hf (hr t ht) hs hk, fun k hk => hadjust k (by omega) (by omega)⟩

/-- Two panes of four and of five columns beside each other. -/
def narrowPanes : LayoutCell :=
  .node { id := 0, type := .leftright, parent := none, sx := 10, sy := 4 }
    [.node { id := 1, parent := some 0, sx := 4, sy := 4 } [],
      .node { id := 2, parent := some 0, sx := 5, sy := 4 } []]

theorem layoutResizeCheck_exact_narrow :
    (∃ lc', layoutResizeAdjust narrowPanes .leftright (-(5 : ℕ)) = pure lc' ∧
      Adjusted .leftright (-(5 : ℕ)) narrowPanes lc') ∧
    Overdrawn .leftright (layoutResizeAdjust narrowPanes .leftright (-(6 : ℕ))) ∧
    ∃ lc', layoutResizeAdjust narrowPanes .leftright (7 : ℕ) = pure lc' ∧
      Adjusted .leftright (7 : ℕ) narrowPanes lc' := by
  have hleaf : ∀ id sx, Cells (.node { id, parent := some 0, sx, sy := 4 } []) := fun id sx =>
    everywhere_node.2 ⟨⟨rfl, rfl, by simp, by simp, by simp⟩, by simp⟩
  have hcells : Cells narrowPanes := by
    refine everywhere_node.2 ⟨⟨rfl, ?_, by simp, by simp, by simp⟩, by simp [hleaf]⟩
    exact ⟨by simp, by simp [CellInfo.size]⟩
  have hroomy : ∀ s ≠ .windowpane, Roomy s narrowPanes := fun s hs => by
    cases s <;> simp [Roomy, narrowPanes, nodes_node, CellInfo.size, paneMinimum]
  obtain ⟨hshrink, hover, hgrow⟩ := @layoutResizeCheck_exact .leftright narrowPanes (by simp) hcells hroomy (by decide)
  exact ⟨hshrink 5 (by decide), hover 6 (by decide), hgrow 7 (by decide)⟩

end Tmux
