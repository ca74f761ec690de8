import Mathlib.Algebra.BigOperators.Group.List.Basic
import Mathlib.Algebra.Order.BigOperators.Group.List
import Mathlib.Algebra.Order.Group.Nat
import Tmux.Library.Exec
import Tmux.Layout.Cell

/-!
# Adjusting the size of a cell

How much a cell can shrink along an axis (`layoutResizeCheck`), and how a change
of its size is spread over its children (`layoutResizeAdjust`): equally, one by
one, among those of a container running along the axis, and to each of those of
a container running across it.

On a tree that fits, an adjustment returns and the tree fits again, its size
changed and nothing but sizes along the axis touched (`Resized`): any growth
(`layoutResizeAdjustAux_grow`), and any shrinking within what the check gives
(`layoutResizeAdjustAux_shrink`). The loop spreading the change ends because every
pass over the children hands out part of what remains, the total the children
can still give being at least that.
-/

namespace Tmux

/-! ## The code -/

mutual

/-- How much size is available to be removed from a cell. -/
def layoutResizeCheck (type : LayoutType) : LayoutCell → ℕ
  | .node lc cells =>
    if lc.type = .windowpane then
      -- Space available in this cell only.
      let available := lc.size type
      if available > paneMinimum then available - paneMinimum else 0
    else if lc.type = type then
      -- Same type: total of available space in all child cells.
      (layoutResizeCheckList type cells).sum
    else
      -- Different type: minimum of available space in child cells.
      (layoutResizeCheckList type cells).foldl
        (fun minimum available => if available < minimum then available else minimum) uintMax

/-- How much size is available to be removed from each of a list of cells. -/
def layoutResizeCheckList (type : LayoutType) : List LayoutCell → List ℕ
  | [] => []
  | lc :: cells => layoutResizeCheck type lc :: layoutResizeCheckList type cells

end

/-- Add a change to the size of a cell along an axis. -/
def addSize (type : LayoutType) (lc : CellInfo) (change : ℤ) : Exec CellInfo := do
  let n ← Exec.uaddi (lc.size type) change
  pure (lc.withSize type n)

section Spread

variable (check : LayoutCell → ℕ) (adjust : LayoutCell → ℤ → Exec LayoutCell)

/-- One pass over the children, adjusting each by one cell in the direction of
    the change while some of it is left. -/
def adjustPass : List LayoutCell → ℤ → Exec (List LayoutCell × ℤ)
  | [], change => pure ([], change)
  | lc :: cells, change =>
    if change = 0 then pure (lc :: cells, change)
    else if change > 0 then do
      let lc ← adjust lc 1
      let (cells, change) ← adjustPass cells (change - 1)
      pure (lc :: cells, change)
    else if check lc > 0 then do
      let lc ← adjust lc (-1)
      let (cells, change) ← adjustPass cells (change + 1)
      pure (lc :: cells, change)
    else do
      let (cells, change) ← adjustPass cells change
      pure (lc :: cells, change)

/-- Pass over the children until no change is left. A pass changing nothing
    repeats forever, so as many passes as the change is large decide the loop. -/
def adjustLoop : ℕ → List LayoutCell → ℤ → Exec (List LayoutCell)
  | 0, cells, change => if change = 0 then pure cells else .fault .hang
  | n + 1, cells, change =>
    if change = 0 then pure cells
    else do
      let (cells, change) ← adjustPass check adjust cells change
      adjustLoop n cells change

end Spread

/-- `layoutResizeAdjust` on a tree of at most as many levels as its first argument. -/
def layoutResizeAdjustAux : ℕ → LayoutType → LayoutCell → ℤ → Exec LayoutCell
  | 0, _, _, _ => .fault .hang
  | n + 1, type, .node lc cells, change => do
    -- Adjust the cell size.
    let lc ← addSize type lc change
    if type = .windowpane then pure (.node lc cells)
    -- Child cell runs in a different direction.
    else if lc.type ≠ type then do
      let cells ← cells.mapM fun lcchild => layoutResizeAdjustAux n type lcchild change
      pure (.node lc cells)
    -- Child cell runs in the same direction. Adjust each child equally until no
    -- further change is possible.
    else do
      let cells ← adjustLoop (layoutResizeCheck type) (layoutResizeAdjustAux n type)
        change.natAbs cells change
      pure (.node lc cells)

/-- Adjust cell size evenly, including altering its children. This function
    expects the change to have already been bounded to the space available. -/
def layoutResizeAdjust (lc : LayoutCell) (type : LayoutType) (change : ℤ) : Exec LayoutCell :=
  layoutResizeAdjustAux lc.height type lc change

/-! ## The check -/

theorem layoutResizeCheckList_eq (t : LayoutType) (cells : List LayoutCell) :
    layoutResizeCheckList t cells = cells.map (layoutResizeCheck t) := by
  induction cells with
  | nil => rfl
  | cons c cells ih => rw [layoutResizeCheckList, ih, List.map_cons]

theorem layoutResizeCheck_windowpane {t : LayoutType} {lc : CellInfo} (h : lc.type = .windowpane)
    (cells : List LayoutCell) :
    layoutResizeCheck t (.node lc cells) = lc.size t - paneMinimum := by
  simp only [layoutResizeCheck, if_pos h]
  split <;> omega

theorem layoutResizeCheck_along {t : LayoutType} (ht : t ≠ .windowpane) {lc : CellInfo}
    (h : lc.type = t) (cells : List LayoutCell) :
    layoutResizeCheck t (.node lc cells) = (cells.map (layoutResizeCheck t)).sum := by
  rw [layoutResizeCheck, if_neg (h ▸ ht), if_pos h, layoutResizeCheckList_eq]

theorem le_foldl_min {l : List ℕ} {m k : ℕ} :
    k ≤ l.foldl (fun minimum available => if available < minimum then available else minimum) m ↔
      k ≤ m ∧ ∀ a ∈ l, k ≤ a := by
  induction l generalizing m with
  | nil => simp
  | cons a l ih =>
    rw [List.foldl_cons, ih, List.forall_mem_cons]
    split <;> constructor <;> rintro ⟨h₁, h₂⟩ <;> simp_all <;> omega

/-- Across the axis, what is available is what every child can give. -/
theorem le_layoutResizeCheck_across {t : LayoutType} {lc : CellInfo} (hw : lc.type ≠ .windowpane)
    (h : lc.type ≠ t) {cells : List LayoutCell} {k : ℕ} :
    k ≤ layoutResizeCheck t (.node lc cells) ↔
      k ≤ uintMax ∧ ∀ c ∈ cells, k ≤ layoutResizeCheck t c := by
  rw [layoutResizeCheck, if_neg hw, if_neg h, layoutResizeCheckList_eq, le_foldl_min,
    List.forall_mem_map]

/-! ## Adjusting -/

/-- `lc'` is `lc` resized by `change` along the axis `t`: nothing but sizes along
    the axis differs, it fits, and its panes stay roomy. -/
structure Resized (t : LayoutType) (change : ℤ) (lc lc' : LayoutCell) : Prop where
  rest : erase t lc' = erase t lc
  fits : Fits t lc'
  size : (lc'.val.size t : ℤ) = lc.val.size t + change
  roomy : Roomy t lc → Roomy t lc'

/-- `cells'` are `cells` resized along the axis `t`, by `change` in total. -/
structure ResizedList (t : LayoutType) (change : ℤ) (cells cells' : List LayoutCell) : Prop where
  rest : cells'.map (erase t) = cells.map (erase t)
  fits : ∀ c ∈ cells', Fits t c
  size : ((cells'.map fun c => c.val.size t).sum : ℕ) =
    ((cells.map fun c => c.val.size t).sum : ℕ) + change
  roomy : (∀ c ∈ cells, Roomy t c) → ∀ c ∈ cells', Roomy t c

/-- What a list of cells can give in total. -/
abbrev checkSum (t : LayoutType) (cells : List LayoutCell) : ℕ :=
  (cells.map (layoutResizeCheck t)).sum

/-- Keeping a cell as it is resizes it by nothing. -/
theorem Resized.refl {t : LayoutType} {lc : LayoutCell} (h : Fits t lc) : Resized t 0 lc lc where
  rest := rfl
  fits := h
  size := by simp
  roomy := id

namespace ResizedList

variable {t : LayoutType} {a b : ℤ} {cells cells' cells'' : List LayoutCell}

theorem refl (h : ∀ c ∈ cells, Fits t c) : ResizedList t 0 cells cells where
  rest := rfl
  fits := h
  size := by simp
  roomy := id

theorem cons {lc lc' : LayoutCell} (h : Resized t a lc lc') (hs : ResizedList t b cells cells') :
    ResizedList t (a + b) (lc :: cells) (lc' :: cells') where
  rest := by rw [List.map_cons, List.map_cons, h.rest, hs.rest]
  fits := List.forall_mem_cons.2 ⟨h.fits, hs.fits⟩
  size := by
    have := h.size
    have := hs.size
    simp only [List.map_cons, List.sum_cons]
    omega
  roomy hr := by
    rw [List.forall_mem_cons] at hr ⊢
    exact ⟨h.roomy hr.1, hs.roomy hr.2⟩

theorem trans (h : ResizedList t a cells cells') (h' : ResizedList t b cells' cells'') :
    ResizedList t (a + b) cells cells'' where
  rest := h'.rest.trans h.rest
  fits := h'.fits
  size := by rw [h'.size, h.size, add_assoc]
  roomy hr := h'.roomy (h.roomy hr)

theorem length_eq (h : ResizedList t a cells cells') : cells'.length = cells.length := by
  simpa using congrArg List.length h.rest

theorem height_le (h : ResizedList t a cells cells') {n : ℕ} (hn : ∀ lc ∈ cells, lc.height ≤ n) :
    ∀ lc ∈ cells', lc.height ≤ n := by
  intro lc hlc
  have : erase t lc ∈ cells.map (erase t) := h.rest ▸ List.mem_map_of_mem hlc
  obtain ⟨d, hd, he⟩ := List.mem_map.1 this
  rw [← RoseTree.height_map _ lc, show lc.map (·.withSize t 0) = erase t d from he.symm, erase,
    RoseTree.height_map]
  exact hn d hd

end ResizedList

section Pass

variable {t : LayoutType} {adjust : LayoutCell → ℤ → Exec LayoutCell}

/-- A pass handing out `c` cells gives one to each child, as far as they reach. -/
theorem adjustPass_grow {cells : List LayoutCell} (hf : ∀ lc ∈ cells, Fits t lc)
    (h : ∀ lc ∈ cells, ∃ lc', adjust lc 1 = pure lc' ∧ Resized t 1 lc lc') (c : ℕ) :
    ∃ cells' k, k ≤ c ∧ (0 < c → cells ≠ [] → 0 < k) ∧
      adjustPass (layoutResizeCheck t) adjust cells c = pure (cells', (c : ℤ) - (k : ℕ)) ∧
      ResizedList t k cells cells' := by
  induction cells generalizing c with
  | nil => exact ⟨[], 0, by omega, by simp, by simp [adjustPass], .refl (by simp)⟩
  | cons lc cells ih =>
    by_cases hc : c = 0
    · subst hc
      exact ⟨lc :: cells, 0, le_rfl, by simp, by simp [adjustPass], .refl hf⟩
    · obtain ⟨lc', hlc, hr⟩ := h lc List.mem_cons_self
      rw [List.forall_mem_cons] at hf
      obtain ⟨cells', k, hk, -, hp, hrs⟩ :=
        ih hf.2 (fun d hd => h d (List.mem_cons_of_mem _ hd)) (c - 1)
      refine ⟨lc' :: cells', k + 1, by omega, fun _ _ => by omega, ?_, ?_⟩
      · rw [adjustPass, if_neg (by omega), if_pos (by omega), hlc, pure_bind,
          show (c : ℤ) - 1 = ((c - 1 : ℕ) : ℤ) by omega, hp, pure_bind]
        simp only [Exec.pure_inj, Prod.mk.injEq, true_and]
        omega
      · have := ResizedList.cons hr hrs
        rwa [show (1 : ℤ) + (k : ℕ) = ((k + 1 : ℕ) : ℤ) by omega] at this

/-- A pass taking away `c` cells takes one from each child that can give it, as
    far as they reach. -/
theorem adjustPass_shrink {cells : List LayoutCell} (hf : ∀ lc ∈ cells, Fits t lc)
    (h : ∀ lc ∈ cells, 0 < layoutResizeCheck t lc → ∃ lc', adjust lc (-1) = pure lc' ∧
      Resized t (-1) lc lc' ∧ layoutResizeCheck t lc ≤ layoutResizeCheck t lc' + 1) (c : ℕ) :
    ∃ cells' k, k ≤ c ∧ (0 < c → 0 < checkSum t cells → 0 < k) ∧
      adjustPass (layoutResizeCheck t) adjust cells (-(c : ℤ)) = pure (cells', -((c - k : ℕ) : ℤ)) ∧
      ResizedList t (-(k : ℤ)) cells cells' ∧ checkSum t cells ≤ checkSum t cells' + k := by
  induction cells generalizing c with
  | nil =>
    exact ⟨[], 0, by omega, by simp [checkSum], by simp [adjustPass], .refl (by simp), le_rfl⟩
  | cons lc cells ih =>
    by_cases hc : c = 0
    · subst hc
      exact ⟨lc :: cells, 0, le_rfl, by simp, by simp [adjustPass], .refl hf, le_rfl⟩
    · rw [List.forall_mem_cons] at hf h
      by_cases hlc : 0 < layoutResizeCheck t lc
      · obtain ⟨lc', hadj, hr, hch⟩ := h.1 hlc
        obtain ⟨cells', k, hk, -, hp, hrs, hsum⟩ := ih hf.2 h.2 (c - 1)
        refine ⟨lc' :: cells', k + 1, by omega, fun _ _ => by omega, ?_, ?_, ?_⟩
        · rw [adjustPass, if_neg (by omega), if_neg (by omega), if_pos hlc, hadj, pure_bind,
            show -(c : ℤ) + 1 = -((c - 1 : ℕ) : ℤ) by omega, hp, pure_bind]
          simp only [Exec.pure_inj, Prod.mk.injEq, true_and]
          omega
        · have := ResizedList.cons hr hrs
          rwa [show (-1 : ℤ) + -(k : ℤ) = -((k + 1 : ℕ) : ℤ) by omega] at this
        · simp only [checkSum, List.map_cons, List.sum_cons] at hsum ⊢
          omega
      · obtain ⟨cells', k, hk, hpos, hp, hrs, hsum⟩ := ih hf.2 h.2 c
        simp only [checkSum, List.map_cons, List.sum_cons] at hsum hpos ⊢
        refine ⟨lc :: cells', k, hk, fun h₁ h₂ => hpos h₁ (by omega), ?_, ?_, ?_⟩
        · rw [adjustPass, if_neg (by omega), if_neg (by omega), if_neg hlc, hp, pure_bind]
        · have := ResizedList.cons (.refl hf.1) hrs
          rwa [zero_add] at this
        · rw [List.map_cons, List.sum_cons]
          omega

variable {d : ℕ}

/-- The loop hands out any number of cells, if there is a child. -/
theorem adjustLoop_grow (adjust : LayoutCell → ℤ → Exec LayoutCell)
    (h : ∀ lc : LayoutCell, lc.height ≤ d → Fits t lc →
      ∃ lc', adjust lc 1 = pure lc' ∧ Resized t 1 lc lc')
    {cells : List LayoutCell} (hd : ∀ lc ∈ cells, lc.height ≤ d) (hf : ∀ lc ∈ cells, Fits t lc)
    (hne : cells ≠ []) {n c : ℕ} (hc : c ≤ n) :
    ∃ cells', adjustLoop (layoutResizeCheck t) adjust n cells c = pure cells' ∧
      ResizedList t c cells cells' := by
  induction n generalizing cells c with
  | zero =>
    obtain rfl : c = 0 := by omega
    exact ⟨cells, by simp [adjustLoop], .refl hf⟩
  | succ n ih =>
    by_cases hc₀ : c = 0
    · subst hc₀
      exact ⟨cells, by simp [adjustLoop], .refl hf⟩
    · obtain ⟨cells₁, k, hk, hpos, hp, hr⟩ :=
        adjustPass_grow hf (fun lc hlc => h lc (hd lc hlc) (hf lc hlc)) c
      have hk₀ := hpos (by omega) hne
      have hne₁ : cells₁ ≠ [] := fun e => hne <| List.length_eq_zero_iff.1 <| by
        rw [← hr.length_eq, e, List.length_nil]
      obtain ⟨cells₂, hl, hr₂⟩ := ih (hr.height_le hd) hr.fits hne₁ (show c - k ≤ n by omega)
      refine ⟨cells₂, ?_, ?_⟩
      · rw [adjustLoop, if_neg (by omega), hp, pure_bind]
        rwa [show (c : ℤ) - (k : ℕ) = ((c - k : ℕ) : ℤ) by omega]
      · have := hr.trans hr₂
        rwa [show ((k : ℕ) : ℤ) + ((c - k : ℕ) : ℤ) = c by omega] at this

/-- The loop takes away any number of cells the children can give in total. -/
theorem adjustLoop_shrink (adjust : LayoutCell → ℤ → Exec LayoutCell)
    (h : ∀ lc : LayoutCell, lc.height ≤ d → Fits t lc → 0 < layoutResizeCheck t lc →
      ∃ lc', adjust lc (-1) = pure lc' ∧ Resized t (-1) lc lc' ∧
        layoutResizeCheck t lc ≤ layoutResizeCheck t lc' + 1)
    {cells : List LayoutCell} (hd : ∀ lc ∈ cells, lc.height ≤ d) (hf : ∀ lc ∈ cells, Fits t lc)
    {n c : ℕ} (hc : c ≤ n) (hsum : c ≤ checkSum t cells) :
    ∃ cells', adjustLoop (layoutResizeCheck t) adjust n cells (-(c : ℤ)) = pure cells' ∧
      ResizedList t (-(c : ℤ)) cells cells' ∧ checkSum t cells ≤ checkSum t cells' + c := by
  induction n generalizing cells c with
  | zero =>
    obtain rfl : c = 0 := by omega
    exact ⟨cells, by simp [adjustLoop], .refl hf, le_rfl⟩
  | succ n ih =>
    by_cases hc₀ : c = 0
    · subst hc₀
      exact ⟨cells, by simp [adjustLoop], .refl hf, le_rfl⟩
    · obtain ⟨cells₁, k, hk, hpos, hp, hr, hsum₁⟩ :=
        adjustPass_shrink hf (fun lc hlc => h lc (hd lc hlc) (hf lc hlc)) c
      have hk₀ := hpos (by omega) (by omega)
      obtain ⟨cells₂, hl, hr₂, hsum₂⟩ :=
        ih (hr.height_le hd) hr.fits (show c - k ≤ n by omega) (by omega)
      refine ⟨cells₂, ?_, ?_, by omega⟩
      · rwa [adjustLoop, if_neg (by omega), hp, pure_bind]
      · have := hr.trans hr₂
        rwa [show -(k : ℤ) + -((c - k : ℕ) : ℤ) = -(c : ℤ) by omega] at this

end Pass

variable {t : LayoutType}

/-- Adding to the size of a cell forgets to nothing else. -/
theorem addSize_eq {lc : CellInfo} {change : ℤ} (h : 0 ≤ (lc.size t : ℤ) + change) :
    addSize t lc change = pure (lc.withSize t ((lc.size t : ℤ) + change).toNat) := by
  rw [addSize, Exec.uaddi_of_nonneg h, pure_bind]

/-- Resizing each child of a container running across the axis by as much as the
    container. -/
theorem Resized.across {lc : CellInfo} {cells cells' : List LayoutCell} {change : ℤ}
    (hw : lc.type ≠ .windowpane) (ht : lc.type ≠ t) (hf : Fits t (.node lc cells))
    (h : List.Forall₂ (Resized t change) cells cells') (h₀ : 0 ≤ (lc.size t : ℤ) + change) :
    Resized t change (.node lc cells)
      (.node (lc.withSize t ((lc.size t : ℤ) + change).toNat) cells') := by
  obtain ⟨hne, hsize, -⟩ := (fits_across hw ht).1 hf
  have hw' : (lc.withSize t ((lc.size t : ℤ) + change).toNat).type ≠ .windowpane := by simpa using hw
  have ht' : (lc.withSize t ((lc.size t : ℤ) + change).toNat).type ≠ t := by simpa using ht
  have hmem : ∀ c' ∈ cells', ∃ c ∈ cells, Resized t change c c' := fun c' hc' => by
    obtain ⟨i, hi, rfl⟩ := List.getElem_of_mem hc'
    have hi' : i < cells.length := h.length_eq ▸ hi
    exact ⟨cells[i], List.getElem_mem _, h.get _ _⟩
  refine ⟨?_, ?_, ?_, ?_⟩
  · rw [erase_node, erase_node, CellInfo.withSize_withSize]
    congr 1
    clear hmem hsize hne hf
    induction h with
    | nil => rfl
    | cons hr _ ih => rw [List.map_cons, List.map_cons, hr.rest, ih]
  · rw [fits_across hw' ht', CellInfo.size_withSize]
    refine ⟨fun e => hne (List.length_eq_zero_iff.1 (by rw [h.length_eq, e, List.length_nil])),
      fun c' hc' => ?_, fun c' hc' => ?_⟩
    · obtain ⟨c, hc, hr⟩ := hmem c' hc'
      have := hr.size
      have := hsize c hc
      omega
    · obtain ⟨c, -, hr⟩ := hmem c' hc'
      exact hr.fits
  · rw [RoseTree.val_node, RoseTree.val_node, CellInfo.size_withSize]
    omega
  · rw [roomy_node, roomy_node]
    refine fun hro => ⟨fun e => absurd e hw', fun c' hc' => ?_⟩
    obtain ⟨c, hc, hr⟩ := hmem c' hc'
    exact hr.roomy (hro.2 c hc)

/-- Resizing the children of a container running along the axis by as much in
    total as the container. -/
theorem Resized.along {lc : CellInfo} {cells cells' : List LayoutCell} {change : ℤ}
    (ht : t ≠ .windowpane) (hlc : lc.type = t) (hf : Fits t (.node lc cells))
    (h : ResizedList t change cells cells') (h₀ : 0 ≤ (lc.size t : ℤ) + change) :
    Resized t change (.node lc cells)
      (.node (lc.withSize t ((lc.size t : ℤ) + change).toNat) cells') := by
  have hlc' : (lc.withSize t ((lc.size t : ℤ) + change).toNat).type = t := by simpa using hlc
  have hlen := h.length_eq
  have hsize := h.size
  have hsum := ((fits_along ht hlc).1 hf).1
  refine ⟨?_, ?_, ?_, ?_⟩
  · rw [erase_node, erase_node, CellInfo.withSize_withSize, h.rest]
  · rw [fits_along ht hlc', CellInfo.size_withSize]
    exact ⟨by omega, h.fits⟩
  · rw [RoseTree.val_node, RoseTree.val_node, CellInfo.size_withSize]
    omega
  · rw [roomy_node, roomy_node]
    exact fun hro => ⟨fun e => absurd (hlc'.symm.trans e) ht, h.roomy hro.2⟩

/-- Resizing a pane by itself. -/
theorem Resized.windowpane {lc : CellInfo} {change : ℤ} (hlc : lc.type = .windowpane)
    (h : 0 ≤ change ∨ 0 ≤ (layoutResizeCheck t (.node lc []) : ℤ) + change)
    (h₀ : 0 ≤ (lc.size t : ℤ) + change) :
    Resized t change (.node lc []) (.node (lc.withSize t ((lc.size t : ℤ) + change).toNat) []) := by
  have hlc' : (lc.withSize t ((lc.size t : ℤ) + change).toNat).type = .windowpane := by
    simpa using hlc
  rw [layoutResizeCheck_windowpane hlc] at h
  refine ⟨by simp, (fits_windowpane hlc').2 rfl, ?_, ?_⟩
  · rw [RoseTree.val_node, RoseTree.val_node, CellInfo.size_withSize]
    omega
  · rw [roomy_node, roomy_node, CellInfo.size_withSize]
    refine fun hro => ⟨fun _ => ?_, by simp⟩
    have := hro.1 hlc
    omega

/-- A tree that fits can shrink by no more than its size. -/
theorem layoutResizeCheck_le (ht : t ≠ .windowpane) {lc : LayoutCell} (hf : Fits t lc) :
    layoutResizeCheck t lc ≤ lc.val.size t := by
  induction lc using RoseTree.induct with
  | node lc cells ih =>
    rw [RoseTree.val_node]
    by_cases hw : lc.type = .windowpane
    · rw [layoutResizeCheck_windowpane hw]
      omega
    have hne := hf.ne_nil ht hw
    by_cases hlc : lc.type = t
    · obtain ⟨hsum, hcells⟩ := (fits_along ht hlc).1 hf
      have hle : (cells.map (layoutResizeCheck t)).sum ≤
          (cells.map fun c : LayoutCell => c.val.size t).sum :=
        List.sum_le_sum fun c hc => ih c hc (hcells c hc)
      have := List.length_pos_iff.2 hne
      rw [layoutResizeCheck_along ht hlc]
      omega
    · obtain ⟨-, hsize, hcells⟩ := (fits_across hw hlc).1 hf
      obtain ⟨c, hc⟩ := List.exists_mem_of_ne_nil cells hne
      calc layoutResizeCheck t (.node lc cells)
          ≤ layoutResizeCheck t c := ((le_layoutResizeCheck_across hw hlc).1 le_rfl).2 c hc
        _ ≤ c.val.size t := ih c hc (hcells c hc)
        _ = lc.size t := hsize c hc

/-- Growing returns, with the tree resized. -/
theorem layoutResizeAdjustAux_grow (ht : t ≠ .windowpane) {n : ℕ} {lc : LayoutCell}
    (hn : lc.height ≤ n) (hf : Fits t lc) (c : ℕ) :
    ∃ lc', layoutResizeAdjustAux n t lc c = pure lc' ∧ Resized t c lc lc' := by
  induction n generalizing lc c with
  | zero => exact absurd hn (by have := lc.height_pos; omega)
  | succ n ih =>
    obtain ⟨lc, cells⟩ := lc
    rw [RoseTree.height_node_le] at hn
    have h₀ : 0 ≤ (lc.size t : ℤ) + c := by omega
    rw [layoutResizeAdjustAux, addSize_eq h₀, pure_bind, if_neg ht, CellInfo.type_withSize]
    by_cases hlc : lc.type = t
    · have hne := hf.ne_nil ht (hlc ▸ ht)
      obtain ⟨cells', hl, hr⟩ := adjustLoop_grow (layoutResizeAdjustAux n t)
        (fun d hd hfd => ih hd hfd 1) hn ((fits_node.1 hf).2) hne le_rfl
      rw [if_neg (by simp [hlc]), Int.natAbs_natCast, hl, pure_bind]
      exact ⟨_, rfl, .along ht hlc hf hr h₀⟩
    · obtain ⟨cells', hl, hr⟩ :=
        Exec.mapM_eq_pure fun d hd => ih (hn d hd) ((fits_node.1 hf).2 d hd) c
      rw [if_pos hlc, hl, pure_bind]
      refine ⟨_, rfl, ?_⟩
      by_cases hw : lc.type = .windowpane
      · obtain rfl := (fits_windowpane hw).1 hf
        cases hr
        exact .windowpane hw (.inl (by omega)) h₀
      · exact .across hw hlc hf hr h₀

/-- Across the axis, shrinking every child by `c` takes away no more than `c`. -/
theorem layoutResizeCheck_across_le {lc lc' : CellInfo} {cells cells' : List LayoutCell} {c : ℕ}
    (hw : lc.type ≠ .windowpane) (ht : lc.type ≠ t) (hlc : lc'.type = lc.type)
    (h : List.Forall₂ (fun d d' => layoutResizeCheck t d ≤ layoutResizeCheck t d' + c) cells cells') :
    layoutResizeCheck t (.node lc cells) ≤ layoutResizeCheck t (.node lc' cells') + c := by
  obtain ⟨hu, hc⟩ := (le_layoutResizeCheck_across hw ht).1
    (le_refl (layoutResizeCheck t (.node lc cells)))
  have hle : layoutResizeCheck t (.node lc cells) - c ≤ layoutResizeCheck t (.node lc' cells') :=
    (le_layoutResizeCheck_across (hlc ▸ hw) (hlc ▸ ht)).2 ⟨by omega, fun d' hd' => by
      obtain ⟨i, hi, rfl⟩ := List.getElem_of_mem hd'
      have hi' : i < cells.length := h.length_eq ▸ hi
      have h₁ := h.get hi' hi
      have h₂ := hc cells[i] (List.getElem_mem _)
      simp only [List.get_eq_getElem] at h₁
      omega⟩
  omega

/-- Shrinking within what the check gives returns, with the tree resized, and takes
    away no more of what the check gives. -/
theorem layoutResizeAdjustAux_shrink (ht : t ≠ .windowpane) {n : ℕ} {lc : LayoutCell}
    (hn : lc.height ≤ n) (hf : Fits t lc) {c : ℕ} (hc : c ≤ layoutResizeCheck t lc) :
    ∃ lc', layoutResizeAdjustAux n t lc (-(c : ℤ)) = pure lc' ∧ Resized t (-(c : ℤ)) lc lc' ∧
      layoutResizeCheck t lc ≤ layoutResizeCheck t lc' + c := by
  induction n generalizing lc c with
  | zero => exact absurd hn (by have := lc.height_pos; omega)
  | succ n ih =>
    have hle := layoutResizeCheck_le ht hf
    obtain ⟨lc, cells⟩ := lc
    rw [RoseTree.height_node_le] at hn
    rw [RoseTree.val_node] at hle
    have h₀ : 0 ≤ (lc.size t : ℤ) + -(c : ℤ) := by omega
    rw [layoutResizeAdjustAux, addSize_eq h₀, pure_bind, if_neg ht, CellInfo.type_withSize]
    by_cases hlc : lc.type = t
    · rw [layoutResizeCheck_along ht hlc] at hc
      obtain ⟨cells', hl, hr, hsum⟩ := adjustLoop_shrink (layoutResizeAdjustAux n t)
        (fun d hd hfd hpos => by simpa using ih hd hfd (c := 1) hpos) hn ((fits_node.1 hf).2)
        le_rfl hc
      rw [if_neg (by simp [hlc]), Int.natAbs_neg, Int.natAbs_natCast, hl, pure_bind]
      refine ⟨_, rfl, .along ht hlc hf hr h₀, ?_⟩
      rwa [layoutResizeCheck_along ht hlc, layoutResizeCheck_along ht (by simpa using hlc)]
    · by_cases hw : lc.type = .windowpane
      · obtain rfl := (fits_windowpane hw).1 hf
        rw [if_pos hlc, List.mapM_nil, pure_bind]
        refine ⟨_, rfl, .windowpane hw (.inr (by omega)) h₀, ?_⟩
        rw [layoutResizeCheck_windowpane hw, layoutResizeCheck_windowpane (by simpa using hw),
          CellInfo.size_withSize]
        omega
      · have hc' := ((le_layoutResizeCheck_across hw hlc).1 hc).2
        obtain ⟨cells', hl, hr⟩ :=
          Exec.mapM_eq_pure fun d hd => ih (hn d hd) ((fits_node.1 hf).2 d hd) (hc' d hd)
        rw [if_pos hlc, hl, pure_bind]
        exact ⟨_, rfl, .across hw hlc hf (hr.imp fun _ _ h => h.1) h₀,
          layoutResizeCheck_across_le hw hlc (by simp) (hr.imp fun _ _ h => h.2)⟩

/-- On a tree that fits, any change within what the check gives returns, with the
    tree resized. -/
theorem layoutResizeAdjust_resized (ht : t ≠ .windowpane) {lc : LayoutCell} (hf : Fits t lc)
    {change : ℤ} (hc : -(layoutResizeCheck t lc : ℤ) ≤ change) :
    ∃ lc', layoutResizeAdjust lc t change = pure lc' ∧ Resized t change lc lc' := by
  obtain ⟨c, rfl | rfl⟩ := change.eq_nat_or_neg
  · exact layoutResizeAdjustAux_grow ht le_rfl hf c
  · obtain ⟨lc', h, hr, -⟩ := layoutResizeAdjustAux_shrink ht le_rfl hf (c := c) (by omega)
    exact ⟨lc', h, hr⟩

end Tmux
