import Tmux.Layout.Reread

/-!
# The text of a layout without panes

In an older form of the text of a layout the cells have no panes (`oldText`). A comma after a cell is then taken to
be before a pane, also where it is before the next child of a container, whose width is lost. Every layout of
several panes has two panes next to each other in one container, so only the text of a single pane is read
(`layoutConstruct_oldText_iff`).
-/

namespace Tmux

variable {lc : LayoutCell} {c : CellInfo} {rest : List UInt8} {n next : ℕ} {lcparent : Option ℕ}

/-- A cell without its pane. -/
def CellInfo.withoutPane (c : CellInfo) : CellInfo := { c with wp := none }

/-- The text of a layout in the older form. -/
def oldText (lc : LayoutCell) : List UInt8 := treeText (lc.map CellInfo.withoutPane)

/-- A cell without a pane has at least two children if it is a container, and otherwise none. -/
structure OldAt (c : CellInfo) (cells : List CellInfo) : Prop where
  words : c.Words
  wp : c.wp = none
  leaf : c.type = .windowpane → cells = []
  container : c.type ≠ .windowpane → 2 ≤ cells.length

theorem old_of_cells (h : Cells lc) (hwords : ∀ c ∈ lc.nodes, c.Words) :
    (lc.map CellInfo.withoutPane).Everywhere OldAt := by
  rw [RoseTree.everywhere_map]
  refine (RoseTree.everywhere_and.2 ⟨h, RoseTree.everywhere_iff_forall_mem.2 hwords⟩).mono fun c cells hc => ?_
  refine ⟨⟨hc.2.sx, hc.2.sy, hc.2.xoff, hc.2.yoff⟩, rfl, fun hleaf => ?_, fun hcontainer => ?_⟩
  · have hfits := hc.1.fitsX
    rw [FitsAt, if_pos (show c.type = .windowpane from hleaf)] at hfits
    rw [hfits, List.map_nil]
  · rw [List.length_map]
    exact hc.1.linked.shape hcontainer

/-- The number after a comma is skipped, and what comes after it is not the end of a cell. -/
theorem layoutConstruct_sibling (hc : c.Words) (hwp : c.wp = none) (d : ℕ) (rest : List UInt8) :
    layoutConstruct (n + 1) next lcparent (cellText c ++ 44 :: (decimal d ++ 120 :: rest)) = pure none := by
  have hcomma : ∀ t, EndsNumber (44 :: t) := endsNumber_cons rfl
  have hcross : ∀ t, EndsNumber (120 :: t) := endsNumber_cons rfl
  have hskip : skipCell (cellText c ++ 44 :: (decimal d ++ 120 :: rest)) = some (120 :: rest) := by
    simp [skipCell, cellText, skipByte, skipDigits, hwp, dropWhile_decimal (hcross _), dropWhile_decimal (hcomma _)]
  have hscan := @scanCell_cellText c (44 :: (decimal d ++ 120 :: rest)) hc (by rw [hwp]; exact hcomma _)
  rw [layoutConstruct, cellText_head, Bool.not_true, if_neg Bool.false_ne_true, hscan, hskip]
  rfl

/-- The text of a tree starts with a number and a cross. -/
theorem treeText_head (lc : LayoutCell) : ∃ d t, treeText lc = decimal d ++ 120 :: t := by
  cases lc with
  | node c cells =>
    rw [treeText, cellText]
    simp only [List.append_assoc, List.cons_append]
    exact ⟨c.sx, _, rfl⟩

/-- The text of a container is not read. -/
theorem layoutConstruct_old (h : lc.Everywhere OldAt) (hcontainer : lc.val.type ≠ .windowpane)
    (hn : (treeText lc).length < n) (rest : List UInt8) :
    layoutConstruct n next lcparent (treeText lc ++ rest) = pure none := by
  induction lc using RoseTree.induct generalizing n next lcparent rest with
  | node c cells ih =>
    obtain ⟨hc, hcells⟩ := RoseTree.everywhere_node.1 h
    rw [RoseTree.val_node] at hcontainer
    obtain _ | n := n
    · exact absurd hn (Nat.not_lt_zero _)
    obtain ⟨lc₁, lc₂, cells, rfl⟩ : ∃ lc₁ lc₂ cells', cells = lc₁ :: lc₂ :: cells' := by
      have hlength := hc.container hcontainer
      rw [List.length_map] at hlength
      match cells, hlength with
      | lc₁ :: lc₂ :: cells', _ => exact ⟨lc₁, lc₂, cells', rfl⟩
    obtain ⟨hopened, hopen, hends, hbracket⟩ := openedType_bracket hcontainer
      (cellsText (lc₁ :: lc₂ :: cells) ++ c.type.brackets.2 :: rest)
    have htext : treeText (.node c (lc₁ :: lc₂ :: cells)) ++ rest =
        cellText c ++ c.type.brackets.1 :: (cellsText (lc₁ :: lc₂ :: cells) ++ c.type.brackets.2 :: rest) := by
      rw [treeText, if_neg hcontainer]
      simp
    obtain ⟨t, hcells₁⟩ : ∃ t, cellsText (lc₁ :: lc₂ :: cells) ++ c.type.brackets.2 :: rest =
        treeText lc₁ ++ 44 :: (treeText lc₂ ++ t) := by
      rw [cellsText, if_neg (List.cons_ne_nil _ _), cellsText]
      simp only [List.append_assoc, List.cons_append]
      exact ⟨_, rfl⟩
    -- The first child is a container that is not read, or a pane with another child after it.
    have hfirst : ∀ m next' parent, (treeText lc₁).length < m + 1 →
        layoutConstruct (m + 1) next' parent (treeText lc₁ ++ 44 :: (treeText lc₂ ++ t)) = pure none := by
      intro m next' parent hm
      by_cases hleaf : lc₁.val.type = .windowpane
      · cases lc₁ with
        | node c₁ cells₁ =>
          rw [RoseTree.val_node] at hleaf
          have hc₁ := (RoseTree.everywhere_node.1 (hcells _ List.mem_cons_self)).1
          obtain ⟨d, t₂, ht₂⟩ := treeText_head lc₂
          rw [treeText, if_pos hleaf, List.append_nil, ht₂, List.append_assoc, List.cons_append]
          exact layoutConstruct_sibling hc₁.words hc₁.wp d _
      · exact ih lc₁ List.mem_cons_self (hcells _ List.mem_cons_self) hleaf hm _
    have hlength : (treeText lc₁).length + 1 ≤ (cellsText (lc₁ :: lc₂ :: cells)).length := by
      rw [cellsText, if_neg (List.cons_ne_nil _ _), List.length_append, List.length_cons]
      omega
    have hpos := length_cellText_pos c
    rw [treeText, if_neg hcontainer, List.length_append, List.length_cons, List.length_append] at hn
    obtain ⟨m, rfl⟩ : ∃ m, n = m + 2 := ⟨n - 2, by omega⟩
    rw [htext, layoutConstruct, cellText_head, Bool.not_true, if_neg Bool.false_ne_true,
      scanCell_cellText hc.words (by rw [hc.wp]; exact hends), skipCell_cellText hends fun _ => by simpa using hbracket]
    dsimp only
    rw [hopen, if_neg Bool.false_ne_true, hopened]
    dsimp only
    rw [List.tail_cons, hcells₁, constructCells, hfirst m _ _ (by omega), pure_bind]
    rfl

/-- The text of a layout in the older form is read as the layout exactly if it is a single pane. -/
theorem layoutConstruct_oldText_iff (h : Cells lc) (hwords : ∀ c ∈ lc.nodes, c.Words) (next : ℕ) :
    (∃ lc' next', layoutConstruct ((oldText lc).length + 1) next none (oldText lc) = pure (some (lc', next', [])) ∧
      lc'.map CellInfo.shape = lc.map CellInfo.shape) ↔ lc.val.type = .windowpane := by
  have hold := old_of_cells h hwords
  constructor
  · rintro ⟨lc', next', hread, -⟩
    by_contra hcontainer
    have hnone : layoutConstruct ((oldText lc).length + 1) next none (oldText lc ++ []) = pure none :=
      layoutConstruct_old hold (by rwa [RoseTree.val_map]) (Nat.lt_succ_self _) []
    rw [List.append_nil, hread] at hnone
    cases hnone
  · intro hleaf
    cases lc with
    | node c cells =>
      rw [RoseTree.val_node] at hleaf
      have hc := (RoseTree.everywhere_node.1 (RoseTree.map_node CellInfo.withoutPane c cells ▸ hold)).1
      obtain rfl : cells = [] := by
        have hcells := hc.leaf hleaf
        rwa [List.map_eq_nil_iff, List.map_eq_nil_iff] at hcells
      have htext : oldText (.node c []) = cellText c.withoutPane ++ [] := by
        rw [oldText, RoseTree.map_node, treeText]
        exact congrArg _ (if_pos hleaf)
      have hends : EndsNumber [] := endsNumber_of_endsCell rfl
      rw [htext, layoutConstruct, cellText_head, Bool.not_true, if_neg Bool.false_ne_true, scanCell_cellText hc.words hends,
        skipCell_cellText hends fun _ h => by cases h]
      refine ⟨_, _, rfl, ?_⟩
      rw [RoseTree.map_node, RoseTree.map_node]
      show RoseTree.node (LayoutType.windowpane, _) _ = _
      rw [← hleaf]
      rfl

/-- A single pane. -/
def singlePane : LayoutCell := .node { id := 0, parent := none, sx := 80, sy := 24, xoff := 0, yoff := 0, wp := some 0 } []

theorem layoutConstruct_oldText_single : ∃ lc' next',
    layoutConstruct ((oldText singlePane).length + 1) 1 none (oldText singlePane) = pure (some (lc', next', [])) ∧
      lc'.map CellInfo.shape = singlePane.map CellInfo.shape := by
  have hcells : Cells singlePane :=
    RoseTree.everywhere_node.2 ⟨⟨rfl, rfl, ⟨by decide, by decide, by simp⟩⟩, fun _ h => absurd h List.not_mem_nil⟩
  exact (layoutConstruct_oldText_iff hcells (by decide) 1).2 rfl

/-- Two panes beside each other. -/
theorem layoutConstruct_oldText_beside :
    layoutConstruct ((oldText besidePanes).length + 1) 3 none (oldText besidePanes) = pure none := by
  have hnone := @layoutConstruct_old _ ((oldText besidePanes).length + 1) 3 none
    (old_of_cells besidePanes_cells (by decide)) (by decide) (Nat.lt_succ_self _) []
  rwa [List.append_nil] at hnone

end Tmux
