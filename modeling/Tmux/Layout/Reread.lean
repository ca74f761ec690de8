import Tmux.Layout.Invariant
import Tmux.Layout.Text

/-!
# Reading the text of a layout back

The text that is dumped of a tree (`treeText`) has the cells of the tree in preorder. Reading a cell
stops where its text ends, whatever comes after it (`layoutConstruct_treeText`), so the tree constructed
from the text is the one that was dumped, with its cells at new addresses and without panes (`reread`).
-/

namespace Tmux

variable {lc : LayoutCell} {c : CellInfo} {rest : List UInt8} {bufsiz n next : ℕ} {lcparent : Option ℕ}

/-! ## Cells -/

/-- The sizes, the offsets and the pane of a cell are words. -/
structure CellInfo.Words (c : CellInfo) : Prop where
  sx : c.sx < Exec.word
  sy : c.sy < Exec.word
  xoff : c.xoff < Exec.word
  yoff : c.yoff < Exec.word

instance : DecidablePred CellInfo.Words := fun c =>
  decidable_of_iff (c.sx < Exec.word ∧ c.sy < Exec.word ∧ c.xoff < Exec.word ∧ c.yoff < Exec.word)
    ⟨fun h => ⟨h.1, h.2.1, h.2.2.1, h.2.2.2⟩, fun h => ⟨h.1, h.2, h.3, h.4⟩⟩

/-- A cell has children if it is a container, and otherwise a pane. -/
structure PrintedAt (c : CellInfo) (cells : List CellInfo) : Prop where
  words : c.Words
  leaf : c.type = .windowpane → cells = [] ∧ c.wp ≠ none
  container : c.type ≠ .windowpane → cells ≠ [] ∧ c.wp = none

/-- What a cell has apart from addresses. -/
def CellInfo.shape (c : CellInfo) : LayoutType × (ℕ × ℕ) × ℕ × ℕ := (c.type, (c.sx, c.sy), c.xoff, c.yoff)

theorem scanCell_cellText (hc : c.Words) (h : EndsNumber ((c.wp.map fun wp => 44 :: decimal wp).getD [] ++ rest)) :
    scanCell (cellText c ++ rest) = some (c.sx, c.sy, c.xoff, c.yoff) := by
  have hcomma : ∀ t, EndsNumber (44 :: t) := endsNumber_cons rfl
  have hcross : ∀ t, EndsNumber (120 :: t) := endsNumber_cons rfl
  simp [scanCell, cellText, skipByte, scanUnsigned_decimal hc.sx (hcross _), scanUnsigned_decimal hc.sy (hcomma _),
    scanUnsigned_decimal hc.xoff (hcomma _), scanUnsigned_decimal hc.yoff h]

theorem skipCell_cellText (h : EndsNumber rest) (hcomma : c.wp = none → rest.head? ≠ some 44) :
    skipCell (cellText c ++ rest) = some rest := by
  have hcomma' : ∀ t, EndsNumber (44 :: t) := endsNumber_cons rfl
  have hcross : ∀ t, EndsNumber (120 :: t) := endsNumber_cons rfl
  cases hwp : c.wp with
  | none =>
    simp [skipCell, cellText, skipByte, skipDigits, hwp, dropWhile_decimal (hcross _), dropWhile_decimal (hcomma' _),
      dropWhile_decimal h, hcomma hwp]
  | some wp =>
    simp [skipCell, cellText, skipByte, skipDigits, hwp, dropWhile_decimal (hcross _), dropWhile_decimal (hcomma' _),
      dropWhile_decimal h]

/-- The text of a cell starts with a digit. -/
theorem cellText_head (c : CellInfo) (rest : List UInt8) : (cellText c ++ rest).head?.any isDigitByte = true := by
  obtain ⟨d, hd, t, heq⟩ := exists_decimal c.sx
  simp [cellText, heq, isDigitByte_digitByte d hd]

theorem length_cellText_pos (c : CellInfo) : 0 < (cellText c).length := by
  simp [cellText]

theorem endsNumber_of_endsCell (h : endsCell rest = true) : EndsNumber rest := by
  cases rest with
  | nil => exact nofun
  | cons b t =>
    refine endsNumber_cons ?_ t
    simp only [endsCell, Bool.or_eq_true, decide_eq_true_eq] at h
    rcases h with (rfl | rfl) | rfl <;> rfl

/-! ## Trees -/

mutual

/-- The text of a tree. -/
def treeText : LayoutCell → List UInt8
  | .node lc cells =>
    cellText lc ++ if lc.type = .windowpane then []
      else lc.type.brackets.1 :: (cellsText cells ++ [lc.type.brackets.2])

/-- The texts of the children of a container, with commas between. -/
def cellsText : List LayoutCell → List UInt8
  | [] => []
  | lc :: cells => treeText lc ++ if cells = [] then [] else 44 :: cellsText cells

end

mutual

/-- A tree at the addresses from `next` on, without panes. -/
def reread (next : ℕ) (lcparent : Option ℕ) : LayoutCell → LayoutCell
  | .node lc cells => .node { lc with id := next, parent := lcparent, wp := none } (rereadCells (next + 1) next cells)

/-- The children of a container at the addresses from `next` on. -/
def rereadCells (next lcparent : ℕ) : List LayoutCell → List LayoutCell
  | [] => []
  | lc :: cells => reread next (some lcparent) lc :: rereadCells (next + lc.nodes.length) lcparent cells

end

/-- Every cell of a tree is printed in full. -/
abbrev Printed (lc : LayoutCell) : Prop := lc.Everywhere PrintedAt

/-! ## Printing -/

theorem eq_append_of_strlcat {buf src out : List UInt8} {len : ℕ} (h : strlcat buf src len = some out) :
    out = buf ++ src := by
  rw [strlcat] at h
  split_ifs at h
  exact (Option.some.inj h).symm

/-- What is appended for the children of a container, with a comma after the last one too. -/
theorem layoutAppendCells_eq {cells : List LayoutCell} {buf out : List UInt8}
    (hcells : ∀ lc ∈ cells, ∀ buf out, layoutAppend bufsiz lc buf = some out → out = buf ++ treeText lc)
    (hne : cells ≠ []) (h : layoutAppendCells bufsiz cells buf = some out) : out = buf ++ cellsText cells ++ [44] := by
  induction cells generalizing buf with
  | nil => exact absurd rfl hne
  | cons lc cells ih =>
    rw [List.forall_mem_cons] at hcells
    rw [layoutAppendCells] at h
    obtain ⟨buf₁, h₁, h⟩ := Option.bind_eq_some_iff.1 h
    obtain ⟨buf₂, h₂, h⟩ := Option.bind_eq_some_iff.1 h
    rw [hcells.1 _ _ h₁] at h₂
    rw [eq_append_of_strlcat h₂] at h
    rw [cellsText]
    by_cases hlast : cells = []
    · subst hlast
      rw [if_pos rfl, List.append_nil]
      exact (Option.some.inj h).symm
    · rw [if_neg hlast, ih hcells.2 hlast h]
      simp

/-- What is appended for a tree is its text. -/
theorem layoutAppend_eq (h : Printed lc) {buf out : List UInt8} (hout : layoutAppend bufsiz lc buf = some out) :
    out = buf ++ treeText lc := by
  induction lc using RoseTree.induct generalizing buf out with
  | node c cells ih =>
    obtain ⟨hc, hcells⟩ := RoseTree.everywhere_node.1 h
    rw [layoutAppend] at hout
    rw [treeText]
    split_ifs at hout with hlen hlong hleaf
    · obtain ⟨buf₁, h₁, hout⟩ := Option.bind_eq_some_iff.1 hout
      rw [if_pos hleaf, List.append_nil, ← eq_append_of_strlcat h₁]
      exact (Option.some.inj hout).symm
    · obtain ⟨buf₁, h₁, hout⟩ := Option.bind_eq_some_iff.1 hout
      obtain ⟨buf₂, h₂, hout⟩ := Option.bind_eq_some_iff.1 hout
      obtain ⟨buf₃, h₃, hout⟩ := Option.bind_eq_some_iff.1 hout
      have hne : cells ≠ [] := fun hnil => (hc.container hleaf).1 (by rw [hnil]; rfl)
      rw [layoutAppendCells_eq (fun lc hlc _ _ => ih lc hlc (hcells lc hlc)) hne h₃, eq_append_of_strlcat h₂,
        eq_append_of_strlcat h₁, List.dropLast_concat] at hout
      rw [if_neg hleaf, ← Option.some.inj hout]
      simp

/-! ## Reading back -/

theorem bracket_endsCell (type : LayoutType) (rest : List UInt8) : endsCell (type.brackets.2 :: rest) = true := by
  cases type <;> rfl

theorem bracket_ne_comma (type : LayoutType) : type.brackets.2 ≠ 44 := by
  cases type <;> decide

/-- The opening bracket of a container tells its type. -/
theorem openedType_bracket {type : LayoutType} (h : type ≠ .windowpane) (t : List UInt8) :
    openedType (type.brackets.1 :: t) = some type ∧ endsCell (type.brackets.1 :: t) = false ∧
      EndsNumber (type.brackets.1 :: t) ∧ type.brackets.1 ≠ 44 := by
  cases type with
  | leftright => exact ⟨rfl, rfl, endsNumber_cons rfl t, by decide⟩
  | topbottom => exact ⟨rfl, rfl, endsNumber_cons rfl t, by decide⟩
  | windowpane => exact absurd rfl h

/-- The children of a container are read back up to its closing bracket. -/
theorem constructCells_cellsText {cells : List LayoutCell} {b : UInt8} {id : ℕ}
    (hread : ∀ lc ∈ cells, ∀ (n next : ℕ) (lcparent : Option ℕ) (rest : List UInt8), endsCell rest = true →
      (treeText lc).length < n → layoutConstruct n next lcparent (treeText lc ++ rest) =
        pure (some (reread next lcparent lc, next + lc.nodes.length, rest)))
    (hne : cells ≠ []) (hb : endsCell (b :: rest) = true) (hcomma : b ≠ 44) (hn : (cellsText cells).length + 1 < n) :
    constructCells n next id (cellsText cells ++ b :: rest) =
      pure (some (rereadCells next id cells, next + (cells.flatMap RoseTree.nodes).length, b :: rest)) := by
  induction cells generalizing n next with
  | nil => exact absurd rfl hne
  | cons lc cells ih =>
    rw [List.forall_mem_cons] at hread
    obtain _ | n := n
    · exact absurd hn (Nat.not_lt_zero _)
    rw [cellsText, List.length_append] at hn
    rw [cellsText, constructCells, List.append_assoc, List.flatMap_cons, List.length_append, rereadCells]
    by_cases hlast : cells = []
    · subst hlast
      rw [if_pos rfl, List.nil_append, hread.1 _ _ _ _ hb (by omega), pure_bind]
      dsimp only
      rw [if_pos (by simpa using hcomma)]
      rfl
    · rw [if_neg hlast] at hn ⊢
      rw [List.length_cons] at hn
      rw [hread.1 _ _ _ _ rfl (by omega), pure_bind]
      dsimp only
      rw [if_neg (by simp), List.cons_append, List.tail_cons, ih hread.2 hlast (by omega), pure_bind, Nat.add_assoc]

/-- A tree is read back from its text, up to what comes after it. -/
theorem layoutConstruct_treeText (h : Printed lc) (hrest : endsCell rest = true) (hn : (treeText lc).length < n) :
    layoutConstruct n next lcparent (treeText lc ++ rest) =
      pure (some (reread next lcparent lc, next + lc.nodes.length, rest)) := by
  induction lc using RoseTree.induct generalizing n next lcparent rest with
  | node c cells ih =>
    obtain ⟨hc, hcells⟩ := RoseTree.everywhere_node.1 h
    obtain _ | n := n
    · exact absurd hn (Nat.not_lt_zero _)
    rw [treeText, List.length_append] at hn
    rw [treeText, layoutConstruct, List.append_assoc, cellText_head, Bool.not_true, if_neg Bool.false_ne_true,
      RoseTree.nodes_node, reread]
    by_cases hleaf : c.type = .windowpane
    · obtain ⟨hnil, hwp⟩ := hc.leaf hleaf
      obtain rfl : cells = [] := List.map_eq_nil_iff.1 hnil
      obtain ⟨wp, hwp⟩ := Option.ne_none_iff_exists'.1 hwp
      have hends : EndsNumber ((c.wp.map fun wp => 44 :: decimal wp).getD [] ++ rest) := by
        rw [hwp]
        exact endsNumber_cons rfl _
      have hscan := scanCell_cellText hc.words hends
      rw [if_pos hleaf, List.nil_append, hscan, skipCell_cellText (endsNumber_of_endsCell hrest) (by simp [hwp])]
      dsimp only
      rw [if_pos hrest]
      simp [layoutSetSize, layoutCreateCell, rereadCells, hleaf]
    · obtain ⟨hne, hwp⟩ := hc.container hleaf
      have hne : cells ≠ [] := fun hnil => hne (by rw [hnil]; rfl)
      rw [if_neg hleaf] at hn ⊢
      rw [List.length_cons, List.length_append, List.length_singleton] at hn
      rw [List.cons_append, List.append_assoc, List.singleton_append]
      obtain ⟨htype, hopen, hends, hcomma⟩ := openedType_bracket hleaf (cellsText cells ++ c.type.brackets.2 :: rest)
      have hlength := length_cellText_pos c
      rw [scanCell_cellText hc.words (by rw [hwp]; exact hends), skipCell_cellText hends fun _ => by simpa using hcomma]
      dsimp only
      rw [hopen, if_neg Bool.false_ne_true, htype]
      dsimp only
      rw [List.tail_cons, constructCells_cellsText (fun lc hlc n next lcparent rest hrest hn =>
        ih lc hlc (hcells lc hlc) hrest hn) hne (bracket_endsCell _ _) (bracket_ne_comma _) (by omega), pure_bind]
      dsimp only
      rw [if_neg (by simp), List.tail_cons, List.length_cons, Nat.add_assoc, Nat.add_comm 1]
      rfl

/-! ## The layout of a window -/

theorem map_shape_reread (next : ℕ) (lcparent : Option ℕ) (lc : LayoutCell) :
    (reread next lcparent lc).map CellInfo.shape = lc.map CellInfo.shape := by
  induction lc using RoseTree.induct generalizing next lcparent with
  | node c cells ih =>
    have hcells : ∀ n, (rereadCells n next cells).map (RoseTree.map CellInfo.shape) =
        cells.map (RoseTree.map CellInfo.shape) := by
      induction cells with
      | nil => exact fun _ => rfl
      | cons lc cells ihc =>
        intro n
        rw [rereadCells, List.map_cons, List.map_cons, ih lc List.mem_cons_self,
          ihc fun t ht => ih t (List.mem_cons_of_mem _ ht)]
    rw [reread, RoseTree.map_node, RoseTree.map_node, hcells]
    rfl

/-- A consistent layout with panes in all its leaves is printed in full. -/
theorem printed_of_cells (h : Cells lc) (hpanes : ∀ c ∈ lc.nodes, c.type = .windowpane → c.wp ≠ none)
    (hwords : ∀ c ∈ lc.nodes, c.Words) : Printed lc := by
  have hnodes := RoseTree.everywhere_iff_forall_mem.2 fun c hc => And.intro (hwords c hc) (hpanes c hc)
  refine (RoseTree.everywhere_and.2 ⟨h, hnodes⟩).mono fun c cells hc => ⟨hc.2.1, fun hleaf => ⟨?_, hc.2.2 hleaf⟩, ?_⟩
  · have hfits := hc.1.fitsX
    rwa [FitsAt, if_pos hleaf] at hfits
  · intro hcontainer
    refine ⟨fun hnil => ?_, hc.1.linked.wp hcontainer⟩
    have hshape := hc.1.linked.shape hcontainer
    rw [hnil] at hshape
    exact absurd hshape (by decide)

/-- The checksum that is dumped is the one that is recomputed. -/
theorem checkedLayout_dumped (layout : List UInt8) :
    checkedLayout ((Numeral.numeral 16 (layoutChecksum layout).toNat).leftpad 4 32 ++ 44 :: layout) =
      pure (some layout) := by
  have hchecksum : (layoutChecksum layout).toNat < 65536 := (layoutChecksum layout).toNat_lt
  have hlength := Numeral.length_numeral_le (b := 16) (k := 4) (by decide) (by decide) (by decide) hchecksum
  have hpadded : ((Numeral.numeral 16 (layoutChecksum layout).toNat).leftpad 4 32).length = 4 := by
    rw [List.length_leftpad, Nat.max_eq_left hlength]
  have hdrop : ((Numeral.numeral 16 (layoutChecksum layout).toNat).leftpad 4 32 ++ 44 :: layout).drop 5 = layout := by
    rw [List.drop_append, hpadded, List.drop_eq_nil_of_le (by omega)]
    rfl
  rw [checkedLayout, scanShortHex_hex hchecksum]
  dsimp only
  rw [if_neg (by rw [List.length_append, hpadded, List.length_cons]; omega), hdrop, if_neg (not_not.2 rfl)]

/-- The tree constructed from the text dumped of a consistent layout is that layout. -/
theorem layoutConstruct_layoutDump (h : Cells lc) (hpanes : ∀ c ∈ lc.nodes, c.type = .windowpane → c.wp ≠ none)
    (hwords : ∀ c ∈ lc.nodes, c.Words) {text : List UInt8} (hdump : layoutDump bufsiz lc = some text) (next : ℕ) :
    ∃ layout, layoutAppend bufsiz lc [] = some layout ∧ checkedLayout text = pure (some layout) ∧
      ∃ lc' next', layoutConstruct (layout.length + 1) next none layout = pure (some (lc', next', [])) ∧
        lc'.map CellInfo.shape = lc.map CellInfo.shape := by
  have hprinted := printed_of_cells h hpanes hwords
  obtain ⟨layout, happend, rfl⟩ := Option.map_eq_some_iff.1 hdump
  obtain rfl : layout = treeText lc := layoutAppend_eq hprinted happend
  have hread := @layoutConstruct_treeText _ [] _ next none hprinted rfl (Nat.lt_succ_self _)
  rw [List.append_nil] at hread
  exact ⟨_, happend, checkedLayout_dumped _, _, _, hread, map_shape_reread _ _ _⟩

/-- Two panes beside each other. -/
def besidePanes : LayoutCell :=
  .node { id := 0, type := .leftright, parent := none, sx := 80, sy := 24, xoff := 0, yoff := 0 }
    [.node { id := 1, parent := some 0, sx := 40, sy := 24, xoff := 0, yoff := 0, wp := some 0 } [],
      .node { id := 2, parent := some 0, sx := 39, sy := 24, xoff := 41, yoff := 0, wp := some 1 } []]

theorem besidePanes_cells : Cells besidePanes := by
  have hleaf : ∀ c : CellInfo, c.type = .windowpane → Cells (.node c []) := fun c hc =>
    RoseTree.everywhere_node.2 ⟨⟨by rw [FitsAt, if_pos hc]; rfl, by rw [FitsAt, if_pos hc]; rfl,
      ⟨fun h => absurd hc h, fun h => absurd hc h, nofun⟩⟩, nofun⟩
  refine RoseTree.everywhere_node.2 ⟨⟨by simp [FitsAt, CellInfo.size], by simp [FitsAt, CellInfo.size],
    ⟨by decide, by decide, by decide⟩⟩, ?_⟩
  rintro t (_ | ⟨_, _ | ⟨_, _ | _⟩⟩)
  · exact hleaf _ rfl
  · exact hleaf _ rfl

theorem layoutConstruct_layoutDump_small : ∃ text layout, layoutDump 8192 besidePanes = some text ∧
    checkedLayout text = pure (some layout) ∧
    ∃ lc' next', layoutConstruct (layout.length + 1) 3 none layout = pure (some (lc', next', [])) ∧
      lc'.map CellInfo.shape = besidePanes.map CellInfo.shape := by
  have hsome : (layoutDump 8192 besidePanes).isSome = true := by decide +kernel
  obtain ⟨text, hdump⟩ := Option.isSome_iff_exists.1 hsome
  obtain ⟨layout, -, hchecked, hread⟩ := layoutConstruct_layoutDump besidePanes_cells (by decide) (by decide) hdump 3
  exact ⟨text, layout, hdump, hchecked, hread⟩

end Tmux
