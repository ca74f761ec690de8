import Mathlib.Algebra.GroupWithZero.Nat
import Tmux.Library.Tree

/-!
# Layout cells

The window layout is a tree of cells (`LayoutCell`), each of which can be a
left-right container for a list of cells, a top-bottom container for a list of
cells, or a container for a window pane. A cell knows its parent, and the pane
in it, by their addresses.

An axis of the layout is the `LayoutType` of the containers that run along it:
the size of a cell along the axis `leftright` is its `sx`, and along `topbottom`
its `sy` (`CellInfo.size`). A tree *fits* along an axis (`Fits`) if the children
of a container that runs along it fill the container, one cell apart, and the
children of any other container are as large as the container.
-/

namespace Tmux

/-- The types of layout cells. -/
inductive LayoutType
  | leftright
  | topbottom
  | windowpane
  deriving DecidableEq, Repr

/-- Minimum layout cell size, not including the separator line. -/
def paneMinimum : ℕ := 2

/-- The largest unsigned word, the size and the offset of a cell just created. -/
def uintMax : ℕ := 4294967295

/-- A layout cell, without its list of children. -/
structure CellInfo where
  /-- The address of the cell. -/
  id : ℕ
  type : LayoutType := .windowpane
  /-- The address of the container of the cell. -/
  parent : Option ℕ
  sx : ℕ := uintMax
  sy : ℕ := uintMax
  xoff : ℕ := uintMax
  yoff : ℕ := uintMax
  /-- The identifier of the pane in the cell. -/
  wp : Option ℕ := none
  deriving DecidableEq, Repr

/-- A layout cell, with its children. -/
abbrev LayoutCell := RoseTree CellInfo

namespace CellInfo

/-- The size of a cell along an axis. -/
def size (lc : CellInfo) (type : LayoutType) : ℕ :=
  if type = .leftright then lc.sx else lc.sy

/-- Set the size of a cell along an axis. -/
def withSize (lc : CellInfo) (type : LayoutType) (n : ℕ) : CellInfo :=
  if type = .leftright then { lc with sx := n } else { lc with sy := n }

@[simp] theorem size_withSize (lc : CellInfo) (t : LayoutType) (n : ℕ) :
    (lc.withSize t n).size t = n := by
  unfold withSize size; split <;> rfl

@[simp] theorem withSize_withSize (lc : CellInfo) (t : LayoutType) (m n : ℕ) :
    (lc.withSize t m).withSize t n = lc.withSize t n := by
  unfold withSize; split <;> rfl

@[simp] theorem withSize_size (lc : CellInfo) (t : LayoutType) : lc.withSize t (lc.size t) = lc := by
  unfold withSize size; split <;> rfl

@[simp] theorem id_withSize (lc : CellInfo) (t : LayoutType) (n : ℕ) :
    (lc.withSize t n).id = lc.id := by
  unfold withSize; split <;> rfl

@[simp] theorem type_withSize (lc : CellInfo) (t : LayoutType) (n : ℕ) :
    (lc.withSize t n).type = lc.type := by
  unfold withSize; split <;> rfl

@[simp] theorem parent_withSize (lc : CellInfo) (t : LayoutType) (n : ℕ) :
    (lc.withSize t n).parent = lc.parent := by
  unfold withSize; split <;> rfl

@[simp] theorem xoff_withSize (lc : CellInfo) (t : LayoutType) (n : ℕ) :
    (lc.withSize t n).xoff = lc.xoff := by
  unfold withSize; split <;> rfl

@[simp] theorem yoff_withSize (lc : CellInfo) (t : LayoutType) (n : ℕ) :
    (lc.withSize t n).yoff = lc.yoff := by
  unfold withSize; split <;> rfl

@[simp] theorem wp_withSize (lc : CellInfo) (t : LayoutType) (n : ℕ) :
    (lc.withSize t n).wp = lc.wp := by
  unfold withSize; split <;> rfl

end CellInfo

/-! ## Sizes along an axis -/

/-- A cell of type `t` is a container running along the axis `t`: its children
    and a separator after each but the last fill it. A container running across
    the axis shares its size with its children. A container has children, and a
    pane has none. -/
def FitsAt (t : LayoutType) (lc : CellInfo) (cells : List CellInfo) : Prop :=
  if lc.type = .windowpane then cells = []
  else if lc.type = t then (cells.map (·.size t)).sum + cells.length = lc.size t + 1
  else cells ≠ [] ∧ ∀ c ∈ cells, c.size t = lc.size t

/-- The sizes of the cells of a tree fit along the axis `t`. -/
def Fits (t : LayoutType) (lc : LayoutCell) : Prop := lc.Everywhere (FitsAt t)

/-- The panes of a tree have the minimum size along the axis `t`. -/
def Roomy (t : LayoutType) (lc : LayoutCell) : Prop :=
  ∀ c ∈ lc.nodes, c.type = .windowpane → paneMinimum ≤ c.size t

/-- A tree with its sizes along the axis `t` forgotten. -/
def erase (t : LayoutType) (lc : LayoutCell) : LayoutCell := lc.map (·.withSize t 0)

@[simp] theorem erase_node (t : LayoutType) (lc : CellInfo) (cells : List LayoutCell) :
    erase t (.node lc cells) = .node (lc.withSize t 0) (cells.map (erase t)) :=
  RoseTree.map_node _ _ _

theorem fits_node {t : LayoutType} {lc : CellInfo} {cells : List LayoutCell} :
    Fits t (.node lc cells) ↔ FitsAt t lc (cells.map RoseTree.val) ∧ ∀ c ∈ cells, Fits t c :=
  RoseTree.everywhere_node

theorem roomy_node {t : LayoutType} {lc : CellInfo} {cells : List LayoutCell} :
    Roomy t (.node lc cells) ↔
      (lc.type = .windowpane → paneMinimum ≤ lc.size t) ∧ ∀ c ∈ cells, Roomy t c := by
  simp only [Roomy, RoseTree.nodes_node, List.forall_mem_cons, List.mem_flatMap]
  exact and_congr_right fun _ => ⟨fun h c hc a ha => h a ⟨c, hc, ha⟩,
    fun h a ⟨c, hc, ha⟩ => h c hc a ha⟩

section Fits

variable {t : LayoutType} {lc : CellInfo} {cells : List LayoutCell}

theorem fits_windowpane (h : lc.type = .windowpane) : Fits t (.node lc cells) ↔ cells = [] := by
  rw [fits_node, FitsAt, if_pos h, List.map_eq_nil_iff, and_iff_left_iff_imp]
  rintro rfl
  simp

theorem fits_along (ht : t ≠ .windowpane) (h : lc.type = t) :
    Fits t (.node lc cells) ↔
      (cells.map fun c : LayoutCell => c.val.size t).sum + cells.length = lc.size t + 1 ∧
        ∀ c ∈ cells, Fits t c := by
  rw [fits_node, FitsAt, if_neg (h ▸ ht), if_pos h, List.map_map, List.length_map]
  rfl

theorem fits_across (hw : lc.type ≠ .windowpane) (h : lc.type ≠ t) :
    Fits t (.node lc cells) ↔
      cells ≠ [] ∧ (∀ c ∈ cells, c.val.size t = lc.size t) ∧ ∀ c ∈ cells, Fits t c := by
  rw [fits_node, FitsAt, if_neg hw, if_neg h, List.forall_mem_map, Ne, List.map_eq_nil_iff,
    and_assoc]

/-- A container that fits has children. -/
theorem Fits.ne_nil (ht : t ≠ .windowpane) (hf : Fits t (.node lc cells))
    (hw : lc.type ≠ .windowpane) : cells ≠ [] := by
  by_cases h : lc.type = t
  · rintro rfl
    simpa using ((fits_along ht h).1 hf).1
  · exact ((fits_across hw h).1 hf).1

end Fits

end Tmux
