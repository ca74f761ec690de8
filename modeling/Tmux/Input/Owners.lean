import Tmux.Input.Data
import Tmux.Screen.ResizeArrays

/-!
# The arrays of a pane

The grid of a pane and the one saved while it is in the alternate screen have their arrays on one heap (`PaneArrays`).
Whatever is done to the two, starting from a new pane, each array that is live belongs to one line of one of them, and
no array is used or released once it is released (`arraysRun_owner`).

There are two exceptions (`PaneArrays.Safe`). Clearing the cells of a line up to its end leaves their array allocated, but
`gridDuplicateLines` takes a line of size zero to have none, and gives its copy the same one. And collecting from the
history of a grid that has a single line loses that line.
-/

open Exec (Meets Along)

namespace Tmux

open Exec (Refines uadd)

namespace Arrays

/-! ## Operations on a grid -/

/-- Get cell for writing, if the row is one of the grid, the line being expanded to it. -/
def gridGetCell (h : Heap) (gd : OwnedGrid) (px py : ℕ) : Exec (Option ((Heap × OwnedGrid) × GridCell)) :=
  if !gridCheckY gd.erase py then pure none
  else do
    let (h, gd) ← updateRow h gd py fun h gl => gridExpandLine h gl (uadd px 1)
    let gl ← Block.load gd.linedata py
    h.access gl.cells
    let gc ← Block.load gl.celldata px
    pure (some ((h, gd), gc))

/-- Get UTF-8 for writing, if the row is one of the grid, the line being expanded to it. -/
def gridGetUtf8 (h : Heap) (gd : OwnedGrid) (px py : ℕ) : Exec (Option ((Heap × OwnedGrid) × Option GridUtf8)) :=
  if !gridCheckY gd.erase py then pure none
  else do
    let (h, gd) ← updateRow h gd py fun h gl => gridExpandLineUtf8 h gl (uadd px 1)
    let gl ← Block.load gd.linedata py
    h.access gl.utf8
    let gu ← Block.load gl.utf8data px
    pure (some ((h, gd), gu))

/-- Put a cell, and its UTF-8 data if it has any, at a column. -/
def putCharacter (h : Heap) (gd : OwnedGrid) (px py : ℕ) (gc : GridCell) (utf8data : Option Utf8Data) :
    Exec (Heap × OwnedGrid) := do
  let (h, gd) ← gridSetCell h gd px (gridViewY gd.erase py) gc
  if gc.isUtf8 then do
    let utf8data ← Exec.follow utf8data
    let gu ← gridUtf8Set utf8data
    gridSetUtf8 h gd px (gridViewY gd.erase py) gu
  else pure (h, gd)

/-- Carry out an operation on a grid. -/
def performGrid (h : Heap) (gd : OwnedGrid) : GridOperation → Exec (Heap × OwnedGrid)
  | .getCell px py => do
    let found ← gridGetCell h gd px py
    pure ((found.map Prod.fst).getD (h, gd))
  | .setCell px py gc => gridSetCell h gd px py gc
  | .getUtf8 px py => do
    let found ← gridGetUtf8 h gd px py
    pure ((found.map Prod.fst).getD (h, gd))
  | .setUtf8 px py gu => gridSetUtf8 h gd px py gu
  | .putCharacter px py gc utf8data => putCharacter h gd px py gc utf8data
  | .clear px py nx ny => gridClear h gd px py nx ny
  | .clearLines py ny => gridClearLines h gd py ny
  | .moveLines dy py ny => gridMoveLines h gd dy py ny
  | .moveCells dx px py nx => gridMoveCells h gd dx px py nx
  | .collectHistory => gridCollectHistory h gd
  | .scrollHistory => do
    let gd ← gridScrollHistory gd
    pure (h, gd)
  | .scrollHistoryRegion upper lower => do
    let gd ← gridScrollHistoryRegion gd upper lower
    pure (h, gd)

variable {h : Heap} {gd : OwnedGrid} {rest : ℕ → Prop}

theorem gridGetCell_erases (h : Heap) (gd : OwnedGrid) (px py : ℕ) :
    Refines (Option.map fun r : (Heap × OwnedGrid) × GridCell => (erased r.1, r.2)) (gridGetCell h gd px py)
      (Tmux.gridGetCell gd.erase px py) := by
  unfold gridGetCell Tmux.gridGetCell
  split_ifs
  · exact .pure rfl
  · refine (updateRow_erases h gd py fun gl _ => gridExpandLine_strips h gl _).bind fun q _ => ?_
    refine (Block.load_refines OwnedLine.toGridLine q.2.linedata py).bind fun gl _ => .skip fun _ _ => ?_
    exact Refines.bind (f := id) (fun _ hgc => hgc) fun gc _ => .pure rfl

theorem gridGetUtf8_erases (h : Heap) (gd : OwnedGrid) (px py : ℕ) :
    Refines (Option.map fun r : (Heap × OwnedGrid) × Option GridUtf8 => (erased r.1, r.2)) (gridGetUtf8 h gd px py)
      (Tmux.gridGetUtf8 gd.erase px py) := by
  unfold gridGetUtf8 Tmux.gridGetUtf8
  split_ifs
  · exact .pure rfl
  · refine (updateRow_erases h gd py fun gl _ => gridExpandLineUtf8_strips h gl _).bind fun q _ => ?_
    refine (Block.load_refines OwnedLine.toGridLine q.2.linedata py).bind fun gl _ => .skip fun _ _ => ?_
    exact Refines.bind (f := id) (fun _ hgu => hgu) fun gu _ => .pure rfl

theorem putCharacter_erases (h : Heap) (gd : OwnedGrid) (px py : ℕ) (gc : GridCell) (utf8data : Option Utf8Data) :
    Refines erased (putCharacter h gd px py gc utf8data) (Tmux.putCharacter gd.erase px py gc utf8data) := by
  refine (gridSetCell_erases h gd px _ gc).bind fun q _ => ?_
  dsimp only
  split_ifs
  · refine Refines.bind (f := id) (fun _ hdata => hdata) fun data _ => ?_
    exact Refines.bind (f := id) (fun _ hgu => hgu) fun gu _ => gridSetUtf8_erases q.1 q.2 px _ gu
  · exact .pure rfl

/-- The operations on a grid are those on the grid without the pointers. -/
theorem performGrid_erases (hgd : ∀ gl ∈ gd.linedata, gl.Sized) (op : GridOperation) :
    Refines erased (performGrid h gd op) (Tmux.performGrid gd.erase op) := by
  cases op with
  | getCell px py =>
    refine (gridGetCell_erases h gd px py).bind fun found _ => .pure ?_
    cases found <;> rfl
  | setCell px py gc => exact gridSetCell_erases h gd px py gc
  | getUtf8 px py =>
    refine (gridGetUtf8_erases h gd px py).bind fun found _ => .pure ?_
    cases found <;> rfl
  | setUtf8 px py gu => exact gridSetUtf8_erases h gd px py gu
  | putCharacter px py gc utf8data => exact putCharacter_erases h gd px py gc utf8data
  | clear px py nx ny => exact gridClear_erases h gd px py nx ny
  | clearLines py ny => exact gridClearLines_erases h gd py ny
  | moveLines dy py ny => exact gridMoveLines_erases h gd dy py ny
  | moveCells dx px py nx => exact gridMoveCells_erases h gd hgd dx px py nx
  | collectHistory => exact gridCollectHistory_erases h gd
  | scrollHistory => exact (gridScrollHistory_erases gd).map fun _ => rfl
  | scrollHistoryRegion upper lower => exact (gridScrollHistoryRegion_erases gd upper lower).map fun _ => rfl

theorem gridGetCell_owner (ho : gd.Owner h rest) (px py : ℕ) :
    Meets notFreed (fun found => ∀ r ∈ found, r.1.2.Owner r.1.1 rest) (gridGetCell h gd px py) := by
  unfold gridGetCell
  split_ifs with hrow
  · exact .pure fun _ hr => absurd hr (Option.not_mem_none _)
  · refine (updateRow_keeps ho (checkY_iff.1 hrow) fun gl hgl => gridExpandLine_becomes hgl _).bind fun q hq => ?_
    refine (Block.load_entries notFreed_overread py).bind fun gl hgl => ?_
    refine (Heap.meets_access notFreed_null (hq.owner.held hgl).cells_live).bind fun _ _ => ?_
    exact (Block.load_entries notFreed_overread px).bind fun gc _ => .pure fun r hr => Option.some.inj hr ▸ hq.owner

theorem gridGetUtf8_owner (ho : gd.Owner h rest) (px py : ℕ) :
    Meets notFreed (fun found => ∀ r ∈ found, r.1.2.Owner r.1.1 rest) (gridGetUtf8 h gd px py) := by
  unfold gridGetUtf8
  split_ifs with hrow
  · exact .pure fun _ hr => absurd hr (Option.not_mem_none _)
  · refine (updateRow_keeps ho (checkY_iff.1 hrow) fun gl hgl =>
      (gridExpandLineUtf8_becomes hgl _).mono fun _ hq => hq.1).bind fun q hq => ?_
    refine (Block.load_entries notFreed_overread py).bind fun gl hgl => ?_
    refine (Heap.meets_access notFreed_null (hq.owner.held hgl).utf8_live).bind fun _ _ => ?_
    exact (Block.load_entries notFreed_overread px).bind fun gu _ => .pure fun r hr => Option.some.inj hr ▸ hq.owner

theorem gridUtf8Set_notFreed (utf8data : Utf8Data) : Meets notFreed (fun _ => True) (gridUtf8Set utf8data) := by
  have hfatal : Exec.Fault.fatal ≠ .freed := by decide
  unfold gridUtf8Set
  split_ifs
  · exact hfatal
  · exact hfatal
  · exact .pure trivial

theorem putCharacter_owner (ho : gd.Owner h rest) (px py : ℕ) (gc : GridCell) (utf8data : Option Utf8Data) :
    Meets notFreed (fun q => q.2.Owner q.1 rest) (putCharacter h gd px py gc utf8data) := by
  refine (gridSetCell_keeps ho px _ gc).bind fun q hq => ?_
  dsimp only
  split_ifs
  · refine (Exec.meets_follow notFreed_null fun _ _ => trivial).bind fun data (_ : True) => ?_
    refine (gridUtf8Set_notFreed data).bind fun gu _ => ?_
    exact (gridSetUtf8_keeps hq.owner px _ gu).mono fun _ hq' => hq'.owner
  · exact .pure hq.owner

end Arrays

/-- What the callers of an operation on a grid promise: a region that is scrolled is on the screen. -/
def OwnedGrid.Called (gd : OwnedGrid) : GridOperation → Prop
  | .scrollHistoryRegion upper lower =>
    gd.hsize + gd.sy < Exec.word → gd.hsize ≤ upper ∧ upper ≤ lower ∧ lower < gd.lines
  | _ => True

/-- No line is lost by collecting from the history. -/
def OwnedGrid.Safe (gd : OwnedGrid) : GridOperation → Prop
  | .collectHistory => Arrays.Collects gd
  | _ => True

instance (gd : OwnedGrid) (op : GridOperation) : Decidable (gd.Called op) := by
  cases op <;> unfold OwnedGrid.Called <;> infer_instance

instance (gd : OwnedGrid) (op : GridOperation) : Decidable (gd.Safe op) := by
  cases op <;> unfold OwnedGrid.Safe <;> infer_instance

namespace Arrays

variable {h : Heap} {gd : OwnedGrid} {rest : ℕ → Prop}

/-- An operation on a grid keeps the owners of its arrays. -/
theorem performGrid_owner (ho : gd.Owner h rest) {op : GridOperation} (hcalled : gd.Called op) (hsafe : gd.Safe op) :
    Meets notFreed (fun q => q.2.Owner q.1 rest) (performGrid h gd op) := by
  have hfound : ∀ {α : Type} {found : Option ((Heap × OwnedGrid) × α)}, (∀ r ∈ found, r.1.2.Owner r.1.1 rest) →
      ((found.map Prod.fst).getD (h, gd)).2.Owner ((found.map Prod.fst).getD (h, gd)).1 rest := fun {_ found} hr => by
    cases found with
    | none => exact ho
    | some r => exact hr r rfl
  cases op with
  | getCell px py => exact (gridGetCell_owner ho px py).bind fun _ hr => .pure (hfound hr)
  | setCell px py gc => exact (gridSetCell_keeps ho px py gc).mono fun _ hq => hq.owner
  | getUtf8 px py => exact (gridGetUtf8_owner ho px py).bind fun _ hr => .pure (hfound hr)
  | setUtf8 px py gu => exact (gridSetUtf8_keeps ho px py gu).mono fun _ hq => hq.owner
  | putCharacter px py gc utf8data => exact putCharacter_owner ho px py gc utf8data
  | clear px py nx ny => exact (gridClear_keeps ho px py nx ny).mono fun _ hq => hq.owner
  | clearLines py ny => exact (gridClearLines_keeps ho py ny).mono fun _ hq => hq.1.owner
  | moveLines dy py ny => exact (gridMoveLines_keeps ho dy py ny).mono fun _ hq => hq.1.owner
  | moveCells dx px py nx => exact (gridMoveCells_keeps ho dx px py nx).mono fun _ hq => hq.owner
  | collectHistory => exact gridCollectHistory_owner ho hsafe
  | scrollHistory => exact (gridScrollHistory_owner ho).bind fun _ hgd => .pure hgd
  | scrollHistoryRegion upper lower => exact (gridScrollHistoryRegion_owner ho hcalled).bind fun _ hgd => .pure hgd

end Arrays

/-! ## A pane -/

/-- A line of a grid. -/
def OwnedGrid.line (gd : OwnedGrid) (i : ℕ) : Option OwnedLine := if i < gd.lines then gd.linedata[i]? else none

/-- The grid of a pane, and the one saved while it is in the alternate screen. -/
structure PaneArrays where
  heap : Heap := {}
  base : OwnedGrid
  saved : Option OwnedGrid := none
  deriving DecidableEq

/-- What is done to the grids of a pane. -/
inductive ArraysOperation
  | grid (op : GridOperation)
  | savedGrid (op : GridOperation)
  /-- Turn the history of the grid on or off. -/
  | history (on : Bool)
  /-- Resize the screen, with the cursor in the row `cy`. -/
  | resize (cy sx sy : ℕ)
  /-- Create a grid to save lines in, if there is none. -/
  | create (sx sy : ℕ)
  /-- Duplicate lines of the grid in the one saved. -/
  | save (dy sy ny : ℕ)
  /-- Duplicate lines of the grid saved. -/
  | restore (dy sy ny : ℕ)
  /-- Destroy the grid saved. -/
  | destroy
  deriving DecidableEq

namespace PaneArrays

/-- Do something to the grid of a pane. -/
def updateBase (wp : PaneArrays) (f : Heap → OwnedGrid → Exec (Heap × OwnedGrid)) : Exec PaneArrays := do
  let (heap, base) ← f wp.heap wp.base
  pure { wp with heap, base }

/-- Do something to the grid saved, if there is one. -/
def updateSaved (wp : PaneArrays) (f : Heap → OwnedGrid → Exec (Heap × OwnedGrid)) : Exec PaneArrays :=
  match wp.saved with
  | none => pure wp
  | some saved => do
    let (heap, saved) ← f wp.heap saved
    pure { wp with heap, saved := some saved }

/-- The lines of the grid saved. -/
def savedLines (wp : PaneArrays) : List OwnedLine := (wp.saved.map OwnedGrid.linedata).getD []

/-- A line of the grid (on the left) or of the one saved (on the right). -/
def line (wp : PaneArrays) : ℕ ⊕ ℕ → Option OwnedLine
  | .inl i => wp.base.line i
  | .inr i => wp.saved.bind (OwnedGrid.line · i)

/-- Every array that is live belongs to one line, and only to one of its two pointers, and no line points to one that is
    not live. -/
structure OneOwner (wp : PaneArrays) : Prop where
  owner : ∀ id ∈ wp.heap.live, ∃! i, ∃ gl ∈ wp.line i, id ∈ gl.arrays
  nodup : ∀ i, ∀ gl ∈ wp.line i, gl.arrays.Nodup
  live : ∀ i, ∀ gl ∈ wp.line i, ∀ id ∈ gl.arrays, id ∈ wp.heap.live

/-- Each of the grids owns the arrays that the other one does not. -/
structure Owner (wp : PaneArrays) : Prop where
  base : wp.base.Owner wp.heap (Owns OwnedLine.arrays wp.savedLines)
  saved : ∀ saved ∈ wp.saved, saved.Owner wp.heap (Owns OwnedLine.arrays wp.base.linedata)

end PaneArrays

/-- Carry out an operation on the grids of a pane. -/
def performArrays (wp : PaneArrays) : ArraysOperation → Exec PaneArrays
  | .grid op => wp.updateBase (Arrays.performGrid · · op)
  | .savedGrid op => wp.updateSaved (Arrays.performGrid · · op)
  | .history on => pure { wp with base := { wp.base with history := on } }
  | .resize cy sx sy => wp.updateBase (Arrays.screenResize · · cy sx sy)
  | .create sx sy => if wp.saved.isSome then pure wp else pure { wp with saved := some (Arrays.gridCreate sx sy 0) }
  | .save dy sy ny => wp.updateSaved fun h saved => Arrays.gridDuplicateLines h saved dy wp.base sy ny
  | .restore dy sy ny =>
    match wp.saved with
    | none => pure wp
    | some saved => wp.updateBase fun h gd => Arrays.gridDuplicateLines h gd dy saved sy ny
  | .destroy =>
    match wp.saved with
    | none => pure wp
    | some saved => do
      let heap ← Arrays.gridDestroy wp.heap saved
      pure { wp with heap, saved := none }

/-- The grid of a new pane. -/
def newArrays (sx sy hlimit : ℕ) : PaneArrays where
  base := Arrays.gridCreate sx sy hlimit

/-- A run of operations on the grids of a new pane. -/
def arraysRun (sx sy hlimit : ℕ) (ops : List ArraysOperation) : Exec PaneArrays :=
  ops.foldlM performArrays (newArrays sx sy hlimit)

/-- What the callers promise who duplicate `ny` lines of a grid from `sy` on in another one from `dy` on: the first ones
    are in the grids. -/
def DuplicateCalled (dst : OwnedGrid) (dy : ℕ) (src : OwnedGrid) (sy ny : ℕ) : Prop :=
  (dy ≤ dst.lines ∧ dy + ny < Exec.word) ∧ sy ≤ src.lines ∧ sy + ny < Exec.word

/-- No line of size zero is duplicated whose cells are still allocated. -/
def DuplicateSafe (src : OwnedGrid) (sy ny : ℕ) : Prop :=
  ∀ gl ∈ (src.linedata.drop sy).take ny, gl.celldata = [] → gl.cells = none

instance (dst : OwnedGrid) (dy : ℕ) (src : OwnedGrid) (sy ny : ℕ) : Decidable (DuplicateCalled dst dy src sy ny) :=
  inferInstanceAs (Decidable ((_ ∧ _) ∧ _ ∧ _))

instance (src : OwnedGrid) (sy ny : ℕ) : Decidable (DuplicateSafe src sy ny) :=
  inferInstanceAs (Decidable (∀ gl ∈ (src.linedata.drop sy).take ny, _))

namespace PaneArrays

/-- What the callers of an operation promise. -/
def Called (wp : PaneArrays) : ArraysOperation → Prop
  | .grid op => wp.base.Called op
  | .savedGrid op => ∀ saved ∈ wp.saved, saved.Called op
  | .history _ => True
  | .resize cy _ sy => wp.base.hsize + max wp.base.sy sy < Exec.word ∧ cy < wp.base.sy
  | .create _ sy => sy < Exec.word
  | .save dy sy ny => ∀ saved ∈ wp.saved, DuplicateCalled saved dy wp.base sy ny
  | .restore dy sy ny => ∀ saved ∈ wp.saved, DuplicateCalled wp.base dy saved sy ny
  | .destroy => True

/-- No line is lost by collecting from the history, and none of size zero is duplicated whose cells are still
    allocated. -/
def Safe (wp : PaneArrays) : ArraysOperation → Prop
  | .grid op => wp.base.Safe op
  | .savedGrid op => ∀ saved ∈ wp.saved, saved.Safe op
  | .save _ sy ny => DuplicateSafe wp.base sy ny
  | .restore _ sy ny => ∀ saved ∈ wp.saved, DuplicateSafe saved sy ny
  | _ => True

instance (wp : PaneArrays) (op : ArraysOperation) : Decidable (wp.Called op) := by
  cases op <;> unfold Called <;> infer_instance

instance (wp : PaneArrays) (op : ArraysOperation) : Decidable (wp.Safe op) := by
  cases op <;> unfold Safe <;> infer_instance

/-! ## Runs -/

variable {wp : PaneArrays} {h : Heap}

theorem mem_savedLines {gl : OwnedLine} : gl ∈ wp.savedLines ↔ ∃ saved ∈ wp.saved, gl ∈ saved.linedata := by
  rw [savedLines]
  cases wp.saved <;> simp

/-- Once one of two grids has changed, the other one owns what it owned. -/
theorem beside {h' : Heap} {gd other : OwnedGrid} {rest : ℕ → Prop}
    (ho : gd.Owner h (Owns OwnedLine.arrays other.linedata)) (hother : other.Owner h' rest) :
    other.Owner h (Owns OwnedLine.arrays gd.linedata) :=
  ⟨ho.owned.swap hother.owned, hother.sized, hother.past, hother.room⟩

theorem updateBase_owner (ho : wp.Owner) (f : Heap → OwnedGrid → Exec (Heap × OwnedGrid))
    (hf : Meets notFreed (fun q => q.2.Owner q.1 (Owns OwnedLine.arrays wp.savedLines)) (f wp.heap wp.base)) :
    Meets notFreed Owner (wp.updateBase f) := by
  refine hf.bind fun q hq => .pure ⟨hq, fun saved hsaved => ?_⟩
  refine beside ?_ (ho.saved saved hsaved)
  rwa [savedLines, show wp.saved = some saved from hsaved] at hq

theorem updateSaved_owner (ho : wp.Owner) (f : Heap → OwnedGrid → Exec (Heap × OwnedGrid))
    (hf : ∀ saved ∈ wp.saved,
      Meets notFreed (fun q => q.2.Owner q.1 (Owns OwnedLine.arrays wp.base.linedata)) (f wp.heap saved)) :
    Meets notFreed Owner (wp.updateSaved f) := by
  unfold updateSaved
  split
  case h_1 => exact .pure ho
  case h_2 saved hsaved =>
    refine (hf saved hsaved).bind fun q hq => .pure ⟨beside hq ho.base, fun saved' hsaved' => ?_⟩
    exact Option.some.inj hsaved' ▸ hq

theorem DuplicateSafe.copied {src : OwnedGrid} {sy ny : ℕ} (hsafe : DuplicateSafe src sy ny) (k : ℕ) (gl : OwnedLine)
    (hk : sy ≤ k) (hk' : k < sy + ny) (hgl : src.linedata[k]? = some gl) (hempty : gl.celldata = []) : gl.cells = none := by
  refine hsafe gl (List.mem_of_getElem? (i := k - sy) ?_) hempty
  rw [List.getElem?_take_of_lt (by omega), List.getElem?_drop, Nat.add_sub_cancel' hk, hgl]

/-- Destroying the grid saved leaves all arrays that are live to the other one. -/
theorem destroy_owner {saved : OwnedGrid} (ho : wp.Owner) (hsaved : wp.saved = some saved) :
    Meets notFreed (fun heap => Owner { wp with heap, saved := none }) (Arrays.gridDestroy wp.heap saved) := by
  refine (Arrays.gridDestroy_live (ho.saved saved hsaved)).mono fun heap hlive => ⟨?_, nofun⟩
  have hnone : ∀ id, ¬Owns OwnedLine.arrays ([] : List OwnedLine) id := fun id ⟨gl, hgl, _⟩ => List.not_mem_nil hgl
  have howned := ho.base.owned
  exact ⟨⟨howned.apart, howned.nodup, fun id _ => hnone id, fun id => (hlive id).trans (or_iff_right (hnone id)).symm⟩,
    ho.base.sized, ho.base.past, ho.base.room⟩

/-- A grid that is created owns no arrays. -/
theorem create_owner (ho : wp.Owner) (hsaved : wp.saved = none) (sx : ℕ) {sy : ℕ} (hsy : sy < Exec.word) :
    Owner { wp with saved := some (Arrays.gridCreate sx sy 0) } := by
  have hnone : ∀ id, ¬Owns OwnedLine.arrays wp.savedLines id := fun id ⟨gl, hgl, _⟩ => by
    rw [savedLines, hsaved] at hgl
    exact List.not_mem_nil hgl
  have hcreated : (Arrays.gridCreate sx sy 0).Owner wp.heap (Owns OwnedLine.arrays wp.base.linedata) :=
    Arrays.gridCreate_owner sx 0 hsy fun id => by rw [ho.base.owned.live, or_iff_right (hnone id)]
  exact ⟨beside hcreated ho.base, fun saved hsaved' => Option.some.inj hsaved' ▸ hcreated⟩

/-- The operations keep the owners. -/
theorem performArrays_owner (ho : wp.Owner) {op : ArraysOperation} (hcalled : wp.Called op) (hsafe : wp.Safe op) :
    Meets notFreed Owner (performArrays wp op) := by
  cases op with
  | grid op => exact updateBase_owner ho (Arrays.performGrid · · op) (Arrays.performGrid_owner ho.base hcalled hsafe)
  | savedGrid op =>
    exact updateSaved_owner ho (Arrays.performGrid · · op) fun saved hsaved =>
      Arrays.performGrid_owner (ho.saved saved hsaved) (hcalled saved hsaved) (hsafe saved hsaved)
  | history on =>
    exact .pure ⟨⟨ho.base.owned, ho.base.sized, ho.base.past, ho.base.room⟩, ho.saved⟩
  | resize cy sx sy =>
    exact updateBase_owner ho (Arrays.screenResize · · cy sx sy)
      (Arrays.screenResize_owner ho.base sx hcalled.1 hcalled.2)
  | create sx sy =>
    unfold performArrays
    split_ifs with hsome
    · exact .pure ho
    · exact .pure (create_owner ho (Option.not_isSome_iff_eq_none.1 hsome) sx hcalled)
  | save dy sy ny =>
    refine updateSaved_owner ho (Arrays.gridDuplicateLines · · dy wp.base sy ny) fun saved hsaved => ?_
    exact (Arrays.gridDuplicateLines_keeps (ho.saved saved hsaved) ho.base.sized (hcalled saved hsaved).1
      (hcalled saved hsaved).2 (DuplicateSafe.copied hsafe)).mono fun _ hq => hq.owner
  | restore dy sy ny =>
    unfold performArrays
    dsimp only
    split
    case h_1 => exact .pure ho
    case h_2 saved hsaved =>
      refine updateBase_owner ho _ ?_
      have hlines : wp.savedLines = saved.linedata := by
        rw [savedLines, hsaved]
        rfl
      have hbase := ho.base
      rw [hlines] at hbase ⊢
      exact (Arrays.gridDuplicateLines_keeps hbase (ho.saved saved hsaved).sized (hcalled saved hsaved).1
        (hcalled saved hsaved).2 (DuplicateSafe.copied (hsafe saved hsaved))).mono fun _ hq => hq.owner
  | destroy =>
    unfold performArrays
    dsimp only
    split
    case h_1 => exact .pure ho
    case h_2 saved hsaved => exact (destroy_owner ho hsaved).bind fun _ hheap => .pure hheap

theorem line_eq_some {gd : OwnedGrid} {i : ℕ} {gl : OwnedLine} :
    gd.line i = some gl ↔ i < gd.lines ∧ gd.linedata[i]? = some gl := by
  rw [OwnedGrid.line]
  split_ifs with hi
  · exact (and_iff_right hi).symm
  · exact ⟨nofun, fun h => absurd h.1 hi⟩

/-- An array of the block of lines of a grid is one of its lines. -/
theorem line_of_owns {gd : OwnedGrid} {rest : ℕ → Prop} (ho : gd.Owner h rest) {id : ℕ}
    (hid : Owns OwnedLine.arrays gd.linedata id) : ∃ i gl, gd.line i = some gl ∧ id ∈ gl.arrays := by
  obtain ⟨i, gl, hgl, hid⟩ := owns_iff_getElem?.1 hid
  refine ⟨i, gl, line_eq_some.2 ⟨?_, hgl⟩, hid⟩
  by_contra hpast
  exact List.not_mem_nil (ho.past i gl (not_lt.1 hpast) hgl ▸ hid)

theorem line_inr {i : ℕ} {gl : OwnedLine} :
    wp.line (.inr i) = some gl ↔ ∃ saved ∈ wp.saved, saved.line i = some gl := Option.bind_eq_some_iff

theorem owns_saved {saved : OwnedGrid} (hsaved : wp.saved = some saved) {i : ℕ} {gl : OwnedLine}
    (hgl : saved.line i = some gl) {id : ℕ} (hid : id ∈ gl.arrays) : Owns OwnedLine.arrays wp.savedLines id := by
  rw [savedLines, hsaved]
  exact .of_getElem? (line_eq_some.1 hgl).2 hid

/-- Where each of the grids owns the arrays that the other one does not, each array belongs to one line. -/
theorem Owner.oneOwner (ho : wp.Owner) : wp.OneOwner := by
  have howned := ho.base.owned
  refine ⟨fun id hid => ?_, fun i gl hgl => ?_, fun i gl hgl id hid => ?_⟩
  · rcases (howned.live id).1 hid with hsaves | hbase
    · -- It belongs to a line of the grid saved, and so to none of the other one.
      obtain ⟨gl₀, hgl₀, hid₀⟩ := hsaves
      obtain ⟨saved, hsaved, hgl₀⟩ := mem_savedLines.1 hgl₀
      obtain ⟨i, gl, hgl, hid⟩ := line_of_owns (ho.saved saved hsaved) ⟨gl₀, hgl₀, hid₀⟩
      refine ⟨.inr i, ⟨gl, line_inr.2 ⟨saved, hsaved, hgl⟩, hid⟩, fun j ⟨gl', hgl', hid'⟩ => ?_⟩
      cases j with
      | inl j =>
        exact absurd (owns_saved hsaved hgl hid) (howned.others id (.of_getElem? (line_eq_some.1 hgl').2 hid'))
      | inr j =>
        obtain ⟨saved', hsaved', hgl'⟩ := line_inr.1 hgl'
        obtain rfl := Option.mem_unique hsaved hsaved'
        rw [(ho.saved saved hsaved).owned.apart j i gl' gl id (line_eq_some.1 hgl').2 (line_eq_some.1 hgl).2 hid' hid]
    · obtain ⟨i, gl, hgl, hid⟩ := line_of_owns ho.base hbase
      refine ⟨.inl i, ⟨gl, hgl, hid⟩, fun j ⟨gl', hgl', hid'⟩ => ?_⟩
      cases j with
      | inl j => rw [howned.apart j i gl' gl id (line_eq_some.1 hgl').2 (line_eq_some.1 hgl).2 hid' hid]
      | inr j =>
        obtain ⟨saved, hsaved, hgl'⟩ := line_inr.1 hgl'
        exact absurd (owns_saved hsaved hgl' hid') (howned.others id hbase)
  · cases i with
    | inl i => exact howned.nodup gl (List.mem_of_getElem? (line_eq_some.1 hgl).2)
    | inr i =>
      obtain ⟨saved, hsaved, hgl⟩ := line_inr.1 hgl
      exact (ho.saved saved hsaved).owned.nodup gl (List.mem_of_getElem? (line_eq_some.1 hgl).2)
  · cases i with
    | inl i => exact howned.mem_live (line_eq_some.1 hgl).2 hid
    | inr i =>
      obtain ⟨saved, hsaved, hgl⟩ := line_inr.1 hgl
      exact (ho.saved saved hsaved).owned.mem_live (line_eq_some.1 hgl).2 hid

end PaneArrays

/-- The grid of a new pane owns no arrays. -/
theorem newArrays_owner (sx hlimit : ℕ) {sy : ℕ} (hsy : sy < Exec.word) : (newArrays sx sy hlimit).Owner where
  base := Arrays.gridCreate_owner sx hlimit hsy fun _ =>
    ⟨fun hid => absurd hid List.not_mem_nil, fun hid => absurd hid.choose_spec.1 List.not_mem_nil⟩
  saved _ hsaved := absurd hsaved (Option.not_mem_none _)

/-- After any part of a run each array that is live belongs to one line of one of the grids, and none was used or released
    once it was released, if no line is lost by collecting from the history, and none of size zero is duplicated whose
    cells are still allocated. -/
theorem arraysRun_owner {sx sy hlimit : ℕ} (hsy : sy < Exec.word) {ops : List ArraysOperation}
    (hops : Along performArrays (fun wp op => wp.Called op ∧ wp.Safe op) (newArrays sx sy hlimit) ops) :
    ∀ p, p <+: ops → Meets notFreed PaneArrays.OneOwner (arraysRun sx sy hlimit p) := by
  rintro p ⟨l, rfl⟩
  exact (Meets.foldlM_along (fun _ _ hop ho => PaneArrays.performArrays_owner ho hop.1 hop.2) hops.left
    (newArrays_owner sx hlimit hsy)).mono fun _ ho => ho.oneOwner

/-- A cell without data. -/
def letterCell : PlainCell := ⟨{ gridDefaultCell with data := 97 }, rfl⟩

/-- Write a character, push its line into the history, write another one, and enter and leave the alternate screen. -/
def scrolledOps : List ArraysOperation :=
  [.grid (.setCell 0 0 letterCell), .grid .collectHistory, .grid .scrollHistory, .grid (.setCell 1 1 letterCell),
    .create 3 1, .save 0 1 1, .grid (.clearLines 1 1), .history false, .restore 1 0 1, .history true, .destroy]

theorem arraysRun_owner_scrolled : Meets notFreed PaneArrays.OneOwner (arraysRun 3 1 10 scrolledOps) :=
  arraysRun_owner (by decide) (by decide) scrolledOps (List.prefix_rfl)

/-- Write a character, clear the line up to the cursor, and enter and leave the alternate screen. -/
def clearedOps : List ArraysOperation :=
  [.grid (.setCell 0 0 letterCell), .grid (.clear 0 0 2 1), .create 3 1, .save 0 0 1, .grid (.clearLines 0 1),
    .history false, .restore 0 0 1, .history true, .destroy]

/-- The array of a line that was cleared is released twice. -/
theorem arraysRun_freed :
    Along performArrays PaneArrays.Called (newArrays 3 1 10) clearedOps ∧
      ¬Meets notFreed PaneArrays.OneOwner (arraysRun 3 1 10 clearedOps) := by
  refine ⟨by decide, fun hmeets => ?_⟩
  have hrun : arraysRun 3 1 10 clearedOps = .fault .freed := by decide
  rw [hrun] at hmeets
  exact hmeets rfl

end Tmux
