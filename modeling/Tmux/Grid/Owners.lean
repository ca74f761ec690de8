import Tmux.Grid.Arrays

/-!
# The owners of the arrays

The lines of a grid own arrays on a heap (`OwnedGrid.Owner`): none belongs to two lines or to anything else, and lines
after the last one own none. Every operation on a grid keeps this, and neither uses nor releases an array that is
released, with two exceptions. Copying a line whose size is zero but whose cells are still allocated copies the pointer
to them (`gridDuplicateLines_keeps` is about the lines otherwise). And if more than half of the lines are collected from
the history, which happens only if there is a single one, not all of them are freed.
-/

open Exec (Meets Allowed)

namespace Tmux

open Exec (Refines uadd usub)

/-- Everything is allowed, but not the use or the release of an array that is released. -/
abbrev notFreed : Allowed := .avoid .freed

/-- The number of lines of a grid. -/
def OwnedGrid.lines (gd : OwnedGrid) : ℕ := uadd gd.hsize gd.sy

/-- The lines of a grid own the arrays on a heap that do not belong to the rest. Those after the last one own none. -/
structure OwnedGrid.Owner (gd : OwnedGrid) (h : Heap) (rest : ℕ → Prop) : Prop where
  owned : Owned OwnedLine.arrays h rest gd.linedata
  sized : ∀ gl ∈ gd.linedata, gl.Sized
  past : ∀ i gl, gd.lines ≤ i → gd.linedata[i]? = some gl → gl.arrays = []
  room : gd.linedata.length < Exec.word

/-- The arrays of a line are allocated. -/
structure OwnedLine.Held (gl : OwnedLine) (h : Heap) : Prop where
  sized : gl.Sized
  nodup : gl.arrays.Nodup
  live : ∀ id ∈ gl.arrays, id ∈ h.live

/-- A line is replaced by one that owns some of its arrays and new ones, the others being released. -/
structure OwnedLine.Becomes (gl : OwnedLine) (h : Heap) (q : Heap × OwnedLine) : Prop where
  step : Heap.Step OwnedLine.arrays h gl q.1 q.2
  sized : q.2.Sized

/-- Nothing but the lines of a grid is changed. -/
structure OwnedGrid.SameShape (gd gd' : OwnedGrid) : Prop where
  history : gd'.history = gd.history
  sx : gd'.sx = gd.sx
  sy : gd'.sy = gd.sy
  hsize : gd'.hsize = gd.hsize
  hlimit : gd'.hlimit = gd.hlimit

/-- The arrays of a grid keep their owners, and its shape is kept. -/
structure OwnedGrid.Keeps (gd : OwnedGrid) (rest : ℕ → Prop) (q : Heap × OwnedGrid) : Prop where
  owner : q.2.Owner q.1 rest
  shape : gd.SameShape q.2

variable {h h' : Heap} {gl gl' : OwnedLine} {gd gd' src : OwnedGrid} {rest : ℕ → Prop} {q : Heap × OwnedLine}
  {l : List OwnedLine} {n px py nx ny dx dy : ℕ}

theorem OwnedGrid.SameShape.refl (gd : OwnedGrid) : gd.SameShape gd := ⟨rfl, rfl, rfl, rfl, rfl⟩

theorem OwnedGrid.SameShape.trans {gd'' : OwnedGrid} (hs : gd.SameShape gd') (hs' : gd'.SameShape gd'') :
    gd.SameShape gd'' :=
  ⟨hs'.history.trans hs.history, hs'.sx.trans hs.sx, hs'.sy.trans hs.sy, hs'.hsize.trans hs.hsize,
    hs'.hlimit.trans hs.hlimit⟩

theorem OwnedGrid.SameShape.lines (hs : gd.SameShape gd') : gd'.lines = gd.lines := by
  rw [OwnedGrid.lines, OwnedGrid.lines, hs.hsize, hs.sy]

theorem OwnedGrid.lines_lt (gd : OwnedGrid) : gd.lines < Exec.word := Nat.mod_lt _ (by decide)

theorem OwnedLine.mem_arrays {id : ℕ} : id ∈ gl.arrays ↔ id ∈ gl.cells.toList ∨ id ∈ gl.utf8.toList := List.mem_append

theorem OwnedLine.sized_empty : ({} : OwnedLine).Sized := ⟨fun h => absurd rfl h, Iff.intro (fun _ => rfl) fun _ => rfl⟩

theorem OwnedGrid.Owner.held (ho : gd.Owner h rest) {i : ℕ} (hgl : gd.linedata[i]? = some gl) : gl.Held h :=
  ⟨ho.sized gl (List.mem_of_getElem? hgl), ho.owned.nodup gl (List.mem_of_getElem? hgl),
    fun _ hid => ho.owned.mem_live hgl hid⟩

theorem OwnedLine.Held.cells_live (hgl : gl.Held h) : ∀ id ∈ gl.cells, id ∈ h.live := fun id hid =>
  hgl.live id (OwnedLine.mem_arrays.2 (.inl (Option.mem_toList.2 hid)))

theorem OwnedLine.Held.utf8_live (hgl : gl.Held h) : ∀ id ∈ gl.utf8, id ∈ h.live := fun id hid =>
  hgl.live id (OwnedLine.mem_arrays.2 (.inr (Option.mem_toList.2 hid)))

/-- The two arrays are not the same. -/
theorem OwnedLine.Held.apart (hgl : gl.Held h) : ∀ id ∈ gl.utf8.toList, id ∉ gl.cells.toList := fun id hid hid' =>
  (List.nodup_append.1 hgl.nodup).2.2 id hid' id hid rfl

theorem OwnedLine.Becomes.held (hq : gl.Becomes h q) : q.2.Held q.1 :=
  ⟨hq.sized, hq.step.nodup, fun _ hid => hq.step.mem_live hid⟩

theorem OwnedLine.Becomes.trans {q' : Heap × OwnedLine} (hq : gl.Becomes h q) (hq' : q.2.Becomes q.1 q') :
    gl.Becomes h q' :=
  ⟨hq.step.trans hq'.step, hq'.sized⟩

/-- A line with the same arrays. -/
theorem OwnedLine.Held.becomes (hgl : gl.Held h) (harrays : gl'.arrays = gl.arrays) (hsized : gl'.Sized) :
    gl.Becomes h (h, gl') :=
  ⟨.same hgl.nodup hgl.live harrays, hsized⟩

theorem OwnedGrid.SameShape.of_lines (gd : OwnedGrid) (linedata : List OwnedLine) :
    gd.SameShape { gd with linedata } := ⟨rfl, rfl, rfl, rfl, rfl⟩

/-- A line is replaced. -/
theorem OwnedGrid.Owner.setLine (ho : gd.Owner h rest) {i : ℕ} (hgl : gd.linedata[i]? = some gl) (hi : i < gd.lines)
    (hq : gl.Becomes h q) : ({ gd with linedata := gd.linedata.set i q.2 } : OwnedGrid).Owner q.1 rest where
  owned := ho.owned.set hgl hq.step
  sized gl' hgl' := by
    rcases List.mem_or_eq_of_mem_set hgl' with hgl' | rfl
    · exact ho.sized gl' hgl'
    · exact hq.sized
  past k gl' hk hgl' := by
    have hne : i ≠ k := fun heq => absurd (heq ▸ hi) (not_lt.2 hk)
    rw [List.getElem?_set_ne hne] at hgl'
    exact ho.past k gl' hk hgl'
  room := by
    rw [List.length_set]
    exact ho.room

/-- The line of a row, if there is one, owns nothing. -/
def Blank (l : List OwnedLine) (k : ℕ) : Prop := ∀ gl, l[k]? = some gl → gl.arrays = []

theorem blank_of_empty {k : ℕ} (hk : l[k]? = some {}) : Blank l k := fun gl hgl => by
  obtain rfl := Option.some.inj (hk.symm.trans hgl)
  rfl

theorem Blank.congr {l' : List OwnedLine} {k k' : ℕ} (hk : Blank l k) (heq : l'[k']? = l[k]?) : Blank l' k' :=
  fun gl hgl => hk gl (heq ▸ hgl)

theorem OwnedGrid.Owner.blank (ho : gd.Owner h rest) (k : ℕ) (hk : gd.lines ≤ k) : Blank gd.linedata k :=
  fun gl hgl => ho.past k gl hk hgl

namespace Arrays

/-! ## Lines -/

theorem freeLine_step (hgl : gl.Held h) :
    Meets notFreed (fun h' => Heap.Step OwnedLine.arrays h gl h' {}) (freeLine h gl) := by
  refine (Heap.meets_free hgl.cells_live).bind fun h₁ h₁live => ?_
  refine (Heap.meets_free fun id hid =>
    (h₁live id).2 ⟨hgl.utf8_live id hid, hgl.apart id (Option.mem_toList.2 hid)⟩).mono
    fun h₂ h₂live => ⟨List.nodup_nil, fun id hid => absurd hid List.not_mem_nil, fun id => ?_⟩
  rw [h₂live, h₁live, @OwnedLine.mem_arrays gl, not_or, and_assoc]
  exact ⟨.inr, fun hid => hid.resolve_left List.not_mem_nil⟩

theorem gridExpandLine_becomes (hgl : gl.Held h) (n : ℕ) :
    Meets notFreed (gl.Becomes h) (gridExpandLine h gl n) := by
  unfold gridExpandLine
  split_ifs with hn
  · exact .pure (hgl.becomes rfl hgl.sized)
  · have hutf8 : ∀ id ∈ gl.utf8.toList, id ∈ h.live := fun id hid => hgl.live id (OwnedLine.mem_arrays.2 (.inr hid))
    refine (Heap.meets_realloc hgl.cells_live).bind fun ⟨h₁, new⟩ ⟨hnew, hlive⟩ => .pure ⟨?_, ?_, ?_⟩
    · refine .replace (fun id => OwnedLine.mem_arrays) (fun id => ?_) hgl.apart hutf8 hnew
        hlive ?_
      · rw [OwnedLine.mem_arrays]
        exact or_congr_left List.mem_singleton
      · exact List.nodup_cons.2 ⟨fun hid => hnew (hutf8 new hid), (List.nodup_append.1 hgl.nodup).2.1⟩
    · exact fun _ => Option.some_ne_none new
    · dsimp only
      rw [gridExpandLine_utf8data]
      exact hgl.sized.utf8

/-- Expanding the UTF-8 data leaves the cells alone. -/
theorem gridExpandLineUtf8_becomes (hgl : gl.Held h) (n : ℕ) :
    Meets notFreed (fun q => gl.Becomes h q ∧ q.2.cells = gl.cells ∧ q.2.celldata = gl.celldata)
      (gridExpandLineUtf8 h gl n) := by
  unfold gridExpandLineUtf8
  split_ifs with hn
  · exact .pure ⟨hgl.becomes rfl hgl.sized, rfl, rfl⟩
  · have hcells : ∀ id ∈ gl.cells.toList, id ∈ h.live := fun id hid => hgl.live id (OwnedLine.mem_arrays.2 (.inl hid))
    refine (Heap.meets_realloc hgl.utf8_live).bind fun ⟨h₁, new⟩ ⟨hnew, hlive⟩ =>
      .pure ⟨⟨?_, ?_, iff_of_false (fun hnil => ?_) (Option.some_ne_none new)⟩, rfl, gridExpandLineUtf8_celldata _ n⟩
    · refine .replace (fun id => OwnedLine.mem_arrays.trans or_comm) (fun id => ?_)
        (fun id hid hid' => hgl.apart id hid' hid) hcells hnew hlive ?_
      · rw [OwnedLine.mem_arrays, or_comm]
        exact or_congr_left List.mem_singleton
      · refine List.nodup_append.2 ⟨(List.nodup_append.1 hgl.nodup).1, List.pairwise_singleton _ new, fun id hid id' hid' => ?_⟩
        rintro rfl
        exact hnew (List.mem_singleton.1 hid' ▸ hcells id hid)
    · dsimp only
      rw [gridExpandLineUtf8_celldata]
      exact hgl.sized.cells
    · have hlength := gridExpandLineUtf8_length gl.toGridLine n
      dsimp only at hnil
      rw [hnil, List.length_nil] at hlength
      omega

/-! ## Cells of a line -/

theorem notFreed_overread : notFreed.faults .overread := (by decide : Exec.Fault.overread ≠ .freed)

theorem notFreed_null : notFreed.faults .null := (by decide : Exec.Fault.null ≠ .freed)

theorem ne_nil_of_length {α : Type*} {l l' : List α} (hlength : l'.length = l.length) (hne : l' ≠ []) : l ≠ [] :=
  fun hnil => hne (List.length_eq_zero_iff.1 (by rw [hlength, hnil, List.length_nil]))

/-- A line with other cells, as many or fewer. -/
theorem becomes_cells (hgl : gl.Held h) {celldata : List GridCell} (hcells : celldata ≠ [] → gl.celldata ≠ []) :
    gl.Becomes h (h, { gl with toGridLine := { gl.toGridLine with celldata } }) :=
  hgl.becomes rfl ⟨fun hne => hgl.sized.cells (hcells hne), hgl.sized.utf8⟩

/-- A line with other UTF-8 data, as much. -/
theorem becomes_utf8 (hgl : gl.Held h) {utf8data : List (Option GridUtf8)}
    (hlength : utf8data.length = gl.utf8data.length) :
    gl.Becomes h (h, { gl with toGridLine := { gl.toGridLine with utf8data } }) := by
  refine hgl.becomes rfl ⟨hgl.sized.cells, ?_⟩
  rw [← hgl.sized.utf8, ← List.length_eq_zero_iff, ← List.length_eq_zero_iff, hlength]

theorem gridPutCell_becomes (hgl : gl.Held h) (px : ℕ) (gc : GridCell) :
    Meets notFreed (gl.Becomes h) (gridPutCell h gl px gc) := by
  have hput : Meets notFreed (fun line => ∃ celldata, celldata.length = gl.celldata.length ∧
      line = { gl.toGridLine with celldata }) (Tmux.gridPutCell gl.toGridLine px gc) :=
    (Block.store_entries notFreed_overread px gc).bind fun celldata hcelldata => .pure ⟨celldata, hcelldata.2.1, rfl⟩
  refine (Heap.meets_access notFreed_null hgl.cells_live).bind fun _ _ => hput.bind fun line hline => ?_
  obtain ⟨celldata, hlength, rfl⟩ := hline
  exact .pure (becomes_cells hgl (ne_nil_of_length hlength))

theorem gridPutUtf8_becomes (hgl : gl.Held h) (px : ℕ) (gu : GridUtf8) :
    Meets notFreed (gl.Becomes h) (gridPutUtf8 h gl px gu) := by
  have hput : Meets notFreed (fun line => ∃ utf8data, utf8data.length = gl.utf8data.length ∧
      line = { gl.toGridLine with utf8data }) (Tmux.gridPutUtf8 gl.toGridLine px gu) :=
    (Block.store_entries notFreed_overread px (some gu)).bind fun utf8data hutf8data =>
      .pure ⟨utf8data, hutf8data.2.1, rfl⟩
  refine (Heap.meets_access notFreed_null hgl.utf8_live).bind fun _ _ => hput.bind fun line hline => ?_
  obtain ⟨utf8data, hlength, rfl⟩ := hline
  exact .pure (becomes_utf8 hgl hlength)

theorem clearCells_becomes (hgl : gl.Held h) (px nx : ℕ) : Meets notFreed (gl.Becomes h) (clearCells px nx h gl) := by
  unfold clearCells
  split_ifs
  · exact .pure (hgl.becomes rfl hgl.sized)
  · refine .pure (becomes_cells hgl fun hne hnil => hne ?_)
    rw [hnil, List.take_nil]
  · refine (Heap.meets_access notFreed_null hgl.cells_live).bind fun _ _ => ?_
    refine (Block.fill_entries notFreed_overread gridDefaultCell _ px _).bind fun celldata hcelldata => .pure ?_
    exact becomes_cells hgl (ne_nil_of_length hcelldata.1)

/-- Moving the UTF-8 data leaves the cells alone. -/
theorem moveUtf8_becomes (hgl : gl.Held h) (dx px nx : ℕ) :
    Meets notFreed (fun q => gl.Becomes h q ∧ q.2.cells = gl.cells ∧ q.2.celldata = gl.celldata)
      (moveUtf8 h gl dx px nx) := by
  unfold moveUtf8
  split_ifs
  · exact .pure ⟨hgl.becomes rfl hgl.sized, rfl, rfl⟩
  · refine (gridExpandLineUtf8_becomes hgl _).bind fun q₁ hq₁ => ?_
    refine (gridExpandLineUtf8_becomes hq₁.1.held _).bind fun q₂ hq₂ => ?_
    refine (Heap.meets_access notFreed_null hq₂.1.held.utf8_live).bind fun _ _ => ?_
    refine (Block.move_entries notFreed_overread dx px nx).bind fun utf8data hutf8data => .pure ?_
    exact ⟨(hq₁.1.trans hq₂.1).trans (becomes_utf8 hq₂.1.held hutf8data.2.2.1), hq₂.2.1.trans hq₁.2.1,
      hq₂.2.2.trans hq₁.2.2⟩

theorem shiftCells_becomes (hgl : gl.Held h) (dx px nx : ℕ) :
    Meets notFreed (gl.Becomes h) (shiftCells dx px nx h gl) := by
  refine (Heap.meets_access notFreed_null hgl.cells_live).bind fun _ _ => ?_
  refine (Block.move_entries notFreed_overread dx px nx).bind fun celldata hcelldata => ?_
  refine (moveUtf8_becomes hgl dx px nx).bind fun q hq => ?_
  refine (Block.fill_entries notFreed_overread gridDefaultCell _ px _).bind fun celldata' hcelldata' => .pure ?_
  refine hq.1.trans (becomes_cells hq.1.held fun hne => ?_)
  rw [hq.2.2]
  exact ne_nil_of_length (hcelldata'.1.trans hcelldata.2.2.1) hne

theorem moveCells_becomes (hgl : gl.Held h) (dx px nx : ℕ) :
    Meets notFreed (gl.Becomes h) (moveCells dx px nx h gl) := by
  refine (gridExpandLine_becomes hgl _).bind fun q₁ hq₁ => (gridExpandLine_becomes hq₁.held _).bind fun q₂ hq₂ => ?_
  exact (shiftCells_becomes hq₂.held dx px nx).mono fun _ hq₃ => (hq₁.trans hq₂).trans hq₃

/-! ## Rows -/

theorem checkY_iff {y : ℕ} : ¬(!gridCheckY gd.erase y) = true ↔ y < gd.lines := by
  rw [Bool.not_eq_true', Bool.not_eq_false, gridCheckY, decide_eq_true_iff]
  rfl

theorem updateRow_keeps (ho : gd.Owner h rest) (hpy : py < gd.lines) {f : Heap → OwnedLine → Exec (Heap × OwnedLine)}
    (hf : ∀ gl : OwnedLine, gl.Held h → Meets notFreed (gl.Becomes h) (f h gl)) :
    Meets notFreed (gd.Keeps rest) (updateRow h gd py f) := by
  refine (Block.load_entries notFreed_overread py).bind fun gl hgl => (hf gl (ho.held hgl)).bind fun q hq => ?_
  dsimp only
  rw [Block.store_eq (List.getElem?_eq_some_iff.1 hgl).1, pure_bind]
  exact .pure ⟨ho.setLine hgl hpy hq, ⟨rfl, rfl, rfl, rfl, rfl⟩⟩

theorem gridSetCell_keeps (ho : gd.Owner h rest) (px py : ℕ) (gc : GridCell) :
    Meets notFreed (gd.Keeps rest) (gridSetCell h gd px py gc) := by
  unfold gridSetCell
  split_ifs with hcheck
  · exact .pure ⟨ho, .refl gd⟩
  · exact updateRow_keeps ho (checkY_iff.1 hcheck) fun gl hgl => (gridExpandLine_becomes hgl _).bind fun q hq =>
      (gridPutCell_becomes hq.held px gc).mono fun _ hq' => hq.trans hq'

theorem gridSetUtf8_keeps (ho : gd.Owner h rest) (px py : ℕ) (gu : GridUtf8) :
    Meets notFreed (gd.Keeps rest) (gridSetUtf8 h gd px py gu) := by
  unfold gridSetUtf8
  split_ifs with hcheck
  · exact .pure ⟨ho, .refl gd⟩
  · exact updateRow_keeps ho (checkY_iff.1 hcheck) fun gl hgl => (gridExpandLineUtf8_becomes hgl _).bind fun q hq =>
      (gridPutUtf8_becomes hq.1.held px gu).mono fun _ hq' => hq.1.trans hq'

theorem gridMoveCells_keeps (ho : gd.Owner h rest) (dx px py nx : ℕ) :
    Meets notFreed (gd.Keeps rest) (gridMoveCells h gd dx px py nx) := by
  unfold gridMoveCells
  split_ifs with hnone hcheck
  · exact .pure ⟨ho, .refl gd⟩
  · exact .pure ⟨ho, .refl gd⟩
  · exact updateRow_keeps ho (checkY_iff.1 hcheck) fun gl hgl => moveCells_becomes hgl dx px nx

/-! ## Lines that are freed -/

theorem freeLines_fills (p : ℕ → Bool) (i n : ℕ) :
    Refines Prod.snd (freeLines p h l i n) (Block.fill {} p l i n) := by
  unfold freeLines Block.fill
  refine Refines.foldlM (f := Prod.snd) (fun q k => ?_) _ (h, l)
  split_ifs
  · refine .skip fun gl _ => .skip fun h₁ _ => ?_
    exact Refines.map (f := id) (fun _ hl => hl) fun _ => rfl
  · exact .pure rfl

theorem freeLines_owned (ho : Owned OwnedLine.arrays h rest l) (hsized : ∀ gl ∈ l, gl.Sized) (p : ℕ → Bool) (i n : ℕ) :
    Meets notFreed (fun q => (Owned OwnedLine.arrays q.1 rest q.2 ∧ ∀ gl ∈ q.2, gl.Sized) ∧ q.2.length = l.length ∧
      ∀ k, q.2[k]? = if i ≤ k ∧ k < i + n ∧ p k = true then some {} else l[k]?) (freeLines p h l i n) := by
  have howned : Meets notFreed (fun q => Owned OwnedLine.arrays q.1 rest q.2 ∧ ∀ gl ∈ q.2, gl.Sized)
      (freeLines p h l i n) := by
    refine Meets.foldlM ⟨ho, hsized⟩ fun q k _ hq => ?_
    split_ifs
    · refine (Block.load_entries notFreed_overread k).bind fun gl hgl => ?_
      have hmem := List.mem_of_getElem? hgl
      have hheld : gl.Held q.1 := ⟨hq.2 gl hmem, hq.1.nodup gl hmem, fun _ hid => hq.1.mem_live hgl hid⟩
      refine (freeLine_step hheld).bind fun h' hstep => ?_
      rw [Block.store_eq (List.getElem?_eq_some_iff.1 hgl).1, pure_bind]
      refine .pure ⟨hq.1.set hgl hstep, fun gl' hgl' => ?_⟩
      rcases List.mem_or_eq_of_mem_set hgl' with hgl' | rfl
      · exact hq.2 gl' hgl'
      · exact OwnedLine.sized_empty
    · exact .pure hq
  exact howned.self.mono fun q hq => ⟨hq.1, (Block.fill_entries (w := .all) trivial ({} : OwnedLine) p i n).value
    (freeLines_fills p i n q hq.2)⟩

theorem gridClearLines_keeps (ho : gd.Owner h rest) (py ny : ℕ) :
    Meets notFreed (fun q => gd.Keeps rest q ∧ (∀ k, Blank gd.linedata k → Blank q.2.linedata k) ∧
      (py + ny ≤ gd.lines → ∀ k, py ≤ k → k < py + ny → Blank q.2.linedata k)) (gridClearLines h gd py ny) := by
  unfold gridClearLines
  split_ifs with hnone hcheck
  · exact .pure ⟨⟨ho, .refl gd⟩, fun _ hk => hk, fun _ k _ _ => by omega⟩
  · refine .pure ⟨⟨ho, .refl gd⟩, fun _ hk => hk, fun hfits k hk hk' => absurd hcheck ?_⟩
    have hword := gd.lines_lt
    rw [Bool.or_eq_true, not_or, checkY_iff, checkY_iff, Exec.uadd_of_lt (by omega)]
    omega
  · refine (freeLines_owned ho.owned ho.sized _ py _).bind fun q hq => .pure ?_
    have hkept : ∀ k, Blank gd.linedata k → Blank q.2 k := fun k hk gl hgl => by
      rw [hq.2.2] at hgl
      split_ifs at hgl
      · exact Option.some.inj hgl ▸ rfl
      · exact hk gl hgl
    refine ⟨⟨⟨hq.1.1, hq.1.2, fun k gl hk => hkept k (ho.past k · hk) gl, hq.2.1 ▸ ho.room⟩, ⟨rfl, rfl, rfl, rfl, rfl⟩⟩,
      hkept, fun hfits k hk hk' => blank_of_empty ?_⟩
    have hword := gd.lines_lt
    rw [hq.2.2, Exec.uadd_of_lt (by omega), if_pos ⟨hk, by omega, rfl⟩]

theorem gridClear_keeps (ho : gd.Owner h rest) (px py nx ny : ℕ) :
    Meets notFreed (gd.Keeps rest) (gridClear h gd px py nx ny) := by
  unfold gridClear
  split_ifs with hnone hlines hcheck
  · exact .pure ⟨ho, .refl gd⟩
  · exact (gridClearLines_keeps ho py ny).mono fun _ hq => hq.1
  · exact .pure ⟨ho, .refl gd⟩
  · rw [Bool.or_eq_true, not_or, checkY_iff, checkY_iff] at hcheck
    refine Meets.foldlM (P := gd.Keeps rest) ⟨ho, .refl gd⟩ fun q yy hyy hq => ?_
    have hyy' : yy < gd.lines := by
      rw [List.mem_range'_1] at hyy
      have hlast := hcheck.2
      have hword := gd.lines_lt
      rw [uadd] at hyy hlast
      rw [Exec.word] at *
      omega
    refine (updateRow_keeps hq.owner (hq.shape.lines ▸ hyy') fun gl hgl => clearCells_becomes hgl px nx).mono fun _ hq' => ?_
    exact ⟨hq'.owner, hq.shape.trans hq'.shape⟩

/-! ## Lines that are moved -/

/-- Lines are moved to a place where they replace others, which are freed, and leave empty lines behind. -/
theorem gridMoveLines_keeps (ho : gd.Owner h rest) (dy py ny : ℕ) :
    Meets notFreed (fun q => gd.Keeps rest q ∧ (py ≠ dy → py + ny ≤ gd.lines → dy + ny ≤ gd.lines → ∀ k,
      q.2.linedata[k]? = if dy ≤ k ∧ k < dy + ny then gd.linedata[py + (k - dy)]?
        else if py ≤ k ∧ k < py + ny then some {} else gd.linedata[k]?)) (gridMoveLines h gd dy py ny) := by
  have hword := gd.lines_lt
  unfold gridMoveLines
  split_ifs with hnone hcheck
  · refine .pure ⟨⟨ho, .refl gd⟩, fun hne _ _ k => ?_⟩
    have hny : ny = 0 := hnone.resolve_right hne
    rw [if_neg (by omega), if_neg (by omega)]
  · refine .pure ⟨⟨ho, .refl gd⟩, fun hne hpy hdy k => absurd hcheck ?_⟩
    have hny : ny ≠ 0 := fun hny => hnone (.inl hny)
    rw [Bool.or_eq_true, Bool.or_eq_true, Bool.or_eq_true, not_or, not_or, not_or, checkY_iff, checkY_iff, checkY_iff,
      checkY_iff, Exec.uadd_of_lt (by omega), Exec.uadd_of_lt (by omega)]
    omega
  rw [not_or] at hnone
  rw [Bool.or_eq_true, Bool.or_eq_true, Bool.or_eq_true, not_or, not_or, not_or, checkY_iff, checkY_iff, checkY_iff,
    checkY_iff] at hcheck
  have hroom := ho.room
  refine (freeLines_owned ho.owned ho.sized _ dy _).bind fun ⟨h₁, l₁⟩ ⟨⟨howned, hsized⟩, hlen₁, hget₁⟩ => ?_
  refine (Block.move_entries notFreed_overread dy py ny).bind fun l₂ ⟨hdst, hsrc, hlen₂, hget₂⟩ => ?_
  refine (Block.fill_entries notFreed_overread ({} : OwnedLine) _ py _).bind fun l₃ ⟨hlen₃, hget₃⟩ => .pure ?_
  dsimp only at *
  rw [Exec.uadd_of_lt (by omega), Exec.uadd_of_lt (by omega)] at hcheck
  have hdy : uadd dy ny = dy + ny := Exec.uadd_of_lt (by omega)
  have hpy : uadd py ny = py + ny := Exec.uadd_of_lt (by omega)
  simp only [hdy, hpy, Nat.add_sub_cancel_left, Bool.not_eq_true', Bool.and_eq_false_iff, decide_eq_false_iff_not]
    at hget₁ hget₃
  have hget : ∀ k, l₃[k]? = if dy ≤ k ∧ k < dy + ny then gd.linedata[py + (k - dy)]?
      else if py ≤ k ∧ k < py + ny then some {} else gd.linedata[k]? := fun k => by
    rw [hget₃, hget₂, hget₁, hget₁]
    split_ifs <;> first | rfl | omega
  have hempty : ∀ {b : OwnedLine}, some {} = some b → b.arrays = [] := fun hb => Option.some.inj hb ▸ rfl
  refine ⟨⟨⟨?_, fun gl hgl => ?_, fun k gl hk hgl => ?_, by dsimp only; omega⟩, ⟨rfl, rfl, rfl, rfl, rfl⟩⟩,
    fun _ _ _ => hget⟩
  · refine howned.rearranged (fun i j => dy ≤ i ∧ i < dy + ny ∧ j = py + (i - dy) ∨
      ¬(dy ≤ i ∧ i < dy + ny) ∧ ¬(py ≤ i ∧ i < py + ny) ∧ j = i) (fun i b hb hne => ?_) (fun i i' j hi hi' => ?_)
      fun j a ha hne => ?_
    · rw [hget₃, hget₂] at hb
      split_ifs at hb with hleft hmoved
      · exact absurd (hempty hb) hne
      · exact ⟨_, .inl ⟨hmoved.1, hmoved.2, rfl⟩, hb⟩
      · exact ⟨_, .inr ⟨hmoved, by omega, rfl⟩, hb⟩
    · omega
    · by_cases hmoved : py ≤ j ∧ j < py + ny
      · refine List.mem_of_getElem? (i := dy + (j - py)) ?_
        rw [hget₃, if_neg (by omega), hget₂, if_pos (by omega), ← ha]
        congr 1
        omega
      · refine List.mem_of_getElem? (i := j) ?_
        rw [hget₃, if_neg (by omega), hget₂, if_neg fun hin => ?_, ha]
        rw [hget₁, if_pos (by omega)] at ha
        exact hne (hempty ha)
  · obtain ⟨k, hk⟩ := List.mem_iff_getElem?.1 hgl
    rw [hget₃, hget₂] at hk
    split_ifs at hk
    · obtain rfl := Option.some.inj hk
      exact OwnedLine.sized_empty
    · exact hsized gl (List.mem_of_getElem? hk)
    · exact hsized gl (List.mem_of_getElem? hk)
  · have hk' : gd.lines ≤ k := hk
    rw [hget, if_neg (by omega), if_neg (by omega)] at hgl
    exact ho.past k gl hk' hgl

/-! ## The history -/

/-- The number of lines that are collected at once. -/
def collected (gd : OwnedGrid) : ℕ := if gd.hlimit / 10 < 1 then 1 else gd.hlimit / 10

/-- The lines that are collected from the history, if any, are no more than half of all, or they are all and own
    nothing. -/
def Collects (gd : OwnedGrid) : Prop :=
  gd.hsize < gd.hlimit ∨ 2 * collected gd ≤ gd.lines ∨ gd.lines = collected gd ∧ ∀ gl ∈ gd.linedata, gl.arrays = []

instance (gd : OwnedGrid) : Decidable (Collects gd) := inferInstanceAs (Decidable (_ ∨ _ ∨ _ ∧ _))

theorem meets_usub_word (a b : ℕ) : Meets notFreed (fun c => (b ≤ a → c = a - b) ∧
    (a < b → c = (a + (Exec.word - b % Exec.word)) % Exec.word)) (usub a b) := by
  unfold usub
  split_ifs with hle
  · exact .pure ⟨fun _ => rfl, fun hlt => absurd hle (not_le.2 hlt)⟩
  · exact ⟨fun _ => trivial, fun hle' => absurd hle' hle, fun _ => rfl⟩

theorem collected_pos (gd : OwnedGrid) : 0 < collected gd := by
  unfold collected
  split_ifs <;> omega

/-- The history gets shorter by the lines that were collected. -/
theorem lines_collected {n hsize : ℕ} (hn : n ≤ gd.lines) (hfits : n ≤ gd.hsize → hsize = gd.hsize - n)
    (hwraps : gd.hsize < n → hsize = (gd.hsize + (Exec.word - n % Exec.word)) % Exec.word) :
    OwnedGrid.lines { gd with hsize } = gd.lines - n := by
  rw [OwnedGrid.lines, OwnedGrid.lines, uadd, uadd, Exec.word]
  rw [OwnedGrid.lines, uadd, Exec.word] at hn
  rw [Exec.word] at hwraps
  dsimp only
  omega

theorem gridCollectHistory_owner (ho : gd.Owner h rest) (hcollects : Collects gd) :
    Meets notFreed (fun q => q.2.Owner q.1 rest) (gridCollectHistory h gd) := by
  by_cases hroom : gd.hsize < gd.hlimit
  · rw [gridCollectHistory, if_pos hroom]
    exact .pure ho
  rw [gridCollectHistory, if_neg hroom, show (if gd.hlimit / 10 < 1 then 1 else gd.hlimit / 10) = collected gd from rfl]
  have hpos := collected_pos gd
  have hall : collected gd ≤ gd.lines := by
    rcases hcollects.resolve_left hroom with hhalf | ⟨hall, -⟩ <;> omega
  refine (Exec.meets_usub (.inl trivial)).bind fun ny hny => ?_
  have hny' : ny = gd.lines - collected gd := hny hall
  refine (gridMoveLines_keeps ho 0 (collected gd) ny).self.bind fun q hq => ?_
  obtain ⟨⟨hkeeps, hmoved⟩, hvalue⟩ := hq
  have hshape := hkeeps.shape
  refine (meets_usub_word q.2.hsize (collected gd)).bind fun hsize hhsize => .pure ?_
  have hlines : OwnedGrid.lines { q.2 with hsize } = gd.lines - collected gd :=
    (lines_collected (hshape.lines.symm ▸ hall) hhsize.1 hhsize.2).trans (by rw [hshape.lines])
  refine ⟨hkeeps.owner.owned, hkeeps.owner.sized, fun k gl hk hgl => ?_, hkeeps.owner.room⟩
  rw [hlines] at hk
  dsimp only at hgl
  by_cases hlast : k < gd.lines
  · rcases hcollects.resolve_left hroom with hhalf | ⟨hone, hblank⟩
    · have hget := hmoved (by omega) (by omega) (by omega)
      rw [hget, if_neg (by omega), if_pos (by omega)] at hgl
      exact Option.some.inj hgl ▸ rfl
    · -- No line is left to be moved.
      rw [gridMoveLines, if_pos (.inl (by omega))] at hvalue
      obtain rfl := Option.some.inj hvalue
      exact hblank gl (List.mem_of_getElem? hgl)
  · exact hkeeps.owner.past k gl (hshape.lines ▸ not_lt.1 hlast) hgl

/-- Reallocating the lines loses none that owns an array. -/
theorem resize_owned (ho : Owned OwnedLine.arrays h rest l) (hsized : ∀ gl ∈ l, gl.Sized) {m : ℕ}
    (hblank : ∀ k, m ≤ k → Blank l k) (hn : m ≤ n) :
    Owned OwnedLine.arrays h rest (Block.resize {} l n) ∧ (∀ gl ∈ Block.resize {} l n, gl.Sized) ∧
      ∀ k, m ≤ k → Blank (Block.resize {} l n) k := by
  have hold : ∀ {k : ℕ} {gl : OwnedLine}, (Block.resize {} l n)[k]? = some gl → l[k]? = some gl ∨ gl = {} :=
    fun {k gl} hgl => by
      rw [Block.getElem?_resize] at hgl
      split_ifs at hgl
      cases hget : l[k]? with
      | none =>
        rw [hget, Option.getD_none] at hgl
        exact .inr (Option.some.inj hgl).symm
      | some gl' =>
        rw [hget, Option.getD_some] at hgl
        exact .inl hgl
  refine ⟨ho.rearranged Eq (fun i b hb hne => ⟨i, rfl, ?_⟩) (fun i i' j hi hi' => hi.trans hi'.symm)
    (fun j a ha hne => ?_), fun gl hgl => ?_, fun k hk gl hgl => ?_⟩
  · refine (hold hb).resolve_right fun hempty => hne ?_
    rw [hempty]
    rfl
  · have hj : j < m := by
      by_contra hge
      exact hne (hblank j (not_lt.1 hge) a ha)
    refine List.mem_of_getElem? (i := j) ?_
    rw [Block.getElem?_resize, if_pos (hj.trans_le hn), ha, Option.getD_some]
  · obtain ⟨k, hk⟩ := List.mem_iff_getElem?.1 hgl
    rcases hold hk with hk | rfl
    · exact hsized gl (List.mem_of_getElem? hk)
    · exact OwnedLine.sized_empty
  · rcases hold hgl with hgl | rfl
    · exact hblank k hk gl hgl
    · rfl

theorem lines_scrolled (gd : OwnedGrid) (linedata : List OwnedLine) :
    OwnedGrid.lines { gd with linedata, hsize := uadd gd.hsize 1 } = uadd gd.lines 1 := by
  rw [OwnedGrid.lines, OwnedGrid.lines, uadd, uadd, uadd, uadd, Nat.mod_add_mod, Nat.mod_add_mod, Nat.add_right_comm]

/-- Scrolling all lines adds one that is empty. -/
theorem gridScrollHistory_owner (ho : gd.Owner h rest) :
    Meets notFreed (fun gd' => gd'.Owner h rest) (gridScrollHistory gd) := by
  refine (Block.store_entries notFreed_overread gd.lines ({} : OwnedLine)).self.bind fun l hl => .pure ?_
  obtain ⟨⟨hlt, hlength, -⟩, hstore⟩ := hl
  obtain ⟨-, rfl⟩ := Block.store_value hstore
  rw [Block.length_resize] at hlt hlength
  have hword := gd.lines_lt
  have hone : uadd gd.lines 1 = gd.lines + 1 := by
    have hlt' : gd.lines < uadd gd.lines 1 := hlt
    rw [uadd, Exec.word] at *
    omega
  have hone' : uadd (uadd gd.hsize gd.sy) 1 = gd.lines + 1 := hone
  rw [hone'] at hlt hlength ⊢
  obtain ⟨howned, hsized, hblank⟩ := resize_owned ho.owned ho.sized ho.blank (Nat.le_succ gd.lines)
  obtain ⟨a, ha⟩ : ∃ a, (Block.resize {} gd.linedata (gd.lines + 1))[gd.lines]? = some a :=
    ⟨_, List.getElem?_eq_getElem (by rw [Block.length_resize]; exact hlt)⟩
  have hstep : Heap.Step OwnedLine.arrays h a h {} :=
    .same (howned.nodup a (List.mem_of_getElem? ha)) (fun _ hid => howned.mem_live ha hid) (hblank _ le_rfl a ha).symm
  refine ⟨howned.set ha hstep, fun gl hgl => ?_, fun k gl hk hgl => ?_, ?_⟩
  · rcases List.mem_or_eq_of_mem_set hgl with hgl | rfl
    · exact hsized gl hgl
    · exact OwnedLine.sized_empty
  · rw [lines_scrolled, hone] at hk
    rw [List.getElem?_eq_none (by dsimp only; rw [List.length_set, Block.length_resize]; exact hk)] at hgl
    cases hgl
  · dsimp only
    rw [hlength, ← hone]
    exact Nat.mod_lt _ (by decide)

/-- Scrolling a region moves its first line into the history, and adds an empty one at its end. -/
theorem gridScrollHistoryRegion_owner (ho : gd.Owner h rest) {upper lower : ℕ}
    (hregion : gd.hsize + gd.sy < Exec.word → gd.hsize ≤ upper ∧ upper ≤ lower ∧ lower < gd.lines) :
    Meets notFreed (fun gd' => gd'.Owner h rest) (gridScrollHistoryRegion gd upper lower) := by
  have hword := gd.lines_lt
  have hroom := ho.room
  refine (Block.move_entries notFreed_overread (gd.hsize + 1) gd.hsize gd.sy).bind fun l₁ hl₁ => ?_
  obtain ⟨hdst, -, hlen₁, hget₁⟩ := hl₁
  rw [Block.length_resize] at hdst hlen₁
  have hsum : gd.lines = gd.hsize + gd.sy ∧ uadd (uadd gd.hsize gd.sy) 1 = gd.lines + 1 := by
    rw [OwnedGrid.lines, uadd, uadd, Exec.word] at *
    omega
  have hlast : gd.lines + 1 < Exec.word := hsum.2 ▸ Nat.mod_lt _ (by decide)
  obtain ⟨hupper, hle, hlower⟩ := hregion (by omega)
  rw [hsum.2] at hdst hlen₁ hget₁
  dsimp only
  rw [Exec.uadd_of_lt (show upper + 1 < Exec.word by omega), Exec.uadd_of_lt (show lower + 1 < Exec.word by omega)]
  refine (Block.load_entries notFreed_overread _).bind fun line hline => ?_
  refine (Block.store_entries notFreed_overread _ line).bind fun l₂ hl₂ => ?_
  refine (Exec.meets_usub (.inl trivial)).bind fun n hn => ?_
  obtain rfl := hn (by omega)
  refine (Block.move_entries notFreed_overread _ _ _).bind fun l₃ hl₃ => ?_
  refine (Block.store_entries notFreed_overread _ ({} : OwnedLine)).bind fun l₄ hl₄ => .pure ?_
  obtain ⟨⟨-, hlen₂, hget₂⟩, ⟨-, -, hlen₃, hget₃⟩, -, hlen₄, hget₄⟩ := And.intro hl₂ (And.intro hl₃ hl₄)
  obtain ⟨howned, hsized, hblank⟩ := resize_owned ho.owned ho.sized ho.blank (Nat.le_succ gd.lines)
  set l₀ := Block.resize {} gd.linedata (gd.lines + 1)
  -- The rows from the first one on are moved down by one, and then those in the region up again.
  have hmoved : ∀ k, gd.hsize < k → k ≤ gd.lines → l₁[k]? = l₀[k - 1]? := fun k hk hk' => by
    rw [hget₁, if_pos (by omega)]
    congr 1
    omega
  have hget : ∀ k, l₄[k]? = if k = lower + 1 then some {} else if k = gd.hsize then l₀[upper]?
      else if gd.hsize < k ∧ k ≤ upper ∨ lower < k ∧ k ≤ gd.lines then l₀[k - 1]? else l₀[k]? := fun k => by
    rw [hget₄]
    split_ifs with hend hfirst hshift
    · rfl
    · rw [hget₃, if_neg (by omega), hget₂, if_pos hfirst, ← hline, hmoved _ (by omega) (by omega), Nat.add_sub_cancel]
    · rw [hget₃, if_neg (by omega), hget₂, if_neg hfirst, hmoved _ (by omega) (by omega)]
    · rw [hget₃]
      split_ifs with hregion
      · rw [hget₂, if_neg (by omega), hmoved _ (by omega) (by omega)]
        congr 1
        omega
      · rw [hget₂, if_neg hfirst, hget₁, if_neg (by omega)]
  have hempty : ∀ {b : OwnedLine}, some {} = some b → b.arrays = [] := fun hb => Option.some.inj hb ▸ rfl
  refine ⟨howned.rearranged (fun i j => i ≠ lower + 1 ∧ (i = gd.hsize ∧ j = upper ∨ i ≠ gd.hsize ∧
      ((gd.hsize < i ∧ i ≤ upper ∨ lower < i ∧ i ≤ gd.lines) ∧ j = i - 1 ∨
        ¬(gd.hsize < i ∧ i ≤ upper ∨ lower < i ∧ i ≤ gd.lines) ∧ i ≤ gd.lines ∧ j = i))) (fun i b hb hne => ?_)
    (fun i i' j hi hi' => ?_) (fun j a ha hne => ?_), fun gl hgl => ?_, fun k gl hk hgl => ?_, ?_⟩
  · rw [hget] at hb
    split_ifs at hb with hend hfirst hshift
    · exact absurd (hempty hb) hne
    · exact ⟨_, ⟨hend, .inl ⟨hfirst, rfl⟩⟩, hb⟩
    · exact ⟨_, ⟨hend, .inr ⟨hfirst, .inl ⟨hshift, rfl⟩⟩⟩, hb⟩
    · refine ⟨_, ⟨hend, .inr ⟨hfirst, .inr ⟨hshift, ?_, rfl⟩⟩⟩, hb⟩
      have hi := (List.getElem?_eq_some_iff.1 hb).1
      rw [Block.length_resize] at hi
      omega
  · omega
  · have hj : j < gd.lines := by
      by_contra hge
      exact hne (hblank j (not_lt.1 hge) a ha)
    by_cases hfirst : j = upper
    · refine List.mem_of_getElem? (i := gd.hsize) ?_
      rw [hget, if_neg (by omega), if_pos rfl, ← hfirst, ha]
    · by_cases hshift : gd.hsize ≤ j ∧ j < upper ∨ lower < j
      · refine List.mem_of_getElem? (i := j + 1) ?_
        rw [hget, if_neg (by omega), if_neg (by omega), if_pos (by omega), Nat.add_sub_cancel, ha]
      · refine List.mem_of_getElem? (i := j) ?_
        rw [hget, if_neg (by omega), if_neg (by omega), if_neg (by omega), ha]
  · obtain ⟨k, hk⟩ := List.mem_iff_getElem?.1 hgl
    rw [hget] at hk
    split_ifs at hk
    · exact Option.some.inj hk ▸ OwnedLine.sized_empty
    all_goals exact hsized gl (List.mem_of_getElem? hk)
  · rw [lines_scrolled, Exec.uadd_of_lt (by omega)] at hk
    dsimp only at hgl
    rw [List.getElem?_eq_none (by omega)] at hgl
    cases hgl
  · dsimp only
    omega

/-! ## Copies -/

/-- What is copied of an array is new, if a pointer that is not null is to an array that is not empty. -/
theorem copyArray_spec {size : ℕ} {p : Option ℕ} (hp : ∀ id ∈ p, id ∈ h.live) (hsize : size = 0 → p = none) :
    Meets notFreed (fun q => (∀ id ∈ q.2.toList, id ∉ h.live) ∧ (∀ id, id ∈ q.1.live ↔ id ∈ q.2.toList ∨ id ∈ h.live) ∧
      (q.2 = none ↔ size = 0)) (copyArray h size p) := by
  unfold copyArray
  split_ifs with hzero
  · rw [hsize hzero]
    exact .pure ⟨fun id hid => absurd hid List.not_mem_nil, fun id => by simp, by simp [hzero]⟩
  · refine (Heap.meets_access notFreed_null hp).bind fun _ _ => .pure ⟨fun id hid => ?_, fun id => ?_, by simp [hzero]⟩
    · rw [Option.toList_some, List.mem_singleton] at hid
      exact hid ▸ h.next_not_live
    · rw [Heap.alloc, List.mem_cons, Option.toList_some, List.mem_singleton]

theorem nodup_toList (p : Option ℕ) : p.toList.Nodup := by
  cases p with
  | none => exact List.nodup_nil
  | some id => exact List.pairwise_singleton _ id

/-- A copy of a line owns new arrays. -/
theorem copyLine_becomes {d srcl : OwnedLine} (hd : d.arrays = []) (hsized : srcl.Sized)
    (hlive : ∀ id ∈ srcl.arrays, id ∈ h.live) (hcopied : srcl.celldata = [] → srcl.cells = none) :
    Meets notFreed (d.Becomes h) (copyLine h srcl) := by
  refine (copyArray_spec (fun id hid => hlive id (OwnedLine.mem_arrays.2 (.inl (Option.mem_toList.2 hid))))
    fun hzero => hcopied (List.length_eq_zero_iff.1 hzero)).bind fun ⟨h₁, cells⟩ ⟨hnew₁, hlive₁, hcells⟩ => ?_
  refine (copyArray_spec (fun id hid => (hlive₁ id).2 (.inr (hlive id (OwnedLine.mem_arrays.2
    (.inr (Option.mem_toList.2 hid)))))) fun hzero => hsized.utf8.1 (List.length_eq_zero_iff.1 hzero)).bind
    fun ⟨h₂, utf8⟩ ⟨hnew₂, hlive₂, hutf8⟩ => .pure ⟨⟨?_, fun id hid => .inr ?_, fun id => ?_⟩, ?_, ?_⟩
  · refine List.nodup_append.2 ⟨nodup_toList cells, nodup_toList utf8, fun id hid id' hid' heq => ?_⟩
    exact hnew₂ id' hid' ((hlive₁ id').2 (.inl (heq ▸ hid)))
  · rcases OwnedLine.mem_arrays.1 hid with hid | hid
    · exact hnew₁ id hid
    · exact fun hold => hnew₂ id hid ((hlive₁ id).2 (.inr hold))
  · rw [hlive₂, hlive₁, OwnedLine.mem_arrays, hd]
    dsimp only
    rw [or_left_comm, ← or_assoc, and_iff_left List.not_mem_nil]
  · exact fun hne hnone => hne (List.length_eq_zero_iff.1 (hcells.1 hnone))
  · exact List.length_eq_zero_iff.symm.trans hutf8.symm

/-- Lines are copied to those of another grid that own nothing. -/
theorem copyLines_keeps {dst : OwnedGrid} (ho : dst.Owner h (Owns OwnedLine.arrays src.linedata))
    (hsrc : ∀ gl ∈ src.linedata, gl.Sized) (hblank : ∀ k < n, Blank dst.linedata (dy + k)) (hfits : dy + n ≤ dst.lines)
    (hcopied : ∀ k gl, py ≤ k → k < py + n → src.linedata[k]? = some gl → gl.celldata = [] → gl.cells = none) :
    Meets notFreed (dst.Keeps (Owns OwnedLine.arrays src.linedata)) (copyLines h dst dy src py n) := by
  induction n generalizing h dst dy py with
  | zero => exact .pure ⟨ho, .refl dst⟩
  | succ n ih =>
    refine (Block.load_entries notFreed_overread py).bind fun srcl hsrcl => ?_
    set d := dst.linedata[dy]?.getD {} with hd
    have hempty : d.arrays = [] := by
      cases hget : dst.linedata[dy]? with
      | none =>
        rw [hd, hget]
        rfl
      | some gl =>
        rw [hd, hget]
        exact hblank 0 n.succ_pos gl hget
    have hcopy := copyLine_becomes (h := h) hempty (hsrc srcl (List.mem_of_getElem? hsrcl))
      (fun id hid => (ho.owned.live id).2 (.inl (.of_getElem? hsrcl hid))) (hcopied py srcl le_rfl (by omega) hsrcl)
    refine hcopy.bind fun ⟨h₁, dstl⟩ hq => ?_
    dsimp only
    refine (Block.store_entries notFreed_overread dy dstl).self.bind fun l hl => ?_
    obtain ⟨hdy, rfl⟩ := Block.store_value hl.2
    have hget : dst.linedata[dy]? = some d := by
      rw [hd, List.getElem?_eq_getElem hdy, Option.getD_some]
    refine (ih (ho.setLine hget (by omega) hq) (fun k hk => ?_) (show dy + 1 + n ≤ dst.lines by omega)
      fun k gl hk hk' => hcopied k gl (by omega) (by omega)).mono fun q hq' =>
        ⟨hq'.owner, (OwnedGrid.SameShape.of_lines dst _).trans hq'.shape⟩
    refine (hblank (k + 1) (by omega)).congr ?_
    rw [Nat.add_assoc, Nat.add_comm 1 k, List.getElem?_set_ne (by omega)]

/-- Fewer lines are copied if there are not as many. -/
theorem limitLines_spec {y : ℕ} (hy : y ≤ gd.lines) (hny : y + ny < Exec.word) :
    Meets notFreed (fun n => n ≤ ny ∧ y + n ≤ gd.lines) (limitLines gd.erase y ny) := by
  unfold limitLines
  rw [Exec.uadd_of_lt hny]
  split_ifs with hmore
  · have hmore' : y + ny > gd.lines := hmore
    refine (Exec.meets_usub (.inl trivial)).mono fun n hn => ?_
    have hn' : n = gd.lines - y := hn hy
    omega
  · have hmore' : ¬y + ny > gd.lines := hmore
    exact .pure ⟨le_rfl, not_lt.1 hmore'⟩

/-- Lines are duplicated, if none of them is empty with cells still allocated. -/
theorem gridDuplicateLines_keeps {dst : OwnedGrid} (ho : dst.Owner h (Owns OwnedLine.arrays src.linedata))
    (hsrc : ∀ gl ∈ src.linedata, gl.Sized) (hdy : dy ≤ dst.lines ∧ dy + ny < Exec.word)
    (hpy : py ≤ src.lines ∧ py + ny < Exec.word)
    (hcopied : ∀ k gl, py ≤ k → k < py + ny → src.linedata[k]? = some gl → gl.celldata = [] → gl.cells = none) :
    Meets notFreed (dst.Keeps (Owns OwnedLine.arrays src.linedata)) (gridDuplicateLines h dst dy src py ny) := by
  refine (limitLines_spec hdy.1 hdy.2).bind fun n₁ hn₁ => ?_
  refine (limitLines_spec hpy.1 (by omega : py + n₁ < Exec.word)).bind fun n₂ hn₂ => ?_
  refine (gridClearLines_keeps ho dy n₂).bind fun q hq => ?_
  refine (copyLines_keeps hq.1.owner hsrc (fun k hk => hq.2.2 (by omega) _ (by omega) (by omega)) ?_
    fun k gl hk hk' => hcopied k gl hk (by omega)).mono fun q' hq' => ⟨hq'.owner, hq.1.shape.trans hq'.shape⟩
  rw [hq.1.shape.lines]
  omega

/-! ## Grids -/

/-- A grid without arrays. -/
theorem gridCreate_owner (sx hlimit : ℕ) {sy : ℕ} (hsy : sy < Exec.word) (hlive : ∀ id, id ∈ h.live ↔ rest id) :
    (gridCreate sx sy hlimit).Owner h rest := by
  have hempty : ∀ gl ∈ (gridCreate sx sy hlimit).linedata, gl = {} := fun gl hgl => (List.mem_replicate.1 hgl).2
  have hnone : ∀ gl ∈ (gridCreate sx sy hlimit).linedata, gl.arrays = [] := fun gl hgl => hempty gl hgl ▸ rfl
  have howns : ∀ id, ¬Owns OwnedLine.arrays (gridCreate sx sy hlimit).linedata id := fun id ⟨gl, hgl, hid⟩ =>
    List.not_mem_nil (hnone gl hgl ▸ hid)
  refine ⟨⟨fun i j a b id ha hb hid _ => ?_, fun gl hgl => hnone gl hgl ▸ List.nodup_nil,
    fun id hid => absurd hid (howns id), fun id => ?_⟩, fun gl hgl => hempty gl hgl ▸ OwnedLine.sized_empty,
    fun k gl _ hgl => hnone gl (List.mem_of_getElem? hgl), ?_⟩
  · exact absurd (.of_getElem? ha hid) (howns id)
  · rw [hlive, or_iff_left (howns id)]
  · rw [gridCreate, List.length_replicate]
    exact hsy

/-- Once the arrays of the first lines are freed, they are owned by none. -/
theorem freeFirst_owned (ho : Owned OwnedLine.arrays h rest l) (hsized : ∀ gl ∈ l, gl.Sized) (n : ℕ) :
    Meets notFreed (fun h' => ∃ l' : List OwnedLine, Owned OwnedLine.arrays h' rest l' ∧
        ∀ k, l'[k]? = if k < n then l[k]?.map fun _ => {} else l[k]?)
      ((List.range n).foldlM (fun h yy => do
        let gl ← Block.load l yy
        freeLine h gl) h) := by
  induction n with
  | zero => exact .pure ⟨l, ho, fun k => (if_neg (Nat.not_lt_zero k)).symm⟩
  | succ n ih =>
    rw [List.range_succ, List.foldlM_append]
    refine ih.bind fun h₁ ⟨l₁, ho₁, hget₁⟩ => ?_
    rw [List.foldlM_cons]
    have hlast : Meets notFreed (fun h' => ∃ l' : List OwnedLine, Owned OwnedLine.arrays h' rest l' ∧
        ∀ k, l'[k]? = if k < n + 1 then l[k]?.map fun _ => {} else l[k]?) (do
          let gl ← Block.load l n
          freeLine h₁ gl) := by
      refine (Block.load_entries notFreed_overread n).bind fun gl hgl => ?_
      have hgl₁ : l₁[n]? = some gl := by rw [hget₁, if_neg (lt_irrefl n), hgl]
      have hheld : gl.Held h₁ := ⟨hsized gl (List.mem_of_getElem? hgl), ho₁.nodup gl (List.mem_of_getElem? hgl₁),
        fun _ hid => ho₁.mem_live hgl₁ hid⟩
      refine (freeLine_step hheld).mono fun h₂ hstep => ⟨l₁.set n {}, ho₁.set hgl₁ hstep, fun k => ?_⟩
      rcases lt_trichotomy k n with hk | rfl | hk
      · rw [List.getElem?_set_ne (by omega), hget₁, if_pos hk, if_pos (by omega)]
      · rw [List.getElem?_set_self (List.getElem?_eq_some_iff.1 hgl₁).1, if_pos (by omega), hgl]
        rfl
      · rw [List.getElem?_set_ne (by omega), hget₁, if_neg (by omega), if_neg (by omega)]
    exact hlast.bind fun h₂ hh₂ => .pure hh₂

/-- Destroying a grid releases all arrays that its lines own. -/
theorem gridDestroy_live (ho : gd.Owner h rest) :
    Meets notFreed (fun h' => ∀ id, id ∈ h'.live ↔ rest id) (gridDestroy h gd) := by
  refine (freeFirst_owned ho.owned ho.sized gd.lines).mono fun h' ⟨l', howned, hget⟩ id => ?_
  rw [howned.live, or_iff_left]
  rintro ⟨gl, hgl, hid⟩
  obtain ⟨k, hk⟩ := List.mem_iff_getElem?.1 hgl
  rw [hget] at hk
  split_ifs at hk with hlt
  · obtain ⟨gl', -, rfl⟩ := Option.map_eq_some_iff.1 hk
    exact List.not_mem_nil hid
  · exact List.not_mem_nil (ho.past k gl (not_lt.1 hlt) hk ▸ hid)

end Arrays

end Tmux
