import Tmux.Grid.Rows

/-!
# The data of UTF-8 cells

The cells of a line and their UTF-8 data are two arrays, each of a size of its own, and data of
the second one may never have been written. A line is backed if all its UTF-8 cells have
their data (`GridLine.Backed`): it may then be read without looking whether it is there.

The operations on a grid keep all its lines backed, those of the history and those after its end
too (`Grid.Every`). A cell that has UTF-8 data is only written together with its data.
-/

namespace Tmux

open Exec (Meets uadd usub meets_usub meets_all)

variable {P : GridLine → Prop} {g dst src : Grid} {gl : GridLine} {gc : GridCell} {px py : ℕ}

/-- The data of every UTF-8 cell of a line was written. -/
def GridLine.Backed (gl : GridLine) : Prop := ∀ x, (gl.cell x).isUtf8 = true → ∃ gu, gl.utf8data[x]? = some (some gu)

/-- All lines of a grid satisfy `P`. -/
def Grid.Every (P : GridLine → Prop) (g : Grid) : Prop := ∀ gl ∈ g.linedata, P gl

/-! ## Lines -/

section

variable (hP : P {})

include hP

theorem gridCreate_every (sx sy hlimit : ℕ) : (gridCreate sx sy hlimit).Every P := fun _ hgl =>
  (List.mem_replicate.1 hgl).2 ▸ hP

theorem gridClearLines_every (h : g.Every P) (py ny : ℕ) : Meets .all (Grid.Every P) (gridClearLines g py ny) := by
  unfold gridClearLines
  split_ifs
  · exact .pure h
  · exact .pure h
  · exact (Block.fill_forall trivial h hP _ _ _).bind fun l hl => .pure hl

theorem gridMoveLines_every (h : g.Every P) (dy py ny : ℕ) : Meets .all (Grid.Every P) (gridMoveLines g dy py ny) := by
  unfold gridMoveLines
  split_ifs
  · exact .pure h
  · exact .pure h
  · refine (Block.fill_forall trivial h hP _ _ _).bind fun l₁ h₁ => ?_
    refine (Block.move_forall trivial h₁ _ _ _).bind fun l₂ h₂ => ?_
    exact (Block.fill_forall trivial h₂ hP _ _ _).bind fun l₃ h₃ => .pure h₃

theorem gridCollectHistory_every (h : g.Every P) : Meets .all (Grid.Every P) (gridCollectHistory g) := by
  by_cases hroom : g.hsize < g.hlimit
  · rw [gridCollectHistory, if_pos hroom]
    exact .pure h
  · rw [gridCollectHistory, if_neg hroom]
    refine (meets_usub (.inl trivial)).bind fun ny _ => ?_
    refine (gridMoveLines_every hP h _ _ _).bind fun g₁ h₁ => ?_
    exact (meets_usub (.inl trivial)).bind fun hsize _ => .pure h₁

/-- A line array of another size. -/
theorem Grid.Every.resize (h : g.Every P) (n : ℕ) : ∀ gl ∈ Block.resize {} g.linedata n, P gl := fun gl hgl => by
  rcases Block.mem_resize hgl with hgl | rfl
  · exact h gl hgl
  · exact hP

theorem gridScrollHistory_every (h : g.Every P) : Meets .all (Grid.Every P) (gridScrollHistory g) :=
  (Block.store_forall trivial (h.resize hP _) hP _).bind fun _ hl => .pure hl

theorem gridScrollHistoryRegion_every (h : g.Every P) (upper lower : ℕ) :
    Meets .all (Grid.Every P) (gridScrollHistoryRegion g upper lower) := by
  refine (Block.move_forall trivial (h.resize hP _) _ _ _).bind fun l₁ h₁ => ?_
  refine (Block.load_forall trivial h₁ _).bind fun line hline => ?_
  refine (Block.store_forall trivial h₁ hline _).bind fun l₂ h₂ => (meets_usub (.inl trivial)).bind fun n _ => ?_
  refine (Block.move_forall trivial h₂ _ _ _).bind fun l₃ h₃ => ?_
  exact (Block.store_forall trivial h₃ hP _).bind fun l₄ h₄ => .pure h₄

theorem scrollLines_every (h : g.Every P) (n : ℕ) : Meets .all (Grid.Every P) (scrollLines g n) := by
  induction n generalizing g with
  | zero => exact .pure h
  | succ n ih =>
    refine (gridCollectHistory_every hP h).bind fun g₁ h₁ => ?_
    exact (gridScrollHistory_every hP h₁).bind fun g₂ h₂ => ih h₂

theorem gridViewClearHistory_every (h : g.Every P) : Meets .all (Grid.Every P) (gridViewClearHistory g) :=
  (meets_all _).bind fun last _ => scrollLines_every hP h last

theorem gridViewScrollRegionUp_every (h : g.Every P) (rupper rlower : ℕ) :
    Meets .all (Grid.Every P) (gridViewScrollRegionUp g rupper rlower) := by
  unfold gridViewScrollRegionUp
  split_ifs
  · refine (gridCollectHistory_every hP h).bind fun g₁ h₁ => (meets_usub (.inl trivial)).bind fun bottom _ => ?_
    split_ifs
    · exact gridScrollHistory_every hP h₁
    · exact gridScrollHistoryRegion_every hP h₁ _ _
  · exact (meets_usub (.inl trivial)).bind fun ny _ => gridMoveLines_every hP h _ _ _

theorem gridViewScrollRegionDown_every (h : g.Every P) (rupper rlower : ℕ) :
    Meets .all (Grid.Every P) (gridViewScrollRegionDown g rupper rlower) :=
  (meets_usub (.inl trivial)).bind fun _ _ => gridMoveLines_every hP h _ _ _

theorem gridViewInsertLines_every (h : g.Every P) (py ny : ℕ) :
    Meets .all (Grid.Every P) (gridViewInsertLines g py ny) :=
  (meets_usub (.inl trivial)).bind fun _ _ => (meets_usub (.inl trivial)).bind fun _ _ =>
    gridMoveLines_every hP h _ _ _

omit hP in
theorem copyLines_every (hdst : dst.Every P) (hsrc : src.Every P) (dy sy n : ℕ) :
    Meets .all (Grid.Every P) (copyLines dst dy src sy n) := by
  induction n generalizing dst dy sy with
  | zero => exact .pure hdst
  | succ n ih =>
    refine (Block.load_forall trivial hsrc sy).bind fun gl hgl => ?_
    refine (Block.store_forall trivial hdst hgl dy).bind fun l hl => ?_
    have hdst' : Grid.Every P { dst with linedata := l } := hl
    exact ih hdst' (dy + 1) (sy + 1)

theorem gridDuplicateLines_every (hdst : dst.Every P) (hsrc : src.Every P) (dy sy ny : ℕ) :
    Meets .all (Grid.Every P) (gridDuplicateLines dst dy src sy ny) := by
  refine (meets_all _).bind fun n₁ _ => (meets_all _).bind fun n₂ _ => ?_
  exact (gridClearLines_every hP hdst _ _).bind fun dst₁ h₁ => copyLines_every h₁ hsrc _ _ _

end

/-- Updating a row puts what becomes of its line in the place of the line. -/
theorem updateRow_meets {f : GridLine → Exec GridLine} {r : ℕ}
    (hf : ∀ gl, g.linedata[r]? = some gl → Meets .all P (f gl)) :
    Meets .all (fun g' => ∃ gl', P gl' ∧ ∀ i, g'.linedata[i]? = if i = r then some gl' else g.linedata[i]?)
      (updateRow g r f) := by
  refine (Block.load_entries trivial r).bind fun gl hgl => (hf gl hgl).bind fun gl' hgl' => ?_
  exact (Block.store_entries trivial r gl').bind fun l hl => .pure ⟨gl', hgl', hl.2.2⟩

/-- What holds of a line and of all others holds of all lines. -/
theorem Grid.every_of_row {r : ℕ} (hgl : P gl) (hrest : ∀ i gl, i ≠ r → src.linedata[i]? = some gl → P gl)
    (hlines : ∀ i, g.linedata[i]? = if i = r then some gl else src.linedata[i]?) : g.Every P := fun gl' hgl' => by
  obtain ⟨i, hi⟩ := List.mem_iff_getElem?.1 hgl'
  rw [hlines] at hi
  split_ifs at hi with hir
  · exact Option.some.inj hi ▸ hgl
  · exact hrest i gl' hir hi

theorem Grid.Every.line (h : g.Every P) {r : ℕ} (hgl : g.linedata[r]? = some gl) : P gl :=
  h gl (List.mem_of_getElem? hgl)

/-- What holds of a line that is edited holds of all lines. -/
theorem updateRow_every {f : GridLine → Exec GridLine} (hf : ∀ gl, P gl → Meets .all P (f gl)) (h : g.Every P)
    (r : ℕ) : Meets .all (Grid.Every P) (updateRow g r f) :=
  (updateRow_meets fun gl hgl => hf gl (h.line hgl)).mono fun _ ⟨_, hgl', hlines⟩ =>
    Grid.every_of_row hgl' (fun _ _ _ => h.line) hlines

/-! ## Cells of a line -/

theorem GridLine.backed_iff : gl.Backed ↔ ∀ x, (gl.cell x).isUtf8 = true → ∃ gu, gl.utf8data[x]?.join = some gu := by
  simp only [GridLine.Backed, Option.join_eq_some_iff]

theorem GridLine.Backed.empty : ({} : GridLine).Backed := fun _ hx =>
  absurd hx (by simp [GridLine.cell, GridCell.isUtf8, gridDefaultCell])

theorem GridLine.Backed.expand (h : gl.Backed) (n : ℕ) : (gridExpandLine gl n).Backed := fun x hx => by
  rw [gridExpandLine_cell] at hx
  rw [gridExpandLine_utf8data]
  exact h x hx

theorem GridLine.Backed.expandUtf8 (h : gl.Backed) (n : ℕ) : (gridExpandLineUtf8 gl n).Backed := by
  rw [GridLine.backed_iff] at h ⊢
  intro x hx
  rw [gridExpandLineUtf8_cell] at hx
  rw [gridExpandLineUtf8_data]
  exact h x hx

/-- A line with cells of which every one is as before, or a default one. -/
theorem GridLine.Backed.of_cells (h : gl.Backed) {celldata : List GridCell}
    (hcell : ∀ x : ℕ, celldata[x]? = gl.celldata[x]? ∨ celldata[x]?.getD gridDefaultCell = gridDefaultCell) :
    GridLine.Backed { gl with celldata } := fun x hx => by
  rcases hcell x with hsame | hdefault
  · refine h x ?_
    rwa [GridLine.cell, ← hsame]
  · rw [GridLine.cell, hdefault] at hx
    cases hx

theorem clearCells_backed (h : gl.Backed) (px nx : ℕ) : Meets .all GridLine.Backed (clearCells gl px nx) := by
  unfold clearCells
  split_ifs
  · exact .pure h
  · refine .pure (h.of_cells fun x => ?_)
    rw [List.getElem?_take]
    split_ifs
    · exact .inl rfl
    · exact .inr rfl
  · refine (Block.fill_entries_or trivial _ _ _ _).bind fun l hl => .pure (h.of_cells fun x => ?_)
    exact (hl.2 x).imp_right fun hx => by rw [hx, Option.getD_some]

/-- The UTF-8 data of a line after the cells of a range are moved is that of the cells moved. -/
theorem moveUtf8_moved (gl : GridLine) (dx px nx : ℕ) :
    Meets .all (fun utf8data => ∀ x, utf8data[x]?.join =
      if dx ≤ x ∧ x < dx + nx then gl.utf8data[px + (x - dx)]?.join else gl.utf8data[x]?.join)
      (moveUtf8 gl dx px nx) := by
  unfold moveUtf8
  split_ifs with hnone
  · refine .pure fun x => ?_
    rw [hnone]
    split_ifs <;> rfl
  · refine (Block.move_entries trivial _ _ _).mono fun l hl x => ?_
    rw [hl.2.2.2]
    split_ifs <;> simp

theorem moveCells_backed (h : gl.Backed) (dx px nx : ℕ) : Meets .all GridLine.Backed (moveCells gl dx px nx) := by
  unfold moveCells
  extract_lets gl₁
  have h₁ : gl₁.Backed := (h.expand _).expand _
  refine (Block.move_entries trivial _ _ _).bind fun l₁ hl₁ => (moveUtf8_moved gl₁ dx px nx).bind fun u hu => ?_
  have hmoved : GridLine.Backed { gl₁ with celldata := l₁, utf8data := u } := by
    rw [GridLine.backed_iff] at h₁ ⊢
    intro x hx
    dsimp only
    rw [GridLine.cell, hl₁.2.2.2] at hx
    rw [hu]
    split_ifs at hx ⊢
    · exact h₁ _ hx
    · exact h₁ _ hx
  refine (Block.fill_entries_or trivial _ _ _ _).bind fun l₂ hl₂ => .pure ?_
  exact hmoved.of_cells fun x => (hl₂.2 x).imp_right fun hx => by rw [hx, Option.getD_some]

/-- Putting a cell in a line, if it is no UTF-8 cell, or if its data is there. -/
theorem gridPutCell_backed (h : gl.Backed) (hgc : gc.isUtf8 = true → ∃ gu, gl.utf8data[px]? = some (some gu)) :
    Meets .all (fun gl' => gl'.Backed ∧ gl'.utf8data = gl.utf8data) (gridPutCell gl px gc) := by
  refine (Block.store_entries trivial _ _).bind fun l hl => .pure ⟨fun x hx => ?_, rfl⟩
  rw [GridLine.cell, hl.2.2] at hx
  split_ifs at hx with heq
  · rw [heq]
    exact hgc (by simpa using hx)
  · exact h x hx

/-- Putting the UTF-8 data of a cell in a line. -/
theorem gridPutUtf8_backed (h : ∀ x, x ≠ px → (gl.cell x).isUtf8 = true → ∃ gu, gl.utf8data[x]? = some (some gu))
    (gu : GridUtf8) :
    Meets .all (fun gl' => gl'.Backed ∧ gl'.utf8data[px]? = some (some gu)) (gridPutUtf8 gl px gu) := by
  refine (Block.store_entries trivial _ _).bind fun l hl => .pure ⟨fun x hx => ?_, ?_⟩
  · dsimp only
    rw [hl.2.2]
    split_ifs with heq
    · exact ⟨gu, rfl⟩
    · exact h x heq hx
  · dsimp only
    rw [hl.2.2, if_pos rfl]

/-! ## Cells of a grid -/

/-- The UTF-8 data of a column of a line of a grid was written. -/
def Grid.HasData (g : Grid) (r px : ℕ) : Prop :=
  ∃ gl gu, g.linedata[r]? = some gl ∧ gl.utf8data[px]? = some (some gu)

theorem Grid.HasData.line {r : ℕ} (h : g.HasData r px) (hgl : g.linedata[r]? = some gl) :
    ∃ gu, gl.utf8data[px]? = some (some gu) := by
  obtain ⟨gl', gu, hgl', hgu⟩ := h
  obtain rfl : gl = gl' := Option.some.inj (hgl.symm.trans hgl')
  exact ⟨gu, hgu⟩

/-- Setting a cell, if it is no UTF-8 cell, or if its data is there. -/
theorem gridSetCell_backed (h : g.Every GridLine.Backed) {r : ℕ} (hgc : gc.isUtf8 = true → g.HasData r px) :
    Meets .all (fun g' => g'.Every GridLine.Backed ∧ (g.HasData r px → g'.HasData r px)) (gridSetCell g px r gc) := by
  unfold gridSetCell
  split_ifs
  · exact .pure ⟨h, id⟩
  · refine (updateRow_meets (P := fun gl' => gl'.Backed ∧ (g.HasData r px → ∃ gu, gl'.utf8data[px]? = some (some gu)))
      fun gl hgl => ?_).mono ?_
    · have hdata : g.HasData r px → ∃ gu, (gridExpandLine gl (uadd px 1)).utf8data[px]? = some (some gu) := fun hd => by
        rw [gridExpandLine_utf8data]
        exact hd.line hgl
      exact (gridPutCell_backed ((h.line hgl).expand _) fun hutf8 => hdata (hgc hutf8)).mono fun gl' hgl' =>
        ⟨hgl'.1, fun hd => hgl'.2 ▸ hdata hd⟩
    · rintro g' ⟨gl', hgl', hlines⟩
      refine ⟨Grid.every_of_row hgl'.1 (fun _ _ _ => h.line) hlines, fun hd => ?_⟩
      obtain ⟨gu, hgu⟩ := hgl'.2 hd
      exact ⟨gl', gu, by rw [hlines, if_pos rfl], hgu⟩

/-- Expanding the UTF-8 data of a line keeps the data that was written. -/
theorem gridExpandLineUtf8_written (n : ℕ) {x : ℕ} (h : ∃ gu, gl.utf8data[x]? = some (some gu)) :
    ∃ gu, (gridExpandLineUtf8 gl n).utf8data[x]? = some (some gu) := by
  obtain ⟨gu, hgu⟩ := h
  refine ⟨gu, Option.join_eq_some_iff.1 ?_⟩
  rw [gridExpandLineUtf8_data, hgu]
  rfl

/-- The lines of a grid are backed, but for the data of a column of one of them. -/
def Grid.BackedBut (g : Grid) (r px : ℕ) : Prop :=
  ∀ i gl, g.linedata[i]? = some gl →
    ∀ x, (i = r → x ≠ px) → (gl.cell x).isUtf8 = true → ∃ gu, gl.utf8data[x]? = some (some gu)

theorem Grid.Every.backedBut (h : g.Every GridLine.Backed) (r px : ℕ) : g.BackedBut r px :=
  fun _ _ hgl x _ => h.line hgl x

/-- Setting any cell leaves the lines backed, but for its data. -/
theorem gridSetCell_backedBut (h : g.Every GridLine.Backed) (px r : ℕ) (gc : GridCell) :
    Meets .all (fun g' => g'.BackedBut r px) (gridSetCell g px r gc) := by
  unfold gridSetCell
  split_ifs
  · exact .pure (h.backedBut r px)
  · refine (updateRow_meets (P := fun gl' =>
      ∀ x, x ≠ px → (gl'.cell x).isUtf8 = true → ∃ gu, gl'.utf8data[x]? = some (some gu)) fun gl hgl => ?_).mono ?_
    · refine (Block.store_entries trivial px gc).bind fun l hl => .pure fun x hx hutf8 => ?_
      refine (h.line hgl).expand (uadd px 1) x ?_
      rwa [GridLine.cell, hl.2.2, if_neg hx] at hutf8
    · rintro g' ⟨gl', hgl', hlines⟩ i gl hgl x hx
      rw [hlines] at hgl
      split_ifs at hgl with hir
      · exact Option.some.inj hgl ▸ hgl' x (hx hir)
      · exact h.line hgl x

/-- Setting the data of a column backs it. -/
theorem gridSetUtf8_backed {r : ℕ} (h : g.BackedBut r px) (hr : gridCheckY g r = true) (gu : GridUtf8) :
    Meets .all (fun g' => g'.Every GridLine.Backed ∧ g'.HasData r px) (gridSetUtf8 g px r gu) := by
  rw [gridSetUtf8, if_neg (by simp [hr])]
  refine (updateRow_meets (P := fun gl' => gl'.Backed ∧ gl'.utf8data[px]? = some (some gu)) fun gl hgl => ?_).mono ?_
  · refine gridPutUtf8_backed (fun x hx hutf8 => gridExpandLineUtf8_written _ (h r gl hgl x (fun _ => hx) ?_)) gu
    rwa [gridExpandLineUtf8_cell] at hutf8
  · rintro g' ⟨gl', hgl', hlines⟩
    refine ⟨Grid.every_of_row hgl'.1 (fun i gl hi hgl x => h i gl hgl x fun heq => absurd heq hi) hlines, gl', gu, ?_, hgl'.2⟩
    rw [hlines, if_pos rfl]

theorem gridCheckY_edited {n : ℕ} {g' : Grid} (h : g.Edited n g') (r : ℕ) : gridCheckY g' r = gridCheckY g r := by
  rw [gridCheckY, gridCheckY, h.hsize, h.sy]

/-- Setting the data of any column. -/
theorem gridSetUtf8_keeps (h : g.Every GridLine.Backed) (px r : ℕ) (gu : GridUtf8) :
    Meets .all (Grid.Every GridLine.Backed) (gridSetUtf8 g px r gu) := by
  by_cases hcheck : gridCheckY g r = true
  · exact (gridSetUtf8_backed (h.backedBut r px) hcheck gu).mono fun _ hg => hg.1
  · rw [gridSetUtf8, if_pos (by simpa using hcheck)]
    exact .pure h

/-- The data of a UTF-8 cell that is read is there. -/
theorem gridPeekUtf8_backed (h : g.Every GridLine.Backed) {r : ℕ} (hgc : (gridPeekCell g px r).value? = some gc)
    (hutf8 : gc.isUtf8 = true) : ∃ gu, gridPeekUtf8 g px r = pure (some (some gu)) := by
  unfold gridPeekCell at hgc
  unfold gridPeekUtf8
  split_ifs at hgc ⊢ with hcheck
  · obtain rfl := Option.some.inj hgc
    cases hutf8
  · obtain ⟨gl, hgl, hgc⟩ := Exec.value?_bind.1 hgc
    obtain rfl := Option.some.inj hgc
    have hload := (Block.load_entries (w := .all) trivial r).value hgl
    obtain ⟨gu, hgu⟩ := h.line hload px hutf8
    exact ⟨gu, by rw [Block.load_eq hload, pure_bind, hgu]⟩

/-- The data of a UTF-8 cell that is read for writing is there. -/
theorem gridGetCell_backed (h : g.Every GridLine.Backed) (px r : ℕ) :
    Meets .all (fun found => ∀ p ∈ found, p.1.Every GridLine.Backed ∧ gridCheckY p.1 r = true ∧
      (p.2.isUtf8 = true → p.1.HasData r px)) (gridGetCell g px r) := by
  unfold gridGetCell
  split_ifs with hcheck
  · exact .pure (by simp)
  · have hcheck : gridCheckY g r = true := by simpa using hcheck
    have hexpand := updateRow_every (f := fun gl => pure (gridExpandLine gl (uadd px 1)))
      (fun gl hgl => .pure (hgl.expand _)) h r
    have hsame := updateRow_edits (w := .all) trivial (f := fun gl => pure (gridExpandLine gl (uadd px 1)))
      (fun _ => .pure trivial) g r
    refine (hexpand.and hsame).bind fun g₁ h₁ => (Block.load_entries trivial r).bind fun gl hgl => ?_
    refine (Block.load_entries trivial px).bind fun gc hgc => .pure ?_
    rintro _ ⟨⟩
    refine ⟨h₁.1, by rw [gridCheckY_edited h₁.2.toEdited, hcheck], fun hutf8 => ?_⟩
    obtain ⟨gu, hgu⟩ := h₁.1.line hgl px (by rwa [GridLine.cell, hgc, Option.getD_some])
    exact ⟨gl, gu, hgl, hgu⟩

/-- Getting the data of a column for writing keeps what was written. -/
theorem gridGetUtf8_backed (h : g.Every GridLine.Backed) (px r : ℕ) :
    Meets .all (fun found => ∀ p ∈ found, p.1.Every GridLine.Backed ∧ gridCheckY p.1 r = true ∧
      (g.HasData r px → p.1.HasData r px)) (gridGetUtf8 g px r) := by
  unfold gridGetUtf8
  split_ifs with hcheck
  · exact .pure (by simp)
  · have hcheck : gridCheckY g r = true := by simpa using hcheck
    have hexpand := updateRow_meets (g := g) (r := r) (f := fun gl => pure (gridExpandLineUtf8 gl (uadd px 1)))
      (P := fun gl' => gl'.Backed ∧ (g.HasData r px → ∃ gu, gl'.utf8data[px]? = some (some gu))) fun gl hgl =>
        .pure ⟨(h.line hgl).expandUtf8 _, fun hd => gridExpandLineUtf8_written _ (hd.line hgl)⟩
    have hsame := updateRow_edits (w := .all) trivial (f := fun gl => pure (gridExpandLineUtf8 gl (uadd px 1)))
      (fun _ => .pure trivial) g r
    refine (hexpand.and hsame).bind fun g₁ h₁ => (Block.load_entries trivial r).bind fun gl hgl => ?_
    refine (Block.load_entries trivial px).bind fun gu _ => .pure ?_
    rintro _ ⟨⟩
    obtain ⟨⟨gl', hgl', hlines⟩, hsame⟩ := h₁
    refine ⟨Grid.every_of_row hgl'.1 (fun _ _ _ => h.line) hlines, by rw [gridCheckY_edited hsame.toEdited, hcheck],
      fun hd => ?_⟩
    obtain ⟨gu, hgu⟩ := hgl'.2 hd
    exact ⟨gl', gu, by rw [hlines, if_pos rfl], hgu⟩

/-! ## Clearing and moving cells -/

theorem gridClear_backed (h : g.Every GridLine.Backed) (px py nx ny : ℕ) :
    Meets .all (Grid.Every GridLine.Backed) (gridClear g px py nx ny) := by
  unfold gridClear
  split_ifs
  · exact .pure h
  · exact gridClearLines_every .empty h py ny
  · exact .pure h
  · exact Meets.foldlM h fun g₁ yy _ h₁ => updateRow_every (fun gl hgl => clearCells_backed hgl px nx) h₁ yy

theorem gridMoveCells_backed (h : g.Every GridLine.Backed) (dx px py nx : ℕ) :
    Meets .all (Grid.Every GridLine.Backed) (gridMoveCells g dx px py nx) := by
  unfold gridMoveCells
  split_ifs
  · exact .pure h
  · exact .pure h
  · exact updateRow_every (fun gl hgl => moveCells_backed hgl dx px nx) h py

theorem gridViewInsertLinesRegion_backed (h : g.Every GridLine.Backed) (rlower py ny : ℕ) :
    Meets .all (Grid.Every GridLine.Backed) (gridViewInsertLinesRegion g rlower py ny) := by
  refine (meets_all _).bind fun _ _ => (meets_all _).bind fun _ _ => (meets_all _).bind fun _ _ => ?_
  refine (gridMoveLines_every .empty h _ _ _).bind fun g₁ h₁ => (meets_all _).bind fun _ _ => ?_
  exact gridClear_backed h₁ _ _ _ _

theorem gridViewDeleteLines_backed (h : g.Every GridLine.Backed) (py ny : ℕ) :
    Meets .all (Grid.Every GridLine.Backed) (gridViewDeleteLines g py ny) := by
  refine (meets_all _).bind fun _ _ => (meets_all _).bind fun _ _ => ?_
  refine (gridMoveLines_every .empty h _ _ _).bind fun g₁ h₁ => (meets_all _).bind fun _ _ => ?_
  exact (meets_all _).bind fun _ _ => gridClear_backed h₁ _ _ _ _

theorem gridViewDeleteLinesRegion_backed (h : g.Every GridLine.Backed) (rlower py ny : ℕ) :
    Meets .all (Grid.Every GridLine.Backed) (gridViewDeleteLinesRegion g rlower py ny) := by
  refine (meets_all _).bind fun _ _ => (meets_all _).bind fun _ _ => ?_
  refine (gridMoveLines_every .empty h _ _ _).bind fun g₁ h₁ => (meets_all _).bind fun _ _ => ?_
  exact gridClear_backed h₁ _ _ _ _

theorem gridViewInsertCells_backed (h : g.Every GridLine.Backed) (px py nx : ℕ) :
    Meets .all (Grid.Every GridLine.Backed) (gridViewInsertCells g px py nx) := by
  refine (meets_all _).bind fun last _ => ?_
  split_ifs
  · exact gridClear_backed h _ _ _ _
  · exact (meets_all _).bind fun _ _ => (meets_all _).bind fun _ _ => gridMoveCells_backed h _ _ _ _

theorem gridViewDeleteCells_backed (h : g.Every GridLine.Backed) (px py nx : ℕ) :
    Meets .all (Grid.Every GridLine.Backed) (gridViewDeleteCells g px py nx) := by
  refine (meets_all _).bind fun _ _ => (meets_all _).bind fun _ _ => ?_
  refine (gridMoveCells_backed h _ _ _ _).bind fun g₁ h₁ => (meets_all _).bind fun _ _ => ?_
  exact (meets_all _).bind fun _ _ => gridClear_backed h₁ _ _ _ _

/-! ## Cells of the screen -/

theorem gridViewSetCell_backed (h : g.Every GridLine.Backed)
    (hgc : gc.isUtf8 = true → g.HasData (gridViewY g py) px) :
    Meets .all (fun g' => g'.Every GridLine.Backed ∧
      (g.HasData (gridViewY g py) px → g'.HasData (gridViewY g' py) px)) (gridViewSetCell g px py gc) := by
  refine ((gridSetCell_backed h hgc).and (gridSetCell_edits (w := .all) trivial g px _ gc)).mono fun g' hg' => ?_
  refine ⟨hg'.1.1, fun hd => ?_⟩
  rw [gridViewY, hg'.2.hsize]
  exact hg'.1.2 hd

/-- Setting a cell that is no UTF-8 cell. -/
theorem gridViewSetCell_plain (h : g.Every GridLine.Backed) (hgc : gc.isUtf8 = false) (px py : ℕ) :
    Meets .all (Grid.Every GridLine.Backed) (gridViewSetCell g px py gc) :=
  (gridViewSetCell_backed h fun hutf8 => by rw [hgc] at hutf8; cases hutf8).mono fun _ hg' => hg'.1

theorem gridViewSetUtf8_backed (h : g.Every GridLine.Backed) (hr : gridCheckY g (gridViewY g py) = true)
    (gu : GridUtf8) :
    Meets .all (fun g' => g'.Every GridLine.Backed ∧ g'.HasData (gridViewY g' py) px)
      (gridViewSetUtf8 g px py gu) := by
  refine ((gridSetUtf8_backed (h.backedBut _ px) hr gu).and
    (gridSetUtf8_edits (w := .all) trivial g px _ gu)).mono fun g' hg' => ⟨hg'.1.1, ?_⟩
  rw [gridViewY, hg'.2.hsize]
  exact hg'.1.2

theorem gridViewGetCell_backed (h : g.Every GridLine.Backed) (px py : ℕ) :
    Meets .all (fun found => ∀ p ∈ found, p.1.Every GridLine.Backed ∧
      gridCheckY p.1 (gridViewY p.1 py) = true ∧ (p.2.isUtf8 = true → p.1.HasData (gridViewY p.1 py) px))
      (gridViewGetCell g px py) := by
  refine ((gridGetCell_backed h px _).and (gridGetCell_edits (w := .all) trivial g px _)).mono fun found hf p hp => ?_
  rw [gridViewY, (hf.2 p hp).hsize]
  exact hf.1 p hp

theorem gridViewGetUtf8_backed (h : g.Every GridLine.Backed) (px py : ℕ) :
    Meets .all (fun found => ∀ p ∈ found, p.1.Every GridLine.Backed ∧
      gridCheckY p.1 (gridViewY p.1 py) = true ∧
      (g.HasData (gridViewY g py) px → p.1.HasData (gridViewY p.1 py) px)) (gridViewGetUtf8 g px py) := by
  refine ((gridGetUtf8_backed h px _).and (gridGetUtf8_edits (w := .all) trivial g px _)).mono fun found hf p hp => ?_
  rw [gridViewY, (hf.2 p hp).hsize]
  exact hf.1 p hp

/-- Setting a cell and then its data. -/
theorem gridViewSetCell_gridViewSetUtf8_backed (h : g.Every GridLine.Backed) (px py : ℕ) (gc : GridCell)
    (gu : GridUtf8) :
    Meets .all (Grid.Every GridLine.Backed) (gridViewSetCell g px py gc >>= fun g' => gridViewSetUtf8 g' px py gu) := by
  by_cases hcheck : gridCheckY g (gridViewY g py) = true
  · refine ((gridSetCell_backedBut h px _ gc).and (gridSetCell_edits (w := .all) trivial g px _ gc)).bind fun g₁ h₁ => ?_
    have hy : gridViewY g₁ py = gridViewY g py := by rw [gridViewY, gridViewY, h₁.2.hsize]
    rw [gridViewSetUtf8, hy]
    refine (gridSetUtf8_backed h₁.1 ?_ gu).mono fun _ h₂ => h₂.1
    rw [gridCheckY_edited h₁.2.toEdited, hcheck]
  · rw [gridViewSetCell, gridSetCell, if_pos (by simpa using hcheck), pure_bind, gridViewSetUtf8, gridSetUtf8,
      if_pos (by simpa using hcheck)]
    exact .pure h

end Tmux
