import Tmux.Grid.View

/-!
# What an operation on a grid leaves alone

No operation on a grid changes its size, its limit or whether lines scroll into the
history (`Grid.SameShape`). Those that do not scroll keep the history size and the
number of lines as well, and all lines before the first row they are about
(`Grid.Edited`), and those on the cells of one row keep all other lines (`Grid.LineEdited`).
-/

namespace Tmux

open Exec (Meets uadd meets_usub)

variable {w : Exec.Allowed} {n m px py nx ny : ℕ} {gd gd' gd'' : Grid}

/-- Two grids have the same size, the same limit and both a history or none. -/
structure Grid.SameShape (gd gd' : Grid) : Prop where
  history : gd'.history = gd.history
  sx : gd'.sx = gd.sx
  sy : gd'.sy = gd.sy
  hlimit : gd'.hlimit = gd.hlimit

/-- A grid edited at its `n`th line or after it, without scrolling. -/
structure Grid.Edited (n : ℕ) (gd gd' : Grid) : Prop extends Grid.SameShape gd gd' where
  hsize : gd'.hsize = gd.hsize
  length : gd'.linedata.length = gd.linedata.length
  above : ∀ i < n, gd'.linedata[i]? = gd.linedata[i]?

theorem Grid.SameShape.refl (gd : Grid) : gd.SameShape gd := ⟨rfl, rfl, rfl, rfl⟩

theorem Grid.SameShape.trans (h : gd.SameShape gd') (h' : gd'.SameShape gd'') : gd.SameShape gd'' :=
  ⟨h'.history.trans h.history, h'.sx.trans h.sx, h'.sy.trans h.sy, h'.hlimit.trans h.hlimit⟩

theorem Grid.Edited.refl (gd : Grid) : gd.Edited n gd := ⟨.refl gd, rfl, rfl, fun _ _ => rfl⟩

theorem Grid.Edited.trans (h : gd.Edited n gd') (h' : gd'.Edited n gd'') : gd.Edited n gd'' :=
  ⟨h.toSameShape.trans h'.toSameShape, h'.hsize.trans h.hsize, h'.length.trans h.length,
    fun i hi => (h'.above i hi).trans (h.above i hi)⟩

theorem Grid.Edited.weaken (h : gd.Edited n gd') (hm : m ≤ n) : gd.Edited m gd' :=
  ⟨h.toSameShape, h.hsize, h.length, fun i hi => h.above i (by omega)⟩

/-- Other lines from the `n`th one on. -/
theorem Grid.edited_linedata {l : List GridLine}
    (h : l.length = gd.linedata.length ∧ ∀ k < n, l[k]? = gd.linedata[k]?) :
    gd.Edited n { gd with linedata := l } :=
  ⟨⟨rfl, rfl, rfl, rfl⟩, rfl, h.1, h.2⟩

/-- A grid edited at its `n`th line only. -/
structure Grid.LineEdited (n : ℕ) (gd gd' : Grid) : Prop extends Grid.Edited n gd gd' where
  below : ∀ i, n < i → gd'.linedata[i]? = gd.linedata[i]?

theorem Grid.LineEdited.refl (gd : Grid) : gd.LineEdited n gd := ⟨.refl gd, fun _ _ => rfl⟩

theorem Grid.LineEdited.trans (h : gd.LineEdited n gd') (h' : gd'.LineEdited n gd'') :
    gd.LineEdited n gd'' :=
  ⟨h.toEdited.trans h'.toEdited, fun i hi => (h'.below i hi).trans (h.below i hi)⟩

/-- Another line in the place of the `n`th one. -/
theorem Grid.lineEdited_linedata {l : List GridLine}
    (h : l.length = gd.linedata.length ∧ ∀ k, k ≠ n → l[k]? = gd.linedata[k]?) :
    gd.LineEdited n { gd with linedata := l } :=
  ⟨Grid.edited_linedata ⟨h.1, fun k hk => h.2 k (by omega)⟩, fun k hk => h.2 k (by omega)⟩

/-- What becomes of a grid on the screen: while lines do not scroll into the history there are
    as many lines as before, and no more of them are in the history. -/
structure Grid.Kept (gd gd' : Grid) : Prop extends Grid.SameShape gd gd' where
  length : gd.history = false → gd'.linedata.length = gd.linedata.length
  hsize : gd.history = false → gd'.hsize = gd.hsize ∨ gd'.hsize = 0

theorem Grid.Edited.kept (h : gd.Edited n gd') : gd.Kept gd' :=
  ⟨h.toSameShape, fun _ => h.length, fun _ => .inl h.hsize⟩

theorem Grid.Kept.refl (gd : Grid) : gd.Kept gd := (Grid.Edited.refl (n := 0) gd).kept

theorem Grid.Kept.trans (h : gd.Kept gd') (h' : gd'.Kept gd'') : gd.Kept gd'' := by
  refine ⟨h.toSameShape.trans h'.toSameShape, fun hoff => ?_, fun hoff => ?_⟩
  · rw [h'.length (h.history.trans hoff), h.length hoff]
  · rcases h'.hsize (h.history.trans hoff) with h₁ | h₁
    · exact h₁ ▸ h.hsize hoff
    · exact .inr h₁

section

variable (hw : w.faults .overread)

include hw

/-! ## Lines -/

theorem gridClearLines_edits (gd : Grid) (py ny : ℕ) : Meets w (gd.Edited py) (gridClearLines gd py ny) := by
  unfold gridClearLines
  split_ifs
  · exact .pure (.refl gd)
  · exact .pure (.refl gd)
  · exact (Block.meets_fill hw _ _ _ _).bind fun l hl => .pure (Grid.edited_linedata hl)

theorem gridMoveLines_edits (gd : Grid) (dy py ny : ℕ) :
    Meets w (gd.Edited (min dy py)) (gridMoveLines gd dy py ny) := by
  unfold gridMoveLines
  split_ifs
  · exact .pure (.refl gd)
  · exact .pure (.refl gd)
  · refine (Block.meets_fill hw _ _ _ _).bind fun l₁ h₁ => ?_
    refine (Block.meets_move hw _ _ _).bind fun l₂ h₂ => ?_
    refine (Block.meets_fill hw _ _ _ _).bind fun l₃ h₃ => .pure (Grid.edited_linedata ⟨?_, fun k hk => ?_⟩)
    · rw [h₃.1, h₂.1, h₁.1]
    · rw [h₃.2 k (by omega), h₂.2 k (by omega), h₁.2 k (by omega)]

theorem updateRow_edits {f : GridLine → Exec GridLine} (hf : ∀ gl, Meets w (fun _ => True) (f gl))
    (gd : Grid) (py : ℕ) : Meets w (gd.LineEdited py) (updateRow gd py f) := by
  refine (Block.meets_load hw py).bind fun gl _ => (hf gl).bind fun gl' _ => ?_
  exact (Block.meets_store hw py gl').bind fun l hl => .pure (Grid.lineEdited_linedata hl)

/-! ## Cells -/

theorem gridPutCell_meets (gl : GridLine) (px : ℕ) (gc : GridCell) :
    Meets w (fun _ => True) (gridPutCell gl px gc) :=
  (Block.meets_store hw px gc).bind fun _ _ => .pure trivial

theorem gridPutUtf8_meets (gl : GridLine) (px : ℕ) (gu : GridUtf8) :
    Meets w (fun _ => True) (gridPutUtf8 gl px gu) :=
  (Block.meets_store hw px (some gu)).bind fun _ _ => .pure trivial

theorem gridPeekCell_meets (gd : Grid) (px py : ℕ) : Meets w (fun _ => True) (gridPeekCell gd px py) := by
  unfold gridPeekCell
  split_ifs
  · exact .pure trivial
  · exact (Block.meets_load hw py).bind fun _ _ => .pure trivial

theorem gridPeekUtf8_meets (gd : Grid) (px py : ℕ) : Meets w (fun _ => True) (gridPeekUtf8 gd px py) := by
  unfold gridPeekUtf8
  split_ifs
  · exact .pure trivial
  · exact (Block.meets_load hw py).bind fun _ _ => .pure trivial

theorem gridGetCell_edits (gd : Grid) (px py : ℕ) :
    Meets w (fun found => ∀ p ∈ found, gd.LineEdited py p.1) (gridGetCell gd px py) := by
  unfold gridGetCell
  split_ifs
  · exact .pure nofun
  · refine (updateRow_edits hw (fun _ => .pure trivial) gd py).bind fun gd₁ h₁ => ?_
    refine (Block.meets_load hw py).bind fun gl _ => (Block.meets_load hw px).bind fun gc _ => .pure ?_
    rintro _ ⟨⟩
    exact h₁

theorem gridGetUtf8_edits (gd : Grid) (px py : ℕ) :
    Meets w (fun found => ∀ p ∈ found, gd.LineEdited py p.1) (gridGetUtf8 gd px py) := by
  unfold gridGetUtf8
  split_ifs
  · exact .pure nofun
  · refine (updateRow_edits hw (fun _ => .pure trivial) gd py).bind fun gd₁ h₁ => ?_
    refine (Block.meets_load hw py).bind fun gl _ => (Block.meets_load hw px).bind fun gu _ => .pure ?_
    rintro _ ⟨⟩
    exact h₁

theorem gridSetCell_edits (gd : Grid) (px py : ℕ) (gc : GridCell) :
    Meets w (gd.LineEdited py) (gridSetCell gd px py gc) := by
  unfold gridSetCell
  split_ifs
  · exact .pure (.refl gd)
  · exact updateRow_edits hw (fun gl => gridPutCell_meets hw _ px gc) gd py

theorem gridSetUtf8_edits (gd : Grid) (px py : ℕ) (gu : GridUtf8) :
    Meets w (gd.LineEdited py) (gridSetUtf8 gd px py gu) := by
  unfold gridSetUtf8
  split_ifs
  · exact .pure (.refl gd)
  · exact updateRow_edits hw (fun gl => gridPutUtf8_meets hw _ px gu) gd py

theorem clearCells_meets (gl : GridLine) (px nx : ℕ) : Meets w (fun _ => True) (clearCells gl px nx) := by
  unfold clearCells
  split_ifs
  · exact .pure trivial
  · exact .pure trivial
  · exact (Block.meets_fill hw _ _ _ _).bind fun _ _ => .pure trivial

theorem gridClear_edits (gd : Grid) (px py nx ny : ℕ) :
    Meets w (gd.Edited py) (gridClear gd px py nx ny) := by
  unfold gridClear
  split_ifs
  · exact .pure (.refl gd)
  · exact gridClearLines_edits hw gd py ny
  · exact .pure (.refl gd)
  · refine Meets.foldlM (.refl gd) fun gd₁ yy hyy h₁ => ?_
    refine (updateRow_edits hw (fun gl => clearCells_meets hw gl px nx) gd₁ yy).mono fun gd₂ h₂ => ?_
    exact h₁.trans (h₂.toEdited.weaken (List.mem_range'_1.mp hyy).1)

theorem moveUtf8_meets (gl : GridLine) (dx px nx : ℕ) : Meets w (fun _ => True) (moveUtf8 gl dx px nx) := by
  unfold moveUtf8
  split_ifs
  · exact .pure trivial
  · exact (Block.meets_move hw _ _ _).mono fun _ _ => trivial

theorem moveCells_meets (gl : GridLine) (dx px nx : ℕ) :
    Meets w (fun _ => True) (moveCells gl dx px nx) := by
  unfold moveCells
  refine (Block.meets_move hw _ _ _).bind fun l₁ _ => (moveUtf8_meets hw _ dx px nx).bind fun l₂ _ => ?_
  exact (Block.meets_fill hw _ _ _ _).bind fun l₃ _ => .pure trivial

theorem gridMoveCells_edits (gd : Grid) (dx px py nx : ℕ) :
    Meets w (gd.LineEdited py) (gridMoveCells gd dx px py nx) := by
  unfold gridMoveCells
  split_ifs
  · exact .pure (.refl gd)
  · exact .pure (.refl gd)
  · exact updateRow_edits hw (fun gl => moveCells_meets hw gl dx px nx) gd py

/-! ## Rows of the screen -/

theorem gridViewClear_edits (gd : Grid) (px py nx ny : ℕ) :
    Meets w (gd.Edited (gridViewY gd py)) (gridViewClear gd px py nx ny) :=
  gridClear_edits hw gd px _ nx ny

/-- Inserting cells wraps nowhere if there is room for them. -/
theorem gridViewInsertCells_edits (gd : Grid) {px nx : ℕ} (py : ℕ)
    (h : w.wraps ∨ 1 ≤ gd.sx ∧ px + nx ≤ gd.sx) :
    Meets w (gd.Edited (gridViewY gd py)) (gridViewInsertCells gd px py nx) := by
  unfold gridViewInsertCells
  refine (meets_usub (h.imp_right fun h => h.1)).bind fun last _ => ?_
  split_ifs
  · exact gridClear_edits hw gd _ _ _ _
  · refine (meets_usub (h.imp_right fun h => by omega)).bind fun n₁ h₁ => ?_
    refine (meets_usub (h.imp_right fun h => by omega)).bind fun n₂ _ => ?_
    exact (gridMoveCells_edits hw gd _ _ _ _).mono fun _ hgd => hgd.toEdited

/-- Deleting cells wraps nowhere if there are so many, and no more than as many are left after
    them. -/
theorem gridViewDeleteCells_edits (gd : Grid) {px nx : ℕ} (py : ℕ)
    (h : w.wraps ∨ gd.sx < Exec.word ∧ px + nx ≤ gd.sx ∧ gd.sx ≤ px + 2 * nx) :
    Meets w (gd.Edited (gridViewY gd py)) (gridViewDeleteCells gd px py nx) := by
  unfold gridViewDeleteCells
  refine (meets_usub (h.imp_right fun h => by omega)).bind fun n₁ h₁ => ?_
  refine (meets_usub (h.imp_right fun h => by omega)).bind fun n₂ _ => ?_
  refine (gridMoveCells_edits hw gd px _ _ n₂).bind fun gd₁ hgd₁ => ?_
  rw [hgd₁.sx]
  refine (meets_usub (h.imp_right fun h => by omega)).bind fun sx hsx => ?_
  have hn : w.wraps ∨ sx ≤ uadd px nx := h.imp_right fun h => by
    rw [hsx (by omega), Exec.uadd_of_lt (by omega)]
    omega
  refine (meets_usub hn).bind fun n₃ _ => ?_
  exact (gridClear_edits hw gd₁ _ _ _ _).mono fun gd₂ hgd₂ => hgd₁.toEdited.trans hgd₂

theorem lastUsed_meets (gd : Grid) (n : ℕ) : Meets w (fun _ => True) (lastUsed gd n) := by
  induction n with
  | zero => exact .pure trivial
  | succ n ih => exact ih.bind fun _ _ => (Block.meets_load hw _).bind fun _ _ => .pure trivial

theorem gridScrollHistory_shape (gd : Grid) : Meets w gd.SameShape (gridScrollHistory gd) :=
  (Block.meets_store hw _ _).bind fun _ _ => .pure ⟨rfl, rfl, rfl, rfl⟩

end

section

variable (hw : w.faults .overread) (hwraps : w.wraps)

include hw hwraps

theorem gridCollectHistory_shape (gd : Grid) : Meets w gd.SameShape (gridCollectHistory gd) := by
  by_cases hroom : gd.hsize < gd.hlimit
  · rw [gridCollectHistory, if_pos hroom]
    exact .pure (.refl gd)
  · rw [gridCollectHistory, if_neg hroom]
    refine (meets_usub (.inl hwraps)).bind fun ny _ => ?_
    refine (gridMoveLines_edits hw gd _ _ _).bind fun gd₁ h₁ => ?_
    refine (meets_usub (.inl hwraps)).bind fun hsize _ => .pure ?_
    exact ⟨h₁.history, h₁.sx, h₁.sy, h₁.hlimit⟩

theorem gridScrollHistoryRegion_shape (gd : Grid) (upper lower : ℕ) :
    Meets w gd.SameShape (gridScrollHistoryRegion gd upper lower) := by
  refine (Block.meets_move hw _ _ _).bind fun l₁ _ => (Block.meets_load hw _).bind fun line _ => ?_
  refine (Block.meets_store hw _ line).bind fun l₂ _ => (meets_usub (.inl hwraps)).bind fun n _ => ?_
  refine (Block.meets_move hw _ _ _).bind fun l₃ _ => (Block.meets_store hw _ _).bind fun l₄ _ => ?_
  exact .pure ⟨rfl, rfl, rfl, rfl⟩

theorem scrollLines_shape (gd : Grid) (n : ℕ) : Meets w gd.SameShape (scrollLines gd n) := by
  induction n generalizing gd with
  | zero => exact .pure (.refl gd)
  | succ n ih =>
    refine (gridCollectHistory_shape hw hwraps gd).bind fun gd₁ h₁ => ?_
    refine (gridScrollHistory_shape hw gd₁).bind fun gd₂ h₂ => ?_
    exact (ih gd₂).mono fun gd₃ h₃ => (h₁.trans h₂).trans h₃

theorem gridViewClearHistory_shape (gd : Grid) : Meets w gd.SameShape (gridViewClearHistory gd) :=
  (lastUsed_meets hw gd gd.sy).bind fun last _ => scrollLines_shape hw hwraps gd last

theorem gridViewScrollRegionUp_kept (gd : Grid) (rupper rlower : ℕ) :
    Meets w gd.Kept (gridViewScrollRegionUp gd rupper rlower) := by
  unfold gridViewScrollRegionUp
  split_ifs with hon
  · suffices hshape : ∀ gd₁, gd.SameShape gd₁ → gd.Kept gd₁ by
      refine (gridCollectHistory_shape hw hwraps gd).bind fun gd₁ h₁ => ?_
      refine (meets_usub (.inl hwraps)).bind fun bottom _ => ?_
      split_ifs
      · exact (gridScrollHistory_shape hw gd₁).mono fun gd₂ h₂ => hshape gd₂ (h₁.trans h₂)
      · exact (gridScrollHistoryRegion_shape hw hwraps gd₁ _ _).mono fun gd₂ h₂ =>
          hshape gd₂ (h₁.trans h₂)
    exact fun gd₁ h₁ => ⟨h₁, fun hoff => absurd hon (by simp [hoff]), fun hoff => absurd hon (by simp [hoff])⟩
  · refine (meets_usub (.inl hwraps)).bind fun ny _ => ?_
    exact (gridMoveLines_edits hw gd _ _ _).mono fun gd₁ h₁ => h₁.kept

theorem gridViewScrollRegionDown_edits (gd : Grid) (rupper rlower : ℕ) :
    Meets w (gd.Edited 0) (gridViewScrollRegionDown gd rupper rlower) := by
  refine (meets_usub (.inl hwraps)).bind fun ny _ => ?_
  exact (gridMoveLines_edits hw gd _ _ _).mono fun gd₁ h₁ => h₁.weaken (Nat.zero_le _)

theorem gridViewInsertLines_edits (gd : Grid) (py ny : ℕ) :
    Meets w (gd.Edited 0) (gridViewInsertLines gd py ny) := by
  refine (meets_usub (.inl hwraps)).bind fun _ _ => (meets_usub (.inl hwraps)).bind fun _ _ => ?_
  exact (gridMoveLines_edits hw gd _ _ _).mono fun gd₁ h₁ => h₁.weaken (Nat.zero_le _)

theorem gridViewInsertLinesRegion_edits (gd : Grid) (rlower py ny : ℕ) :
    Meets w (gd.Edited 0) (gridViewInsertLinesRegion gd rlower py ny) := by
  refine (meets_usub (.inl hwraps)).bind fun _ _ => (meets_usub (.inl hwraps)).bind fun _ _ => ?_
  refine (meets_usub (.inl hwraps)).bind fun _ _ => ?_
  refine (gridMoveLines_edits hw gd _ _ _).bind fun gd₁ h₁ => (meets_usub (.inl hwraps)).bind fun _ _ => ?_
  exact (gridClear_edits hw gd₁ _ _ _ _).mono fun gd₂ h₂ =>
    (h₁.weaken (Nat.zero_le _)).trans (h₂.weaken (Nat.zero_le _))

theorem gridViewDeleteLines_edits (gd : Grid) (py ny : ℕ) :
    Meets w (gd.Edited 0) (gridViewDeleteLines gd py ny) := by
  refine (meets_usub (.inl hwraps)).bind fun _ _ => (meets_usub (.inl hwraps)).bind fun _ _ => ?_
  refine (gridMoveLines_edits hw gd _ _ _).bind fun gd₁ h₁ => (meets_usub (.inl hwraps)).bind fun _ _ => ?_
  refine (meets_usub (.inl hwraps)).bind fun _ _ => ?_
  exact (gridClear_edits hw gd₁ _ _ _ _).mono fun gd₂ h₂ =>
    (h₁.weaken (Nat.zero_le _)).trans (h₂.weaken (Nat.zero_le _))

theorem gridViewDeleteLinesRegion_edits (gd : Grid) (rlower py ny : ℕ) :
    Meets w (gd.Edited 0) (gridViewDeleteLinesRegion gd rlower py ny) := by
  refine (meets_usub (.inl hwraps)).bind fun _ _ => (meets_usub (.inl hwraps)).bind fun _ _ => ?_
  refine (gridMoveLines_edits hw gd _ _ _).bind fun gd₁ h₁ => (meets_usub (.inl hwraps)).bind fun _ _ => ?_
  exact (gridClear_edits hw gd₁ _ _ _ _).mono fun gd₂ h₂ =>
    (h₁.weaken (Nat.zero_le _)).trans (h₂.weaken (Nat.zero_le _))

end

end Tmux
