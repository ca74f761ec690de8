import Tmux.Screen.Kept

/-!
# Characters on a screen

Writing a character keeps the cursor on the screen or, after the last column, one column
past it (`screenWriteCell_kept`). This wraps in two cases only: if the character is wider
than the screen, or if the row of the cursor has nothing but padding
(`Screen.onlyPadding`).
-/

namespace Tmux

open Exec (Meets uadd usub meets_usub)

variable {w : Exec.Allowed} {py : ℕ} {gd gd' gd'' : Grid} {s s' : Screen}

/-- The cell read at a column of the row of the cursor. -/
def Screen.cell (s : Screen) (px : ℕ) : GridCell :=
  (gridViewPeekCell s.grid px s.cy).value?.getD gridDefaultCell

/-- All cells of the row of the cursor are padding, the first one having UTF-8 data: looking for
    the last character then goes on before the first column. -/
def Screen.onlyPadding (s : Screen) : Bool :=
  ((List.range s.grid.sx).all fun px => (s.cell px).isPadding) && (s.cell 0).isUtf8

/-- A grid edited in one row of the screen only. -/
def Grid.RowEdited (py : ℕ) (gd gd' : Grid) : Prop := gd.LineEdited (gridViewY gd py) gd'

theorem Grid.RowEdited.refl (gd : Grid) : gd.RowEdited py gd := Grid.LineEdited.refl gd

theorem Grid.RowEdited.trans (h : gd.RowEdited py gd') (h' : gd'.RowEdited py gd'') :
    gd.RowEdited py gd'' := by
  have hy : gridViewY gd' py = gridViewY gd py := congrArg (uadd · py) h.hsize
  rw [Grid.RowEdited, hy] at h'
  exact Grid.LineEdited.trans h h'

theorem Grid.RowEdited.kept (h : gd.RowEdited py gd') : gd.Kept gd' := h.toEdited.kept

/-- A screen on which only the row of the cursor is another one. -/
def Screen.Redrawn (s s' : Screen) : Prop := ∃ gd, s.grid.RowEdited s.cy gd ∧ s' = { s with grid := gd }

theorem Screen.Redrawn.stays (h : s.InRows) (hs : s.Redrawn s') : s.Stays s' := by
  obtain ⟨gd, hgd, rfl⟩ := hs
  exact Screen.stays_grid h hgd.kept

section

variable (hw : ∀ e, e ≠ .bit → e ≠ .hang → w.faults e)

include hw

/-! ## Saving the last cell -/

/-- Looking back from a column for a cell that is not padding stops in a column, or all cells
    from there on to the first one are padding. -/
theorem lastCell_meets (gc : GridCell) {n xx : ℕ} (hn : xx + n = s.grid.sx + 1) :
    Meets w (fun p => p.1 ≤ s.grid.sx ∨
      (∀ px < n, (s.cell px).isPadding) ∧ p.2 = if n = 0 then gc else s.cell 0) (lastCell s gc n xx) := by
  induction n generalizing gc xx with
  | zero => exact .pure (.inr ⟨nofun, rfl⟩)
  | succ n ih =>
    refine (meets_usub (.inr (by omega))).bind fun px hpx => ?_
    refine (gridPeekCell_meets (hw _ nofun nofun) s.grid px _).self.bind fun gc' hgc' => ?_
    have hcell : s.cell px = gc' := by rw [Screen.cell, gridViewPeekCell, hgc'.2, Option.getD_some]
    obtain rfl : px = n := by rw [hpx (by omega)]; omega
    cases hpad : gc'.isPadding with
    | false =>
      exact .pure (.inl (by omega))
    | true =>
      refine (ih gc' (by omega)).mono fun p hp => hp.imp_right fun ⟨hall, heq⟩ => ⟨fun k hk => ?_, ?_⟩
      · rcases Nat.lt_succ_iff_lt_or_eq.1 hk with hk | rfl
        · exact hall k hk
        · rw [hcell, hpad]
      · rw [heq, if_neg (by omega : ¬ px + 1 = 0)]
        split_ifs with h0
        · rw [← hcell, h0]
        · rfl

theorem saveLast_meets (hx : 1 ≤ s.grid.sx) (hpadding : w.wraps ∨ s.onlyPadding = false) :
    Meets w (fun _ => True) (saveLast s) := by
  refine (lastCell_meets hw gridDefaultCell (by omega)).bind fun p hp => ?_
  dsimp only
  split_ifs with hutf8
  · have hcol : w.wraps ∨ p.1 ≤ s.grid.sx := by
      refine hpadding.imp_right fun hpadding => hp.resolve_right fun ⟨hall, heq⟩ => ?_
      rw [if_neg (by omega)] at heq
      have hpadded : s.onlyPadding = true := by
        simpa [Screen.onlyPadding, ← heq, hutf8] using hall
      rw [hpadded] at hpadding
      cases hpadding
    refine (meets_usub hcol).bind fun px _ => (gridPeekUtf8_meets (hw _ nofun nofun) s.grid px _).bind fun gu _ => ?_
    exact (Exec.meets_follow (P := fun _ => True) (hw _ nofun nofun) fun _ _ => trivial).bind fun _ _ => .pure trivial
  · exact .pure trivial

/-! ## Combining characters -/

theorem gridViewSetCell_edits (gd : Grid) (px py : ℕ) (gc : GridCell) :
    Meets w (gd.RowEdited py) (gridViewSetCell gd px py gc) :=
  gridSetCell_edits (hw _ nofun nofun) gd px _ gc

theorem gridViewSetUtf8_edits (gd : Grid) (px py : ℕ) (gu : GridUtf8) :
    Meets w (gd.RowEdited py) (gridViewSetUtf8 gd px py gu) :=
  gridSetUtf8_edits (hw _ nofun nofun) gd px _ gu

theorem gridViewGetCell_edits (gd : Grid) (px py : ℕ) :
    Meets w (fun found => ∀ p ∈ found, gd.RowEdited py p.1) (gridViewGetCell gd px py) :=
  gridGetCell_edits (hw _ nofun nofun) gd px _

theorem gridViewGetUtf8_edits (gd : Grid) (px py : ℕ) :
    Meets w (fun found => ∀ p ∈ found, gd.RowEdited py p.1) (gridViewGetUtf8 gd px py) :=
  gridGetUtf8_edits (hw _ nofun nofun) gd px _

theorem utf8Cell_edits (gd : Grid) (px py : ℕ) (gc : GridCell) :
    Meets w (fun p => gd.RowEdited py p.1) (utf8Cell gd px py gc) := by
  unfold utf8Cell
  split_ifs
  · exact .pure (.refl gd)
  · refine (gridViewSetUtf8_edits hw gd px py _).bind fun gd₁ h₁ => ?_
    exact (gridViewSetCell_edits hw gd₁ px py _).bind fun gd₂ h₂ => .pure (h₁.trans h₂)

theorem putCombined_edits (gd : Grid) (px py : ℕ) (gc : GridCell) (gu : GridUtf8) (utf8data : Utf8Data) :
    Meets w (gd.RowEdited py) (putCombined gd px py gc gu utf8data) := by
  unfold putCombined
  cases gridUtf8Append gu utf8data with
  | some gu' => exact gridViewSetUtf8_edits hw gd px py gu'
  | none =>
    refine (gridViewSetCell_edits hw gd px py _).bind fun gd₁ h₁ => ?_
    exact (gridViewSetUtf8_edits hw gd₁ px py _).mono fun gd₂ h₂ => h₁.trans h₂

theorem screenWriteCombine_redrawn (utf8data : Utf8Data) :
    Meets w s.Redrawn (screenWriteCombine s utf8data) := by
  unfold screenWriteCombine
  split_ifs
  · exact .pure ⟨_, .refl _, rfl⟩
  · exact hw _ nofun nofun
  · refine (gridViewGetCell_edits hw s.grid _ _).bind fun found hfound => ?_
    refine (Exec.meets_follow (hw _ nofun nofun) hfound).bind fun p₁ h₁ => ?_
    refine (utf8Cell_edits hw p₁.1 _ _ p₁.2).bind fun p₂ h₂ => ?_
    refine (gridViewGetUtf8_edits hw p₂.1 _ _).bind fun found hfound => ?_
    refine (Exec.meets_follow (hw _ nofun nofun) hfound).bind fun p₃ h₃ => ?_
    refine (Exec.meets_follow (P := fun _ => True) (hw _ nofun nofun) fun _ _ => trivial).bind fun gu _ => ?_
    refine (putCombined_edits hw p₃.1 _ _ _ gu utf8data).bind fun gd h₄ => .pure ⟨gd, ?_, rfl⟩
    exact ((h₁.trans h₂).trans h₃).trans h₄

/-! ## Drawing -/

theorem clearPadding_edits (gd : Grid) (py xx : ℕ) : Meets w (fun p => gd.RowEdited py p.1) (clearPadding gd py xx) := by
  induction xx generalizing gd with
  | zero => exact .pure (.refl gd)
  | succ xx ih =>
    refine (gridPeekCell_meets (hw _ nofun nofun) gd _ _).bind fun gc _ => ?_
    split_ifs
    · exact .pure (.refl gd)
    · refine (gridViewSetCell_edits hw gd _ py _).bind fun gd₁ h₁ => ?_
      exact (ih gd₁).mono fun p hp => h₁.trans hp

theorem clearPaddingAfter_edits (gd : Grid) (py n xx : ℕ) : Meets w (gd.RowEdited py) (clearPaddingAfter gd py n xx) := by
  induction n generalizing gd xx with
  | zero => exact .pure (.refl gd)
  | succ n ih =>
    refine (gridPeekCell_meets (hw _ nofun nofun) gd _ _).bind fun gc _ => ?_
    split_ifs
    · exact .pure (.refl gd)
    · refine (gridViewSetCell_edits hw gd _ py _).bind fun gd₁ h₁ => ?_
      exact (ih gd₁ _).mono fun p hp => h₁.trans hp

theorem overwritePadding_edits (s : Screen) : Meets w (s.grid.RowEdited s.cy) (overwritePadding s) := by
  refine (gridPeekCell_meets (hw _ nofun nofun) s.grid _ _).bind fun gc _ => ?_
  split_ifs
  · refine (clearPadding_edits hw s.grid _ _).bind fun p hp => ?_
    exact (gridViewSetCell_edits hw p.1 _ _ _).mono fun gd hgd => hp.trans hgd
  · exact .pure (.refl _)

theorem screenWriteOverwrite_redrawn (width : ℕ) : Meets w s.Redrawn (screenWriteOverwrite s width) := by
  refine (overwritePadding_edits hw s).bind fun gd₁ h₁ => ?_
  exact (clearPaddingAfter_edits hw gd₁ _ _ _).bind fun gd₂ h₂ => .pure ⟨gd₂, h₁.trans h₂, rfl⟩

theorem padCell_edits (py : ℕ) (gd : Grid) (xx : ℕ) : Meets w (gd.RowEdited py) (padCell py gd xx) := by
  refine (gridViewGetCell_edits hw gd xx _).bind fun found hfound => ?_
  cases found with
  | none => exact .pure (.refl gd)
  | some p => exact (gridViewSetCell_edits hw p.1 xx py _).mono fun gd' h' => (hfound p rfl).trans h'

theorem gridUtf8Set_meets (utf8data : Utf8Data) : Meets w (fun _ => True) (gridUtf8Set utf8data) := by
  unfold gridUtf8Set
  split_ifs
  · exact hw _ nofun nofun
  · exact hw _ nofun nofun
  · exact .pure trivial

theorem putCharacter_edits (gd : Grid) (px py : ℕ) (gc : GridCell) (utf8data : Option Utf8Data) :
    Meets w (gd.RowEdited py) (putCharacter gd px py gc utf8data) := by
  refine (gridViewSetCell_edits hw gd px py gc).bind fun gd₁ h₁ => ?_
  split_ifs
  · refine (Exec.meets_follow (P := fun _ => True) (hw _ nofun nofun) fun _ _ => trivial).bind fun u _ => ?_
    refine (gridUtf8Set_meets hw u).bind fun gu _ => ?_
    exact (gridViewSetUtf8_edits hw gd₁ px py gu).mono fun gd₂ h₂ => h₁.trans h₂
  · exact .pure h₁

/-- Drawing a character edits the row of the cursor, and moves the cursor by its width. -/
theorem drawCharacter_edits (gc : GridCell) (utf8data : Option Utf8Data) (width : ℕ) :
    Meets w (fun s' => ∃ gd, s.grid.RowEdited s.cy gd ∧ s' = { s with grid := gd, cx := uadd s.cx width })
      (drawCharacter s gc utf8data width) := by
  refine (screenWriteOverwrite_redrawn hw width).bind ?_
  rintro _ ⟨gd₁, h₁, rfl⟩
  have hpad : Meets w (s.grid.RowEdited s.cy) ((List.range' (s.cx + 1) (width - 1)).foldlM (padCell s.cy) gd₁) :=
    Meets.foldlM h₁ fun gd xx _ hgd => (padCell_edits hw s.cy gd xx).mono fun _ h' => hgd.trans h'
  refine hpad.bind fun gd₂ h₂ => (putCharacter_edits hw gd₂ _ _ gc utf8data).bind fun gd₃ h₃ => .pure ?_
  exact ⟨gd₃, h₂.trans h₃, rfl⟩

theorem drawCharacter_kept (h : s.InRows) (gc : GridCell) (utf8data : Option Utf8Data) (width : ℕ) :
    Meets w (fun s' => s.Kept s' ∧ s'.cx ≤ s.cx + width) (drawCharacter s gc utf8data width) := by
  refine (drawCharacter_edits hw gc utf8data width).mono ?_
  rintro _ ⟨gd, hgd, rfl⟩
  have hrows := (Screen.stays_grid h hgd.kept).rows
  exact ⟨⟨hgd.kept, ⟨hrows.cursor, hrows.region, hrows.bottom, hrows.lines⟩, .inl rfl, rfl⟩,
    uadd_le s.cx width⟩

/-! ## Writing -/

theorem insertSpace_stays (h : s.InRows) {width : ℕ} (hwidth : w.wraps ∨ width ≤ s.grid.sx) :
    Meets w s.Stays (insertSpace s width) := by
  unfold insertSpace
  split_ifs
  · refine (meets_usub hwidth).bind fun last hlast => ?_
    split_ifs with hcx
    · refine (meets_usub (hwidth.imp_right fun h => by omega)).bind fun xx hxx => ?_
      refine (meets_usub (hwidth.imp_right fun h => by omega)).bind fun xx' _ => ?_
      exact (gridMoveCells_edits (hw _ nofun nofun) s.grid _ _ _ _).bind fun gd hgd =>
        .pure (Screen.stays_grid h hgd.kept)
    · exact .pure (.refl h)
  · exact .pure (.refl h)

omit hw in
theorem overflows_meets {width : ℕ} (hwidth : w.wraps ∨ width ≤ s.grid.sx) :
    Meets w (fun spills => spills = false → s.hasMode modeWrap = true → width ≤ s.grid.sx →
      s.cx + width ≤ s.grid.sx) (overflows s width) := by
  unfold overflows
  split_ifs with hwrap
  · refine (meets_usub hwidth).bind fun last hlast => .pure fun hspills _ hle => ?_
    simp only [gt_iff_lt, decide_eq_false_iff_not, Nat.not_lt] at hspills
    have := hlast hle
    omega
  · exact .pure fun _ h => absurd h hwrap

theorem wrapLine_stays (h : s.InRows) {width : ℕ}
    (hwidth : w.wraps ∨ width ≤ s.grid.sx) : Meets w s.Stays (wrapLine s width) := by
  refine (overflows_meets hwidth).bind fun spills hspills => ?_
  cases spills with
  | false => exact .pure (.refl h)
  | true =>
    refine (screenWriteLinefeed_stays (hw _ nofun nofun) h true).bind fun s₁ h₁ => .pure ?_
    exact h₁.trans (Screen.stays_cursor h₁.rows (.inl (Nat.zero_le _)) h₁.rows.cursor)

/-- Writing a character that is no wider than the screen keeps the cursor on the screen, or past
    the last column, if lines wrap. -/
theorem writeCharacter_kept (h : s.InRows) (hx : 1 ≤ s.grid.sx) (gc : GridCell)
    (utf8data : Option Utf8Data) {width : ℕ} (hwidth : w.wraps ∨ width ≤ s.grid.sx)
    (hpadding : w.wraps ∨ s.onlyPadding = false) :
    Meets w (fun s' => s.Kept s' ∧ (s.cx ≤ s.grid.sx → s.hasMode modeWrap = true → width ≤ s.grid.sx →
      s'.cx ≤ s.grid.sx)) (writeCharacter s gc utf8data width) := by
  refine (saveLast_meets hw hx hpadding).bind fun _ _ => ?_
  refine (insertSpace_stays hw h hwidth).bind fun s₁ h₁ => ?_
  rw [← h₁.grid.sx] at hwidth hx
  refine (wrapLine_stays hw h₁.rows hwidth).bind fun s₂ h₂ => ?_
  rw [← h₂.grid.sx] at hwidth hx
  refine (overflows_meets hwidth).bind fun spills hspills => ?_
  refine (meets_usub (w := w.wrapping) (.inl trivial)).forget.bind fun last _ => ?_
  have h₁₂ := h₁.trans h₂
  split_ifs with hout
  · refine .pure ⟨h₁₂.toKept, fun hcx _ _ => ?_⟩
    rcases h₁₂.cols with hc | hc <;> omega
  · refine (drawCharacter_kept hw h₂.rows gc utf8data width).mono fun s₃ h₃ => ?_
    refine ⟨h₁₂.toKept.trans h₃.1, fun hcx hwrap hle => ?_⟩
    rw [← h₁₂.wrap] at hwrap
    rw [← h₁₂.grid.sx] at hle ⊢
    exact h₃.2.trans (hspills (by simpa using fun h => hout (.inl h)) hwrap hle)

omit hw in
theorem lacksRoom_meets {width : ℕ} : Meets w (fun _ => True) (lacksRoom s width) := by
  unfold lacksRoom
  split_ifs
  · exact .pure trivial
  · exact .pure trivial
  · exact .pure trivial
  · exact (meets_usub (.inr (by omega))).bind fun _ _ => .pure trivial

/-- The width that a cell is written with. -/
def cellWidth (gc : GridCell) (utf8data : Option Utf8Data) : ℕ :=
  if gc.isUtf8 then (utf8data.map Utf8Data.width).getD 0 else 1

theorem characterWidth_meets (gc : GridCell) (utf8data : Option Utf8Data) :
    Meets w (· = cellWidth gc utf8data) (characterWidth gc utf8data) := by
  unfold characterWidth cellWidth
  split_ifs
  · cases utf8data with
    | none => exact hw _ nofun nofun
    | some u => exact .pure rfl
  · exact .pure rfl

/-- Writing a cell no wider than the screen keeps the cursor on the screen, or past the last
    column, if lines wrap. -/
theorem screenWriteCell_kept (h : s.InRows) (hx : 1 ≤ s.grid.sx) (gc : GridCell)
    (utf8data : Option Utf8Data)
    (hwrite : w.wraps ∨ (gc.isPadding = false → cellWidth gc utf8data ≠ 0 →
      cellWidth gc utf8data ≤ s.grid.sx ∧ s.onlyPadding = false)) :
    Meets w (fun s' => s.Kept s' ∧ (s.cx ≤ s.grid.sx → s.hasMode modeWrap = true →
      (gc.isPadding = false → cellWidth gc utf8data ≠ 0 → cellWidth gc utf8data ≤ s.grid.sx) →
      s'.cx ≤ s.grid.sx)) (screenWriteCell s gc utf8data) := by
  unfold screenWriteCell
  split_ifs with hpad
  · exact .pure ⟨.refl h, fun hcx _ _ => hcx⟩
  · refine (characterWidth_meets hw gc utf8data).bind fun width hwidth => ?_
    subst hwidth
    refine lacksRoom_meets.bind fun full _ => ?_
    split_ifs with hfull hzero
    · exact .pure ⟨.refl h, fun hcx _ _ => hcx⟩
    · refine (Exec.meets_follow (P := fun _ => True) (hw _ nofun nofun) fun _ _ => trivial).bind fun u _ => ?_
      refine (screenWriteCombine_redrawn hw u).mono fun s' hs' => ⟨(hs'.stays h).toKept, fun hcx _ _ => ?_⟩
      rcases (hs'.stays h).cols with hc | hc <;> omega
    · have hpad : gc.isPadding = false := by simpa using hpad
      have hroom := hwrite.imp_right fun hwrite => hwrite hpad hzero
      refine (writeCharacter_kept hw h hx gc utf8data (hroom.imp_right And.left)
        (hroom.imp_right And.right)).mono fun s' hs' => ⟨hs'.1, fun hcx hwrap hle => ?_⟩
      exact hs'.2 hcx hwrap (hle hpad hzero)

end

end Tmux
