import Mathlib.Data.Prod.Lex
import Tmux.Copy.Position
import Tmux.Grid.Data

/-!
# The line of the cursor

The cursor is in a line of the backing grid (`CopyMode.row`), which the motions up and down
change by one, unless it is the first one or the last one (`windowCopyCursorUp_above`,
`windowCopyCursorDown_below`). A motion in a line only changes the column (`CopyMode.SameLine`).
-/

namespace Tmux

open Exec.Allowed (Lenient)
open Exec (Meets uadd usub meets_usub_any uadd_of_lt usub_of_le)

variable {m m' m'' : CopyMode} {w : Exec.Allowed} {py : ℕ}

/-! ## Lines -/

/-- Whether a cell is a blank. -/
def GridCell.isBlank (gc : GridCell) : Bool := !gc.isUtf8 && gc.data == 32

/-- The first `n` columns of a line without the blanks at their end. -/
def GridLine.trimmed (gl : GridLine) : ℕ → ℕ
  | 0 => 0
  | n + 1 => if (gl.cell n).isBlank then gl.trimmed n else n + 1

theorem GridLine.trimmed_le (gl : GridLine) (n : ℕ) : gl.trimmed n ≤ n := by
  induction n with
  | zero => exact le_refl _
  | succ n ih =>
    unfold trimmed
    split_ifs <;> omega

/-- The line of the cursor. -/
def CopyMode.row (m : CopyMode) : ℕ := m.backing.grid.hsize - m.oy + m.cy

/-- The place of the cursor. -/
def CopyMode.place (m : CopyMode) : ℕ ×ₗ ℕ := toLex (m.backing.grid.hsize - m.oy + m.cy, m.cx)

/-- A line of the backing grid. -/
def CopyMode.line (m : CopyMode) (py : ℕ) : GridLine := m.backing.grid.linedata[py]?.getD {}

/-- The length of a line of the backing grid. -/
def CopyMode.lineLength (m : CopyMode) (py : ℕ) : ℕ :=
  (m.line py).trimmed (min (m.line py).celldata.length m.screen.grid.sx)

theorem CopyMode.lineLength_le (m : CopyMode) (py : ℕ) : m.lineLength py ≤ m.screen.grid.sx :=
  (GridLine.trimmed_le _ _).trans (Nat.min_le_right _ _)

section

variable (hwhole : m.backing.grid.Whole) (hpy : py < m.backing.grid.hsize + m.backing.grid.sy)

include hwhole hpy

theorem CopyMode.load_line : m.backing.grid.linedata[py]? = some (m.line py) := by
  have hlength := hwhole.length
  rw [CopyMode.line, List.getElem?_eq_getElem (by omega), Option.getD_some]

theorem gridPeekCell_line (px : ℕ) : gridPeekCell m.backing.grid px py = pure ((m.line py).cell px) := by
  rw [gridPeekCell, gridCheckY_eq hwhole, decide_eq_true hpy, if_neg (by simp), Block.load_eq (m.load_line hwhole hpy),
    pure_bind]
  rfl

theorem trimBlanks_eq (n : ℕ) : trimBlanks m.backing.grid py n = pure ((m.line py).trimmed n) := by
  induction n with
  | zero => rfl
  | succ n ih =>
    rw [trimBlanks, gridPeekCell_line hwhole hpy, pure_bind, GridLine.trimmed, GridCell.isBlank]
    by_cases hblank : ((m.line py).cell n).isUtf8 = true ∨ ((m.line py).cell n).data ≠ 32
    · rw [if_pos hblank, if_neg]
      rcases hblank with hblank | hblank <;> simp [hblank]
    · rw [if_neg hblank, if_pos, ih]
      push Not at hblank
      simpa using hblank

theorem windowCopyFindLength_eq (h : m.Based) : windowCopyFindLength m py = pure (m.lineLength py) := by
  rw [windowCopyFindLength, Block.load_eq (m.load_line hwhole hpy), pure_bind, limit_eq_min, trimBlanks_eq hwhole hpy, h.sx]
  rfl

theorem lineWrapped_eq : lineWrapped m py = pure (m.line py).wrapped := by
  rw [lineWrapped, Block.load_eq (m.load_line hwhole hpy), pure_bind]

end

/-! ## Up and down -/

/-- The position one line up, if there is one. -/
def CopyMode.above (m : CopyMode) : CopyMode :=
  if m.cy = 0 then { m with oy := min (m.oy + 1) m.backing.grid.hsize } else { m with cy := m.cy - 1 }

/-- The position one line down, if there is one. -/
def CopyMode.below (m : CopyMode) : CopyMode :=
  if m.cy + 1 = m.screen.grid.sy then { m with oy := m.oy - 1 } else { m with cy := m.cy + 1 }

/-- The same, but for the columns of the cursor and what is drawn on the screen. -/
def CopyMode.SameLine (m m' : CopyMode) : Prop :=
  ∃ s cx lastcx lastsx, m.screen.Kept s ∧ m' = { m with screen := s, cx, lastcx, lastsx }

/-- What a motion keeps, wherever it goes. -/
structure CopyMode.Goes (m m' : CopyMode) : Prop where
  based : m'.Based
  gridSx : m'.screen.grid.sx = m.screen.grid.sx
  backing : m'.backing = m.backing

theorem CopyMode.Goes.refl (h : m.Based) : m.Goes m := ⟨h, rfl, rfl⟩

theorem CopyMode.Goes.trans (h : m.Goes m') (h' : m'.Goes m'') : m.Goes m'' :=
  ⟨h'.based, h'.gridSx.trans h.gridSx, h'.backing.trans h.backing⟩

theorem CopyMode.Goes.line (h : m.Goes m') (py : ℕ) : m'.line py = m.line py := by
  rw [CopyMode.line, CopyMode.line, h.backing]

theorem CopyMode.Goes.lineLength (h : m.Goes m') (py : ℕ) : m'.lineLength py = m.lineLength py := by
  rw [CopyMode.lineLength, CopyMode.lineLength, h.line, h.gridSx]

theorem CopyMode.Moved.goes (h : m.Moved m') : m.Goes m' := ⟨h.based, h.gridSx, h.backing⟩

theorem CopyMode.SameLine.trans (h : m.SameLine m') (h' : m'.SameLine m'') : m.SameLine m'' := by
  obtain ⟨s, cx, lastcx, lastsx, hs, rfl⟩ := h
  obtain ⟨s', cx', lastcx', lastsx', hs', rfl⟩ := h'
  exact ⟨s', cx', lastcx', lastsx', hs.trans hs', rfl⟩

theorem CopyMode.Drawn.sameLine {cx lastcx lastsx : ℕ} (h : ({ m with cx, lastcx, lastsx } : CopyMode).Drawn m') :
    m.SameLine m' := by
  obtain ⟨s, hs, rfl⟩ := h
  exact ⟨s, cx, lastcx, lastsx, hs, rfl⟩

theorem CopyMode.SameLine.goes (h : m.SameLine m') (hm : m.Based) : m.Goes m' := by
  obtain ⟨s, cx, lastcx, lastsx, hs, rfl⟩ := h
  have hsx := hs.grid.sx
  have hsy := hs.grid.sy
  exact ⟨⟨⟨hs.rows, hm.backing, hsx ▸ hm.width, hm.sx.trans hsx.symm, hm.sy.trans hsy.symm, hm.lines, hm.hlimit⟩,
    hsy ▸ hm.cy, hm.oy⟩, hsx, rfl⟩

theorem CopyMode.SameLine.row (h : m.SameLine m') : m'.row = m.row := by
  obtain ⟨s, cx, lastcx, lastsx, -, rfl⟩ := h
  rfl

theorem CopyMode.Based.above (h : m.Based) : m.Goes m.above := by
  have hcy := h.cy
  rw [CopyMode.above]
  split_ifs
  · exact (h.scroll (Nat.min_le_right _ _)).goes
  · exact (h.place m.cx (by omega)).goes

theorem CopyMode.Based.below (h : m.Based) : m.Goes m.below := by
  have hcy := h.cy
  have hoy := h.oy
  rw [CopyMode.below]
  split_ifs
  · exact (h.scroll (by omega)).goes
  · exact (h.place m.cx (by omega)).goes

theorem CopyMode.above_row (m : CopyMode) : m.above.row = m.row - 1 := by
  rw [CopyMode.above]
  split_ifs with hcy
  · rw [CopyMode.row, CopyMode.row]
    dsimp only
    omega
  · rw [CopyMode.row, CopyMode.row]
    dsimp only
    omega

theorem CopyMode.Based.below_row (h : m.Based) (hlast : m.row + 1 < m.backing.grid.hsize + m.backing.grid.sy) :
    m.below.row = m.row + 1 := by
  have hoy := h.oy
  have hsy := h.sy
  rw [CopyMode.row] at hlast
  rw [CopyMode.below]
  split_ifs with hcy
  · rw [CopyMode.row, CopyMode.row]
    dsimp only
    omega
  · rw [CopyMode.row, CopyMode.row]
    dsimp only
    omega

theorem CopyMode.Based.backingRow (h : m.Based) : backingRow m = pure m.row := h.backingRow_eq.1

theorem CopyMode.Based.row_lt (h : m.Based) : m.row < m.backing.grid.hsize + m.backing.grid.sy := h.backingRow_eq.2

section

variable [w.Lenient]

theorem stepUp_drawn (h : m.Based) : Meets w m.above.Drawn (stepUp m false) := by
  rw [stepUp, CopyMode.above]
  by_cases hcy : m.cy = 0
  · rw [if_pos hcy, if_pos (Or.inr hcy)]
    simp only [Bool.false_eq_true, if_false, bind_pure]
    rcases Nat.eq_zero_or_pos m.backing.grid.hsize with hzero | hpos
    · have hoy := h.oy
      rw [windowCopyScrollDown, if_pos (by omega), show min (m.oy + 1) m.backing.grid.hsize = m.oy by omega]
      exact .pure (.refl h.screen)
    · exact windowCopyScrollDown_drawn h hpos
  · rw [if_neg hcy, if_neg (by simp [hcy])]
    refine (windowCopyUpdateCursor_drawn h.screen h.width m.cx (m.cy - 1)).bind fun m₁ h₁ => ?_
    exact (updateSelectionRows_drawn h₁.rows (h₁.width h.width) _ _).mono fun _ h₂ => h₁.trans h₂

theorem stepDown_drawn (h : m.Based) : Meets w m.below.Drawn (stepDown m false) := by
  have hcy := h.cy
  rw [stepDown, usub_of_le (by omega : 1 ≤ m.screen.grid.sy), Exec.forget_pure, pure_bind, CopyMode.below]
  by_cases hlast : m.cy + 1 = m.screen.grid.sy
  · rw [if_pos hlast, if_pos (Or.inr (by omega))]
    simp only [Bool.false_eq_true, false_and, if_false, bind_pure]
    refine (windowCopyScrollUp_drawn h 1).mono fun m' h' => ?_
    rwa [limit_eq_min, show m.oy - min 1 m.oy = m.oy - 1 by omega] at h'
  · have hlines := h.lines
    have hsy := h.sy
    rw [if_neg hlast, if_neg (by simp; omega), uadd_of_lt (by omega)]
    refine (windowCopyUpdateCursor_drawn h.screen h.width m.cx (m.cy + 1)).bind fun m₁ h₁ => ?_
    exact (updateSelectionRows_drawn h₁.rows (h₁.width h.width) _ _).mono fun _ h₂ => h₁.trans h₂

theorem moveInRow_sameLine (h : m.Based) (px : ℕ) :
    Meets w (fun m' => m.SameLine m' ∧ m'.cx = px) (moveInRow m px) := by
  refine (windowCopyUpdateCursor_drawn h.screen h.width px m.cy).bind fun m₁ h₁ => ?_
  refine (updateSelectionRows_drawn h₁.rows (h₁.width h.width) _ _).mono fun m₂ h₂ => ?_
  obtain ⟨s, hs, rfl⟩ := h₁.trans h₂
  exact ⟨⟨s, px, m.lastcx, m.lastsx, hs, rfl⟩, rfl⟩

variable (hwhole : m.backing.grid.Whole)

include hwhole

/-- What is remembered depends on the line, and the cursor is put in a column remembered. -/
theorem recallColumn_eq (h : m.Based) :
    ∃ cx lastcx lastsx, recallColumn m = pure { m with cx, lastcx, lastsx } := by
  rw [recallColumn, h.backingRow, pure_bind, windowCopyFindLength_eq hwhole h.row_lt h, pure_bind]
  by_cases hcx : m.cx ≠ m.lineLength m.row
  · simp only [if_pos hcx]
    exact ⟨_, _, _, rfl⟩
  · simp only [if_neg hcx]
    exact ⟨_, _, _, rfl⟩

theorem keepToLine_sameLine (h : m.Based) : Meets w m.SameLine (keepToLine endElsewhere m) := by
  have hrefl : m.SameLine m := ⟨m.screen, m.cx, m.lastcx, m.lastsx, .refl h.screen, rfl⟩
  rw [keepToLine]
  split_ifs
  · rw [h.backingRow, pure_bind, windowCopyFindLength_eq hwhole h.row_lt h, pure_bind]
    split_ifs with hpast
    · have hne : m.cx ≠ m.lineLength m.row := by omega
      rw [endElsewhere, endOfLineBody, h.backingRow, pure_bind, windowCopyFindLength_eq hwhole h.row_lt h, pure_bind,
        if_neg hne]
      exact (moveInRow_sameLine h _).mono fun _ h' => h'.1
    · exact .pure hrefl
  · exact .pure hrefl

/-- The motion up goes one line up. -/
theorem windowCopyCursorUp_above (h : m.Based) : Meets w m.above.SameLine (windowCopyCursorUp m false) := by
  obtain ⟨cx, lastcx, lastsx, hrecall⟩ := recallColumn_eq hwhole h
  have h₁ : ({ m with cx, lastcx, lastsx } : CopyMode).Based := ⟨h.toSized.congr rfl rfl rfl, h.cy, h.oy⟩
  rw [windowCopyCursorUp, cursorUpBody, hrecall, pure_bind]
  refine (stepUp_drawn h₁).bind fun m₂ h₂ => ?_
  have h₂ : m.above.SameLine m₂ := by
    refine @CopyMode.Drawn.sameLine m.above _ cx lastcx lastsx ?_
    rw [CopyMode.above] at h₂ ⊢
    split_ifs at h₂ ⊢
    exacts [h₂, h₂]
  have hgoes := h.above.trans (h₂.goes h.above.based)
  exact (keepToLine_sameLine (hgoes.backing.symm ▸ hwhole) hgoes.based).mono fun _ h₃ => h₂.trans h₃

/-- The motion down goes one line down. -/
theorem windowCopyCursorDown_below (h : m.Based) : Meets w m.below.SameLine (windowCopyCursorDown m false) := by
  obtain ⟨cx, lastcx, lastsx, hrecall⟩ := recallColumn_eq hwhole h
  have h₁ : ({ m with cx, lastcx, lastsx } : CopyMode).Based := ⟨h.toSized.congr rfl rfl rfl, h.cy, h.oy⟩
  rw [windowCopyCursorDown, cursorDownBody, hrecall, pure_bind]
  refine (stepDown_drawn h₁).bind fun m₂ h₂ => ?_
  have h₂ : m.below.SameLine m₂ := by
    refine @CopyMode.Drawn.sameLine m.below _ cx lastcx lastsx ?_
    rw [CopyMode.below] at h₂ ⊢
    split_ifs at h₂ ⊢
    exacts [h₂, h₂]
  have hgoes := h.below.trans (h₂.goes h.below.based)
  exact (keepToLine_sameLine (hgoes.backing.symm ▸ hwhole) hgoes.based).mono fun _ h₃ => h₂.trans h₃

end

end Tmux
