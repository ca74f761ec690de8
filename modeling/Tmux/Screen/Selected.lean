import Mathlib.Data.Prod.Lex
import Tmux.Screen.Screen

/-!
# The selection of a screen

A screen has a selection (`ScreenSel`) from where it was started to where it ends, which is a
rectangle or all cells from one end to the other, in the order of reading
(`screenCheckSelection_iff`).

The ends may be exchanged, but for one cell: the later end of a selection of several lines is part
of it if it ends there, but not if it was started there (`screenCheckSelection_swap_iff`).
-/

namespace Tmux

structure ScreenSel where
  flag : Bool := false
  rectflag : Bool := false
  sx : ℕ := 0
  sy : ℕ := 0
  ex : ℕ := 0
  ey : ℕ := 0
  cell : GridCell := gridDefaultCell
  deriving DecidableEq, Repr

/-- Set selection. -/
def screenSetSelection (sx sy ex ey : ℕ) (rectflag : Bool) (gc : GridCell) : ScreenSel where
  flag := true
  rectflag
  sx
  sy
  ex
  ey
  cell := gc

/-- Clear selection. -/
def screenClearSelection (sel : ScreenSel) : ScreenSel := { sel with flag := false }

namespace ScreenSel

variable (sel : ScreenSel) (px py : ℕ)

/-- Whether a line is one of a rectangle. -/
def hasRow : Bool :=
  if sel.sy < sel.ey then !(py < sel.sy || py > sel.ey)
  else if sel.sy > sel.ey then !(py > sel.sy || py < sel.ey)
  else !(py ≠ sel.sy)

/-- Whether a column is one of a rectangle, or of a selection on one line. -/
def hasColumn : Bool :=
  if sel.ex < sel.sx then
    -- Cursor (ex) is on the left.
    !(px < sel.ex || px > sel.sx)
  else
    -- Selection start (sx) is on the left.
    !(px < sel.sx || px > sel.ex)

/-- The selection with its ends exchanged. -/
def swap : ScreenSel := { sel with sx := sel.ex, sy := sel.ey, ex := sel.sx, ey := sel.sy }

/-- The place where the selection was started, in the order of reading. -/
def start : Lex (ℕ × ℕ) := toLex (sel.sy, sel.sx)

/-- The place where the selection ends. -/
def stop : Lex (ℕ × ℕ) := toLex (sel.ey, sel.ex)

/-- The later one of the ends of a selection of several lines. -/
def IsLaterEnd : Prop := sel.sy ≠ sel.ey ∧ toLex (py, px) = max sel.start sel.stop

instance : Decidable (sel.IsLaterEnd px py) := inferInstanceAs (Decidable (_ ∧ _))

end ScreenSel

/-- Check if cell in selection. -/
def screenCheckSelection (sel : ScreenSel) (px py : ℕ) : Bool :=
  if !sel.flag then false
  else if sel.rectflag then sel.hasRow py && sel.hasColumn px
  -- Like emacs, keep the top-left-most character, and drop the bottom-right-most, regardless of
  -- copy direction.
  else if sel.sy < sel.ey then
    !(py < sel.sy || py > sel.ey) && !((py = sel.sy && px < sel.sx) || (py = sel.ey && px > sel.ex))
  else if sel.sy > sel.ey then
    !(py > sel.sy || py < sel.ey) && !((py = sel.sy && px ≥ sel.sx) || (py = sel.ey && px < sel.ex))
  else !(py ≠ sel.sy) && sel.hasColumn px

variable {sel : ScreenSel} {px py : ℕ}

theorem ScreenSel.hasRow_iff : sel.hasRow py = true ↔ min sel.sy sel.ey ≤ py ∧ py ≤ max sel.sy sel.ey := by
  unfold ScreenSel.hasRow
  split_ifs <;> simp <;> omega

theorem ScreenSel.hasColumn_iff : sel.hasColumn px = true ↔ min sel.sx sel.ex ≤ px ∧ px ≤ max sel.sx sel.ex := by
  unfold ScreenSel.hasColumn
  split_ifs <;> simp <;> omega

/-- The cells of a selection: those of the rectangle, or those from the end that is read first to the
    other one, which is one of them unless the selection of several lines was started there. -/
theorem screenCheckSelection_iff : screenCheckSelection sel px py = true ↔ sel.flag = true ∧
    if sel.rectflag then
      (min sel.sy sel.ey ≤ py ∧ py ≤ max sel.sy sel.ey) ∧ min sel.sx sel.ex ≤ px ∧ px ≤ max sel.sx sel.ex
    else
      (min sel.start sel.stop ≤ toLex (py, px) ∧ toLex (py, px) ≤ max sel.start sel.stop) ∧
        ¬ (sel.ey < sel.sy ∧ toLex (py, px) = sel.start) := by
  cases hflag : sel.flag with
  | false => simp [screenCheckSelection, hflag]
  | true =>
    cases hrect : sel.rectflag with
    | true => simp [screenCheckSelection, hflag, hrect, ScreenSel.hasRow_iff, ScreenSel.hasColumn_iff]
    | false =>
      rcases lt_trichotomy sel.sy sel.ey with hy | hy | hy
      · have hle : sel.start ≤ sel.stop := Prod.Lex.toLex_le_toLex.2 (.inl hy)
        rw [min_eq_left hle, max_eq_right hle]
        simp [screenCheckSelection, hflag, hrect, hy, ScreenSel.start, ScreenSel.stop, Prod.Lex.toLex_le_toLex]
        omega
      · -- On one line the order of the ends is that of their columns.
        have hcolumn : sel.hasColumn px = true ↔ _ := ScreenSel.hasColumn_iff
        rcases le_total sel.sx sel.ex with hx | hx
        · have hle : sel.start ≤ sel.stop := Prod.Lex.toLex_le_toLex.2 (.inr ⟨hy, hx⟩)
          rw [min_eq_left hx, max_eq_right hx] at hcolumn
          rw [min_eq_left hle, max_eq_right hle]
          simp [screenCheckSelection, hflag, hrect, hy, hcolumn, ScreenSel.start, ScreenSel.stop,
            Prod.Lex.toLex_le_toLex]
          omega
        · have hle : sel.stop ≤ sel.start := Prod.Lex.toLex_le_toLex.2 (.inr ⟨hy.symm, hx⟩)
          rw [min_eq_right hx, max_eq_left hx] at hcolumn
          rw [min_eq_right hle, max_eq_left hle]
          simp [screenCheckSelection, hflag, hrect, hy, hcolumn, ScreenSel.start, ScreenSel.stop,
            Prod.Lex.toLex_le_toLex]
          omega
      · have hle : sel.stop ≤ sel.start := Prod.Lex.toLex_le_toLex.2 (.inl hy)
        rw [min_eq_right hle, max_eq_left hle]
        simp [screenCheckSelection, hflag, hrect, hy, hy.not_gt, ScreenSel.start, ScreenSel.stop,
          Prod.Lex.toLex_le_toLex]
        omega

theorem ScreenSel.swap_start : sel.swap.start = sel.stop := rfl

theorem ScreenSel.swap_stop : sel.swap.stop = sel.start := rfl

/-- Exchanging the ends of a selection keeps a cell in it or out of it, unless it is the later end of a
    selection of several lines. -/
theorem screenCheckSelection_swap_iff (sel : ScreenSel) (px py : ℕ) :
    screenCheckSelection sel.swap px py = screenCheckSelection sel px py ↔
      ¬ (sel.flag = true ∧ sel.rectflag = false ∧ sel.IsLaterEnd px py) := by
  rw [Bool.eq_iff_iff, screenCheckSelection_iff, screenCheckSelection_iff, ScreenSel.swap_start, ScreenSel.swap_stop,
    min_comm sel.stop, max_comm sel.stop]
  cases hflag : sel.flag with
  | false => simp [ScreenSel.swap, hflag]
  | true =>
    cases hrect : sel.rectflag with
    | true => simp [ScreenSel.swap, hflag, hrect, min_comm, max_comm]
    | false =>
      simp only [ScreenSel.swap, hflag, hrect, ScreenSel.IsLaterEnd, Bool.false_eq_true, if_false, true_and]
      rcases lt_trichotomy sel.sy sel.ey with hy | hy | hy
      · have hle : sel.start ≤ sel.stop := Prod.Lex.toLex_le_toLex.2 (.inl hy)
        rw [min_eq_left hle, max_eq_right hle]
        constructor
        · -- The later end is in the selection that ends there only.
          rintro hiff ⟨-, hp⟩
          refine (hiff.2 ⟨⟨?_, hp.le⟩, fun h => hy.not_gt h.1⟩).2 ⟨hy, hp⟩
          rwa [hp]
        · rintro hp
          have hnot : toLex (py, px) ≠ sel.stop := fun h => hp ⟨hy.ne, h⟩
          simp [hnot, hy.not_gt]
      · simp [hy]
      · have hle : sel.stop ≤ sel.start := Prod.Lex.toLex_le_toLex.2 (.inl hy)
        rw [min_eq_right hle, max_eq_left hle]
        constructor
        · rintro hiff ⟨-, hp⟩
          refine (hiff.1 ⟨⟨?_, hp.le⟩, fun h => hy.not_gt h.1⟩).2 ⟨hy, hp⟩
          rwa [hp]
        · rintro hp
          have hnot : toLex (py, px) ≠ sel.start := fun h => hp ⟨hy.ne', h⟩
          simp [hnot, hy.not_gt]

/-- The later end is selected if the selection of two lines ends there, and not if it was started there. -/
theorem screenCheckSelection_later :
    screenCheckSelection (screenSetSelection 3 0 5 1 false gridDefaultCell) 5 1 = true ∧
      screenCheckSelection (screenSetSelection 5 1 3 0 false gridDefaultCell) 5 1 = false := by
  decide

end Tmux
