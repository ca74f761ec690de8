import Tmux.Screen.Erased
import Tmux.Screen.InsertLines
import Tmux.Tty.Columns

/-!
# What a pane looks like

A picture says what is in each column of each row of a pane (`Picture`). It is what writing to a pane is about: erasing,
inserting, deleting and scrolling change it (`PaneWrite.picture`), and it is both what the screen of the pane
holds (`Screen.Depicts`) and what the terminal displays.

Here the screen is shown to follow: what is written to it makes of a screen that depicts a picture one that depicts the
picture changed, if no character is cut in two.
-/

namespace Tmux

open Exec (uadd usub forget)

/-- What a pane looks like: what is in a column of a row. -/
abbrev Picture := ℕ → ℕ → Glyph

namespace Picture

variable (p : Picture) (g : Glyph)

/-- Columns are made blank. -/
def erase (A : ℕ → ℕ → Prop) [∀ x y, Decidable (A x y)] : Picture := fun y x => if A x y then g else p y x

/-- Blank rows are inserted, and the last ones of the region are lost. -/
def insertRows (top bottom n : ℕ) : Picture := fun y x =>
  if top ≤ y ∧ y ≤ bottom then if y < top + n then g else p (y - n) x else p y x

/-- Rows are deleted, and blank ones come last in the region. -/
def deleteRows (top bottom n : ℕ) : Picture := fun y x =>
  if top ≤ y ∧ y ≤ bottom then if y + n ≤ bottom then p (y + n) x else g else p y x

/-- Blank columns are inserted in a row, and the last ones are lost. -/
def insertColumns (row col n : ℕ) : Picture := fun y x =>
  if y = row ∧ col ≤ x then if x < col + n then g else p y (x - n) else p y x

/-- Columns are deleted in a row, and blank ones come last. -/
def deleteColumns (sx row col n : ℕ) : Picture := fun y x =>
  if y = row ∧ col ≤ x then if x + n < sx then p y (x + n) else g else p y x

end Picture

/-- What a display shows in the place of a pane. -/
def Display.picture (d : Display) (ox oy : ℕ) : Picture := fun y x => d.cells (oy + y) (ox + x)

/-- A screen shows a picture, and its characters are whole. -/
structure Screen.Depicts (k : TtyDevice) (s : Screen) (p : Picture) : Prop where
  fits : s.EveryRow (·.Fits s.grid.sx)
  looks : ∀ y < s.grid.sy, ∀ gl, s.grid.row y = some gl → ∀ x < s.grid.sx, gl.glyph k x = some (p y x)

variable {k : TtyDevice} {s s' : Screen} {p p' : Picture} {gl gl' : GridLine} {g' : Grid} {sx nx ny x y : ℕ}

namespace GridLine

/-- A line that shows the same looks the same. -/
theorem Fits.same (h : gl.Fits sx) (hsame : ∀ x < sx, gl'.shown x = gl.shown x) :
    gl'.Fits sx ∧ ∀ x < sx, gl'.glyph k x = gl.glyph k x :=
  GridLine.comesAs fun _ hx => h.comesAs_before le_rfl hsame (gl.startsAt_end sx) hx

/-- A line of default cells is blank. -/
theorem fits_of_isBlank (h : gl.isBlank = true) :
    gl.Fits sx ∧ ∀ x < sx, gl.glyph k x = some (blankGlyph k) := by
  have hshown : ∀ x, gl.shown x = defaultShown := fun x => shown_of_cell (by
    rw [cell]
    cases hcell : gl.celldata[x]? with
    | none => rfl
    | some gc => exact of_decide_eq_true (List.all_eq_true.1 h gc (List.mem_of_getElem? hcell)))
  have hblank : ∀ x, ({} : GridLine).shown x = defaultShown := fun x => shown_of_cell (cell_of_length_le (Nat.zero_le x))
  exact ⟨((fits_blank sx).same (k := k) fun x _ => (hshown x).trans (hblank x).symm).1,
    fun x _ => glyph_of_default (hshown x)⟩

end GridLine

namespace Screen

/-- Rows that fit and look like those of a picture. -/
theorem depicts_of_rows (h : ∀ y < s.grid.sy, ∀ gl, s.grid.row y = some gl →
    gl.Fits s.grid.sx ∧ ∀ x < s.grid.sx, gl.glyph k x = some (p y x)) : s.Depicts k p :=
  ⟨fun y hy gl hgl => (h y hy gl hgl).1, fun y hy gl hgl => (h y hy gl hgl).2⟩

/-- A screen whose rows fit depicts what they look like. -/
theorem EveryRow.depicts (h : s.EveryRow (·.Fits s.grid.sx)) :
    s.Depicts k fun y x => (((s.grid.row y).getD {}).glyph k x).getD .rest := by
  refine ⟨h, fun y hy gl hgl x hx => ?_⟩
  obtain ⟨g, hg⟩ := Option.isSome_iff_exists.1 ((h y hy gl hgl).glyph_isSome (k := k) hx)
  rw [hgl, Option.getD_some, hg, Option.getD_some]

namespace Depicts

/-- Only the rows count, and the columns on them. -/
theorem congr (h : s.Depicts k p) (hsx : s'.grid.sx = s.grid.sx) (hsy : s'.grid.sy = s.grid.sy)
    (hrow : ∀ y < s.grid.sy, s'.grid.row y = s.grid.row y)
    (hp : ∀ y < s.grid.sy, ∀ x < s.grid.sx, p' y x = p y x) : s'.Depicts k p' := by
  refine depicts_of_rows fun y hy gl hgl => ?_
  rw [hsy] at hy
  rw [hrow y hy] at hgl
  rw [hsx]
  refine ⟨h.fits y hy gl hgl, fun x hx => ?_⟩
  rw [hp y hy x hx]
  exact h.looks y hy gl hgl x hx

/-- Rows that are moved, and blank ones. -/
theorem of_rows (h : s.Depicts k p) (hsx : s'.grid.sx = s.grid.sx) (hsy : s'.grid.sy = s.grid.sy)
    (hrows : ∀ y < s.grid.sy, BlankRow (s'.grid.row y) ∧ (∀ x < s.grid.sx, p' y x = blankGlyph k) ∨
      ∃ y' < s.grid.sy, s'.grid.row y = s.grid.row y' ∧ ∀ x < s.grid.sx, p' y x = p y' x) : s'.Depicts k p' := by
  refine depicts_of_rows fun y hy gl hgl => ?_
  rw [hsx]
  rcases hrows y (hsy ▸ hy) with ⟨hblank, hp⟩ | ⟨y', hy', hrow, hp⟩
  · rw [BlankRow, hgl, Option.any_some] at hblank
    refine ⟨(GridLine.fits_of_isBlank (k := k) hblank).1, fun x hx => ?_⟩
    rw [hp x hx]
    exact (GridLine.fits_of_isBlank hblank).2 x hx
  · rw [hrow] at hgl
    refine ⟨h.fits y' hy' gl hgl, fun x hx => ?_⟩
    rw [hp x hx]
    exact h.looks y' hy' gl hgl x hx

/-- Another line in a row. -/
theorem withLine (h : s.Depicts k p) (hwhole : s.grid.Whole) (hr : y < s.grid.sy)
    (hline : gl.Fits s.grid.sx ∧ ∀ x < s.grid.sx, gl.glyph k x = some (p' y x))
    (hp : ∀ y' < s.grid.sy, y' ≠ y → ∀ x < s.grid.sx, p' y' x = p y' x) :
    Depicts k { s with grid := s.grid.withLine (s.grid.hsize + y) gl } p' := by
  refine depicts_of_rows fun y' hy' gl' hgl' => ?_
  rw [Grid.withLine_row hwhole hr] at hgl'
  split_ifs at hgl' with heq
  · rw [← Option.some.inj hgl', heq]
    exact hline
  · refine ⟨h.fits y' hy' gl' hgl', fun x hx => ?_⟩
    rw [hp y' hy' heq x hx]
    exact h.looks y' hy' gl' hgl' x hx

/-- Whether a line is wrapped cannot be seen. -/
theorem wrapped (h : s.Depicts k p) (hwhole : s.grid.Whole) (hr : y < s.grid.sy) (hgl : s.grid.row y = some gl)
    (wrapped : Bool) : Depicts k { s with grid := s.grid.withLine (s.grid.hsize + y) { gl with wrapped } } p := by
  have hsame : GridLine.Fits { gl with wrapped } s.grid.sx ∧
      ∀ x < s.grid.sx, GridLine.glyph k { gl with wrapped } x = gl.glyph k x := (h.fits y hr gl hgl).same fun x _ => rfl
  refine h.withLine hwhole hr ⟨hsame.1, fun x hx => ?_⟩ fun _ _ _ _ _ => rfl
  rw [hsame.2 x hx]
  exact h.looks y hr gl hgl x hx

/-- Columns that are erased, from the start of a character to the end of one in every row. -/
theorem erased {A : ℕ → ℕ → Prop} [∀ x y, Decidable (A x y)] (h : s.Depicts k p) (hwhole : s.grid.Whole)
    (herased : s.grid.Erased A g')
    (hcut : ∀ y < s.grid.sy, ∀ gl, s.grid.row y = some gl → ∃ lo hi, lo ≤ hi ∧ hi ≤ s.grid.sx ∧
      gl.StartsAt s.grid.sx lo ∧ gl.StartsAt s.grid.sx hi ∧ ∀ x < s.grid.sx, A x y ↔ lo ≤ x ∧ x < hi) :
    Depicts k { s with grid := g' } (p.erase (blankGlyph k) A) := by
  refine depicts_of_rows fun y hy gl' hgl' => ?_
  have hy' : y < s.grid.sy := hy.trans_eq herased.sy
  obtain ⟨gl, hgl⟩ := hwhole.exists_row hy'
  obtain ⟨lo, hi, hle, hhi, hfirst, hlast, hiff⟩ := hcut y hy' gl hgl
  have hshown : ∀ x < s.grid.sx, gl'.shown x = if lo ≤ x ∧ x < hi then defaultShown else gl.shown x := fun x hx => by
    rw [← Grid.shown_of_row hgl', ← Grid.shown_of_row hgl]
    split_ifs with hin
    · exact herased.erased x hx y hy' ((hiff x hx).2 hin)
    · exact herased.kept x hx y hy' fun hA => hin ((hiff x hx).1 hA)
  obtain ⟨hfits, hglyph⟩ := (h.fits y hy' gl hgl).erased (k := k) hle hhi hfirst hlast hshown
  dsimp only
  rw [herased.sx]
  refine ⟨hfits, fun x hx => ?_⟩
  rw [hglyph x hx, Picture.erase]
  by_cases hA : A x y
  · rw [if_pos hA, if_pos ((hiff x hx).1 hA)]
  · rw [if_neg hA, if_neg fun hin => hA ((hiff x hx).2 hin)]
    exact h.looks y hy' gl hgl x hx

end Depicts

end Screen

end Tmux
