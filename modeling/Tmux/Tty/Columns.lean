import Tmux.Screen.Wide
import Tmux.Tty.Redraw

/-!
# The columns of a line

What a line of a screen looks like in a column is what its character there looks like, which starts in that column or,
if it is a wide one, on the left of it (`GridLine.glyph`). A line whose characters take the columns they say
(`GridLine.Fits`) is drawn so that every column looks like this (`GridLine.Fits.rowGlyphs`).

Lines are edited by moving columns of other lines. If no character is cut in two, the columns look like before
(`GridLine.Piece.glyph`), and the line still fits (`GridLine.Fits.of_pieces`).
-/

namespace Tmux

variable {k : TtyDevice} {s : Screen} {sel : ScreenSel} {gl gl' : GridLine} {sx py a b n x y : ℕ}

/-- A cell of no style is shown as it is. -/
theorem fixCell_default {t : TtyKind} {gc : GridCell} (hattr : gc.attr = 0) (hfg : gc.fg = 8) (hbg : gc.bg = 8)
    (h256 : ∀ g : Ground, g.is256 gc ≠ true) : fixCell t gc = gc := by
  have hbright : isBright 8 ≠ true := by decide
  have hreverse : reverseForBackground t gc = gc := by
    rw [reverseForBackground, hattr, hbg]
    split_ifs <;> first | rfl | contradiction
  have hcheck : ttyCheckFg t gc = gc := by
    rw [ttyCheckFg, if_neg (h256 .fg), hfg, if_neg fun h => hbright h.1]
  rw [fixCell, hreverse, hcheck, ttyCheckBg, if_neg (h256 .bg), hbg, if_neg fun h => hbright h.1]

namespace GridLine

/-- The column in which the character of a column starts. -/
def start (gl : GridLine) : ℕ → ℕ
  | 0 => 0
  | x + 1 => if (gl.cell (x + 1)).isPadding then gl.start x else x + 1

/-- What a column of a line looks like. -/
def glyph (k : TtyDevice) (gl : GridLine) (x : ℕ) : Option Glyph :=
  (cellGlyphs k (gl.shown (gl.start x)).1 (gl.shown (gl.start x)).2)[x - gl.start x]?

/-- Every character of a line takes the columns that it says, on the line, and can be written. -/
structure Fits (gl : GridLine) (sx : ℕ) : Prop where
  covered : gl.WellFormed sx
  complete : gl.Complete sx
  positive : ∀ x < sx, (gl.cell x).isPadding = false → 1 ≤ shownWidth (gl.shown x)
  room : ∀ x < sx, (gl.cell x).isPadding = false → x + shownWidth (gl.shown x) ≤ sx
  printable : ∀ x < sx, (gl.cell x).isPadding = false → (gl.cell x).isUtf8 = false → isControl (gl.cell x).data = false
  data : gl.BackedTo sx

theorem start_le (gl : GridLine) (x : ℕ) : gl.start x ≤ x := by
  induction x with
  | zero => exact Nat.le_refl 0
  | succ x ih =>
    rw [start]
    split_ifs
    · exact Nat.le_succ_of_le ih
    · exact Nat.le_refl _

/-- All columns behind the start of a character are padding. -/
theorem padding_of_start (h : gl.start x < y) (hle : y ≤ x) : (gl.cell y).isPadding = true := by
  induction x with
  | zero => exact absurd h (Nat.not_lt.2 (hle.trans (Nat.zero_le _)))
  | succ x ih =>
    rw [start] at h
    split_ifs at h with hpad
    · rcases Nat.lt_or_eq_of_le hle with hlt | rfl
      · exact ih h (Nat.lt_succ_iff.1 hlt)
      · exact hpad
    · exact absurd h (Nat.not_lt.2 hle)

theorem start_of_not_padding (h : (gl.cell x).isPadding = false) : gl.start x = x := by
  cases x with
  | zero => rfl
  | succ x => rw [start, h, if_neg Bool.false_ne_true]

/-- The start of a character is not padding, but for the first column. -/
theorem start_eq_zero_or (gl : GridLine) (x : ℕ) : gl.start x = 0 ∨ (gl.cell (gl.start x)).isPadding = false := by
  induction x with
  | zero => exact .inl rfl
  | succ x ih =>
    rw [start]
    split_ifs with hpad
    · exact ih
    · exact .inr (Bool.eq_false_iff.2 hpad)

/-- The start of a character is the only column that is not padding and has only padding behind it. -/
theorem start_eq (hy : (gl.cell y).isPadding = false) (hle : y ≤ x)
    (hpad : ∀ z, y < z → z ≤ x → (gl.cell z).isPadding = true) : gl.start x = y := by
  rcases Nat.lt_trichotomy (gl.start x) y with hlt | heq | hgt
  · exact absurd (hy.symm.trans (padding_of_start hlt hle)) Bool.false_ne_true
  · exact heq
  · rcases gl.start_eq_zero_or x with h0 | h0
    · exact absurd hgt (by omega)
    · exact absurd (h0.symm.trans (hpad _ hgt (gl.start_le x))) Bool.false_ne_true

/-- The characters of a line that fits start in columns that are not padding. -/
theorem Fits.start_not_padding (h : gl.Fits sx) (hx : x < sx) : (gl.cell (gl.start x)).isPadding = false := by
  rcases gl.start_eq_zero_or x with h0 | h0
  · cases hpad : (gl.cell (gl.start x)).isPadding with
    | false => rfl
    | true =>
      rw [h0] at hpad
      obtain ⟨y, hy, -⟩ := h.covered 0 (Nat.zero_lt_of_lt hx) hpad
      exact absurd hy (Nat.not_lt_zero y)
  · exact h0

/-- A character takes as many columns as it says. -/
theorem Fits.length_cellGlyphs (h : gl.Fits sx) (hx : x < sx) (hpad : (gl.cell x).isPadding = false) :
    (cellGlyphs k (gl.shown x).1 (gl.shown x).2).length = shownWidth (gl.shown x) := by
  have hcell : (gl.shown x).1 = gl.cell x := rfl
  rw [hcell]
  cases hutf8 : (gl.cell x).isUtf8 with
  | false =>
    have hnone : (gl.shown x).2 = none := by
      rw [shown, hutf8]
      rfl
    rw [shownWidth, hnone]
    simp [cellGlyphs, hpad, hutf8, h.printable x hx hpad hutf8]
  | true =>
    obtain ⟨gu, hgu⟩ := h.data x hx hutf8
    rw [shownWidth, hgu]
    cases hk : k.utf8 with
    | false => simp [cellGlyphs, hpad, hutf8, hk]
    | true => simp [cellGlyphs, hpad, hutf8, hk, length_textGlyphs]

/-- A column is one of those of its character. -/
theorem Fits.lt_width (h : gl.Fits sx) (hx : x < sx) : x < gl.start x + shownWidth (gl.shown (gl.start x)) := by
  cases hpad : (gl.cell x).isPadding with
  | false =>
    have hpositive := h.positive x hx hpad
    rw [start_of_not_padding hpad]
    omega
  | true =>
    obtain ⟨y, hy, hfirst, -, hbetween, hcovers⟩ := h.covered x hx hpad
    have hstart : gl.start x = y := start_eq hfirst hy.le fun z hz hzx => by
      rcases Nat.lt_or_eq_of_le hzx with hlt | rfl
      · exact hbetween z hz hlt
      · exact hpad
    rw [hstart]
    exact hcovers

theorem Fits.glyph_isSome (h : gl.Fits sx) (hx : x < sx) : (gl.glyph k x).isSome = true := by
  have hle := gl.start_le x
  have hwidth := h.lt_width hx
  have hlength := h.length_cellGlyphs (k := k) (show gl.start x < sx by omega) (h.start_not_padding hx)
  rw [glyph, List.getElem?_eq_getElem (by omega)]
  rfl

/-! ## Drawing a line -/

theorem drawnCell_of_not_selected (hsel : sel.flag = false) (px py : ℕ) (gc : GridCell) :
    drawnCell sel px py gc = gc := by
  rw [drawnCell, screenCheckSelection, hsel]
  rfl

/-- Columns of padding are not drawn. -/
theorem lineGlyphs_of_padding {cols : List ℕ} (hsel : sel.flag = false)
    (hpad : ∀ x ∈ cols, (gl.cell x).isPadding = true) : lineGlyphs k sel py gl cols = [] := by
  refine List.flatMap_eq_nil_iff.2 fun x hx => ?_
  rw [drawnCell_of_not_selected hsel]
  simp [cellGlyphs, hpad x hx]

/-- The columns up to one that starts a character are drawn as they look. -/
theorem Fits.lineGlyphs (h : gl.Fits sx) (hsel : sel.flag = false) (hn : n ≤ sx)
    (hwhole : n < sx → (gl.cell n).isPadding = false) :
    (Tmux.lineGlyphs k sel py gl (List.range n)).length = n ∧
      ∀ x < n, (Tmux.lineGlyphs k sel py gl (List.range n))[x]? = gl.glyph k x := by
  induction n using Nat.strong_induction_on with
  | _ n ih =>
    rcases Nat.eq_zero_or_pos n with rfl | hpos
    · exact ⟨rfl, fun x hx => absurd hx (Nat.not_lt_zero x)⟩
    · -- the last character starts in column `b` and takes all the columns from there on
      have hle := gl.start_le (n - 1)
      have hlt := h.lt_width (show n - 1 < sx by omega)
      have hfirst := h.start_not_padding (show n - 1 < sx by omega)
      have hpad : ∀ y, gl.start (n - 1) < y → y ≤ n - 1 → (gl.cell y).isPadding = true := fun y => padding_of_start
      generalize gl.start (n - 1) = b at hle hlt hfirst hpad
      have hroom := h.room b (by omega) hfirst
      have hwidth : b + shownWidth (gl.shown b) = n := by
        by_contra hne
        have hcut := h.complete b n hfirst (by omega) (by omega) (by omega)
        exact Bool.false_ne_true ((hwhole (by omega)).symm.trans hcut)
      have hsplit : List.range n = List.range b ++ b :: (List.range (n - 1 - b)).map (b + 1 + ·) := by
        have hsum : n = b + 1 + (n - 1 - b) := by omega
        rw [hsum, List.range_add, List.range_succ, List.append_assoc, List.singleton_append,
          show b + 1 + (n - 1 - b) - 1 - b = n - 1 - b by omega]
      have hrest : Tmux.lineGlyphs k sel py gl ((List.range (n - 1 - b)).map (b + 1 + ·)) = [] := by
        refine lineGlyphs_of_padding hsel fun x hx => ?_
        obtain ⟨i, hi, rfl⟩ := List.mem_map.1 hx
        rw [List.mem_range] at hi
        exact hpad _ (by omega) (by omega)
      have hline : Tmux.lineGlyphs k sel py gl (List.range n) =
          Tmux.lineGlyphs k sel py gl (List.range b) ++ cellGlyphs k (gl.shown b).1 (gl.shown b).2 := by
        rw [hsplit, Tmux.lineGlyphs, List.flatMap_append, List.flatMap_cons, drawnCell_of_not_selected hsel]
        rw [Tmux.lineGlyphs] at hrest
        rw [hrest, List.append_nil]
        rfl
      obtain ⟨hlength, hcols⟩ := ih b (by omega) (by omega) fun _ => hfirst
      have hchar := h.length_cellGlyphs (k := k) (show b < sx by omega) hfirst
      rw [hline]
      refine ⟨by rw [List.length_append, hlength, hchar]; exact hwidth, fun x hx => ?_⟩
      rcases Nat.lt_or_ge x b with hxb | hxb
      · rw [List.getElem?_append_left (by omega)]
        exact hcols x hxb
      · have hstart : gl.start x = b := start_eq hfirst hxb fun z hz hzx => hpad z hz (by omega)
        rw [List.getElem?_append_right (by omega), hlength, glyph, hstart]

theorem Fits.straight (h : gl.Fits s.grid.sx) (hsel : sel.flag = false) : Straight k s sel py gl := by
  intro n hn hwhole
  have hsize : shownSize s gl = min s.grid.sx gl.celldata.length := rfl
  refine (h.lineGlyphs hsel (by omega) fun hlt => ?_).1
  rcases Nat.lt_or_eq_of_le hn with hshown | rfl
  · exact hwhole hshown
  · rw [cell_of_length_le (by omega)]
    rfl

/-- A blank column. -/
theorem glyph_of_default (h : gl.shown x = defaultShown) : gl.glyph k x = some (blankGlyph k) := by
  have hpad : (gl.cell x).isPadding = false := by
    rw [cell_of_default h]
    rfl
  have hglyphs : cellGlyphs k gridDefaultCell none = [blankGlyph k] := by
    unfold cellGlyphs
    rw [fixCell_default rfl rfl rfl fun g => by cases g <;> decide]
    rfl
  rw [glyph, start_of_not_padding hpad, h, Nat.sub_self, defaultShown, hglyphs]
  rfl

/-- A line that fits is drawn so that all its columns look as they do. -/
theorem Fits.rowGlyphs (h : gl.Fits s.grid.sx) (hsel : sel.flag = false) (hx : x < s.grid.sx) :
    (Tmux.rowGlyphs k s sel py gl)[x]? = gl.glyph k x := by
  have hsize : shownSize s gl = min s.grid.sx gl.celldata.length := rfl
  have hstraight : Straight k s sel py gl := h.straight hsel
  have hlength := hstraight.length
  rw [Tmux.rowGlyphs]
  rcases Nat.lt_or_ge x (shownSize s gl) with hlt | hge
  · rw [List.getElem?_append_left (by omega)]
    refine (h.lineGlyphs hsel (by omega) fun hlt => ?_).2 x hlt
    rw [cell_of_length_le (by omega)]
    rfl
  · rw [List.getElem?_append_right (by omega), hlength, List.getElem?_replicate, if_pos (by omega),
      glyph_of_default (shown_of_cell (cell_of_length_le (by omega)))]

/-! ## Editing a line -/

/-- Some columns of a line that are those of another one, starting and ending with whole characters. -/
structure Piece (sx : ℕ) (gl : GridLine) (b : ℕ) (gl' : GridLine) (a n : ℕ) : Prop where
  old : b + n ≤ sx
  new : a + n ≤ sx
  same : ∀ i < n, gl'.shown (a + i) = gl.shown (b + i)
  first : (gl.cell b).isPadding = false
  last : b + n < sx → (gl.cell (b + n)).isPadding = false

namespace Piece

theorem cell (h : Piece sx gl b gl' a n) {i : ℕ} (hi : i < n) : gl'.cell (a + i) = gl.cell (b + i) :=
  congrArg Prod.fst (h.same i hi)

/-- The characters of the columns start at the same place. -/
theorem start_eq (h : Piece sx gl b gl' a n) {i : ℕ} (hi : i < n) :
    ∃ j ≤ i, gl.start (b + i) = b + j ∧ gl'.start (a + i) = a + j := by
  have hge : b ≤ gl.start (b + i) := by
    by_contra hlt
    exact Bool.false_ne_true (h.first.symm.trans (padding_of_start (Nat.not_le.1 hlt) (Nat.le_add_right b i)))
  have hle := gl.start_le (b + i)
  have hpad : ∀ y, gl.start (b + i) < y → y ≤ b + i → (gl.cell y).isPadding = true := fun y => padding_of_start
  refine ⟨gl.start (b + i) - b, by omega, by omega, GridLine.start_eq ?_ (by omega) fun z hz hzi => ?_⟩
  · rw [h.cell (by omega), Nat.add_sub_cancel' hge]
    rcases gl.start_eq_zero_or (b + i) with h0 | h0
    · have hb : b = 0 := by omega
      rw [h0, ← hb]
      exact h.first
    · exact h0
  · obtain ⟨j, rfl⟩ : ∃ j, z = a + j := ⟨z - a, by omega⟩
    rw [h.cell (by omega)]
    exact hpad _ (by omega) (by omega)

/-- The columns look the same. -/
theorem glyph (h : Piece sx gl b gl' a n) {i : ℕ} (hi : i < n) : gl'.glyph k (a + i) = gl.glyph k (b + i) := by
  obtain ⟨j, hj, hold, hnew⟩ := h.start_eq hi
  rw [GridLine.glyph, GridLine.glyph, hold, hnew, h.same j (by omega), Nat.add_sub_add_left, Nat.add_sub_add_left]

/-- A character of the columns ends in them. -/
theorem width_le (h : Piece sx gl b gl' a n) (hgl : gl.Fits sx) {i : ℕ} (hi : i < n)
    (hfirst : (gl'.cell (a + i)).isPadding = false) : i + shownWidth (gl'.shown (a + i)) ≤ n := by
  have hold := h.old
  rw [h.cell hi] at hfirst
  rw [h.same i hi]
  have hroom := hgl.room (b + i) (by omega) hfirst
  by_contra hgt
  have hcut := hgl.complete (b + i) (b + n) hfirst (by omega) (by omega) (by omega)
  exact Bool.false_ne_true ((h.last (by omega)).symm.trans hcut)

end Piece

/-- A line that consists of pieces of lines that fit does so, too. -/
theorem Fits.of_pieces
    (h : ∀ x < sx, ∃ gl b a n i, gl.Fits sx ∧ Piece sx gl b gl' a n ∧ i < n ∧ x = a + i) : gl'.Fits sx := by
  refine ⟨fun x hx hpad => ?_, fun y x hfirst hyx hcovers hx => ?_, fun x hx hpad => ?_, fun x hx hpad => ?_,
    fun x hx hpad hutf8 => ?_, fun x hx hutf8 => ?_⟩
  · obtain ⟨gl, b, a, n, i, hgl, hpiece, hi, rfl⟩ := h x hx
    have hold := hpiece.old
    rw [hpiece.cell hi] at hpad
    obtain ⟨y, hy, hfirst, hutf8, hbetween, hcovers⟩ := hgl.covered (b + i) (by omega) hpad
    obtain ⟨j, hj, hstart, -⟩ := hpiece.start_eq hi
    have hyj : y = b + j := by
      rw [← hstart]
      refine (GridLine.start_eq hfirst hy.le fun z hz hzi => ?_).symm
      rcases Nat.lt_or_eq_of_le hzi with hlt | rfl
      · exact hbetween z hz hlt
      · exact hpad
    subst hyj
    refine ⟨a + j, by omega, ?_, ?_, fun z hz hzi => ?_, ?_⟩
    · rw [hpiece.cell (by omega)]
      exact hfirst
    · rw [hpiece.cell (by omega)]
      exact hutf8
    · obtain ⟨m, rfl⟩ : ∃ m, z = a + m := ⟨z - a, by omega⟩
      rw [hpiece.cell (by omega)]
      exact hbetween _ (by omega) (by omega)
    · rw [hpiece.same j (by omega)]
      omega
  · obtain ⟨gl, b, a, n, i, hgl, hpiece, hi, rfl⟩ := h y (hyx.trans hx)
    have hold := hpiece.old
    have hwidth := hpiece.width_le hgl hi hfirst
    obtain ⟨m, rfl⟩ : ∃ m, x = a + m := ⟨x - a, by omega⟩
    have hm : m < n := by omega
    rw [hpiece.cell hi] at hfirst
    rw [hpiece.same i hi] at hcovers
    rw [hpiece.cell hm]
    exact hgl.complete (b + i) (b + m) hfirst (by omega) (by omega) (by omega)
  · obtain ⟨gl, b, a, n, i, hgl, hpiece, hi, rfl⟩ := h x hx
    have hold := hpiece.old
    rw [hpiece.cell hi] at hpad
    rw [hpiece.same i hi]
    exact hgl.positive (b + i) (by omega) hpad
  · obtain ⟨gl, b, a, n, i, hgl, hpiece, hi, rfl⟩ := h x hx
    have hnew := hpiece.new
    have hwidth := hpiece.width_le hgl hi hpad
    omega
  · obtain ⟨gl, b, a, n, i, hgl, hpiece, hi, rfl⟩ := h x hx
    have hold := hpiece.old
    rw [hpiece.cell hi] at hpad hutf8 ⊢
    exact hgl.printable (b + i) (by omega) hpad hutf8
  · obtain ⟨gl, b, a, n, i, hgl, hpiece, hi, rfl⟩ := h x hx
    have hold := hpiece.old
    rw [hpiece.cell hi] at hutf8
    rw [hpiece.same i hi]
    exact hgl.data (b + i) (by omega) hutf8

/-- A blank line fits. -/
theorem fits_blank (sx : ℕ) : ({} : GridLine).Fits sx where
  covered := wellFormed_blank sx
  complete := complete_blank sx
  positive x _ _ := by
    rw [shown_of_cell (cell_of_length_le (Nat.zero_le x)), shownWidth_default]
  room x hx _ := by
    rw [shown_of_cell (cell_of_length_le (Nat.zero_le x)), shownWidth_default]
    exact hx
  printable _ _ _ _ := rfl
  data x _ hutf8 := by
    rw [cell_of_length_le (Nat.zero_le x)] at hutf8
    exact absurd hutf8 Bool.false_ne_true

/-- Whether a column starts a character, if it is on the line. -/
def StartsAt (gl : GridLine) (sx x : ℕ) : Prop := x < sx → (gl.cell x).isPadding = false

theorem Fits.startsAt_zero (h : gl.Fits sx) : gl.StartsAt sx 0 := fun hx => h.start_not_padding hx

theorem startsAt_end (gl : GridLine) (sx : ℕ) : gl.StartsAt sx sx := fun h => absurd h (Nat.lt_irrefl sx)

/-- A column of a line that looks like `g`, being one of a piece of a line that fits. -/
def ComesAs (k : TtyDevice) (sx : ℕ) (gl' : GridLine) (x : ℕ) (g : Option Glyph) : Prop :=
  ∃ gl b a n i, gl.Fits sx ∧ Piece sx gl b gl' a n ∧ i < n ∧ x = a + i ∧ gl.glyph k (b + i) = g

/-- A line that consists of pieces of lines that fit does so, too, and looks like the pieces. -/
theorem comesAs {f : ℕ → Option Glyph} (h : ∀ x < sx, ComesAs k sx gl' x (f x)) :
    gl'.Fits sx ∧ ∀ x < sx, gl'.glyph k x = f x := by
  refine ⟨.of_pieces fun x hx => ?_, fun x hx => ?_⟩
  · obtain ⟨gl, b, a, n, i, hgl, hpiece, hi, hxi, -⟩ := h x hx
    exact ⟨gl, b, a, n, i, hgl, hpiece, hi, hxi⟩
  · obtain ⟨gl, b, a, n, i, -, hpiece, hi, rfl, hglyph⟩ := h x hx
    rw [hpiece.glyph hi, hglyph]

/-- Columns that are kept where they are or moved, between two that start characters. -/
theorem Fits.comesAs (h : gl.Fits sx) {i : ℕ} (hold : b + n ≤ sx) (hnew : a + n ≤ sx)
    (hsame : ∀ j < n, gl'.shown (a + j) = gl.shown (b + j)) (hfirst : gl.StartsAt sx b) (hlast : gl.StartsAt sx (b + n))
    (hi : i < n) : ComesAs k sx gl' (a + i) (gl.glyph k (b + i)) :=
  ⟨gl, b, a, n, i, h, ⟨hold, hnew, hsame, hfirst (by omega), hlast⟩, hi, rfl, rfl⟩

/-- The first columns, if they are kept. -/
theorem Fits.comesAs_before (h : gl.Fits sx) (hn : n ≤ sx) (hsame : ∀ j < n, gl'.shown j = gl.shown j)
    (hlast : gl.StartsAt sx n) (hx : x < n) : ComesAs k sx gl' x (gl.glyph k x) := by
  refine ⟨gl, 0, 0, n, x, h, ⟨by omega, by omega, fun j hj => ?_, h.startsAt_zero (by omega), ?_⟩, hx,
    (Nat.zero_add x).symm, by rw [Nat.zero_add]⟩
  · rw [Nat.zero_add]
    exact hsame j hj
  · rw [Nat.zero_add]
    exact hlast

/-- Columns that are blank. -/
theorem comesAs_blank {i : ℕ} (hn : a + n ≤ sx) (h : ∀ i < n, gl'.shown (a + i) = defaultShown) (hi : i < n) :
    ComesAs k sx gl' (a + i) (some (blankGlyph k)) := by
  have hblank : ∀ x, ({} : GridLine).shown x = defaultShown := fun x => shown_of_cell (cell_of_length_le (Nat.zero_le x))
  refine ⟨{}, 0, a, n, i, fits_blank sx, ⟨by omega, hn, fun j hj => ?_, rfl, fun _ => ?_⟩, hi, rfl,
    glyph_of_default (hblank _)⟩
  · rw [h j hj, hblank]
  · rw [cell_of_default (hblank _)]
    rfl

/-- Erasing columns between two that start characters. -/
theorem Fits.erased {lo hi : ℕ} (h : gl.Fits sx) (hlo : lo ≤ hi) (hhi : hi ≤ sx) (hfirst : gl.StartsAt sx lo)
    (hlast : gl.StartsAt sx hi)
    (hsame : ∀ x < sx, gl'.shown x = if lo ≤ x ∧ x < hi then defaultShown else gl.shown x) :
    gl'.Fits sx ∧ ∀ x < sx, gl'.glyph k x = if lo ≤ x ∧ x < hi then some (blankGlyph k) else gl.glyph k x := by
  refine GridLine.comesAs fun x hx => ?_
  by_cases hin : lo ≤ x ∧ x < hi
  · obtain ⟨i, rfl⟩ : ∃ i, x = lo + i := ⟨x - lo, by omega⟩
    rw [if_pos hin]
    refine comesAs_blank (n := hi - lo) (by omega) (fun j hj => ?_) (by omega)
    rw [hsame _ (by omega), if_pos (by omega)]
  · rw [if_neg hin]
    rcases Nat.lt_or_ge x lo with hlt | hge
    · refine h.comesAs_before (n := lo) (by omega) (fun j hj => ?_) hfirst hlt
      rw [hsame j (by omega), if_neg (by omega)]
    · obtain ⟨i, rfl⟩ : ∃ i, x = hi + i := ⟨x - hi, by omega⟩
      refine h.comesAs (n := sx - hi) (by omega) (by omega) (fun j hj => ?_) hlast ?_ (by omega)
      · rw [hsame _ (by omega), if_neg (by omega)]
      · rw [Nat.add_sub_cancel' hhi]
        exact gl.startsAt_end sx

/-- Inserting blank columns before one that starts a character, as does the first one that is lost. -/
theorem Fits.inserted {px nx : ℕ} (h : gl.Fits sx) (hroom : px + nx ≤ sx) (hfirst : gl.StartsAt sx px)
    (hlast : gl.StartsAt sx (sx - nx))
    (hsame : ∀ x < sx, gl'.shown x = if x < px then gl.shown x else if x < px + nx then defaultShown else gl.shown (x - nx)) :
    gl'.Fits sx ∧ ∀ x < sx, gl'.glyph k x =
      if x < px then gl.glyph k x else if x < px + nx then some (blankGlyph k) else gl.glyph k (x - nx) := by
  refine GridLine.comesAs fun x hx => ?_
  split_ifs with hbefore hin
  · refine h.comesAs_before (n := px) (by omega) (fun j hj => ?_) hfirst hbefore
    rw [hsame j (by omega), if_pos hj]
  · obtain ⟨i, rfl⟩ : ∃ i, x = px + i := ⟨x - px, by omega⟩
    refine comesAs_blank (n := nx) hroom (fun j hj => ?_) (by omega)
    rw [hsame _ (by omega), if_neg (by omega), if_pos (by omega)]
  · obtain ⟨i, rfl⟩ : ∃ i, x = px + nx + i := ⟨x - (px + nx), by omega⟩
    have hmoved : px + nx + i - nx = px + i := by omega
    rw [hmoved]
    refine h.comesAs (n := sx - nx - px) (by omega) (by omega) (fun j hj => ?_) hfirst ?_ (by omega)
    · rw [hsame _ (by omega), if_neg (by omega), if_neg (by omega)]
      congr 1
      omega
    · rwa [show px + (sx - nx - px) = sx - nx by omega]

/-- Deleting columns between two that start characters. -/
theorem Fits.deleted {px nx : ℕ} (h : gl.Fits sx) (hroom : px + nx ≤ sx) (hfirst : gl.StartsAt sx px)
    (hlast : gl.StartsAt sx (px + nx))
    (hsame : ∀ x < sx, gl'.shown x = if x < px then gl.shown x else if x + nx < sx then gl.shown (x + nx) else defaultShown) :
    gl'.Fits sx ∧ ∀ x < sx, gl'.glyph k x =
      if x < px then gl.glyph k x else if x + nx < sx then gl.glyph k (x + nx) else some (blankGlyph k) := by
  refine GridLine.comesAs fun x hx => ?_
  split_ifs with hbefore hin
  · refine h.comesAs_before (n := px) (by omega) (fun j hj => ?_) hfirst hbefore
    rw [hsame j (by omega), if_pos hj]
  · obtain ⟨i, rfl⟩ : ∃ i, x = px + i := ⟨x - px, by omega⟩
    have hmoved : px + i + nx = px + nx + i := by omega
    rw [hmoved]
    refine h.comesAs (n := sx - nx - px) (by omega) (by omega) (fun j hj => ?_) hlast ?_ (by omega)
    · rw [hsame _ (by omega), if_neg (by omega), if_pos (by omega)]
      congr 1
      omega
    · rw [show px + nx + (sx - nx - px) = sx by omega]
      exact gl.startsAt_end sx
  · obtain ⟨i, rfl⟩ : ∃ i, x = sx - nx + i := ⟨x - (sx - nx), by omega⟩
    refine comesAs_blank (n := nx) (by omega) (fun j hj => ?_) (by omega)
    rw [hsame _ (by omega), if_neg (by omega), if_neg (by omega)]

end GridLine

end Tmux
