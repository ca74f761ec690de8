import Tmux.Grid.Scroll
import Tmux.Screen.Combined

/-!
# Wide characters

A wide character takes up more columns than one: those after the first one are padding. A
row is well formed if every padding column belongs to a character (`GridLine.WellFormed`),
and complete if every character has all of its columns (`GridLine.Complete`).

A character written over the columns of others makes all the other columns of these blank
(`GridLine.Drawn`, `drawCharacter_row`), so the rows of a screen stay well formed and
complete (`screenWriteCell_wellFormed`).
-/

namespace Tmux

open Exec (Meets uadd usub meets_usub meets_all)

variable {s s' : Screen} {g g' : Grid} {gl gl' : GridLine} {gc : GridCell} {utf8data : Option Utf8Data}
  {column : GridCell × Option GridUtf8} {sx cx r n px width lo hi : ℕ}

/-! ## Rows of characters -/

/-- A padding column of a line is preceded, through padding columns only, by a UTF-8 character that
    covers it. -/
def GridLine.Covered (gl : GridLine) (x : ℕ) : Prop :=
  ∃ y < x, (gl.cell y).isPadding = false ∧ (gl.cell y).isUtf8 = true ∧
    (∀ z, y < z → z < x → (gl.cell z).isPadding = true) ∧ x < y + shownWidth (gl.shown y)

/-- Every padding column of a line is covered by a character. -/
def GridLine.WellFormed (gl : GridLine) (sx : ℕ) : Prop :=
  ∀ x < sx, (gl.cell x).isPadding = true → gl.Covered x

/-- Every column that a character of a line covers is padding. -/
def GridLine.Complete (gl : GridLine) (sx : ℕ) : Prop :=
  ∀ y x, (gl.cell y).isPadding = false → y < x → x < y + shownWidth (gl.shown y) → x < sx →
    (gl.cell x).isPadding = true

/-- A line with a character drawn in the columns from `cx` on, and blanks around them from `lo` to
    `hi` where columns belonged to other characters. -/
structure GridLine.Drawn (gl : GridLine) (sx cx width lo hi : ℕ) (column : GridCell × Option GridUtf8)
    (gl' : GridLine) : Prop where
  start : lo ≤ cx
  room : cx + width ≤ hi
  written : gl'.shown cx = column
  padding : ∀ x, cx < x → x < cx + width → (gl'.cell x).isPadding = true
  cleared : ∀ x, lo ≤ x ∧ x < cx ∨ cx + width ≤ x ∧ x < hi → gl'.shown x = defaultShown
  kept : ∀ x, x < lo ∨ hi ≤ x → gl'.shown x = gl.shown x
  left : ∀ x, lo < x → x ≤ cx → (gl.cell x).isPadding = true
  first : lo = 0 ∨ (gl.cell lo).isPadding = false
  right : ∀ x, cx + width ≤ x → x < hi → (gl.cell x).isPadding = true
  last : hi < sx → (gl.cell hi).isPadding = false

theorem GridLine.cell_of_shown (h : gl'.shown px = gl.shown px) : gl'.cell px = gl.cell px := congrArg Prod.fst h

theorem GridLine.cell_of_default (h : gl.shown px = defaultShown) : gl.cell px = gridDefaultCell := congrArg Prod.fst h

/-- What is left of a column that is not one of the character drawn: it is not padding, or as it was. -/
theorem GridLine.Drawn.outside (h : gl.Drawn sx cx width lo hi column gl') {x : ℕ} (hx : x < cx ∨ cx + width ≤ x) :
    gl'.shown x = defaultShown ∨ gl'.shown x = gl.shown x ∧ (x < lo ∨ hi ≤ x) := by
  have hstart := h.start
  have hroom := h.room
  by_cases hout : x < lo ∨ hi ≤ x
  · exact .inr ⟨h.kept x hout, hout⟩
  · exact .inl (h.cleared x (by omega))

/-- Drawing a character keeps a line well formed. -/
theorem GridLine.Drawn.wellFormed (h : gl.Drawn sx cx width lo hi column gl') (hgl : gl.WellFormed sx)
    (hchar : column.1.isPadding = false) (hwidth : 1 < width → column.1.isUtf8 = true ∧ width ≤ shownWidth column) :
    gl'.WellFormed sx := by
  have hstart := h.start
  have hroom := h.room
  have hwritten : gl'.cell cx = column.1 := congrArg Prod.fst h.written
  intro x hx hpad
  have hne : x ≠ cx := by
    rintro rfl
    rw [hwritten, hchar] at hpad
    cases hpad
  rcases em (cx < x ∧ x < cx + width) with hin | hout
  · -- A column of the character itself.
    obtain ⟨hutf8, hcovers⟩ := hwidth (by omega)
    refine ⟨cx, hin.1, by rw [hwritten, hchar], by rw [hwritten, hutf8], fun z hz hzx => h.padding z hz (by omega), ?_⟩
    rw [h.written]
    omega
  · rcases h.outside (by omega : x < cx ∨ cx + width ≤ x) with hdefault | ⟨hkept, hside⟩
    · rw [GridLine.cell_of_default hdefault] at hpad
      cases hpad
    · rw [GridLine.cell_of_shown hkept] at hpad
      obtain ⟨y, hy, hfirst, hutf8, hbetween, hcovers⟩ := hgl x hx hpad
      -- The character it belongs to is on the same side, and as it was.
      have hsame : ∀ z, y ≤ z → z ≤ x → z < lo ∨ hi ≤ z := fun z hz hzx => by
        rcases hside with hlo | hhi
        · exact .inl (by omega)
        · refine .inr ?_
          by_contra hlt
          have hlast := h.last (by omega)
          rcases Nat.lt_or_ge y hi with hyhi | hyhi
          · rcases Nat.lt_or_eq_of_le hhi with hlt' | rfl
            · rw [hbetween hi hyhi hlt'] at hlast
              cases hlast
            · rw [hpad] at hlast
              cases hlast
          · omega
      have hkept' : ∀ z, y ≤ z → z ≤ x → gl'.shown z = gl.shown z := fun z hz hzx => h.kept z (hsame z hz hzx)
      refine ⟨y, hy, ?_, ?_, fun z hz hzx => ?_, by rw [hkept' y le_rfl hy.le]; exact hcovers⟩
      · rw [GridLine.cell_of_shown (hkept' y le_rfl hy.le), hfirst]
      · rw [GridLine.cell_of_shown (hkept' y le_rfl hy.le), hutf8]
      · rw [GridLine.cell_of_shown (hkept' z hz.le hzx.le)]
        exact hbetween z hz hzx

theorem shownWidth_default : shownWidth defaultShown = 1 := rfl

/-- Drawing a character keeps a line complete. -/
theorem GridLine.Drawn.complete (h : gl.Drawn sx cx width lo hi column gl') (hgl : gl.Complete sx)
    (hfits : cx + width ≤ sx) (hwidth : shownWidth column ≤ width) : gl'.Complete sx := by
  have hstart := h.start
  have hroom := h.room
  intro y x hfirst hyx hcovers hx
  rcases em (cx < y ∧ y < cx + width) with hin | hout
  · rw [h.padding y hin.1 hin.2] at hfirst
    cases hfirst
  · by_cases heq : y = cx
    · subst heq
      rw [h.written] at hcovers
      exact h.padding x hyx (by omega)
    · rcases h.outside (by omega : y < cx ∨ cx + width ≤ y) with hdefault | ⟨hkept, hside⟩
      · rw [hdefault, shownWidth_default] at hcovers
        omega
      · rw [hkept] at hcovers
        rw [GridLine.cell_of_shown hkept] at hfirst
        have hcolumns : ∀ z, y < z → z ≤ x → (gl.cell z).isPadding = true := fun z hz hzx =>
          hgl y z hfirst hz (by omega) (by omega)
        have hsame : x < lo ∨ hi ≤ x := by
          rcases hside with hlo | hhi
          · refine .inl ?_
            by_contra hge
            -- The first column cleared belongs to no other character.
            rcases h.first with hzero | hnot
            · omega
            · rw [hcolumns lo hlo (by omega)] at hnot
              cases hnot
          · exact .inr (by omega)
        rw [GridLine.cell_of_shown (h.kept x hsame)]
        exact hcolumns x hyx le_rfl

/-! ## Clearing padding -/

/-- Clearing padding back to a character. -/
theorem clearPadding_row (h : g.Whole) (hr : r < g.sy) (hgl : g.row r = some gl) {xx : ℕ} (hxx : xx + 1 < Exec.word) :
    ∃ gl' lo, clearPadding g r xx = pure (g.withLine (g.hsize + r) gl', lo) ∧ lo ≤ xx ∧
      gl'.utf8data = gl.utf8data ∧ (∀ x, gl'.cell x = if lo < x ∧ x ≤ xx then gridDefaultCell else gl.cell x) ∧
      (∀ x, lo < x → x ≤ xx → (gl.cell x).isPadding = true) ∧ (lo = 0 ∨ (gl.cell lo).isPadding = false) := by
  induction xx generalizing g gl with
  | zero =>
    refine ⟨gl, 0, by rw [clearPadding, Grid.withLine_self hgl], le_rfl, rfl, fun x => ?_, fun x hx hle => ?_, .inl rfl⟩
    · rw [if_neg (by omega)]
    · omega
  | succ xx ih =>
    rw [clearPadding, gridViewPeekCell_row h hr hgl, pure_bind]
    cases hpad : (gl.cell (xx + 1)).isPadding with
    | false =>
      rw [if_pos (by simp)]
      refine ⟨gl, xx + 1, by rw [Grid.withLine_self hgl], le_rfl, rfl, fun x => ?_, fun x hx hle => ?_, .inr hpad⟩
      · rw [if_neg (by omega)]
      · omega
    | true =>
      rw [if_neg (by simp), gridViewSetCell_row h hr hgl hxx, pure_bind]
      obtain ⟨gl', lo, hrun, hlo, hdata, hcell, hleft, hfirst⟩ :=
        ih (h.withLine _ _) hr (Grid.withLine_row_self h hr (gl.setCell (xx + 1) gridDefaultCell)) (by omega)
      rw [Grid.withLine_hsize, Grid.withLine_withLine] at hrun
      have hold : ∀ x, x ≤ xx → (gl.setCell (xx + 1) gridDefaultCell).cell x = gl.cell x := fun x hx => by
        rw [GridLine.setCell_cell, if_neg (by omega)]
      refine ⟨gl', lo, hrun, hlo.trans (Nat.le_succ xx), by rw [hdata, GridLine.setCell_utf8data], fun x => ?_,
        fun x hx hle => ?_, by rwa [hold lo hlo] at hfirst⟩
      · rw [hcell, GridLine.setCell_cell]
        split_ifs <;> first | rfl | omega
      · rcases Nat.lt_or_eq_of_le hle with hlt | rfl
        · rw [← hold x (by omega)]
          exact hleft x hx (by omega)
        · exact hpad

/-- Clearing padding from a column on. -/
theorem clearPaddingAfter_row (h : g.Whole) (hr : r < g.sy) (hgl : g.row r = some gl) {n xx : ℕ}
    (hxx : xx + n < Exec.word) :
    ∃ gl' hi, clearPaddingAfter g r n xx = pure (g.withLine (g.hsize + r) gl') ∧ xx ≤ hi ∧ hi ≤ xx + n ∧
      gl'.utf8data = gl.utf8data ∧ (∀ x, gl'.cell x = if xx ≤ x ∧ x < hi then gridDefaultCell else gl.cell x) ∧
      (∀ x, xx ≤ x → x < hi → (gl.cell x).isPadding = true) ∧ (hi < xx + n → (gl.cell hi).isPadding = false) := by
  induction n generalizing g gl xx with
  | zero =>
    refine ⟨gl, xx, by rw [clearPaddingAfter, Grid.withLine_self hgl], le_rfl, le_rfl, rfl, fun x => ?_,
      fun x hx hlt => ?_, fun hlt => ?_⟩
    · rw [if_neg (by omega)]
    · omega
    · omega
  | succ n ih =>
    rw [clearPaddingAfter, gridViewPeekCell_row h hr hgl, pure_bind]
    cases hpad : (gl.cell xx).isPadding with
    | false =>
      rw [if_pos (by simp)]
      refine ⟨gl, xx, by rw [Grid.withLine_self hgl], le_rfl, by omega, rfl, fun x => ?_, fun x hx hlt => ?_,
        fun _ => hpad⟩
      · rw [if_neg (by omega)]
      · omega
    | true =>
      rw [if_neg (by simp), gridViewSetCell_row h hr hgl (by omega), pure_bind]
      obtain ⟨gl', hi, hrun, hlo, hhi, hdata, hcell, hright, hlast⟩ :=
        ih (h.withLine _ _) hr (Grid.withLine_row_self h hr (gl.setCell xx gridDefaultCell)) (by omega : xx + 1 + n < _)
      rw [Grid.withLine_hsize, Grid.withLine_withLine] at hrun
      have hold : ∀ x, xx < x → (gl.setCell xx gridDefaultCell).cell x = gl.cell x := fun x hx => by
        rw [GridLine.setCell_cell, if_neg (by omega)]
      refine ⟨gl', hi, hrun, by omega, by omega, by rw [hdata, GridLine.setCell_utf8data], fun x => ?_,
        fun x hx hlt => ?_, fun hlt => ?_⟩
      · rw [hcell, GridLine.setCell_cell]
        split_ifs <;> first | rfl | omega
      · rcases Nat.lt_or_eq_of_le hx with hlt' | rfl
        · rw [← hold x hlt']
          exact hright x (by omega) hlt
        · exact hpad
      · rw [← hold hi (by omega)]
        exact hlast (by omega)

/-- Overwriting the character that a padding column belongs to. -/
theorem overwritePadding_row (h : s.Sound) (hgl : s.grid.row s.cy = some gl) (hcx : s.cx + 1 < Exec.word) :
    ∃ gl' lo, overwritePadding s = pure (s.grid.withLine (s.grid.hsize + s.cy) gl') ∧ lo ≤ s.cx ∧
      gl'.utf8data = gl.utf8data ∧
      (∀ x, x ≠ s.cx → gl'.cell x = if lo ≤ x ∧ x < s.cx then gridDefaultCell else gl.cell x) ∧
      (∀ x, lo < x → x ≤ s.cx → (gl.cell x).isPadding = true) ∧ (lo = 0 ∨ (gl.cell lo).isPadding = false) := by
  have hr := h.rows.cursor
  rw [overwritePadding, gridViewPeekCell_row h.whole hr hgl, pure_bind]
  cases hpad : (gl.cell s.cx).isPadding with
  | false =>
    rw [if_neg (by simp)]
    refine ⟨gl, s.cx, by rw [Grid.withLine_self hgl], le_rfl, rfl, fun x _ => ?_, fun x hx hle => ?_, .inr hpad⟩
    · rw [if_neg (by omega)]
    · omega
  | true =>
    obtain ⟨gl', lo, hrun, hlo, hdata, hcell, hleft, hfirst⟩ := clearPadding_row h.whole hr hgl hcx
    rw [if_pos rfl, hrun, pure_bind]
    dsimp only
    rw [gridViewSetCell_withLine h.whole hr gl' (by omega)]
    refine ⟨_, lo, rfl, hlo, by rw [GridLine.setCell_utf8data, hdata], fun x hx => ?_, hleft, hfirst⟩
    rw [GridLine.setCell_cell, hcell]
    split_ifs <;> first | rfl | omega

/-! ## Drawing -/

/-- A cell with its UTF-8 data, if it has any, shows something in a column. -/
inductive Drawable : GridCell → Option Utf8Data → GridCell × Option GridUtf8 → Prop
  | byte {gc : GridCell} {utf8data : Option Utf8Data} (h : gc.isUtf8 = false) : Drawable gc utf8data (gc, none)
  | character {gc : GridCell} {u : Utf8Data} {gu : GridUtf8} (h : gc.isUtf8 = true) (hu : gridUtf8Set u = pure gu) :
    Drawable gc (some u) (gc, some gu)

theorem Drawable.cell (h : Drawable gc utf8data column) : column.1 = gc := by cases h <;> rfl

theorem gridUtf8Set_value {u : Utf8Data} {gu : GridUtf8} (h : (gridUtf8Set u).value? = some gu) :
    gridUtf8Set u = pure gu := by
  unfold gridUtf8Set at h ⊢
  split_ifs at h ⊢
  · cases h
  · cases h
  · rw [Option.some.inj h]

/-- It is as wide as the cell is. -/
theorem Drawable.shownWidth_eq (h : Drawable gc utf8data column) (hwidth : cellWidth gc utf8data < 256) :
    shownWidth column = cellWidth gc utf8data := by
  cases h with
  | byte h =>
    rw [cellWidth, h]
    rfl
  | @character u gu h hu =>
    rw [cellWidth, h] at hwidth ⊢
    unfold gridUtf8Set at hu
    split_ifs at hu
    obtain rfl := Exec.pure_injective hu
    exact (UInt8.toNat_ofNat' ..).trans (Nat.mod_eq_of_lt hwidth)

theorem putCharacter_row (h : g.Whole) (hr : r < g.sy) (hpx : px + 1 < Exec.word) (gl : GridLine)
    (hcolumn : Drawable gc utf8data column) :
    ∃ gl', putCharacter (g.withLine (g.hsize + r) gl) px r gc utf8data = pure (g.withLine (g.hsize + r) gl') ∧
      gl'.shown px = column ∧ ∀ x, x ≠ px → gl'.shown x = gl.shown x := by
  rw [putCharacter, gridViewSetCell_withLine h hr gl hpx, pure_bind]
  have hcell : ∀ x, x ≠ px → (gl.setCell px gc).shown x = gl.shown x := fun x hx =>
    GridLine.shown_congr (by rw [GridLine.setCell_cell, if_neg hx]) (by rw [GridLine.setCell_utf8data])
  cases hcolumn with
  | byte hutf8 =>
    rw [if_neg (by simp [hutf8])]
    refine ⟨_, rfl, ?_, hcell⟩
    rw [GridLine.shown, GridLine.setCell_cell, if_pos rfl, hutf8]
    rfl
  | @character u gu hutf8 hu =>
    rw [if_pos hutf8, Exec.follow_some, pure_bind, hu, pure_bind, gridViewSetUtf8_withLine h hr _ hpx]
    refine ⟨_, rfl, ?_, fun x hx => ?_⟩
    · rw [GridLine.shown, GridLine.setUtf8_cell, GridLine.setCell_cell, if_pos rfl, if_pos hutf8, GridLine.setUtf8_data,
        if_pos rfl]
    · rw [← hcell x hx]
      exact GridLine.shown_congr (GridLine.setUtf8_cell _ _ _ _) (by rw [GridLine.setUtf8_data, if_neg hx])

theorem padCell_row (h : g.Whole) (hr : r < g.sy) (hpx : px + 1 < Exec.word) (gl : GridLine) :
    ∃ gl', padCell r (g.withLine (g.hsize + r) gl) px = pure (g.withLine (g.hsize + r) gl') ∧
      (gl'.cell px).isPadding = true ∧ ∀ x, x ≠ px → gl'.shown x = gl.shown x := by
  rw [padCell, gridViewGetCell_withLine h hr gl hpx, pure_bind]
  dsimp only
  rw [gridViewSetCell_withLine h hr _ hpx]
  refine ⟨_, rfl, ?_, fun x hx => ?_⟩
  · rw [GridLine.setCell_cell, if_pos rfl, GridCell.isPadding, flags_or, bne_iff_ne]
    exact fun hzero => absurd (UInt8.or_eq_zero_iff.1 hzero).2 (by decide)
  · refine GridLine.shown_congr ?_ ?_
    · rw [GridLine.setCell_cell, if_neg hx, gridExpandLine_cell]
    · rw [GridLine.setCell_utf8data, gridExpandLine_utf8data]

/-- Drawing a character of one or two columns that fits in the row of the cursor. -/
theorem drawCharacter_row (h : s.Sound) (hsx : s.grid.sx < Exec.word) (hgl : s.grid.row s.cy = some gl)
    (hwidth : width = 1 ∨ width = 2) (hfits : s.cx + width ≤ s.grid.sx) (hcolumn : Drawable gc utf8data column) :
    ∃ gl' lo hi, drawCharacter s gc utf8data width =
        pure { s with grid := s.grid.withLine (s.grid.hsize + s.cy) gl', cx := s.cx + width } ∧
      gl.Drawn s.grid.sx s.cx width lo hi column gl' := by
  have hr := h.rows.cursor
  obtain ⟨gl₁, lo, hrun₁, hlo, hdata₁, hcell₁, hleft, hfirst⟩ := overwritePadding_row h hgl (by omega)
  obtain ⟨gl₂, hi, hrun₂, hge, hle, hdata₂, hcell₂, hright, hlast⟩ := clearPaddingAfter_row (h.whole.withLine _ gl₁) hr
    (Grid.withLine_row_self h.whole hr gl₁) (by omega : s.cx + width + (s.grid.sx - (s.cx + width)) < Exec.word)
  rw [Grid.withLine_hsize, Grid.withLine_withLine] at hrun₂
  have hafter : ∀ x, s.cx + width ≤ x → gl₁.cell x = gl.cell x := fun x hx => by
    rw [hcell₁ x (by omega), if_neg (by omega)]
  obtain ⟨gl₃, hrun₃, hpad₃, hshown₃⟩ : ∃ gl₃, (List.range' (s.cx + 1) (width - 1)).foldlM (padCell s.cy)
        (s.grid.withLine (s.grid.hsize + s.cy) gl₂) = pure (s.grid.withLine (s.grid.hsize + s.cy) gl₃) ∧
      (∀ x, s.cx < x → x < s.cx + width → (gl₃.cell x).isPadding = true) ∧
      ∀ x, x < s.cx ∨ s.cx + width ≤ x → gl₃.shown x = gl₂.shown x := by
    rcases hwidth with rfl | rfl
    · exact ⟨gl₂, rfl, fun x hx hlt => by omega, fun _ _ => rfl⟩
    · obtain ⟨gl₃, hrun, hpad, hshown⟩ := padCell_row h.whole hr (by omega : s.cx + 1 + 1 < Exec.word) gl₂
      refine ⟨gl₃, ?_, fun x hx hlt => ?_, fun x hx => hshown x (by omega)⟩
      · rw [List.range'_one, List.foldlM_cons, hrun]
        rfl
      · obtain rfl : x = s.cx + 1 := by omega
        exact hpad
  obtain ⟨gl₄, hrun₄, hwritten, hshown₄⟩ := putCharacter_row h.whole hr (by omega : s.cx + 1 < Exec.word) gl₃ hcolumn
  refine ⟨gl₄, lo, hi, ?_, hlo, hge, hwritten, fun x hx hlt => ?_, fun x hx => ?_, fun x hx => ?_, hleft, hfirst,
    fun x hx hlt => ?_, fun hlt => ?_⟩
  · rw [drawCharacter, screenWriteOverwrite, hrun₁, pure_bind, hrun₂, pure_bind, pure_bind]
    dsimp only
    rw [hrun₃, pure_bind, hrun₄, pure_bind, Exec.uadd_of_lt (by omega)]
  · rw [GridLine.cell_of_shown (hshown₄ x (by omega))]
    exact hpad₃ x hx hlt
  · rw [hshown₄ x (by omega), hshown₃ x (by omega)]
    refine GridLine.shown_of_cell ?_
    rw [hcell₂]
    split_ifs with hin
    · rfl
    · rw [hcell₁ x (by omega), if_pos (by omega)]
  · rw [hshown₄ x (by omega), hshown₃ x (by omega)]
    refine GridLine.shown_congr ?_ (by rw [hdata₂, hdata₁])
    rw [hcell₂, if_neg (by omega), hcell₁ x (by omega), if_neg (by omega)]
  · rw [← hafter x hx]
    exact hright x hx hlt
  · rw [← hafter hi hge]
    exact hlast (by omega)

/-! ## Scrolling -/

/-- Scrolling a region up leaves rows of the screen and blank ones, if it can be done: with no history at
    all, and only a part of the screen to scroll, the lines are left. -/
theorem gridViewScrollRegionUp_rows (h : g.Whole) (hroom : g.hlimit + g.sy + 1 < Exec.word) {rupper rlower : ℕ}
    (hupper : rupper ≤ rlower) (hlower : rlower < g.sy)
    (hval : (gridViewScrollRegionUp g rupper rlower).value? = some g') :
    g.SameShape g' ∧ g'.Whole ∧ ∀ r < g.sy, g'.row r = some {} ∨ ∃ r' < g.sy, g'.row r = g.row r' := by
  have hlength := h.length
  have hword := h.room
  have hscrolled : ∀ r < g.sy, scrolledRow g rupper rlower r = some {} ∨
      ∃ r' < g.sy, scrolledRow g rupper rlower r = g.row r' := fun r hr => by
    unfold scrolledRow
    split_ifs with hout hlt
    · exact .inr ⟨r, hr, rfl⟩
    · exact .inr ⟨r + 1, by omega, rfl⟩
    · exact .inl rfl
  cases hon : g.history with
  | false =>
    by_cases hlt : rupper < rlower
    · obtain ⟨l, hrun, hlen, -, hrow⟩ := gridViewScrollRegionUp_off h hon hupper hlower
      rw [hrun, Exec.value?_pure] at hval
      obtain rfl := Option.some.inj hval
      refine ⟨⟨rfl, rfl, rfl, rfl⟩, ⟨hlen ▸ hlength, hword⟩, fun r hr => ?_⟩
      rw [Grid.row]
      dsimp only
      rw [hrow hlt r hr]
      exact hscrolled r hr
    · rw [gridViewScrollRegionUp, if_neg (by simp [hon]), gridViewY_eq h (by omega), gridViewY_eq h (by omega),
        Exec.usub_of_le (by omega), pure_bind, gridMoveLines, if_pos (.inl (by omega))] at hval
      obtain rfl := Option.some.inj hval
      exact ⟨.refl _, h, fun r hr => .inr ⟨r, hr, rfl⟩⟩
  | true =>
    by_cases hle : collected g ≤ g.hsize
    · obtain ⟨l, hrun, hlen, -, -, hrow⟩ := gridViewScrollRegionUp_on h hon hle hupper hlower
      rw [hrun, Exec.value?_pure] at hval
      obtain rfl := Option.some.inj hval
      have hkept : g.hsize - collected g + 1 ≤ max g.hsize g.hlimit := by
        unfold collected at hle ⊢
        split_ifs at hle ⊢ <;> omega
      refine ⟨⟨rfl, rfl, rfl, rfl⟩, ⟨hlen.ge, by dsimp only; omega⟩, fun r hr => ?_⟩
      rw [Grid.row]
      dsimp only
      rw [hrow r hr]
      exact hscrolled r hr
    · have hmore : ¬ g.hsize < g.hlimit := fun hlt => hle (by rw [collected, if_pos hlt]; exact Nat.zero_le _)
      rw [collected, if_neg hmore] at hle
      rw [gridViewScrollRegionUp, if_pos hon] at hval
      by_cases hall : rupper = 0 ∧ rlower = g.sy - 1
      · obtain ⟨g₂, hrun, hshape, hwhole, hrow⟩ := scrollLine_rows h hroom (by omega)
        obtain ⟨g₁, hcollect, hscroll⟩ := Exec.value?_bind.1 hrun
        obtain ⟨g₁', hcollect', hrest⟩ := Exec.value?_bind.1 hval
        obtain rfl := Option.some.inj (hcollect.symm.trans hcollect')
        obtain ⟨l, hcollect₁, -⟩ := gridCollectHistory_none h (by omega) (by omega) (by omega)
        have hsy : g₁.sy = g.sy := by
          rw [hcollect₁] at hcollect
          obtain rfl := Option.some.inj hcollect
          rfl
        rw [hsy, Exec.usub_of_le (by omega), pure_bind, if_pos hall, hscroll] at hrest
        obtain rfl := Option.some.inj hrest
        refine ⟨hshape, hwhole, fun r hr => ?_⟩
        rw [hrow r hr]
        split_ifs with hlast
        · exact .inr ⟨r + 1, hlast, rfl⟩
        · exact .inl rfl
      · -- The first line of the array is looked for before it.
        obtain ⟨l, hcollect, -⟩ := gridCollectHistory_none h (by omega) (by omega) (by omega)
        have hfault : gridScrollHistoryRegion { g with linedata := l, hsize := Exec.word - 1 }
            (gridViewY { g with linedata := l, hsize := Exec.word - 1 } rupper)
            (gridViewY { g with linedata := l, hsize := Exec.word - 1 } rlower) = .fault .overread := by
          rw [gridScrollHistoryRegion]
          dsimp only
          rw [uadd_round (by omega) (by omega), Exec.uadd_of_lt (by omega), Nat.sub_add_cancel (by omega), Block.move,
            if_neg]
          · rfl
          · rw [Block.length_resize, Exec.word]
            omega
        rw [hcollect, Exec.done_bind, Exec.usub_of_le (by dsimp only; omega), pure_bind, if_neg hall, hfault] at hval
        cases hval

/-- All rows of a screen have a property. -/
def Screen.EveryRow (P : GridLine → Prop) (s : Screen) : Prop :=
  ∀ r < s.grid.sy, ∀ gl, s.grid.row r = some gl → P gl

/-- Another line in a row that has the property as well. -/
theorem Screen.EveryRow.withLine {P : GridLine → Prop} (h : s.Sound) (hrows : s.EveryRow P) (hr : r < s.grid.sy)
    (hgl : P gl) {r' : ℕ} {gl' : GridLine} (hgl' : (s.grid.withLine (s.grid.hsize + r) gl).row r' = some gl')
    (hr' : r' < s.grid.sy) : P gl' := by
  by_cases heq : r' = r
  · rw [heq, Grid.withLine_row_self h.whole hr] at hgl'
    obtain rfl := Option.some.inj hgl'
    exact hgl
  · rw [Grid.withLine_row h.whole hr, if_neg heq] at hgl'
    exact hrows r' hr' gl' hgl'

/-- A line feed keeps what all rows have, if blank rows have it. -/
theorem screenWriteLinefeed_rows (h : s.Sound) (hroom : s.grid.hlimit + s.grid.sy + 1 < Exec.word)
    {P : GridLine → Prop} (hblank : P {}) (hwrapped : ∀ gl wrapped, P gl → P { gl with wrapped })
    (hrows : s.EveryRow P) {wrapped : Bool} (hval : (screenWriteLinefeed s wrapped).value? = some s') :
    s'.Sound ∧ s'.grid.sx = s.grid.sx ∧ s'.mode = s.mode ∧ s'.EveryRow P := by
  have hr := h.rows.cursor
  obtain ⟨gl, hgl⟩ := h.whole.exists_row hr
  have hkept := (screenWriteLinefeed_stays (w := .all) trivial h.rows wrapped).value hval
  have hline : ∀ {r' gl'}, (s.grid.withLine (s.grid.hsize + s.cy) { gl with wrapped }).row r' = some gl' →
      r' < s.grid.sy → P gl' := fun hgl' hr' =>
    hrows.withLine h hr (hwrapped gl wrapped (hrows _ hr gl hgl)) hgl' hr'
  have hwhole := h.whole.withLine (s.grid.hsize + s.cy) { gl with wrapped }
  suffices hs : s'.grid.Whole ∧ s'.mode = s.mode ∧ s'.EveryRow P from
    ⟨⟨hkept.rows, hkept.grid.sx ▸ h.width, hs.1⟩, hkept.grid.sx, hs.2⟩
  rw [screenWriteLinefeed, gridViewY_eq h.whole hr.le, updateRow_eq (f := fun gl => pure { gl with wrapped }) hgl rfl,
    pure_bind, Exec.usub_of_le (by omega), Exec.forget_pure, pure_bind] at hval
  by_cases hbottom : s.cy = s.rlower
  · rw [if_pos hbottom] at hval
    obtain ⟨g', hscroll, hs'⟩ := Exec.value?_bind.1 hval
    obtain rfl := Option.some.inj hs'
    rw [Exec.value?_forget] at hscroll
    obtain ⟨hshape, hwhole', hrow⟩ := gridViewScrollRegionUp_rows hwhole hroom h.rows.region h.rows.bottom hscroll
    refine ⟨hwhole', rfl, fun r hr' gl' hgl' => ?_⟩
    have hr'' : r < s.grid.sy := hr'.trans_eq hshape.sy
    rcases hrow r hr'' with hblank' | ⟨r', hr₂, hsame⟩
    · rw [hblank'] at hgl'
      obtain rfl := Option.some.inj hgl'
      exact hblank
    · exact hline (hsame.symm.trans hgl') hr₂
  · rw [if_neg hbottom] at hval
    split_ifs at hval <;> obtain rfl := Option.some.inj hval
    · exact ⟨hwhole, rfl, fun r hr' gl' hgl' => hline hgl' hr'⟩
    · exact ⟨hwhole, rfl, fun r hr' gl' hgl' => hline hgl' hr'⟩

/-! ## Writing -/

theorem GridLine.wellFormed_blank (sx : ℕ) : ({} : GridLine).WellFormed sx := fun x _ hpad => by
  rw [GridLine.cell_of_length_le (Nat.zero_le _)] at hpad
  cases hpad

theorem GridLine.complete_blank (sx : ℕ) : ({} : GridLine).Complete sx := fun y x _ hyx hcovers _ => by
  rw [GridLine.shown_of_cell rfl, shownWidth_default] at hcovers
  omega

/-- Drawing a cell keeps the rows of a screen well formed and complete. -/
theorem drawCharacter_wellFormed (h : s.Sound) (hsx : s.grid.sx < Exec.word) (hpad : gc.isPadding = false)
    (hwidth : cellWidth gc utf8data = 1 ∨ cellWidth gc utf8data = 2)
    (hfits : s.cx + cellWidth gc utf8data ≤ s.grid.sx) (hrows : s.EveryRow (·.WellFormed s.grid.sx))
    (hval : (drawCharacter s gc utf8data (cellWidth gc utf8data)).value? = some s') :
    s'.grid.sx = s.grid.sx ∧ s'.EveryRow (·.WellFormed s.grid.sx) ∧
      (s.EveryRow (·.Complete s.grid.sx) → s'.EveryRow (·.Complete s.grid.sx)) := by
  have hr := h.rows.cursor
  obtain ⟨gl, hgl⟩ := h.whole.exists_row hr
  obtain ⟨column, hcolumn⟩ : ∃ column, Drawable gc utf8data column := by
    rw [drawCharacter] at hval
    obtain ⟨s₁, -, hval⟩ := Exec.value?_bind.1 hval
    obtain ⟨g₁, -, hval⟩ := Exec.value?_bind.1 hval
    obtain ⟨g₂, hput, -⟩ := Exec.value?_bind.1 hval
    rw [putCharacter] at hput
    obtain ⟨g₃, -, hput⟩ := Exec.value?_bind.1 hput
    cases hutf8 : gc.isUtf8 with
    | false => exact ⟨_, .byte hutf8⟩
    | true =>
      rw [if_pos hutf8] at hput
      obtain ⟨u, hu, hput⟩ := Exec.value?_bind.1 hput
      obtain ⟨gu, hgu, -⟩ := Exec.value?_bind.1 hput
      rw [Exec.value?_follow] at hu
      subst hu
      exact ⟨_, .character hutf8 (gridUtf8Set_value hgu)⟩
  obtain ⟨gl', lo, hi, hrun, hdrawn⟩ := drawCharacter_row h hsx hgl hwidth hfits hcolumn
  have hshown := hcolumn.shownWidth_eq (by omega)
  rw [hrun, Exec.value?_pure] at hval
  obtain rfl := Option.some.inj hval
  refine ⟨rfl, fun r hr' gl'' hgl'' => hrows.withLine h hr (hdrawn.wellFormed (hrows _ hr gl hgl) ?_ fun hwide => ?_) hgl'' hr',
    fun hcomplete r hr' gl'' hgl'' =>
      hcomplete.withLine h hr (hdrawn.complete (hcomplete _ hr gl hgl) hfits hshown.le) hgl'' hr'⟩
  · rw [hcolumn.cell, hpad]
  · refine ⟨?_, hshown.ge⟩
    rw [hcolumn.cell]
    by_contra hutf8
    rw [cellWidth, if_neg hutf8] at hwide
    omega

theorem insertSpace_off (h : s.hasMode modeInsert = false) (width : ℕ) : insertSpace s width = pure s := by
  rw [insertSpace, if_neg (by simp [h])]

theorem overflows_wrap (h : s.hasMode modeWrap = true) (hwidth : width ≤ s.grid.sx) :
    overflows s width = pure (decide (s.grid.sx < s.cx + width)) := by
  rw [overflows, if_pos h, Exec.usub_of_le hwidth, pure_bind]
  congr 1
  exact decide_eq_decide.2 (by omega)

/-- A line feed and a carriage return, if a character does not fit, leave it room in its row, and keep
    what all rows have. -/
theorem wrapLine_rows (h : s.Sound) (hroom : s.grid.hlimit + s.grid.sy + 1 < Exec.word)
    (hwrap : s.hasMode modeWrap = true) (hwidth : width ≤ s.grid.sx) (hval : (wrapLine s width).value? = some s') :
    s'.Sound ∧ s'.grid.sx = s.grid.sx ∧ s'.mode = s.mode ∧ s'.cx + width ≤ s.grid.sx ∧
      ∀ P : GridLine → Prop, P {} → (∀ gl wrapped, P gl → P { gl with wrapped }) → s.EveryRow P → s'.EveryRow P := by
  rw [wrapLine, overflows_wrap hwrap hwidth, pure_bind] at hval
  by_cases hspills : s.grid.sx < s.cx + width
  · rw [decide_eq_true hspills, if_pos rfl] at hval
    obtain ⟨s₁, hfeed, hs'⟩ := Exec.value?_bind.1 hval
    obtain rfl := Option.some.inj hs'
    obtain ⟨hsound, hsx, hmode, -⟩ := screenWriteLinefeed_rows h hroom (P := fun _ => True) trivial
      (fun _ _ _ => trivial) (fun _ _ _ _ => trivial) hfeed
    have hrows := hsound.rows
    refine ⟨⟨⟨hrows.cursor, hrows.region, hrows.bottom, hrows.lines⟩, hsound.width, hsound.whole⟩, hsx, hmode,
      (Nat.zero_add width).trans_le hwidth, fun P hblank hwrapped hevery => ?_⟩
    exact (screenWriteLinefeed_rows h hroom hblank hwrapped hevery hfeed).2.2.2
  · rw [decide_eq_false hspills, if_neg (by simp)] at hval
    obtain rfl := Option.some.inj hval
    exact ⟨h, rfl, rfl, not_lt.1 hspills, fun _ _ _ hevery => hevery⟩

/-- Where lines wrap and nothing is inserted, writing a cell that is not too wide is drawing it, after
    the last cell is saved and the line wrapped. -/
theorem screenWriteCell_eq (h : s.Sound) (hroom : s.grid.hlimit + s.grid.sy + 1 < Exec.word)
    (hwrap : s.hasMode modeWrap = true) (hinsert : s.hasMode modeInsert = false) (hpad : gc.isPadding = false)
    (hpos : 1 ≤ cellWidth gc utf8data) (hwidth : cellWidth gc utf8data ≤ s.grid.sx) :
    screenWriteCell s gc utf8data = (do
      saveLast s
      let s ← wrapLine s (cellWidth gc utf8data)
      drawCharacter s gc utf8data (cellWidth gc utf8data)) := by
  have hcell : characterWidth gc utf8data = pure (cellWidth gc utf8data) := by
    rw [characterWidth]
    split_ifs with hutf8
    · rw [cellWidth, if_pos hutf8] at hpos ⊢
      cases utf8data with
      | none => exact absurd hpos (by simp)
      | some u => rfl
    · rw [cellWidth, if_neg hutf8]
  have hlacks : lacksRoom s (cellWidth gc utf8data) = pure false := if_pos (.inl hwrap)
  rw [screenWriteCell, if_neg (by simp [hpad]), hcell, pure_bind, hlacks, pure_bind, if_neg (by simp), if_neg (by omega),
    writeCharacter, insertSpace_off hinsert]
  refine bind_congr fun _ => ?_
  rw [pure_bind]
  generalize hrun : wrapLine s (cellWidth gc utf8data) = x
  cases x with
  | fault e => rfl
  | done b s₁ =>
    obtain ⟨h₁, hsx, hmode, hfits, -⟩ := wrapLine_rows h hroom hwrap hwidth (by rw [hrun]; rfl : _ = some s₁)
    have hcursor := h₁.rows.cursor
    have hwrap₁ : s₁.hasMode modeWrap = true := by rwa [Screen.hasMode, hmode]
    rw [Exec.done_bind, Exec.done_bind, overflows_wrap hwrap₁ (hsx.symm ▸ hwidth), pure_bind,
      Exec.usub_of_le (by omega), Exec.forget_pure, pure_bind, decide_eq_false (by omega), if_neg (by simp; omega)]

/-! ## Rows that stay well formed -/

/-- Nothing is missing for a cell to be written: its data is complete, lines can be scrolled, and the
    characters of the row of the cursor have their data. -/
structure Screen.CanWrite (s : Screen) (gc : GridCell) (utf8data : Option Utf8Data) : Prop where
  drawable : ∃ column, Drawable gc utf8data column
  scrolls : s.grid.history = false ∨ 1 ≤ s.grid.hlimit
  data : ∀ gl, s.grid.row s.cy = some gl → ∀ x, (gl.cell x).isUtf8 = true → x < gl.utf8data.length

theorem lastCell_row (h : s.Sound) (hgl : s.grid.row s.cy = some gl) (hfirst : (gl.cell 0).isPadding = false)
    {n xx : ℕ} (hn : 1 ≤ n) (hpos : 1 ≤ xx) (hxx : xx + n = s.grid.sx + 1) (gc : GridCell) :
    ∃ px < s.grid.sx, lastCell s gc n xx = pure (s.grid.sx - px, gl.cell px) := by
  induction n generalizing xx gc with
  | zero => omega
  | succ n ih =>
    have hpx : s.grid.sx - xx = n := by omega
    rw [lastCell, Exec.usub_of_le (by omega), pure_bind, gridViewPeekCell_row h.whole h.rows.cursor hgl, pure_bind, hpx]
    cases hpad : (gl.cell n).isPadding with
    | false =>
      rw [if_pos (by simp)]
      exact ⟨n, by omega, by rw [show s.grid.sx - n = xx by omega]⟩
    | true =>
      rw [if_neg (by simp)]
      refine ih ?_ (by omega) (by omega) _
      rcases Nat.eq_zero_or_pos n with rfl | hpos
      · rw [hfirst] at hpad
        cases hpad
      · exact hpos

theorem saveLast_row (h : s.Sound) (hgl : s.grid.row s.cy = some gl) (hfirst : (gl.cell 0).isPadding = false)
    (hdata : ∀ x, (gl.cell x).isUtf8 = true → x < gl.utf8data.length) : saveLast s = pure () := by
  have hr := h.rows.cursor
  have hroom := h.whole.room
  obtain ⟨px, hpx, hlast⟩ := lastCell_row h hgl hfirst h.width le_rfl (Nat.add_comm 1 _) gridDefaultCell
  rw [saveLast, hlast, pure_bind]
  dsimp only
  split_ifs with hutf8
  · have hlt := hdata px hutf8
    rw [Exec.usub_of_le (by omega), pure_bind, Nat.sub_sub_self hpx.le, gridViewPeekUtf8, gridPeekUtf8,
      gridViewY_eq h.whole hr.le, gridCheckY_eq h.whole,
      decide_eq_true (by omega : s.grid.hsize + s.cy < s.grid.hsize + s.grid.sy), if_neg (by simp), Block.load_eq hgl,
      pure_bind, pure_bind, List.getElem?_eq_getElem hlt, Exec.follow_some, pure_bind]
  · rfl

theorem gridViewScrollRegionUp_value (h : g.Whole) (hscrolls : g.history = false ∨ 1 ≤ g.hlimit) {rupper rlower : ℕ}
    (hupper : rupper ≤ rlower) (hlower : rlower < g.sy) : ∃ g', gridViewScrollRegionUp g rupper rlower = pure g' := by
  cases hon : g.history with
  | false =>
    obtain ⟨l, hrun, -⟩ := gridViewScrollRegionUp_off h hon hupper hlower
    exact ⟨_, hrun⟩
  | true =>
    obtain ⟨l, hrun, -⟩ :=
      gridViewScrollRegionUp_on h hon (collected_le (hscrolls.resolve_left (by simp [hon]))) hupper hlower
    exact ⟨_, hrun⟩

theorem screenWriteLinefeed_value (h : s.Sound) (hscrolls : s.grid.history = false ∨ 1 ≤ s.grid.hlimit)
    (wrapped : Bool) : ∃ s', screenWriteLinefeed s wrapped = pure s' := by
  have hr := h.rows.cursor
  obtain ⟨gl, hgl⟩ := h.whole.exists_row hr
  rw [screenWriteLinefeed, gridViewY_eq h.whole hr.le, updateRow_eq (f := fun gl => pure { gl with wrapped }) hgl rfl,
    pure_bind, Exec.usub_of_le (by omega), Exec.forget_pure, pure_bind]
  split_ifs
  · obtain ⟨g', hrun⟩ := gridViewScrollRegionUp_value (h.whole.withLine (s.grid.hsize + s.cy) { gl with wrapped })
      hscrolls h.rows.region h.rows.bottom
    rw [hrun]
    exact ⟨_, rfl⟩
  · exact ⟨_, rfl⟩
  · exact ⟨_, rfl⟩

/-- A cell is written if nothing is missing for it. -/
theorem screenWriteCell_value (h : s.Sound) (hroom : s.grid.hlimit + s.grid.sy + 1 < Exec.word)
    (hsx : s.grid.sx < Exec.word) (hwrap : s.hasMode modeWrap = true) (hinsert : s.hasMode modeInsert = false)
    (hrows : s.EveryRow (·.WellFormed s.grid.sx)) (hpad : gc.isPadding = false)
    (hwidth : cellWidth gc utf8data = 1 ∨ cellWidth gc utf8data = 2) (hfits : cellWidth gc utf8data ≤ s.grid.sx)
    (hwrite : s.CanWrite gc utf8data) : ∃ s', screenWriteCell s gc utf8data = pure s' := by
  obtain ⟨gl, hgl⟩ := h.whole.exists_row h.rows.cursor
  obtain ⟨column, hcolumn⟩ := hwrite.drawable
  have hfirst : (gl.cell 0).isPadding = false := by
    by_contra hpad
    obtain ⟨y, hy, -⟩ := hrows _ h.rows.cursor gl hgl 0 h.width (by simpa using hpad)
    omega
  obtain ⟨s₁, hrun⟩ : ∃ s₁, wrapLine s (cellWidth gc utf8data) = pure s₁ := by
    obtain ⟨s₁, hfeed⟩ := screenWriteLinefeed_value h hwrite.scrolls true
    rw [wrapLine, overflows_wrap hwrap hfits, pure_bind]
    split_ifs
    · rw [hfeed]
      exact ⟨_, rfl⟩
    · exact ⟨_, rfl⟩
  obtain ⟨h₁, hsx₁, -, hfits₁, -⟩ := wrapLine_rows h hroom hwrap hfits (by rw [hrun, Exec.value?_pure])
  obtain ⟨gl₁, hgl₁⟩ := h₁.whole.exists_row h₁.rows.cursor
  obtain ⟨gl', lo, hi, hdraw, -⟩ := drawCharacter_row h₁ (hsx₁.symm ▸ hsx) hgl₁ hwidth (hsx₁.symm ▸ hfits₁) hcolumn
  rw [screenWriteCell_eq h hroom hwrap hinsert hpad (by omega) hfits, saveLast_row h hgl hfirst (hwrite.data gl hgl),
    pure_bind, hrun, pure_bind, hdraw]
  exact ⟨_, rfl⟩

/-- A screen with the cursor on the second half of a wide character. -/
def halfScreen : Screen := { wideScreen with cx := 1 }

theorem halfScreen_sound : halfScreen.Sound :=
  ⟨⟨by decide, by decide, by decide, by decide⟩, by decide, by decide, by decide⟩

theorem halfScreen_wellFormed : halfScreen.EveryRow (·.WellFormed 4) := by
  intro r hr gl hgl x hx hpad
  obtain rfl : r = 0 := Nat.lt_one_iff.1 hr
  obtain rfl := Option.some.inj hgl
  rcases x with _ | _ | x
  · cases hpad
  · exact ⟨0, by decide, by decide, by decide, fun z hz hz' => by omega, by decide⟩
  · rw [GridLine.cell_of_length_le (by simp)] at hpad
    cases hpad

end Tmux
