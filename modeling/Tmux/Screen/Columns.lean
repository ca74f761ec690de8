import Tmux.Screen.Bounded
import Tmux.Screen.Data
import Tmux.Screen.Wide

/-!
# Text on a row with room for it

On a row that has columns left for them (`Screen.CanAppend`), cells are all written, each to
the columns after those of the cells before it (`writeCells_append`): nothing is wrapped,
scrolled or missing. A new screen has all of its columns left (`screenInit_canAppend`).
-/

namespace Tmux

open Exec (Meets uadd usub meets_all)

variable {s s' : Screen} {gl : GridLine} {gc : GridCell} {u : Utf8Data} {utf8data : Option Utf8Data}
  {column : GridCell × Option GridUtf8} {px n : ℕ}

/-- There are `n` columns left in the row of the cursor, and no character has a part of itself in
    them. -/
structure Screen.CanAppend (s : Screen) (n : ℕ) : Prop where
  sound : s.Sound
  backed : s.Backed
  lines : s.grid.hlimit + s.grid.sy + 1 < Exec.word
  columns : s.grid.sx < Exec.word
  wraps : s.hasMode modeWrap = true
  inserts : s.hasMode modeInsert = false
  room : s.cx + n ≤ s.grid.sx
  first : ∀ gl, s.grid.row s.cy = some gl → (gl.cell 0).isPadding = false
  free : ∀ gl, s.grid.row s.cy = some gl → ∀ x, s.cx ≤ x → (gl.cell x).isPadding = false

theorem Screen.CanAppend.weaken {k : ℕ} (h : s.CanAppend n) (hk : k ≤ n) : s.CanAppend k :=
  { h with room := (Nat.add_le_add_left hk _).trans h.room }

/-- What is left after the row of the cursor is written to. -/
theorem Screen.CanAppend.withLine (h : s.CanAppend n) {k cx : ℕ}
    (hbacked : ({ s with grid := s.grid.withLine (s.grid.hsize + s.cy) gl, cx } : Screen).Backed)
    (hroom : cx + k ≤ s.grid.sx) (hfirst : (gl.cell 0).isPadding = false)
    (hfree : ∀ x, cx ≤ x → (gl.cell x).isPadding = false) :
    ({ s with grid := s.grid.withLine (s.grid.hsize + s.cy) gl, cx } : Screen).CanAppend k := by
  have hrows := h.sound.rows
  have hrow := Grid.withLine_row_self h.sound.whole hrows.cursor gl
  refine ⟨⟨⟨hrows.cursor, hrows.region, hrows.bottom, hrows.lines⟩, h.sound.width, h.sound.whole.withLine _ gl⟩, hbacked,
    h.lines, h.columns, h.wraps, h.inserts, hroom, fun gl' hgl' => ?_, fun gl' hgl' => ?_⟩
  · obtain rfl := Option.some.inj (hrow.symm.trans hgl')
    exact hfirst
  · obtain rfl := Option.some.inj (hrow.symm.trans hgl')
    exact hfree

/-- Only columns before the cursor are changed, in the row that it stays in. -/
structure Screen.Appended (s s' : Screen) : Prop where
  sx : s'.grid.sx = s.grid.sx
  sy : s'.grid.sy = s.grid.sy
  hsize : s'.grid.hsize = s.grid.hsize
  cy : s'.cy = s.cy
  le : s.cx ≤ s'.cx
  after : ∀ x, s'.cx ≤ x → s'.grid.shown x s.cy = s.grid.shown x s.cy

theorem Screen.Appended.refl (s : Screen) : s.Appended s := ⟨rfl, rfl, rfl, rfl, le_rfl, fun _ _ => rfl⟩

theorem Screen.Appended.trans {s'' : Screen} (h : s.Appended s') (h' : s'.Appended s'') : s.Appended s'' where
  sx := h'.sx.trans h.sx
  sy := h'.sy.trans h.sy
  hsize := h'.hsize.trans h.hsize
  cy := h'.cy.trans h.cy
  le := h.le.trans h'.le
  after x hx := (h.cy ▸ h'.after x hx).trans (h.after x (h'.le.trans hx))

/-- A row that is changed before a column. -/
theorem Screen.CanAppend.appended {gl' : GridLine} (h : s.CanAppend n) (hgl : s.grid.row s.cy = some gl) {cx : ℕ}
    (hle : s.cx ≤ cx) (hafter : ∀ x, cx ≤ x → gl'.shown x = gl.shown x) :
    s.Appended { s with grid := s.grid.withLine (s.grid.hsize + s.cy) gl', cx } where
  sx := rfl
  sy := rfl
  hsize := rfl
  cy := rfl
  le := hle
  after x hx := by
    rw [Grid.shown_of_row hgl, Grid.shown_of_row (Grid.withLine_row_self h.sound.whole h.sound.rows.cursor gl')]
    exact hafter x hx

/-! ## Writing cells -/

theorem Screen.CanAppend.saveLast_eq (h : s.CanAppend n) : saveLast s = pure () := by
  obtain ⟨gl, hgl⟩ := h.sound.whole.exists_row h.sound.rows.cursor
  refine saveLast_row h.sound hgl (h.first gl hgl) fun x hutf8 => ?_
  obtain ⟨gu, hgu⟩ := h.backed gl (List.mem_of_getElem? hgl) x hutf8
  exact (List.getElem?_eq_some_iff.1 hgu).1

/-- A character of one or two columns is drawn in the next ones. -/
theorem screenWriteCell_drawn (h : s.CanAppend n) (hpad : gc.isPadding = false) (hcolumn : Drawable gc utf8data column)
    (hwidth : cellWidth gc utf8data = 1 ∨ cellWidth gc utf8data = 2) (hn : cellWidth gc utf8data ≤ n) :
    ∃ gl gl' lo hi, s.grid.row s.cy = some gl ∧
      screenWriteCell s gc utf8data = pure { s with
        grid := s.grid.withLine (s.grid.hsize + s.cy) gl'
        cx := s.cx + cellWidth gc utf8data } ∧
      gl.Drawn s.grid.sx s.cx (cellWidth gc utf8data) lo hi column gl' := by
  have hroom := h.room
  obtain ⟨gl, hgl⟩ := h.sound.whole.exists_row h.sound.rows.cursor
  obtain ⟨gl', lo, hi, hdraw, hdrawn⟩ := drawCharacter_row h.sound h.columns hgl hwidth (by omega) hcolumn
  refine ⟨gl, gl', lo, hi, hgl, ?_, hdrawn⟩
  rw [screenWriteCell_eq h.sound h.lines h.wraps h.inserts hpad (by omega) (by omega), h.saveLast_eq, pure_bind, wrapLine,
    overflows_of_fits (by omega), pure_bind, if_neg (by simp), pure_bind, hdraw]

/-- No character has a part of itself in the columns left, so nothing around it is made blank. -/
theorem Screen.CanAppend.drawn_kept {gl' : GridLine} {width lo hi : ℕ} (h : s.CanAppend n)
    (hgl : s.grid.row s.cy = some gl) (hdrawn : gl.Drawn s.grid.sx s.cx width lo hi column gl') {x : ℕ}
    (hx : x < s.cx ∨ s.cx + width ≤ x) : gl'.shown x = gl.shown x := by
  have hstart := hdrawn.start
  have hroom := hdrawn.room
  rcases hx with hx | hx
  · refine hdrawn.kept x (.inl ?_)
    by_contra hlo
    have hpad := hdrawn.left s.cx (by omega) le_rfl
    rw [h.free gl hgl s.cx le_rfl] at hpad
    cases hpad
  · refine hdrawn.kept x (.inr ?_)
    by_contra hhi
    have hpad := hdrawn.right x hx (by omega)
    rw [h.free gl hgl x (by omega)] at hpad
    cases hpad

/-- There are columns left after it. -/
theorem screenWriteCell_canAppend (h : s.CanAppend n) (hpad : gc.isPadding = false)
    (hcolumn : Drawable gc utf8data column) (hwidth : cellWidth gc utf8data = 1 ∨ cellWidth gc utf8data = 2)
    (hn : cellWidth gc utf8data ≤ n) : ∃ s', screenWriteCell s gc utf8data = pure s' ∧
      s'.cx = s.cx + cellWidth gc utf8data ∧ s'.CanAppend (n - cellWidth gc utf8data) := by
  have hroom := h.room
  obtain ⟨gl, gl', lo, hi, hgl, hwrite, hdrawn⟩ := screenWriteCell_drawn h hpad hcolumn hwidth hn
  have hstart := hdrawn.start
  refine ⟨_, hwrite, rfl, h.withLine ((screenWriteCell_backed h.backed gc utf8data).value (hwrite ▸ rfl)) (by omega) ?_
    fun x hx => ?_⟩
  · rcases Nat.eq_zero_or_pos s.cx with hzero | hpos
    · have hwritten := hdrawn.written
      rw [hzero] at hwritten
      rw [show gl'.cell 0 = column.1 from congrArg Prod.fst hwritten, hcolumn.cell, hpad]
    · rcases hdrawn.outside (.inl hpos) with hdefault | ⟨hkept, -⟩
      · rw [GridLine.cell_of_default hdefault]
        rfl
      · rw [GridLine.cell_of_shown hkept]
        exact h.first gl hgl
  · rcases hdrawn.outside (.inr hx) with hdefault | ⟨hkept, -⟩
    · rw [GridLine.cell_of_default hdefault]
      rfl
    · rw [GridLine.cell_of_shown hkept]
      exact h.free gl hgl x (by omega)

/-! ## Combining -/

section

variable {g : Grid} {r : ℕ} (h : g.Whole) (hr : r < g.sy) (hpx : px + 1 < Exec.word)

include h hr hpx

/-- The cell converted to UTF-8 data is padding if it was, and has its data. -/
theorem utf8Cell_padding (hgl : (gl.cell px).isUtf8 = true → ∃ gu, gl.utf8data[px]?.join = some gu) :
    ∃ gl' gu, utf8Cell (g.withLine (g.hsize + r) gl) px r (gl.cell px) =
        pure (g.withLine (g.hsize + r) gl', gl'.cell px) ∧
      gl'.utf8data[px]?.join = some gu ∧ (∀ x, (gl'.cell x).isPadding = (gl.cell x).isPadding) ∧
      ∀ x, x ≠ px → gl'.shown x = gl.shown x := by
  rw [utf8Cell]
  split_ifs with hutf8
  · obtain ⟨gu, hgu⟩ := hgl hutf8
    exact ⟨gl, gu, rfl, hgu, fun _ => rfl, fun _ _ => rfl⟩
  · dsimp only
    rw [gridViewSetUtf8_withLine h hr gl hpx, pure_bind, gridViewSetCell_withLine h hr _ hpx, pure_bind]
    set gc : GridCell := { gl.cell px with flags := (gl.cell px).flags ||| gridFlagUtf8 }
    refine ⟨(gl.setUtf8 px { width := 1, data := [(gl.cell px).data, 0xff] }).setCell px gc, _, ?_,
      by rw [GridLine.setCell_utf8data, GridLine.setUtf8_data, if_pos rfl], fun x => ?_, fun x hx => ?_⟩
    · rw [GridLine.setCell_cell, if_pos rfl]
    · rw [GridLine.setCell_cell]
      split_ifs with hx
      · rw [hx, GridCell.isPadding, flags_set (by decide)]
        rfl
      · rw [GridLine.setUtf8_cell]
    · refine GridLine.shown_congr ?_ ?_
      · rw [GridLine.setCell_cell, if_neg hx, GridLine.setUtf8_cell]
      · rw [GridLine.setCell_utf8data, GridLine.setUtf8_data, if_neg hx]

/-- The character put back combined is padding if it was. -/
theorem putCombined_padding (gl : GridLine) (gu : GridUtf8) (u : Utf8Data) :
    ∃ gl', putCombined (g.withLine (g.hsize + r) gl) px r (gl.cell px) gu u = pure (g.withLine (g.hsize + r) gl') ∧
      (∀ x, (gl'.cell x).isPadding = (gl.cell x).isPadding) ∧ ∀ x, x ≠ px → gl'.shown x = gl.shown x := by
  rw [putCombined]
  cases gridUtf8Append gu u with
  | some gu' =>
    dsimp only
    rw [gridViewSetUtf8_withLine h hr gl hpx]
    exact ⟨_, rfl, fun x => by rw [GridLine.setUtf8_cell], fun x hx =>
      GridLine.shown_congr (GridLine.setUtf8_cell _ _ _ _) (by rw [GridLine.setUtf8_data, if_neg hx])⟩
  | none =>
    dsimp only
    rw [gridViewSetCell_withLine h hr gl hpx, pure_bind, gridViewSetUtf8_withLine h hr _ hpx]
    refine ⟨_, rfl, fun x => ?_, fun x hx => GridLine.shown_congr ?_ ?_⟩
    · rw [GridLine.setUtf8_cell, GridLine.setCell_cell]
      split_ifs with hx
      · rw [hx, scrapCharacter]
        split_ifs
        · rw [GridCell.isPadding, flags_clear (by decide)]
          rfl
        · rfl
      · rfl
    · rw [GridLine.setUtf8_cell, GridLine.setCell_cell, if_neg hx]
    · rw [GridLine.setUtf8_data, if_neg hx, GridLine.setCell_utf8data]

end

/-- A zero-width character is combined and takes up no column. -/
theorem screenWriteCombine_canAppend (h : s.CanAppend n) (hsize : u.size ≠ 0) :
    ∃ s', screenWriteCombine s u = pure s' ∧ s'.cx = s.cx ∧ s'.CanAppend n ∧ s.Appended s' := by
  by_cases hzero : s.cx = 0
  · exact ⟨s, by rw [screenWriteCombine, if_pos hzero], rfl, h, .refl s⟩
  have hroom := h.room
  have hcolumns := h.columns
  have hwhole := h.sound.whole
  have hr := h.sound.rows.cursor
  have hpx : s.cx - 1 + 1 < Exec.word := by omega
  obtain ⟨gl, hgl⟩ := hwhole.exists_row hr
  obtain ⟨gl₁, gu, hconvert, hdata, hpad₁, hother₁⟩ := utf8Cell_padding hwhole hr hpx
    fun hutf8 : ((gridExpandLine gl (s.cx - 1 + 1)).cell (s.cx - 1)).isUtf8 = true => by
      rw [gridExpandLine_cell] at hutf8
      obtain ⟨gu, hgu⟩ := h.backed gl (List.mem_of_getElem? hgl) _ hutf8
      exact ⟨gu, by rw [gridExpandLine_utf8data, hgu]; rfl⟩
  obtain ⟨gl₂, hput, hpad₂, hother₂⟩ :=
    putCombined_padding hwhole hr hpx (gridExpandLineUtf8 gl₁ (s.cx - 1 + 1)) gu u
  rw [gridExpandLine_cell] at hconvert
  rw [gridExpandLineUtf8_cell] at hput
  have hwrite : screenWriteCombine s u = pure { s with grid := s.grid.withLine (s.grid.hsize + s.cy) gl₂ } := by
    rw [screenWriteCombine, if_neg hzero, if_neg hsize, gridViewGetCell_row hwhole hr hgl hpx, pure_bind,
      Exec.follow_some, pure_bind]
    dsimp only
    rw [hconvert, pure_bind]
    dsimp only
    rw [gridViewGetUtf8_withLine hwhole hr gl₁ hpx, pure_bind, Exec.follow_some, pure_bind, hdata]
    dsimp only
    rw [Exec.follow_some, pure_bind, hput, pure_bind]
  have hpad : ∀ x, (gl₂.cell x).isPadding = (gl.cell x).isPadding := fun x => by
    rw [hpad₂, gridExpandLineUtf8_cell, hpad₁, gridExpandLine_cell]
  have hbacked := (screenWriteCombine_backed h.backed u).value (by rw [hwrite, Exec.value?_pure])
  refine ⟨_, hwrite, rfl, h.withLine hbacked hroom ?_ fun x hx => ?_, h.appended hgl le_rfl fun x hx => ?_⟩
  · rw [hpad]
    exact h.first gl hgl
  · rw [hpad]
    exact h.free gl hgl x hx
  · have hne : x ≠ s.cx - 1 := by omega
    rw [hother₂ x hne, GridLine.shown_congr (gridExpandLineUtf8_cell gl₁ _ x) (gridExpandLineUtf8_data gl₁ _ x),
      hother₁ x hne]
    exact GridLine.shown_congr (gridExpandLine_cell gl _ x) (by rw [gridExpandLine_utf8data])

/-! ## Writing text -/

/-- A cell that a text is written with: its data is complete, and it is one or two columns wide or
    combined. -/
structure Writable (cell : GridCell × Option Utf8Data) : Prop where
  isPadding : cell.1.isPadding = false
  data : cell.1.isUtf8 = true → ∃ u, cell.2 = some u ∧ u.size ≠ 0 ∧ u.size ≤ utf8Size ∧ u.width ≤ 2

theorem Writable.drawable (h : Writable (gc, utf8data)) : ∃ column, Drawable gc utf8data column := by
  cases hutf8 : gc.isUtf8 with
  | false => exact ⟨_, .byte hutf8⟩
  | true =>
    obtain ⟨u, rfl, hsize, hmax, -⟩ := h.data hutf8
    exact ⟨_, .character hutf8 (by rw [gridUtf8Set, if_neg hsize, if_neg (not_lt.2 hmax)])⟩

theorem screenWriteCell_writable {cell : GridCell × Option Utf8Data} (h : s.CanAppend n) (hcell : Writable cell)
    (hn : writtenWidth cell ≤ n) : ∃ s', screenWriteCell s cell.1 cell.2 = pure s' ∧
      s'.cx = s.cx + writtenWidth cell ∧ s'.CanAppend (n - writtenWidth cell) ∧ s.Appended s' := by
  obtain ⟨gc, utf8data⟩ := cell
  have hpad := hcell.isPadding
  have hwidth : writtenWidth (gc, utf8data) = cellWidth gc utf8data := if_neg (by simpa using hpad)
  obtain ⟨column, hcolumn⟩ := hcell.drawable
  rw [hwidth] at hn ⊢
  by_cases hzero : cellWidth gc utf8data = 0
  · -- It is a UTF-8 character, a byte being one column wide.
    have hutf8 : gc.isUtf8 = true := by
      by_contra hbyte
      rw [cellWidth, if_neg hbyte] at hzero
      cases hzero
    obtain ⟨u, rfl, hsize, -, -⟩ := hcell.data hutf8
    have huwidth : u.width = 0 := by
      rw [cellWidth, if_pos hutf8] at hzero
      exact hzero
    obtain ⟨s', hcombine, hcx, hs', happended⟩ := screenWriteCombine_canAppend h hsize
    refine ⟨s', ?_, by rw [hcx, hzero, Nat.add_zero], by rwa [hzero, Nat.sub_zero], happended⟩
    rw [screenWriteCell, if_neg (by simpa using hpad), characterWidth, if_pos hutf8, Exec.follow_some, pure_bind,
      pure_bind, huwidth, lacksRoom_of_fits (by have := h.room; omega), pure_bind, if_neg (by simp), if_pos rfl, pure_bind,
      hcombine]
  · have honeTwo : cellWidth gc utf8data = 1 ∨ cellWidth gc utf8data = 2 := by
      cases hutf8 : gc.isUtf8 with
      | false => exact .inl (if_neg (by simp [hutf8]))
      | true =>
        obtain ⟨u, rfl, -, -, hmax⟩ := hcell.data hutf8
        rw [cellWidth, if_pos hutf8, Option.map_some, Option.getD_some] at hzero ⊢
        omega
    obtain ⟨s', hwrite, hcx, hs'⟩ := screenWriteCell_canAppend h hpad hcolumn honeTwo hn
    obtain ⟨gl, gl', lo, hi, hgl, hwrite', hdrawn⟩ := screenWriteCell_drawn h hpad hcolumn honeTwo hn
    obtain rfl := Exec.pure_injective (hwrite.symm.trans hwrite')
    exact ⟨_, hwrite, hcx, hs', h.appended hgl (Nat.le_add_right _ _) fun x hx => h.drawn_kept hgl hdrawn (.inr hx)⟩

/-- Cells are written one after the other, each to the next columns. -/
theorem writeCells_append {cells : List (GridCell × Option Utf8Data)} (h : s.CanAppend n)
    (hcells : ∀ cell ∈ cells, Writable cell) (hn : columns cells ≤ n) :
    ∃ s', writeCells s cells = pure s' ∧ s'.cx = s.cx + columns cells ∧ s'.CanAppend (n - columns cells) ∧
      s.Appended s' := by
  induction cells generalizing s n with
  | nil => exact ⟨s, rfl, rfl, h, .refl s⟩
  | cons cell cells ih =>
    rw [columns_cons] at hn ⊢
    obtain ⟨s₁, hcell, hcx₁, h₁, happended₁⟩ := screenWriteCell_writable h (hcells cell List.mem_cons_self) (by omega)
    obtain ⟨s₂, hrest, hcx₂, h₂, happended₂⟩ :=
      ih h₁ (fun cell hcell => hcells cell (List.mem_cons_of_mem _ hcell)) (by omega)
    refine ⟨s₂, by rw [writeCells_cons, hcell, pure_bind, hrest], by omega, ?_, happended₁.trans happended₂⟩
    rwa [Nat.sub_sub] at h₂

/-! ## Characters of a string -/

/-- The width of a character is the one assigned to its value. -/
theorem utf8Width_eq (u : Utf8Data) : utf8Width u = assignedWidth utf8WidthTable (utf8Combine u) :=
  lookupWidth_utf8Build utf8Build_table (fun item hitem => (utf8WidthTable_bounds item hitem).2) utf8WidthTable_apart _

/-- No character is wider than two columns. -/
theorem utf8Width_le (u : Utf8Data) : utf8Width u ≤ 2 := by
  have hall : utf8WidthTable.all (fun item => item.width ≤ 2) = true := by decide +kernel
  rw [utf8Width_eq, assignedWidth]
  cases hfind : utf8WidthTable.find? (·.has (utf8Combine u)) with
  | none => exact Nat.le_succ 1
  | some item => exact of_decide_eq_true (List.all_eq_true.1 hall item (List.mem_of_find?_eq_some hfind))

/-- All characters of a string can be written. -/
theorem characters_writable {defgc : Option GridCell} {utf8flag : Bool} {cell : GridCell × Option Utf8Data}
    {msg : List UInt8} (hgc : gc.Plain) (hcell : cell ∈ charactersFrom defgc utf8flag n msg gc) : Writable cell := by
  induction n generalizing msg gc with
  | zero => cases hcell
  | succ n ih =>
    cases msg with
    | nil => cases hcell
    | cons ch ptr =>
      rw [charactersFrom] at hcell
      rcases hstyle : embeddedStyle defgc gc ch ptr with _ | _ | ⟨gc', rest⟩
      · rw [hstyle] at hcell
        dsimp only at hcell
        rcases readCharacter_cases utf8flag ch with hread | ⟨size, htwo, hfour, -, -, hread⟩
        · rw [hread, Exec.value?_pure] at hcell
          rcases List.mem_cons.1 hcell with rfl | hcell
          · exact ⟨hgc.isPadding, fun hutf8 => absurd hutf8 (by simpa using (hgc.withData ch).isUtf8)⟩
          · exact ih (hgc.withData ch) hcell
        · rw [hread, Exec.value?_pure] at hcell
          split_ifs at hcell with hshort
          · cases hcell
          · rcases List.mem_cons.1 hcell with rfl | hcell
            · refine ⟨?_, fun _ => ⟨_, rfl, by dsimp only; omega, by dsimp only; rw [utf8Size]; omega,
                by dsimp only; exact utf8Width_le _⟩⟩
              dsimp only
              rw [GridCell.isPadding, flags_set (by decide)]
              exact hgc.isPadding
            · exact ih hgc.cleared hcell
      · rw [hstyle] at hcell
        cases hcell
      · rw [hstyle] at hcell
        exact ih (embeddedStyle_plain hgc hstyle) hcell

/-- A string without a limit is written in as many columns as its characters have. -/
theorem nputsFrom_append {defgc : Option GridCell} {maxlen : ℤ} (hmaxlen : maxlen ≤ 0) (h : s.CanAppend n)
    (utf8flag : Bool) (msg : List UInt8) (hgc : gc.Plain)
    (hn : columns (characters defgc utf8flag msg gc) ≤ n) :
    ∃ s', nputsFrom defgc maxlen utf8flag msg.length msg 0 gc s = pure s' ∧
      s'.cx = s.cx + columns (characters defgc utf8flag msg gc) := by
  obtain ⟨s', hwrite, hcx, -, -⟩ := writeCells_append h (fun cell hcell => characters_writable hgc hcell) hn
  exact ⟨s', (nputsFrom_unlimited hmaxlen utf8flag msg.length msg 0 gc s).trans hwrite, hcx⟩

/-! ## Strings within a limit -/

theorem columns_replicate (n : ℕ) (cell : GridCell × Option Utf8Data) :
    columns (List.replicate n cell) = n * writtenWidth cell := by
  rw [columns, List.map_replicate, List.sum_replicate_nat]

/-- What is written of a text within a limit can be written if the text can, since the blanks take up a column each. -/
theorem WithinLimit.writable {limit : ℕ} {text written : List (GridCell × Option Utf8Data)}
    (h : WithinLimit limit text written) (htext : ∀ cell ∈ text, Writable cell) : ∀ cell ∈ written, Writable cell := by
  obtain ⟨p, fill, hp, rfl⟩ := h.fitting
  have htotal := h.total
  rw [columns_append, columns_replicate] at htotal
  refine List.forall_mem_append.2 ⟨fun cell hcell => htext cell (hp.initial.subset hcell), fun cell hcell => ?_⟩
  obtain ⟨hsome, rfl⟩ := List.mem_replicate.1 hcell
  have hwidth : writtenWidth ({ fill with data := 32 }, none) = 1 := by
    refine Nat.eq_of_mul_eq_mul_left (Nat.pos_of_ne_zero hsome) ?_
    rw [Nat.mul_one]
    omega
  rw [writtenWidth] at hwidth
  split_ifs at hwidth with hpad
  refine ⟨by simpa using hpad, fun hutf8 => ?_⟩
  rw [cellWidth, if_pos hutf8] at hwidth
  cases hwidth

/-- A string is written within a limit that is not zero, or if it has no columns. -/
theorem screenWriteVnputs_append {maxlen : ℕ} (h : s.CanAppend n) (utf8flag : Bool) (msg : List UInt8) (hgc : gc.Plain)
    (hpos : 0 < maxlen ∨ columns (characters none utf8flag msg gc) = 0)
    (hn : min (columns (characters none utf8flag msg gc)) maxlen ≤ n) :
    ∃ s', screenWriteVnputs s maxlen gc utf8flag msg = pure s' ∧
      s'.cx = s.cx + min (columns (characters none utf8flag msg gc)) maxlen ∧
      s'.CanAppend (n - min (columns (characters none utf8flag msg gc)) maxlen) ∧ s.Appended s' := by
  obtain ⟨written, hwithin, hrun⟩ := ((nputsFrom_iff hgc (by simp) maxlen utf8flag msg).2 hpos).cells
  rw [← hwithin.total] at hn ⊢
  obtain ⟨s', hwrite, hs'⟩ :=
    writeCells_append h (hwithin.writable fun cell hcell => characters_writable hgc hcell) hn
  exact ⟨s', (hrun s).trans hwrite, hs'⟩

/-! ## Bytes -/

/-- The cells of bytes that are characters each. -/
def byteCells (gc : GridCell) (text : List UInt8) : List (GridCell × Option Utf8Data) :=
  text.map fun data => ({ gc with data }, none)

/-- Of a string of ASCII characters those within the limit are written. -/
theorem nputsFrom_ascii {text : List UInt8} {maxlen size : ℕ} (utf8flag : Bool) (htext : ∀ b ∈ text, b ≤ 0x7f)
    (hn : text.length ≤ n) (hpos : 0 < maxlen ∨ text = []) (gc : GridCell) (s : Screen) :
    nputsFrom none maxlen utf8flag n text size gc s = writeCells s (byteCells gc (text.take (maxlen - size))) := by
  induction text generalizing n size gc s with
  | nil =>
    rw [List.take_nil]
    cases n <;> rfl
  | cons ch ptr ih =>
    rw [List.length_cons] at hn
    obtain ⟨k, rfl⟩ := Nat.exists_eq_add_of_lt (by omega : 0 < n)
    have hlow : ¬(utf8flag && ch > 0x7f) = true := by
      have := htext ch List.mem_cons_self
      simpa using fun _ => this
    have hlimit : 0 < maxlen := hpos.resolve_right (List.cons_ne_nil ch ptr)
    rw [nputsFrom, readCharacter, if_neg hlow]
    dsimp only [embeddedStyle]
    rw [pure_bind]
    dsimp only
    by_cases hfull : maxlen < size + 1
    · rw [if_pos (by omega), show maxlen - size = 0 by omega]
      rfl
    · rw [if_neg (by omega), show maxlen - size = maxlen - (size + 1) + 1 by omega, List.take_succ_cons, byteCells,
        List.map_cons, writeCells_cons]
      refine bind_congr fun s₁ => ?_
      exact ih (fun b hb => htext b (List.mem_cons_of_mem _ hb)) (by omega) (.inl hlimit) _ s₁

/-- The characters of a string of ASCII characters are its bytes. -/
theorem charactersFrom_bytes {text : List UInt8} (utf8flag : Bool) (htext : ∀ b ∈ text, b ≤ 0x7f)
    (hn : text.length ≤ n) (gc : GridCell) : charactersFrom none utf8flag n text gc = byteCells gc text := by
  induction text generalizing n gc with
  | nil => cases n <;> rfl
  | cons ch ptr ih =>
    rw [List.length_cons] at hn
    obtain ⟨k, rfl⟩ := Nat.exists_eq_add_of_lt (by omega : 0 < n)
    have hlow : ¬(utf8flag && ch > 0x7f) = true := by
      have := htext ch List.mem_cons_self
      simpa using fun _ => this
    rw [charactersFrom, readCharacter, if_neg hlow]
    exact congrArg (_ :: ·) (ih (fun b hb => htext b (List.mem_cons_of_mem _ hb)) (by omega) { gc with data := ch })

theorem columns_bytes (hgc : gc.Plain) (text : List UInt8) : columns (byteCells gc text) = text.length := by
  induction text with
  | nil => rfl
  | cons ch ptr ih =>
    rw [List.length_cons, Nat.add_comm, ← ih, byteCells, List.map_cons, columns_cons, hgc.width]
    rfl

/-- A string of ASCII characters has as many columns as bytes. -/
theorem screenWriteStrlen_ascii (utf8flag : Bool) {text : List UInt8} (htext : ∀ b ∈ text, b ≤ 0x7f) :
    screenWriteStrlen utf8flag text = pure text.length := by
  rw [screenWriteStrlen_columns utf8flag text gridDefaultCell_plain, characters,
    charactersFrom_bytes utf8flag htext le_rfl, columns_bytes gridDefaultCell_plain]

/-- Bytes are written to the columns from the cursor on, and nothing else changes in the row. -/
theorem writeCells_bytes {text : List UInt8} (h : s.CanAppend n) (hgc : gc.Plain) (hn : text.length ≤ n) :
    ∃ s', writeCells s (byteCells gc text) = pure s' ∧ s'.cx = s.cx + text.length ∧
      s'.CanAppend (n - text.length) ∧ s.Appended s' ∧
      (∀ x < s.cx, s'.grid.shown x s.cy = s.grid.shown x s.cy) ∧
      ∀ i b, text[i]? = some b → s'.grid.shown (s.cx + i) s.cy = ({ gc with data := b }, none) := by
  induction text generalizing s n with
  | nil => exact ⟨s, rfl, rfl, h, .refl s, fun _ _ => rfl, fun i b hb => by simp at hb⟩
  | cons ch ptr ih =>
    rw [List.length_cons] at hn ⊢
    have hplain := hgc.withData ch
    have hcell : Writable ({ gc with data := ch }, none) :=
      ⟨hplain.isPadding, fun hutf8 => absurd hutf8 (by simpa using hplain.isUtf8)⟩
    have hcolumn : Drawable { gc with data := ch } none ({ gc with data := ch }, none) := .byte hplain.isUtf8
    have hwidth : cellWidth { gc with data := ch } none = 1 := if_neg (by simp [hplain.isUtf8])
    obtain ⟨gl, gl', lo, hi, hgl, hwrite, hdrawn⟩ :=
      screenWriteCell_drawn h hplain.isPadding hcolumn (.inl hwidth) (hwidth.le.trans (by omega))
    obtain ⟨s₁, hwrite₁, hcx₁, h₁, happended₁⟩ := screenWriteCell_writable h hcell (hgc.width ch ▸ by omega)
    obtain rfl := Exec.pure_injective (hwrite.symm.trans hwrite₁)
    rw [hgc.width] at hcx₁ h₁
    have hrow := Grid.withLine_row_self h.sound.whole h.sound.rows.cursor gl'
    obtain ⟨s', hrest, hcx, hs', happended, hbefore, htext⟩ := ih h₁ (by omega)
    refine ⟨s', ?_, by omega, by rwa [Nat.sub_sub, Nat.add_comm 1] at hs', happended₁.trans happended, fun x hx => ?_,
      fun i b hb => ?_⟩
    · rw [byteCells, List.map_cons, writeCells_cons, hwrite, pure_bind]
      exact hrest
    · refine (hbefore x (by omega)).trans ?_
      rw [Grid.shown_of_row hgl, Grid.shown_of_row hrow]
      exact h.drawn_kept hgl hdrawn (.inl hx)
    · cases i with
      | zero =>
        obtain rfl := Option.some.inj hb
        refine (hbefore s.cx (by omega)).trans ?_
        rw [Grid.shown_of_row hrow]
        exact hdrawn.written
      | succ i =>
        have hshown := htext i b hb
        rw [hcx₁, Nat.add_right_comm] at hshown
        exact hshown

/-! ## New screens -/

/-- A new screen has all of its columns left, in the first row, and all its lines are blank. -/
theorem screenInit_canAppend {sx sy hlimit : ℕ} (hsx : 1 ≤ sx ∧ sx < Exec.word) (hsy : 1 ≤ sy)
    (hlines : hlimit + sy + 1 < Exec.word) (title : List UInt8) :
    ∃ s, screenInit title sx sy hlimit = pure s ∧ s.CanAppend sx ∧ s.cx = 0 ∧ s.cy = 0 ∧ s.grid.sx = sx ∧
      s.grid.sy = sy ∧ s.grid.hsize = 0 ∧ ∀ r < sy, s.grid.row r = some {} := by
  have hwhole : (gridCreate sx sy hlimit).Whole :=
    ⟨by simp [gridCreate], by simp only [gridCreate]; omega⟩
  obtain ⟨l, hclear, hlength, hl⟩ := gridClearLines_eq hwhole 0 sy (by simp [gridCreate])
  have hlast : usub (gridCreate sx sy hlimit).sy 1 = pure (sy - 1) := Exec.usub_of_le hsy
  have hclear' : gridClearLines (gridCreate sx sy hlimit) (gridCreate sx sy hlimit).hsize (gridCreate sx sy hlimit).sy =
      pure { gridCreate sx sy hlimit with linedata := l } := hclear
  have hinit : screenInit title sx sy hlimit = pure {
      title
      grid := { gridCreate sx sy hlimit with linedata := l }
      rlower := sy - 1
      mode := modeCursor ||| modeWrap
      tabs := (List.range sx).map fun i => i ≠ 0 ∧ i % 8 = 0 } := by
    unfold screenInit screenReinit screenResetTabs
    dsimp only
    rw [hlast, pure_bind, hclear', pure_bind]
    rfl
  have hrow : ∀ r < sy, l[0 + r]? = some {} := fun r hr => by rw [hl, if_pos (by omega)]
  have hblank : ∀ gl, l[0 + 0]? = some gl → ∀ x, (gl.cell x).isPadding = false := fun gl hgl x => by
    obtain rfl := Option.some.inj ((hrow 0 hsy).symm.trans hgl)
    rw [GridLine.cell_of_length_le (Nat.zero_le x)]
    rfl
  refine ⟨_, hinit, ?_, rfl, rfl, rfl, rfl, rfl, hrow⟩
  refine ⟨⟨⟨hsy, Nat.zero_le _, Nat.sub_lt hsy Nat.one_pos, fun htwo => Nat.sub_pos_of_lt htwo⟩, hsx.1,
    ⟨hlength.ge.trans' hwhole.length, hwhole.room⟩⟩, ?_, hlines, hsx.2, ?_, ?_, (Nat.zero_add sx).le,
    fun gl hgl => hblank gl hgl 0, fun gl hgl x _ => hblank gl hgl x⟩
  · exact (screenInit_backed title sx sy hlimit).value (by rw [hinit, Exec.value?_pure])
  · exact (by decide : ((modeCursor ||| modeWrap) &&& modeWrap != 0) = true)
  · exact (by decide : ((modeCursor ||| modeWrap) &&& modeInsert != 0) = false)

end Tmux
