import Mathlib.Data.List.TakeWhile
import Tmux.Grid.Rows
import Tmux.Screen.Characters
import Tmux.Screen.Erased
import Tmux.Screen.Text

/-!
# Combining characters

A zero-width character is combined onto the cell before the cursor
(`screenWriteCombine_row`): its bytes are added to those of this cell, or the cell is
replaced by underscores.

The character before the cursor has them (`Screen.Combined`) exactly if that cell is
neither the padding of a wide character nor the byte that ends UTF-8 data
(`screenWriteCombine_iff`).
-/

namespace Tmux

variable {s s' : Screen} {gl : GridLine} {g : Grid} {u : Utf8Data} {gu gu' : GridUtf8} {gc : GridCell} {px r : ℕ}

/-! ## Bytes of a column -/

/-- The bytes of UTF-8 data before the end of it. -/
def GridUtf8.bytes (gu : GridUtf8) : List UInt8 := gu.data.takeWhile fun b => b ≠ 0xff

/-- The bytes that a column shows. -/
def shownBytes (column : GridCell × Option GridUtf8) : List UInt8 :=
  (column.2.map GridUtf8.bytes).getD [column.1.data]

/-- The width of what a column shows. -/
def shownWidth (column : GridCell × Option GridUtf8) : ℕ := (column.2.map fun gu => gu.width.toNat).getD 1

/-- All characters of a line have their data, and are one or two columns wide. -/
def GridLine.HasCharacters (gl : GridLine) : Prop :=
  ∀ x, (gl.cell x).isUtf8 = true → ∃ gu, gl.utf8data[x]?.join = some gu ∧ gu.width.toNat ∈ [1, 2]

/-- A zero-width character: its bytes are all there, up to four of them. -/
structure Utf8Data.ZeroWidth (u : Utf8Data) : Prop where
  size : u.data.length = u.size
  pos : 1 ≤ u.size
  short : u.size ≤ 4
  bytes : 0xff ∉ u.data
  width : u.width = 0

theorem takeWhile_terminated {data : List UInt8} (h : 0xff ∉ data) :
    (terminated data).takeWhile (fun b => b ≠ 0xff) = data := by
  have hall : ∀ b ∈ data, decide (b ≠ 0xff) = true := fun b hb => decide_eq_true fun heq => h (heq ▸ hb)
  unfold terminated
  split_ifs
  · rw [List.takeWhile_append_of_pos hall]
    exact List.append_nil data
  · exact List.takeWhile_eq_self_iff.2 hall

theorem GridUtf8.bytes_end (gu : GridUtf8) : 0xff ∉ gu.bytes := fun h => by
  have hne := List.mem_takeWhile_imp h
  simp at hne

theorem GridUtf8.take_size (gu : GridUtf8) : gu.data.take (gridUtf8Size gu) = gu.bytes :=
  (List.prefix_iff_eq_take.1 (List.takeWhile_prefix _)).symm

/-- Data too long for more is not added to. -/
theorem gridUtf8Append_eq (gu : GridUtf8) (hu : u.ZeroWidth) :
    (gu.bytes.length + u.size ≤ utf8Size ∧
      ∃ gu', gridUtf8Append gu u = some gu' ∧ gu'.width = gu.width ∧ gu'.bytes = gu.bytes ++ u.data) ∨
    (utf8Size < gu.bytes.length + u.size ∧ gridUtf8Append gu u = none) := by
  rw [gridUtf8Append, GridUtf8.take_size, show gridUtf8Size gu = gu.bytes.length from rfl]
  split_ifs with hlong
  · exact .inr ⟨hlong, rfl⟩
  · refine .inl ⟨by omega, _, rfl, rfl, takeWhile_terminated ?_⟩
    rw [List.mem_append]
    exact fun h => h.elim gu.bytes_end hu.bytes

/-! ## The cell before the cursor -/

/-- Two cells with the same colours and attributes, and the same flags but for the one for UTF-8 data. -/
structure GridCell.SameStyle (gc gc' : GridCell) : Prop where
  attr : gc'.attr = gc.attr
  fg : gc'.fg = gc.fg
  bg : gc'.bg = gc.bg
  flags : gc'.flags &&& ~~~gridFlagUtf8 = gc.flags &&& ~~~gridFlagUtf8

theorem GridCell.SameStyle.trans {gc' gc'' : GridCell} (h : gc.SameStyle gc') (h' : gc'.SameStyle gc'') : gc.SameStyle gc'' :=
  ⟨h'.attr.trans h.attr, h'.fg.trans h.fg, h'.bg.trans h.bg, h'.flags.trans h.flags⟩

/-- A zero-width character is combined onto a character: a column has its bytes added to those of the
    character, or else underscores, in the same width and style. -/
structure CombinedOnto (u : Utf8Data) (text : List UInt8) (n : ℕ) (gc : GridCell)
    (column : GridCell × Option GridUtf8) : Prop where
  style : gc.SameStyle column.1
  width : shownWidth column = n
  bytes : shownBytes column = if text.length + u.size ≤ utf8Size then text ++ u.data else List.replicate n 95

/-- A column has the byte that ends UTF-8 data. -/
def GridLine.HasEnd (gl : GridLine) (px : ℕ) : Prop := (gl.cell px).isUtf8 = false ∧ (gl.cell px).data = 0xff

theorem GridLine.HasEnd.shownBytes_eq (h : gl.HasEnd px) : shownBytes (gl.shown px) = [0xff] := by
  rw [GridLine.shown, h.1]
  exact congrArg (fun b => [b]) h.2

/-- A column of a line is converted to UTF-8 data. Its byte is lost if it is the end of such data. -/
structure GridLine.Converted (gl : GridLine) (px : ℕ) (gl' : GridLine) (gc : GridCell) (gu : GridUtf8) : Prop where
  other : ∀ x, x ≠ px → gl'.shown x = gl.shown x
  cell : gl'.cell px = gc
  isUtf8 : gc.isUtf8 = true
  style : (gl.cell px).SameStyle gc
  data : gl'.utf8data[px]?.join = some gu
  width : gu.width.toNat = shownWidth (gl.shown px)
  narrow : gu.width.toNat ∈ [1, 2]
  kept : ¬ gl.HasEnd px → gu.bytes = shownBytes (gl.shown px)
  lost : gl.HasEnd px → gu.bytes = []

theorem GridCell.isUtf8_set (gc : GridCell) : ({ gc with flags := gc.flags ||| gridFlagUtf8 } : GridCell).isUtf8 = true := by
  rw [isUtf8, flags_or, bne_iff_ne]
  exact fun hzero => absurd (UInt8.or_eq_zero_iff.1 hzero).2 (by decide)

theorem GridCell.sameStyle_set (gc : GridCell) : gc.SameStyle { gc with flags := gc.flags ||| gridFlagUtf8 } :=
  ⟨rfl, rfl, rfl, flags_set (by decide) gc.flags⟩

theorem GridCell.isUtf8_clear (gc : GridCell) (data : UInt8) :
    ({ gc with data, flags := gc.flags &&& ~~~gridFlagUtf8 } : GridCell).isUtf8 = false := by
  rw [isUtf8, UInt8.and_assoc, UInt8.and_comm (~~~_), UInt8.and_not_self, UInt8.and_zero]
  rfl

theorem GridCell.sameStyle_clear (gc : GridCell) (data : UInt8) :
    gc.SameStyle { gc with data, flags := gc.flags &&& ~~~gridFlagUtf8 } :=
  ⟨rfl, rfl, rfl, by dsimp only; rw [UInt8.and_assoc, UInt8.and_self]⟩

section

variable (h : g.Whole) (hr : r < g.sy) (hpx : px + 1 < Exec.word)

include h hr hpx

/-- Converting the cell at a column of a line. -/
theorem utf8Cell_row (hrow : gl.HasCharacters) {gl₁ : GridLine} (hcells : ∀ x, gl₁.cell x = gl.cell x)
    (hdata : gl₁.utf8data = gl.utf8data) :
    ∃ gl' gc gu, utf8Cell (g.withLine (g.hsize + r) gl₁) px r (gl.cell px) = pure (g.withLine (g.hsize + r) gl', gc) ∧
      gl.Converted px gl' gc gu := by
  have hshown : ∀ x, gl₁.shown x = gl.shown x := fun x => GridLine.shown_congr (hcells x) (by rw [hdata])
  rw [utf8Cell]
  split_ifs with hutf8
  · obtain ⟨gu, hgu, hwidth⟩ := hrow px hutf8
    have hcolumn : gl.shown px = (gl.cell px, some gu) := by rw [GridLine.shown, if_pos hutf8, hgu]
    refine ⟨gl₁, gl.cell px, gu, rfl, fun x _ => hshown x, hcells px, hutf8, ⟨rfl, rfl, rfl, rfl⟩, by rw [hdata, hgu],
      by rw [hcolumn]; rfl, hwidth, fun _ => by rw [hcolumn]; rfl, fun hend => ?_⟩
    rw [hend.1] at hutf8
    cases hutf8
  · have hcolumn : gl.shown px = (gl.cell px, none) := by rw [GridLine.shown, if_neg hutf8]
    dsimp only
    rw [gridViewSetUtf8_withLine h hr gl₁ hpx, pure_bind, gridViewSetCell_withLine h hr _ hpx, pure_bind]
    refine ⟨_, _, { width := 1, data := [(gl.cell px).data, 0xff] }, rfl, fun x hx => ?_, ?_,
      GridCell.isUtf8_set _, GridCell.sameStyle_set _, ?_, by rw [hcolumn]; rfl, List.mem_cons_self, fun hend => ?_,
      fun hend => ?_⟩
    · rw [← hshown]
      refine GridLine.shown_congr ?_ ?_
      · rw [GridLine.setCell_cell, if_neg hx, GridLine.setUtf8_cell]
      · rw [GridLine.setCell_utf8data, GridLine.setUtf8_data, if_neg hx]
    · rw [GridLine.setCell_cell, if_pos rfl]
    · rw [GridLine.setCell_utf8data, GridLine.setUtf8_data, if_pos rfl]
    · have hne : (gl.cell px).data ≠ 0xff := fun heq => hend ⟨by simpa using hutf8, heq⟩
      rw [hcolumn, GridUtf8.bytes, List.takeWhile_cons_of_pos (by simpa using hne), List.takeWhile_cons_of_neg (by simp)]
      rfl
    · rw [GridUtf8.bytes, hend.2, List.takeWhile_cons_of_neg (by simp)]

/-- Putting a character converted to UTF-8 data back combined. -/
theorem putCombined_row (hu : u.ZeroWidth) {gl₁ : GridLine} {gc : GridCell} (hcell : gl₁.cell px = gc)
    (hutf8 : gc.isUtf8 = true) (hwidth : gu.width.toNat ∈ [1, 2]) :
    ∃ gl', putCombined (g.withLine (g.hsize + r) (gridExpandLineUtf8 gl₁ (px + 1))) px r gc gu u =
        pure (g.withLine (g.hsize + r) gl') ∧
      (∀ x, x ≠ px → gl'.shown x = gl₁.shown x) ∧ CombinedOnto u gu.bytes gu.width.toNat gc (gl'.shown px) := by
  have hexpand : ∀ x, (gridExpandLineUtf8 gl₁ (px + 1)).shown x = gl₁.shown x := fun x =>
    GridLine.shown_congr (gridExpandLineUtf8_cell gl₁ _ x) (gridExpandLineUtf8_data gl₁ _ x)
  rw [putCombined]
  rcases gridUtf8Append_eq gu hu with ⟨hfits, gu', happend, hwidth', hbytes⟩ | ⟨hlong, happend⟩
  · rw [happend]
    dsimp only
    rw [gridViewSetUtf8_withLine h hr _ hpx]
    refine ⟨_, rfl, fun x hx => ?_, ?_⟩
    · rw [← hexpand]
      exact GridLine.shown_congr (GridLine.setUtf8_cell _ _ _ _) (by rw [GridLine.setUtf8_data, if_neg hx])
    · have hcolumn : ((gridExpandLineUtf8 gl₁ (px + 1)).setUtf8 px gu').shown px = (gc, some gu') := by
        rw [GridLine.shown, GridLine.setUtf8_cell, gridExpandLineUtf8_cell, hcell, if_pos hutf8, GridLine.setUtf8_data,
          if_pos rfl]
      rw [hcolumn]
      exact ⟨⟨rfl, rfl, rfl, rfl⟩, congrArg UInt8.toNat hwidth', by rw [if_pos hfits]; exact hbytes⟩
  · rw [happend]
    dsimp only
    rw [gridViewSetCell_withLine h hr _ hpx, pure_bind, gridViewSetUtf8_withLine h hr _ hpx]
    refine ⟨_, rfl, fun x hx => ?_, ?_⟩
    · rw [← hexpand]
      refine GridLine.shown_congr ?_ ?_
      · rw [GridLine.setUtf8_cell, GridLine.setCell_cell, if_neg hx]
      · rw [GridLine.setUtf8_data, if_neg hx, GridLine.setCell_utf8data]
    · have hcolumn : (((gridExpandLineUtf8 gl₁ (px + 1)).setCell px (scrapCharacter gc gu).1).setUtf8 px
          (scrapCharacter gc gu).2).shown px = ((scrapCharacter gc gu).1,
            if (scrapCharacter gc gu).1.isUtf8 then some (scrapCharacter gc gu).2 else none) := by
        rw [GridLine.shown, GridLine.setUtf8_cell, GridLine.setCell_cell, if_pos rfl, GridLine.setUtf8_data, if_pos rfl]
      have hfits : ¬ gu.bytes.length + u.size ≤ utf8Size := by omega
      rw [hcolumn, scrapCharacter]
      by_cases hone : gu.width = 1
      · rw [if_pos hone, GridCell.isUtf8_clear, if_neg (by simp)]
        refine ⟨GridCell.sameStyle_clear gc 95, by rw [hone]; rfl, ?_⟩
        rw [if_neg hfits, hone]
        rfl
      · have htwo : gu.width = 2 := by
          rw [← UInt8.toNat_inj]
          have hne : gu.width.toNat ≠ 1 := fun heq => hone (UInt8.toNat_inj.1 heq)
          simp only [List.mem_cons, List.not_mem_nil, or_false] at hwidth
          exact hwidth.resolve_left hne
        rw [if_neg hone, hutf8, if_pos rfl, htwo]
        refine ⟨⟨rfl, rfl, rfl, rfl⟩, rfl, ?_⟩
        rw [if_neg hfits]
        rfl

end

/-! ## Combining -/

/-- Combining a zero-width character changes the cell before the cursor only. -/
theorem screenWriteCombine_row (h : s.Sound) (hpos : 0 < s.cx) (hcx : s.cx < Exec.word)
    (hgl : s.grid.row s.cy = some gl) (hrow : gl.HasCharacters) (hu : u.ZeroWidth) :
    ∃ gl' gl₁ gc gu, screenWriteCombine s u = pure { s with grid := s.grid.withLine (s.grid.hsize + s.cy) gl' } ∧
      gl.Converted (s.cx - 1) gl₁ gc gu ∧
      (∀ x, x ≠ s.cx - 1 → gl'.shown x = gl.shown x) ∧
      CombinedOnto u gu.bytes gu.width.toNat gc (gl'.shown (s.cx - 1)) := by
  have hr := h.rows.cursor
  have hpx : s.cx - 1 + 1 < Exec.word := by omega
  have hsize := hu.pos
  obtain ⟨gl₁, gc, gu, hconvert, hconverted⟩ := utf8Cell_row h.whole hr hpx hrow
    (gridExpandLine_cell gl (s.cx - 1 + 1)) (gridExpandLine_utf8data gl _)
  obtain ⟨gl', hput, hother, hcombined⟩ := putCombined_row h.whole hr hpx hu hconverted.cell hconverted.isUtf8
    hconverted.narrow
  refine ⟨gl', gl₁, gc, gu, ?_, hconverted, fun x hx => (hother x hx).trans (hconverted.other x hx), hcombined⟩
  rw [screenWriteCombine, if_neg (by omega), if_neg (by omega), gridViewGetCell_row h.whole hr hgl hpx, pure_bind,
    Exec.follow_some, pure_bind]
  dsimp only
  rw [hconvert, pure_bind]
  dsimp only
  rw [gridViewGetUtf8_withLine h.whole hr gl₁ hpx, pure_bind, Exec.follow_some, pure_bind, hconverted.data]
  dsimp only
  rw [Exec.follow_some, pure_bind, hput, pure_bind]

/-- A zero-width character is combined onto the last character before the cursor. -/
structure Screen.Combined (u : Utf8Data) (s s' : Screen) : Prop where
  redrawn : s.Redrawn s'
  character : ∃ x < s.cx, (s.grid.shown x s.cy).1.isPadding = false ∧
    (∀ y, x < y → y < s.cx → (s.grid.shown y s.cy).1.isPadding = true) ∧
    CombinedOnto u (shownBytes (s.grid.shown x s.cy)) (shownWidth (s.grid.shown x s.cy)) (s.grid.shown x s.cy).1
      (s'.grid.shown x s.cy) ∧
    ∀ y, y ≠ x → s'.grid.shown y s.cy = s.grid.shown y s.cy

/-- What a column shows after a zero-width character is combined onto it is something else. -/
theorem CombinedOnto.ne {gl₁ : GridLine} (h : CombinedOnto u gu.bytes gu.width.toNat gc (gl.shown px))
    (hgl : gl.Converted px gl₁ gc gu) (hu : u.ZeroWidth) : False := by
  have hbytes := h.bytes
  have hsize := hu.size
  have hpos := hu.pos
  have hshort := hu.short
  by_cases hend : gl.HasEnd px
  · rw [hgl.lost hend, hend.shownBytes_eq, if_pos (by rw [List.length_nil, utf8Size]; omega), List.nil_append] at hbytes
    exact hu.bytes (hbytes ▸ List.mem_singleton_self _)
  · rw [hgl.kept hend] at hbytes
    have hlength := congrArg List.length hbytes
    split_ifs at hlength with hfits
    · rw [List.length_append] at hlength
      omega
    · have hnarrow := hgl.narrow
      simp only [List.mem_cons, List.not_mem_nil, or_false] at hnarrow
      rw [List.length_replicate] at hlength
      rw [utf8Size] at hfits
      omega

/-- A zero-width character is combined onto the last character before the cursor exactly if the cell
    there is not padding, and not the byte that ends UTF-8 data. -/
theorem screenWriteCombine_iff (h : s.Sound) (hpos : 0 < s.cx) (hcx : s.cx < Exec.word)
    (hgl : s.grid.row s.cy = some gl) (hrow : gl.HasCharacters) (hu : u.ZeroWidth) :
    (∃ s', screenWriteCombine s u = pure s' ∧ s.Combined u s') ↔
      (gl.cell (s.cx - 1)).isPadding = false ∧ ¬ gl.HasEnd (s.cx - 1) := by
  obtain ⟨gl', gl₁, gc, gu, hrun, hconverted, hother, hcombined⟩ :=
    screenWriteCombine_row h hpos hcx hgl hrow hu
  have hshown : ∀ x, s.grid.shown x s.cy = gl.shown x := fun x => by rw [Grid.shown, hgl, Option.getD_some]
  have hshown' : ∀ x, (s.grid.withLine (s.grid.hsize + s.cy) gl').shown x s.cy = gl'.shown x := fun x => by
    rw [Grid.shown, Grid.withLine_row_self h.whole h.rows.cursor, Option.getD_some]
  have hpadding : ∀ x, (gl.shown x).1 = gl.cell x := fun x => rfl
  constructor
  · rintro ⟨s', hrun', hdone⟩
    obtain rfl := Exec.pure_injective (hrun.symm.trans hrun')
    obtain ⟨x, hx, hchar, hbetween, honto, hrest⟩ := hdone.character
    simp only [hshown, hshown', hpadding] at hchar hbetween honto hrest
    have hlast : x = s.cx - 1 := by
      by_contra hne
      have hsame := hrest (s.cx - 1) (Ne.symm hne)
      rw [hsame] at hcombined
      exact hcombined.ne hconverted hu
    subst hlast
    refine ⟨hchar, fun hend => ?_⟩
    -- The byte is lost, but was to be there still.
    have hbytes := honto.bytes
    have hsize := hu.size
    have hshort := hu.short
    rw [hcombined.bytes, hconverted.lost hend, hend.shownBytes_eq] at hbytes
    have hlength := congrArg List.length hbytes
    rw [if_pos (by rw [List.length_nil, utf8Size]; omega), if_pos (by rw [List.length_singleton, utf8Size]; omega),
      List.length_append, List.length_append, List.length_nil, List.length_singleton] at hlength
    omega
  · rintro ⟨hchar, hend⟩
    refine ⟨_, hrun, ⟨_, ?_, rfl⟩, s.cx - 1, by omega, ?_⟩
    · rw [Grid.RowEdited, gridViewY_eq h.whole h.rows.cursor.le]
      exact s.grid.withLine_edited _ gl'
    · simp only [hshown, hshown', hpadding]
      refine ⟨hchar, fun y hy hlt => by omega, ⟨hconverted.style.trans hcombined.style, ?_, ?_⟩, hother⟩
      · rw [hcombined.width, hconverted.width]
      · rw [hcombined.bytes, hconverted.kept hend, hconverted.width]

/-- The combining acute accent. -/
def acute : Utf8Data := { data := [0xcc, 0x81], size := 2 }

theorem acute_zeroWidth : acute.ZeroWidth := by constructor <;> decide

/-- A screen with a letter before the cursor. -/
def letterScreen : Screen := screenOfText 4 1 1 0 [[101]]

theorem letterScreen_sound : letterScreen.Sound :=
  ⟨⟨by decide, by decide, by decide, by decide⟩, by decide, by decide, by decide⟩

/-- An accent after a letter is combined onto it. -/
theorem screenWriteCombine_letter : ∃ s', screenWriteCombine letterScreen acute = pure s' ∧
    letterScreen.Combined acute s' := by
  have hrow : (lineOfText [101]).HasCharacters := fun x hx => by
    rcases x with _ | x
    · cases hx
    · rw [GridLine.cell_of_length_le (by simp [lineOfText])] at hx
      cases hx
  exact (screenWriteCombine_iff letterScreen_sound (by decide) (by decide) rfl hrow acute_zeroWidth).2
    ⟨rfl, fun hend => absurd hend.2 (by decide)⟩

/-- A screen with a wide character before the cursor. -/
def wideScreen : Screen where
  grid := {
    sx := 4
    sy := 1
    hlimit := 0
    linedata := [{
      celldata := [{ flags := gridFlagUtf8 }, { flags := gridFlagPadding }]
      utf8data := [some { width := 2, data := [0xe4, 0xb8, 0x80, 0xff] }] }] }
  cx := 2
  mode := modeWrap

/-- An accent after a wide character is combined onto its padding. -/
theorem screenWriteCombine_wide : ¬ ∃ s', screenWriteCombine wideScreen acute = pure s' ∧
    wideScreen.Combined acute s' := by
  rintro ⟨s', hrun, hdone⟩
  obtain ⟨x, hx, hchar, -, -, hrest⟩ := hdone.character
  obtain rfl := Exec.pure_injective ((show screenWriteCombine wideScreen acute = pure _ from rfl).symm.trans hrun)
  obtain rfl : x = 0 := by
    rcases x with _ | _ | x
    · rfl
    · cases hchar
    · exact absurd hx (by simp [wideScreen])
  exact absurd (hrest 1 (by decide)) (by decide)

end Tmux
