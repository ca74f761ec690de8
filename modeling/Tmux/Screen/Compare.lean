import Tmux.Grid.Data
import Tmux.Library.Scan
import Tmux.Screen.Combined

/-!
# Comparing grids

Two grids without history are compared line by line and cell by cell (`gridCompare`), as they are stored: by the
numbers of cells of their lines, and by all bytes of their cells and of their UTF-8 data. A cell past the end of
a line is read as well, and so is a line that only the first grid has, as the numbers of lines are not compared.

The grids show the same (`Grid.ShowsSame`) if they have the same size and each position shows the same
character in the same style. When the comparison tells this is said in terms of how they are stored
(`gridCompare_iff`).
-/

namespace Tmux

/-! ## Comparing -/

/-- Whether two lines differ in a column. -/
def cellsDiffer (gla glb : GridLine) (xx : ℕ) : Exec Bool := do
  let gca ← Block.load gla.celldata xx
  let gcb ← Block.load glb.celldata xx
  if gca ≠ gcb then pure true
  else if !gca.isUtf8 then pure false
  else do
    let gua ← Block.load gla.utf8data xx
    let gub ← Block.load glb.utf8data xx
    pure (gua ≠ gub)

/-- Whether two lines differ in their numbers of cells, or in one of `sx` columns. -/
def lineDiffers (sx : ℕ) (gla glb : GridLine) : Exec Bool :=
  if gla.celldata.length ≠ glb.celldata.length then pure true else (List.range sx).anyM (cellsDiffer gla glb)

/-- Whether two grids differ in a line. -/
def linesDiffer (ga gb : Grid) (yy : ℕ) : Exec Bool := do
  let gla ← Block.load ga.linedata yy
  let glb ← Block.load gb.linedata yy
  lineDiffers ga.sx gla glb

/-- Compare grids. Nothing is compared for the second number of lines. -/
def gridCompare (ga gb : Grid) : Exec ℕ :=
  if ga.sx ≠ gb.sx ∨ ga.sy ≠ ga.sy then pure 1
  else do
    let differ ← (List.range ga.sy).anyM (linesDiffer ga gb)
    pure (if differ then 1 else 0)

/-- Whether the status line is redrawn, by its grid and the one before. -/
def statusRedrawn (grid oldGrid : Grid) : Exec ℕ := do
  let n ← gridCompare grid oldGrid
  if n = 0 then pure 0 else pure 1

/-! ## What is stored and what is shown -/

/-- A grid without history as it is stored: the UTF-8 data of a cell is all there, and has as many bytes as it has
    room for, also those after its end. -/
structure StoredGrid where
  grid : Grid
  hsize : grid.hsize = 0
  lines : grid.linedata.length = grid.sy
  backed : grid.Every GridLine.Backed
  whole : grid.Every fun gl => ∀ gu, some gu ∈ gl.utf8data → gu.data.length = utf8Size

/-- Two columns show the same character in the same style. -/
structure ShownSame (a b : GridCell × Option GridUtf8) : Prop where
  attr : a.1.attr = b.1.attr
  flags : a.1.flags = b.1.flags
  fg : a.1.fg = b.1.fg
  bg : a.1.bg = b.1.bg
  bytes : shownBytes a = shownBytes b

/-- Two grids show the same. -/
structure Grid.ShowsSame (ga gb : Grid) : Prop where
  sx : ga.sx = gb.sx
  sy : ga.sy = gb.sy
  shown : ∀ y < ga.sy, ∀ x < ga.sx, ShownSame (ga.shown x y) (gb.shown x y)

instance (a b : GridCell × Option GridUtf8) : Decidable (ShownSame a b) :=
  decidable_of_iff (a.1.attr = b.1.attr ∧ a.1.flags = b.1.flags ∧ a.1.fg = b.1.fg ∧ a.1.bg = b.1.bg ∧
    shownBytes a = shownBytes b)
    ⟨fun h => ⟨h.1, h.2.1, h.2.2.1, h.2.2.2.1, h.2.2.2.2⟩, fun h => ⟨h.attr, h.flags, h.fg, h.bg, h.bytes⟩⟩

instance (ga gb : Grid) : Decidable (ga.ShowsSame gb) :=
  decidable_of_iff (ga.sx = gb.sx ∧ ga.sy = gb.sy ∧
    ∀ y < ga.sy, ∀ x < ga.sx, ShownSame (ga.shown x y) (gb.shown x y))
    ⟨fun h => ⟨h.1, h.2.1, h.2.2⟩, fun h => ⟨h.sx, h.sy, h.shown⟩⟩

/-- Two lines have the same stored in a column. -/
structure CellsAlike (gla glb : GridLine) (x : ℕ) : Prop where
  cell : gla.celldata[x]? = glb.celldata[x]?
  data : ∀ gc, gla.celldata[x]? = some gc → gc.isUtf8 = true → gla.utf8data[x]? = glb.utf8data[x]?

/-- Two lines have the same stored in each of `sx` columns, where both have cells. -/
structure LinesAlike (sx : ℕ) (gla glb : GridLine) : Prop where
  length : gla.celldata.length = glb.celldata.length
  stored : sx ≤ gla.celldata.length
  cells : ∀ x < sx, CellsAlike gla glb x

/-- Two lines have different numbers of cells, or something different is stored in a column where both have a cell,
    and the same before it. -/
def LinesUnlike (sx : ℕ) (gla glb : GridLine) : Prop :=
  gla.celldata.length ≠ glb.celldata.length ∨
    ∃ x < sx, x < gla.celldata.length ∧ (∀ j < x, CellsAlike gla glb j) ∧ ¬ CellsAlike gla glb x

/-- Both grids have a line, and the two are related. -/
def Grid.Rows (R : GridLine → GridLine → Prop) (ga gb : Grid) (y : ℕ) : Prop :=
  ∃ gla glb, ga.linedata[y]? = some gla ∧ gb.linedata[y]? = some glb ∧ R gla glb

/-- When a comparison tells whether two grids show the same: they have different widths; or all their lines are
    stored alike; or they show something different, and the first lines that are not alike have different numbers of
    cells, or differ before the end of their cells. -/
def Grid.Comparable (ga gb : Grid) : Prop :=
  ga.sx ≠ gb.sx ∨ (ga.sy = gb.sy ∧ ∀ y < ga.sy, Grid.Rows (LinesAlike ga.sx) ga gb y) ∨
    (¬ ga.ShowsSame gb ∧
      ∃ y < ga.sy, (∀ j < y, Grid.Rows (LinesAlike ga.sx) ga gb j) ∧ Grid.Rows (LinesUnlike ga.sx) ga gb y)

variable {gla glb : GridLine} {ga gb : Grid} {sx x y : ℕ}

/-! ## Comparing lines -/

theorem load_cell {l : List α} {i : ℕ} {b : α} : Block.load l i = pure b ↔ l[i]? = some b := by
  rw [Block.load]
  cases l[i]? with
  | none => simp [Exec.pure_eq_done]
  | some a => simp

/-- A comparison of two columns where both lines have cells tells whether they have the same stored. -/
theorem cellsDiffer_eq (ha : gla.Backed) (hb : glb.Backed) (hlength : gla.celldata.length = glb.celldata.length)
    (hx : x < gla.celldata.length) :
    (cellsDiffer gla glb x = pure false ∧ CellsAlike gla glb x) ∨
      (cellsDiffer gla glb x = pure true ∧ ¬ CellsAlike gla glb x) := by
  obtain ⟨gca, hgca⟩ : ∃ gc, gla.celldata[x]? = some gc := ⟨_, List.getElem?_eq_getElem hx⟩
  obtain ⟨gcb, hgcb⟩ : ∃ gc, glb.celldata[x]? = some gc := ⟨_, List.getElem?_eq_getElem (hlength ▸ hx)⟩
  rw [cellsDiffer, Block.load_eq hgca, Block.load_eq hgcb, pure_bind, pure_bind]
  by_cases hcell : gca = gcb
  · subst hcell
    rw [if_neg (not_not.2 rfl)]
    cases hutf8 : gca.isUtf8 with
    | false =>
      refine .inl ⟨rfl, hgca.trans hgcb.symm, fun gc hgc h => ?_⟩
      rw [hgca] at hgc
      rw [← Option.some.inj hgc, hutf8] at h
      cases h
    | true =>
      obtain ⟨gua, hgua⟩ := ha x (by rw [GridLine.cell, hgca]; exact hutf8)
      obtain ⟨gub, hgub⟩ := hb x (by rw [GridLine.cell, hgcb]; exact hutf8)
      rw [Bool.not_true, if_neg Bool.false_ne_true, Block.load_eq hgua, Block.load_eq hgub, pure_bind, pure_bind]
      by_cases hdata : gua = gub
      · refine .inl ⟨by rw [decide_eq_false (by rw [hdata]; exact not_not.2 rfl)], hgca.trans hgcb.symm, fun _ _ _ => ?_⟩
        rw [hgua, hgub, hdata]
      · refine .inr ⟨by rw [decide_eq_true (show some gua ≠ some gub from fun h => hdata (Option.some.inj h))],
          fun h => hdata ?_⟩
        have := h.data gca hgca hutf8
        rw [hgua, hgub] at this
        exact Option.some.inj (Option.some.inj this)
  · rw [if_pos hcell]
    refine .inr ⟨rfl, fun h => hcell ?_⟩
    have := h.cell
    rw [hgca, hgcb] at this
    exact Option.some.inj this

/-- A comparison past the end of the cells of both lines is an access past it. -/
theorem cellsDiffer_past (hx : gla.celldata.length ≤ x) : cellsDiffer gla glb x = .fault .overread := by
  rw [cellsDiffer, Block.load, List.getElem?_eq_none hx, Exec.fault_bind]

theorem cellsDiffer_eq_false (ha : gla.Backed) (hb : glb.Backed) (hlength : gla.celldata.length = glb.celldata.length) :
    cellsDiffer gla glb x = pure false ↔ x < gla.celldata.length ∧ CellsAlike gla glb x := by
  rcases lt_or_ge x gla.celldata.length with hx | hx
  · rcases cellsDiffer_eq ha hb hlength hx with ⟨h, halike⟩ | ⟨h, halike⟩
    · exact iff_of_true h ⟨hx, halike⟩
    · exact iff_of_false (by rw [h, Exec.pure_inj]; decide) fun h => halike h.2
  · exact iff_of_false (by rw [cellsDiffer_past hx]; rintro ⟨⟩) fun h => absurd h.1 hx.not_gt

theorem cellsDiffer_eq_true (ha : gla.Backed) (hb : glb.Backed) (hlength : gla.celldata.length = glb.celldata.length) :
    cellsDiffer gla glb x = pure true ↔ x < gla.celldata.length ∧ ¬ CellsAlike gla glb x := by
  rcases lt_or_ge x gla.celldata.length with hx | hx
  · rcases cellsDiffer_eq ha hb hlength hx with ⟨h, halike⟩ | ⟨h, halike⟩
    · exact iff_of_false (by rw [h, Exec.pure_inj]; decide) fun h => h.2 halike
    · exact iff_of_true h ⟨hx, halike⟩
  · exact iff_of_false (by rw [cellsDiffer_past hx]; rintro ⟨⟩) fun h => absurd h.1 hx.not_gt

/-- Two lines are found to be the same exactly if they are stored alike. -/
theorem lineDiffers_eq_false (ha : gla.Backed) (hb : glb.Backed) :
    lineDiffers sx gla glb = pure false ↔ LinesAlike sx gla glb := by
  by_cases hlength : gla.celldata.length = glb.celldata.length
  · rw [lineDiffers, if_neg (not_not.2 hlength), Exec.anyM_range_eq_false]
    simp only [cellsDiffer_eq_false ha hb hlength]
    constructor
    · intro h
      refine ⟨hlength, ?_, fun x hx => (h x hx).2⟩
      by_contra hlt
      exact lt_irrefl _ (h _ (not_le.1 hlt)).1
    · exact fun h x hx => ⟨hx.trans_le h.stored, h.cells x hx⟩
  · rw [lineDiffers, if_pos hlength]
    exact iff_of_false (by rw [Exec.pure_inj]; decide) fun h => hlength h.length

/-- Two lines are found to be different exactly if they are stored otherwise before the end of their cells. -/
theorem lineDiffers_eq_true (ha : gla.Backed) (hb : glb.Backed) :
    lineDiffers sx gla glb = pure true ↔ LinesUnlike sx gla glb := by
  by_cases hlength : gla.celldata.length = glb.celldata.length
  · rw [lineDiffers, if_neg (not_not.2 hlength), Exec.anyM_range_eq_true, LinesUnlike, or_iff_right (not_not.2 hlength)]
    simp only [cellsDiffer_eq_false ha hb hlength, cellsDiffer_eq_true ha hb hlength]
    constructor
    · rintro ⟨x, hx, hbefore, hlt, hunlike⟩
      exact ⟨x, hx, hlt, fun j hj => (hbefore j hj).2, hunlike⟩
    · rintro ⟨x, hx, hlt, hbefore, hunlike⟩
      exact ⟨x, hx, fun j hj => ⟨hj.trans hlt, hbefore j hj⟩, hlt, hunlike⟩
  · rw [lineDiffers, if_pos hlength]
    exact iff_of_true rfl (.inl hlength)

/-- A comparison of lines that returns has compared the two lines. -/
theorem linesDiffer_eq {b : Bool} :
    linesDiffer ga gb y = pure b ↔ Grid.Rows (fun gla glb => lineDiffers ga.sx gla glb = pure b) ga gb y := by
  constructor
  · intro h
    obtain ⟨gla, hgla, h⟩ := Exec.bind_eq_pure.1 h
    obtain ⟨glb, hglb, h⟩ := Exec.bind_eq_pure.1 h
    exact ⟨gla, glb, load_cell.1 hgla, load_cell.1 hglb, h⟩
  · rintro ⟨gla, glb, hgla, hglb, h⟩
    rw [linesDiffer, Block.load_eq hgla, Block.load_eq hglb, pure_bind, pure_bind, h]

theorem linesDiffer_eq_false (ha : ga.Every GridLine.Backed) (hb : gb.Every GridLine.Backed) :
    linesDiffer ga gb y = pure false ↔ Grid.Rows (LinesAlike ga.sx) ga gb y := by
  rw [linesDiffer_eq]
  exact exists_congr fun _ => exists_congr fun _ => and_congr_right fun hgla => and_congr_right fun hglb =>
    lineDiffers_eq_false (ha.line hgla) (hb.line hglb)

theorem linesDiffer_eq_true (ha : ga.Every GridLine.Backed) (hb : gb.Every GridLine.Backed) :
    linesDiffer ga gb y = pure true ↔ Grid.Rows (LinesUnlike ga.sx) ga gb y := by
  rw [linesDiffer_eq]
  exact exists_congr fun _ => exists_congr fun _ => and_congr_right fun hgla => and_congr_right fun hglb =>
    lineDiffers_eq_true (ha.line hgla) (hb.line hglb)

/-! ## Comparing grids -/

theorem gridCompare_eq_zero (ha : ga.Every GridLine.Backed) (hb : gb.Every GridLine.Backed) :
    gridCompare ga gb = pure 0 ↔ ga.sx = gb.sx ∧ ∀ y < ga.sy, Grid.Rows (LinesAlike ga.sx) ga gb y := by
  by_cases hsx : ga.sx = gb.sx
  · rw [gridCompare, if_neg (by simp [hsx]), and_iff_right hsx]
    constructor
    · intro h y hy
      obtain ⟨differ, hscan, hzero⟩ := Exec.bind_eq_pure.1 h
      cases differ with
      | true => exact absurd (Exec.pure_inj.1 hzero) Nat.one_ne_zero
      | false => exact (linesDiffer_eq_false ha hb).1 (Exec.anyM_range_eq_false.1 hscan y hy)
    · intro h
      rw [Exec.anyM_range_eq_false.2 fun y hy => (linesDiffer_eq_false ha hb).2 (h y hy)]
      rfl
  · rw [gridCompare, if_pos (.inl hsx)]
    exact iff_of_false (by rw [Exec.pure_inj]; exact Nat.one_ne_zero) fun h => hsx h.1

theorem gridCompare_eq_one (ha : ga.Every GridLine.Backed) (hb : gb.Every GridLine.Backed) :
    gridCompare ga gb = pure 1 ↔ ga.sx ≠ gb.sx ∨
      ∃ y < ga.sy, (∀ j < y, Grid.Rows (LinesAlike ga.sx) ga gb j) ∧ Grid.Rows (LinesUnlike ga.sx) ga gb y := by
  by_cases hsx : ga.sx = gb.sx
  · rw [gridCompare, if_neg (by simp [hsx]), or_iff_right (not_not.2 hsx)]
    simp only [← linesDiffer_eq_false ha hb, ← linesDiffer_eq_true ha hb, ← Exec.anyM_range_eq_true]
    constructor
    · intro h
      obtain ⟨differ, hscan, hone⟩ := Exec.bind_eq_pure.1 h
      cases differ with
      | true => exact hscan
      | false => exact absurd (Exec.pure_inj.1 hone) Nat.zero_ne_one
    · intro h
      rw [h]
      rfl
  · rw [gridCompare, if_pos (.inl hsx)]
    exact iff_of_true rfl (.inl hsx)

/-- Columns that are stored alike show the same. -/
theorem CellsAlike.shown (h : CellsAlike gla glb x) (hx : x < gla.celldata.length) : gla.shown x = glb.shown x := by
  have hcell : gla.cell x = glb.cell x := by rw [GridLine.cell, GridLine.cell, h.cell]
  rw [GridLine.shown, GridLine.shown, hcell]
  split_ifs with hutf8
  · have hgc := List.getElem?_eq_getElem hx
    rw [h.data _ hgc (by rwa [← hcell, GridLine.cell, hgc] at hutf8)]
  · rfl

/-- Grids that are stored alike show the same. -/
theorem showsSame_of_alike {ga gb : StoredGrid} (hsx : ga.grid.sx = gb.grid.sx) (hsy : ga.grid.sy = gb.grid.sy)
    (h : ∀ y < ga.grid.sy, Grid.Rows (LinesAlike ga.grid.sx) ga.grid gb.grid y) : ga.grid.ShowsSame gb.grid := by
  refine ⟨hsx, hsy, fun y hy x hx => ?_⟩
  obtain ⟨gla, glb, hgla, hglb, halike⟩ := h y hy
  have hshown : ga.grid.shown x y = gb.grid.shown x y := by
    rw [Grid.shown, Grid.shown, Grid.row, Grid.row, ga.hsize, gb.hsize, Nat.zero_add, hgla, hglb]
    exact (halike.cells x hx).shown (hx.trans_le halike.stored)
  rw [hshown]
  exact ⟨rfl, rfl, rfl, rfl, rfl⟩

/-- The comparison tells whether two grids show the same, reads no cell that is not stored, and has the status line
    redrawn if they do not, exactly if the grids are comparable. -/
theorem gridCompare_iff (ga gb : StoredGrid) :
    (gridCompare ga.grid gb.grid = pure (if ga.grid.ShowsSame gb.grid then 0 else 1) ∧
      statusRedrawn ga.grid gb.grid = pure (if ga.grid.ShowsSame gb.grid then 0 else 1)) ↔
      ga.grid.Comparable gb.grid := by
  have hredrawn : gridCompare ga.grid gb.grid = pure (if ga.grid.ShowsSame gb.grid then 0 else 1) →
      statusRedrawn ga.grid gb.grid = pure (if ga.grid.ShowsSame gb.grid then 0 else 1) := fun h => by
    rw [statusRedrawn, h, pure_bind]
    split_ifs <;> first | rfl | contradiction
  rw [and_iff_left_of_imp hredrawn, Grid.Comparable]
  by_cases hsame : ga.grid.ShowsSame gb.grid
  · rw [if_pos hsame, gridCompare_eq_zero ga.backed gb.backed]
    constructor
    · exact fun h => .inr (.inl ⟨hsame.sy, h.2⟩)
    · rintro (hsx | ⟨-, h⟩ | ⟨hnot, -⟩)
      · exact absurd hsame.sx hsx
      · exact ⟨hsame.sx, h⟩
      · exact absurd hsame hnot
  · rw [if_neg hsame, gridCompare_eq_one ga.backed gb.backed]
    constructor
    · exact Or.imp_right fun h => .inr ⟨hsame, h⟩
    · rintro (hsx | ⟨hsy, h⟩ | ⟨-, h⟩)
      · exact .inl hsx
      · by_cases hsx : ga.grid.sx = gb.grid.sx
        · exact absurd (showsSame_of_alike hsx hsy h) hsame
        · exact .inl hsx
      · exact .inr h

/-- Two new grids show the same, but their cells are not stored; and a second line is not noticed. -/
theorem gridCompare_wrong :
    ((gridCreate 80 1 0).ShowsSame (gridCreate 80 1 0) ∧
      gridCompare (gridCreate 80 1 0) (gridCreate 80 1 0) = .fault .overread) ∧
    (¬ (⟨false, 1, 1, 0, 0, [{ celldata := [{ data := 97 }] }]⟩ : Grid).ShowsSame
        ⟨false, 1, 2, 0, 0, [{ celldata := [{ data := 97 }] }, { celldata := [{ data := 98 }] }]⟩ ∧
      gridCompare ⟨false, 1, 1, 0, 0, [{ celldata := [{ data := 97 }] }]⟩
        ⟨false, 1, 2, 0, 0, [{ celldata := [{ data := 97 }] }, { celldata := [{ data := 98 }] }]⟩ = pure 0) :=
  ⟨⟨by decide, rfl⟩, by decide, rfl⟩

end Tmux
