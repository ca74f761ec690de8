import Tmux.Tty.Characters

/-!
# Inserting, deleting and scrolling lines

Lines are inserted, deleted and scrolled in the scroll region by setting it on the terminal, if the pane takes whole rows
of the terminal. Else its lines are drawn again, as they are then, unless there are so many of them that the pane is to
be redrawn later (`TtyOut.Commanded`).
-/

namespace Tmux

open Device
open Exec (uadd usub forget)

/-- A terminal that can scroll, insert and delete lines in its scroll region, and delete characters. -/
structure TtyDevice.Scrolls (k : TtyDevice) : Prop extends k.Commands where
  il1 : k.edits .il1 = true
  dl1 : k.edits .dl1 = true
  ri : k.edits .ri = true
  dch : (k.edits .dch || k.edits .dch1) = true

/-- Rows are inserted or deleted in a picture. -/
def Picture.editRows (p : Picture) (g : Glyph) (top bottom n : ℕ) : Splice.Edit → Picture
  | .insert => p.insertRows g top bottom n
  | .delete => p.deleteRows g top bottom n

/-- The command for inserting or deleting lines. -/
def TtyOut.ttyLines (k : TtyDevice) (ctx : TtyCtx) (s : Screen) (tty : TtyOut) : Splice.Edit → Exec (TtyOut × Bool)
  | .insert => tty.ttyCmdInsertline k ctx s
  | .delete => tty.ttyCmdDeleteline k ctx s

variable {k : TtyDevice} {s s' : Screen} {p : Picture} {g g' : Grid} {gl : GridLine} {edit : Splice.Edit}
  {d₀ d d' : Display} {tty : TtyOut} {ctx : TtyCtx} {ox oy ny n lo hi top bottom : ℕ}

/-- Outside the rows that are edited, a picture stays. -/
theorem Picture.editRows_of_not (p : Picture) (g : Glyph) {y : ℕ} (h : ¬(top ≤ y ∧ y ≤ bottom)) (x : ℕ) :
    p.editRows g top bottom n edit y x = p y x := by
  cases edit with
  | insert => exact if_neg h
  | delete => exact if_neg h

/-! ## The screen -/

namespace Screen.Depicts

/-- Rows that are inserted or deleted, and others that stay. -/
theorem of_spliced (h : s.Depicts k p) (hsx : s'.grid.sx = s.grid.sx) (hsy : s'.grid.sy = s.grid.sy)
    (hbottom : bottom < s.grid.sy) (hdone : edit.Done BlankRow top n (bottom + 1) s.grid.row s'.grid.row)
    (hbelow : ∀ y, bottom < y → s'.grid.row y = s.grid.row y) :
    s'.Depicts k (p.editRows (blankGlyph k) top bottom n edit) := by
  refine h.of_rows hsx hsy fun y hy => ?_
  rcases Nat.lt_or_ge bottom y with hout | hin
  · exact .inr ⟨y, hy, hbelow y hout, fun x _ => Picture.editRows_of_not p _ (by omega) x⟩
  · cases edit with
    | insert =>
      rcases Nat.lt_or_ge y top with hbefore | hafter
      · exact .inr ⟨y, hy, hdone.before y hbefore, fun x _ => if_neg (by omega)⟩
      · rcases Nat.lt_or_ge y (top + n) with hfresh | hmoved
        · exact .inl ⟨hdone.fresh y hafter hfresh, fun x _ => (if_pos ⟨hafter, hin⟩).trans (if_pos hfresh)⟩
        · exact .inr ⟨y - n, by omega, hdone.moved y hmoved (by omega),
            fun x _ => (if_pos ⟨hafter, hin⟩).trans (if_neg (by omega))⟩
    | delete =>
      rcases Nat.lt_or_ge y top with hbefore | hafter
      · exact .inr ⟨y, hy, hdone.before y hbefore, fun x _ => if_neg (by omega)⟩
      · by_cases hmoved : y + n ≤ bottom
        · exact .inr ⟨y + n, by omega, hdone.moved y hafter (by omega),
            fun x _ => (if_pos ⟨hafter, hin⟩).trans (if_pos hmoved)⟩
        · exact .inl ⟨hdone.fresh y hafter (by omega) (by omega),
            fun x _ => (if_pos ⟨hafter, hin⟩).trans (if_neg hmoved)⟩

end Screen.Depicts

/-- In the scroll region, lines are inserted and deleted as rows of the picture. -/
theorem screenWriteLines_depicts (h : s.Sound) (hin : s.outside = false) (ny : ℕ) :
    ∃ g', screenWriteLines s ny edit = pure { s with grid := g' } ∧ g'.Whole ∧ ∀ p, s.Depicts k p →
      Screen.Depicts k { s with grid := g' } (p.editRows (blankGlyph k) s.cy s.rlower (s.lineCount ny) edit) := by
  obtain ⟨hpos, hle, hlast⟩ := h.lineCount_le ny
  have hlower := Screen.lastRow_inside hin
  have hfilled : ∀ {old : ℕ → Option GridLine} {r : ℕ}, s.lastRow < r →
      Splice.fill (some {}) (s.lastRow + 1 - s.lineCount ny) (s.cy + s.lineCount ny) old r = old r :=
    fun hr => if_neg (by omega)
  cases edit with
  | insert =>
    obtain ⟨g', hrun, hedited, hrow⟩ := screenWriteInsertline_inside h hin ny
    refine ⟨g', hrun, hedited.whole h.whole, fun p hp => ?_⟩
    rw [← hlower]
    refine hp.of_spliced hedited.sx hedited.sy hlast ?_ fun y hy => ?_
    · dsimp only
      rw [hrow]
      exact Splice.inserted_fill blankRow_new hle
    · dsimp only
      rw [hrow, hfilled hy]
      exact Splice.move_of_le (by omega) (by omega)
  | delete =>
    obtain ⟨g', hrun, hedited, hrow⟩ := screenWriteDeleteline_rows h ny
    refine ⟨g', hrun, hedited.whole h.whole, fun p hp => ?_⟩
    rw [← hlower]
    refine hp.of_spliced hedited.sx hedited.sy hlast ?_ fun y hy => ?_
    · dsimp only
      rw [hrow]
      exact Splice.deleted_fill blankRow_new hle
    · dsimp only
      rw [hrow, hfilled hy]
      exact Splice.move_of_le (by omega) (by omega)

/-- At the top of the scroll region, a reverse index scrolls it down. -/
theorem screenWriteReverseindex_depicts (h : s.Sound) (hsy : 2 ≤ s.grid.sy) (htop : s.cy = s.rupper) :
    ∃ g', screenWriteReverseindex s = pure { s with grid := g' } ∧ g'.Whole ∧ ∀ p, s.Depicts k p →
      Screen.Depicts k { s with grid := g' } (p.editRows (blankGlyph k) s.rupper s.rlower 1 .insert) := by
  have hregion := h.rows.lines hsy
  have hbottom := h.rows.bottom
  have hroom := h.whole.room
  obtain ⟨g', hmove, hedited, hrow⟩ :=
    gridMoveLines_rows h.whole (show s.rupper + (s.rlower - s.rupper) ≤ s.grid.sy by omega)
    (show s.rupper + 1 + (s.rlower - s.rupper) ≤ s.grid.sy by omega)
  refine ⟨g', ?_, hedited.whole h.whole, fun p hp => ?_⟩
  · rw [screenWriteReverseindex, if_pos htop, gridViewScrollRegionDown, gridViewY_eq h.whole (by omega),
      gridViewY_eq h.whole (by omega), Exec.usub_of_le (by omega), pure_bind, Exec.uadd_of_lt (by omega),
      Nat.add_sub_add_left, Nat.add_assoc, hmove]
    rfl
  · refine hp.of_spliced hedited.sx hedited.sy hbottom ?_ fun y hy => ?_
    · have hcount : s.rlower - s.rupper = s.rlower + 1 - s.rupper - 1 := by omega
      dsimp only
      rw [hrow, hcount]
      exact (Splice.inserted_move_iff blankRow_new (by omega)).2 fun i hi hlt => by omega
    · dsimp only
      rw [hrow]
      exact Splice.move_of_le (by omega) (by omega)

/-- Scrolling a region up deletes its first row. -/
theorem gridViewScrollRegionUp_scrolled (h : g.Whole) (hroom : g.hlimit + g.sy + 1 < Exec.word)
    (hscrolls : g.history = false ∨ 1 ≤ g.hlimit) (hlt : top < bottom) (hbottom : bottom < g.sy) :
    ∃ g', gridViewScrollRegionUp g top bottom = pure g' ∧ g.SameShape g' ∧ g'.Whole ∧
      ∀ r < g.sy, g'.row r = scrolledRow g top bottom r := by
  cases hon : g.history with
  | false =>
    obtain ⟨l, hrun, -, -, hrow⟩ := gridViewScrollRegionUp_off h hon hlt.le hbottom
    obtain ⟨hshape, hwhole, -⟩ := gridViewScrollRegionUp_rows h hroom hlt.le hbottom (by rw [hrun, Exec.value?_pure])
    exact ⟨_, hrun, hshape, hwhole, hrow hlt⟩
  | true =>
    obtain ⟨l, hrun, -, -, -, hrow⟩ := gridViewScrollRegionUp_on h hon
      (collected_le (hscrolls.resolve_left (by rw [hon]; exact Bool.noConfusion))) hlt.le hbottom
    obtain ⟨hshape, hwhole, -⟩ := gridViewScrollRegionUp_rows h hroom hlt.le hbottom (by rw [hrun, Exec.value?_pure])
    exact ⟨_, hrun, hshape, hwhole, hrow⟩

/-- At the bottom of the scroll region, a line feed scrolls it up, and elsewhere nothing is seen of it. -/
theorem screenWriteLinefeed_depicts (h : s.Sound) (hsy : 2 ≤ s.grid.sy)
    (hroom : s.grid.hlimit + s.grid.sy + 1 < Exec.word) (hscrolls : s.grid.history = false ∨ 1 ≤ s.grid.hlimit) :
    ∃ s', screenWriteLinefeed s false = pure s' ∧ s'.grid.Whole ∧ ∀ p, s.Depicts k p → s'.Depicts k
      (if s.cy = s.rlower then p.editRows (blankGlyph k) s.rupper s.rlower 1 .delete else p) := by
  have hr := h.rows.cursor
  have hbottom := h.rows.bottom
  obtain ⟨gl, hgl⟩ := h.whole.exists_row hr
  have hwhole := h.whole.withLine (s.grid.hsize + s.cy) { gl with wrapped := false }
  rw [screenWriteLinefeed, gridViewY_eq h.whole hr.le, updateRow_eq (f := fun gl => pure { gl with wrapped := false }) hgl rfl,
    pure_bind, Exec.usub_of_le (by omega), Exec.forget_pure, pure_bind]
  by_cases hlast : s.cy = s.rlower
  · obtain ⟨g', hscroll, hshape, hwhole', hrow⟩ :=
      gridViewScrollRegionUp_scrolled hwhole hroom hscrolls (h.rows.lines hsy) hbottom
    rw [if_pos hlast, hscroll]
    refine ⟨_, rfl, hwhole', fun p hp => ?_⟩
    rw [if_pos hlast]
    refine (hp.wrapped h.whole hr hgl false).of_rows hshape.sx hshape.sy fun y hy => ?_
    dsimp only
    rw [hrow y hy, scrolledRow]
    split_ifs with hout hmoved
    · exact .inr ⟨y, hy, rfl, fun x _ => Picture.editRows_of_not p _ (by omega) x⟩
    · exact .inr ⟨y + 1, show y + 1 < s.grid.sy by omega, rfl,
        fun x _ => (if_pos (by omega)).trans (if_pos (by omega))⟩
    · exact .inl ⟨blankRow_new, fun x _ => (if_pos (by omega)).trans (if_neg (by omega))⟩
  · rw [if_neg hlast]
    have hline : ∀ cy, ∀ p, s.Depicts k p → Screen.Depicts k { s with
        grid := s.grid.withLine (s.grid.hsize + s.cy) { gl with wrapped := false }, cy } p := fun cy p hp =>
      (hp.wrapped h.whole hr hgl false).congr rfl rfl (fun _ _ => rfl) fun _ _ _ _ => rfl
    split_ifs
    · exact ⟨_, rfl, hwhole, hline (s.cy + 1)⟩
    · exact ⟨_, rfl, hwhole, hline s.cy⟩

/-! ## Rows of a display -/

namespace Display

theorem insertRows_succ (d : Display) (n : ℕ) :
    (d.insertRows top bottom 1).insertRows top bottom n = d.insertRows top bottom (n + 1) := by
  refine ext_cells fun i j => ?_
  have hblank : (d.insertRows top bottom 1).blank = d.blank := rfl
  have hcells : ∀ i j, (d.insertRows top bottom 1).cells i j = if top ≤ i ∧ i ≤ bottom then
      if i < top + 1 then d.blank else d.cells (i - 1) j else d.cells i j := fun _ _ => rfl
  rw [hblank, hcells, hcells, Nat.sub_sub]
  split_ifs <;> first | rfl | omega

theorem deleteRows_succ (d : Display) (n : ℕ) :
    (d.deleteRows top bottom 1).deleteRows top bottom n = d.deleteRows top bottom (n + 1) := by
  refine ext_cells fun i j => ?_
  have hblank : (d.deleteRows top bottom 1).blank = d.blank := rfl
  have hcells : ∀ i j, (d.deleteRows top bottom 1).cells i j = if top ≤ i ∧ i ≤ bottom then
      if i + 1 ≤ bottom then d.cells (i + 1) j else d.blank else d.cells i j := fun _ _ => rfl
  rw [hblank, hcells, hcells]
  by_cases hin : top ≤ i ∧ i ≤ bottom
  · rw [if_pos hin, if_pos hin]
    by_cases hn : i + n ≤ bottom
    · rw [if_pos hn, if_pos (by omega), Nat.add_assoc]
    · rw [if_neg hn, if_neg (by omega)]
  · rw [if_neg hin, if_neg hin, if_neg hin]

/-- Rows inserted one by one in the scroll region are inserted. -/
theorem foldl_il (hin : d.t.top ≤ d.t.y ∧ d.t.y ≤ d.t.bottom) (n : ℕ) :
    (List.replicate n (.il 1)).foldl apply d = d.insertRows d.t.y d.t.bottom n := by
  induction n generalizing d with
  | zero =>
    refine (ext_cells (f := d.cells) fun i j => ?_)
    split_ifs <;> first | rfl | omega
  | succ n ih =>
    have happly : d.apply (.il 1) = d.insertRows d.t.y d.t.bottom 1 := if_pos hin
    rw [List.replicate_succ, List.foldl_cons, happly]
    exact (ih (d := d.insertRows d.t.y d.t.bottom 1) hin).trans (insertRows_succ d n)

/-- Rows deleted one by one in the scroll region are deleted. -/
theorem foldl_dl (hin : d.t.top ≤ d.t.y ∧ d.t.y ≤ d.t.bottom) (n : ℕ) :
    (List.replicate n (.dl 1)).foldl apply d = d.deleteRows d.t.y d.t.bottom n := by
  induction n generalizing d with
  | zero =>
    refine (ext_cells (f := d.cells) fun i j => ?_)
    split_ifs <;> first | rfl | omega
  | succ n ih =>
    have happly : d.apply (.dl 1) = d.deleteRows d.t.y d.t.bottom 1 := if_pos hin
    rw [List.replicate_succ, List.foldl_cons, happly]
    exact (ih (d := d.deleteRows d.t.y d.t.bottom 1) hin).trans (deleteRows_succ d n)

end Display

/-- Outside the place of a pane, a display is the same. -/
structure SameAround (ox oy sx sy : ℕ) (d d' : Display) : Prop where
  width : d'.t.sx = d.t.sx
  height : d'.t.sy = d.t.sy
  cells : ∀ i, ∀ j < d.t.sx, i < oy ∨ oy + sy ≤ i ∨ j < ox ∨ ox + sx ≤ j → d'.cells i j = d.cells i j

theorem SameAround.refl (ox oy sx sy : ℕ) (d : Display) : SameAround ox oy sx sy d d := ⟨rfl, rfl, fun _ _ _ _ => rfl⟩

theorem SameAround.trans {d'' : Display} {sx sy : ℕ} (h : SameAround ox oy sx sy d d')
    (h' : SameAround ox oy sx sy d' d'') : SameAround ox oy sx sy d d'' :=
  ⟨h'.width.trans h.width, h'.height.trans h.height,
    fun i j hj hij => (h'.cells i j (h.width.symm ▸ hj) hij).trans (h.cells i j hj hij)⟩

/-- Rows of a pane are rows of the display. -/
theorem Picture.editRows_shift (d : Display) (g : Glyph) (y x : ℕ) :
    (d.picture ox oy).editRows g top bottom n edit y x =
      Picture.editRows d.cells g (oy + top) (oy + bottom) n edit (oy + y) (ox + x) := by
  cases edit with
  | insert =>
    dsimp only [editRows, insertRows, Display.picture]
    split_ifs <;> first | rfl | omega | (congr 1; omega)
  | delete =>
    dsimp only [editRows, deleteRows, Display.picture]
    split_ifs <;> first | rfl | omega | (congr 1; omega)

namespace TtyOut

/-- What a command makes of a display: the place of a pane looks like a picture, unless the pane is to be redrawn, and the
    rest stays. -/
def Commanded (k : TtyDevice) (d₀ d : Display) (ox oy : ℕ) (s : Screen) (p : Picture) (r : TtyOut × Bool) : Prop :=
  ∃ d', Tracks k d₀ r.1 d' ∧ SameAround ox oy s.grid.sx s.grid.sy d d' ∧
    (r.2 = false → ∀ y < s.grid.sy, ∀ x < s.grid.sx, d'.picture ox oy y x = p y x)

/-- Rows that are inserted or deleted on all of the display. -/
theorem commanded_of_rows {tty' : TtyOut} (hfull : ox = 0 ∧ d.t.sx ≤ s.grid.sx)
    (hbottom : bottom < s.grid.sy) (h' : Tracks k d₀ tty' d') (hsx : d'.t.sx = d.t.sx) (hsy : d'.t.sy = d.t.sy)
    (hcells : d'.cells = Picture.editRows d.cells (blankGlyph k) (oy + top) (oy + bottom) n edit) :
    Commanded k d₀ d ox oy s ((d.picture ox oy).editRows (blankGlyph k) top bottom n edit) (tty', false) := by
  refine ⟨d', h', ⟨hsx, hsy, fun i j hj hij => ?_⟩, fun _ y hy x hx => ?_⟩
  · rw [hcells]
    exact Picture.editRows_of_not _ _ (by omega) j
  · rw [Picture.editRows_shift, ← hcells]
    rfl

/-- A row that is drawn. -/
theorem Draws.commanded {row : ℕ} {f : ℕ → Glyph} {r : Bool} (h : Draws k d₀ d tty (oy + row) ox (ox + s.grid.sx) f)
    (hs : s.Within d.t ox oy) (hrow : row < s.grid.sy) (hf : ∀ x < s.grid.sx, f x = p row x)
    (hp : ∀ y, y ≠ row → ∀ x, p y x = d.picture ox oy y x) : Commanded k d₀ d ox oy s p (tty, r) := by
  have hwidth := hs.width
  obtain ⟨d', h', hsx, hsy, hcells⟩ := h
  refine ⟨d', h', ⟨hsx, hsy, fun i j hj hij => (hcells i j hj).trans (if_neg (by omega))⟩, fun _ y hy x hx => ?_⟩
  rw [Display.picture, hcells _ _ (by omega)]
  by_cases heq : y = row
  · rw [if_pos ⟨by omega, by omega, by omega⟩, Nat.add_sub_cancel_left, hf x hx, heq]
  · rw [if_neg (by omega), hp y heq]
    rfl

section

variable (hk : k.Commands) (h : Tracks k d₀ tty d) (hs : s.Within d.t ctx.xoff ctx.yoff)

include hk h hs

/-- The scroll region is set, and the cursor moved to a row. -/
theorem region_row (cx : ℕ) {cy : ℕ} (hlt : top < bottom) (hbottom : bottom < s.grid.sy) (hcy : cy < s.grid.sy) :
    ∃ d' x, PlainAt k d₀ (((tty.ttyReset k).ttyRegionPane k ctx top bottom).ttyCursorPane k ctx cx cy) d' ∧
      d'.t = { d.t with x, y := ctx.yoff + cy, top := ctx.yoff + top, bottom := ctx.yoff + bottom } ∧
      d'.cells = d.cells := by
  have hwidth := hs.width
  have hheight := hs.height
  have hsx := h.ok.width
  have hsy := h.ok.height
  obtain ⟨d₁, x, y, h₁, ht₁, hcells₁⟩ := (h.plain hk.toDraws).ttyRegionPane (s := s) hk hs hlt hbottom
  have hy : uadd ctx.yoff cy = ctx.yoff + cy := Exec.uadd_of_lt (by simp only [Exec.word]; omega)
  have hmoved := h₁.toTracks.ttyCursor (x := uadd ctx.xoff cx) hk.toDraws (show ctx.yoff + cy < d₁.t.sy by
    rw [ht₁]
    dsimp only
    omega)
  rw [TtyOut.ttyCursorPane, hy]
  exact ⟨_, _, ⟨hmoved, h₁.cell⟩, by rw [ht₁], hcells₁⟩

variable (ctx) in
/-- The lines of the scroll region are drawn again, as they are now, or the pane is to be redrawn. -/
theorem Tracks.ttyRedrawRegion (hpart : ¬(ctx.xoff = 0 ∧ d.t.sx ≤ s.grid.sx)) (hlower : ctx.orlower < s.grid.sy)
    (hin : ctx.orupper ≤ ctx.ocy ∧ ctx.ocy ≤ ctx.orlower) (hp : s.Depicts k p)
    (hsame : ∀ y, ¬(ctx.orupper ≤ y ∧ y ≤ ctx.orlower) → ∀ x, p y x = d.picture ctx.xoff ctx.yoff y x)
    (hmove : ctx.xoff = 0 → tty.pos.cx < tty.pos.sx) :
    ∃ r, tty.ttyRedrawRegion k ctx s = pure r ∧ Commanded k d₀ d ctx.xoff ctx.yoff s p r := by
  have hroom := hs.whole.room
  have hwidth := hs.width
  have hlarge : ttyLargeRegion ctx s = pure (decide (s.grid.sy / 2 ≤ ctx.orlower - ctx.orupper)) := by
    rw [ttyLargeRegion, Exec.usub_of_le (hin.1.trans hin.2), pure_bind]
  have hnext : uadd ctx.orlower 1 = ctx.orlower + 1 := Exec.uadd_of_lt (by omega)
  rw [TtyOut.ttyRedrawRegion, hlarge, pure_bind]
  split_ifs with hsize hout
  · exact ⟨(tty, true), rfl, d, h, .refl _ _ _ _ d, fun hredraw => Bool.noConfusion hredraw⟩
  · omega
  · have hlines : s.CanRedraw k {} d.t ctx.xoff ctx.yoff ctx.orupper (ctx.orlower + 1) :=
      ⟨fun py _ hpy gl hgl => (hp.fits py (by omega) gl hgl).data,
        fun py _ hpy gl hgl => (hp.fits py (by omega) gl hgl).straight rfl,
        fun py _ hpy gl hgl _ hzero hall => absurd ⟨hzero, hall.le⟩ hpart⟩
    have hcount : ctx.orupper + (ctx.orlower + 1 - ctx.orupper) = ctx.orlower + 1 := by omega
    obtain ⟨tty', d', hrun, h', hdrawn, -⟩ := h.redrawLines hk.toDraws hs (Nat.succ_le_of_lt hlower) hlines hcount.le
      (wrapsThere_of_lt hmove)
    rw [hcount] at hdrawn
    obtain ⟨x, y, ht⟩ := hdrawn.terminal
    refine ⟨(tty', false), ?_, d', h', ⟨by rw [ht], by rw [ht], fun i j hj hij => hdrawn.others i j (by omega)⟩,
      fun _ y hy x hx => ?_⟩
    · rw [hnext, hrun]
      rfl
    · by_cases hrow : ctx.orupper ≤ y ∧ y ≤ ctx.orlower
      · obtain ⟨gl, hgl⟩ := hs.whole.exists_row hy
        have hshown := hdrawn.rows y hrow.1 (by omega) gl hgl x hx
        rw [(hp.fits y hy gl hgl).rowGlyphs rfl hx, hp.looks y hy gl hgl x hx] at hshown
        exact (Option.some.inj hshown).symm
      · rw [hsame y hrow x]
        exact hdrawn.others _ _ (by omega)

end

section

variable (hk : k.Scrolls) (h : Tracks k d₀ tty d) (hs : s.Within d.t ctx.xoff ctx.yoff)
  (hregion : ctx.orupper < ctx.orlower) (hlower : ctx.orlower < s.grid.sy)
  (hmove : ctx.xoff = 0 → d.t.sx ≤ s.grid.sx ∨ tty.pos.cx < tty.pos.sx)

include hk h hs hregion hlower hmove

variable (ctx) in
/-- Lines that are inserted or deleted in the scroll region. -/
theorem Tracks.ttyLines (hin : ctx.orupper ≤ ctx.ocy ∧ ctx.ocy ≤ ctx.orlower)
    (hp : s.Depicts k ((d.picture ctx.xoff ctx.yoff).editRows (blankGlyph k) ctx.ocy ctx.orlower ctx.num edit)) :
    ∃ r, tty.ttyLines k ctx s edit = pure r ∧ Commanded k d₀ d ctx.xoff ctx.yoff s
      ((d.picture ctx.xoff ctx.yoff).editRows (blankGlyph k) ctx.ocy ctx.orlower ctx.num edit) r := by
  obtain ⟨d₁, x, h₁, ht₁, hcells₁⟩ :=
    region_row hk.toCommands h hs ctx.ocx hregion hlower (show ctx.ocy < s.grid.sy by omega)
  have hin₁ : d₁.t.top ≤ d₁.t.y ∧ d₁.t.y ≤ d₁.t.bottom := by
    rw [ht₁]
    dsimp only
    omega
  have hplace : d₁.t.y = ctx.yoff + ctx.ocy ∧ d₁.t.bottom = ctx.yoff + ctx.orlower := by
    rw [ht₁]
    exact ⟨rfl, rfl⟩
  have hsx : d₁.t.sx = d.t.sx := by rw [ht₁]
  have hsy : d₁.t.sy = d.t.sy := by rw [ht₁]
  have hredraw : ¬(ctx.xoff = 0 ∧ d.t.sx ≤ s.grid.sx) → ∃ r, tty.ttyRedrawRegion k ctx s = pure r ∧
      Commanded k d₀ d ctx.xoff ctx.yoff s
        ((d.picture ctx.xoff ctx.yoff).editRows (blankGlyph k) ctx.ocy ctx.orlower ctx.num edit) r := fun hpart =>
    h.ttyRedrawRegion ctx hk.toCommands hs hpart hlower hin hp (fun y hy x => Picture.editRows_of_not _ _ (by omega) x)
      fun hzero => (hmove hzero).resolve_left fun hall => hpart ⟨hzero, hall⟩
  cases edit with
  | insert =>
    have happly : d₁.apply (.il ctx.num) = d₁.insertRows d₁.t.y d₁.t.bottom ctx.num := if_pos hin₁
    have h' := h₁.ttyEmulateRepeat (n := ctx.num) (show (k.edits .il || k.edits .il1) = true by
      rw [hk.il1, Bool.or_true]) (by rw [happly]; rfl) (by rw [happly]; rfl) ((Display.foldl_il hin₁ _).trans happly.symm)
    rw [happly] at h'
    rw [TtyOut.ttyLines, ttyCmdInsertline, editLines, hk.csr, hk.il1]
    cases hfull : tty.ttyPaneFullWidth ctx s with
    | false => exact hredraw fun hall => by simp [h.fullWidth.2 hall] at hfull
    | true =>
      rw [hk.il1] at h'
      refine ⟨_, rfl, commanded_of_rows (h.fullWidth.1 hfull) hlower h'.tracks hsx hsy ?_⟩
      rw [← hplace.1, ← hplace.2, ← h₁.blank, ← hcells₁]
      rfl
  | delete =>
    have happly : d₁.apply (.dl ctx.num) = d₁.deleteRows d₁.t.y d₁.t.bottom ctx.num := if_pos hin₁
    have h' := h₁.ttyEmulateRepeat (n := ctx.num) (show (k.edits .dl || k.edits .dl1) = true by
      rw [hk.dl1, Bool.or_true]) (by rw [happly]; rfl) (by rw [happly]; rfl) ((Display.foldl_dl hin₁ _).trans happly.symm)
    rw [happly] at h'
    rw [TtyOut.ttyLines, ttyCmdDeleteline, editLines, hk.csr, hk.dl1]
    cases hfull : tty.ttyPaneFullWidth ctx s with
    | false => exact hredraw fun hall => by simp [h.fullWidth.2 hall] at hfull
    | true =>
      rw [hk.dl1] at h'
      refine ⟨_, rfl, commanded_of_rows (h.fullWidth.1 hfull) hlower h'.tracks hsx hsy ?_⟩
      rw [← hplace.1, ← hplace.2, ← h₁.blank, ← hcells₁]
      rfl

variable (ctx) in
/-- A reverse index at the top of the scroll region. -/
theorem Tracks.ttyCmdReverseindex (htop : ctx.ocy = ctx.orupper)
    (hp : s.Depicts k ((d.picture ctx.xoff ctx.yoff).editRows (blankGlyph k) ctx.orupper ctx.orlower 1 .insert)) :
    ∃ r, tty.ttyCmdReverseindex k ctx s = pure r ∧ Commanded k d₀ d ctx.xoff ctx.yoff s
      ((d.picture ctx.xoff ctx.yoff).editRows (blankGlyph k) ctx.orupper ctx.orlower 1 .insert) r := by
  obtain ⟨d₁, x, h₁, ht₁, hcells₁⟩ :=
    region_row hk.toCommands h hs ctx.ocx hregion hlower (show ctx.orupper < s.grid.sy by omega)
  have hplace : d₁.t.top = ctx.yoff + ctx.orupper ∧ d₁.t.bottom = ctx.yoff + ctx.orlower := by
    rw [ht₁]
    exact ⟨rfl, rfl⟩
  have happly : d₁.apply .ri = d₁.insertRows d₁.t.top d₁.t.bottom 1 := if_pos (by rw [ht₁])
  have h' := h₁.emit (show (d₁.apply .ri).t = d₁.t by rw [happly]; rfl) (by rw [happly]; rfl)
  rw [happly] at h'
  rw [TtyOut.ttyCmdReverseindex, if_neg (not_not.2 htop), hk.csr, hk.ri]
  cases hfull : tty.ttyPaneFullWidth ctx s with
  | false =>
    have hpart : ¬(ctx.xoff = 0 ∧ d.t.sx ≤ s.grid.sx) := fun hall => by simp [h.fullWidth.2 hall] at hfull
    exact h.ttyRedrawRegion ctx hk.toCommands hs hpart hlower (by omega) hp
      (fun y hy x => Picture.editRows_of_not _ _ (by omega) x)
      fun hzero => (hmove hzero).resolve_left fun hall => hpart ⟨hzero, hall⟩
  | true =>
    have hsx : d₁.t.sx = d.t.sx := by rw [ht₁]
    have hsy : d₁.t.sy = d.t.sy := by rw [ht₁]
    refine ⟨_, rfl, commanded_of_rows (h.fullWidth.1 hfull) hlower h'.tracks hsx hsy ?_⟩
    rw [← hplace.1, ← hplace.2, ← h₁.blank, ← hcells₁]
    rfl

variable (ctx) in
/-- A line feed at the bottom of the scroll region. -/
theorem Tracks.ttyCmdLinefeed (hbottom : ctx.ocy = ctx.orlower) (hnum : ctx.num = 0)
    (hp : s.Depicts k ((d.picture ctx.xoff ctx.yoff).editRows (blankGlyph k) ctx.orupper ctx.orlower 1 .delete)) :
    ∃ r, tty.ttyCmdLinefeed k ctx s = pure r ∧ Commanded k d₀ d ctx.xoff ctx.yoff s
      ((d.picture ctx.xoff ctx.yoff).editRows (blankGlyph k) ctx.orupper ctx.orlower 1 .delete) r := by
  obtain ⟨d₁, x, h₁, ht₁, hcells₁⟩ :=
    region_row hk.toCommands h hs ctx.ocx hregion hlower (show ctx.ocy < s.grid.sy by omega)
  have hplace : d₁.t.top = ctx.yoff + ctx.orupper ∧ d₁.t.bottom = ctx.yoff + ctx.orlower := by
    rw [ht₁]
    exact ⟨rfl, rfl⟩
  rw [TtyOut.ttyCmdLinefeed, if_neg (not_not.2 hbottom), hk.csr]
  cases hfull : tty.ttyPaneFullWidth ctx s with
  | false =>
    have hpart : ¬(ctx.xoff = 0 ∧ d.t.sx ≤ s.grid.sx) := fun hall => by simp [h.fullWidth.2 hall] at hfull
    exact h.ttyRedrawRegion ctx hk.toCommands hs hpart hlower (by omega) hp
      (fun y hy x => Picture.editRows_of_not _ _ (by omega) x)
      fun hzero => (hmove hzero).resolve_left fun hall => hpart ⟨hzero, hall⟩
  | true =>
    have hlast : d₁.t.y = d₁.t.bottom := by rw [ht₁, hbottom]
    have hfeed : d₁.t.apply (.char 10) = { d₁.t with scrolls := d₁.t.scrolls + 1 } := if_pos hlast
    have ht : (d₁.apply (.seq (.char 10))).t = { d₁.t with scrolls := d₁.t.scrolls + 1 } := hfeed
    have hcells : (d₁.apply (.seq (.char 10))).cells =
        Picture.editRows d₁.cells d₁.blank d₁.t.top d₁.t.bottom 1 .delete := by
      have hmargins := h₁.ok.margins
      rw [Display.apply, hfeed, Display.become, if_neg (Nat.succ_ne_self _)]
      refine funext fun i => funext fun j => ?_
      dsimp only [Picture.editRows, Picture.deleteRows]
      split_ifs <;> first | rfl | omega
    have h' : Tracks k d₀ (((((tty.ttyReset k).ttyRegionPane k ctx ctx.orupper ctx.orlower).ttyCursorPane k ctx ctx.ocx
        ctx.ocy)).ttyPutc k 10) (d₁.apply (.seq (.char 10))) := by
      refine ⟨?_, h₁.rendition, .inl ?_, ?_⟩
      · exact List.foldl_append.trans (congrArg (List.foldl Display.apply · _) h₁.out)
      · rw [ht]
        exact h₁.pos
      · rw [ht]
        exact ⟨h₁.ok.width, h₁.ok.height, h₁.ok.x, h₁.ok.y, h₁.ok.margins⟩
    dsimp only
    rw [if_neg (by decide), if_neg fun hwrapped => hwrapped.1 hnum]
    refine ⟨_, rfl, commanded_of_rows (h.fullWidth.1 hfull) hlower h' (by rw [ht, ht₁]) (by rw [ht, ht₁]) ?_⟩
    rw [hcells, hplace.1, hplace.2, h₁.blank, hcells₁]

end

end TtyOut

end Tmux
