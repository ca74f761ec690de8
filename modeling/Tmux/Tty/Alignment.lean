import Tmux.Tty.Erasing

/-!
# The alignment test

The alignment test fills the screen with one character. The screen (`screenWriteAlignmenttest_depicts`) and the terminal
(`TtyOut.Tracks.ttyCmdAlignmenttest`) come to look the same.
-/

namespace Tmux

open Exec (uadd usub forget)

/-- What the alignment test looks like in a column. -/
def alignmentGlyph (k : TtyDevice) : Glyph := .text [69] (shown k.toTtyKind gridDefaultCell)

/-- A cell of one character that can be written. -/
def GridCell.IsPrintable (gc : GridCell) : Prop := gc.isUtf8 = false ∧ gc.isPadding = false ∧ isControl gc.data = false

instance (gc : GridCell) : Decidable gc.IsPrintable :=
  inferInstanceAs (Decidable (gc.isUtf8 = false ∧ gc.isPadding = false ∧ isControl gc.data = false))

variable {k : TtyDevice} {s : Screen} {g : Grid} {gl : GridLine} {d₀ d : Display} {tty : TtyOut} {ctx : TtyCtx}
  {r n sx x : ℕ}

/-! ## The screen -/

namespace GridLine

/-- A line of characters of one column fits. -/
theorem fits_of_plain (h : ∀ x < sx, (gl.cell x).IsPrintable) : gl.Fits sx := by
  have hwidth : ∀ x < sx, shownWidth (gl.shown x) = 1 := fun x hx => by
    rw [shownWidth, shown, (h x hx).1]
    rfl
  refine ⟨fun x hx hpad => ?_, fun y x _ hyx hcovers hx => ?_, fun x hx _ => ?_, fun x hx _ => ?_,
    fun x hx _ _ => (h x hx).2.2, fun x hx hutf8 => ?_⟩
  · exact absurd ((h x hx).2.1.symm.trans hpad) Bool.false_ne_true
  · rw [hwidth y (hyx.trans hx)] at hcovers
    omega
  · rw [hwidth x hx]
  · rw [hwidth x hx]
    exact hx
  · exact absurd ((h x hx).1.symm.trans hutf8) Bool.false_ne_true

theorem glyph_of_alignment (h : gl.cell x = { gridDefaultCell with data := 69 }) :
    gl.glyph k x = some (alignmentGlyph k) := by
  have hpad : (gl.cell x).isPadding = false := by
    rw [h]
    rfl
  have hshown : gl.shown x = ({ gridDefaultCell with data := 69 }, none) := by
    rw [shown, h]
    rfl
  have hcolour : shownColour k.toTtyKind { gridDefaultCell with data := 69 } = shownColour k.toTtyKind gridDefaultCell :=
    funext fun g => by cases g <;> rfl
  have hglyphs : cellGlyphs k { gridDefaultCell with data := 69 } none = [alignmentGlyph k] := by
    rw [alignmentGlyph, Tmux.shown, ← hcolour]
    unfold cellGlyphs
    rw [fixCell_default rfl rfl rfl fun g => by cases g <;> decide]
    rfl
  rw [glyph, start_of_not_padding hpad, hshown, Nat.sub_self, hglyphs]
  rfl

/-- The first cells of a line are set one after another. -/
theorem foldl_setCell (gl : GridLine) (gc : GridCell) (n x : ℕ) :
    ((List.range n).foldl (fun gl px => gl.setCell px gc) gl).cell x = if x < n then gc else gl.cell x := by
  induction n with
  | zero => exact (if_neg (Nat.not_lt_zero x)).symm
  | succ n ih =>
    rw [List.range_succ, List.foldl_append, List.foldl_cons, List.foldl_nil, setCell_cell, ih]
    split_ifs <;> first | rfl | omega

end GridLine

theorem setCells_row (h : g.Whole) (hn : n < Exec.word) (hr : r < g.sy) (hgl : g.row r = some gl) (gc : GridCell) :
    setCells g r gc n =
      pure (g.withLine (g.hsize + r) ((List.range n).foldl (fun gl px => gl.setCell px gc) gl)) := by
  induction n with
  | zero => exact congrArg pure (Grid.withLine_self hgl).symm
  | succ n ih =>
    have hbefore := ih (by omega)
    rw [setCells] at hbefore ⊢
    rw [List.range_succ, List.foldlM_append, hbefore, pure_bind, List.foldlM_cons,
      gridViewSetCell_withLine h hr _ hn, pure_bind, List.foldlM_nil, List.foldl_append, List.foldl_cons, List.foldl_nil]

/-- All cells of the first rows are set. -/
theorem setRows (h : g.Whole) (hsx : g.sx < Exec.word) (gc : GridCell) (hn : n ≤ g.sy) :
    ∃ g', (List.range n).foldlM (fun gd yy => setCells gd yy gc g.sx) g = pure g' ∧ g'.Whole ∧ g'.sx = g.sx ∧
      g'.sy = g.sy ∧ ∀ r < n, ∀ gl, g'.row r = some gl → ∀ x < g.sx, gl.cell x = gc := by
  induction n with
  | zero => exact ⟨g, rfl, h, rfl, rfl, fun r hr => absurd hr (Nat.not_lt_zero r)⟩
  | succ n ih =>
    obtain ⟨g₁, hrun, hwhole, hsx₁, hsy₁, hrows⟩ := ih (by omega)
    have hr : n < g₁.sy := by omega
    obtain ⟨gl, hgl⟩ := hwhole.exists_row hr
    refine ⟨_, ?_, hwhole.withLine (g₁.hsize + n) ((List.range g.sx).foldl (fun gl px => gl.setCell px gc) gl), hsx₁, hsy₁,
      fun r hlt gl' hgl' x hx => ?_⟩
    · rw [List.range_succ, List.foldlM_append, hrun, pure_bind, List.foldlM_cons, setCells_row hwhole hsx hr hgl,
        pure_bind, List.foldlM_nil]
    · rw [Grid.withLine_row hwhole hr] at hgl'
      split_ifs at hgl' with heq
      · rw [← Option.some.inj hgl', GridLine.foldl_setCell, if_pos hx]
      · exact hrows r (by omega) gl' hgl' x hx

/-- The alignment test is all of the screen. -/
theorem screenWriteAlignmenttest_depicts (h : s.Sound) (hsx : s.grid.sx < Exec.word) :
    ∃ s', screenWriteAlignmenttest s = pure s' ∧ s'.grid.Whole ∧ ∀ k, s'.Depicts k fun _ _ => alignmentGlyph k := by
  have hcursor := h.rows.cursor
  obtain ⟨g', hrun, hwhole, hsx', hsy', hrows⟩ := setRows h.whole hsx { gridDefaultCell with data := 69 } le_rfl
  refine ⟨{ s with grid := g', cx := 0, cy := 0, rupper := 0, rlower := s.grid.sy - 1 }, ?_, hwhole,
    fun k => Screen.depicts_of_rows fun y hy gl hgl => ?_⟩
  · rw [screenWriteAlignmenttest, hrun, pure_bind, Exec.usub_of_le (by omega), Exec.forget_pure, pure_bind]
  · have hcell := hrows y (hy.trans_eq hsy') gl hgl
    dsimp only
    rw [hsx']
    refine ⟨GridLine.fits_of_plain fun x hx => ?_, fun x hx => GridLine.glyph_of_alignment (hcell x hx)⟩
    rw [hcell x hx]
    decide

/-! ## The terminal -/

variable (ctx) in
theorem TtyOut.Tracks.ttyCmdAlignmenttest (h : Tracks k d₀ tty d) (hk : k.Commands) (hs : s.Within d.t ctx.xoff ctx.yoff)
    (hsy : 2 ≤ s.grid.sy) :
    ∃ tty', tty.ttyCmdAlignmenttest k ctx s = pure tty' ∧
      Commanded k d₀ d ctx.xoff ctx.yoff s (fun _ _ => alignmentGlyph k) (tty', false) := by
  have hwidth := hs.width
  obtain ⟨tty', d', hrun, h', hpainted⟩ := ttyCmdAlignmenttest_paints hk h hs hsy
  refine ⟨tty', hrun, d', h', ⟨hpainted.sx, hpainted.sy, fun i j hj hij => hpainted.kept i j hj (by omega)⟩,
    fun _ y hy x hx => hpainted.painted _ _ (by omega) ⟨by omega, by omega, by omega, by omega⟩⟩

end Tmux
