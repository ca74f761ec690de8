import Tmux.Tty.Commands

/-!
# Clearing parts of a pane

The commands that clear a part of a pane write spaces, or the sequences that clear a row from the cursor on or up to it.
Either way the columns they name become blank and all others stay (`Display.Painted`).

The commands for more than a line first set the scroll region to the rows of the pane, so that the cursor can go down
through all of them.
-/

namespace Tmux

open Device
open Exec (uadd usub)

/-- Columns of a display become others that are all the same, and the rest of the display stays. -/
structure Display.Painted (g : Glyph) (A : ℕ → ℕ → Prop) (d d' : Display) : Prop where
  sx : d'.t.sx = d.t.sx
  sy : d'.t.sy = d.t.sy
  painted : ∀ i, ∀ j < d.t.sx, A i j → d'.cells i j = g
  kept : ∀ i, ∀ j < d.t.sx, ¬A i j → d'.cells i j = d.cells i j

namespace Display

variable {d d' d'' : Display} {g : Glyph} {A B : ℕ → ℕ → Prop} {t : Terminal} {r : Rendition} {x y n : ℕ}

theorem Painted.refl (hA : ∀ i, ∀ j < d.t.sx, ¬A i j) (hsx : t.sx = d.t.sx) (hsy : t.sy = d.t.sy) :
    Painted g A d { d with t, r } :=
  ⟨hsx, hsy, fun i j hj hij => absurd hij (hA i j hj), fun _ _ _ _ => rfl⟩

theorem Painted.trans (h : Painted g A d d') (h' : Painted g B d' d'') : Painted g (fun i j => A i j ∨ B i j) d d'' where
  sx := h'.sx.trans h.sx
  sy := h'.sy.trans h.sy
  painted i j hj hij := by
    have hj' : j < d'.t.sx := h.sx.symm ▸ hj
    by_cases hB : B i j
    · exact h'.painted i j hj' hB
    · rw [h'.kept i j hj' hB]
      exact h.painted i j hj (hij.resolve_right hB)
  kept i j hj hij := by
    rw [h'.kept i j (h.sx.symm ▸ hj) fun hB => hij (.inr hB)]
    exact h.kept i j hj fun hA => hij (.inl hA)

theorem Painted.congr (h : Painted g A d d') (hAB : ∀ i, ∀ j < d.t.sx, A i j ↔ B i j) : Painted g B d d' where
  sx := h.sx
  sy := h.sy
  painted i j hj hij := h.painted i j hj ((hAB i j hj).2 hij)
  kept i j hj hij := h.kept i j hj fun hA => hij ((hAB i j hj).1 hA)

/-- Where the cursor is and what the rendition is does not matter. -/
theorem Painted.of_cells (h : Painted g A d' d'') (hsx : d'.t.sx = d.t.sx) (hsy : d'.t.sy = d.t.sy)
    (hcells : d'.cells = d.cells) : Painted g A d d'' where
  sx := h.sx.trans hsx
  sy := h.sy.trans hsy
  painted i j hj := h.painted i j (hsx.symm ▸ hj)
  kept i j hj hij := (h.kept i j (hsx.symm ▸ hj) hij).trans (congrFun (congrFun hcells i) j)

/-- Columns of a row that are filled. -/
theorem fill_painted (hsx : t.sx = d.t.sx) (hsy : t.sy = d.t.sy) :
    Painted g (fun i j => i = y ∧ x ≤ j ∧ j < x + n) d { (d.fill y x (List.replicate n g)) with t, r } where
  sx := hsx
  sy := hsy
  painted i j _ hij := by
    obtain ⟨rfl, hx, hn⟩ := hij
    refine (fill_cells hx).trans ?_
    rw [List.getElem?_replicate, if_pos (by omega), Option.getD_some]
  kept i j _ hij := by
    by_cases hi : i = y
    · rcases Nat.lt_or_ge j x with hj | hj
      · exact fill_cells_of_lt hj
      · refine fill_cells_of_le ?_
        rw [List.length_replicate]
        exact Nat.not_lt.1 fun hlt => hij ⟨hi, hj, hlt⟩
    · exact fill_cells_of_ne hi

end Display

/-- A terminal that the commands are proved for: it can set its scroll region, go to its origin and go down. -/
structure TtyDevice.Commands (k : TtyDevice) : Prop extends k.Draws where
  home : k.toTtyKind.has .home = true
  csr : k.edits .csr = true
  down : k.toTtyKind.has .cud = true ∨ k.toTtyKind.has .cud1 = true

/-- A pane keeps its place when the scroll region is set. -/
theorem Screen.Within.regioned {s : Screen} {t t' : Terminal} {ox oy x y top bottom : ℕ} (hs : s.Within t ox oy)
    (ht : t' = { t with x, y, top, bottom }) : s.Within t' ox oy := by
  rw [ht]
  exact ⟨hs.whole, hs.positive, hs.width, hs.height⟩

namespace TtyOut

variable {k : TtyDevice} {d₀ d : Display} {tty : TtyOut} {s : Screen} {ctx : TtyCtx} {cx cy n lo hi : ℕ}

/-- What is written has no style. -/
structure Plain (k : TtyDevice) (d₀ : Display) (tty : TtyOut) (d : Display) : Prop extends Tracks k d₀ tty d where
  cell : tty.cell = gridDefaultCell

/-- The same where the position of the cursor is known. -/
structure PlainAt (k : TtyDevice) (d₀ : Display) (tty : TtyOut) (d : Display) : Prop extends Placed k d₀ tty d where
  cell : tty.cell = gridDefaultCell

theorem PlainAt.plain (h : PlainAt k d₀ tty d) : Plain k d₀ tty d := ⟨h.tracks, h.cell⟩

theorem PlainAt.rendition_eq (h : PlainAt k d₀ tty d) : d.r = shown k.toTtyKind gridDefaultCell := by
  rw [← h.cell]
  exact h.rendition

theorem PlainAt.blank (h : PlainAt k d₀ tty d) : d.blank = blankGlyph k := by
  rw [Display.blank, h.rendition_eq]
  rfl

theorem Tracks.plain (h : Tracks k d₀ tty d) (hk : k.Draws) :
    Plain k d₀ (tty.ttyReset k) { d with r := shown k.toTtyKind gridDefaultCell } :=
  ⟨h.ttyReset hk, ttyReset_cell hk tty⟩

/-- A sequence that changes columns or rows leaves the cursor and the rendition alone. -/
theorem PlainAt.emit {item : TtyItem} (h : PlainAt k d₀ tty d) (ht : (d.apply item).t = d.t) (hr : (d.apply item).r = d.r) :
    PlainAt k d₀ (tty.emit [item]) (d.apply item) := by
  refine ⟨⟨?_, hr.trans h.rendition, ?_, ht.symm ▸ h.ok⟩, h.cell⟩
  · rw [TtyOut.emit, List.foldl_append, h.out]
    rfl
  · rw [ht]
    exact h.pos

theorem putcs_cell {ch : UInt8} (hch : isControl ch = false) (n : ℕ) (tty : TtyOut) :
    (TtyOut.putcs k ch n tty).cell = tty.cell := by
  induction n generalizing tty with
  | zero => rfl
  | succ n ih =>
    rw [TtyOut.putcs, ih, ttyPutc, hch]
    rfl

/-- A character that has no style is written several times. -/
theorem PlainAt.putcs (h : PlainAt k d₀ tty d) (hk : k.Draws) {ch : UInt8} (hch : isControl ch = false)
    (hroom : d.t.x + n ≤ d.t.sx) :
    ∃ d', PlainAt k d₀ (TtyOut.putcs k ch n tty) d' ∧ d'.t = { d.t with x := d.t.x + n } ∧
      Display.Painted (.text [ch] (shown k.toTtyKind gridDefaultCell))
        (fun i j => i = d.t.y ∧ d.t.x ≤ j ∧ j < d.t.x + n) d d' := by
  have hput := h.toPlaced.putcs hk hch hroom
  have htext : charText k tty.cell.attr ch = [ch] := by
    rw [h.cell]
    rfl
  rw [htext, h.rendition_eq] at hput
  refine ⟨_, ⟨hput, (putcs_cell hch n tty).trans h.cell⟩, ?_, Display.fill_painted rfl rfl⟩
  rw [Display.put, List.length_replicate]
  rfl

/-- The cursor is moved in a pane. -/
theorem Plain.ttyCursorPane (h : Plain k d₀ tty d) (hk : k.Draws) (hs : s.Within d.t ctx.xoff ctx.yoff)
    (hcx : cx < s.grid.sx) (hcy : cy < s.grid.sy) :
    ∃ d', PlainAt k d₀ (tty.ttyCursorPane k ctx cx cy) d' ∧
      d'.t = { d.t with x := ctx.xoff + cx, y := ctx.yoff + cy } ∧ d'.cells = d.cells := by
  have hwidth := hs.width
  have hheight := hs.height
  have hsx := h.ok.width
  have hsy := h.ok.height
  have hx : uadd ctx.xoff cx = ctx.xoff + cx := Exec.uadd_of_lt (by simp only [Exec.word]; omega)
  have hy : uadd ctx.yoff cy = ctx.yoff + cy := Exec.uadd_of_lt (by simp only [Exec.word]; omega)
  have hcol : min (ctx.xoff + cx) (d.t.sx - 1) = ctx.xoff + cx := by omega
  have hmoved := h.toTracks.ttyCursor (x := ctx.xoff + cx) hk (show ctx.yoff + cy < d.t.sy by omega)
  rw [hcol] at hmoved
  rw [TtyOut.ttyCursorPane, hx, hy]
  exact ⟨_, ⟨hmoved, h.cell⟩, rfl, rfl⟩

/-- The attributes are reset, and the cursor is moved in a pane. -/
theorem Tracks.ttyCursorPane (h : Tracks k d₀ tty d) (hk : k.Draws) (hs : s.Within d.t ctx.xoff ctx.yoff)
    (hcx : cx < s.grid.sx) (hcy : cy < s.grid.sy) :
    ∃ d', PlainAt k d₀ ((tty.ttyReset k).ttyCursorPane k ctx cx cy) d' ∧
      d'.t = { d.t with x := ctx.xoff + cx, y := ctx.yoff + cy } ∧ d'.cells = d.cells :=
  (h.plain hk).ttyCursorPane (d := { d with r := shown k.toTtyKind gridDefaultCell }) hk hs hcx hcy

/-! ## A line -/

/-- The row of the cursor is cleared from there on. -/
theorem PlainAt.el (h : PlainAt k d₀ tty d) (hx : d.t.x < d.t.sx) :
    ∃ d', PlainAt k d₀ (tty.emit [.el]) d' ∧ d'.t = d.t ∧
      Display.Painted (blankGlyph k) (fun i j => i = d.t.y ∧ d.t.x ≤ j) d d' := by
  have hcol : d.column = d.t.x := by
    rw [Display.column]
    omega
  have hpainted : Display.Painted (blankGlyph k) (fun i j => i = d.t.y ∧ d.t.x ≤ j ∧ j < d.t.x + (d.t.sx - d.t.x)) d
      (d.apply .el) := by
    rw [Display.apply, hcol, h.blank]
    exact Display.fill_painted rfl rfl
  exact ⟨_, h.emit rfl rfl, rfl, hpainted.congr fun i j hj => by omega⟩

/-- The rest of a line is cleared. -/
theorem PlainAt.clearRest (h : PlainAt k d₀ tty d) (hk : k.Draws) (ctx : TtyCtx) (s : Screen) (hroom : d.t.x + n ≤ d.t.sx) (hx : d.t.x < d.t.sx)
    (hfull : ctx.xoff = 0 → d.t.sx ≤ s.grid.sx → d.t.x + n = d.t.sx) :
    ∃ d' x, PlainAt k d₀ (tty.clearRest k ctx s n) d' ∧ d'.t = { d.t with x } ∧
      Display.Painted (blankGlyph k) (fun i j => i = d.t.y ∧ d.t.x ≤ j ∧ j < d.t.x + n) d d' := by
  have hsx : tty.pos.sx = d.t.sx := congrArg TtyPosition.sx h.pos
  rw [TtyOut.clearRest, ttyPaneFullWidth, hsx]
  split_ifs with hel
  · simp only [Bool.and_eq_true, decide_eq_true_eq] at hel
    have hend := hfull hel.1.1 hel.1.2
    obtain ⟨d', h', ht, hpainted⟩ := h.el hx
    exact ⟨d', d.t.x, h', ht, hpainted.congr fun i j hj => by omega⟩
  · obtain ⟨d', h', ht, hpainted⟩ := h.putcs hk (show isControl 32 = false by decide) hroom
    exact ⟨d', _, h', ht, hpainted⟩

/-- Part of a pane is cleared, and what is tracked stays right. -/
def Clears (k : TtyDevice) (d₀ d : Display) (tty : TtyOut) (A : ℕ → ℕ → Prop) : Prop :=
  ∃ d', Tracks k d₀ tty d' ∧ Display.Painted (blankGlyph k) A d d'

section Lines

variable (hk : k.Commands) (h : Tracks k d₀ tty d) (hs : s.Within d.t ctx.xoff ctx.yoff) (hcy : ctx.ocy < s.grid.sy)

include hk h hs hcy

/-- The line of the cursor is cleared from a column on. -/
theorem clearFrom_clears (hcx : cx < s.grid.sx) :
    Clears k d₀ d (((tty.ttyReset k).ttyCursorPane k ctx cx ctx.ocy).clearRest k ctx s (s.grid.sx - cx)) fun i j =>
      i = ctx.yoff + ctx.ocy ∧ ctx.xoff + cx ≤ j ∧ j < ctx.xoff + s.grid.sx := by
  have hwidth := hs.width
  obtain ⟨d₁, hat, ht, hcells⟩ := h.ttyCursorPane hk.toDraws hs hcx hcy
  have hroom : d₁.t.x + (s.grid.sx - cx) ≤ d₁.t.sx := by
    rw [ht]
    dsimp only
    omega
  obtain ⟨d', x, hat', -, hpainted⟩ := hat.clearRest hk.toDraws ctx s hroom (by rw [ht]; dsimp only; omega)
    fun h0 hle => by rw [ht] at hle ⊢; dsimp only at hle ⊢; omega
  rw [ht] at hpainted
  refine ⟨d', hat'.tracks, (hpainted.of_cells (by rw [ht]) (by rw [ht]) hcells).congr fun i j _ => ?_⟩
  dsimp only
  omega

theorem ttyCmdClearline_clears : Clears k d₀ d (tty.ttyCmdClearline k ctx s) fun i j =>
    i = ctx.yoff + ctx.ocy ∧ ctx.xoff ≤ j ∧ j < ctx.xoff + s.grid.sx :=
  clearFrom_clears hk h hs hcy hs.positive

theorem ttyCmdClearendofline_clears (hcx : ctx.ocx < s.grid.sx) :
    Clears k d₀ d (tty.ttyCmdClearendofline k ctx s) fun i j =>
      i = ctx.yoff + ctx.ocy ∧ ctx.xoff + ctx.ocx ≤ j ∧ j < ctx.xoff + s.grid.sx :=
  clearFrom_clears hk h hs hcy hcx

theorem ttyCmdClearstartofline_clears (hcx : ctx.ocx < s.grid.sx) :
    Clears k d₀ d (tty.ttyCmdClearstartofline k ctx) fun i j =>
      i = ctx.yoff + ctx.ocy ∧ ctx.xoff ≤ j ∧ j ≤ ctx.xoff + ctx.ocx := by
  have hwidth := hs.width
  have hsx := h.ok.width
  rw [ttyCmdClearstartofline]
  split_ifs with hel1
  · obtain ⟨d₁, hat, ht, hcells⟩ := h.ttyCursorPane hk.toDraws hs hcx hcy
    have hpainted : Display.Painted (blankGlyph k) (fun i j => i = d₁.t.y ∧ 0 ≤ j ∧ j < 0 + (d₁.column + 1)) d₁
        (d₁.apply .el1) := by
      rw [Display.apply, hat.blank]
      exact Display.fill_painted rfl rfl
    rw [Display.column, ht] at hpainted
    refine ⟨_, (hat.emit rfl rfl).tracks, (hpainted.of_cells (by rw [ht]) (by rw [ht]) hcells).congr fun i j _ => ?_⟩
    dsimp only
    omega
  · obtain ⟨d₁, hat, ht, hcells⟩ := h.ttyCursorPane hk.toDraws hs hs.positive hcy
    have hn : uadd ctx.ocx 1 = ctx.ocx + 1 := Exec.uadd_of_lt (by simp only [Exec.word]; omega)
    have hroom : d₁.t.x + uadd ctx.ocx 1 ≤ d₁.t.sx := by
      rw [ht, hn]
      dsimp only
      omega
    obtain ⟨d', hat', -, hpainted⟩ := hat.putcs hk.toDraws (show isControl 32 = false by decide) hroom
    rw [ht, hn] at hpainted
    refine ⟨_, hat'.tracks, (hpainted.of_cells (by rw [ht]) (by rw [ht]) hcells).congr fun i j _ => ?_⟩
    dsimp only
    omega

end Lines

/-! ## The scroll region -/

/-- From the origin, the cursor is not moved to the origin. -/
theorem ttyCursor_origin (hk : k.Commands) {pos : TtyPosition} {t : Terminal} (hsx : pos.sx = t.sx) (hw : t.sx < 2147483648)
    (hcx : pos.cx < t.sx) (hx : t.x = 0) (hy : t.y = 0) :
    after Terminal.apply (Tmux.ttyCursor k.toTtyKind pos 0 0) t = t ∧
      value (Tmux.ttyCursor k.toTtyKind pos 0 0) = { pos with cx := 0, cy := 0 } := by
  have hwidth : toWord ((pos.sx : ℤ) - 1) = t.sx - 1 := by
    rw [hsx, toWord]
    omega
  rw [Tmux.ttyCursor, if_neg (Nat.not_lt_zero _)]
  by_cases hsame : 0 = pos.cx ∧ 0 = pos.cy
  · rw [if_pos hsame, after_pure, value_pure]
    obtain ⟨sx, cx, cy, rupper, rlower⟩ := pos
    obtain ⟨rfl, rfl⟩ := hsame
    exact ⟨rfl, rfl⟩
  · rw [if_neg hsame, after_bind, after_pure, value_bind, value_pure, ttyCursorMove, hwidth, if_neg (by omega),
      if_pos ⟨rfl, rfl, hk.home⟩, after_putcode hk.home, Terminal.apply_home, Terminal.moveTo, Nat.zero_min, Nat.zero_min]
    obtain ⟨sx, sy, x, y, top, bottom, scrolls⟩ := t
    obtain rfl : x = 0 := hx
    obtain rfl : y = 0 := hy
    exact ⟨rfl, rfl⟩

/-- From behind the last column, the cursor is moved absolutely. -/
theorem ttyCursor_behind (hk : k.Draws) (pos : TtyPosition) {t : Terminal} {y : ℕ} (hsx : pos.sx = t.sx)
    (hw : 0 < t.sx ∧ t.sx < 2147483648) (hcx : t.sx ≤ pos.cx) :
    after Terminal.apply (Tmux.ttyCursor k.toTtyKind pos 0 y) t = t.moveTo 0 y ∧
      value (Tmux.ttyCursor k.toTtyKind pos 0 y) = { pos with cx := 0, cy := y } := by
  have hwidth : toWord ((pos.sx : ℤ) - 1) = t.sx - 1 := by
    rw [hsx, toWord]
    omega
  have hmove : ¬(0 = pos.cx ∧ y = pos.cy) := by omega
  rw [Tmux.ttyCursor, if_neg (Nat.not_lt_zero _), if_neg hmove, after_bind, after_pure, value_bind, value_pure,
    ttyCursorMove, hwidth, if_pos (by omega), ttyPutcode2, if_pos hk.cup, after_write, Terminal.apply_cup]
  exact ⟨rfl, rfl⟩

/-- The scroll region is set from wherever the cursor is. -/
theorem emit_csr (hk : k.Commands) (hok : d.t.Ok) {a b x y : ℕ} (hab : a < b) (hb : b < d.t.sy)
    (hout : tty.out.foldl Display.apply d₀ = { d with t := { d.t with x, y } })
    (hrendition : d.r = shown k.toTtyKind tty.cell) (hsx : tty.pos.sx = d.t.sx) (hcx : tty.pos.cx < d.t.sx)
    (hu : tty.pos.rupper = a) (hl : tty.pos.rlower = b) :
    Placed k d₀ ((tty.emit [.csr a b]).ttyCursor k 0 0)
      { d with t := { d.t with x := 0, y := 0, top := a, bottom := b } } := by
  have hregion : (tty.emit [.csr a b]).out.foldl Display.apply d₀ =
      { d with t := { d.t with x := 0, y := 0, top := a, bottom := b } } := by
    rw [TtyOut.emit, List.foldl_append, hout, List.foldl_cons, List.foldl_nil, Display.apply]
    exact if_pos ⟨hab, hb⟩
  have horigin := ttyCursor_origin (t := { d.t with x := 0, y := 0, top := a, bottom := b }) hk hsx hok.width.2 hcx rfl rfl
  have hfinal := out_ttyCursor (x := 0) (y := 0) hregion horigin.1 rfl
  refine ⟨hfinal, hrendition, horigin.2.trans ?_, ?_⟩
  · rw [Terminal.position, ← hu, ← hl, ← hsx]
  · have hy := hok.y
    exact ⟨hok.width, hok.height, Nat.zero_le _, by dsimp only; omega, hab.le, hb⟩

/-- The scroll region is set. -/
theorem Tracks.ttyRegion (h : Tracks k d₀ tty d) (hk : k.Commands) {a b : ℕ} (hab : a < b) (hb : b < d.t.sy) :
    ∃ d' x y, Tracks k d₀ (tty.ttyRegion k a b) d' ∧ (tty.ttyRegion k a b).cell = tty.cell ∧
      d'.t = { d.t with x, y, top := a, bottom := b } ∧ d'.cells = d.cells := by
  have hwidth := h.ok.width
  have hmargins : tty.pos.sx = d.t.sx ∧ tty.pos.rupper = d.t.top ∧ tty.pos.rlower = d.t.bottom := by
    rcases h.pos with hpos | hpos <;> rw [hpos] <;> exact ⟨rfl, rfl, rfl⟩
  have hset : ∀ {tty' : TtyOut} {x y : ℕ}, tty'.out.foldl Display.apply d₀ = { d with t := { d.t with x, y } } →
      tty'.cell = tty.cell → tty'.pos.sx = d.t.sx → tty'.pos.cx < d.t.sx → tty'.pos.rupper = a → tty'.pos.rlower = b →
      ∃ d' x y, Tracks k d₀ ((tty'.emit [.csr a b]).ttyCursor k 0 0) d' ∧
        ((tty'.emit [.csr a b]).ttyCursor k 0 0).cell = tty.cell ∧
        d'.t = { d.t with x, y, top := a, bottom := b } ∧ d'.cells = d.cells :=
    fun hout hcell hsx hcx hu hl =>
      ⟨_, _, _, (emit_csr hk h.ok hab hb hout (by rw [hcell]; exact h.rendition) hsx hcx hu hl).tracks, hcell, rfl, rfl⟩
  rw [TtyOut.ttyRegion, hk.csr]
  dsimp only
  split_ifs with hsame hcsr hcol hunknown
  · refine ⟨d, d.t.x, d.t.y, h, rfl, ?_, rfl⟩
    rw [← hsame.1, ← hsame.2, hmargins.2.1, hmargins.2.2]
  · exact absurd hcsr Bool.false_ne_true
  · exact hset (x := d.t.x) (y := d.t.y) h.out rfl hmargins.1 hwidth.1 rfl rfl
  · obtain ⟨hafter, hvalue⟩ := ttyCursor_behind (y := tty.pos.cy) hk.toDraws
      { tty.pos with rupper := a, rlower := b } hmargins.1 hwidth (hmargins.1 ▸ hcol)
    have hout : { tty with pos := { tty.pos with rupper := a, rlower := b } }.out.foldl Display.apply d₀ = d := h.out
    have hzero : (value (Tmux.ttyCursor k.toTtyKind { tty.pos with rupper := a, rlower := b } 0 tty.pos.cy)).cx < d.t.sx := by
      rw [hvalue]
      exact hwidth.1
    exact hset (out_ttyCursor hout hafter rfl) rfl ((congrArg TtyPosition.sx hvalue).trans hmargins.1) hzero
      (congrArg TtyPosition.rupper hvalue) (congrArg TtyPosition.rlower hvalue)
  · exact hset (x := d.t.x) (y := d.t.y) h.out rfl hmargins.1 (hmargins.1 ▸ Nat.not_le.1 hcol) rfl rfl

theorem Plain.ttyRegion (h : Plain k d₀ tty d) (hk : k.Commands) {a b : ℕ} (hab : a < b) (hb : b < d.t.sy) :
    ∃ d' x y, Plain k d₀ (tty.ttyRegion k a b) d' ∧ d'.t = { d.t with x, y, top := a, bottom := b } ∧
      d'.cells = d.cells := by
  obtain ⟨d', x, y, h', hcell, ht, hcells⟩ := h.toTracks.ttyRegion hk hab hb
  exact ⟨d', x, y, ⟨h', hcell.trans h.cell⟩, ht, hcells⟩

/-- The scroll region is set in a pane. -/
theorem Plain.ttyRegionPane (h : Plain k d₀ tty d) (hk : k.Commands) (hs : s.Within d.t ctx.xoff ctx.yoff) {a b : ℕ}
    (hab : a < b) (hb : b < s.grid.sy) :
    ∃ d' x y, Plain k d₀ (tty.ttyRegionPane k ctx a b) d' ∧
      d'.t = { d.t with x, y, top := ctx.yoff + a, bottom := ctx.yoff + b } ∧ d'.cells = d.cells := by
  have hheight := hs.height
  have hsy := h.ok.height
  have ha : uadd ctx.yoff a = ctx.yoff + a := Exec.uadd_of_lt (by simp only [Exec.word]; omega)
  have hb' : uadd ctx.yoff b = ctx.yoff + b := Exec.uadd_of_lt (by simp only [Exec.word]; omega)
  rw [TtyOut.ttyRegionPane, ha, hb']
  exact h.ttyRegion hk (by omega) (by omega)

/-! ## Rows -/

/-- One row down in the scroll region. -/
theorem PlainAt.cursorDownRow (h : PlainAt k d₀ tty d) (hk : k.Commands) (hy : d.t.y < d.t.bottom) :
    PlainAt k d₀ (tty.cursorDownRow k) { d with t := { d.t with y := d.t.y + 1 } } := by
  have hmargins := h.ok.margins
  have hheight := h.ok.height
  have hdown : d.t.down 1 = { d.t with y := d.t.y + 1 } := by
    rw [Terminal.down, if_pos hy.le, Nat.min_eq_left hy]
  have hbecome : d.become (d.t.down 1) = { d with t := { d.t with y := d.t.y + 1 } } := by
    rw [hdown]
    exact Display.become_of_scrolls rfl
  have hout : ((tty.cursorDownRow k).out.foldl Display.apply d₀) = { d with t := { d.t with y := d.t.y + 1 } } := by
    rw [TtyOut.cursorDownRow, ttyEmulateRepeat]
    dsimp only
    split_ifs with hcud hcud1
    · rw [TtyOut.emit, List.foldl_append, h.out]
      exact congrArg (fun d' : Display => { d' with r := d.r }) hbecome
    · rw [TtyOut.emit, List.foldl_append, h.out]
      exact congrArg (fun d' : Display => { d' with r := d.r }) hbecome
    · exact absurd hk.down (not_or.2 ⟨hcud, hcud1⟩)
  have hpos : (tty.cursorDownRow k).pos = { d.t with y := d.t.y + 1 }.position := by
    have hcy : uadd d.t.y 1 = d.t.y + 1 := Exec.uadd_of_lt (by simp only [Exec.word]; omega)
    have hdown : (tty.cursorDownRow k).pos = { tty.pos with cy := uadd tty.pos.cy 1 } := by
      rw [TtyOut.cursorDownRow, ttyEmulateRepeat]
      dsimp only
      split_ifs <;> rfl
    rw [hdown, h.pos, Terminal.position, hcy]
    rfl
  have hcell : (tty.cursorDownRow k).cell = tty.cell := by
    rw [TtyOut.cursorDownRow, ttyEmulateRepeat]
    dsimp only
    split_ifs <;> rfl
  exact ⟨⟨hout, by rw [hcell]; exact h.rendition, hpos, h.ok.width, hheight, h.ok.x, by dsimp only; omega, hmargins⟩,
    hcell.trans h.cell⟩

/-- Rows are cleared from the column of the cursor on, down to one in the scroll region. -/
theorem PlainAt.clearDown (h : PlainAt k d₀ tty d) (hk : k.Commands) (hx : d.t.x < d.t.sx) (hy : d.t.y + n ≤ d.t.bottom) :
    ∃ d', PlainAt k d₀ (TtyOut.clearDown k n tty) d' ∧ d'.t = { d.t with y := d.t.y + n } ∧
      Display.Painted (blankGlyph k) (fun i j => d.t.y ≤ i ∧ i < d.t.y + n ∧ d.t.x ≤ j) d d' := by
  induction n generalizing tty d with
  | zero => exact ⟨d, h, rfl, .refl (fun i j _ hij => by omega) rfl rfl⟩
  | succ n ih =>
    obtain ⟨d₁, h₁, ht₁, hpainted⟩ := h.el hx
    have hdown := h₁.cursorDownRow hk (by rw [ht₁]; omega)
    obtain ⟨d', h', ht, hrest⟩ := ih hdown (show d₁.t.x < d₁.t.sx by rw [ht₁]; exact hx)
      (show d₁.t.y + 1 + n ≤ d₁.t.bottom by rw [ht₁]; omega)
    refine ⟨d', h', ?_, ((hpainted.trans (hrest.of_cells rfl rfl rfl)).congr fun i j _ => ?_)⟩
    · rw [ht, ht₁, Nat.add_assoc, Nat.add_comm 1 n]
    · rw [ht₁]
      dsimp only
      omega

/-- Rows are cleared from the column of the cursor on, the last one of them in the scroll region. -/
theorem PlainAt.clearRows (h : PlainAt k d₀ tty d) (hk : k.Commands) (hx : d.t.x < d.t.sx)
    (hy : d.t.y + n ≤ d.t.bottom + 1) :
    ∃ d', PlainAt k d₀ (TtyOut.clearRows k n tty) d' ∧
      Display.Painted (blankGlyph k) (fun i j => d.t.y ≤ i ∧ i < d.t.y + n ∧ d.t.x ≤ j) d d' := by
  cases n with
  | zero => exact ⟨d, h, .refl (fun i j _ hij => by omega) rfl rfl⟩
  | succ n =>
    obtain ⟨d₁, h₁, ht₁, hpainted⟩ := h.clearDown hk hx (n := n) (by omega)
    obtain ⟨d', h', ht, hrest⟩ := h₁.el (by rw [ht₁]; exact hx)
    refine ⟨d', h', (hpainted.trans hrest).congr fun i j _ => ?_⟩
    rw [ht₁]
    dsimp only
    omega

/-- Rows of a pane are written with a character that has no style. -/
theorem Plain.rows {ch : UInt8} (h : Plain k d₀ tty d) (hk : k.Draws) (hs : s.Within d.t ctx.xoff ctx.yoff)
    (hch : isControl ch = false) (hn : lo + n ≤ s.grid.sy) :
    ∃ d' x y, Plain k d₀ ((List.range' lo n).foldl
        (fun tty j => putcs k ch s.grid.sx (tty.ttyCursorPane k ctx 0 j)) tty) d' ∧ d'.t = { d.t with x, y } ∧
      Display.Painted (.text [ch] (shown k.toTtyKind gridDefaultCell)) (fun i j => ctx.yoff + lo ≤ i ∧
        i < ctx.yoff + (lo + n) ∧ ctx.xoff ≤ j ∧ j < ctx.xoff + s.grid.sx) d d' := by
  induction n with
  | zero => exact ⟨d, d.t.x, d.t.y, h, rfl, .refl (fun i j _ hij => by omega) rfl rfl⟩
  | succ n ih =>
    have hwidth := hs.width
    obtain ⟨d₁, x, y, h₁, ht₁, hpainted⟩ := ih (by omega)
    have hs₁ : s.Within d₁.t ctx.xoff ctx.yoff := hs.moved ⟨x, y, ht₁⟩
    obtain ⟨d₂, h₂, ht₂, hcells⟩ := h₁.ttyCursorPane hk hs₁ hs.positive (show lo + n < s.grid.sy by omega)
    obtain ⟨d', h', ht, hrow⟩ := h₂.putcs (n := s.grid.sx) hk hch (by
      rw [ht₂, ht₁]
      dsimp only
      omega)
    have hrow' := hrow.of_cells (d := d₁) (by rw [ht₂]) (by rw [ht₂]) hcells
    rw [ht₂] at hrow'
    refine ⟨d', _, _, ?_, ht.trans (by rw [ht₂, ht₁]), (hpainted.trans hrow').congr fun i j _ => ?_⟩
    · rw [List.range'_1_concat, List.foldl_append]
      exact h'.plain
    · dsimp only
      omega

/-! ## The screen -/

/-- A pane of full width starts at the first column and goes up to the last one. -/
theorem PlainAt.fullWidth (h : PlainAt k d₀ tty d) (hfull : (tty.ttyPaneFullWidth ctx s && k.edits .el) = true) :
    ctx.xoff = 0 ∧ d.t.sx ≤ s.grid.sx := by
  have hsx : tty.pos.sx = d.t.sx := congrArg TtyPosition.sx h.pos
  rw [ttyPaneFullWidth, hsx] at hfull
  simp only [Bool.and_eq_true, decide_eq_true_eq] at hfull
  exact hfull.1

/-- The size less one. -/
theorem usub_last (hsy : 2 ≤ s.grid.sy) : usub s.grid.sy 1 = pure (s.grid.sy - 1) := Exec.usub_of_le (by omega)

section Screens

variable (hk : k.Commands) (h : Tracks k d₀ tty d) (hs : s.Within d.t ctx.xoff ctx.yoff) (hsy : 2 ≤ s.grid.sy)

include hk h hs hsy

/-- The scroll region is set to all of a pane, and the cursor moved in it. -/
theorem region_cursor (hcx : cx < s.grid.sx) (hcy : cy < s.grid.sy) :
    ∃ d', PlainAt k d₀ (((tty.ttyReset k).ttyRegionPane k ctx 0 (s.grid.sy - 1)).ttyCursorPane k ctx cx cy) d' ∧
      d'.t = { d.t with
        x := ctx.xoff + cx
        y := ctx.yoff + cy
        top := ctx.yoff
        bottom := ctx.yoff + (s.grid.sy - 1) } ∧
      d'.cells = d.cells := by
  obtain ⟨d₁, x, y, h₁, ht₁, hcells₁⟩ := (h.plain hk.toDraws).ttyRegionPane (s := s) hk hs
    (show 0 < s.grid.sy - 1 by omega) (by omega)
  obtain ⟨d₂, h₂, ht₂, hcells₂⟩ := h₁.ttyCursorPane hk.toDraws (hs.regioned ht₁) hcx hcy
  exact ⟨d₂, h₂, by rw [ht₂, ht₁]; rfl, hcells₂.trans hcells₁⟩

theorem ttyCmdClearscreen_clears : ∃ tty', tty.ttyCmdClearscreen k ctx s = pure tty' ∧ Clears k d₀ d tty' fun i j =>
    ctx.yoff ≤ i ∧ i < ctx.yoff + s.grid.sy ∧ ctx.xoff ≤ j ∧ j < ctx.xoff + s.grid.sx := by
  have hwidth := hs.width
  have hpositive := hs.positive
  obtain ⟨d₁, h₁, ht₁, hcells₁⟩ := region_cursor hk h hs hsy hs.positive (show 0 < s.grid.sy by omega)
  refine ⟨_, by rw [ttyCmdClearscreen, usub_last hsy]; rfl, ?_⟩
  split_ifs with hfull
  · obtain ⟨hzero, hle⟩ := h₁.fullWidth hfull
    rw [ht₁] at hle
    obtain ⟨d', h', hpainted⟩ := h₁.clearRows (n := s.grid.sy) hk (by rw [ht₁]; dsimp only; omega)
      (by rw [ht₁]; dsimp only; omega)
    rw [ht₁] at hpainted
    refine ⟨d', h'.tracks, (hpainted.of_cells (by rw [ht₁]) (by rw [ht₁]) hcells₁).congr fun i j hj => ?_⟩
    dsimp only at hle ⊢
    omega
  · obtain ⟨d', x, y, h', -, hpainted⟩ := h₁.plain.rows hk.toDraws (hs.regioned ht₁)
      (show isControl 32 = false by decide) (show 0 + s.grid.sy ≤ s.grid.sy by omega)
    refine ⟨d', h'.toTracks, (hpainted.of_cells (by rw [ht₁]) (by rw [ht₁]) hcells₁).congr fun i j _ => ?_⟩
    omega

theorem ttyCmdClearendofscreen_clears (hcx : ctx.ocx < s.grid.sx) (hcy : ctx.ocy < s.grid.sy) :
    ∃ tty', tty.ttyCmdClearendofscreen k ctx s = pure tty' ∧ Clears k d₀ d tty' fun i j =>
      (i = ctx.yoff + ctx.ocy ∧ ctx.xoff + ctx.ocx ≤ j ∨ ctx.yoff + ctx.ocy < i ∧ i < ctx.yoff + s.grid.sy ∧ ctx.xoff ≤ j) ∧
        j < ctx.xoff + s.grid.sx := by
  have hwidth := hs.width
  have hheight := hs.height
  have hpositive := hs.positive
  have hwhole := hs.whole
  have hsy' := h.ok.height
  obtain ⟨d₁, h₁, ht₁, hcells₁⟩ := region_cursor hk h hs hsy hcx hcy
  have hnext : uadd ctx.ocy 1 = ctx.ocy + 1 := Exec.uadd_of_lt (by simp only [Exec.word]; omega)
  refine ⟨_, by rw [ttyCmdClearendofscreen, usub_last hsy, hnext]; rfl, ?_⟩
  split_ifs with hfull hlast
  · -- The line of the cursor and all below it, by the sequence.
    obtain ⟨hzero, hle⟩ := h₁.fullWidth hfull
    rw [ht₁] at hle
    obtain ⟨d₂, h₂, ht₂, hline⟩ := h₁.el (by rw [ht₁]; dsimp only; omega)
    obtain ⟨d₃, h₃, ht₃, hcells₃⟩ := h₂.plain.ttyCursorPane (s := s) hk.toDraws
      (hs.regioned (ht₂.trans ht₁)) hpositive (show ctx.ocy + 1 < s.grid.sy by omega)
    obtain ⟨d', h', hrows⟩ := h₃.clearRows (n := s.grid.sy - (ctx.ocy + 1)) hk
      (by rw [ht₃, ht₂, ht₁]; dsimp only; omega) (by rw [ht₃, ht₂, ht₁]; dsimp only; omega)
    have hline' := hline.of_cells (d := d) (by rw [ht₁]) (by rw [ht₁]) hcells₁
    have hrows' := hrows.of_cells (d := d₂) (by rw [ht₃]) (by rw [ht₃]) hcells₃
    rw [ht₁] at hline'
    rw [ht₃] at hrows'
    refine ⟨d', h'.tracks, (hline'.trans hrows').congr fun i j hj => ?_⟩
    dsimp only at hle ⊢
    omega
  · -- The last line.
    obtain ⟨hzero, hle⟩ := h₁.fullWidth hfull
    rw [ht₁] at hle
    obtain ⟨d', h', -, hline⟩ := h₁.el (by rw [ht₁]; dsimp only; omega)
    have hline' := hline.of_cells (d := d) (by rw [ht₁]) (by rw [ht₁]) hcells₁
    rw [ht₁] at hline'
    refine ⟨d', h'.tracks, hline'.congr fun i j hj => ?_⟩
    dsimp only at hle ⊢
    omega
  · -- With spaces.
    obtain ⟨d₂, h₂, ht₂, hline⟩ := h₁.putcs (n := s.grid.sx - ctx.ocx) hk.toDraws (show isControl 32 = false by decide)
      (by rw [ht₁]; dsimp only; omega)
    obtain ⟨d', x, y, h', -, hrows⟩ := h₂.plain.rows (s := s) hk.toDraws (hs.regioned (by rw [ht₂, ht₁]))
      (show isControl 32 = false by decide) (show ctx.ocy + 1 + (s.grid.sy - (ctx.ocy + 1)) ≤ s.grid.sy by omega)
    have hline' := hline.of_cells (d := d) (by rw [ht₁]) (by rw [ht₁]) hcells₁
    rw [ht₁] at hline'
    refine ⟨d', h'.toTracks, (hline'.trans hrows).congr fun i j _ => ?_⟩
    dsimp only
    omega

theorem ttyCmdClearstartofscreen_clears (hcx : ctx.ocx < s.grid.sx) (hcy : ctx.ocy < s.grid.sy)
    (hplace : ctx.ocy = 0 ∨ ctx.xoff = 0 ∧ d.t.sx ≤ s.grid.sx ∧ k.edits .el = true) :
    ∃ tty', tty.ttyCmdClearstartofscreen k ctx s = pure tty' ∧ Clears k d₀ d tty' fun i j =>
      (i = ctx.yoff + ctx.ocy ∧ j ≤ ctx.xoff + ctx.ocx ∨ ctx.yoff ≤ i ∧ i < ctx.yoff + ctx.ocy ∧ j < ctx.xoff + s.grid.sx) ∧
        ctx.xoff ≤ j := by
  have hwidth := hs.width
  have hpositive := hs.positive
  have hsx := h.ok.width
  obtain ⟨d₁, h₁, ht₁, hcells₁⟩ := region_cursor hk h hs hsy hs.positive (show 0 < s.grid.sy by omega)
  have hnext : uadd ctx.ocx 1 = ctx.ocx + 1 := Exec.uadd_of_lt (by simp only [Exec.word]; omega)
  -- From the start of the last line, with the rows above it clear.
  have hline : ∀ {tty₂ d₂}, PlainAt k d₀ tty₂ d₂ → d₂.t = { d₁.t with y := ctx.yoff + ctx.ocy } →
      Display.Painted (blankGlyph k) (fun i j => ctx.yoff ≤ i ∧ i < ctx.yoff + ctx.ocy ∧ ctx.xoff ≤ j ∧
        j < ctx.xoff + s.grid.sx) d₁ d₂ → Clears k d₀ d (tty₂.ttyRepeatSpace k (ctx.ocx + 1)) fun i j =>
      (i = ctx.yoff + ctx.ocy ∧ j ≤ ctx.xoff + ctx.ocx ∨ ctx.yoff ≤ i ∧ i < ctx.yoff + ctx.ocy ∧ j < ctx.xoff + s.grid.sx) ∧
        ctx.xoff ≤ j := by
    intro tty₂ d₂ h₂ ht₂ hrows
    obtain ⟨d', h', -, hline⟩ := h₂.putcs (n := ctx.ocx + 1) hk.toDraws (show isControl 32 = false by decide)
      (by rw [ht₂, ht₁]; dsimp only; omega)
    have hrows' := hrows.of_cells (d := d) (by rw [ht₁]) (by rw [ht₁]) hcells₁
    rw [ht₂, ht₁] at hline
    refine ⟨d', h'.tracks, (hrows'.trans hline).congr fun i j _ => ?_⟩
    dsimp only
    omega
  refine ⟨_, by rw [ttyCmdClearstartofscreen, usub_last hsy, hnext]; rfl, ?_⟩
  split_ifs with hfull
  · obtain ⟨hzero, hle⟩ := h₁.fullWidth hfull
    obtain ⟨d₂, h₂, ht₂, hrows⟩ := h₁.clearDown (n := ctx.ocy) hk (by rw [ht₁]; dsimp only; omega)
      (by rw [ht₁]; dsimp only; omega)
    rw [ht₁] at hrows hle
    refine hline h₂ (by rw [ht₂, ht₁]; rfl) (hrows.congr fun i j hj => ?_)
    rw [ht₁] at hj
    dsimp only at hle hj ⊢
    omega
  · have hzero : ctx.ocy = 0 := by
      refine hplace.resolve_right fun hwide => hfull ?_
      have hpos : d₁.t.sx = d.t.sx := by rw [ht₁]
      rw [ttyPaneFullWidth, show _ = d₁.t.sx from congrArg TtyPosition.sx h₁.pos, hpos]
      simp only [Bool.and_eq_true, decide_eq_true_eq]
      exact ⟨⟨hwide.1, hwide.2.1⟩, hwide.2.2⟩
    have hy : d₁.t = { d₁.t with y := ctx.yoff + ctx.ocy } := by rw [ht₁, hzero]
    refine hline ?_ hy (.refl (fun i j _ hij => by omega) rfl rfl)
    rw [spaceRows, hzero]
    exact h₁

theorem ttyCmdAlignmenttest_paints : ∃ tty' d', tty.ttyCmdAlignmenttest k ctx s = pure tty' ∧ Tracks k d₀ tty' d' ∧
    Display.Painted (.text [69] (shown k.toTtyKind gridDefaultCell)) (fun i j =>
      ctx.yoff ≤ i ∧ i < ctx.yoff + s.grid.sy ∧ ctx.xoff ≤ j ∧ j < ctx.xoff + s.grid.sx) d d' := by
  obtain ⟨d₁, x, y, h₁, ht₁, hcells₁⟩ := (h.plain hk.toDraws).ttyRegionPane (s := s) hk hs
    (show 0 < s.grid.sy - 1 by omega) (by omega)
  obtain ⟨d', x, y, h', -, hpainted⟩ := h₁.rows hk.toDraws (hs.regioned ht₁) (show isControl 69 = false by decide)
    (show 0 + s.grid.sy ≤ s.grid.sy by omega)
  have hpainted' := hpainted.of_cells (d := d) (by rw [ht₁]) (by rw [ht₁]) hcells₁
  refine ⟨_, d', by rw [ttyCmdAlignmenttest, usub_last hsy, List.range_eq_range']; rfl, h'.toTracks,
    hpainted'.congr fun i j _ => ?_⟩
  omega

end Screens

end TtyOut

end Tmux
