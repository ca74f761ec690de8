import Tmux.Grid.Rows
import Tmux.Tty.Draw

/-!
# What drawing a line displays

The characters of a line are displayed one after the other (`lineGlyphs`), and blank columns after them.
-/

namespace Tmux

open Device
open Exec (uadd usub follow)

/-! ## What is tracked -/

/-- Where the cursor and the margins of a terminal are. -/
def Terminal.position (t : Terminal) : TtyPosition := ⟨t.sx, t.x, t.y, t.top, t.bottom⟩

/-- A terminal that drawing is proved for: one that can move its cursor and can reset what it can set, and that leaves
    its cursor behind the last column. -/
structure TtyDevice.Draws (k : TtyDevice) : Prop where
  cup : k.toTtyKind.has .cup = true
  resets : k.toTtyKind.Resets
  late : k.earlyWrap = false

theorem Terminal.Ok.known {t : Terminal} (h : t.Ok) :
    t.x ≠ unknown ∧ t.y ≠ unknown ∧ t.top ≠ unknown ∧ t.bottom ≠ unknown := by
  obtain ⟨⟨-, hwidth⟩, hheight, hx, hy, htop, hbottom⟩ := h
  simp only [unknown]
  omega

/-- Moving the cursor gets there, and the position is tracked, if the move is none of those that miss. -/
theorem ttyCursor_lands {tty : TtyKind} {pos : TtyPosition} {t : Terminal} {y : ℕ} (hcup : tty.has .cup = true)
    (ht : t.Ok) (hag : pos.Agrees t) (hy : y < t.sy) (x : ℕ) (h : ¬Misses tty pos t (min x (t.sx - 1)) y) :
    after Terminal.apply (Tmux.ttyCursor tty pos x y) t = { t with x := min x (t.sx - 1), y } ∧
      value (Tmux.ttyCursor tty pos x y) = { pos with cx := min x (t.sx - 1), cy := y } := by
  have hw := ht.width
  have hheight := ht.height
  have hwidth : toWord ((pos.sx : ℤ) - 1) = t.sx - 1 := by
    rw [hag.sx, toWord]
    omega
  have hclamp : (if x > toWord ((pos.sx : ℤ) - 1) then toWord ((pos.sx : ℤ) - 1) else x) = min x (t.sx - 1) := by
    rw [hwidth]
    split_ifs <;> omega
  have hx : min x (t.sx - 1) < t.sx := by omega
  rw [Tmux.ttyCursor, hclamp]
  by_cases hmove : min x (t.sx - 1) = pos.cx ∧ y = pos.cy
  · -- the cursor is there: a place of the terminal is not an unknown one
    obtain ⟨hcol, hrow⟩ := hmove
    have hcx : pos.cx = t.x := hag.cx.resolve_left fun hunknown => by
      rw [unknown] at hunknown
      omega
    have hcy : pos.cy = t.y := hag.cy.resolve_left fun hunknown => by
      rw [unknown] at hunknown
      omega
    rw [if_pos ⟨hcol, hrow⟩, after_pure, value_pure, hcol, hrow, hcx, hcy]
    exact ⟨rfl, by rw [← hcx, ← hcy]⟩
  · rw [if_neg hmove, after_bind, after_pure, value_bind, value_pure]
    exact ⟨(ttyCursorMove_lands_iff hcup ht hag hx hy hmove).2 h, rfl⟩

namespace TtyOut

/-- What was written leads from a display to one with the cursor and the rendition that are tracked. -/
structure Placed (k : TtyDevice) (d₀ : Display) (tty : TtyOut) (d : Display) : Prop where
  out : tty.out.foldl Display.apply d₀ = d
  rendition : d.r = shown k.toTtyKind tty.cell
  pos : tty.pos = d.t.position
  ok : d.t.Ok

/-- The same where the position of the cursor is perhaps not known. -/
structure Tracks (k : TtyDevice) (d₀ : Display) (tty : TtyOut) (d : Display) : Prop where
  out : tty.out.foldl Display.apply d₀ = d
  rendition : d.r = shown k.toTtyKind tty.cell
  pos : tty.pos = d.t.position ∨ tty.pos = { d.t.position with cx := unknown, cy := unknown }
  ok : d.t.Ok

variable {k : TtyDevice} {d₀ d : Display} {tty : TtyOut} {x y : ℕ}

theorem Placed.tracks (h : Placed k d₀ tty d) : Tracks k d₀ tty d := ⟨h.out, h.rendition, .inl h.pos, h.ok⟩

/-- What moving the cursor does to a display, by what it does to the terminal. -/
theorem out_ttyCursor {t : Terminal} (hout : tty.out.foldl Display.apply d₀ = d)
    (hafter : after Terminal.apply (Tmux.ttyCursor k.toTtyKind tty.pos x y) d.t = t) (hscrolls : t.scrolls = d.t.scrolls) :
    (tty.ttyCursor k x y).out.foldl Display.apply d₀ = { d with t } := by
  rw [← hafter] at hscrolls
  rw [TtyOut.ttyCursor, TtyOut.ttyPuts, List.foldl_append, hout]
  refine (Display.foldl_seqs hscrolls).trans ?_
  have hr := ttyCursor_keeps k.toTtyKind tty.pos x y d.r
  rw [after] at hr hafter
  rw [hr, hafter]

/-- Moving the cursor gets there from wherever it is. -/
theorem Tracks.ttyCursor (h : Tracks k d₀ tty d) (hk : k.Draws) (hy : y < d.t.sy) :
    Placed k d₀ (tty.ttyCursor k x y) { d with t := { d.t with x := min x (d.t.sx - 1), y } } := by
  obtain ⟨-, hknown, hupper, hlower⟩ := h.ok.known
  have hagrees : tty.pos.Agrees d.t := by
    rcases h.pos with hpos | hpos <;> rw [hpos]
    · exact ⟨rfl, .inr rfl, .inr rfl, .inr rfl, .inr rfl⟩
    · exact ⟨rfl, .inl rfl, .inl rfl, .inr rfl, .inr rfl⟩
  have hnot : ¬Misses k.toTtyKind tty.pos d.t (min x (d.t.sx - 1)) y := by
    rcases h.pos with hpos | hpos <;> rw [hpos]
    · exact not_misses_of_known hknown hupper hlower
    · rintro ⟨hlt, -⟩
      have hwidth := h.ok.width
      simp only [unknown] at hlt
      omega
  obtain ⟨hafter, hvalue⟩ := ttyCursor_lands hk.cup h.ok hagrees hy x hnot
  refine ⟨out_ttyCursor h.out hafter rfl, h.rendition, ?_, ?_⟩
  · refine hvalue.trans ?_
    rcases h.pos with hpos | hpos <;> rw [hpos] <;> rfl
  · have hwidth := h.ok.width
    exact ⟨h.ok.width, h.ok.height, by dsimp only; omega, hy, h.ok.margins⟩

/-- What changing the rendition does to a display. -/
theorem out_paint {x : TtyWriter GridCell} (hout : tty.out.foldl Display.apply d₀ = d) (hkeeps : Keeps Terminal.apply x)
    (hr : after Rendition.apply x d.r = shown k.toTtyKind (value x)) :
    (tty.ttyPuts (written x)).out.foldl Display.apply d₀ = { d with r := shown k.toTtyKind (value x) } := by
  have hafter := hkeeps d.t
  have hscrolls : (after Terminal.apply x d.t).scrolls = d.t.scrolls := by rw [hafter]
  rw [TtyOut.ttyPuts, List.foldl_append, hout]
  refine (Display.foldl_seqs hscrolls).trans ?_
  rw [after] at hr hafter
  rw [hr, hafter]

/-- Changing the rendition, and the cell that is tracked for it. -/
theorem Placed.paint (h : Placed k d₀ tty d) {x : TtyWriter GridCell} (hkeeps : Keeps Terminal.apply x)
    (hr : after Rendition.apply x d.r = shown k.toTtyKind (value x)) :
    Placed k d₀ { tty.ttyPuts (written x) with cell := value x } { d with r := shown k.toTtyKind (value x) } :=
  ⟨out_paint h.out hkeeps hr, rfl, h.pos, h.ok⟩

theorem Placed.ttyAttributes (h : Placed k d₀ tty d) (hk : k.Draws) (gc : GridCell) :
    Placed k d₀ (tty.ttyAttributes k gc) { d with r := shown k.toTtyKind (fixCell k.toTtyKind gc) } := by
  obtain ⟨hvalue, hfix⟩ := ttyAttributes_leads hk.resets gc tty.cell d.r h.rendition
  have hpaint := h.paint (ttyAttributes_keeps k.toTtyKind gc tty.cell) hvalue
  rwa [← hvalue, hfix] at hpaint

theorem Placed.ttyReset (h : Placed k d₀ tty d) (hk : k.Draws) :
    Placed k d₀ (tty.ttyReset k) { d with r := shown k.toTtyKind gridDefaultCell } := by
  obtain ⟨hcell, hr⟩ := ttyReset_leads hk.resets tty.cell d.r h.rendition
  rw [← hcell] at hr ⊢
  exact h.paint (ttyReset_keeps k.toTtyKind tty.cell) hr

theorem Tracks.ttyReset (h : Tracks k d₀ tty d) (hk : k.Draws) :
    Tracks k d₀ (tty.ttyReset k) { d with r := shown k.toTtyKind gridDefaultCell } := by
  obtain ⟨hcell, hr⟩ := ttyReset_leads hk.resets tty.cell d.r h.rendition
  have hout := out_paint (k := k) h.out (ttyReset_keeps k.toTtyKind tty.cell) (by rw [hcell]; exact hr)
  rw [hcell] at hout
  exact ⟨hout, congrArg (shown k.toTtyKind) hcell.symm, h.pos, h.ok⟩

theorem ttyReset_cell (hk : k.Draws) (tty : TtyOut) : (tty.ttyReset k).cell = gridDefaultCell :=
  (ttyReset_leads hk.resets tty.cell _ rfl).1

/-! ## Characters -/

/-- Writing a character that fits on the row. -/
theorem Placed.text (h : Placed k d₀ tty d) (bytes : List UInt8) {width : ℕ} (hroom : d.t.x + width ≤ d.t.sx) :
    Placed k d₀ { tty with pos := { tty.pos with cx := d.t.x + width }, out := tty.out ++ [.text bytes width] }
      (d.put (textGlyphs bytes d.r width)) := by
  have hlength := length_textGlyphs bytes d.r width
  refine ⟨?_, h.rendition, ?_, ?_⟩
  · rw [List.foldl_append, h.out, List.foldl_cons, List.foldl_nil, Display.apply, if_neg (Nat.not_lt.2 hroom)]
  · rw [h.pos, Display.put, hlength]
    rfl
  · exact ⟨h.ok.width, h.ok.height, by rw [Display.put, hlength]; exact hroom, h.ok.y, h.ok.margins⟩

theorem Placed.ttyPutc (h : Placed k d₀ tty d) (hk : k.Draws) {ch : UInt8} (hch : isControl ch = false)
    (hroom : d.t.x < d.t.sx) :
    Placed k d₀ (tty.ttyPutc k ch) (d.put [.text (charText k tty.cell.attr ch) d.r]) := by
  have hout : tty.ttyPutc k ch =
      { tty with pos := { tty.pos with cx := d.t.x + 1 }, out := tty.out ++ [.text (charText k tty.cell.attr ch) 1] } := by
    have hcx : tty.pos.cx = d.t.x := congrArg TtyPosition.cx h.pos
    have hsx : tty.pos.sx = d.t.sx := congrArg TtyPosition.sx h.pos
    rw [TtyOut.ttyPutc, hch, hk.late]
    dsimp only
    rw [if_neg Bool.false_ne_true, if_neg Bool.false_ne_true, if_neg (by omega), hcx]
  rw [hout]
  exact h.text _ hroom

theorem Placed.putcs {n : ℕ} (h : Placed k d₀ tty d) (hk : k.Draws) {ch : UInt8} (hch : isControl ch = false)
    (hroom : d.t.x + n ≤ d.t.sx) :
    Placed k d₀ (TtyOut.putcs k ch n tty) (d.put (List.replicate n (.text (charText k tty.cell.attr ch) d.r))) := by
  induction n generalizing tty d with
  | zero =>
    rw [List.replicate_zero, Display.put_nil]
    exact h
  | succ n ih =>
    have hnext := h.ttyPutc hk hch (by omega)
    have hrest := ih hnext (show d.t.x + 1 + n ≤ d.t.sx by omega)
    have hcell : (tty.ttyPutc k ch).cell = tty.cell := by
      rw [TtyOut.ttyPutc, hch]
      rfl
    rw [hcell, Display.put_put] at hrest
    exact hrest

theorem Placed.ttyPututf8 (h : Placed k d₀ tty d) (gu : GridUtf8) (hroom : d.t.x + gu.width.toNat ≤ d.t.sx) :
    Placed k d₀ (tty.ttyPututf8 gu) (d.put (textGlyphs gu.data d.r gu.width.toNat)) := by
  have hcx : uadd tty.pos.cx gu.width.toNat = d.t.x + gu.width.toNat := by
    have hpos : tty.pos.cx = d.t.x := congrArg TtyPosition.cx h.pos
    have hwidth := h.ok.width
    rw [hpos]
    exact Exec.uadd_of_lt (by simp only [Exec.word]; omega)
  rw [TtyOut.ttyPututf8, hcx]
  exact h.text gu.data hroom

/-- From behind the last column, a character goes to the start of the next row, which is not below the margin. -/
theorem Placed.ttyPutc_wraps (h : Placed k d₀ tty d) (hk : k.Draws) {ch : UInt8} (hch : isControl ch = false)
    (hx : d.t.x = d.t.sx) (hmargin : d.t.y ≠ d.t.bottom) (hrow : d.t.y + 1 < d.t.sy) :
    Placed k d₀ (tty.ttyPutc k ch)
      (Display.put { d with t := { d.t with x := 0, y := d.t.y + 1 } } [.text (charText k tty.cell.attr ch) d.r]) := by
  have hwidth := h.ok.width
  have hheight := h.ok.height
  have hfeed : Terminal.lineFeed { d.t with x := 0 } = { d.t with x := 0, y := d.t.y + 1 } := by
    rw [Terminal.lineFeed, if_neg hmargin, Nat.min_eq_left (by dsimp only; omega)]
  have hline : d.newLine = { d with t := { d.t with x := 0, y := d.t.y + 1 } } := by
    rw [Display.newLine, hfeed]
    exact Display.become_of_scrolls rfl
  have hout : tty.ttyPutc k ch =
      { tty with
        pos := { tty.pos with cx := 1, cy := d.t.y + 1 }
        out := tty.out ++ [.text (charText k tty.cell.attr ch) 1] } := by
    have hcx : tty.pos.cx = d.t.x := congrArg TtyPosition.cx h.pos
    have hsx : tty.pos.sx = d.t.sx := congrArg TtyPosition.sx h.pos
    have hcy : tty.pos.cy = d.t.y := congrArg TtyPosition.cy h.pos
    have hlower : tty.pos.rlower = d.t.bottom := congrArg TtyPosition.rlower h.pos
    rw [TtyOut.ttyPutc, hch, hk.late]
    dsimp only
    rw [if_neg Bool.false_ne_true, if_neg Bool.false_ne_true, if_pos (by omega), hcy, hlower, if_pos hmargin,
      Exec.uadd_of_lt (by simp only [Exec.word]; omega)]
  rw [hout]
  refine ⟨?_, h.rendition, ?_, ?_⟩
  · rw [List.foldl_append, h.out, List.foldl_cons, List.foldl_nil, Display.apply]
    dsimp only
    rw [if_pos (by omega), hline]
    rfl
  · rw [h.pos]
    rfl
  · exact ⟨h.ok.width, h.ok.height, hwidth.1, hrow, h.ok.margins⟩

end TtyOut

/-! ## Cells -/

/-- The glyphs of a cell. -/
def cellGlyphs (k : TtyDevice) (gc : GridCell) (gu : Option GridUtf8) : List Glyph :=
  let fixed := fixCell k.toTtyKind gc
  let r := shown k.toTtyKind fixed
  if gc.isPadding then []
  else if !gc.isUtf8 then if isControl gc.data then [] else [.text (charText k fixed.attr gc.data) r]
  else
    match gu with
    | none => []
    | some gu =>
      if k.utf8 then textGlyphs gu.data r gu.width.toNat
      else List.replicate gu.width.toNat (.text (charText k fixed.attr 95) r)

/-- The glyphs of the cells of some columns of a line. -/
def lineGlyphs (k : TtyDevice) (sel : ScreenSel) (py : ℕ) (gl : GridLine) (cols : List ℕ) : List Glyph :=
  cols.flatMap fun i => cellGlyphs k (drawnCell sel i py (gl.cell i)) (gl.shown i).2

theorem drawnCell_flag {flag : UInt8} (h : (gridFlagFg256 ||| gridFlagBg256) &&& flag = 0) (sel : ScreenSel) (px py : ℕ)
    (gc : GridCell) : (drawnCell sel px py gc).flags &&& flag = gc.flags &&& flag := by
  rw [drawnCell]
  split_ifs
  · exact flags_save_other h gc.flags sel.cell.flags
  · rfl

theorem drawnCell_isUtf8 (sel : ScreenSel) (px py : ℕ) (gc : GridCell) :
    (drawnCell sel px py gc).isUtf8 = gc.isUtf8 := by
  rw [GridCell.isUtf8, drawnCell_flag (by decide)]
  rfl

namespace TtyOut

theorem Placed.ttyCell (h : Placed k d₀ tty d) (hk : k.Draws) {gc : GridCell} {gu : Option GridUtf8}
    (hdata : gc.isUtf8 = true → ∃ u, gu = some u) (hroom : d.t.x + (cellGlyphs k gc gu).length ≤ d.t.sx) :
    ∃ tty' r, tty.ttyCell k gc gu = pure tty' ∧ Placed k d₀ tty' { d.put (cellGlyphs k gc gu) with r } := by
  have hpaint := h.ttyAttributes hk gc
  rw [TtyOut.ttyCell, hk.late, if_neg fun h => Bool.false_ne_true h.1]
  cases hpadding : gc.isPadding with
  | true =>
    have hnil : cellGlyphs k gc gu = [] := by simp [cellGlyphs, hpadding]
    rw [hnil, Display.put_nil]
    exact ⟨tty, d.r, rfl, h⟩
  | false =>
    rw [if_neg Bool.false_ne_true]
    cases hutf8 : gc.isUtf8 with
    | false =>
      cases hcontrol : isControl gc.data with
      | true =>
        have hnil : cellGlyphs k gc gu = [] := by simp [cellGlyphs, hpadding, hutf8, hcontrol]
        rw [hnil, Display.put_nil]
        exact ⟨_, _, rfl, hpaint⟩
      | false =>
        have hglyphs : cellGlyphs k gc gu = [.text (charText k (fixCell k.toTtyKind gc).attr gc.data)
            (shown k.toTtyKind (fixCell k.toTtyKind gc))] := by
          simp [cellGlyphs, hpadding, hutf8, hcontrol]
        rw [hglyphs] at hroom ⊢
        exact ⟨_, _, rfl, hpaint.ttyPutc hk hcontrol hroom⟩
    | true =>
      obtain ⟨u, rfl⟩ := hdata hutf8
      cases hk8 : k.utf8 with
      | true =>
        have hglyphs : cellGlyphs k gc (some u) =
            textGlyphs u.data (shown k.toTtyKind (fixCell k.toTtyKind gc)) u.width.toNat := by
          simp [cellGlyphs, hpadding, hutf8, hk8]
        rw [hglyphs, length_textGlyphs] at hroom
        rw [hglyphs]
        exact ⟨_, _, rfl, hpaint.ttyPututf8 u hroom⟩
      | false =>
        have hglyphs : cellGlyphs k gc (some u) = List.replicate u.width.toNat
            (.text (charText k (fixCell k.toTtyKind gc).attr 95) (shown k.toTtyKind (fixCell k.toTtyKind gc))) := by
          simp [cellGlyphs, hpadding, hutf8, hk8]
        rw [hglyphs, List.length_replicate] at hroom
        rw [hglyphs]
        exact ⟨_, _, rfl, hpaint.putcs hk (by decide) hroom⟩

theorem Placed.cells {sel : ScreenSel} {py : ℕ} {gl : GridLine} (hk : k.Draws) (cols : List ℕ)
    (hdata : ∀ i ∈ cols, (gl.cell i).isUtf8 = true → ∃ u, (gl.shown i).2 = some u) (h : Placed k d₀ tty d) (hroom : d.t.x + (lineGlyphs k sel py gl cols).length ≤ d.t.sx) :
    ∃ tty' r, cols.foldlM (fun tty i => tty.ttyCell k (drawnCell sel i py (gl.cell i)) (gl.shown i).2) tty = pure tty' ∧
      Placed k d₀ tty' { d.put (lineGlyphs k sel py gl cols) with r } := by
  induction cols generalizing tty d with
  | nil =>
    rw [lineGlyphs, List.flatMap_nil, Display.put_nil]
    exact ⟨tty, d.r, rfl, h⟩
  | cons i cols ih =>
    have hglyphs : lineGlyphs k sel py gl (i :: cols) =
        cellGlyphs k (drawnCell sel i py (gl.cell i)) (gl.shown i).2 ++ lineGlyphs k sel py gl cols := rfl
    rw [hglyphs, List.length_append] at hroom
    have hfirst : (drawnCell sel i py (gl.cell i)).isUtf8 = true → ∃ u, (gl.shown i).2 = some u := by
      rw [drawnCell_isUtf8]
      exact hdata i List.mem_cons_self
    obtain ⟨tty₁, r₁, hcell, h₁⟩ := h.ttyCell hk hfirst (by omega)
    obtain ⟨tty₂, r₂, hrest, h₂⟩ := ih (fun j hj => hdata j (List.mem_cons_of_mem i hj)) h₁ (by rw [Display.put]; dsimp only [Display.fill]; omega)
    refine ⟨tty₂, r₂, ?_, ?_⟩
    · rw [List.foldlM_cons, hcell, pure_bind, hrest]
    · rw [hglyphs, ← Display.put_put]
      exact h₂

/-- Going on from behind the last column, the first character being on the next row. -/
theorem Placed.cells_wrap {sel : ScreenSel} {py i : ℕ} {gl : GridLine} (hk : k.Draws) (cols : List ℕ)
    (hdata : ∀ i ∈ cols, (gl.cell i).isUtf8 = true → ∃ u, (gl.shown i).2 = some u) (h : Placed k d₀ tty d) (hx : d.t.x = d.t.sx) (hmargin : d.t.y ≠ d.t.bottom)
    (hrow : d.t.y + 1 < d.t.sy) (hfirst : (gl.cell i).isUtf8 = false)
    (hprints : cellGlyphs k (drawnCell sel i py (gl.cell i)) (gl.shown i).2 ≠ [])
    (hroom : (lineGlyphs k sel py gl (i :: cols)).length ≤ d.t.sx) :
    ∃ tty' r, (i :: cols).foldlM (fun tty i => tty.ttyCell k (drawnCell sel i py (gl.cell i)) (gl.shown i).2) tty =
        pure tty' ∧
      Placed k d₀ tty' { (Display.put { d with t := { d.t with x := 0, y := d.t.y + 1 } }
        (lineGlyphs k sel py gl (i :: cols))) with r } := by
  have hutf8 : (drawnCell sel i py (gl.cell i)).isUtf8 = false := (drawnCell_isUtf8 sel i py _).trans hfirst
  generalize hgc : drawnCell sel i py (gl.cell i) = gc at hutf8 hprints
  have hpadding : gc.isPadding = false := by
    cases hp : gc.isPadding with
    | false => rfl
    | true => exact absurd (by simp [cellGlyphs, hp]) hprints
  have hcontrol : isControl gc.data = false := by
    cases hc : isControl gc.data with
    | false => rfl
    | true => exact absurd (by simp [cellGlyphs, hpadding, hutf8, hc]) hprints
  have hglyphs : cellGlyphs k gc (gl.shown i).2 = [.text (charText k (fixCell k.toTtyKind gc).attr gc.data)
      (shown k.toTtyKind (fixCell k.toTtyKind gc))] := by
    simp [cellGlyphs, hpadding, hutf8, hcontrol]
  have hall : lineGlyphs k sel py gl (i :: cols) =
      cellGlyphs k gc (gl.shown i).2 ++ lineGlyphs k sel py gl cols := by rw [← hgc]; rfl
  have hcell : tty.ttyCell k gc (gl.shown i).2 = pure ((tty.ttyAttributes k gc).ttyPutc k gc.data) := by
    rw [TtyOut.ttyCell, hk.late, if_neg fun h => Bool.false_ne_true h.1, hpadding, if_neg Bool.false_ne_true, hutf8,
      hcontrol]
    rfl
  have hput := (h.ttyAttributes hk gc).ttyPutc_wraps hk hcontrol hx hmargin hrow
  rw [hall, hglyphs, List.length_append, List.length_singleton] at hroom
  have hroom' : 0 + 1 + (lineGlyphs k sel py gl cols).length ≤ d.t.sx := by omega
  obtain ⟨tty', r, hrest, h'⟩ := hput.cells hk cols hdata hroom'
  refine ⟨tty', r, ?_, ?_⟩
  · rw [List.foldlM_cons, hgc, hcell, pure_bind, hrest]
  · rw [hall, hglyphs, ← Display.put_put]
    exact h'

end TtyOut

/-! ## Lines -/

/-- A screen that has its place on a terminal. -/
structure Screen.Within (s : Screen) (t : Terminal) (ox oy : ℕ) : Prop where
  whole : s.grid.Whole
  positive : 0 < s.grid.sx
  width : ox + s.grid.sx ≤ t.sx
  height : oy + s.grid.sy ≤ t.sy

/-- The UTF-8 characters of a line have their data. -/
def GridLine.BackedTo (gl : GridLine) (sx : ℕ) : Prop :=
  ∀ x < sx, (gl.cell x).isUtf8 = true → ∃ gu, (gl.shown x).2 = some gu

/-- A blank column. -/
def blankGlyph (k : TtyDevice) : Glyph := .text [32] (shown k.toTtyKind gridDefaultCell)

/-- How many cells of a line of a screen are drawn. -/
def shownSize (s : Screen) (gl : GridLine) : ℕ := min s.grid.sx gl.celldata.length

/-- The glyphs of a line of a screen. -/
def rowGlyphs (k : TtyDevice) (s : Screen) (sel : ScreenSel) (py : ℕ) (gl : GridLine) : List Glyph :=
  lineGlyphs k sel py gl (List.range (shownSize s gl)) ++ List.replicate (s.grid.sx - shownSize s gl) (blankGlyph k)

variable {k : TtyDevice} {d₀ d : Display} {tty : TtyOut} {s : Screen} {sel : ScreenSel} {py ox oy : ℕ} {gl : GridLine}

theorem drawnSize_eq (hs : s.Within d.t ox oy) {pos : TtyPosition} (hpos : pos.sx = d.t.sx) :
    drawnSize s gl pos = shownSize s gl := by
  have hwidth := hs.width
  rw [drawnSize, shownSize, hpos, Nat.min_eq_left]
  exact (Nat.min_le_left _ _).trans (by omega)

namespace TtyOut

/-- Clearing the rest of the row: either with the sequence for it, or with spaces. -/
theorem Placed.finish (h : Placed k d₀ tty d) (hk : k.Draws) (hs : s.Within d.t ox oy) (hpy : py < s.grid.sy) {n : ℕ}
    (hn : n ≤ s.grid.sx) (hpart : n < d.t.sx) :
    ∃ tty' x r, (let tty := (tty.ttyReset k).ttyCursor k (uadd ox n) (uadd oy py)
        if n ≠ s.grid.sx ∧ tty.pos.sx ≤ uadd ox s.grid.sx ∧ k.edits .el then tty.emit [.el]
        else tty.ttyRepeatSpace k (s.grid.sx - n)) = tty' ∧ x ≤ ox + s.grid.sx ∧
      Placed k d₀ tty' { (d.fill (oy + py) (ox + n) (List.replicate (s.grid.sx - n) (blankGlyph k))) with
        t := { d.t with x, y := oy + py }, r } := by
  have hwidth := h.ok.width
  have hheight := h.ok.height
  have hroom := hs.width
  have hrow := hs.height
  have hx : uadd ox n = ox + n := Exec.uadd_of_lt (by simp only [Exec.word]; omega)
  have hy : uadd oy py = oy + py := Exec.uadd_of_lt (by simp only [Exec.word]; omega)
  have hend : uadd ox s.grid.sx = ox + s.grid.sx := Exec.uadd_of_lt (by simp only [Exec.word]; omega)
  rw [hx, hy, hend]
  have hinside : oy + py < d.t.sy := by omega
  have hmoved := (h.ttyReset hk).tracks.ttyCursor (x := ox + n) hk hinside
  have hcell : ((tty.ttyReset k).ttyCursor k (ox + n) (oy + py)).cell = gridDefaultCell := ttyReset_cell hk tty
  generalize (tty.ttyReset k).ttyCursor k (ox + n) (oy + py) = tty₁ at hmoved hcell
  have hsx : tty₁.pos.sx = d.t.sx := congrArg TtyPosition.sx hmoved.pos
  dsimp only
  split_ifs with hel
  · -- what is left of the row is what is left of the screen
    refine ⟨_, _, _, rfl, (Nat.min_le_left _ _).trans (by omega), ?_, hmoved.rendition, hmoved.pos, hmoved.ok⟩
    have hcol : min (min (ox + n) (d.t.sx - 1)) (d.t.sx - 1) = ox + n := by omega
    have hleft : d.t.sx - (ox + n) = s.grid.sx - n := by omega
    rw [TtyOut.emit, List.foldl_append, hmoved.out, List.foldl_cons, List.foldl_nil, Display.apply, Display.column,
      Display.fill]
    dsimp only
    rw [hcol, hleft]
    rfl
  · rcases Nat.eq_or_lt_of_le hn with rfl | hlt
    · rw [Nat.sub_self, List.replicate_zero, Display.fill_nil]
      exact ⟨_, _, _, rfl, Nat.min_le_left _ _, hmoved⟩
    · have hcol : min (ox + n) (d.t.sx - 1) = ox + n := by omega
      rw [hcol] at hmoved
      have hspaces := hmoved.putcs hk (show isControl 32 = false by decide)
        (show ox + n + (s.grid.sx - n) ≤ d.t.sx by omega)
      have htext : charText k tty₁.cell.attr 32 = [32] := by rw [hcell]; rfl
      rw [htext] at hspaces
      refine ⟨_, _, _, rfl, ?_, hspaces⟩
      rw [List.length_replicate]
      dsimp only
      omega

end TtyOut

end Tmux
