import Tmux.Tty.Drawn

/-!
# Redrawing a pane

A pane is redrawn line by line (`screenRedrawPane`). What the terminal displays then in its place is the screen of the
pane, and what it displays elsewhere stays (`screenRedrawPane_shows`): this is so unless a line is wrapped into the next
one, both taking whole rows, and the row of the former is the bottom margin of the terminal, or the latter starts with a
UTF-8 character.
-/

namespace Tmux

open Exec (uadd usub)

/-- Draw some lines of a pane. -/
def redrawLines (k : TtyDevice) (s : Screen) (sel : ScreenSel) (ox oy : ℕ) (lines : List ℕ) (tty : TtyOut) :
    Exec TtyOut :=
  lines.foldlM (fun tty i => tty.ttyDrawLine k s sel i ox oy) tty

/-- Draw one pane. -/
def screenRedrawPane (k : TtyDevice) (s : Screen) (sel : ScreenSel) (xoff yoff sy : ℕ) (statusAtTop : Bool)
    (tty : TtyOut) : Exec TtyOut := do
  let yoff := if statusAtTop then uadd yoff 1 else yoff
  let tty ← redrawLines k s sel xoff yoff (List.range sy) tty
  pure (tty.ttyReset k)

/-- Every character of a line starts in its column, and they take all the columns that are drawn. -/
def Straight (k : TtyDevice) (s : Screen) (sel : ScreenSel) (py : ℕ) (gl : GridLine) : Prop :=
  ∀ n ≤ shownSize s gl, (n < shownSize s gl → (gl.cell n).isPadding = false) →
    (lineGlyphs k sel py gl (List.range n)).length = n

/-- A line that is empty, or that starts with a character that is not a UTF-8 one. -/
def GridLine.StartsPlain (gl : GridLine) : Prop :=
  gl.celldata = [] ∨
    (gl.cell 0).isUtf8 = false ∧ (gl.cell 0).isPadding = false ∧ isControl (gl.cell 0).data = false

/-- The line above a line of a screen. -/
def lineAbove (s : Screen) (py : ℕ) : Option GridLine :=
  if py = 0 then none else s.grid.linedata[s.grid.hsize + py - 1]?

variable {k : TtyDevice} {d₀ d : Display} {tty : TtyOut} {s : Screen} {sel : ScreenSel} {py ox oy : ℕ} {gl : GridLine}

theorem Straight.length (h : Straight k s sel py gl) :
    (lineGlyphs k sel py gl (List.range (shownSize s gl))).length = shownSize s gl :=
  h _ (Nat.le_refl _) fun hlt => absurd hlt (Nat.lt_irrefl _)

theorem length_rowGlyphs (h : Straight k s sel py gl) : (rowGlyphs k s sel py gl).length = s.grid.sx := by
  have hle : shownSize s gl ≤ s.grid.sx := Nat.min_le_left _ _
  rw [rowGlyphs, List.length_append, h.length, List.length_replicate, Nat.add_sub_cancel' hle]

/-- Only behind the last column of the terminal, and of whole rows, a line is gone on with. -/
theorem column_of_wrapsThere {above : Option GridLine} {pos : TtyPosition} (h : wrapsThere s above pos py ox oy = true) :
    above.any (·.wrapped) = true ∧ pos.sx ≤ pos.cx ∧ ox = 0 := by
  simp only [wrapsThere, Bool.and_eq_true, decide_eq_true_eq] at h
  exact ⟨h.1.1.1.2, h.1.1.2, h.1.2⟩

/-- A plain character is displayed. -/
theorem cellGlyphs_ne_nil {gc : GridCell} {gu : Option GridUtf8} (hutf8 : gc.isUtf8 = false)
    (hpadding : gc.isPadding = false) (hcontrol : isControl gc.data = false) (sel : ScreenSel) (px py : ℕ) :
    cellGlyphs k (drawnCell sel px py gc) gu ≠ [] := by
  have hutf8' := (drawnCell_isUtf8 sel px py gc).trans hutf8
  have hpadding' : (drawnCell sel px py gc).isPadding = false := by
    rw [GridCell.isPadding, drawnCell_flag (by decide)]
    exact hpadding
  have hdata : (drawnCell sel px py gc).data = gc.data := by
    rw [drawnCell]
    split_ifs <;> rfl
  simp [cellGlyphs, hutf8', hpadding', hdata, hcontrol]

namespace TtyOut

/-- What drawing a line does, after the cursor is moved. -/
theorem ttyDrawLine_eq (hs : s.Within d.t ox oy) (hpy : py < s.grid.sy) (hpos : tty.pos.sx = d.t.sx)
    (hgl : s.grid.linedata[s.grid.hsize + py]? = some gl) :
    tty.ttyDrawLine k s sel py ox oy = (do
      let tty := if wrapsThere s (lineAbove s py) tty.pos py ox oy then tty else tty.ttyCursor k ox (uadd oy py)
      let tty ← (List.range (shownSize s gl)).foldlM
        (fun tty i => tty.ttyCell k (drawnCell sel i py (gl.cell i)) (gl.shown i).2) tty
      if tty.pos.sx ≤ shownSize s gl then pure tty
      else
        let tty := (tty.ttyReset k).ttyCursor k (uadd ox (shownSize s gl)) (uadd oy py)
        pure (if shownSize s gl ≠ s.grid.sx ∧ tty.pos.sx ≤ uadd ox s.grid.sx ∧ k.edits .el then tty.emit [.el]
          else tty.ttyRepeatSpace k (s.grid.sx - shownSize s gl))) := by
  have hlines := hs.whole.length
  have hwords := hs.whole.room
  have hrow : uadd s.grid.hsize py = s.grid.hsize + py := Exec.uadd_of_lt (by omega)
  have habove : (if py ≠ 0 then some <$> Block.load s.grid.linedata (uadd s.grid.hsize py - 1) else pure none) =
      pure (lineAbove s py) := by
    rw [lineAbove, hrow]
    by_cases h0 : py = 0
    · rw [if_neg (not_not.2 h0), if_pos h0]
    · have hlt : s.grid.hsize + py - 1 < s.grid.linedata.length := by omega
      rw [if_pos h0, if_neg h0, List.getElem?_eq_getElem hlt, Block.load_eq (List.getElem?_eq_getElem hlt), map_pure]
  rw [TtyOut.ttyDrawLine, habove, hrow, Block.load_eq hgl, pure_bind, pure_bind, ← drawnSize_eq hs hpos]

/-- A row that is drawn to its end is left as it is, and of another one the rest is cleared. -/
theorem Placed.ends {n : ℕ} {gs : List Glyph} (hk : k.Draws) (hs : s.Within d.t ox oy) (hpy : py < s.grid.sy)
    (hn : n ≤ s.grid.sx) (hgs : gs.length = n) {t : Terminal} {r : Rendition}
    (ht : ∃ x ≤ ox + s.grid.sx, ∃ y, t = { d.t with x, y })
    (hfull : d.t.sx ≤ n → t.y = oy + py)
    (h : Placed k d₀ tty { (d.fill (oy + py) ox gs) with t, r }) :
    ∃ tty' x r, (if tty.pos.sx ≤ n then pure tty
      else
        let tty := (tty.ttyReset k).ttyCursor k (uadd ox n) (uadd oy py)
        pure (if n ≠ s.grid.sx ∧ tty.pos.sx ≤ uadd ox s.grid.sx ∧ k.edits .el then tty.emit [.el]
          else tty.ttyRepeatSpace k (s.grid.sx - n)) : Exec TtyOut) = pure tty' ∧ x ≤ ox + s.grid.sx ∧
      Placed k d₀ tty' { (d.fill (oy + py) ox (gs ++ List.replicate (s.grid.sx - n) (blankGlyph k))) with
        t := { d.t with x, y := oy + py }, r } := by
  obtain ⟨x, hx, y, rfl⟩ := ht
  have hsx : tty.pos.sx = d.t.sx := congrArg TtyPosition.sx h.pos
  have hwidth := hs.width
  rw [hsx]
  split_ifs with hpart
  · have hall : s.grid.sx - n = 0 := by omega
    have hrow : y = oy + py := hfull hpart
    rw [hall, List.replicate_zero, List.append_nil]
    exact ⟨_, _, _, rfl, hx, hrow ▸ h⟩
  · have hwithin : s.Within { d.t with x, y } ox oy := ⟨hs.whole, hs.positive, hs.width, hs.height⟩
    obtain ⟨tty', x', r', heq, hx', h'⟩ := h.finish hk hwithin hpy hn (Nat.not_le.1 hpart)
    have hfill : (d.fill (oy + py) ox gs).fill (oy + py) (ox + n) (List.replicate (s.grid.sx - n) (blankGlyph k)) =
        d.fill (oy + py) ox (gs ++ List.replicate (s.grid.sx - n) (blankGlyph k)) := by
      rw [← hgs]
      exact Display.fill_fill
    rw [← hfill]
    exact ⟨tty', x', r', congrArg pure heq, hx', h'⟩

/-- A line is drawn in its place, when the cursor is moved there. -/
theorem Tracks.ttyDrawLine (h : Tracks k d₀ tty d) (hk : k.Draws) (hs : s.Within d.t ox oy) (hpy : py < s.grid.sy)
    (hgl : s.grid.linedata[s.grid.hsize + py]? = some gl) (hdata : gl.BackedTo s.grid.sx) (hstraight : Straight k s sel py gl)
    (hmove : wrapsThere s (lineAbove s py) tty.pos py ox oy = false) :
    ∃ tty' x r, tty.ttyDrawLine k s sel py ox oy = pure tty' ∧ x ≤ ox + s.grid.sx ∧
      Placed k d₀ tty' { (d.fill (oy + py) ox (rowGlyphs k s sel py gl)) with t := { d.t with x, y := oy + py }, r } := by
  have hwidth := hs.width
  have hpositive := hs.positive
  have hrow := hs.height
  have hheight := h.ok.height
  have hpos : tty.pos.sx = d.t.sx := by rcases h.pos with hpos | hpos <;> rw [hpos] <;> rfl
  have hy : uadd oy py = oy + py := Exec.uadd_of_lt (by simp only [Exec.word]; omega)
  have hn : shownSize s gl ≤ s.grid.sx := Nat.min_le_left _ _
  have hcol : min ox (d.t.sx - 1) = ox := by omega
  have hinside : oy + py < d.t.sy := by omega
  have hlength := hstraight.length
  have hmoved := h.ttyCursor (x := ox) hk hinside
  rw [hcol] at hmoved
  have hroom : ox + (lineGlyphs k sel py gl (List.range (shownSize s gl))).length ≤ d.t.sx := by omega
  have hcells' : ∀ x ∈ List.range (shownSize s gl), (gl.cell x).isUtf8 = true → ∃ gu, (gl.shown x).2 = some gu :=
    fun x hx => hdata x (by rw [List.mem_range] at hx; omega)
  obtain ⟨tty₁, r₁, hcells, h₁⟩ := hmoved.cells hk (List.range (shownSize s gl)) hcells' hroom
  have hright : ox + (lineGlyphs k sel py gl (List.range (shownSize s gl))).length ≤ ox + s.grid.sx := by omega
  obtain ⟨tty', x, r, hends, hx, h'⟩ := Placed.ends hk hs hpy hn hlength ⟨_, hright, _, rfl⟩ (fun _ => rfl) h₁
  refine ⟨tty', x, r, ?_, hx, h'⟩
  rw [ttyDrawLine_eq hs hpy hpos hgl, hmove, hy]
  dsimp only
  rw [if_neg Bool.false_ne_true, hcells, pure_bind, ← hy]
  exact hends

/-- The same when it is not moved, if the row above is not the bottom margin and the line starts with a character that
    makes the terminal go on to the next row. -/
theorem Placed.ttyDrawLine (h : Placed k d₀ tty d) (hk : k.Draws) (hs : s.Within d.t ox oy) (hpy : py < s.grid.sy)
    (hgl : s.grid.linedata[s.grid.hsize + py]? = some gl) (hdata : gl.BackedTo s.grid.sx) (hstraight : Straight k s sel py gl)
    (hstay : wrapsThere s (lineAbove s py) tty.pos py ox oy = true) (hcol : d.t.x ≤ ox + s.grid.sx)
    (hrow : oy + py = d.t.y + 1) (hmargin : d.t.y ≠ d.t.bottom) (hplain : gl.StartsPlain) :
    ∃ tty' x r, tty.ttyDrawLine k s sel py ox oy = pure tty' ∧ x ≤ ox + s.grid.sx ∧
      Placed k d₀ tty' { (d.fill (oy + py) ox (rowGlyphs k s sel py gl)) with t := { d.t with x, y := oy + py }, r } := by
  have hwidth := hs.width
  have hpositive := hs.positive
  have hheight := hs.height
  have hpos : tty.pos.sx = d.t.sx := congrArg TtyPosition.sx h.pos
  have hn : shownSize s gl ≤ s.grid.sx := Nat.min_le_left _ _
  have hlength := hstraight.length
  obtain ⟨-, hx, rfl⟩ := column_of_wrapsThere hstay
  replace hx : d.t.sx ≤ d.t.x := by
    rw [h.pos] at hx
    exact hx
  have hlast : d.t.x = d.t.sx := Nat.le_antisymm h.ok.x hx
  rw [ttyDrawLine_eq hs hpy hpos hgl, hstay]
  dsimp only
  rw [if_pos rfl]
  cases hcells : gl.celldata with
  | nil =>
    -- nothing of the line is drawn, and the cursor is moved to clear the row
    have hnone : shownSize s gl = 0 := by
      rw [shownSize, hcells]
      exact Nat.min_zero _
    have hline : Placed k d₀ tty { (d.fill (oy + py) 0 []) with t := d.t, r := d.r } := by
      rw [Display.fill_nil]
      exact h
    obtain ⟨tty', x, r, hends, hx', h'⟩ := hline.ends hk hs hpy (Nat.zero_le _) rfl ⟨_, hcol, _, rfl⟩
      fun hle => absurd hle (by omega)
    rw [hnone, List.range_zero, List.foldlM_nil, pure_bind, rowGlyphs, hnone]
    exact ⟨tty', x, r, hends, hx', h'⟩
  | cons gc cells =>
    obtain ⟨hutf8, hpadding, hcontrol⟩ := hplain.resolve_left (by rw [hcells]; exact List.cons_ne_nil _ _)
    have hrange : List.range (shownSize s gl) = 0 :: (List.range (shownSize s gl - 1)).map Nat.succ := by
      have hsome : shownSize s gl = shownSize s gl - 1 + 1 := by
        rw [shownSize, hcells, List.length_cons]
        omega
      rw [hsome, List.range_succ_eq_map]
      rfl
    rw [hrange] at hlength ⊢
    have hroom : (lineGlyphs k sel py gl (0 :: (List.range (shownSize s gl - 1)).map Nat.succ)).length ≤ d.t.sx := by
      omega
    have hcells' : ∀ x ∈ (List.range (shownSize s gl - 1)).map Nat.succ, (gl.cell x).isUtf8 = true →
        ∃ gu, (gl.shown x).2 = some gu := fun x hx => by
      obtain ⟨i, hi, rfl⟩ := List.mem_map.1 hx
      rw [List.mem_range] at hi
      exact hdata _ (by omega)
    obtain ⟨tty₁, r₁, hdrawn, h₁⟩ := h.cells_wrap hk _ hcells' hlast hmargin (by omega) hutf8
      (cellGlyphs_ne_nil hutf8 hpadding hcontrol sel 0 py) hroom
    rw [← hrange] at hlength hdrawn h₁
    have hright : 0 + (lineGlyphs k sel py gl (List.range (shownSize s gl))).length ≤ 0 + s.grid.sx := by omega
    have hline : Placed k d₀ tty₁ { (d.fill (oy + py) 0 (lineGlyphs k sel py gl (List.range (shownSize s gl)))) with
        t := { d.t with x := 0 + (lineGlyphs k sel py gl (List.range (shownSize s gl))).length, y := d.t.y + 1 }
        r := r₁ } := by
      rw [hrow]
      exact h₁
    obtain ⟨tty', x, r, hends, hx', h'⟩ := hline.ends hk hs hpy hn hlength ⟨_, hright, _, rfl⟩ fun _ => hrow.symm
    rw [← hrange, hdrawn, pure_bind]
    exact ⟨tty', x, r, hends, hx', h'⟩

end TtyOut

/-! ## Panes -/

/-- What has to be so of some lines of a pane to draw them: the cells are those of whole characters, and a line that is
    gone on with from the one above it starts plainly, and not below the bottom margin. -/
structure Screen.CanRedraw (k : TtyDevice) (s : Screen) (sel : ScreenSel) (t : Terminal) (ox oy lo hi : ℕ) : Prop where
  data : ∀ py, lo ≤ py → py < hi → ∀ gl, s.grid.row py = some gl → gl.BackedTo s.grid.sx
  straight : ∀ py, lo ≤ py → py < hi → ∀ gl, s.grid.row py = some gl → Straight k s sel py gl
  flows : ∀ py, lo < py → py < hi → ∀ gl, s.grid.row py = some gl → (lineAbove s py).any (·.wrapped) = true →
    ox = 0 → t.sx = s.grid.sx → oy + py ≠ t.bottom + 1 ∧ gl.StartsPlain

/-- What a display has become when some lines of a pane are drawn: they are shown, and nothing else has changed. -/
structure Redrawn (k : TtyDevice) (s : Screen) (sel : ScreenSel) (ox oy lo hi : ℕ) (d d' : Display) : Prop where
  rows : ∀ py, lo ≤ py → py < hi → ∀ gl, s.grid.row py = some gl → ∀ px < s.grid.sx,
    (rowGlyphs k s sel py gl)[px]? = some (d'.cells (oy + py) (ox + px))
  others : ∀ i j, i < oy + lo ∨ oy + hi ≤ i ∨ j < ox ∨ ox + s.grid.sx ≤ j → d'.cells i j = d.cells i j
  terminal : ∃ x y, d'.t = { d.t with x, y }

variable {lo hi n : ℕ} {d' : Display}

theorem Screen.Within.moved (hs : s.Within d.t ox oy) (hd : ∃ x y, d'.t = { d.t with x, y }) : s.Within d'.t ox oy := by
  obtain ⟨x, y, ht⟩ := hd
  rw [ht]
  exact ⟨hs.whole, hs.positive, hs.width, hs.height⟩

/-- One more line is drawn. -/
theorem Redrawn.succ (h : Redrawn k s sel ox oy lo hi d d') (hlo : lo ≤ hi) (hgl : s.grid.row hi = some gl)
    (hstraight : Straight k s sel hi gl) (x : ℕ) (r : Rendition) :
    Redrawn k s sel ox oy lo (hi + 1) d
      { (d'.fill (oy + hi) ox (rowGlyphs k s sel hi gl)) with t := { d'.t with x, y := oy + hi }, r } := by
  have hlength := length_rowGlyphs hstraight
  refine ⟨fun py hlo hpy gl' hgl' px hpx => ?_, fun i j hij => ?_, ?_⟩
  · have hcells : ∀ i j, Display.cells { (d'.fill (oy + hi) ox (rowGlyphs k s sel hi gl)) with
        t := { d'.t with x, y := oy + hi }, r } i j = (d'.fill (oy + hi) ox (rowGlyphs k s sel hi gl)).cells i j :=
      fun _ _ => rfl
    rw [hcells]
    by_cases hlast : py = hi
    · subst hlast
      have hsame : gl' = gl := Option.some.inj (hgl'.symm.trans hgl)
      rw [hsame, Display.fill_cells (Nat.le_add_right _ _), Nat.add_sub_cancel_left,
        List.getElem?_eq_getElem (hlength.symm ▸ hpx), Option.getD_some]
    · rw [Display.fill_cells_of_ne (by omega)]
      exact h.rows py hlo (by omega) gl' hgl' px hpx
  · refine Eq.trans ?_ (h.others i j (by omega))
    by_cases hrow : i = oy + hi
    · rcases Nat.lt_or_ge j ox with hj | hj
      · exact Display.fill_cells_of_lt hj
      · exact Display.fill_cells_of_le (by omega)
    · exact Display.fill_cells_of_ne hrow
  · obtain ⟨x', y', ht⟩ := h.terminal
    refine ⟨x, oy + hi, ?_⟩
    dsimp only
    rw [ht]

namespace TtyOut

/-- Lines of a pane are drawn one after the other, each from where the one before leaves the cursor. -/
theorem Tracks.redrawLines (h : Tracks k d₀ tty d) (hk : k.Draws) (hs : s.Within d.t ox oy) (hhi : hi ≤ s.grid.sy)
    (hlines : s.CanRedraw k sel d.t ox oy lo hi) (hn : lo + n ≤ hi)
    (hfirst : wrapsThere s (lineAbove s lo) tty.pos lo ox oy = false) :
    ∃ tty' d', Tmux.redrawLines k s sel ox oy (List.range' lo n) tty = pure tty' ∧ Tracks k d₀ tty' d' ∧
      Redrawn k s sel ox oy lo (lo + n) d d' ∧
      (0 < n → Placed k d₀ tty' d' ∧ oy + (lo + n) = d'.t.y + 1 ∧ d'.t.x ≤ ox + s.grid.sx) ∧ (n = 0 → tty' = tty) := by
  induction n with
  | zero =>
    exact ⟨tty, d, rfl, h, ⟨fun py hpy hlt => absurd hpy (Nat.not_le.2 hlt), fun _ _ _ => rfl, d.t.x, d.t.y, rfl⟩,
      fun hpos => absurd hpos (Nat.lt_irrefl 0), fun _ => rfl⟩
  | succ n ih =>
    obtain ⟨tty₁, d₁, hrun, htracks, hdrawn, hplaced, hstart⟩ := ih (by omega)
    obtain ⟨gl, hgl⟩ := hs.whole.exists_row (show lo + n < s.grid.sy by omega)
    have hle : lo ≤ lo + n := Nat.le_add_right lo n
    have hdata := hlines.data (lo + n) hle hn gl hgl
    have hstraight := hlines.straight (lo + n) hle hn gl hgl
    have hs₁ := hs.moved hdrawn.terminal
    have hpy : lo + n < s.grid.sy := by omega
    have hstep : ∃ tty' x r, tty₁.ttyDrawLine k s sel (lo + n) ox oy = pure tty' ∧ x ≤ ox + s.grid.sx ∧
        Placed k d₀ tty' { (d₁.fill (oy + (lo + n)) ox (rowGlyphs k s sel (lo + n) gl)) with
          t := { d₁.t with x, y := oy + (lo + n) }, r } := by
      cases hwraps : wrapsThere s (lineAbove s (lo + n)) tty₁.pos (lo + n) ox oy with
      | false => exact htracks.ttyDrawLine hk hs₁ hpy hgl hdata hstraight hwraps
      | true =>
        obtain ⟨habove, hx, hox⟩ := column_of_wrapsThere hwraps
        have hpos : 0 < n := by
          rcases Nat.eq_zero_or_pos n with rfl | hpos
          · rw [hstart rfl] at hwraps
            exact absurd (hfirst.symm.trans hwraps) Bool.false_ne_true
          · exact hpos
        obtain ⟨hplaced, hrow, hcol⟩ := hplaced hpos
        have hwhole : d.t.sx = s.grid.sx := by
          have hwidth := hs₁.width
          have hsame : d₁.t.sx = d.t.sx := by
            obtain ⟨x, y, ht⟩ := hdrawn.terminal
            rw [ht]
          rw [hplaced.pos] at hx
          replace hx : d₁.t.sx ≤ d₁.t.x := hx
          omega
        have hflows := hlines.flows (lo + n) (by omega) hn gl hgl habove hox hwhole
        have hmargin : d₁.t.y ≠ d₁.t.bottom := by
          have hrow' := hflows.1
          obtain ⟨x, y, ht⟩ := hdrawn.terminal
          have hbottom : d₁.t.bottom = d.t.bottom := by rw [ht]
          omega
        exact hplaced.ttyDrawLine hk hs₁ hpy hgl hdata hstraight hwraps hcol hrow hmargin hflows.2
    obtain ⟨tty', x, r, hline, hx, h'⟩ := hstep
    refine ⟨tty', _, ?_, h'.tracks, hdrawn.succ hle hgl hstraight x r, fun _ => ⟨h', rfl, hx⟩,
      fun hnone => absurd hnone (Nat.succ_ne_zero n)⟩
    rw [Tmux.redrawLines] at hrun ⊢
    rw [List.range'_1_concat, List.foldlM_append, hrun, pure_bind, List.foldlM_cons, hline, pure_bind]
    rfl

end TtyOut

/-- Redrawing a pane displays its screen in its place and leaves the rest of the terminal as it is, with the default
    rendition: nothing scrolls, and the margins stay. -/
theorem screenRedrawPane_shows {xoff yoff sy : ℕ} {statusAtTop : Bool} (hk : k.Draws) (h : tty.Tracks k d₀ d)
    (hoy : (if statusAtTop then uadd yoff 1 else yoff) = oy) (hs : s.Within d.t xoff oy) (hpos : 0 < sy)
    (hsy : sy ≤ s.grid.sy) (hlines : s.CanRedraw k sel d.t xoff oy 0 sy) :
    ∃ tty' d', screenRedrawPane k s sel xoff yoff sy statusAtTop tty = pure tty' ∧ tty'.Placed k d₀ d' ∧
      Redrawn k s sel xoff oy 0 sy d d' ∧ d'.r = shown k.toTtyKind gridDefaultCell := by
  have hfirst : wrapsThere s (lineAbove s 0) tty.pos 0 xoff oy = false := by
    rw [wrapsThere, lineAbove, if_pos rfl, Option.any_none, Bool.and_false, Bool.false_and, Bool.false_and,
      Bool.false_and]
  obtain ⟨tty₁, d₁, hrun, -, hdrawn, hplaced, -⟩ :=
    h.redrawLines hk hs hsy hlines (Nat.le_of_eq (Nat.zero_add sy)) hfirst
  rw [Nat.zero_add] at hdrawn
  refine ⟨_, _, ?_, (hplaced hpos).1.ttyReset hk, ⟨hdrawn.rows, hdrawn.others, hdrawn.terminal⟩, rfl⟩
  rw [screenRedrawPane, hoy, List.range_eq_range', hrun, pure_bind]

/-- A terminal with all capabilities. -/
def anyTerminal : TtyDevice where
  term := { has := fun _ => true }
  acs _ := none
  edits _ := true
  earlyWrap := false
  sy := 3

/-- A line `ab` that is wrapped into a line `c`. -/
def abcScreen : Screen where
  grid := {
    sx := 2
    sy := 2
    hlimit := 0
    linedata := [{ celldata := [{ data := 97 }, { data := 98 }], wrapped := true }, { celldata := [{ data := 99 }] }] }

/-- The screen of a terminal of two columns and three rows, that takes all that is written to it. -/
def anyDisplay (bottom : ℕ) : Display where
  t := { sx := 2, sy := 3, x := 0, y := 0, top := 0, bottom }
  r := shown anyTerminal.toTtyKind gridDefaultCell
  cells _ _ := .rest

theorem screenRedrawPane_shows_wrapped :
    ∃ tty' d', screenRedrawPane anyTerminal abcScreen {} 0 0 2 false { pos := (anyDisplay 2).t.position } = pure tty' ∧
      tty'.Placed anyTerminal (anyDisplay 2) d' ∧ Redrawn anyTerminal abcScreen {} 0 0 0 2 (anyDisplay 2) d' ∧
      d'.r = shown anyTerminal.toTtyKind gridDefaultCell := by
  have hlines : ∀ py < 2, ∀ gl, abcScreen.grid.row py = some gl →
      py = 0 ∧ gl = { celldata := [{ data := 97 }, { data := 98 }], wrapped := true } ∨
        py = 1 ∧ gl = { celldata := [{ data := 99 }] } := by
    intro py hpy gl hgl
    rcases Nat.lt_succ_iff_lt_or_eq.1 hpy with h0 | rfl
    · obtain rfl := Nat.lt_one_iff.1 h0
      exact .inl ⟨rfl, (Option.some.inj hgl).symm⟩
    · exact .inr ⟨rfl, (Option.some.inj hgl).symm⟩
  refine screenRedrawPane_shows ⟨rfl, ⟨.inl rfl, rfl, fun _ _ => rfl, fun g => .inl rfl⟩, rfl⟩
    ⟨rfl, rfl, .inl rfl, ⟨by decide, by decide, by decide, by decide, by decide⟩⟩ rfl
    ⟨⟨by decide, by decide⟩, by decide, by decide, by decide⟩ (by decide) (by decide) ⟨?_, ?_, ?_⟩
  · intro py _ hpy gl hgl x _ hx
    have hplain : ∀ gc ∈ gl.celldata, gc.isUtf8 = false := by
      rcases hlines py hpy gl hgl with ⟨rfl, rfl⟩ | ⟨rfl, rfl⟩ <;> decide
    rw [GridLine.cell] at hx
    cases hcell : gl.celldata[x]? with
    | none =>
      rw [hcell] at hx
      exact absurd hx (by decide)
    | some gc =>
      rw [hcell] at hx
      exact absurd ((hplain gc (List.mem_of_getElem? hcell)).symm.trans hx) Bool.false_ne_true
  · intro py _ hpy gl hgl
    rcases hlines py hpy gl hgl with ⟨rfl, rfl⟩ | ⟨rfl, rfl⟩
    · unfold Straight
      decide
    · unfold Straight
      decide
  · intro py _ hpy gl hgl _ _ _
    refine ⟨by dsimp only [anyDisplay]; omega, .inr ?_⟩
    rcases hlines py hpy gl hgl with ⟨rfl, rfl⟩ | ⟨rfl, rfl⟩ <;> decide

/-- If the row of the wrapped line is the bottom margin, the line that it is wrapped into is displayed in its place. -/
example : (fun tty' => match (tty'.out.foldl Display.apply (anyDisplay 0)).cells 0 0 with
      | .text bytes _ => bytes
      | .rest => []) <$>
    screenRedrawPane anyTerminal abcScreen {} 0 0 2 false { pos := (anyDisplay 0).t.position } = pure [99] := rfl

end Tmux
