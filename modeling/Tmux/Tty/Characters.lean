import Tmux.Grid.InsertCells
import Tmux.Tty.Cleared
import Tmux.Tty.Picture

/-!
# Inserting and deleting characters

Columns are inserted and deleted at the cursor with the sequences for it if the pane takes whole rows of the terminal,
and else the line of the cursor is drawn again, as it is then. It looks the same either way
(`TtyOut.Tracks.ttyCharacters`).
-/

namespace Tmux

open Exec (uadd usub)

/-- Insert or delete up to nx characters at the cursor. -/
def screenWriteCharacters (s : Screen) (nx : ℕ) : Splice.Edit → Exec Screen
  | .insert => screenWriteInsertcharacter s nx
  | .delete => screenWriteDeletecharacter s nx

/-- The number of characters inserted or deleted, if `nx` are asked for. -/
def Screen.characterCount (s : Screen) (nx : ℕ) : ℕ := limit (atLeastOne nx) (s.grid.sx - s.cx)

/-- The command for inserting or deleting characters, which leaves nothing to be redrawn. -/
def TtyOut.ttyCharacters (k : TtyDevice) (ctx : TtyCtx) (s : Screen) (tty : TtyOut) : Splice.Edit → Exec TtyOut
  | .insert => Prod.fst <$> tty.ttyCmdInsertcharacter k ctx s
  | .delete => Prod.fst <$> tty.ttyCmdDeletecharacter k ctx s

/-- Columns are inserted or deleted in a row of a picture. -/
def Picture.edit (p : Picture) (g : Glyph) (sx row col n : ℕ) : Splice.Edit → Picture
  | .insert => p.insertColumns g row col n
  | .delete => p.deleteColumns g sx row col n

/-- What inserting or deleting characters needs to look right: neither where columns are inserted or deleted, nor at the
    end of those that are moved, a character is cut in two, and there is room to move those that make way. -/
structure Screen.CanEdit (s : Screen) (gl : GridLine) (nx : ℕ) (edit : Splice.Edit) : Prop where
  cursor : s.cx < s.grid.sx
  first : gl.StartsAt s.grid.sx s.cx
  lost : edit = .insert → gl.StartsAt s.grid.sx (s.grid.sx - s.characterCount nx)
  deleted : edit = .delete → gl.StartsAt s.grid.sx (s.cx + s.characterCount nx)
  moved : edit = .insert → ¬s.grid.KeepsCell s.cx s.cy (s.characterCount nx)

variable {k : TtyDevice} {s : Screen} {gl gl' : GridLine} {edit : Splice.Edit} {d₀ d : Display} {tty : TtyOut}
  {ctx : TtyCtx} {ox oy nx n : ℕ}

/-- In the other rows, a picture stays. -/
theorem Picture.edit_of_ne (p : Picture) (g : Glyph) {sx row col y : ℕ} (h : y ≠ row) (x : ℕ) :
    p.edit g sx row col n edit y x = p y x := by
  cases edit with
  | insert => exact if_neg fun hin => h hin.1
  | delete => exact if_neg fun hin => h hin.1

/-! ## The screen -/

theorem Screen.CanEdit.count (h : s.CanEdit gl nx edit) :
    1 ≤ s.characterCount nx ∧ s.cx + s.characterCount nx ≤ s.grid.sx := by
  have hcursor := h.cursor
  have hpos := atLeastOne_pos nx
  rw [characterCount, limit_eq_min]
  omega

/-- What the edit of the cells on the grid makes of the screen. -/
theorem editCharacters_eq (h : s.CanEdit gl nx edit) {f : Grid → ℕ → ℕ → ℕ → Exec Grid} {g' : Grid}
    (hval : (f s.grid s.cx s.cy (s.characterCount nx)).value? = some g') :
    (editCharacters f s nx).value? = some { s with grid := g' } := by
  have hcursor := h.cursor
  have hcount := h.count.1
  rw [Screen.characterCount] at hval hcount
  rw [editCharacters, Exec.usub_of_le hcursor.le, pure_bind]
  dsimp only
  rw [if_neg (by omega), Exec.usub_of_le (by omega), pure_bind, if_pos (by omega)]
  exact Exec.value?_bind.2 ⟨g', hval, rfl⟩

/-- The line of the cursor is edited, and still fits. -/
theorem screenWriteCharacters_line (h : s.Sound) (hsx : s.grid.sx < Exec.word) (hgl : s.grid.row s.cy = some gl)
    (he : s.CanEdit gl nx edit) (hfits : gl.Fits s.grid.sx) :
    ∃ gl', (screenWriteCharacters s nx edit).value? =
        some { s with grid := s.grid.withLine (s.grid.hsize + s.cy) gl' } ∧
      ∀ k p, (∀ x < s.grid.sx, gl.glyph k x = some (p s.cy x)) → gl'.Fits s.grid.sx ∧ ∀ x < s.grid.sx,
        gl'.glyph k x = some (Picture.edit p (blankGlyph k) s.grid.sx s.cy s.cx (s.characterCount nx) edit s.cy x) := by
  have hcy := h.rows.cursor
  have hcx := he.cursor
  obtain ⟨hpos, hle⟩ := he.count
  cases edit with
  | insert =>
    have hinserted : ∃ gl', (gridViewInsertCells s.grid s.cx s.cy (s.characterCount nx)).value? =
        some (s.grid.withLine (s.grid.hsize + s.cy) gl') ∧ ∀ x < s.grid.sx, gl'.shown x =
        if x < s.cx then gl.shown x else if x < s.cx + s.characterCount nx then defaultShown
          else gl.shown (x - s.characterCount nx) := by
      by_cases hlast : s.cx + 1 = s.grid.sx
      · obtain ⟨gl', hval, hshown⟩ := gridViewInsertCells_last h.whole hsx hcy hgl hpos hle hlast
        refine ⟨gl', hval, fun x hx => ?_⟩
        rw [hshown x hx, Splice.fill]
        split_ifs <;> first | rfl | omega
      · obtain ⟨gl', hval, hshown⟩ := gridViewInsertCells_row h.whole hsx hcy hgl hpos hle hlast
        have hroom : ∀ i, s.grid.sx ≤ i + s.characterCount nx → i < s.cx + s.characterCount nx →
            gl.shown i = defaultShown := fun i hi hin => by
          by_contra hne
          exact he.moved rfl ⟨hlast, gl, hgl, i, hi, hin, hne⟩
        have hdone : Splice.Inserted (· = defaultShown) s.cx (s.characterCount nx) s.grid.sx gl.shown
            (Splice.move defaultShown (s.cx + s.characterCount nx) s.cx (s.grid.sx - s.cx - s.characterCount nx) gl.shown) :=
          (Splice.inserted_move_iff (by rfl) hle).2 hroom
        refine ⟨gl', hval, fun x hx => ?_⟩
        rw [hshown]
        split_ifs with hbefore hfresh
        · exact hdone.before x hbefore
        · exact hdone.fresh x (Nat.not_lt.1 hbefore) hfresh
        · exact hdone.moved x (Nat.not_lt.1 hfresh) hx
    obtain ⟨gl', hval, hshown⟩ := hinserted
    refine ⟨gl', editCharacters_eq he hval, fun k p hlooks => ?_⟩
    obtain ⟨hfits', hglyph⟩ := hfits.inserted (k := k) hle he.first (he.lost rfl) hshown
    refine ⟨hfits', fun x hx => ?_⟩
    rw [hglyph x hx, Picture.edit, Picture.insertColumns]
    split_ifs with hbefore hmoved hfresh hfresh <;> first | omega | rfl | exact hlooks _ (by omega)
  | delete =>
    obtain ⟨gl', hval, hshown⟩ := gridViewDeleteCells_row h.whole hsx hcy hgl hpos hle
    have hdone : Splice.Deleted (· = defaultShown) s.cx (s.characterCount nx) s.grid.sx gl.shown
        (Splice.fill defaultShown (s.grid.sx - s.characterCount nx) (s.cx + s.characterCount nx)
          (Splice.move defaultShown s.cx (s.cx + s.characterCount nx) (s.grid.sx - s.cx - s.characterCount nx) gl.shown)) :=
      Splice.deleted_fill (by rfl) hle
    have hshown' : ∀ x < s.grid.sx, gl'.shown x = if x < s.cx then gl.shown x
        else if x + s.characterCount nx < s.grid.sx then gl.shown (x + s.characterCount nx) else defaultShown := by
      intro x hx
      rw [hshown x hx]
      split_ifs with hbefore hmoved
      · exact hdone.before x hbefore
      · exact hdone.moved x (Nat.not_lt.1 hbefore) hmoved
      · exact hdone.fresh x (Nat.not_lt.1 hbefore) (Nat.not_lt.1 hmoved) hx
    refine ⟨gl', editCharacters_eq he hval, fun k p hlooks => ?_⟩
    obtain ⟨hfits', hglyph⟩ := hfits.deleted (k := k) hle he.first (he.deleted rfl) hshown'
    refine ⟨hfits', fun x hx => ?_⟩
    rw [hglyph x hx, Picture.edit, Picture.deleteColumns]
    split_ifs with hbefore hmoved hfresh hfresh <;> first | omega | rfl | exact hlooks _ (by omega)

/-! ## The terminal -/

namespace Display

/-- Displays that differ at most in their columns. -/
theorem ext_cells {f g : ℕ → ℕ → Glyph} (h : ∀ i j, f i j = g i j) : { d with cells := f } = { d with cells := g } := by
  rw [funext fun i => funext (h i)]

theorem insertColumns_succ (d : Display) (n : ℕ) : (d.insertColumns 1).insertColumns n = d.insertColumns (n + 1) := by
  refine ext_cells fun i j => ?_
  have hcolumn : (d.insertColumns 1).column = d.column := rfl
  have hblank : (d.insertColumns 1).blank = d.blank := rfl
  have hcells : ∀ i j, (d.insertColumns 1).cells i j = if i = d.t.y ∧ d.column ≤ j ∧ j < d.t.sx then
      if j < d.column + 1 then d.blank else d.cells i (j - 1) else d.cells i j := fun _ _ => rfl
  rw [hcolumn, hblank, hcells, hcells, Nat.sub_sub]
  dsimp only [insertColumns]
  split_ifs <;> first | rfl | omega

theorem deleteColumns_succ (d : Display) (n : ℕ) : (d.deleteColumns 1).deleteColumns n = d.deleteColumns (n + 1) := by
  refine ext_cells fun i j => ?_
  have hcolumn : (d.deleteColumns 1).column = d.column := rfl
  have hblank : (d.deleteColumns 1).blank = d.blank := rfl
  have ht : (d.deleteColumns 1).t = d.t := rfl
  have hcells : ∀ i j, (d.deleteColumns 1).cells i j = if i = d.t.y ∧ d.column ≤ j ∧ j < d.t.sx then
      if j + 1 < d.t.sx then d.cells i (j + 1) else d.blank else d.cells i j := fun _ _ => rfl
  rw [hcolumn, hblank, ht, hcells, hcells]
  by_cases hin : i = d.t.y ∧ d.column ≤ j ∧ j < d.t.sx
  · rw [if_pos hin, if_pos hin]
    by_cases hn : j + n < d.t.sx
    · rw [if_pos hn, if_pos ⟨hin.1, by omega, hn⟩, Nat.add_assoc]
    · rw [if_neg hn, if_neg (by omega)]
  · rw [if_neg hin, if_neg hin, if_neg hin]

/-- Columns inserted one by one are inserted. -/
theorem foldl_ich (d : Display) (n : ℕ) : (List.replicate n (.ich 1)).foldl apply d = d.insertColumns n := by
  induction n generalizing d with
  | zero =>
    refine (ext_cells (f := d.cells) fun i j => ?_)
    split_ifs <;> first | rfl | omega
  | succ n ih =>
    rw [List.replicate_succ, List.foldl_cons, apply, ih, insertColumns_succ]

/-- Columns deleted one by one are deleted. -/
theorem foldl_dch (d : Display) (n : ℕ) : (List.replicate n (.dch 1)).foldl apply d = d.deleteColumns n := by
  induction n generalizing d with
  | zero =>
    refine (ext_cells (f := d.cells) fun i j => ?_)
    split_ifs <;> first | rfl | omega
  | succ n ih =>
    rw [List.replicate_succ, List.foldl_cons, apply, ih, deleteColumns_succ]

end Display

namespace TtyOut

/-- A row of a display changes in the place of a pane. -/
def Draws (k : TtyDevice) (d₀ d : Display) (tty : TtyOut) (row lo hi : ℕ) (f : ℕ → Glyph) : Prop :=
  ∃ d', Tracks k d₀ tty d' ∧ d'.t.sx = d.t.sx ∧ d'.t.sy = d.t.sy ∧ ∀ i, ∀ j < d.t.sx,
    d'.cells i j = if i = row ∧ lo ≤ j ∧ j < hi then f (j - lo) else d.cells i j

/-- A sequence for some columns is written, or the one for a single column several times. -/
theorem PlainAt.ttyEmulateRepeat {item : ℕ → TtyItem} {has has1 : Bool} (h : PlainAt k d₀ tty d)
    (hhas : (has || has1) = true) (ht : (d.apply (item n)).t = d.t) (hr : (d.apply (item n)).r = d.r)
    (hrepeat : (List.replicate n (item 1)).foldl Display.apply d = d.apply (item n)) :
    PlainAt k d₀ (tty.ttyEmulateRepeat has has1 item (item 1) n) (d.apply (item n)) := by
  cases has with
  | true => exact h.emit ht hr
  | false =>
    obtain rfl : has1 = true := hhas
    refine ⟨⟨?_, hr.trans h.rendition, ht.symm ▸ h.pos, ht.symm ▸ h.ok⟩, h.cell⟩
    rw [← hrepeat]
    exact (List.foldl_append).trans (congrArg (List.foldl Display.apply · _) h.out)

/-- The line of the cursor is drawn again. -/
theorem Tracks.drawCursorLine (h : Tracks k d₀ tty d) (hk : k.Draws) (hs : s.Within d.t ctx.xoff ctx.yoff)
    (hcy : ctx.ocy < s.grid.sy) (hgl : s.grid.row ctx.ocy = some gl) (hfits : gl.Fits s.grid.sx) {f : ℕ → Glyph}
    (hlooks : ∀ x < s.grid.sx, gl.glyph k x = some (f x))
    (hmove : wrapsThere s (lineAbove s ctx.ocy) tty.pos ctx.ocy ctx.xoff ctx.yoff = false) :
    ∃ tty', Prod.fst <$> tty.drawCursorLine k ctx s = pure tty' ∧
      Draws k d₀ d tty' (ctx.yoff + ctx.ocy) ctx.xoff (ctx.xoff + s.grid.sx) f := by
  have hstraight : Straight k s {} ctx.ocy gl := hfits.straight rfl
  have hlength := length_rowGlyphs hstraight
  obtain ⟨tty', x, r, hrun, -, h'⟩ := h.ttyDrawLine hk hs hcy hgl hfits.data hstraight hmove
  refine ⟨tty', ?_, _, h'.tracks, rfl, rfl, fun i j hj => ?_⟩
  · rw [TtyOut.drawCursorLine, hrun]
    rfl
  · have hcells : ∀ i j, Display.cells { (d.fill (ctx.yoff + ctx.ocy) ctx.xoff (rowGlyphs k s {} ctx.ocy gl)) with
        t := { d.t with x, y := ctx.yoff + ctx.ocy }, r } i j =
      (d.fill (ctx.yoff + ctx.ocy) ctx.xoff (rowGlyphs k s {} ctx.ocy gl)).cells i j := fun _ _ => rfl
    rw [hcells]
    split_ifs with hin
    · obtain ⟨rfl, hlo, hhi⟩ := hin
      have hx : j - ctx.xoff < s.grid.sx := by omega
      rw [Display.fill_cells hlo, hfits.rowGlyphs rfl hx, hlooks _ hx, Option.getD_some]
    · by_cases hrow : i = ctx.yoff + ctx.ocy
      · rcases Nat.lt_or_ge j ctx.xoff with hlt | hge
        · exact Display.fill_cells_of_lt hlt
        · exact Display.fill_cells_of_le (by omega)
      · exact Display.fill_cells_of_ne hrow

theorem Draws.of_cells {d₁ : Display} {row lo hi : ℕ} {f : ℕ → Glyph} (h : Draws k d₀ d₁ tty row lo hi f)
    (hsx : d₁.t.sx = d.t.sx) (hsy : d₁.t.sy = d.t.sy) (hcells : d₁.cells = d.cells) : Draws k d₀ d tty row lo hi f := by
  obtain ⟨d', h', hsx', hsy', hcells'⟩ := h
  refine ⟨d', h', hsx'.trans hsx, hsy'.trans hsy, fun i j hj => ?_⟩
  rw [hcells' i j (hsx.symm ▸ hj), hcells]

/-- A pane of full width starts at the first column and goes up to the last one. -/
theorem Tracks.fullWidth (h : Tracks k d₀ tty d) : tty.ttyPaneFullWidth ctx s = true ↔ ctx.xoff = 0 ∧ d.t.sx ≤ s.grid.sx := by
  have hsx : tty.pos.sx = d.t.sx := by rcases h.pos with hpos | hpos <;> rw [hpos] <;> rfl
  rw [ttyPaneFullWidth, hsx, Bool.and_eq_true, decide_eq_true_eq, decide_eq_true_eq]

/-- No line is gone on with but at the first column, and from behind the last one. -/
theorem wrapsThere_of_lt {above : Option GridLine} {pos : TtyPosition} {py : ℕ} (h : ox = 0 → pos.cx < pos.sx) :
    wrapsThere s above pos py ox oy = false := by
  cases hwraps : wrapsThere s above pos py ox oy with
  | false => rfl
  | true =>
    obtain ⟨-, hbehind, hzero⟩ := column_of_wrapsThere hwraps
    exact absurd (h hzero) (Nat.not_lt.2 hbehind)

section

variable (hk : k.Commands) (h : Tracks k d₀ tty d) (hs : s.Within d.t ctx.xoff ctx.yoff) (hcx : ctx.ocx < s.grid.sx)
  (hcy : ctx.ocy < s.grid.sy)

include hk h hs hcx hcy

/-- In a pane of full width, columns are inserted or deleted by a sequence. -/
theorem sequence_draws {has has1 : Bool} {item : ℕ → TtyItem} (hfull : tty.ttyPaneFullWidth ctx s = true)
    (hhas : (has || has1) = true) (hitem : item = .ich ∧ edit = .insert ∨ item = .dch ∧ edit = .delete) :
    Draws k d₀ d (((tty.ttyReset k).ttyCursorPane k ctx ctx.ocx ctx.ocy).ttyEmulateRepeat has has1 item (item 1) ctx.num)
      (ctx.yoff + ctx.ocy) ctx.xoff (ctx.xoff + s.grid.sx) fun x =>
        (d.picture ctx.xoff ctx.yoff).edit (blankGlyph k) s.grid.sx ctx.ocy ctx.ocx ctx.num edit ctx.ocy x := by
  have hwidth := hs.width
  obtain ⟨hzero, hle⟩ := h.fullWidth.1 hfull
  obtain ⟨d₁, h₁, ht₁, hcells₁⟩ := h.ttyCursorPane hk.toDraws hs hcx hcy
  have hcolumn : d₁.column = ctx.ocx := by
    rw [Display.column, ht₁]
    dsimp only
    omega
  have hy : d₁.t.y = ctx.yoff + ctx.ocy := by rw [ht₁]
  have hsx : d₁.t.sx = d.t.sx := by rw [ht₁]
  have hsy : d₁.t.sy = d.t.sy := by rw [ht₁]
  have hall : ctx.xoff + s.grid.sx = d.t.sx := by omega
  rcases hitem with ⟨rfl, rfl⟩ | ⟨rfl, rfl⟩
  · have h' := h₁.ttyEmulateRepeat (n := ctx.num) hhas rfl rfl (d₁.foldl_ich ctx.num)
    refine ⟨_, h'.tracks, hsx, hsy, fun i j hj => ?_⟩
    rw [Display.apply, Display.insertColumns, hcolumn, hy, hsx, h₁.blank, hcells₁, hall, hzero]
    dsimp only [Picture.edit, Picture.insertColumns, Display.picture]
    by_cases hi : i = ctx.yoff + ctx.ocy
    · subst hi
      have hplace : ctx.yoff + ctx.ocy = ctx.yoff + ctx.ocy ∧ 0 ≤ j ∧ j < d.t.sx := ⟨rfl, Nat.zero_le j, hj⟩
      rw [if_pos hplace, Nat.sub_zero, Nat.zero_add, Nat.zero_add]
      by_cases hcol : ctx.ocx ≤ j
      · rw [if_pos ⟨rfl, hcol, hj⟩, if_pos (show ctx.ocy = ctx.ocy ∧ ctx.ocx ≤ j from ⟨rfl, hcol⟩)]
      · rw [if_neg fun hin => hcol hin.2.1, if_neg fun hin => hcol hin.2]
    · rw [if_neg fun hin => hi hin.1, if_neg fun hin => hi hin.1]
  · have h' := h₁.ttyEmulateRepeat (n := ctx.num) hhas rfl rfl (d₁.foldl_dch ctx.num)
    refine ⟨_, h'.tracks, hsx, hsy, fun i j hj => ?_⟩
    have hend : s.grid.sx = d.t.sx := by omega
    rw [Display.apply, Display.deleteColumns, hcolumn, hy, hsx, h₁.blank, hcells₁, hall, hzero, hend]
    dsimp only [Picture.edit, Picture.deleteColumns, Display.picture]
    by_cases hi : i = ctx.yoff + ctx.ocy
    · subst hi
      have hplace : ctx.yoff + ctx.ocy = ctx.yoff + ctx.ocy ∧ 0 ≤ j ∧ j < d.t.sx := ⟨rfl, Nat.zero_le j, hj⟩
      rw [if_pos hplace, Nat.sub_zero, Nat.zero_add, Nat.zero_add]
      by_cases hcol : ctx.ocx ≤ j
      · rw [if_pos ⟨rfl, hcol, hj⟩, if_pos (show ctx.ocy = ctx.ocy ∧ ctx.ocx ≤ j from ⟨rfl, hcol⟩)]
      · rw [if_neg fun hin => hcol hin.2.1, if_neg fun hin => hcol hin.2]
    · rw [if_neg fun hin => hi hin.1, if_neg fun hin => hi hin.1]

variable (ctx) in
/-- The row of the cursor looks as the columns were inserted or deleted in it, either way. -/
theorem Tracks.ttyCharacters (hgl : s.grid.row ctx.ocy = some gl) (hfits : gl.Fits s.grid.sx)
    (hlooks : ∀ x < s.grid.sx, gl.glyph k x = some ((d.picture ctx.xoff ctx.yoff).edit (blankGlyph k) s.grid.sx ctx.ocy
      ctx.ocx ctx.num edit ctx.ocy x))
    (hdch : edit = .delete → (k.edits .dch || k.edits .dch1) = true)
    (hmove : ctx.xoff = 0 → d.t.sx ≤ s.grid.sx ∨ tty.pos.cx < tty.pos.sx) :
    ∃ tty', tty.ttyCharacters k ctx s edit = pure tty' ∧
      Draws k d₀ d tty' (ctx.yoff + ctx.ocy) ctx.xoff (ctx.xoff + s.grid.sx) fun x =>
        (d.picture ctx.xoff ctx.yoff).edit (blankGlyph k) s.grid.sx ctx.ocy ctx.ocx ctx.num edit ctx.ocy x := by
  have hdrawn : tty.ttyPaneFullWidth ctx s = false → ∃ tty', Prod.fst <$> tty.drawCursorLine k ctx s = pure tty' ∧
      Draws k d₀ d tty' (ctx.yoff + ctx.ocy) ctx.xoff (ctx.xoff + s.grid.sx) fun x =>
        (d.picture ctx.xoff ctx.yoff).edit (blankGlyph k) s.grid.sx ctx.ocy ctx.ocx ctx.num edit ctx.ocy x := fun hpart =>
    h.drawCursorLine hk.toDraws hs hcy hgl hfits hlooks <| wrapsThere_of_lt fun hzero =>
      (hmove hzero).resolve_left fun hall => by simp [h.fullWidth.2 ⟨hzero, hall⟩] at hpart
  cases edit with
  | insert =>
    rw [TtyOut.ttyCharacters, ttyCmdInsertcharacter]
    cases hfull : tty.ttyPaneFullWidth ctx s with
    | false => exact hdrawn hfull
    | true =>
      dsimp only
      rw [if_neg (by decide)]
      split_ifs with hhas
      · exact ⟨_, rfl, sequence_draws hk h hs hcx hcy hfull hhas (.inl ⟨rfl, rfl⟩)⟩
      · -- the cursor is on the line already, before its last column
        obtain ⟨d₁, h₁, ht₁, hcells₁⟩ := h.ttyCursorPane hk.toDraws hs hcx hcy
        have hwidth := hs.width
        have hbefore : (((tty.ttyReset k).ttyCursorPane k ctx ctx.ocx ctx.ocy)).pos.cx <
            ((tty.ttyReset k).ttyCursorPane k ctx ctx.ocx ctx.ocy).pos.sx := by
          rw [h₁.pos, ht₁]
          dsimp only [Terminal.position]
          omega
        obtain ⟨tty', hrun, hdraws⟩ := h₁.tracks.drawCursorLine hk.toDraws (hs.moved ⟨_, _, ht₁⟩) hcy hgl hfits hlooks
          (wrapsThere_of_lt fun _ => hbefore)
        exact ⟨tty', hrun, hdraws.of_cells (by rw [ht₁]) (by rw [ht₁]) hcells₁⟩
  | delete =>
    rw [TtyOut.ttyCharacters, ttyCmdDeletecharacter]
    cases hfull : tty.ttyPaneFullWidth ctx s with
    | false => exact hdrawn hfull
    | true =>
      have hhas := hdch rfl
      rw [← Bool.not_or, hhas, if_neg (by decide)]
      exact ⟨_, rfl, sequence_draws hk h hs hcx hcy hfull hhas (.inr ⟨rfl, rfl⟩)⟩

end

end TtyOut

end Tmux
