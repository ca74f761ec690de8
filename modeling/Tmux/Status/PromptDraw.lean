import Tmux.Copy.Mode
import Tmux.Screen.Columns
import Tmux.Screen.Compare

/-!
# Drawing a prompt

The prompt of a client is drawn on a screen of one line (`statusPromptDraw`): its string, cut to the width of the
terminal, then as much of the buffer as there are columns left, from a place on that has the cursor on the screen
(`promptWindow`), and blanks. At last the cell of the cursor is reversed (`fakeCursor`).

The part of the buffer with the cursor is shown, and nothing is drawn outside of the line, if and only if the string is
narrower than the terminal (`statusPromptDraw_iff`). If it leaves no column, nothing of the buffer is drawn, but the cell
of the cursor is looked for all the same, past the end of the line.

Sums of sizes do not wrap, but the column of the cursor is an unsigned int.
-/

namespace Tmux

open Exec (usub uadd forget)

/-- The options for messages, and those for the prompt in the mode 1 of its keys. -/
structure MessageOptions where
  fg : ℕ := 0
  bg : ℕ := 3
  attr : UInt8 := 0
  commandFg : ℕ := 3
  commandBg : ℕ := 0
  commandAttr : UInt8 := 0

/-- A prompt as it is drawn: its string, its buffer, the place in it, and the mode of its keys. -/
structure DrawnPrompt where
  string : List UInt8
  buffer : List UInt8
  index : ℕ
  mode : Fin 2

/-- The cell that a prompt is drawn with. -/
def promptCell (oo : MessageOptions) (mode : Fin 2) : GridCell :=
  if (mode : ℕ) = 1 then
    let gc := colourSetBg (colourSetFg gridDefaultCell oo.commandFg) oo.commandBg
    { gc with attr := gc.attr ||| oo.commandAttr }
  else
    let gc := colourSetBg (colourSetFg gridDefaultCell oo.fg) oo.bg
    { gc with attr := gc.attr ||| oo.attr }

/-- The part of the buffer that is drawn: from which place on, in how many columns at most, and in how many. -/
structure PromptWindow where
  off : ℕ
  left : ℕ
  size : ℕ
  deriving DecidableEq, Repr

/-- The part of a buffer of `size` columns that is drawn in `left` columns. -/
def promptWindow (left size index : ℕ) : PromptWindow :=
  if index ≥ left then
    let off := index - left + 1
    let left := if index = size then left - 1 else left
    { off, left, size := left }
  else { off := 0, left, size }

/-- Draw a part of the buffer after `len` columns, in the `left` ones after them, and blanks up to the end of the line.
    Gives the place from which on it is drawn. -/
def drawBuffer (sx : ℕ) (s : Screen) (gc : GridCell) (utf8flag : Bool) (p : DrawnPrompt) (len left : ℕ) :
    Exec (Screen × ℕ) := do
  let size ← screenWriteStrlen utf8flag p.buffer
  let { off, left, size } := promptWindow left size p.index
  let s ← screenWriteVnputs s left gc utf8flag (p.buffer.drop off)
  let s ← writeSpaces gc s (sx - (len + size))
  pure (s, off)

/-- Reverse the cell of the cursor, that is in a column of the line. -/
def fakeCursor (s : Screen) (off : ℕ) : Exec Screen := do
  let found ← gridViewGetCell s.grid off 0
  let (gd, gcp) ← Exec.follow found
  let grid ← gridViewSetCell gd off 0 { gcp with attr := gcp.attr ^^^ gridAttrReverse }
  pure { s with grid }

/-- Draw a prompt on a new screen of `sx` columns. -/
def statusPromptDraw (sx : ℕ) (oo : MessageOptions) (utf8flag : Bool) (p : DrawnPrompt) : Exec Screen := do
  let s ← screenInit [] sx 1 0
  let width ← screenWriteStrlen utf8flag p.string
  let len := if width > sx then sx else width
  -- Change colours for command mode.
  let gc := promptCell oo p.mode
  let s ← screenWriteCursormove s 0 0
  let s ← screenWriteVnputs s len gc utf8flag p.string
  let (s, off) ← if sx - len ≠ 0 then drawBuffer sx s gc utf8flag p len (sx - len) else pure (s, 0)
  -- Apply fake cursor.
  fakeCursor s ((len + p.index - off) % Exec.word)

/-- Draw client prompt on the status line, if the terminal has a size. Gives whether it is to be redrawn, and the
    screen. -/
def statusPromptRedraw (sx sy : ℕ) (oo : MessageOptions) (utf8flag : Bool) (p : DrawnPrompt) (oldStatus : Screen) :
    Exec (ℕ × Screen) := do
  if sx = 0 ∨ sy = 0 then pure (0, oldStatus)
  else do
    let s ← statusPromptDraw sx oo utf8flag p
    let redraw ← statusRedrawn s.grid oldStatus.grid
    pure (redraw, s)

/-! ## What is to be drawn -/

/-- A cell for the character at a place of a text, or for a blank after it, reversed at the cursor. -/
def textCell (gc : GridCell) (text : List UInt8) (index i : ℕ) : GridCell :=
  let gc := { gc with data := text[i]?.getD 32 }
  if i = index then { gc with attr := gc.attr ^^^ gridAttrReverse } else gc

/-- A prompt with a string of `width` columns is drawn inside its line: nothing is scrolled and nothing drawn after the
    last column, and after the string a part of the buffer with the cursor, which may be after its end, is shown. -/
structure PromptShown (sx width : ℕ) (gc : GridCell) (buffer : List UInt8) (index : ℕ) (s : Screen) : Prop where
  size : s.grid.sx = sx ∧ s.grid.sy = 1
  scrolled : s.grid.hsize = 0
  cursor : s.cx = sx ∧ s.cy = 0
  inside : ∀ x, sx ≤ x → s.grid.shown x 0 = defaultShown
  part : ∃ col off n, width ≤ col ∧ (off ≤ index ∧ index < off + n) ∧ off + n ≤ buffer.length + 1 ∧ col + n ≤ sx ∧
    ∀ i < n, s.grid.shown (col + i) 0 = (textCell gc buffer index (off + i), none)

variable {s s' : Screen} {gl : GridLine} {gc : GridCell} {g g' : Grid} {sx x index left : ℕ} {buffer : List UInt8}

/-- A cell with another flag than those of padding and UTF-8 data set. -/
theorem GridCell.Plain.setFlag {gc' : GridCell} {flag : UInt8} (h : gc.Plain) (hflags : gc'.flags = gc.flags ||| flag)
    (hpadding : flag &&& gridFlagPadding = 0) (hutf8 : flag &&& gridFlagUtf8 = 0) : gc'.Plain where
  isPadding := by
    rw [GridCell.isPadding, hflags, flags_set hpadding]
    exact h.isPadding
  isUtf8 := by
    rw [GridCell.isUtf8, hflags, flags_set hutf8]
    exact h.isUtf8

theorem colourSetFg_plain (h : gc.Plain) (c : ℕ) : (colourSetFg gc c).Plain := by
  unfold colourSetFg
  split_ifs
  · exact h.setFlag rfl (by decide) (by decide)
  · exact ⟨h.isPadding, h.isUtf8⟩

theorem colourSetBg_plain (h : gc.Plain) (c : ℕ) : (colourSetBg gc c).Plain := by
  unfold colourSetBg
  split_ifs
  · exact h.setFlag rfl (by decide) (by decide)
  · exact ⟨h.isPadding, h.isUtf8⟩

theorem promptCell_plain (oo : MessageOptions) (mode : Fin 2) : (promptCell oo mode).Plain := by
  have hcolours : ∀ fg bg : ℕ, (colourSetBg (colourSetFg gridDefaultCell fg) bg).Plain := fun fg bg =>
    colourSetBg_plain (colourSetFg_plain gridDefaultCell_plain fg) bg
  unfold promptCell
  split_ifs
  · exact ⟨(hcolours _ _).isPadding, (hcolours _ _).isUtf8⟩
  · exact ⟨(hcolours _ _).isPadding, (hcolours _ _).isUtf8⟩

/-! ## The cursor -/

/-- What a column shows, reversed. -/
def reversed (column : GridCell × Option GridUtf8) : GridCell × Option GridUtf8 :=
  ({ column.1 with attr := column.1.attr ^^^ gridAttrReverse }, column.2)

/-- A line with the cell in a column reversed. -/
def GridLine.reverse (gl : GridLine) (x : ℕ) : GridLine :=
  (gridExpandLine gl (x + 1)).setCell x { gl.cell x with attr := (gl.cell x).attr ^^^ gridAttrReverse }

/-- The cell of the cursor is reversed, in its line. -/
theorem fakeCursor_eq (h : s.grid.Whole) (hsy : 0 < s.grid.sy) (hx : x + 1 < Exec.word) :
    ∃ grid, fakeCursor s x = pure { s with grid } ∧ grid.sx = s.grid.sx ∧ grid.sy = s.grid.sy ∧
      grid.hsize = s.grid.hsize ∧ grid.shown x 0 = reversed (s.grid.shown x 0) ∧
      ∀ x', x' ≠ x → grid.shown x' 0 = s.grid.shown x' 0 := by
  obtain ⟨gl, hgl⟩ := h.exists_row hsy
  have hrow := Grid.withLine_row_self h hsy (gl.reverse x)
  refine ⟨s.grid.withLine (s.grid.hsize + 0) (gl.reverse x), ?_, rfl, rfl, rfl, ?_, fun x' hx' => ?_⟩
  · rw [fakeCursor, gridViewGetCell_row h hsy hgl hx, pure_bind, Exec.follow_some, pure_bind]
    dsimp only
    rw [gridViewSetCell_withLine h hsy _ hx, pure_bind]
    rfl
  · rw [Grid.shown_of_row hrow, Grid.shown_of_row hgl, GridLine.reverse, GridLine.shown, GridLine.setCell_cell,
      if_pos rfl, GridLine.setCell_utf8data, gridExpandLine_utf8data]
    rfl
  · rw [Grid.shown_of_row hrow, Grid.shown_of_row hgl]
    refine GridLine.shown_congr ?_ ?_
    · rw [GridLine.reverse, GridLine.setCell_cell, if_neg hx', gridExpandLine_cell]
    · rw [GridLine.reverse, GridLine.setCell_utf8data, gridExpandLine_utf8data]

/-- A row that is updated. -/
theorem updateRow_value {y : ℕ} {f : GridLine → Exec GridLine} (hgl : g.linedata[y]? = some gl)
    (hrun : updateRow g y f = pure g') : ∃ gl', f gl = pure gl' ∧ g' = g.withLine y gl' := by
  have hload := hrun
  rw [updateRow, Block.load_eq hgl, pure_bind] at hload
  obtain ⟨gl', hf, -⟩ := Exec.bind_eq_pure.1 hload
  exact ⟨gl', hf, Exec.pure_injective (hrun.symm.trans (updateRow_eq hgl hf))⟩

/-- Wherever it is, what was a default cell is none once it is reversed. -/
theorem fakeCursor_shown (h : s.grid.Whole) (hsy : 0 < s.grid.sy) (hblank : s.grid.shown x 0 = defaultShown)
    (hrun : fakeCursor s x = pure s') : s'.grid.shown x 0 ≠ defaultShown := by
  obtain ⟨gl, hgl⟩ := h.exists_row hsy
  have hroom := h.room
  have hlength := h.lt_length hsy
  have hcheck : ∀ g : Grid, g.Whole → 0 < g.sy → ¬(!gridCheckY g (gridViewY g 0)) = true := fun g h hsy => by
    have hroom := h.room
    rw [gridViewY_eq h hsy.le, gridCheckY_eq h, decide_eq_true (by omega : g.hsize + 0 < g.hsize + g.sy)]
    simp
  rw [fakeCursor, gridViewGetCell, gridGetCell, if_neg (hcheck _ h hsy), gridViewY_eq h hsy.le,
    updateRow_eq (f := fun gl => pure (gridExpandLine gl (uadd x 1))) hgl rfl, pure_bind,
    Block.load_eq (Grid.withLine_load hlength), pure_bind] at hrun
  obtain ⟨found, hget, hset⟩ := Exec.bind_eq_pure.1 hrun
  obtain ⟨gc, hload, hfound⟩ := Exec.bind_eq_pure.1 hget
  obtain rfl := Exec.pure_injective hfound
  -- The cell is the default one still.
  have hgc : gc = gridDefaultCell := by
    have hcell : (gridExpandLine gl (uadd x 1)).cell x = gc := by
      rw [GridLine.cell, load_cell.1 hload]
      rfl
    rw [← hcell, gridExpandLine_cell]
    rw [Grid.shown_of_row hgl] at hblank
    exact GridLine.cell_of_default hblank
  rw [Exec.follow_some, pure_bind] at hset
  obtain ⟨g', hput, hs'⟩ := Exec.bind_eq_pure.1 hset
  obtain rfl := Exec.pure_injective hs'
  have hwhole := h.withLine (s.grid.hsize + 0) (gridExpandLine gl (uadd x 1))
  rw [gridViewSetCell, gridSetCell, if_neg (hcheck _ hwhole hsy), gridViewY_eq hwhole hsy.le] at hput
  obtain ⟨gl', hgl', rfl⟩ := updateRow_value (Grid.withLine_row_self h hsy _) hput
  obtain ⟨cells, hstore, hcells⟩ := Exec.bind_eq_pure.1 hgl'
  obtain rfl := Exec.pure_injective hcells
  obtain ⟨hx, rfl⟩ := Block.store_value (congrArg Exec.value? hstore)
  rw [Grid.shown_of_row (Grid.withLine_row_self hwhole hsy _)]
  intro hdefault
  have hcell := GridLine.cell_of_default hdefault
  rw [GridLine.cell] at hcell
  rw [List.getElem?_set_self hx, Option.getD_some, hgc] at hcell
  exact absurd (congrArg GridCell.attr hcell) (by decide)

/-! ## The buffer -/

/-- As many bytes of a buffer from a place on, with blanks after its end. -/
def blankAfter (buffer : List UInt8) (off left : ℕ) : List UInt8 :=
  (List.range left).map fun i => buffer[off + i]?.getD 32

/-- The cursor is in the part of the buffer that is drawn. -/
theorem promptWindow_index (hleft : 0 < left) (size : ℕ) :
    (promptWindow left size index).off ≤ index ∧ index < (promptWindow left size index).off + left := by
  unfold promptWindow
  split_ifs
  all_goals dsimp only; omega

/-- It is drawn within a limit that is not zero, or empty. -/
theorem promptWindow_left (hleft : 0 < left) :
    0 < (promptWindow left buffer.length index).left ∨
      buffer.drop (promptWindow left buffer.length index).off = [] := by
  rw [List.drop_eq_nil_iff]
  unfold promptWindow
  split_ifs
  all_goals dsimp only; omega

theorem blankAfter_eq (buffer : List UInt8) (off left : ℕ) :
    blankAfter buffer off left =
      (buffer.drop off).take left ++ List.replicate (left - (buffer.length - off)) 32 := by
  refine List.ext_getElem? fun i => ?_
  rw [blankAfter, List.getElem?_map, List.getElem?_append, List.length_take, List.length_drop]
  by_cases hi : i < left
  · rw [List.getElem?_range hi, Option.map_some]
    split_ifs with hin
    · rw [List.getElem?_take_of_lt hi, List.getElem?_drop, List.getElem?_eq_getElem (by omega), Option.getD_some]
    · rw [List.getElem?_replicate, if_pos (by omega), List.getElem?_eq_none (by omega), Option.getD_none]
  · rw [List.getElem?_eq_none (by rw [List.length_range]; omega), Option.map_none, if_neg (by omega),
      List.getElem?_replicate, if_neg (by omega)]

/-- It fills, with the blanks after it, the columns that are left. -/
theorem promptWindow_text (hleft : 0 < left) (hindex : index ≤ buffer.length) :
    (buffer.drop (promptWindow left buffer.length index).off).take (promptWindow left buffer.length index).left ++
        List.replicate (left - (promptWindow left buffer.length index).size) 32 =
      blankAfter buffer (promptWindow left buffer.length index).off left := by
  have hdrawn : min (promptWindow left buffer.length index).left
      (buffer.length - (promptWindow left buffer.length index).off) =
      min left (buffer.length - (promptWindow left buffer.length index).off) := by
    unfold promptWindow
    split_ifs
    all_goals dsimp only
    omega
  have hblanks : left - (promptWindow left buffer.length index).size =
      left - (buffer.length - (promptWindow left buffer.length index).off) := by
    unfold promptWindow
    split_ifs
    all_goals dsimp only; omega
  rw [blankAfter_eq, hblanks]
  refine congrArg (· ++ _) ?_
  rw [List.take_eq_take_iff, List.length_drop, hdrawn]

/-! ## Drawing -/

/-- The line of a prompt is blank from the cursor on. -/
structure Screen.PromptLine (s : Screen) (sx : ℕ) : Prop where
  canAppend : s.CanAppend (sx - s.cx)
  size : s.grid.sx = sx ∧ s.grid.sy = 1
  scrolled : s.grid.hsize = 0
  row : s.cy = 0
  blank : ∀ x, s.cx ≤ x → s.grid.shown x 0 = defaultShown

theorem Screen.PromptLine.appended (h : s.PromptLine sx) (happended : s.Appended s')
    (hcanAppend : s'.CanAppend (sx - s'.cx)) : s'.PromptLine sx where
  canAppend := hcanAppend
  size := ⟨happended.sx.trans h.size.1, happended.sy.trans h.size.2⟩
  scrolled := happended.hsize.trans h.scrolled
  row := happended.cy.trans h.row
  blank x hx := (h.row ▸ happended.after x hx).trans (h.blank x (happended.le.trans hx))

/-- Moving the cursor to where it is. -/
theorem screenWriteCursormove_zero (hsx : 1 ≤ s.grid.sx) (hsy : 1 ≤ s.grid.sy) (hcx : s.cx = 0) (hcy : s.cy = 0) :
    screenWriteCursormove s 0 0 = pure s := by
  have hlimit : ∀ k, limit 0 k = 0 := fun k => if_neg (Nat.not_lt_zero k)
  rw [screenWriteCursormove, Exec.usub_of_le hsx, pure_bind, Exec.usub_of_le hsy, Exec.forget_pure, pure_bind, hlimit,
    hlimit]
  cases s
  cases hcx
  cases hcy
  rfl

/-- The string is drawn first, as far as the line has columns for it. -/
theorem statusPromptDraw_string (hsx : 1 ≤ sx) (hword : sx < Exec.word) (oo : MessageOptions) (utf8flag : Bool)
    (p : DrawnPrompt) : ∃ width s, screenWriteStrlen utf8flag p.string = pure width ∧ s.PromptLine sx ∧
      s.cx = min width sx ∧ statusPromptDraw sx oo utf8flag p =
        (if sx - s.cx ≠ 0 then drawBuffer sx s (promptCell oo p.mode) utf8flag p s.cx (sx - s.cx) else pure (s, 0)) >>=
          fun r => fakeCursor r.1 ((s.cx + p.index - r.2) % Exec.word) := by
  have hplain := promptCell_plain oo p.mode
  obtain ⟨s, hinit, hs, hcx, hcy, hgsx, hgsy, hhsize, hrow⟩ :=
    screenInit_canAppend ⟨hsx, hword⟩ le_rfl (by decide : 0 + 1 + 1 < Exec.word) []
  have hline : s.PromptLine sx := ⟨by rwa [hcx, Nat.sub_zero], ⟨hgsx, hgsy⟩, hhsize, hcy, fun x _ => by
    rw [Grid.shown_of_row (hrow 0 Nat.one_pos)]
    exact GridLine.shown_of_cell (GridLine.cell_of_length_le (Nat.zero_le x))⟩
  set width := columns (characters none utf8flag p.string (promptCell oo p.mode))
  have hlen : (if width > sx then sx else width) = min width sx := by
    split_ifs <;> omega
  obtain ⟨s', hwrite, hcx', hs', happended⟩ : ∃ s', screenWriteVnputs s (min width sx : ℕ) (promptCell oo p.mode)
      utf8flag p.string = pure s' ∧ s'.cx = s.cx + min width (min width sx) ∧
        s'.CanAppend (sx - min width (min width sx)) ∧ s.Appended s' :=
    screenWriteVnputs_append hs utf8flag p.string hplain (by omega) (by omega)
  rw [hcx, Nat.zero_add, show min width (min width sx) = min width sx by omega] at hcx'
  rw [show min width (min width sx) = min width sx by omega] at hs'
  refine ⟨width, s', screenWriteStrlen_columns utf8flag p.string hplain, hline.appended happended (hcx' ▸ hs'), hcx', ?_⟩
  rw [statusPromptDraw, hinit, pure_bind, screenWriteStrlen_columns utf8flag p.string hplain, pure_bind]
  dsimp only
  rw [hlen, screenWriteCursormove_zero (by omega) (by omega) hcx hcy, pure_bind, hwrite, pure_bind, hcx']
  split_ifs <;> rfl

/-- A part of the buffer with the cursor is drawn in all columns that are left, blanks being drawn after its end. -/
theorem drawBuffer_row (h : s.PromptLine sx) (hgc : gc.Plain) (hlt : s.cx < sx) (utf8flag : Bool) {p : DrawnPrompt}
    (hascii : ∀ b ∈ p.buffer, b ≤ 0x7f) (hindex : p.index ≤ p.buffer.length) :
    ∃ s' off, drawBuffer sx s gc utf8flag p s.cx (sx - s.cx) = pure (s', off) ∧ s'.PromptLine sx ∧ s'.cx = sx ∧
      (off ≤ p.index ∧ p.index < off + (sx - s.cx)) ∧
      ∀ i < sx - s.cx, s'.grid.shown (s.cx + i) 0 = ({ gc with data := p.buffer[off + i]?.getD 32 }, none) := by
  have hleft : 0 < sx - s.cx := by omega
  set w := promptWindow (sx - s.cx) p.buffer.length p.index with hw
  have htext := promptWindow_text hleft hindex
  rw [← hw] at htext
  have hlength : (blankAfter p.buffer w.off (sx - s.cx)).length = sx - s.cx := by
    rw [blankAfter, List.length_map, List.length_range]
  obtain ⟨s', hwrite, hcx, hs', happended, -, hshown⟩ := writeCells_bytes h.canAppend hgc hlength.le
  rw [hlength] at hcx hs'
  rw [Nat.add_sub_cancel' hlt.le] at hcx
  rw [Nat.sub_self] at hs'
  have hline := h.appended happended (by rwa [hcx, Nat.sub_self])
  refine ⟨s', w.off, ?_, hline, hcx, promptWindow_index hleft _, fun i hi => ?_⟩
  · have hputs : ∀ s, screenWriteVnputs s w.left gc utf8flag (p.buffer.drop w.off) =
        writeCells s (byteCells gc ((p.buffer.drop w.off).take w.left)) := fun s => by
      rw [screenWriteVnputs, nputsFrom_ascii utf8flag (fun b hb => hascii b (List.mem_of_mem_drop hb)) le_rfl
        (promptWindow_left hleft), Nat.sub_zero]
    have hblanks : ∀ s', writeSpaces gc s' (sx - (s.cx + w.size)) =
        writeCells s' (byteCells gc (List.replicate (sx - s.cx - w.size) 32)) := fun s' => by
      rw [writeSpaces_eq, byteCells, List.map_replicate, Nat.sub_sub]
    have hboth : byteCells gc (blankAfter p.buffer w.off (sx - s.cx)) =
        byteCells gc ((p.buffer.drop w.off).take w.left) ++ byteCells gc (List.replicate (sx - s.cx - w.size) 32) := by
      rw [← htext, byteCells, List.map_append]
      rfl
    rw [hboth, writeCells, List.foldlM_append] at hwrite
    obtain ⟨s₁, hfirst, hrest⟩ := Exec.bind_eq_pure.1 hwrite
    rw [drawBuffer, screenWriteStrlen_ascii utf8flag hascii, pure_bind]
    dsimp only
    rw [← hw, hputs, writeCells, hfirst, pure_bind, hblanks, writeCells, hrest, pure_bind]
  · have hbyte : (blankAfter p.buffer w.off (sx - s.cx))[i]? = some (p.buffer[w.off + i]?.getD 32) := by
      rw [blankAfter, List.getElem?_map, List.getElem?_range hi, Option.map_some]
    rw [← hshown i _ hbyte, h.row]

/-- A string that leaves no column: the cell that is reversed is after the end of the line. -/
theorem statusPromptDraw_outside (hsx : 1 ≤ sx) (hword : sx < Exec.word) {oo : MessageOptions} {utf8flag : Bool}
    {p : DrawnPrompt} {width : ℕ} (hwidth : screenWriteStrlen utf8flag p.string = pure width) (hwide : sx ≤ width)
    (hindex : sx + p.index < Exec.word) (hrun : statusPromptDraw sx oo utf8flag p = pure s) :
    s.grid.shown (sx + p.index) 0 ≠ defaultShown := by
  obtain ⟨width', s₀, hwidth', hline, hcx, hdraw⟩ := statusPromptDraw_string hsx hword oo utf8flag p
  obtain rfl := Exec.pure_injective (hwidth.symm.trans hwidth')
  rw [min_eq_right hwide] at hcx
  rw [hdraw, hcx, Nat.sub_self, if_neg (not_not.2 rfl), pure_bind] at hrun
  dsimp only at hrun
  rw [Nat.sub_zero, Nat.mod_eq_of_lt hindex] at hrun
  exact fakeCursor_shown hline.canAppend.sound.whole (hline.size.2 ▸ Nat.one_pos) (hline.blank _ (by omega)) hrun

/-- A string that leaves columns: the cursor is in one of them. -/
theorem statusPromptDraw_shown (hsx : 1 ≤ sx) (hword : sx < Exec.word) (oo : MessageOptions) {utf8flag : Bool}
    {p : DrawnPrompt} {width : ℕ} (hascii : ∀ b ∈ p.buffer, b ≤ 0x7f) (hindex : p.index ≤ p.buffer.length)
    (hwidth : screenWriteStrlen utf8flag p.string = pure width) (hnarrow : width < sx) :
    ∃ s, statusPromptDraw sx oo utf8flag p = pure s ∧
      PromptShown sx width (promptCell oo p.mode) p.buffer p.index s := by
  obtain ⟨width', s₀, hwidth', hline₀, hcx₀, hdraw⟩ := statusPromptDraw_string hsx hword oo utf8flag p
  obtain rfl := Exec.pure_injective (hwidth.symm.trans hwidth')
  rw [min_eq_left hnarrow.le] at hcx₀
  obtain ⟨s₁, off, hbuffer, hline, hcx, hoff, hshown₁⟩ :=
    drawBuffer_row hline₀ (promptCell_plain oo p.mode) (hcx₀ ▸ hnarrow) utf8flag hascii hindex
  have hwhole := hline.canAppend.sound.whole
  obtain ⟨grid, hcursor, hgsx, hgsy, hhsize, hreversed, hother⟩ :=
    fakeCursor_eq (x := s₀.cx + p.index - off) hwhole (hline.size.2 ▸ Nat.one_pos) (by omega)
  refine ⟨{ s₁ with grid }, ?_, ⟨hgsx.trans hline.size.1, hgsy.trans hline.size.2⟩, hhsize.trans hline.scrolled,
    ⟨hcx, hline.row⟩, fun x hx => ?_, width, off, min (sx - width) (p.buffer.length + 1 - off), le_rfl, by omega,
    by omega, by omega, fun i hi => ?_⟩
  · rw [hdraw, if_pos (by omega), hbuffer, pure_bind]
    dsimp only
    rw [Nat.mod_eq_of_lt (by omega), hcursor]
  · rw [hother x (by omega)]
    exact hline.blank x (by omega)
  · have hcell := hshown₁ i (by omega)
    rw [hcx₀] at hcell hreversed hother
    by_cases hcolumn : off + i = p.index
    · rw [show width + i = width + p.index - off by omega] at hcell ⊢
      rw [hreversed, hcell, textCell, if_pos hcolumn]
      rfl
    · rw [hother _ (by omega), hcell, textCell, if_neg hcolumn]

/-- A prompt is drawn inside its line, with the cursor, if and only if its string is narrower than the line. Otherwise
    the cell of the cursor is drawn outside. -/
theorem statusPromptDraw_iff (hsx : 1 ≤ sx) (hword : sx < Exec.word) (oo : MessageOptions) (utf8flag : Bool)
    (p : DrawnPrompt) (hascii : ∀ b ∈ p.buffer, b ≤ 0x7f) (hindex : p.index ≤ p.buffer.length) :
    ((∃ width s, screenWriteStrlen utf8flag p.string = pure width ∧ statusPromptDraw sx oo utf8flag p = pure s ∧
        PromptShown sx width (promptCell oo p.mode) p.buffer p.index s) ↔
      ∃ width < sx, screenWriteStrlen utf8flag p.string = pure width) ∧
    ∀ width s, screenWriteStrlen utf8flag p.string = pure width → sx ≤ width → sx + p.index < Exec.word →
      statusPromptDraw sx oo utf8flag p = pure s → s.grid.shown (sx + p.index) 0 ≠ defaultShown := by
  refine ⟨⟨?_, ?_⟩, fun width s hwidth hwide hfits hrun => ?_⟩
  · rintro ⟨width, s, hwidth, -, hshown⟩
    obtain ⟨col, off, n, hcol, hoff, -, hroom, -⟩ := hshown.part
    exact ⟨width, by omega, hwidth⟩
  · rintro ⟨width, hnarrow, hwidth⟩
    obtain ⟨s, hs⟩ := statusPromptDraw_shown hsx hword oo hascii hindex hwidth hnarrow
    exact ⟨width, s, hwidth, hs⟩
  · exact statusPromptDraw_outside hsx hword hwidth hwide hfits hrun

/-- In four columns `:` and the end of `abc` are drawn, the cursor being after it. -/
theorem statusPromptDraw_iff_narrow : ∃ width s, screenWriteStrlen true [58] = pure width ∧
    statusPromptDraw 4 {} true { string := [58], buffer := [97, 98, 99], index := 3, mode := 0 } = pure s ∧
      PromptShown 4 width (promptCell {} 0) [97, 98, 99] 3 s :=
  (statusPromptDraw_iff (by decide) (by decide) {} true
    { string := [58], buffer := [97, 98, 99], index := 3, mode := 0 } (by simp) (by decide)).1.2
    ⟨1, by decide, screenWriteStrlen_ascii true (by simp)⟩

/-- In one column there is no room but for `:`. -/
theorem statusPromptDraw_wide : ¬∃ width s, screenWriteStrlen true [58] = pure width ∧
    statusPromptDraw 1 {} true { string := [58], buffer := [], index := 0, mode := 0 } = pure s ∧
      PromptShown 1 width (promptCell {} 0) [] 0 s := by
  rintro ⟨width, s, -, hrun, hshown⟩
  exact statusPromptDraw_outside le_rfl (by decide) (screenWriteStrlen_ascii true (by simp)) le_rfl (by decide) hrun
    (hshown.inside 1 le_rfl)

end Tmux
