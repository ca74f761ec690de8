import Mathlib.Data.List.DropRight
import Tmux.Copy.Lines
import Tmux.Grid.Data

/-!
# The text that is selected

The text of a selection (`selectedText`) has the bytes of the characters selected, line by
line, with a newline after every line but the last one, unless the line continues on the
next one and is selected to its end. Blanks at the end of a line that does not continue
are left out.

The text that is copied is that one (`windowCopyCopySelection_iff`), unless the last line
continues on the next one and is copied to its end, or characters of it are left out
(`lastLineKept`): what is copied is ended by a newline that is then removed, but there is
no newline after a line that continues, and its blanks are not copied.
-/

namespace Tmux

open Exec (uadd usub uadd_of_lt usub_of_le)

variable {m : CopyMode} {gl : GridLine} {sx a b i n py : ℕ}

/-! ## Lines -/

/-- Whether a line was wrapped at the edge of a screen, and all of it is on the screen. -/
def GridLine.continues (gl : GridLine) (sx : ℕ) : Bool := gl.wrapped && decide (gl.celldata.length ≤ sx)

/-- Where the text of a line ends. -/
def GridLine.textEnd (gl : GridLine) (sx : ℕ) : ℕ :=
  if gl.continues sx then gl.celldata.length else gl.trimmed (min gl.celldata.length sx)

/-- The bytes of the character in a column, none if it is padding. -/
def GridLine.bytes (gl : GridLine) (px : ℕ) : List UInt8 :=
  if (gl.cell px).isPadding then []
  else if (gl.cell px).isUtf8 then
    match gl.utf8data[px]? with
    | some (some gu) => gu.data.take (gridUtf8Size gu)
    | _ => []
  else [(gl.cell px).data]

/-- The text of a line from a column on up to another one. -/
def GridLine.text (gl : GridLine) (sx a b : ℕ) : List UInt8 :=
  (List.range' a (min b (gl.textEnd sx) - a)).flatMap gl.bytes

/-- What is between a line and the next one, if the line is selected up to a column. -/
def GridLine.separator (gl : GridLine) (sx b : ℕ) : List UInt8 :=
  if gl.continues sx ∧ gl.celldata.length ≤ b then [] else [10]

/-- All characters of a line that are UTF-8 have their data. -/
def GridLine.HasData (gl : GridLine) : Prop :=
  ∀ px, (gl.cell px).isUtf8 = true → (gl.cell px).isPadding = false → ∃ gu, gl.utf8data[px]? = some (some gu)

/-- All columns after those left are blank. -/
theorem GridLine.blank_of_trimmed_le (hi : gl.trimmed n ≤ i) (hin : i < n) : (gl.cell i).isBlank = true := by
  induction n with
  | zero => omega
  | succ n ih =>
    unfold trimmed at hi
    split_ifs at hi with hblank
    · rcases Nat.lt_succ_iff_lt_or_eq.1 hin with hin | rfl
      · exact ih hi hin
      · exact hblank
    · omega

/-- The text up to a column, and on from there. -/
theorem GridLine.text_append {b' : ℕ} (gl : GridLine) (sx : ℕ) (hab : a ≤ b) (hbb : b ≤ b') :
    gl.text sx a b' = gl.text sx a b ++ (List.range' b (min b' (gl.textEnd sx) - b)).flatMap gl.bytes := by
  unfold text
  rw [← List.flatMap_append]
  congr 1
  rcases le_or_gt b (gl.textEnd sx) with hb | hb
  · rw [Nat.min_eq_left hb]
    have happend : List.range' a (b - a) ++ List.range' (a + (b - a)) (min b' (gl.textEnd sx) - b) =
        List.range' a (b - a + (min b' (gl.textEnd sx) - b)) := List.range'_append_1
    rw [show a + (b - a) = b by omega] at happend
    rw [happend]
    congr 1
    omega
  · rw [show min b' (gl.textEnd sx) - b = 0 by omega, List.range'_zero, List.append_nil]
    congr 1
    omega

/-! ## The selection -/

/-- The first place that is selected, and the last one. -/
def CopyMode.ends (m : CopyMode) : (ℕ × ℕ) × (ℕ × ℕ) :=
  if m.row < m.sely ∨ (m.row = m.sely ∧ m.cx < m.selx) then ((m.cx, m.row), (m.selx, m.sely))
  else ((m.selx, m.sely), (m.cx, m.row))

/-- The number of columns selected from the last one on: in vi mode its character is. -/
def CopyMode.lastColumns (m : CopyMode) : ℕ := if m.options.modeKeys = .emacs then 0 else 1

/-- The column after the last one of a rectangle. The column of the cursor is not in it in emacs
    mode if the cursor is on the right. -/
def CopyMode.right (m : CopyMode) : ℕ := if m.selx < m.cx then m.cx + m.lastColumns else m.selx + 1

/-- The columns that are selected of a line: from the first one on up to the second one. -/
def CopyMode.columns (m : CopyMode) (py : ℕ) : ℕ × ℕ :=
  if m.rectflag then (min m.selx m.cx, m.right)
  else (if py = m.ends.1.2 then m.ends.1.1 else 0,
    if py = m.ends.2.2 then m.ends.2.1 + m.lastColumns else m.screen.grid.sx)

/-- The text that is selected of a line. -/
def CopyMode.lineText (m : CopyMode) (py : ℕ) : List UInt8 :=
  (m.line py).text m.screen.grid.sx (m.columns py).1 (m.columns py).2

/-- The text selected of the lines before the last one, with newlines between. -/
def textBefore (m : CopyMode) : List UInt8 :=
  (List.range' m.ends.1.2 (m.ends.2.2 - m.ends.1.2)).flatMap fun py =>
    m.lineText py ++ (m.line py).separator m.screen.grid.sx (m.columns py).2

/-- The text that is selected. -/
def selectedText (m : CopyMode) : List UInt8 := textBefore m ++ m.lineText m.ends.2.2

/-- The column that the last line is copied up to: the selection is cut after the last character
    that is not blank, unless it is a rectangle. -/
def CopyMode.lastEnd (m : CopyMode) : ℕ :=
  if m.rectflag then m.right
  else min m.ends.2.1 ((m.line m.ends.2.2).trimmed (min (m.line m.ends.2.2).celldata.length m.screen.grid.sx)) +
    m.lastColumns

/-- The last line does not continue on the next one, or it is not copied to its end, and what is left
    out of it is padding. -/
def lastLineKept (m : CopyMode) : Prop :=
  (m.line m.ends.2.2).continues m.screen.grid.sx = true →
    m.lastEnd < (m.line m.ends.2.2).celldata.length ∧
    ∀ px, m.lastEnd ≤ px → px < min (m.columns m.ends.2.2).2 (m.line m.ends.2.2).celldata.length →
      ((m.line m.ends.2.2).cell px).isPadding = true

/-- A selection in a backing grid. -/
structure CopyMode.Selects (m : CopyMode) : Prop where
  sel : m.sel = true
  based : m.Based
  cx : m.cx ≤ m.screen.grid.sx
  selx : m.selx ≤ m.screen.grid.sx
  sely : m.sely < m.backing.grid.hsize + m.backing.grid.sy
  whole : m.backing.grid.Whole
  data : ∀ gl ∈ m.backing.grid.linedata, gl.HasData
  width : m.screen.grid.sx + 1 < Exec.word

/-! ## Copying a line -/

/-- A fold that appends to a list. -/
theorem foldlM_append {α β : Type} {f : List β → α → Exec (List β)} {g : α → List β} {l : List α}
    (hf : ∀ x ∈ l, ∀ buf, f buf x = pure (buf ++ g x)) (buf : List β) :
    l.foldlM f buf = pure (buf ++ l.flatMap g) := by
  induction l generalizing buf with
  | nil => rw [List.foldlM_nil, List.flatMap_nil, List.append_nil]
  | cons x l ih =>
    rw [List.foldlM_cons, hf x List.mem_cons_self, pure_bind, ih fun y hy => hf y (List.mem_cons_of_mem _ hy),
      List.flatMap_cons, List.append_assoc]

/-- Copying a cell of a line that has the data of its characters appends their bytes. -/
theorem copyCellBytes_row {gd : Grid} {gl : GridLine} (hcheck : gridCheckY gd py = true)
    (hload : gd.linedata[py]? = some gl) (hgl : gl.HasData) (buf : List UInt8) (px : ℕ) :
    copyCellBytes gd py buf px = pure (buf ++ gl.bytes px) := by
  have hpeek : gridPeekCell gd px py = pure (gl.cell px) := by
    rw [gridPeekCell, hcheck, if_neg (by simp), Block.load_eq hload, pure_bind]
    rfl
  rw [copyCellBytes, hpeek, pure_bind, GridLine.bytes]
  by_cases hpadding : (gl.cell px).isPadding = true
  · rw [if_pos hpadding, if_pos hpadding, List.append_nil]
  rw [if_neg hpadding, if_neg hpadding]
  by_cases hutf8 : (gl.cell px).isUtf8 = true
  · obtain ⟨gu, hgu⟩ := hgl px hutf8 (by simpa using hpadding)
    rw [if_neg (by simp [hutf8]), if_pos hutf8, gridPeekUtf8, hcheck, if_neg (by simp), Block.load_eq hload, pure_bind,
      hgu, pure_bind]
    simp only [Exec.follow_some, pure_bind]
  · rw [if_pos (by simpa using hutf8), if_neg hutf8]

/-- Convert cells into a string, without the spaces at its end. -/
def gridStringCells (gd : Grid) (px py nx : ℕ) : Exec (List UInt8) := do
  let buf ← (List.range' px (uadd px nx - px)).foldlM (copyCellBytes gd py) []
  pure (buf.rdropWhile (· = 32))

/-- The cells of a line that has the data of its characters are converted. -/
theorem gridStringCells_eq {gd : Grid} {gl : GridLine} (hcheck : gridCheckY gd py = true)
    (hload : gd.linedata[py]? = some gl) (hgl : gl.HasData) (px nx : ℕ) :
    gridStringCells gd px py nx =
      pure (((List.range' px (uadd px nx - px)).flatMap gl.bytes).rdropWhile (· = 32)) := by
  rw [gridStringCells, foldlM_append (g := gl.bytes) fun px _ buf => copyCellBytes_row hcheck hload hgl buf px,
    pure_bind, List.nil_append]

section

variable (h : m.Selects)

include h

theorem CopyMode.Selects.load (hpy : py < m.backing.grid.hsize + m.backing.grid.sy) :
    m.backing.grid.linedata[py]? = some (m.line py) := m.load_line h.whole hpy

theorem lineEnd_eq (hpy : py < m.backing.grid.hsize + m.backing.grid.sy) :
    lineEnd m py = pure ((m.line py).continues m.screen.grid.sx, (m.line py).textEnd m.screen.grid.sx) := by
  rw [lineEnd, Block.load_eq (h.load hpy), pure_bind, h.based.sx]
  unfold GridLine.textEnd
  by_cases hcontinues : (m.line py).wrapped = true ∧ (m.line py).celldata.length ≤ m.screen.grid.sx
  · have heq : (m.line py).continues m.screen.grid.sx = true := by simpa [GridLine.continues] using hcontinues
    rw [if_pos hcontinues, heq, if_pos rfl]
  · have heq : (m.line py).continues m.screen.grid.sx = false := by simpa [GridLine.continues] using hcontinues
    rw [if_neg hcontinues, windowCopyFindLength_eq h.whole hpy h.based, CopyMode.lineLength, pure_bind, heq,
      if_neg Bool.false_ne_true]

theorem copyCellBytes_eq (hpy : py < m.backing.grid.hsize + m.backing.grid.sy) (buf : List UInt8) (px : ℕ) :
    copyCellBytes m.backing.grid py buf px = pure (buf ++ (m.line py).bytes px) := by
  have hdata : (m.line py).HasData := h.data _ (List.mem_of_getElem? (h.load hpy))
  exact copyCellBytes_row (by rw [gridCheckY_eq h.whole, decide_eq_true hpy]) (h.load hpy) hdata buf px

/-- Copying a line appends its text, and the separator. -/
theorem windowCopyCopyLine_eq (hpy : py < m.backing.grid.hsize + m.backing.grid.sy) (hab : a ≤ b)
    (buf : List UInt8) :
    windowCopyCopyLine m buf py a b =
      pure (buf ++ ((m.line py).text m.screen.grid.sx a b ++ (m.line py).separator m.screen.grid.sx b)) := by
  have hcells := fun l => foldlM_append (f := copyCellBytes m.backing.grid py) (l := l) (g := (m.line py).bytes)
    fun px _ buf => copyCellBytes_eq h hpy buf px
  rw [windowCopyCopyLine, if_neg (by omega), lineEnd_eq h hpy, pure_bind]
  dsimp only
  rw [hcells, pure_bind, limit_eq_min, limit_eq_min]
  have htext : (List.range' (min a ((m.line py).textEnd m.screen.grid.sx))
      (min b ((m.line py).textEnd m.screen.grid.sx) - min a ((m.line py).textEnd m.screen.grid.sx))).flatMap
        (m.line py).bytes = (m.line py).text m.screen.grid.sx a b := by
    unfold GridLine.text
    rcases le_or_gt a ((m.line py).textEnd m.screen.grid.sx) with ha | ha
    · rw [Nat.min_eq_left ha]
    · rw [show min b ((m.line py).textEnd m.screen.grid.sx) - min a ((m.line py).textEnd m.screen.grid.sx) = 0 by
        omega, show min b ((m.line py).textEnd m.screen.grid.sx) - a = 0 by omega]
      rfl
  rw [htext, GridLine.separator]
  congr 1
  cases hcontinues : (m.line py).continues m.screen.grid.sx with
  | false => simp
  | true =>
    have hend : (m.line py).textEnd m.screen.grid.sx = (m.line py).celldata.length := by
      rw [GridLine.textEnd, if_pos hcontinues]
    rw [hend]
    rcases le_or_gt (m.line py).celldata.length b with hb | hb
    · rw [if_neg (by simp [Nat.min_eq_right hb]), if_pos ⟨rfl, hb⟩, List.append_nil]
    · rw [if_pos (.inr (by omega)), if_neg (by omega), List.append_assoc]

/-! ## Copying the selection -/

theorem CopyMode.Selects.row_lt : m.row < m.backing.grid.hsize + m.backing.grid.sy := h.based.backingRow_eq.2

theorem CopyMode.Selects.last_lt : m.ends.2.2 < m.backing.grid.hsize + m.backing.grid.sy := by
  have hrow := h.row_lt
  have hsely := h.sely
  unfold CopyMode.ends
  split_ifs
  · exact hsely
  · exact hrow

theorem CopyMode.Selects.last_le : m.ends.2.1 ≤ m.screen.grid.sx := by
  have hcx := h.cx
  have hselx := h.selx
  unfold CopyMode.ends
  split_ifs
  · exact hselx
  · exact hcx

theorem CopyMode.Selects.first_le : m.ends.1.1 ≤ m.screen.grid.sx := by
  have hcx := h.cx
  have hselx := h.selx
  unfold CopyMode.ends
  split_ifs
  · exact hcx
  · exact hselx

omit h in
theorem CopyMode.ends_le (m : CopyMode) : m.ends.1.2 ≤ m.ends.2.2 := by
  unfold ends
  split_ifs with hrow
  · exact hrow.elim Nat.le_of_lt fun hrow => hrow.1.le
  · push Not at hrow
    exact hrow.1

omit h in
theorem CopyMode.lastColumns_le (m : CopyMode) : m.lastColumns ≤ 1 := by
  unfold lastColumns
  split_ifs <;> omega

theorem selectionEnds_eq : selectionEnds m = pure m.ends := by
  rw [selectionEnds, h.based.backingRow_eq.1, pure_bind]
  rfl

/-- The columns copied are those selected, but of the last line. -/
structure CopyBounds.Covers (c : CopyBounds) (m : CopyMode) : Prop where
  first : c.firstsx = (m.columns m.ends.1.2).1
  last : c.lastex = m.lastEnd
  restsx : ∀ py, py ≠ m.ends.1.2 → c.restsx = (m.columns py).1
  restex : ∀ py, py ≠ m.ends.2.2 → c.restex = (m.columns py).2

theorem copyBounds_covers :
    (copyBounds m m.ends.1.1 (min m.ends.2.1 ((m.line m.ends.2.2).trimmed
      (min (m.line m.ends.2.2).celldata.length m.screen.grid.sx)))).Covers m := by
  have hcx := h.cx
  have hselx := h.selx
  have hwidth := h.width
  have hlast := h.last_le
  have hkept := m.lastColumns_le
  have hadd : ∀ c ≤ m.screen.grid.sx, uadd c m.lastColumns = c + m.lastColumns := fun c hc =>
    uadd_of_lt (by omega)
  have hmin := min_le_left m.ends.2.1 ((m.line m.ends.2.2).trimmed
    (min (m.line m.ends.2.2).celldata.length m.screen.grid.sx))
  have hright : m.right = if m.selx < m.cx then uadd m.cx m.lastColumns else uadd m.selx 1 := by
    rw [CopyMode.right, hadd _ hcx, uadd_of_lt (a := m.selx) (by omega)]
  have hcolumns := fun py => CopyMode.columns.eq_1 m py
  have hend := CopyMode.lastEnd.eq_1 m
  unfold copyBounds
  rw [← CopyMode.lastColumns]
  by_cases hrect : m.rectflag = true
  · simp only [if_pos hrect] at hcolumns hend ⊢
    refine ⟨?_, ?_, fun py _ => ?_, fun py _ => ?_⟩
    all_goals
      simp only [hcolumns, hend, hright]
      split_ifs with hside
      · simp [hside.le]
      · simp [Nat.le_of_not_lt hside]
  · simp only [if_neg hrect] at hcolumns hend ⊢
    refine ⟨?_, ?_, fun py hpy => ?_, fun py hpy => ?_⟩
    · rw [hcolumns, if_pos rfl]
    · rw [hend, hadd _ (by omega)]
    · rw [hcolumns, if_neg hpy]
    · rw [hcolumns, if_neg hpy]

/-- The columns selected of a line are in order. -/
theorem CopyMode.Selects.columns_le (py : ℕ) : (m.columns py).1 ≤ (m.columns py).2 := by
  have hfirst := h.first_le
  unfold CopyMode.columns
  split_ifs with hrect hstart hend hend
  · unfold CopyMode.right
    split_ifs <;> omega
  · have hrow : m.ends.1.2 = m.ends.2.2 := hstart.symm.trans hend
    have hcols : m.ends.1.1 ≤ m.ends.2.1 := by
      unfold CopyMode.ends at hrow ⊢
      split_ifs at hrow ⊢ with hbefore
      · rcases hbefore with hbefore | hbefore
        · exact absurd hrow (by dsimp only; omega)
        · exact hbefore.2.le
      · push Not at hbefore
        exact hbefore.2 hrow.symm
    dsimp only
    omega
  · exact hfirst
  · exact Nat.zero_le _
  · exact Nat.zero_le _

omit h in
/-- If more than one line is selected, some columns of the last one are copied. -/
theorem CopyMode.first_le_lastEnd (hlines : m.ends.1.2 ≠ m.ends.2.2) : (m.columns m.ends.2.2).1 ≤ m.lastEnd := by
  rw [columns, lastEnd, if_neg hlines.symm]
  by_cases hrect : m.rectflag = true
  · rw [if_pos hrect, if_pos hrect, right]
    dsimp only
    split_ifs <;> omega
  · rw [if_neg hrect, if_neg hrect]
    exact Nat.zero_le _

/-- What is copied of the lines of a selection. -/
theorem copyLinesBetween_eq {c : CopyBounds} (hc : c.Covers m) :
    copyLinesBetween m m.ends.1.2 m.ends.2.2 c =
      pure (if m.lastEnd < (m.columns m.ends.2.2).1 then []
        else textBefore m ++ ((m.line m.ends.2.2).text m.screen.grid.sx (m.columns m.ends.2.2).1 m.lastEnd ++
          (m.line m.ends.2.2).separator m.screen.grid.sx m.lastEnd)) := by
  have hlast := h.last_lt
  have hends := m.ends_le
  unfold copyLinesBetween
  by_cases hsingle : m.ends.1.2 = m.ends.2.2
  · have hbefore : textBefore m = [] := by
      unfold textBefore
      rw [hsingle, Nat.sub_self]
      rfl
    rw [if_pos hsingle, hc.first, hc.last, hsingle, hbefore]
    by_cases hcols : m.lastEnd < (m.columns m.ends.2.2).1
    · rw [windowCopyCopyLine, if_pos hcols, if_pos hcols]
    · rw [windowCopyCopyLine_eq h hlast (by omega), if_neg hcols]
  · have hlines : ∀ py ∈ List.range' (m.ends.1.2 + 1) (m.ends.2.2 - (m.ends.1.2 + 1)), ∀ buf,
        windowCopyCopyLine m buf py c.restsx c.restex =
          pure (buf ++ (m.lineText py ++ (m.line py).separator m.screen.grid.sx (m.columns py).2)) := by
      intro py hpy buf
      rw [List.mem_range'_1] at hpy
      rw [hc.restsx py (by omega), hc.restex py (by omega), windowCopyCopyLine_eq h (by omega) (h.columns_le py)]
      rfl
    have hcolumn := CopyMode.first_le_lastEnd hsingle
    rw [if_neg hsingle, if_neg (by omega), hc.first, hc.last]
    have hfirst := windowCopyCopyLine_eq h (by omega : m.ends.1.2 < _) (h.columns_le m.ends.1.2) []
    rw [← hc.restex m.ends.1.2 hsingle] at hfirst
    rw [hfirst, pure_bind, foldlM_append hlines, pure_bind, hc.restsx _ (Ne.symm hsingle),
      windowCopyCopyLine_eq h hlast hcolumn, hc.restex m.ends.1.2 hsingle]
    unfold textBefore
    rw [show m.ends.2.2 - m.ends.1.2 = (m.ends.2.2 - (m.ends.1.2 + 1)) + 1 by omega, List.range'_succ,
      List.flatMap_cons]
    rfl

theorem copiedText_eq {buf : List UInt8} (hbuf : buf = if m.lastEnd < (m.columns m.ends.2.2).1 then [] else
      textBefore m ++ ((m.line m.ends.2.2).text m.screen.grid.sx (m.columns m.ends.2.2).1 m.lastEnd ++
        (m.line m.ends.2.2).separator m.screen.grid.sx m.lastEnd)) :
    copiedText m = pure (if buf = [] then none else some buf.dropLast) := by
  rw [copiedText, if_neg (by simp [h.sel]), selectionEnds_eq h, pure_bind]
  dsimp only
  rw [windowCopyFindLength_eq h.whole h.last_lt h.based, CopyMode.lineLength, pure_bind, limit_eq_min,
    copyLinesBetween_eq h (copyBounds_covers h),
    pure_bind, ← hbuf]

end

theorem CopyMode.lastEnd_le (m : CopyMode) : m.lastEnd ≤ (m.columns m.ends.2.2).2 := by
  rw [lastEnd, columns, if_pos (rfl : m.ends.2.2 = m.ends.2.2)]
  split_ifs <;> dsimp only <;> omega

/-- If something is left out of the last line, all that is not blank is copied. -/
theorem CopyMode.trimmed_le_lastEnd (hcut : m.lastEnd < (m.columns m.ends.2.2).2) :
    (m.line m.ends.2.2).trimmed (min (m.line m.ends.2.2).celldata.length m.screen.grid.sx) ≤ m.lastEnd := by
  rw [lastEnd, columns, if_pos (rfl : m.ends.2.2 = m.ends.2.2)] at hcut
  rw [lastEnd]
  split_ifs at hcut ⊢ <;> dsimp only at hcut <;> omega

/-- What is left out of the last line. -/
def restText (m : CopyMode) : List UInt8 :=
  (List.range' m.lastEnd (min (m.columns m.ends.2.2).2 ((m.line m.ends.2.2).textEnd m.screen.grid.sx) -
    m.lastEnd)).flatMap (m.line m.ends.2.2).bytes

theorem selectedText_eq (hcols : (m.columns m.ends.2.2).1 ≤ m.lastEnd) :
    selectedText m = textBefore m ++
      ((m.line m.ends.2.2).text m.screen.grid.sx (m.columns m.ends.2.2).1 m.lastEnd ++ restText m) := by
  rw [selectedText, CopyMode.lineText, GridLine.text_append _ _ hcols m.lastEnd_le]
  rfl

/-- Only blanks are left out of the last line, and none of them if it does not continue. -/
theorem restText_eq_nil_iff : restText m = [] ↔ ((m.line m.ends.2.2).continues m.screen.grid.sx = true →
    ∀ px, m.lastEnd ≤ px → px < min (m.columns m.ends.2.2).2 (m.line m.ends.2.2).celldata.length →
      ((m.line m.ends.2.2).cell px).isPadding = true) := by
  unfold restText GridLine.textEnd
  rcases m.lastEnd_le.eq_or_lt with hend | hcut
  · rw [← hend]
    refine iff_of_true ?_ fun _ px hpx hlt => absurd hlt (by omega)
    rw [show min m.lastEnd _ - m.lastEnd = 0 by omega]
    rfl
  have htrimmed := CopyMode.trimmed_le_lastEnd hcut
  cases hcontinues : (m.line m.ends.2.2).continues m.screen.grid.sx with
  | false =>
    refine iff_of_true ?_ fun h => absurd h Bool.false_ne_true
    rw [if_neg Bool.false_ne_true, show min _ (GridLine.trimmed _ _) - m.lastEnd = 0 by omega]
    rfl
  | true =>
    have hsx : (m.line m.ends.2.2).celldata.length ≤ m.screen.grid.sx := by
      simp only [GridLine.continues, Bool.and_eq_true, decide_eq_true_eq] at hcontinues
      exact hcontinues.2
    have hbytes : ∀ px, m.lastEnd ≤ px → px < (m.line m.ends.2.2).celldata.length →
        ((m.line m.ends.2.2).bytes px = [] ↔ ((m.line m.ends.2.2).cell px).isPadding = true) := by
      intro px hpx hlt
      have hblank := GridLine.blank_of_trimmed_le (htrimmed.trans hpx) (Nat.lt_min.2 ⟨hlt, by omega⟩)
      rw [GridCell.isBlank, Bool.and_eq_true, Bool.not_eq_true'] at hblank
      unfold GridLine.bytes
      split_ifs with hpadding hutf8
      · exact iff_of_true rfl hpadding
      · rw [hblank.1] at hutf8
        cases hutf8
      · exact iff_of_false not_false hpadding
    rw [if_pos rfl, List.flatMap_eq_nil_iff]
    simp only [List.mem_range'_1, forall_true_left]
    constructor
    · exact fun h px hpx hlt => (hbytes px hpx (by omega)).1 (h px ⟨hpx, by omega⟩)
    · exact fun h px hpx => (hbytes px hpx.1 (by omega)).2 (h px hpx.1 (by omega))

theorem lastLineKept_iff : lastLineKept m ↔ restText m = [] ∧
    ((m.line m.ends.2.2).continues m.screen.grid.sx = true → m.lastEnd < (m.line m.ends.2.2).celldata.length) := by
  rw [restText_eq_nil_iff, lastLineKept]
  exact ⟨fun h => ⟨fun hc => (h hc).2, fun hc => (h hc).1⟩, fun h hc => ⟨h.2 hc, h.1 hc⟩⟩

/-- A text that is not empty is stored if and only if it is what is copied. -/
theorem windowCopyCopySelection_stores_iff {o : Option (List UInt8)} {text : List UInt8} (ho : copiedText m = pure o)
    (htext : text ≠ []) :
    (∀ buffers bufferLimit idx, windowCopyCopySelection m buffers bufferLimit idx =
      pure (storeText buffers bufferLimit idx text)) ↔ o = some text := by
  simp only [windowCopyCopySelection, ho, pure_bind]
  constructor
  · intro h
    have hstored := Exec.pure_injective (h [] 0 (-1))
    rw [storeText, if_pos rfl, pasteAdd, if_neg htext] at hstored
    cases o with
    | none => cases hstored
    | some buf =>
      rw [Option.map_some, Option.getD_some, storeText, if_pos rfl, pasteAdd] at hstored
      split_ifs at hstored
      rw [(List.cons.inj hstored).1]
  · rintro rfl
    exact fun _ _ _ => rfl

/-- The text that is copied is the text that is selected if and only if nothing is left out of the last
    line. -/
theorem windowCopyCopySelection_iff (h : m.Selects) (hnonempty : selectedText m ≠ []) :
    (∀ buffers bufferLimit idx, windowCopyCopySelection m buffers bufferLimit idx =
      pure (storeText buffers bufferLimit idx (selectedText m))) ↔ lastLineKept m := by
  rw [windowCopyCopySelection_stores_iff (copiedText_eq h rfl) hnonempty, lastLineKept_iff]
  rcases lt_or_ge m.lastEnd (m.columns m.ends.2.2).1 with hcols | hcols
  · -- All that is selected is after the column that the line is copied to.
    rw [if_pos hcols, if_pos rfl]
    refine iff_of_false nofun fun hkept => hnonempty ?_
    have hsingle : m.ends.1.2 = m.ends.2.2 := by
      by_contra hlines
      exact absurd (CopyMode.first_le_lastEnd hlines) (by omega)
    have hrest := List.flatMap_eq_nil_iff.1 hkept.1
    rw [selectedText, textBefore, hsingle, Nat.sub_self, List.range'_zero, List.flatMap_nil, List.nil_append,
      CopyMode.lineText, GridLine.text, List.flatMap_eq_nil_iff]
    intro px hpx
    rw [List.mem_range'_1] at hpx
    exact hrest px (List.mem_range'_1.2 (by omega))
  rw [if_neg (c := m.lastEnd < _) (Nat.not_lt.2 hcols), selectedText_eq hcols]
  by_cases hsep : (m.line m.ends.2.2).continues m.screen.grid.sx = true ∧
      (m.line m.ends.2.2).celldata.length ≤ m.lastEnd
  · -- There is no newline to be removed.
    have hrest : restText m = [] := restText_eq_nil_iff.2 fun _ px hpx hlt => absurd hlt (by omega)
    rw [selectedText_eq hcols, hrest] at hnonempty
    rw [GridLine.separator, if_pos hsep, hrest, if_neg hnonempty]
    refine iff_of_false (fun hsome => ?_) fun hkept => absurd (hkept.2 hsep.1) (by omega)
    have hlength := congrArg List.length (Option.some.inj hsome)
    have hpos := List.length_pos_iff.2 hnonempty
    rw [List.length_dropLast] at hlength
    omega
  · rw [GridLine.separator, if_neg hsep, ← List.append_assoc, ← List.append_assoc, if_neg (by simp),
      List.dropLast_concat, Option.some_inj, List.self_eq_append_right]
    refine ⟨fun hrest => ⟨hrest, fun hcontinues => ?_⟩, fun hkept => hkept.1⟩
    by_contra hend
    exact hsep ⟨hcontinues, by omega⟩

/-- A selection on a backing screen with some lines, all on the screen. -/
def selectionOf (lines : List GridLine) (sx selx sely cx cy : ℕ) : CopyMode where
  screen := screenOfText sx lines.length 0 0 []
  backing := { screenOfText sx lines.length 0 0 [] with grid := { gridCreate sx lines.length 0 with linedata := lines } }
  sel := true
  selx := selx
  sely := sely
  cx := cx
  cy := cy

theorem selectionOf_selects {lines : List GridLine} {selx sely cx cy : ℕ} (hsx : 1 ≤ sx) (hwidth : sx + 1 < Exec.word)
    (hlines : lines.length + 1 < Exec.word) (hselx : selx ≤ sx) (hsely : sely < lines.length) (hcx : cx ≤ sx)
    (hcy : cy < lines.length) (hascii : ∀ gl ∈ lines, ∀ gc ∈ gl.celldata, gc.isUtf8 = false) :
    (selectionOf lines sx selx sely cx cy).Selects := by
  have hrows : (screenOfText sx lines.length 0 0 []).InRows :=
    ⟨Nat.lt_of_le_of_lt (Nat.zero_le _) hcy, Nat.zero_le _, Nat.sub_lt (by omega) Nat.one_pos, fun h =>
      Nat.lt_of_lt_of_le Nat.one_pos (Nat.le_sub_one_of_lt h)⟩
  refine ⟨rfl, ⟨⟨hrows, ⟨hrows.cursor, hrows.region, hrows.bottom, hrows.lines⟩, hsx, rfl, rfl, ?_, nofun⟩, hcy,
    Nat.zero_le _⟩, hcx, hselx, ?_, ⟨?_, ?_⟩, fun gl hgl px hutf8 => ?_, hwidth⟩
  · show 0 + lines.length < _
    omega
  · show sely < 0 + lines.length
    omega
  · show 0 + lines.length ≤ lines.length
    omega
  · show 0 + lines.length + 1 < _
    omega
  · rw [GridLine.cell] at hutf8
    rcases hcell : gl.celldata[px]? with _ | gc
    · rw [hcell] at hutf8
      cases hutf8
    · rw [hcell, Option.getD_some, hascii gl hgl gc (List.mem_of_getElem? hcell)] at hutf8
      cases hutf8

/-- A selection from a wrapped line on to the next one is copied without a newline and blanks. -/
theorem windowCopyCopySelection_small : ∃ m, selectedText m = [98, 99, 100] ∧
    (fun buffers => windowCopyCopySelection m buffers 20 (-1)) = fun buffers =>
      pure (storeText buffers 20 (-1) [98, 99, 100]) := by
  have htext : selectedText (selectionOf [{ lineOfText [97, 98, 99] with wrapped := true }, lineOfText [100, 32]] 3 1 0
      2 1) = [98, 99, 100] := by decide +kernel
  have hselects : (selectionOf [{ lineOfText [97, 98, 99] with wrapped := true }, lineOfText [100, 32]] 3 1 0 2
      1).Selects :=
    selectionOf_selects (by decide) (by decide) (by decide) (by decide) (by decide) (by decide) (by decide) (by decide)
  have hcopied := (windowCopyCopySelection_iff hselects (htext ▸ nofun)).2 fun hcontinues =>
    absurd hcontinues (by decide +kernel)
  refine ⟨_, htext, funext fun buffers => ?_⟩
  rw [hcopied, htext]

/-- The last character selected is lost if it ends a wrapped line. -/
theorem windowCopyCopySelection_drops : ∃ m, m.Selects ∧ selectedText m = [98, 99] ∧
    windowCopyCopySelection m [] 20 (-1) = pure [[98]] :=
  ⟨selectionOf [{ lineOfText [97, 98, 99] with wrapped := true }, lineOfText [100]] 3 1 0 3 0,
    selectionOf_selects (by decide) (by decide) (by decide) (by decide) (by decide) (by decide) (by decide) (by decide),
    by decide +kernel, by decide +kernel⟩

end Tmux
