import Mathlib.Algebra.Order.BigOperators.Group.List
import Mathlib.Algebra.Order.Group.Nat
import Tmux.Copy.Copied

/-!
# The direction of a selection

A selection may be made from either end of it. What is copied is the same, except for a rectangle in
emacs mode: its last column is dropped if the cursor is on the right, and is not if it is on the left.
So the texts are the same whatever the lines if and only if there is no such rectangle with its last
column on the screen, and for given lines if none has text in that column (`copiedText_exchange_iff`).
-/

namespace Tmux

variable {m m' : CopyMode} {gl : GridLine} {sx a b b' py : ℕ}

/-- The same selection of the same lines, made from the other end. -/
structure CopyMode.Exchanged (m m' : CopyMode) : Prop where
  backing : m'.backing = m.backing
  modeKeys : m'.options.modeKeys = m.options.modeKeys
  gridSx : m'.screen.grid.sx = m.screen.grid.sx
  rectflag : m'.rectflag = m.rectflag
  selx : m'.selx = m.cx
  sely : m'.sely = m.row
  cx : m'.cx = m.selx
  row : m'.row = m.sely

/-- The selection is a rectangle of several columns, in emacs mode. -/
def CopyMode.DropsRight (m : CopyMode) : Prop :=
  m.rectflag = true ∧ m.options.modeKeys = .emacs ∧ m.selx ≠ m.cx

/-- The same, with other lines in the backing grid. -/
def CopyMode.withLines (m : CopyMode) (lines : List GridLine) : CopyMode :=
  { m with backing := { m.backing with grid := { m.backing.grid with linedata := lines } } }

/-! ## Lines -/

theorem GridLine.textEnd_le_width (gl : GridLine) (sx : ℕ) : gl.textEnd sx ≤ sx := by
  have htrimmed := gl.trimmed_le (min gl.celldata.length sx)
  rw [textEnd, continues]
  split_ifs with hcontinues
  · simp only [Bool.and_eq_true, decide_eq_true_eq] at hcontinues
    exact hcontinues.2
  · exact htrimmed.trans (Nat.min_le_right _ _)

/-- The text up to a column does not depend on the column past its end. -/
theorem GridLine.text_past (hb : gl.textEnd sx ≤ b) (hb' : gl.textEnd sx ≤ b') : gl.text sx a b' = gl.text sx a b := by
  rw [text, text, Nat.min_eq_right hb, Nat.min_eq_right hb']

/-- Neither does what is after it. -/
theorem GridLine.separator_past (hb : gl.textEnd sx ≤ b) (hb' : gl.textEnd sx ≤ b') :
    gl.separator sx b' = gl.separator sx b := by
  rw [separator, separator]
  by_cases hcontinues : gl.continues sx = true
  · rw [textEnd, if_pos hcontinues] at hb hb'
    rw [if_pos ⟨hcontinues, hb'⟩, if_pos ⟨hcontinues, hb⟩]
  · rw [if_neg fun h => hcontinues h.1, if_neg fun h => hcontinues h.1]

/-! ## Columns -/

section

variable (hex : m.Exchanged m')

include hex

theorem CopyMode.Exchanged.line (py : ℕ) : m'.line py = m.line py := by
  rw [CopyMode.line, CopyMode.line, hex.backing]

theorem CopyMode.Exchanged.lastColumns : m'.lastColumns = m.lastColumns := by
  rw [CopyMode.lastColumns, CopyMode.lastColumns, hex.modeKeys]

/-- The ends are ordered in the same way. -/
theorem CopyMode.Exchanged.ends : m'.ends = m.ends := by
  rw [CopyMode.ends, CopyMode.ends, hex.selx, hex.sely, hex.cx, hex.row]
  split_ifs with h h' h'
  · omega
  · rfl
  · rfl
  · exact Prod.ext (Prod.ext (by dsimp only; omega) (by dsimp only; omega))
      (Prod.ext (by dsimp only; omega) (by dsimp only; omega))

/-- A rectangle ends in the same column, unless the last one is dropped in one direction only. -/
theorem CopyMode.Exchanged.right (hrect : m.rectflag = true) (hkept : ¬ m.DropsRight) : m'.right = m.right := by
  have hkeys : m.lastColumns = 1 ∨ m.selx = m.cx := by
    by_contra hnone
    rw [not_or, CopyMode.lastColumns] at hnone
    refine hkept ⟨hrect, ?_, hnone.2⟩
    by_contra hvi
    exact hnone.1 (if_neg hvi)
  rw [CopyMode.right, CopyMode.right, hex.lastColumns, hex.selx, hex.cx]
  rcases hkeys with hkeys | hkeys
  · rw [hkeys]
    split_ifs <;> omega
  · rw [hkeys]

theorem CopyMode.Exchanged.columns_left (hrect : m.rectflag = true) (py : ℕ) :
    (m'.columns py).1 = (m.columns py).1 := by
  rw [CopyMode.columns, CopyMode.columns, if_pos hrect, if_pos (hex.rectflag.trans hrect), hex.selx, hex.cx]
  exact min_comm _ _

theorem CopyMode.Exchanged.columns (hkept : ¬ m.DropsRight) (py : ℕ) : m'.columns py = m.columns py := by
  by_cases hrect : m.rectflag = true
  · refine Prod.ext (hex.columns_left hrect py) ?_
    rw [CopyMode.columns, CopyMode.columns, if_pos hrect, if_pos (hex.rectflag.trans hrect)]
    exact hex.right hrect hkept
  · rw [CopyMode.columns, CopyMode.columns, if_neg hrect, if_neg (hex.rectflag ▸ hrect), hex.ends, hex.lastColumns,
      hex.gridSx]

theorem CopyMode.Exchanged.lastEnd (hkept : ¬ m.DropsRight) : m'.lastEnd = m.lastEnd := by
  rw [CopyMode.lastEnd, CopyMode.lastEnd, hex.rectflag, hex.ends, hex.lastColumns, hex.line, hex.gridSx]
  split_ifs with hrect
  · exact hex.right hrect hkept
  · rfl

end

/-! ## Texts -/

theorem CopyMode.max_le_right (m : CopyMode) : max m.selx m.cx ≤ m.right := by
  rw [right]
  split_ifs <;> omega

/-- What is copied of a line depends on its columns, up to the end of its text. -/
theorem CopyMode.Exchanged.lineText (hex : m.Exchanged m')
    (hpast : m.DropsRight → (m.line py).textEnd m.screen.grid.sx ≤ max m.selx m.cx) :
    m'.lineText py = m.lineText py ∧ (m'.line py).separator m'.screen.grid.sx (m'.columns py).2 =
      (m.line py).separator m.screen.grid.sx (m.columns py).2 := by
  rw [CopyMode.lineText, CopyMode.lineText, hex.line, hex.gridSx]
  by_cases hdrops : m.DropsRight
  · have hend := hpast hdrops
    have hright : (m.columns py).2 = m.right := by rw [CopyMode.columns, if_pos hdrops.1]
    have hright' : (m'.columns py).2 = m'.right := by rw [CopyMode.columns, if_pos (hex.rectflag.trans hdrops.1)]
    have hb := hend.trans m.max_le_right
    have hb' : (m.line py).textEnd m.screen.grid.sx ≤ m'.right := by
      refine hend.trans (le_trans ?_ m'.max_le_right)
      rw [hex.selx, hex.cx, max_comm]
    rw [hright, hright', hex.columns_left hdrops.1]
    exact ⟨GridLine.text_past hb hb', GridLine.separator_past hb hb'⟩
  · rw [hex.columns hdrops]
    exact ⟨rfl, rfl⟩

/-- The same text is copied in both directions if the last column of a rectangle has none. -/
theorem copiedText_exchange (h : m.Selects) (h' : m'.Selects) (hex : m.Exchanged m')
    (hpast : m.DropsRight → ∀ py, m.ends.1.2 ≤ py → py ≤ m.ends.2.2 →
      (m.line py).textEnd m.screen.grid.sx ≤ max m.selx m.cx) : copiedText m' = copiedText m := by
  have hends := m.ends_le
  have hline := fun py hfirst hlast => hex.lineText fun hdrops => hpast hdrops py hfirst hlast
  have hbefore : textBefore m' = textBefore m := by
    rw [textBefore, textBefore, hex.ends]
    refine List.flatMap_congr fun py hpy => ?_
    rw [List.mem_range'_1] at hpy
    rw [(hline py (by omega) (by omega)).1, (hline py (by omega) (by omega)).2]
  have hlast : (m'.lastEnd < (m'.columns m.ends.2.2).1 ↔ m.lastEnd < (m.columns m.ends.2.2).1) ∧
      (m.line m.ends.2.2).text m.screen.grid.sx (m'.columns m.ends.2.2).1 m'.lastEnd =
        (m.line m.ends.2.2).text m.screen.grid.sx (m.columns m.ends.2.2).1 m.lastEnd ∧
      (m.line m.ends.2.2).separator m.screen.grid.sx m'.lastEnd =
        (m.line m.ends.2.2).separator m.screen.grid.sx m.lastEnd := by
    by_cases hdrops : m.DropsRight
    · have hend := hpast hdrops m.ends.2.2 hends le_rfl
      have hright : m.lastEnd = m.right := by rw [CopyMode.lastEnd, if_pos hdrops.1]
      have hright' : m'.lastEnd = m'.right := by rw [CopyMode.lastEnd, if_pos (hex.rectflag.trans hdrops.1)]
      have hmax := m.max_le_right
      have hmax' := m'.max_le_right
      rw [hex.selx, hex.cx, max_comm] at hmax'
      have hleft : (m.columns m.ends.2.2).1 ≤ max m.selx m.cx := by
        rw [CopyMode.columns, if_pos hdrops.1]
        exact (Nat.min_le_left _ _).trans (Nat.le_max_left _ _)
      rw [hright, hright', hex.columns_left hdrops.1]
      exact ⟨iff_of_false (by omega) (by omega), GridLine.text_past (hend.trans hmax) (hend.trans hmax'),
        GridLine.separator_past (hend.trans hmax) (hend.trans hmax')⟩
    · rw [hex.columns hdrops, hex.lastEnd hdrops]
      exact ⟨Iff.rfl, rfl, rfl⟩
  rw [copiedText_eq h rfl, copiedText_eq h' rfl, hex.ends, hex.line, hex.gridSx, hbefore, hlast.2.1, hlast.2.2]
  simp only [hlast.1]

/-! ## Rectangles -/

/-- The text of a rectangle up to a column, with a newline after every line. -/
def rectangleText (m : CopyMode) (b : ℕ) : List UInt8 :=
  (List.range' m.ends.1.2 (m.ends.2.2 + 1 - m.ends.1.2)).flatMap fun py =>
    (m.line py).text m.screen.grid.sx (min m.selx m.cx) b ++ [10]

/-- The lines that are selected do not continue. -/
def CopyMode.Unwrapped (m : CopyMode) : Prop :=
  ∀ py, m.ends.1.2 ≤ py → py ≤ m.ends.2.2 → (m.line py).continues m.screen.grid.sx = false

/-- No line that is selected has a character in the last column of the selection. -/
def CopyMode.LastColumnEmpty (m : CopyMode) : Prop :=
  ∀ py, m.ends.1.2 ≤ py → py ≤ m.ends.2.2 → max m.selx m.cx < (m.line py).textEnd m.screen.grid.sx →
    (m.line py).bytes (max m.selx m.cx) = []

theorem GridLine.text_succ (hab : a ≤ b) : gl.text sx a (b + 1) = gl.text sx a b ++
    if b < gl.textEnd sx then gl.bytes b else [] := by
  rw [text_append gl sx hab b.le_succ]
  congr 1
  split_ifs with hb
  · rw [Nat.min_eq_left hb, show b.succ - b = 1 by omega, List.range'_one, List.flatMap_singleton]
  · rw [show min (b + 1) (gl.textEnd sx) - b = 0 by omega]
    rfl

theorem rectangleText_ne_nil (m : CopyMode) (b : ℕ) : rectangleText m b ≠ [] := by
  have hends := m.ends_le
  intro hnil
  have hfirst := List.flatMap_eq_nil_iff.1 hnil m.ends.1.2 (List.mem_range'_1.2 (by omega))
  exact List.cons_ne_nil _ _ (List.append_eq_nil_iff.1 hfirst).2

/-- If no line continues, what is copied of a rectangle is its text without the last newline. -/
theorem copiedText_rectangle (h : m.Selects) (hrect : m.rectflag = true) (hlines : m.Unwrapped) :
    copiedText m = pure (some (rectangleText m m.right).dropLast) := by
  have hends := m.ends_le
  have hright : m.lastEnd = m.right := by rw [CopyMode.lastEnd, if_pos hrect]
  have hcolumns : ∀ py, m.columns py = (min m.selx m.cx, m.right) := fun py => by rw [CopyMode.columns, if_pos hrect]
  have hseparator : ∀ py, m.ends.1.2 ≤ py → py ≤ m.ends.2.2 → ∀ b,
      (m.line py).separator m.screen.grid.sx b = [10] := fun py hfirst hlast b => by
    rw [GridLine.separator, hlines py hfirst hlast, if_neg fun h => Bool.false_ne_true h.1]
  have hmin : min m.selx m.cx ≤ m.right := (Nat.min_le_left _ _).trans ((Nat.le_max_left _ _).trans m.max_le_right)
  have hbuf : rectangleText m m.right = if m.lastEnd < (m.columns m.ends.2.2).1 then [] else
      textBefore m ++ ((m.line m.ends.2.2).text m.screen.grid.sx (m.columns m.ends.2.2).1 m.lastEnd ++
        (m.line m.ends.2.2).separator m.screen.grid.sx m.lastEnd) := by
    rw [hright, hcolumns, if_neg (Nat.not_lt.2 hmin), hseparator _ hends le_rfl, rectangleText, textBefore,
      show m.ends.2.2 + 1 - m.ends.1.2 = m.ends.2.2 - m.ends.1.2 + 1 by omega, List.range'_1_concat,
      List.flatMap_append, List.flatMap_singleton, show m.ends.1.2 + (m.ends.2.2 - m.ends.1.2) = m.ends.2.2 by omega]
    congr 1
    refine List.flatMap_congr fun py hpy => ?_
    rw [List.mem_range'_1] at hpy
    rw [CopyMode.lineText, hseparator py hpy.1 (by omega), hcolumns]
  rw [copiedText_eq h hbuf, if_neg (rectangleText_ne_nil m _)]

/-- One column more adds nothing to a rectangle if and only if no line has a character in it. -/
theorem rectangleText_succ_iff {c : ℕ} (hc : c = max m.selx m.cx) :
    (rectangleText m (c + 1)).dropLast = (rectangleText m c).dropLast ↔ m.LastColumnEmpty := by
  have hmin : min m.selx m.cx ≤ c := hc ▸ (Nat.min_le_left _ _).trans (Nat.le_max_left _ _)
  have hsucc : ∀ py, (m.line py).text m.screen.grid.sx _ (c + 1) = _ := fun _ => GridLine.text_succ hmin
  constructor
  · intro heq py hfirst hlast hchar
    by_contra hbytes
    have hlengths : (rectangleText m c).length < (rectangleText m (c + 1)).length := by
      rw [rectangleText, rectangleText, List.length_flatMap, List.length_flatMap]
      refine List.sum_lt_sum _ _ (fun py _ => ?_) ⟨py, List.mem_range'_1.2 (by omega), ?_⟩
      · rw [hsucc, List.length_append, List.length_append, List.length_append]
        omega
      · rw [hsucc, if_pos (hc ▸ hchar), List.length_append, List.length_append, List.length_append]
        have hpos := List.length_pos_iff.2 hbytes
        rw [← hc] at hpos
        omega
    have hlength := congrArg List.length heq
    have hpos := List.length_pos_iff.2 (rectangleText_ne_nil m c)
    rw [List.length_dropLast, List.length_dropLast] at hlength
    omega
  · intro hempty
    congr 1
    rw [rectangleText, rectangleText]
    refine List.flatMap_congr fun py hpy => ?_
    rw [List.mem_range'_1] at hpy
    rw [hsucc]
    split_ifs with hchar
    · rw [hc, hempty py hpy.1 (by omega) (hc ▸ hchar), List.append_nil]
    · rw [List.append_nil]

theorem CopyMode.Exchanged.rectangleText (hex : m.Exchanged m') (b : ℕ) :
    rectangleText m' b = rectangleText m b := by
  simp only [Tmux.rectangleText, hex.ends, hex.line, hex.gridSx, hex.selx, hex.cx, min_comm]

/-- The last column of a rectangle in emacs mode is copied in one of the directions only. -/
theorem CopyMode.DropsRight.rights (hdrops : m.DropsRight) (hex : m.Exchanged m') :
    m.right = max m.selx m.cx ∧ m'.right = max m.selx m.cx + 1 ∨
    m.right = max m.selx m.cx + 1 ∧ m'.right = max m.selx m.cx := by
  have hcolumns : m.lastColumns = 0 := by rw [CopyMode.lastColumns, if_pos hdrops.2.1]
  rw [CopyMode.right, CopyMode.right, hex.lastColumns, hex.selx, hex.cx, hcolumns]
  rcases Nat.lt_or_gt_of_ne hdrops.2.2 with hside | hside
  · rw [if_pos hside, if_neg (by omega), Nat.max_eq_right hside.le]
    exact Or.inl ⟨rfl, rfl⟩
  · rw [if_neg (by omega), if_pos hside, Nat.max_eq_left hside.le]
    exact Or.inr ⟨rfl, rfl⟩

/-- If no line continues, the same text is copied in both directions if and only if the selection is not
    a rectangle in emacs mode, or no line has a character in its last column. -/
theorem copiedText_exchange_unwrapped (h : m.Selects) (h' : m'.Selects) (hex : m.Exchanged m')
    (hlines : m.Unwrapped) : copiedText m' = copiedText m ↔ (m.DropsRight → m.LastColumnEmpty) := by
  by_cases hdrops : m.DropsRight
  · have hlines' : m'.Unwrapped := fun py hfirst hlast => by
      rw [hex.ends] at hfirst hlast
      rw [hex.line, hex.gridSx]
      exact hlines py hfirst hlast
    have hsucc := rectangleText_succ_iff (m := m) rfl
    rw [copiedText_rectangle h hdrops.1 hlines, copiedText_rectangle h' (hex.rectflag.trans hdrops.1) hlines',
      hex.rectangleText]
    simp only [hdrops, forall_true_left, ← hsucc]
    rcases hdrops.rights hex with ⟨hright, hright'⟩ | ⟨hright, hright'⟩
    · rw [hright, hright']
      exact ⟨fun heq => Option.some.inj (Exec.pure_injective heq), fun heq => by rw [heq]⟩
    · rw [hright, hright']
      exact ⟨fun heq => (Option.some.inj (Exec.pure_injective heq)).symm, fun heq => by rw [heq]⟩
  · exact iff_of_true (copiedText_exchange h h' hex fun hdrops' => absurd hdrops' hdrops) fun hdrops' =>
      absurd hdrops' hdrops

/-! ## All lines -/

section

variable {lines : List GridLine} (hlines : m.backing.grid.hsize + m.backing.grid.sy ≤ lines.length)
  (hdata : ∀ gl ∈ lines, gl.HasData)

include hlines hdata

theorem CopyMode.Selects.withLines (h : m.Selects) : (m.withLines lines).Selects where
  sel := h.sel
  based := ⟨⟨h.based.screen, ⟨h.based.backing.cursor, h.based.backing.region, h.based.backing.bottom,
    h.based.backing.lines⟩, h.based.width, h.based.sx, h.based.sy, h.based.lines, h.based.hlimit⟩, h.based.cy, h.based.oy⟩
  cx := h.cx
  selx := h.selx
  sely := h.sely
  whole := ⟨hlines, h.whole.room⟩
  data := hdata
  width := h.width

end

theorem CopyMode.withLines_line (m : CopyMode) (lines : List GridLine) (py : ℕ) :
    (m.withLines lines).line py = lines[py]?.getD {} := rfl

theorem CopyMode.Exchanged.withLines (hex : m.Exchanged m') (lines : List GridLine) :
    (m.withLines lines).Exchanged (m'.withLines lines) :=
  ⟨congrArg (fun s : Screen => { s with grid := { s.grid with linedata := lines } }) hex.backing, hex.modeKeys,
    hex.gridSx, hex.rectflag, hex.selx, hex.sely, hex.cx, hex.row⟩

/-- A line of one letter. -/
def fullLine (sx : ℕ) : GridLine := lineOfText (List.replicate sx 97)

theorem fullLine_cell (hb : b < sx) : (fullLine sx).cell b = { gridDefaultCell with data := 97 } := by
  rw [GridLine.cell, fullLine, lineOfText, List.map_replicate, List.getElem?_replicate, if_pos hb, Option.getD_some]

theorem fullLine_hasData (sx : ℕ) : (fullLine sx).HasData := by
  intro px hutf8
  rcases lt_or_ge px sx with hpx | hpx
  · rw [fullLine_cell hpx] at hutf8
    cases hutf8
  · rw [GridLine.cell_of_length_le (by simp [fullLine, lineOfText, hpx])] at hutf8
    cases hutf8

theorem fullLine_textEnd (sx : ℕ) : (fullLine sx).textEnd sx = sx := by
  have hlength : (fullLine sx).celldata.length = sx := by
    rw [fullLine, lineOfText, List.length_map, List.length_replicate]
  rw [GridLine.textEnd, if_neg (show ¬ (fullLine sx).continues sx = true from Bool.false_ne_true), hlength, Nat.min_self]
  cases sx with
  | zero => rfl
  | succ n =>
    rw [GridLine.trimmed, fullLine_cell n.lt_succ_self]
    rfl

theorem fullLine_bytes (hb : b < sx) : (fullLine sx).bytes b = [97] := by
  rw [GridLine.bytes, fullLine_cell hb]
  rfl

/-- A selection is copied in the same way in both directions whatever the lines if and only if it is not
    a rectangle of several columns in emacs mode, or its last column is not on the screen. Of given lines, what
    is copied is the same if none has text in the last column, and only then if none continues. -/
theorem copiedText_exchange_iff (h : m.Selects) (h' : m'.Selects) (hex : m.Exchanged m') :
    ((∀ lines, m.backing.grid.hsize + m.backing.grid.sy ≤ lines.length → (∀ gl ∈ lines, gl.HasData) →
        copiedText (m'.withLines lines) = copiedText (m.withLines lines)) ↔
      (m.DropsRight → m.screen.grid.sx ≤ max m.selx m.cx)) ∧
    ((m.DropsRight → ∀ py, m.ends.1.2 ≤ py → py ≤ m.ends.2.2 →
        (m.line py).textEnd m.screen.grid.sx ≤ max m.selx m.cx) → copiedText m' = copiedText m) ∧
    (m.Unwrapped → (copiedText m' = copiedText m ↔ (m.DropsRight → m.LastColumnEmpty))) := by
  refine ⟨⟨fun heq hdrops => ?_, fun hright lines hlines hdata => ?_⟩, copiedText_exchange h h' hex,
    copiedText_exchange_unwrapped h h' hex⟩
  · -- Lines of letters, as wide as the screen.
    by_contra hright
    rw [Nat.not_le] at hright
    have hlines := List.length_replicate (n := m.backing.grid.hsize + m.backing.grid.sy) (a := fullLine m.screen.grid.sx)
    have hdata : ∀ gl ∈ List.replicate (m.backing.grid.hsize + m.backing.grid.sy) (fullLine m.screen.grid.sx),
        gl.HasData := fun gl hgl => List.eq_of_mem_replicate hgl ▸ fullLine_hasData _
    have hselects := h.withLines hlines.ge hdata
    have hline : ∀ py, py ≤ m.ends.2.2 → (m.withLines (List.replicate (m.backing.grid.hsize + m.backing.grid.sy)
        (fullLine m.screen.grid.sx))).line py = fullLine m.screen.grid.sx := fun py hpy => by
      have hlast := h.last_lt
      rw [CopyMode.withLines_line, List.getElem?_replicate, if_pos (by omega), Option.getD_some]
    have hempty := (copiedText_exchange_unwrapped hselects (h'.withLines (hex.backing ▸ hlines.ge) hdata)
      (hex.withLines _) fun py _ hlast => by rw [hline py hlast]; rfl).1 (heq _ hlines.ge hdata) hdrops
      m.ends.2.2 m.ends_le le_rfl
    rw [hline _ le_rfl] at hempty
    exact List.cons_ne_nil _ _ ((fullLine_bytes hright).symm.trans (hempty ((fullLine_textEnd _).symm ▸ hright)))
  · exact copiedText_exchange (h.withLines hlines hdata) (h'.withLines (hex.backing ▸ hlines) hdata)
      (hex.withLines lines) fun hdrops py _ _ => (GridLine.textEnd_le_width _ _).trans (hright hdrops)

/-- A selection of two lines, backwards. -/
theorem copiedText_exchange_small : ∃ m m' : CopyMode, m.sely ≠ m.row ∧ copiedText m' = copiedText m := by
  have hselects : (selectionOf [lineOfText [97, 98, 99], lineOfText [100, 101]] 3 1 0 2 1).Selects :=
    selectionOf_selects (by decide) (by decide) (by decide) (by decide) (by decide) (by decide) (by decide) (by decide)
  have hselects' : (selectionOf [lineOfText [97, 98, 99], lineOfText [100, 101]] 3 2 1 1 0).Selects :=
    selectionOf_selects (by decide) (by decide) (by decide) (by decide) (by decide) (by decide) (by decide) (by decide)
  exact ⟨_, _, by decide, (copiedText_exchange_iff hselects hselects' ⟨rfl, rfl, rfl, rfl, rfl, rfl, rfl, rfl⟩).2.1
    fun hdrops => absurd hdrops.1 (by decide)⟩

theorem CopyMode.Selects.rectangle (h : m.Selects) : ({ m with rectflag := true }).Selects :=
  ⟨h.sel, ⟨⟨h.based.screen, h.based.backing, h.based.width, h.based.sx, h.based.sy, h.based.lines, h.based.hlimit⟩,
    h.based.cy, h.based.oy⟩, h.cx, h.selx, h.sely, h.whole, h.data, h.width⟩

/-- Of a rectangle of two columns in emacs mode, one is copied if the cursor is on the right, and both are if it
    is on the left. -/
theorem copiedText_exchange_keeps : ∃ m m' : CopyMode, m.Selects ∧ m'.Selects ∧ m.Exchanged m' ∧
    m.options.modeKeys = .emacs ∧ copiedText m = pure (some [97]) ∧ copiedText m' = pure (some [97, 98]) := by
  have hselects : (selectionOf [lineOfText [97, 98, 99]] 3 0 0 1 0).Selects :=
    selectionOf_selects (by decide) (by decide) (by decide) (by decide) (by decide) (by decide) (by decide) (by decide)
  have hselects' : (selectionOf [lineOfText [97, 98, 99]] 3 1 0 0 0).Selects :=
    selectionOf_selects (by decide) (by decide) (by decide) (by decide) (by decide) (by decide) (by decide) (by decide)
  exact ⟨_, _, hselects.rectangle, hselects'.rectangle, ⟨rfl, rfl, rfl, rfl, rfl, rfl, rfl, rfl⟩, rfl,
    by decide +kernel, by decide +kernel⟩

end Tmux
