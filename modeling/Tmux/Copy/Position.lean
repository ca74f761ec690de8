import Tmux.Copy.Keys
import Tmux.Screen.Written

/-!
# The position in copy mode

The cursor of copy mode is on the screen or one column past it, and what is shown starts
in the backing grid (`CopyMode.InPlace`), so that the line of the cursor is one of the
backing grid (`CopyMode.InPlace.backingRow_eq`).

Drawing only draws on the screen (`CopyMode.Drawn`), and a motion keeps the backing screen,
the kind of selection and, unless it is one of the columns there are, the column
remembered (`CopyMode.Moved`). Between the two the cursor may be in a remembered column
that a narrower screen does not have.
-/

namespace Tmux

open Exec.Allowed (Lenient)
open Exec (Meets uadd usub meets_usub meets_usub_any meets_all uadd_of_lt usub_of_le)

/-- The position addresses the backing grid. -/
structure CopyMode.InPlace (m : CopyMode) : Prop where
  cy : m.cy < m.screen.grid.sy
  cx : m.cx ≤ m.screen.grid.sx
  oy : m.oy ≤ m.backing.grid.hsize

/-- The screen and the backing screen have one size, and the lines are counted by words. -/
structure CopyMode.Sized (m : CopyMode) : Prop where
  screen : m.screen.InRows
  backing : m.backing.InRows
  width : 1 ≤ m.screen.grid.sx
  sx : m.backing.grid.sx = m.screen.grid.sx
  sy : m.backing.grid.sy = m.screen.grid.sy
  lines : m.backing.grid.hsize + m.backing.grid.sy < Exec.word
  hlimit : m.ofPane = false → m.backing.grid.hlimit = outputLimit

/-- What holds in copy mode, wherever in its row the cursor is. -/
structure CopyMode.Based (m : CopyMode) : Prop extends CopyMode.Sized m where
  cy : m.cy < m.screen.grid.sy
  oy : m.oy ≤ m.backing.grid.hsize

/-- What a motion keeps, from one place in a row to another. -/
structure CopyMode.Moved (m m' : CopyMode) : Prop where
  based : m'.Based
  gridSx : m'.screen.grid.sx = m.screen.grid.sx
  gridSy : m'.screen.grid.sy = m.screen.grid.sy
  backing : m'.backing = m.backing
  ofPane : m'.ofPane = m.ofPane
  sel : m'.sel = m.sel
  rectflag : m'.rectflag = m.rectflag
  lastcx : m'.lastcx ≤ m.screen.grid.sx ∨ m'.lastcx = m.lastcx

/-- A motion that puts the cursor in a column, or past the last one. -/
structure CopyMode.Lands (m m' : CopyMode) : Prop extends CopyMode.Moved m m' where
  cx : m'.cx ≤ m'.screen.grid.sx

/-- The same but for what is drawn on the screen. -/
def CopyMode.Drawn (m m' : CopyMode) : Prop := ∃ s, m.screen.Kept s ∧ m' = { m with screen := s }

/-- The remembered column of a rectangle is on the screen. -/
def CopyMode.Recalls (m : CopyMode) : Prop :=
  m.rectflag = true → m.sel = true → m.lastcx ≤ m.screen.grid.sx

variable {m m' m'' : CopyMode}

theorem CopyMode.Based.inPlace (h : m.Based) (hcx : m.cx ≤ m.screen.grid.sx) : m.InPlace := ⟨h.cy, hcx, h.oy⟩

/-- The line of the cursor is one of the backing grid. -/
theorem CopyMode.Based.backingRow_eq (h : m.Based) :
    backingRow m = pure (m.backing.grid.hsize - m.oy + m.cy) ∧
      m.backing.grid.hsize - m.oy + m.cy < m.backing.grid.hsize + m.backing.grid.sy := by
  have hcy := h.cy
  have hoy := h.oy
  have hsy := h.sy
  have hlines := h.lines
  refine ⟨?_, by omega⟩
  rw [backingRow, uadd_of_lt (by omega), usub_of_le (by omega)]
  congr 1
  omega

theorem CopyMode.Sized.congr (h : m.Sized) (hscreen : m'.screen = m.screen) (hbacking : m'.backing = m.backing)
    (hpane : m'.ofPane = m.ofPane) : m'.Sized := by
  constructor
  all_goals simp only [hscreen, hbacking, hpane]
  exacts [h.screen, h.backing, h.width, h.sx, h.sy, h.lines, h.hlimit]

theorem CopyMode.Moved.refl (h : m.Based) : m.Moved m := ⟨h, rfl, rfl, rfl, rfl, rfl, rfl, .inr rfl⟩

theorem CopyMode.Moved.trans (h : m.Moved m') (h' : m'.Moved m'') : m.Moved m'' := by
  refine ⟨h'.based, h'.gridSx.trans h.gridSx, h'.gridSy.trans h.gridSy, h'.backing.trans h.backing,
    h'.ofPane.trans h.ofPane, h'.sel.trans h.sel, h'.rectflag.trans h.rectflag, ?_⟩
  rcases h'.lastcx with hl | hl
  · exact .inl (h.gridSx ▸ hl)
  · rw [hl]
    exact h.lastcx

theorem CopyMode.Lands.refl (h : m.Based) (hcx : m.cx ≤ m.screen.grid.sx) : m.Lands m := ⟨.refl h, hcx⟩

theorem CopyMode.Moved.lands (h : m.Moved m') (h' : m'.Lands m'') : m.Lands m'' :=
  ⟨h.trans h'.toMoved, h'.cx⟩

theorem CopyMode.Moved.recalls (h : m.Moved m') (hr : m.Recalls) : m'.Recalls := by
  intro hrect hsel
  rw [h.gridSx]
  rcases h.lastcx with hl | hl
  · exact hl
  · rw [hl]
    exact hr (h.rectflag ▸ hrect) (h.sel ▸ hsel)

/-! ## Drawing -/

theorem CopyMode.Drawn.refl (h : m.screen.InRows) : m.Drawn m := ⟨m.screen, .refl h, rfl⟩

theorem CopyMode.Drawn.trans (h : m.Drawn m') (h' : m'.Drawn m'') : m.Drawn m'' := by
  obtain ⟨s, hs, rfl⟩ := h
  obtain ⟨s', hs', rfl⟩ := h'
  exact ⟨s', hs.trans hs', rfl⟩

theorem CopyMode.Drawn.rows (h : m.Drawn m') : m'.screen.InRows := by
  obtain ⟨s, hs, rfl⟩ := h
  exact hs.rows

theorem CopyMode.Drawn.width (h : m.Drawn m') (hx : 1 ≤ m.screen.grid.sx) : 1 ≤ m'.screen.grid.sx := by
  obtain ⟨s, hs, rfl⟩ := h
  exact hs.grid.sx ▸ hx

theorem CopyMode.Drawn.moved (h : m.Drawn m') (hm : m.Based) : m.Moved m' := by
  obtain ⟨s, hs, rfl⟩ := h
  have hsx := hs.grid.sx
  have hsy := hs.grid.sy
  refine ⟨⟨⟨hs.rows, hm.backing, hsx ▸ hm.width, ?_, ?_, hm.lines, hm.hlimit⟩, hsy ▸ hm.cy, hm.oy⟩, hsx, hsy, rfl,
    rfl, rfl, rfl, .inr rfl⟩
  · exact hm.sx.trans hsx.symm
  · exact hm.sy.trans hsy.symm

theorem CopyMode.Drawn.lands (h : m.Drawn m') (hm : m.Based) (hcx : m.cx ≤ m.screen.grid.sx) : m.Lands m' := by
  refine ⟨h.moved hm, ?_⟩
  obtain ⟨s, hs, rfl⟩ := h
  exact hs.grid.sx ▸ hcx

section

variable {w : Exec.Allowed} [w.Lenient]

section Drawing

variable (hrows : m.screen.InRows) (hx : 1 ≤ m.screen.grid.sx)

include hrows hx

theorem writeHeader_kept (py : ℕ) : Meets w (fun p => m.screen.Kept p.1) (writeHeader m py) := by
  have hputs : ∀ px y gc msg, Meets w m.screen.Kept (do
      let s ← screenWriteCursormove m.screen px y
      screenWritePuts s gc msg) := fun px y gc msg => by
    refine (screenWriteCursormove_stays hrows hx px y).bind fun s₁ h₁ => ?_
    refine (screenWriteVnputs_kept h₁.rows (h₁.grid.sx ▸ hx) (-1) gc false msg).mono fun s₂ h₂ => ?_
    exact h₁.toKept.trans h₂
  refine (meets_usub (w := w.wrapping) (.inl trivial)).forget.bind fun last _ => ?_
  split_ifs
  · generalize limit (positionText m).length m.screen.grid.sx = size
    refine (meets_usub_any _ _).bind fun px _ => ?_
    rw [← bind_assoc]
    exact (hputs _ _ _ _).bind fun s hs => .pure hs
  · rw [← bind_assoc]
    exact (hputs _ _ _ _).bind fun s hs => .pure hs
  · exact .pure (.refl hrows)

theorem windowCopyWriteLine_drawn (py : ℕ) : Meets w m.Drawn (windowCopyWriteLine m py) := by
  refine (writeHeader_kept hrows hx py).bind fun ⟨s₁, xoff, size⟩ h₁ => ?_
  refine (screenWriteCursormove_stays h₁.rows (h₁.grid.sx ▸ hx) _ _).bind fun s₂ h₂ => ?_
  have h₂ := h₁.trans h₂.toKept
  refine (meets_usub_any _ _).bind fun top _ => (meets_usub_any _ _).bind fun nx _ => ?_
  refine (screenWriteCopy_kept h₂.rows (h₂.grid.sx ▸ hx) _ _ _ _ _).bind fun s₃ h₃ => ?_
  have h₃ := h₂.trans h₃
  suffices hmarker : Meets w s₃.Kept (writeMarker m py s₃) from
    hmarker.bind fun s₄ h₄ => .pure ⟨s₄, h₃.trans h₄, rfl⟩
  unfold writeMarker
  split_ifs
  · refine (meets_usub_any _ _).bind fun px _ => ?_
    refine (screenWriteCursormove_stays h₃.rows (h₃.grid.sx ▸ hx) _ _).bind fun s₄ h₄ => ?_
    exact (writeCell_kept h₄.rows (h₃.trans h₄.toKept |>.grid.sx ▸ hx) _ _).mono fun s₅ h₅ => h₄.toKept.trans h₅
  · exact .pure (.refl h₃.rows)

theorem windowCopyWriteLines_drawn (py ny : ℕ) : Meets w m.Drawn (windowCopyWriteLines m py ny) := by
  induction ny generalizing m with
  | zero => exact .pure (.refl hrows)
  | succ ny ih =>
    refine (windowCopyWriteLine_drawn hrows hx py).bind fun m₁ h₁ => ?_
    exact (ih h₁.rows (h₁.width hx)).mono fun m₂ h₂ => h₁.trans h₂

omit [w.Lenient] in
theorem moveCursor_drawn (cx cy : ℕ) : Meets w m.Drawn (moveCursor m cx cy) :=
  (screenWriteCursormove_stays hrows hx cx cy).bind fun s hs => .pure ⟨s, hs.toKept, rfl⟩

theorem writeLines_drawn (l : List ℕ) : Meets w m.Drawn (l.foldlM windowCopyWriteLine m) :=
  Meets.foldlM (.refl hrows) fun _ py _ h₁ =>
    (windowCopyWriteLine_drawn h₁.rows (h₁.width hx) py).mono fun _ h₂ => h₁.trans h₂

theorem windowCopyRedrawLines_drawn (py ny : ℕ) : Meets w m.Drawn (windowCopyRedrawLines m py ny) :=
  (writeLines_drawn hrows hx _).bind fun _ h₁ =>
    (moveCursor_drawn h₁.rows (h₁.width hx) _ _).mono fun _ h₂ => h₁.trans h₂

theorem windowCopyRedrawScreen_drawn : Meets w m.Drawn (windowCopyRedrawScreen m) :=
  windowCopyRedrawLines_drawn hrows hx 0 _

theorem redrawTo_drawn (sy : ℕ) : Meets w m.Drawn (redrawTo m sy) := by
  unfold redrawTo
  split_ifs
  · exact windowCopyRedrawLines_drawn hrows hx _ _
  · exact windowCopyRedrawLines_drawn hrows hx _ _

omit hrows hx in
theorem selectionRow_meets (m : CopyMode) : Meets w (fun _ => True) (selectionRow m) := by
  refine (meets_usub_any _ _).bind fun ty _ => (meets_usub_any _ _).bind fun last _ => ?_
  split_ifs
  · exact .pure trivial
  · exact meets_usub_any _ _
  · exact .pure trivial

theorem windowCopyUpdateSelection_drawn :
    Meets w (fun p => m.Drawn p.1) (windowCopyUpdateSelection m) := by
  unfold windowCopyUpdateSelection
  by_cases hsel : (!m.sel) = true
  · rw [if_pos hsel]
    exact .pure (.refl hrows)
  · rw [if_neg hsel]
    refine (selectionRow_meets m).bind fun row _ => ?_
    dsimp only
    split_ifs
    · exact (redrawTo_drawn hrows hx _).bind fun m₁ h₁ => .pure h₁
    · exact .pure (.refl hrows)

theorem updateSelectionRows_drawn (py ny : ℕ) : Meets w m.Drawn (updateSelectionRows m py ny) := by
  refine (windowCopyUpdateSelection_drawn hrows hx).bind fun ⟨m₁, selected⟩ h₁ => ?_
  dsimp only at h₁ ⊢
  split_ifs
  · exact (windowCopyRedrawLines_drawn h₁.rows (h₁.width hx) _ _).mono fun m₂ h₂ => h₁.trans h₂
  · exact .pure h₁

theorem redrawAll_drawn : Meets w m.Drawn (redrawAll m) :=
  (windowCopyUpdateSelection_drawn hrows hx).bind fun _ h₁ =>
    (windowCopyRedrawScreen_drawn h₁.rows (h₁.width hx)).mono fun _ h₂ => h₁.trans h₂

theorem redrawLast_drawn : Meets w m.Drawn (redrawLast m) :=
  (meets_usub (w := w.wrapping) (.inl trivial)).forget.bind fun last _ => windowCopyRedrawLines_drawn hrows hx last 1

theorem windowCopyUpdateCursor_drawn (cx cy : ℕ) :
    Meets w ({ m with cx, cy } : CopyMode).Drawn (windowCopyUpdateCursor m cx cy) := by
  have hmarked : Meets w ({ m with cx, cy } : CopyMode).Drawn (redrawMarked { m with cx, cy } m.cx m.cy) := by
    unfold redrawMarked
    split_ifs
    · exact windowCopyRedrawLines_drawn (m := { m with cx, cy }) hrows hx _ _
    · exact .pure (.refl hrows)
  refine hmarked.bind fun m₁ h₁ => ?_
  have hx₁ := h₁.width hx
  split_ifs
  · exact (windowCopyRedrawLines_drawn h₁.rows hx₁ _ _).mono fun _ h₂ => h₁.trans h₂
  · exact (moveCursor_drawn h₁.rows hx₁ _ _).mono fun _ h₂ => h₁.trans h₂

end Drawing

end

/-! ## Motions in a row -/

/-- What a motion does from any place in the grid, if a condition holds there. -/
def KeepsPlace (C : CopyMode → Prop) (f : CopyMode → Exec CopyMode) : Prop :=
  ∀ m : CopyMode, m.Based → m.cx ≤ m.screen.grid.sx → C m → Meets .all m.Lands (f m)

/-- No condition. -/
def Anywhere (_ : CopyMode) : Prop := True

theorem times_keepsPlace {C : CopyMode → Prop} {f : CopyMode → Exec CopyMode} (hf : KeepsPlace C f)
    (hC : ∀ m m' : CopyMode, m.Moved m' → C m → C m') (n : ℕ) : KeepsPlace C (times f n) := by
  induction n with
  | zero => exact fun m h hcx _ => .pure (.refl h hcx)
  | succ n ih =>
    refine fun m h hcx hm => (hf m h hcx hm).bind fun m₁ h₁ => ?_
    exact (ih m₁ h₁.based h₁.cx (hC _ _ h₁.toMoved hm)).mono fun _ h₂ => h₁.toMoved.lands h₂

theorem times_recalls {f : CopyMode → Exec CopyMode} (hf : KeepsPlace CopyMode.Recalls f) (n : ℕ) :
    KeepsPlace CopyMode.Recalls (times f n) :=
  times_keepsPlace hf (fun _ _ h hr => h.recalls hr) n

section

variable {w : Exec.Allowed} [w.Lenient]

theorem CopyMode.Based.place (h : m.Based) (cx : ℕ) {cy : ℕ} (hcy : cy < m.screen.grid.sy) :
    m.Moved { m with cx, cy } :=
  ⟨⟨h.toSized.congr rfl rfl rfl, hcy, h.oy⟩, rfl, rfl, rfl, rfl, rfl, rfl, .inr rfl⟩

theorem windowCopyUpdateCursor_moved (h : m.Based) (cx : ℕ) {cy : ℕ} (hcy : cy < m.screen.grid.sy) :
    Meets w (fun m' => m.Moved m' ∧ m'.cx = cx) (windowCopyUpdateCursor m cx cy) := by
  refine (windowCopyUpdateCursor_drawn h.screen h.width cx cy).mono fun m' h' => ⟨?_, ?_⟩
  · exact (h.place cx hcy).trans (h'.moved (h.place cx hcy).based)
  · obtain ⟨s, hs, rfl⟩ := h'
    rfl

theorem moveInRow_lands (h : m.Based) {px : ℕ} (hpx : px ≤ m.screen.grid.sx) :
    Meets w m.Lands (moveInRow m px) := by
  refine (windowCopyUpdateCursor_moved h px h.cy).bind fun m₁ h₁ => ?_
  refine (updateSelectionRows_drawn h₁.1.based.screen h₁.1.based.width _ _).mono fun m₂ h₂ => ?_
  refine h₁.1.lands (h₂.lands h₁.1.based ?_)
  rw [h₁.2, h₁.1.gridSx]
  exact hpx

theorem trimBlanks_le (gd : Grid) (py n : ℕ) : Meets w (· ≤ n) (trimBlanks gd py n) := by
  induction n with
  | zero => exact .pure (le_refl _)
  | succ n ih =>
    refine (gridPeekCell_meets (Lenient.faults _ nofun) gd n py).bind fun gc _ => ?_
    split_ifs
    · exact .pure (le_refl _)
    · exact ih.mono fun _ hn => by omega

theorem windowCopyFindLength_le (h : m.Based) (py : ℕ) :
    Meets w (· ≤ m.screen.grid.sx) (windowCopyFindLength m py) := by
  refine (Block.meets_load (Lenient.faults _ nofun) py).bind fun gl _ => ?_
  rw [← h.sx]
  have hle := limit_le gl.celldata.length m.backing.grid.sx
  exact (trimBlanks_le _ _ _).mono fun _ hn => hn.trans hle

/-! ## Scrolling -/

theorem writeLineIf_drawn (hrows : m.screen.InRows) (hx : 1 ≤ m.screen.grid.sx) (b : Bool) (py : ℕ) :
    Meets w m.Drawn (writeLineIf b m py) := by
  unfold writeLineIf
  split_ifs
  · exact windowCopyWriteLine_drawn hrows hx py
  · exact .pure (.refl hrows)

theorem redrawSelected_drawn (hrows : m.screen.InRows) (hx : 1 ≤ m.screen.grid.sx) (py : ℕ) :
    Meets w m.Drawn (redrawSelected m py) :=
  (windowCopyUpdateSelection_drawn hrows hx).bind fun _ h₁ =>
    (windowCopyWriteLine_drawn h₁.rows (h₁.width hx) py).mono fun _ h₂ => h₁.trans h₂

theorem finishScroll_drawn (hrows : m.screen.InRows) (hx : 1 ≤ m.screen.grid.sx) :
    Meets w m.Drawn (finishScroll m) := by
  refine (moveCursor_drawn hrows hx _ _).bind fun m₁ h₁ => Exec.meets_map.2 ?_
  exact (windowCopyUpdateSelection_drawn h₁.rows (h₁.width hx)).mono fun _ h₂ => h₁.trans h₂

theorem deleteTop_drawn (hrows : m.screen.InRows) (hx : 1 ≤ m.screen.grid.sx) (ny : ℕ) :
    Meets w m.Drawn (deleteTop m ny) := by
  refine (moveCursor_drawn hrows hx 0 0).bind fun m₁ h₁ => ?_
  refine (screenWriteDeleteline_stays (Lenient.faults _ nofun) h₁.rows ny).bind fun s hs => .pure ?_
  exact h₁.trans ⟨s, hs.toKept, rfl⟩

theorem insertTop_drawn (hrows : m.screen.InRows) (hx : 1 ≤ m.screen.grid.sx) (ny : ℕ) :
    Meets w m.Drawn (insertTop m ny) := by
  refine (moveCursor_drawn hrows hx 0 0).bind fun m₁ h₁ => ?_
  refine (screenWriteInsertline_stays (Lenient.faults _ nofun) h₁.rows ny).bind fun s hs => .pure ?_
  exact h₁.trans ⟨s, hs.toKept, rfl⟩

/-- Another offset in the history. -/
theorem CopyMode.Based.scroll (h : m.Based) {oy : ℕ} (hoy : oy ≤ m.backing.grid.hsize) :
    m.Moved { m with oy } :=
  ⟨⟨h.toSized.congr rfl rfl rfl, h.cy, hoy⟩, rfl, rfl, rfl, rfl, rfl, rfl, .inr rfl⟩

/-- What is drawn after another offset. -/
theorem CopyMode.Based.scrolled (h : m.Based) {oy : ℕ} (hoy : oy ≤ m.backing.grid.hsize)
    (h' : ({ m with oy } : CopyMode).Drawn m') : m.Moved m' ∧ m'.cx = m.cx := by
  refine ⟨(h.scroll hoy).trans (h'.moved (h.scroll hoy).based), ?_⟩
  obtain ⟨s, hs, rfl⟩ := h'
  rfl

theorem windowCopyScrollUp_drawn (h : m.Based) (ny : ℕ) :
    Meets w ({ m with oy := m.oy - limit ny m.oy } : CopyMode).Drawn (windowCopyScrollUp m ny) := by
  unfold windowCopyScrollUp
  extract_lets n
  split_ifs with hn
  · refine .pure ?_
    rw [show limit ny m.oy = 0 from hn, Nat.sub_zero]
    exact .refl h.screen
  · refine (deleteTop_drawn (m := { m with oy := m.oy - n }) h.screen h.width n).bind fun m₁ h₁ => ?_
    refine (meets_usub (w := w.wrapping) (.inl trivial)).forget.bind fun first _ => ?_
    refine (windowCopyWriteLines_drawn h₁.rows (h₁.width h.width) _ _).bind fun m₂ h₂ => ?_
    have h₂ := h₁.trans h₂
    refine (windowCopyWriteLine_drawn h₂.rows (h₂.width h.width) _).bind fun m₃ h₃ => ?_
    have h₃ := h₂.trans h₃
    refine (writeLineIf_drawn h₃.rows (h₃.width h.width) _ _).bind fun m₄ h₄ => ?_
    have h₄ := h₃.trans h₄
    refine (writeLineIf_drawn h₄.rows (h₄.width h.width) _ _).bind fun m₅ h₅ => ?_
    have h₅ := h₄.trans h₅
    split_ifs
    · refine (redrawSelected_drawn h₅.rows (h₅.width h.width) _).bind fun m₆ h₆ => ?_
      have h₆ := h₅.trans h₆
      exact (finishScroll_drawn h₆.rows (h₆.width h.width)).mono fun _ h₇ => h₆.trans h₇
    · exact (finishScroll_drawn h₅.rows (h₅.width h.width)).mono fun _ h₆ => h₅.trans h₆

theorem windowCopyScrollUp_moved (h : m.Based) (ny : ℕ) :
    Meets w (fun m' => m.Moved m' ∧ m'.cx = m.cx) (windowCopyScrollUp m ny) :=
  (windowCopyScrollUp_drawn h ny).mono fun _ h' => h.scrolled ((Nat.sub_le _ _).trans h.oy) h'

theorem redrawAfter_drawn (hrows : m.screen.InRows) (hx : 1 ≤ m.screen.grid.sx) (ny : ℕ) :
    Meets w m.Drawn (redrawAfter m ny) := by
  unfold redrawAfter
  split_ifs
  · exact redrawSelected_drawn hrows hx ny
  · exact writeLineIf_drawn hrows hx _ 1

theorem scrollDownBy_drawn (h : m.Based) {ny : ℕ} (hny : m.oy + ny ≤ m.backing.grid.hsize) :
    Meets w ({ m with oy := m.oy + ny } : CopyMode).Drawn (scrollDownBy m ny) := by
  have hlines := h.lines
  unfold scrollDownBy
  split_ifs with hzero
  · refine .pure ?_
    rw [hzero]
    exact .refl h.screen
  · rw [uadd_of_lt (by omega)]
    refine (insertTop_drawn (m := { m with oy := m.oy + ny }) h.screen h.width ny).bind fun m₁ h₁ => ?_
    refine (windowCopyWriteLines_drawn h₁.rows (h₁.width h.width) _ _).bind fun m₂ h₂ => ?_
    have h₂ := h₁.trans h₂
    refine (redrawAfter_drawn h₂.rows (h₂.width h.width) _).bind fun m₃ h₃ => ?_
    have h₃ := h₂.trans h₃
    exact (finishScroll_drawn h₃.rows (h₃.width h.width)).mono fun _ h₄ => h₃.trans h₄

/-- Scrolling down goes to the start of the history at most. -/
theorem windowCopyScrollDown_drawn (h : m.Based) {ny : ℕ} (hny : ny ≤ m.backing.grid.hsize) :
    Meets w ({ m with oy := min (m.oy + ny) m.backing.grid.hsize } : CopyMode).Drawn (windowCopyScrollDown m ny) := by
  have hoy := h.oy
  unfold windowCopyScrollDown
  rw [if_neg (by omega)]
  split_ifs with hlast
  · rw [usub_of_le hoy, pure_bind, Nat.min_eq_right (by omega)]
    have hdrawn : Meets w _ (scrollDownBy m (m.backing.grid.hsize - m.oy)) := scrollDownBy_drawn h (by omega)
    rwa [Nat.add_sub_cancel' hoy] at hdrawn
  · rw [Nat.min_eq_left (by omega)]
    exact scrollDownBy_drawn h (by omega)

theorem windowCopyScrollDown_moved (h : m.Based) (ny : ℕ) :
    Meets w (fun m' => m.Moved m' ∧ m'.cx = m.cx) (windowCopyScrollDown m ny) := by
  by_cases hmore : ny > m.backing.grid.hsize
  · rw [windowCopyScrollDown, if_pos hmore]
    exact .pure ⟨.refl h, rfl⟩
  · exact (windowCopyScrollDown_drawn h (Nat.not_lt.1 hmore)).mono fun _ h' => h.scrolled (Nat.min_le_right _ _) h'

/-! ## Up and down -/

/-- Recalling a column that a rectangle has keeps it on the screen. -/
theorem recallColumn_moved (h : m.Based) (hcx : m.cx ≤ m.screen.grid.sx) (hr : m.Recalls) :
    Meets w (fun m' => m.Moved m' ∧ (m'.rectflag = true → m'.sel = true → m'.cx ≤ m'.screen.grid.sx))
      (recallColumn m) := by
  refine (meets_usub_any _ _).bind fun oy _ => (windowCopyFindLength_le h oy).bind fun ox _ => .pure ?_
  by_cases hne : m.cx ≠ ox
  · rw [if_pos hne]
    exact ⟨⟨⟨h.toSized.congr rfl rfl rfl, h.cy, h.oy⟩, rfl, rfl, rfl, rfl, rfl, rfl, .inl hcx⟩, fun _ _ => hcx⟩
  · rw [if_neg hne]
    exact ⟨⟨⟨h.toSized.congr rfl rfl rfl, h.cy, h.oy⟩, rfl, rfl, rfl, rfl, rfl, rfl, .inr rfl⟩, hr⟩

theorem redrawLines_moved (h : m.Based) (py ny : ℕ) :
    Meets w (fun m' => m.Moved m' ∧ m'.cx = m.cx) (windowCopyRedrawLines m py ny) := by
  refine (windowCopyRedrawLines_drawn h.screen h.width py ny).mono fun m' h' => ⟨h'.moved h, ?_⟩
  obtain ⟨s, hs, rfl⟩ := h'
  rfl

theorem updateSelectionRows_moved (h : m.Based) (py ny : ℕ) :
    Meets w (fun m' => m.Moved m' ∧ m'.cx = m.cx) (updateSelectionRows m py ny) := by
  refine (updateSelectionRows_drawn h.screen h.width py ny).mono fun m' h' => ⟨h'.moved h, ?_⟩
  obtain ⟨s, hs, rfl⟩ := h'
  rfl

theorem stepUp_moved (h : m.Based) (scrollOnly : Bool) :
    Meets w (fun m' => m.Moved m' ∧ m'.cx = m.cx) (stepUp m scrollOnly) := by
  have hcy := h.cy
  unfold stepUp
  by_cases htop : scrollOnly = true ∨ m.cy = 0
  · rw [if_pos htop]
    refine (windowCopyScrollDown_moved h 1).bind fun m₁ h₁ => ?_
    split_ifs
    · exact (redrawLines_moved h₁.1.based _ _).mono fun _ h₂ => ⟨h₁.1.trans h₂.1, h₂.2.trans h₁.2⟩
    · exact .pure h₁
  · rw [if_neg htop]
    have habove : m.cy - 1 < m.screen.grid.sy := by omega
    refine (windowCopyUpdateCursor_moved h m.cx habove).bind fun m₁ h₁ => ?_
    exact (updateSelectionRows_moved h₁.1.based _ _).mono fun _ h₂ => ⟨h₁.1.trans h₂.1, h₂.2.trans h₁.2⟩

theorem stepDown_moved (h : m.Based) (scrollOnly : Bool) :
    Meets w (fun m' => m.Moved m' ∧ m'.cx = m.cx) (stepDown m scrollOnly) := by
  have hcy := h.cy
  have hsy : usub m.screen.grid.sy 1 = pure (m.screen.grid.sy - 1) := usub_of_le (by omega)
  unfold stepDown
  rw [hsy, Exec.forget_pure, pure_bind]
  by_cases hlast : scrollOnly = true ∨ m.cy = m.screen.grid.sy - 1
  · rw [if_pos hlast]
    refine (windowCopyScrollUp_moved h 1).bind fun m₁ h₁ => ?_
    split_ifs
    · exact (redrawLines_moved h₁.1.based _ _).mono fun _ h₂ => ⟨h₁.1.trans h₂.1, h₂.2.trans h₁.2⟩
    · exact .pure h₁
  · rw [if_neg hlast]
    have hnext : uadd m.cy 1 < m.screen.grid.sy := (uadd_le m.cy 1).trans_lt (by omega)
    refine (windowCopyUpdateCursor_moved h m.cx hnext).bind fun m₁ h₁ => ?_
    exact (updateSelectionRows_moved h₁.1.based _ _).mono fun _ h₂ => ⟨h₁.1.trans h₂.1, h₂.2.trans h₁.2⟩

end

/-- Keeping to the line, a cursor past its end is put there, unless there is a rectangle. -/
theorem keepToLine_lands {endOfLine : CopyMode → Exec CopyMode} (h : m.Based)
    (hcx : m.rectflag = true → m.sel = true → m.cx ≤ m.screen.grid.sx)
    (hend : Meets .all m.Lands (endOfLine m)) : Meets .all m.Lands (keepToLine endOfLine m) := by
  unfold keepToLine
  by_cases hline : (!m.sel || !m.rectflag) = true
  · rw [if_pos hline]
    refine (meets_all _).bind fun py _ => (windowCopyFindLength_le h py).bind fun px hpx => ?_
    split_ifs with hpast
    · exact hend
    · exact .pure (.refl h (by omega))
  · rw [if_neg hline]
    simp only [Bool.or_eq_true, Bool.not_eq_true', not_or, Bool.not_eq_false] at hline
    exact .pure (.refl h (hcx hline.2 hline.1))

/-- The end of a line is on the screen, or past the last column, given how to move down. -/
theorem endOfLineBody_lands {down : CopyMode → Exec CopyMode} (h : m.Based)
    (hdown : ∀ m', m.Lands m' → Meets .all m'.Lands (down m')) : Meets .all m.Lands (endOfLineBody down m) := by
  have hrest : ∀ m', m.Moved m' → Meets .all m.Lands (do
      let py ← backingRow m'
      let px ← windowCopyFindLength m' py
      moveInRow m' px) := fun m' h' => by
    refine (meets_all _).bind fun py _ => (windowCopyFindLength_le h'.based py).bind fun px hpx => ?_
    exact (moveInRow_lands h'.based hpx).mono fun _ h'' => h'.lands h''
  have hloop : ∀ n py m', m.Lands m' → Meets .all m.Lands (downToEnd down n py m') := by
    intro n
    induction n with
    | zero => exact fun _ _ _ => trivial
    | succ n ih =>
      intro py m' h'
      unfold downToEnd
      split_ifs
      · refine (meets_all _).bind fun wrapped _ => ?_
        split_ifs
        · refine (hdown m' h').bind fun m₂ h₂ => (meets_all _).bind fun py₂ _ => ?_
          exact ih py₂ m₂ (h'.toMoved.lands h₂)
        · exact .pure h'
      · exact .pure h'
  refine (meets_all _).bind fun py _ => (windowCopyFindLength_le h py).bind fun px hpx => ?_
  split_ifs with hend
  · have hcx : m.cx ≤ m.screen.grid.sx := hend ▸ hpx
    refine (meets_all _).bind fun wrapped _ => ?_
    split_ifs
    · exact (hloop _ py m (.refl h hcx)).bind fun m₁ h₁ => hrest m₁ h₁.toMoved
    · exact moveInRow_lands h h.sx.le
    · exact moveInRow_lands h hpx
  · exact moveInRow_lands h hpx

theorem endElsewhere_lands (h : m.Based) : Meets .all m.Lands (endElsewhere m) :=
  endOfLineBody_lands h fun _ _ => trivial

theorem windowCopyCursorUp_keepsPlace (scrollOnly : Bool) :
    KeepsPlace CopyMode.Recalls (windowCopyCursorUp · scrollOnly) := by
  intro m h hcx hr
  refine (recallColumn_moved h hcx hr).bind fun m₁ h₁ => ?_
  refine (stepUp_moved h₁.1.based scrollOnly).bind fun m₂ h₂ => ?_
  refine (keepToLine_lands h₂.1.based (fun hrect hsel => ?_) (endElsewhere_lands h₂.1.based)).mono fun _ h₃ =>
    (h₁.1.trans h₂.1).lands h₃
  rw [h₂.2, h₂.1.gridSx]
  exact h₁.2 (h₂.1.rectflag ▸ hrect) (h₂.1.sel ▸ hsel)

theorem windowCopyCursorDown_keepsPlace (scrollOnly : Bool) :
    KeepsPlace CopyMode.Recalls (windowCopyCursorDown · scrollOnly) := by
  intro m h hcx hr
  refine (recallColumn_moved h hcx hr).bind fun m₁ h₁ => ?_
  refine (stepDown_moved h₁.1.based scrollOnly).bind fun m₂ h₂ => ?_
  refine (keepToLine_lands h₂.1.based (fun hrect hsel => ?_) (endElsewhere_lands h₂.1.based)).mono fun _ h₃ =>
    (h₁.1.trans h₂.1).lands h₃
  rw [h₂.2, h₂.1.gridSx]
  exact h₁.2 (h₂.1.rectflag ▸ hrect) (h₂.1.sel ▸ hsel)

theorem windowCopyCursorEndOfLine_keepsPlace :
    KeepsPlace CopyMode.Recalls windowCopyCursorEndOfLine := fun _ h _ hr =>
  endOfLineBody_lands h fun m' h' =>
    windowCopyCursorDown_keepsPlace false m' h'.based h'.cx (h'.toMoved.recalls hr)

/-! ## Characters -/

theorem windowCopyCursorStartOfLine_keepsPlace :
    KeepsPlace CopyMode.Recalls windowCopyCursorStartOfLine := by
  have hloop : ∀ n py m, m.Based → m.cx ≤ m.screen.grid.sx → m.Recalls →
      Meets .all m.Lands (upToStart n py m) := by
    intro n
    induction n with
    | zero => exact fun _ _ _ _ _ => trivial
    | succ n ih =>
      intro py m h hcx hr
      unfold upToStart
      split_ifs
      · refine (meets_all _).bind fun wrapped _ => ?_
        split_ifs
        · refine (windowCopyCursorUp_keepsPlace false m h hcx hr).bind fun m₁ h₁ => ?_
          refine (meets_all _).bind fun py₁ _ => ?_
          exact (ih py₁ m₁ h₁.based h₁.cx (h₁.toMoved.recalls hr)).mono fun _ h₂ => h₁.toMoved.lands h₂
        · exact .pure (.refl h hcx)
      · exact .pure (.refl h hcx)
  intro m h hcx hr
  unfold windowCopyCursorStartOfLine
  split_ifs
  · refine (meets_all _).bind fun py _ => (hloop _ py m h hcx hr).bind fun m₁ h₁ => ?_
    exact (moveInRow_lands h₁.based (Nat.zero_le _)).mono fun _ h₂ => h₁.toMoved.lands h₂
  · exact moveInRow_lands h (Nat.zero_le _)

theorem skipBlanks_le (gd : Grid) (py n px : ℕ) : Meets .all (· ≤ px + n) (skipBlanks gd py n px) := by
  induction n generalizing px with
  | zero => exact .pure (le_refl _)
  | succ n ih =>
    refine (meets_all _).bind fun gc _ => ?_
    split_ifs
    · exact .pure (by omega)
    · exact (ih (px + 1)).mono fun _ h => by omega

theorem windowCopyCursorBackToIndentation_keepsPlace :
    KeepsPlace Anywhere windowCopyCursorBackToIndentation := by
  intro m h _ _
  refine (meets_all _).bind fun py _ => (windowCopyFindLength_le h py).bind fun xx hxx => ?_
  exact (skipBlanks_le _ _ _ _).bind fun px hpx => moveInRow_lands h (by omega)

theorem windowCopyCursorLeft_keepsPlace : KeepsPlace CopyMode.Recalls windowCopyCursorLeft := by
  intro m h hcx hr
  unfold windowCopyCursorLeft
  split_ifs
  · refine (windowCopyCursorUp_keepsPlace false m h hcx hr).bind fun m₁ h₁ => ?_
    exact (windowCopyCursorEndOfLine_keepsPlace m₁ h₁.based h₁.cx (h₁.toMoved.recalls hr)).mono fun _ h₂ =>
      h₁.toMoved.lands h₂
  · exact moveInRow_lands h (by omega)

theorem rightLimit_le {w : Exec.Allowed} [w.Lenient] (h : m.Based) :
    Meets w (· ≤ m.screen.grid.sx) (rightLimit m) := by
  unfold rightLimit
  split_ifs
  · exact .pure (le_refl _)
  · exact (meets_usub_any _ _).bind fun py _ => windowCopyFindLength_le h py

theorem windowCopyCursorRight_keepsPlace : KeepsPlace CopyMode.Recalls windowCopyCursorRight := by
  intro m h hcx hr
  refine (rightLimit_le h).bind fun px hpx => ?_
  split_ifs with hend
  · refine (windowCopyCursorStartOfLine_keepsPlace m h hcx hr).bind fun m₁ h₁ => ?_
    exact (windowCopyCursorDown_keepsPlace false m₁ h₁.based h₁.cx (h₁.toMoved.recalls hr)).mono fun _ h₂ =>
      h₁.toMoved.lands h₂
  · have := uadd_le m.cx 1
    exact moveInRow_lands h (by omega)

theorem findForward_lt (gd : Grid) (py : ℕ) (jumpchar : ℤ) (n px : ℕ) :
    Meets .all (fun found => ∀ x ∈ found, x < px + n) (findForward gd py jumpchar n px) := by
  induction n generalizing px with
  | zero => exact .pure nofun
  | succ n ih =>
    refine (meets_all _).bind fun gc _ => ?_
    split_ifs
    · exact .pure (by simp)
    · exact (ih (px + 1)).mono fun found hfound x hx => by have := hfound x hx; omega

theorem findBack_le (gd : Grid) (py : ℕ) (jumpchar : ℤ) (px : ℕ) :
    Meets .all (fun found => ∀ x ∈ found, x ≤ px) (findBack gd py jumpchar px) := by
  induction px with
  | zero =>
    refine (meets_all _).bind fun gc _ => .pure ?_
    split_ifs <;> simp
  | succ px ih =>
    refine (meets_all _).bind fun gc _ => ?_
    split_ifs
    · exact .pure (by simp)
    · exact ih.mono fun found hfound x hx => (hfound x hx).trans (Nat.le_succ px)

theorem jumpForward_keepsPlace {beside : ℕ → ℕ} (hbeside : ∀ px, beside px ≤ px) :
    KeepsPlace Anywhere (jumpForward beside) := by
  intro m h hcx _
  have hnext := uadd_le m.cx 1
  refine (meets_all _).bind fun py _ => (windowCopyFindLength_le h py).bind fun xx hxx => ?_
  refine (findForward_lt _ _ _ _ _).bind fun found hfound => ?_
  cases found with
  | none => exact .pure (.refl h hcx)
  | some px =>
    have hpx := hfound px rfl
    have hle := hbeside px
    refine moveInRow_lands h ?_
    by_cases hroom : uadd m.cx 1 ≤ xx <;> omega

theorem jumpBackward_keepsPlace {beside : ℕ → ℕ} (hbeside : ∀ px, beside px ≤ px + 1) :
    KeepsPlace Anywhere (jumpBackward beside) := by
  intro m h hcx _
  have hwidth := h.width
  refine (meets_all _).bind fun py _ => (findBack_le _ _ _ _).bind fun found hfound => ?_
  cases found with
  | none => exact .pure (.refl h hcx)
  | some px =>
    have hpx := hfound px rfl
    have hle := hbeside px
    exact moveInRow_lands h (by omega)

/-! ## Words -/

/-- Skipping ends in a column of a line, or nowhere. -/
theorem skipSet_lands (separators : List UInt8) (expected : Bool) (yy n px py xx : ℕ) (h : m.Based)
    (hcx : m.cx ≤ m.screen.grid.sx) (hr : m.Recalls) (hxx : xx ≤ m.screen.grid.sx) :
    Meets .all (fun p => m.Lands p.1 ∧ ∀ q ∈ p.2, q.1 ≤ m.screen.grid.sx ∧ q.2.2 ≤ m.screen.grid.sx)
      (skipSet separators expected yy n px py xx m) := by
  induction n generalizing m px py xx with
  | zero => exact trivial
  | succ n ih =>
    unfold skipSet
    by_cases hpast : px > xx
    · rw [if_pos hpast]
      split_ifs
      · exact .pure ⟨.refl h hcx, nofun⟩
      · refine (windowCopyCursorDown_keepsPlace false m h hcx hr).bind fun m₁ h₁ => ?_
        refine (meets_all _).bind fun py₁ _ => (windowCopyFindLength_le h₁.based py₁).bind fun xx₁ hxx₁ => ?_
        refine (ih 0 py₁ xx₁ h₁.based h₁.cx (h₁.toMoved.recalls hr) hxx₁).mono fun p hp => ?_
        rw [h₁.gridSx] at hp
        exact ⟨h₁.toMoved.lands hp.1, hp.2⟩
    · rw [if_neg hpast]
      refine (meets_all _).bind fun found _ => ?_
      split_ifs
      · exact ih (px + 1) py xx h hcx hr hxx
      · refine .pure ⟨.refl h hcx, ?_⟩
        rintro _ ⟨⟩
        exact ⟨by dsimp only; omega, hxx⟩

theorem skipTwice_keepsPlace (separators : List UInt8) (expected : Bool) :
    KeepsPlace CopyMode.Recalls (skipTwice · separators expected) := by
  intro m h hcx hr
  refine (meets_all _).bind fun py _ => (windowCopyFindLength_le h py).bind fun xx hxx => ?_
  refine (meets_all _).bind fun yy _ => ?_
  refine (skipSet_lands separators expected yy _ m.cx py xx h hcx hr hxx).bind fun ⟨m₁, found⟩ h₁ => ?_
  cases found with
  | none => exact .pure h₁.1
  | some q =>
    obtain ⟨px, py₁, xx₁⟩ := q
    have hq := h₁.2 _ rfl
    have h₁ := h₁.1
    have hxx₁ : xx₁ ≤ m₁.screen.grid.sx := h₁.gridSx.symm ▸ hq.2
    refine (skipSet_lands separators (!expected) yy _ px py₁ xx₁ h₁.based h₁.cx (h₁.toMoved.recalls hr) hxx₁).bind
      fun ⟨m₂, found⟩ h₂ => ?_
    cases found with
    | none => exact .pure (h₁.toMoved.lands h₂.1)
    | some q =>
      obtain ⟨px₂, py₂, xx₂⟩ := q
      have hpx : px₂ ≤ m₂.screen.grid.sx := h₂.1.gridSx.symm ▸ (h₂.2 _ rfl).1
      exact (moveInRow_lands h₂.1.based hpx).mono fun _ h₃ => (h₁.toMoved.trans h₂.1.toMoved).lands h₃

/-- Going back ends in a column, or nowhere. -/
theorem backToWord_lands (separators : List UInt8) (n px py : ℕ) (h : m.Based)
    (hcx : m.cx ≤ m.screen.grid.sx) (hr : m.Recalls) (hpx : px ≤ m.screen.grid.sx) :
    Meets .all (fun p => m.Lands p.1 ∧ ∀ q ∈ p.2, q.1 ≤ m.screen.grid.sx) (backToWord separators n px py m) := by
  induction n generalizing m px py with
  | zero => exact trivial
  | succ n ih =>
    unfold backToWord
    by_cases hcol : px > 0
    · rw [if_pos hcol]
      refine (meets_all _).bind fun found _ => ?_
      split_ifs
      · refine .pure ⟨.refl h hcx, ?_⟩
        rintro _ ⟨⟩
        dsimp only
        omega
      · exact ih (px - 1) py h hcx hr (by omega)
    · rw [if_neg hcol]
      split_ifs
      · exact .pure ⟨.refl h hcx, nofun⟩
      · refine (windowCopyCursorUp_keepsPlace false m h hcx hr).bind fun m₁ h₁ => ?_
        refine (meets_all _).bind fun py₁ _ => (windowCopyFindLength_le h₁.based py₁).bind fun px₁ hpx₁ => ?_
        refine (ih px₁ py₁ h₁.based h₁.cx (h₁.toMoved.recalls hr) hpx₁).mono fun p hp => ?_
        rw [h₁.gridSx] at hp
        exact ⟨h₁.toMoved.lands hp.1, hp.2⟩

theorem wordStart_le (m : CopyMode) (py : ℕ) (separators : List UInt8) (px : ℕ) :
    Meets .all (· ≤ px) (wordStart m py separators px) := by
  induction px with
  | zero => exact .pure (le_refl _)
  | succ px ih =>
    refine (meets_all _).bind fun found _ => ?_
    split_ifs
    · exact .pure (le_refl _)
    · exact ih.mono fun _ h => h.trans (Nat.le_succ px)

theorem windowCopyCursorPreviousWord_keepsPlace (separators : List UInt8) :
    KeepsPlace CopyMode.Recalls (windowCopyCursorPreviousWord · separators) := by
  intro m h hcx hr
  refine (meets_all _).bind fun py _ => ?_
  refine (backToWord_lands separators _ m.cx py h hcx hr hcx).bind fun ⟨m₁, found⟩ h₁ => ?_
  cases found with
  | none =>
    exact (moveInRow_lands h₁.1.based (Nat.zero_le _)).mono fun _ h₂ => h₁.1.toMoved.lands h₂
  | some q =>
    obtain ⟨px, py₁⟩ := q
    refine (wordStart_le m₁ py₁ separators px).bind fun px₁ hpx₁ => ?_
    have hpx : px₁ ≤ m₁.screen.grid.sx := hpx₁.trans (h₁.1.gridSx.symm ▸ h₁.2 _ rfl)
    exact (moveInRow_lands h₁.1.based hpx).mono fun _ h₂ => h₁.1.toMoved.lands h₂

end Tmux
