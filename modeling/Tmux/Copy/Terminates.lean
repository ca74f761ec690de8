import Tmux.Copy.PreviousWord

/-!
# Motions that come to an end

The loops of the motions go up or down line by line, and so they come to the first line or the last
one, if they do not stop before. The one that looks for the end of a wrapped line goes on if the last
line of the grid is marked as wrapped, too. All motions from all places end if and only if it is not
(`motions_terminate_iff`).
-/

namespace Tmux

open Exec (Meets usub uadd_of_lt usub_of_le)

variable {m m' : CopyMode} {w : Exec.Allowed} {separators : List UInt8} {expected : Bool} {n px xx : ℕ}

/-- The motions of copy mode, and the separators of words they are given. A motion up or down may scroll only. -/
inductive Motion
  | startOfLine
  | endOfLine
  | nextWord (separators : List UInt8)
  | nextWordEnd (separators : List UInt8)
  | previousWord (separators : List UInt8)
  | left
  | right
  | up (scrollOnly : Bool)
  | down (scrollOnly : Bool)
  deriving DecidableEq, Repr

def Motion.run : Motion → CopyMode → Exec CopyMode
  | startOfLine, m => windowCopyCursorStartOfLine m
  | endOfLine, m => windowCopyCursorEndOfLine m
  | nextWord separators, m => windowCopyCursorNextWord m separators
  | nextWordEnd separators, m => windowCopyCursorNextWordEnd m separators
  | previousWord separators, m => windowCopyCursorPreviousWord m separators
  | left, m => windowCopyCursorLeft m
  | right, m => windowCopyCursorRight m
  | up scrollOnly, m => windowCopyCursorUp m scrollOnly
  | down scrollOnly, m => windowCopyCursorDown m scrollOnly

/-- The last line of a grid. -/
def Grid.lastLine (g : Grid) : GridLine := g.linedata[g.hsize + g.sy - 1]?.getD {}

/-! ## Lines -/

section

variable [w.Lenient] (h : m.Based) (hwhole : m.backing.grid.Whole)

include h hwhole

theorem windowCopyCursorUp_goes (scrollOnly : Bool) : Meets w m.Goes (windowCopyCursorUp m scrollOnly) := by
  obtain ⟨cx, lastcx, lastsx, hrecall⟩ := recallColumn_eq hwhole h
  have h₁ : ({ m with cx, lastcx, lastsx } : CopyMode).Based := ⟨h.toSized.congr rfl rfl rfl, h.cy, h.oy⟩
  rw [windowCopyCursorUp, cursorUpBody, hrecall, pure_bind]
  refine (stepUp_moved h₁ scrollOnly).bind fun m₂ h₂ => ?_
  have hgoes : m.Goes m₂ := ⟨h₂.1.based, h₂.1.gridSx, h₂.1.backing⟩
  refine (keepToLine_sameLine (hgoes.backing.symm ▸ hwhole) hgoes.based).mono fun _ h₃ => ?_
  exact hgoes.trans (h₃.goes hgoes.based)

theorem windowCopyCursorDown_goes (scrollOnly : Bool) : Meets w m.Goes (windowCopyCursorDown m scrollOnly) := by
  obtain ⟨cx, lastcx, lastsx, hrecall⟩ := recallColumn_eq hwhole h
  have h₁ : ({ m with cx, lastcx, lastsx } : CopyMode).Based := ⟨h.toSized.congr rfl rfl rfl, h.cy, h.oy⟩
  rw [windowCopyCursorDown, cursorDownBody, hrecall, pure_bind]
  refine (stepDown_moved h₁ scrollOnly).bind fun m₂ h₂ => ?_
  have hgoes : m.Goes m₂ := ⟨h₂.1.based, h₂.1.gridSx, h₂.1.backing⟩
  refine (keepToLine_sameLine (hgoes.backing.symm ▸ hwhole) hgoes.based).mono fun _ h₃ => ?_
  exact hgoes.trans (h₃.goes hgoes.based)

omit hwhole in
theorem moveInRow_goes (px : ℕ) : Meets w m.Goes (moveInRow m px) :=
  (moveInRow_sameLine h px).mono fun _ h' => h'.1.goes h

/-- Going up ends in the first line at the latest. -/
theorem upToStart_goes (hn : m.row < n) : Meets w m.Goes (upToStart n m.row m) := by
  induction n generalizing m with
  | zero => exact absurd hn (Nat.not_lt_zero _)
  | succ n ih =>
    have hrow := h.row_lt
    rw [upToStart]
    split_ifs with hpos
    · rw [lineWrapped_eq hwhole (by omega), pure_bind]
      split_ifs
      · refine (windowCopyCursorUp_above hwhole h).bind fun m₁ h₁ => ?_
        have hgoes := h.above.trans (h₁.goes h.above.based)
        have hrow₁ : m₁.row = m.row - 1 := h₁.row.trans m.above_row
        rw [hgoes.based.backingRow, pure_bind]
        exact (ih hgoes.based (hgoes.backing.symm ▸ hwhole) (by omega)).mono fun _ h₂ => hgoes.trans h₂
      · exact .pure (.refl h)
    · exact .pure (.refl h)

/-- Going down ends in the last line at the latest, if this is not marked as wrapped. -/
theorem downToEnd_goes (hlast : m.backing.grid.lastLine.wrapped = false)
    (hn : m.backing.grid.hsize + m.backing.grid.sy ≤ n + m.row) :
    Meets w m.Goes (downToEnd (windowCopyCursorDown · false) n m.row m) := by
  have hrow := h.row_lt
  induction n generalizing m with
  | zero => exact absurd hn (by omega)
  | succ n ih =>
    have hroom := hwhole.room
    rw [downToEnd, uadd_of_lt (by omega), if_pos (by omega), lineWrapped_eq hwhole hrow, pure_bind]
    split_ifs with hwrapped
    · have hnext : m.row + 1 < m.backing.grid.hsize + m.backing.grid.sy := by
        refine lt_of_le_of_ne hrow fun heq => ?_
        rw [CopyMode.line, show m.row = m.backing.grid.hsize + m.backing.grid.sy - 1 by omega] at hwrapped
        exact Bool.false_ne_true (hlast.symm.trans hwrapped)
      refine (windowCopyCursorDown_below hwhole h).bind fun m₁ h₁ => ?_
      have hgoes := h.below.trans (h₁.goes h.below.based)
      have hrow₁ : m₁.row = m.row + 1 := h₁.row.trans (h.below_row hnext)
      rw [hgoes.based.backingRow, pure_bind]
      refine (ih hgoes.based (hgoes.backing.symm ▸ hwhole) (hgoes.backing.symm ▸ hlast) ?_ hgoes.based.row_lt).mono
        fun _ h₂ => hgoes.trans h₂
      rw [hgoes.backing]
      omega
    · exact .pure (.refl h)

theorem windowCopyCursorStartOfLine_goes : Meets w m.Goes (windowCopyCursorStartOfLine m) := by
  rw [windowCopyCursorStartOfLine]
  split_ifs
  · rw [h.backingRow, pure_bind]
    refine (upToStart_goes h hwhole (Nat.lt_succ_self _)).bind fun m₁ h₁ => ?_
    exact (moveInRow_goes h₁.based 0).mono fun _ h₂ => h₁.trans h₂
  · exact moveInRow_goes h 0

theorem windowCopyCursorEndOfLine_goes (hlast : m.backing.grid.lastLine.wrapped = false) :
    Meets w m.Goes (windowCopyCursorEndOfLine m) := by
  have hrow := h.row_lt
  rw [windowCopyCursorEndOfLine, endOfLineBody, h.backingRow, pure_bind, windowCopyFindLength_eq hwhole hrow h, pure_bind]
  split_ifs
  · rw [endFromEnd, lineWrapped_eq hwhole hrow, pure_bind]
    split_ifs
    · refine (downToEnd_goes h hwhole hlast (by omega)).bind fun m₁ h₁ => ?_
      have hwhole₁ : m₁.backing.grid.Whole := h₁.backing.symm ▸ hwhole
      rw [h₁.based.backingRow, pure_bind, windowCopyFindLength_eq hwhole₁ h₁.based.row_lt h₁.based, pure_bind]
      exact (moveInRow_goes h₁.based _).mono fun _ h₂ => h₁.trans h₂
    · exact moveInRow_goes h _
    · exact moveInRow_goes h _
  · exact moveInRow_goes h _

theorem windowCopyCursorLeft_goes (hlast : m.backing.grid.lastLine.wrapped = false) :
    Meets w m.Goes (windowCopyCursorLeft m) := by
  rw [windowCopyCursorLeft]
  split_ifs
  · refine (windowCopyCursorUp_goes h hwhole false).bind fun m₁ h₁ => ?_
    exact (windowCopyCursorEndOfLine_goes h₁.based (h₁.backing.symm ▸ hwhole) (h₁.backing.symm ▸ hlast)).mono
      fun _ h₂ => h₁.trans h₂
  · exact moveInRow_goes h _

theorem windowCopyCursorRight_goes : Meets w m.Goes (windowCopyCursorRight m) := by
  rw [windowCopyCursorRight]
  refine (rightLimit_le h).bind fun px _ => ?_
  split_ifs
  · refine (windowCopyCursorStartOfLine_goes h hwhole).bind fun m₁ h₁ => ?_
    exact (windowCopyCursorDown_goes h₁.based (h₁.backing.symm ▸ hwhole) false).mono fun _ h₂ => h₁.trans h₂
  · exact moveInRow_goes h _

/-! ## Words -/

/-- Skipping characters ends: a step goes to the next column or, past the last one, to the next line. -/
theorem skipSet_goes (hxx : xx ≤ m.screen.grid.sx)
    (hn : (m.backing.grid.hsize + m.backing.grid.sy - 1 - m.row) * (m.screen.grid.sx + 3) + (xx + 2 - px) < n) :
    Meets w (fun p => m.Goes p.1 ∧ ∀ q ∈ p.2, q.2.1 = p.1.row ∧ q.2.2 ≤ m.screen.grid.sx)
      (skipSet separators expected (m.backing.grid.hsize + m.backing.grid.sy - 1) n px m.row xx m) := by
  induction n generalizing m px xx with
  | zero => exact absurd hn (Nat.not_lt_zero _)
  | succ n ih =>
    have hrow := h.row_lt
    rw [skipSet]
    by_cases hpast : px > xx
    · rw [if_pos hpast]
      split_ifs with hend
      · exact .pure ⟨.refl h, nofun⟩
      · refine (windowCopyCursorDown_below hwhole h).bind fun m₁ h₁ => ?_
        have hgoes := h.below.trans (h₁.goes h.below.based)
        have hwhole₁ : m₁.backing.grid.Whole := hgoes.backing.symm ▸ hwhole
        have hrow₁ : m₁.row = m.row + 1 := h₁.row.trans (h.below_row (by omega))
        rw [hgoes.based.backingRow, pure_bind, windowCopyFindLength_eq hwhole₁ hgoes.based.row_lt hgoes.based, pure_bind]
        have hlength := m₁.lineLength_le m₁.row
        have hfuel : (m₁.backing.grid.hsize + m₁.backing.grid.sy - 1 - m₁.row) * (m₁.screen.grid.sx + 3) +
            (m₁.lineLength m₁.row + 2 - 0) < n := by
          obtain ⟨k, hk⟩ := Nat.exists_eq_add_of_lt (by omega : m.row < m.backing.grid.hsize + m.backing.grid.sy - 1)
          rw [hrow₁, hgoes.gridSx] at hlength
          rw [hgoes.backing, hgoes.gridSx, hrow₁]
          rw [show m.backing.grid.hsize + m.backing.grid.sy - 1 - m.row = k + 1 by omega, Nat.succ_mul] at hn
          rw [show m.backing.grid.hsize + m.backing.grid.sy - 1 - (m.row + 1) = k by omega]
          omega
        rw [← hgoes.backing]
        refine (ih hgoes.based hwhole₁ hlength hfuel).mono fun p hp => ⟨hgoes.trans hp.1, fun q hq => ?_⟩
        rw [← hgoes.gridSx]
        exact hp.2 q hq
    · rw [if_neg hpast, windowCopyInSet_eq hwhole hrow, pure_bind]
      split_ifs
      · exact ih h hwhole hxx (by omega)
      · refine .pure ⟨.refl h, ?_⟩
        rintro _ ⟨⟩
        exact ⟨rfl, hxx⟩

theorem skipTwice_goes : Meets w m.Goes (skipTwice m separators expected) := by
  have hfuel : ∀ {m' : CopyMode}, m.Goes m' → ∀ px {xx}, xx ≤ m'.screen.grid.sx →
      (m'.backing.grid.hsize + m'.backing.grid.sy - 1 - m'.row) * (m'.screen.grid.sx + 3) + (xx + 2 - px) <
        skipSteps m' := fun {m'} h' px xx hxx => by
    have hrow := h'.based.row_lt
    have hmul := Nat.mul_le_mul_right (m'.screen.grid.sx + 3)
      (by omega : m'.backing.grid.hsize + m'.backing.grid.sy - 1 - m'.row ≤ m'.backing.grid.hsize + m'.backing.grid.sy)
    rw [skipSteps, h'.based.sx, Nat.succ_mul]
    omega
  have hrow := h.row_lt
  have hlines := h.lines
  rw [skipTwice, h.backingRow, pure_bind, windowCopyFindLength_eq hwhole hrow h, pure_bind, uadd_of_lt hlines,
    usub_of_le (by omega), pure_bind]
  refine (skipSet_goes h hwhole (m.lineLength_le _) (hfuel (.refl h) _ (m.lineLength_le _))).bind fun p h₁ => ?_
  obtain ⟨m₁, found⟩ := p
  cases found with
  | none => exact .pure h₁.1
  | some q =>
    obtain ⟨px, py, xx⟩ := q
    obtain ⟨rfl, hxx⟩ : py = m₁.row ∧ xx ≤ m.screen.grid.sx := h₁.2 _ rfl
    have h₁ := h₁.1
    have hwhole₁ : m₁.backing.grid.Whole := h₁.backing.symm ▸ hwhole
    rw [← h₁.gridSx] at hxx
    dsimp only
    rw [← h₁.backing]
    refine (skipSet_goes h₁.based hwhole₁ hxx (hfuel h₁ px hxx)).bind fun p h₂ => ?_
    obtain ⟨m₂, found⟩ := p
    have hgoes := h₁.trans h₂.1
    cases found with
    | none => exact .pure hgoes
    | some q => exact (moveInRow_goes hgoes.based _).mono fun _ h₃ => hgoes.trans h₃

end

/-! ## All motions -/

theorem Motion.run_ends (motion : Motion) (h : m.Placed) (hwhole : m.backing.grid.Whole)
    (hlast : m.backing.grid.lastLine.wrapped = false) : motion.run m ≠ .fault .hang := by
  have hgoes : ∀ {x}, Meets (.avoid .hang) m.Goes x → x ≠ .fault .hang := fun hx => hx.not_fault fun hne => hne rfl
  cases motion with
  | startOfLine => exact hgoes (windowCopyCursorStartOfLine_goes h.toBased hwhole)
  | endOfLine => exact hgoes (windowCopyCursorEndOfLine_goes h.toBased hwhole hlast)
  | nextWord separators => exact hgoes (skipTwice_goes h.toBased hwhole)
  | nextWordEnd separators => exact hgoes (skipTwice_goes h.toBased hwhole)
  | previousWord separators =>
    exact (windowCopyCursorPreviousWord_place (w := .avoid .hang) h hwhole).not_fault fun hne => hne rfl
  | left => exact hgoes (windowCopyCursorLeft_goes h.toBased hwhole hlast)
  | right => exact hgoes (windowCopyCursorRight_goes h.toBased hwhole)
  | up scrollOnly => exact hgoes (windowCopyCursorUp_goes h.toBased hwhole scrollOnly)
  | down scrollOnly => exact hgoes (windowCopyCursorDown_goes h.toBased hwhole scrollOnly)

/-- Where the motion down does not move the cursor, going down a wrapped line goes on forever. -/
theorem downToEnd_hangs {down : CopyMode → Exec CopyMode} (h : m.Based) (hwhole : m.backing.grid.Whole)
    (hdown : down m = pure m) (hwrapped : (m.line m.row).wrapped = true) (n : ℕ) :
    downToEnd down n m.row m = .fault .hang := by
  have hrow := h.row_lt
  have hroom := hwhole.room
  induction n with
  | zero => rfl
  | succ n ih =>
    rw [downToEnd, uadd_of_lt (by omega), if_pos (by omega), lineWrapped_eq hwhole hrow, pure_bind, if_pos hwrapped, hdown,
      pure_bind, h.backingRow, pure_bind, ih]

/-- Copy mode at the end of the last line. -/
def atLastEnd (backing : Screen) : CopyMode where
  screen := backing
  backing := backing
  cy := backing.grid.sy - 1
  cx := backing.grid.lastLine.trimmed (min backing.grid.lastLine.celldata.length backing.grid.sx)
  lastcx := backing.grid.lastLine.trimmed (min backing.grid.lastLine.celldata.length backing.grid.sx)
  lastsx := backing.grid.sx + 1

theorem atLastEnd_placed {backing : Screen} (h : backing.Sound) : (atLastEnd backing).Placed := by
  have hcy := h.rows.cursor
  have hroom := h.whole.room
  refine ⟨⟨⟨h.rows, h.rows, h.width, rfl, rfl, Nat.lt_of_succ_lt hroom, nofun⟩, ?_, Nat.zero_le _⟩, ?_⟩
  · show backing.grid.sy - 1 < backing.grid.sy
    omega
  · exact (GridLine.trimmed_le _ _).trans (Nat.min_le_right _ _)

/-- There the motion down does nothing. -/
theorem windowCopyCursorDown_atLastEnd {backing : Screen} (h : backing.Sound) :
    (atLastEnd backing).row = backing.grid.hsize + backing.grid.sy - 1 ∧
      (atLastEnd backing).lineLength (atLastEnd backing).row = (atLastEnd backing).cx ∧
      windowCopyCursorDown (atLastEnd backing) false = pure (atLastEnd backing) := by
  have hcy := h.rows.cursor
  have hplaced := atLastEnd_placed h
  have hwhole : (atLastEnd backing).backing.grid.Whole := h.whole
  have hrow : (atLastEnd backing).row = backing.grid.hsize + backing.grid.sy - 1 := by
    show backing.grid.hsize - 0 + (backing.grid.sy - 1) = _
    omega
  have hlength : (atLastEnd backing).lineLength (atLastEnd backing).row = (atLastEnd backing).cx := by
    rw [hrow]
    rfl
  have hfind := windowCopyFindLength_eq hwhole hplaced.toBased.row_lt hplaced.toBased
  rw [hlength] at hfind
  refine ⟨hrow, hlength, ?_⟩
  have hrecall : recallColumn (atLastEnd backing) = pure (atLastEnd backing) := by
    rw [recallColumn, hplaced.toBased.backingRow, pure_bind, hfind, pure_bind]
    simp only [if_neg (not_not_intro rfl : ¬ (atLastEnd backing).cx ≠ (atLastEnd backing).cx)]
    rfl
  have hbottom : (atLastEnd backing).cy = (atLastEnd backing).screen.grid.sy - 1 := rfl
  have hstep : stepDown (atLastEnd backing) false = pure (atLastEnd backing) := by
    rw [stepDown, usub_of_le (Nat.one_le_of_lt hplaced.cy), Exec.forget_pure, pure_bind, if_pos (Or.inr hbottom)]
    rfl
  have hcx : (atLastEnd backing).cx < (atLastEnd backing).lastsx := Nat.lt_succ_of_le hplaced.cx
  rw [windowCopyCursorDown, cursorDownBody, hrecall, pure_bind, hstep, pure_bind, keepToLine,
    if_pos (show (!(atLastEnd backing).sel || !(atLastEnd backing).rectflag) = true from rfl),
    hplaced.toBased.backingRow, pure_bind, hfind, pure_bind, if_neg (by omega)]

/-- All motions end, from all places of a backing screen and for all separators, just if its last line is not
    marked as wrapped. -/
theorem motions_terminate_iff {backing : Screen} (h : backing.Sound) :
    (∀ m : CopyMode, m.Placed → m.backing = backing → ∀ motion : Motion, motion.run m ≠ .fault .hang) ↔
      backing.grid.lastLine.wrapped = false := by
  constructor
  · intro hends
    by_contra hwrapped
    refine hends (atLastEnd backing) (atLastEnd_placed h) rfl .endOfLine ?_
    obtain ⟨hrow, hlength, hdown⟩ := windowCopyCursorDown_atLastEnd h
    have hbased := (atLastEnd_placed h).toBased
    have hwhole : (atLastEnd backing).backing.grid.Whole := h.whole
    have hlast : ((atLastEnd backing).line (atLastEnd backing).row).wrapped = true := by
      rw [hrow]
      exact eq_true_of_ne_false hwrapped
    rw [Motion.run, windowCopyCursorEndOfLine, endOfLineBody, hbased.backingRow, pure_bind,
      windowCopyFindLength_eq hwhole hbased.row_lt hbased, pure_bind, if_pos hlength.symm, endFromEnd,
      lineWrapped_eq hwhole hbased.row_lt, pure_bind, if_pos hlast, downToEnd_hangs hbased hwhole hdown hlast]
    rfl
  · rintro hlast m hm rfl motion
    exact motion.run_ends hm h.whole hlast

theorem motions_terminate_small : ∃ m : CopyMode, m.Placed ∧ (m.line 0).wrapped = true ∧
    Motion.endOfLine.run m ≠ .fault .hang ∧ Motion.left.run m ≠ .fault .hang := by
  have h : (selectionOf [{ lineOfText [97, 98] with wrapped := true }, lineOfText [98, 97]] 2 0 0 2 0).Selects :=
    selectionOf_selects (by decide) (by decide) (by decide) (by decide) (by decide) (by decide) (by decide) (by decide)
  have hends := (motions_terminate_iff ⟨h.based.backing, h.based.sx ▸ h.based.width, h.whole⟩).2 rfl _ ⟨h.based, h.cx⟩ rfl
  exact ⟨_, ⟨h.based, h.cx⟩, rfl, hends _, hends _⟩

/-- A screen whose last line is marked as wrapped, with the cursor at its end. -/
def wrappedScreen : Screen :=
  { screenOfText 3 2 2 1 [] with
    grid := { gridCreate 3 2 0 with
      linedata := [lineOfText [97, 98], { lineOfText [98, 97] with wrapped := true }] } }

/-- There the motion to the end of the line goes on forever. -/
theorem motions_hang : ∃ m : CopyMode, (enterFor .pane {} wrappedScreen false).value? = some m ∧
    Motion.endOfLine.run m = .fault .hang := by
  have hany : ((enterFor .pane {} wrappedScreen false).value?.any fun m =>
      windowCopyCursorEndOfLine m = .fault .hang) = true := by decide +kernel
  obtain ⟨m, hm, hhang⟩ := (Option.any_eq_true _ _).1 hany
  exact ⟨m, hm, of_decide_eq_true hhang⟩

end Tmux
