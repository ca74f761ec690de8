import Tmux.Copy.Copied
import Tmux.Copy.Lines
import Tmux.Copy.PositionRun
import Tmux.Library.Nearest

/-!
# The previous word

From the cursor the previous word is looked for back to the start of its line, and then in the lines
above. Where it starts is the last place before the cursor where a word does, unless that is in the
first line of the history (`windowCopyCursorPreviousWord_iff`): this one is not looked at, except by a
cursor that came to it otherwise, or with all of the history scrolled through.
-/

namespace Tmux

open Exec (Meets)
open Nearest (Greatest)

variable {m m' : CopyMode} {w : Exec.Allowed} {separators : List UInt8} {n px py : ℕ}

/-! ## Words -/

/-- Whether the character in a column of a line is in a set. -/
def CopyMode.inSet (m : CopyMode) (set : List UInt8) (px py : ℕ) : Bool :=
  let gc := (m.line py).cell px
  !gc.isPadding && !gc.isUtf8 && gc.data != 0 && gc.data != 0x7f && set.contains gc.data

/-- The places before the cursor where a word starts: the first one of a line that is not a separator, and
    those after a separator. -/
def wordStarts (m : CopyMode) (separators : List UInt8) : Set (ℕ ×ₗ ℕ) :=
  {p | ((ofLex p).1 < m.row ∧ (ofLex p).2 < m.lineLength (ofLex p).1 ∨ (ofLex p).1 = m.row ∧ (ofLex p).2 < m.cx) ∧
    m.inSet separators (ofLex p).2 (ofLex p).1 = false ∧
    ((ofLex p).2 = 0 ∨ m.inSet separators ((ofLex p).2 - 1) (ofLex p).1 = true)}

/-- The first line that is looked at. -/
def CopyMode.firstLine (m : CopyMode) : ℕ := if m.oy < m.backing.grid.hsize then 1 else 0

/-- The places that are not separators, in the lines looked at before one, and in this one up to a column. -/
def wordCells (m : CopyMode) (separators : List UInt8) (px py : ℕ) : Set (ℕ ×ₗ ℕ) :=
  {p | m.firstLine ≤ (ofLex p).1 ∧
    ((ofLex p).1 < py ∧ (ofLex p).2 < m.lineLength (ofLex p).1 ∨ (ofLex p).1 = py ∧ (ofLex p).2 < px) ∧
    m.inSet separators (ofLex p).2 (ofLex p).1 = false}

theorem atTop_iff (h : m.Based) : atTop m = true ↔ m.row = m.firstLine := by
  have hoy := h.oy
  rw [atTop, CopyMode.row, CopyMode.firstLine, decide_eq_true_eq]
  split_ifs <;> omega

theorem CopyMode.above_firstLine (hnot : atTop m = false) : m.above.firstLine = m.firstLine := by
  rw [atTop, decide_eq_false_iff_not] at hnot
  rw [CopyMode.above, CopyMode.firstLine, CopyMode.firstLine]
  by_cases hcy : m.cy = 0
  · rw [if_pos hcy]
    dsimp only
    split_ifs <;> omega
  · rw [if_neg hcy]

theorem CopyMode.Goes.inSet (h : m.Goes m') (px py : ℕ) : m'.inSet separators px py = m.inSet separators px py := by
  rw [CopyMode.inSet, CopyMode.inSet, h.line]

section

variable (hwhole : m.backing.grid.Whole) (hpy : py < m.backing.grid.hsize + m.backing.grid.sy)

include hwhole hpy

theorem windowCopyInSet_eq (px : ℕ) : windowCopyInSet m px py separators = pure (m.inSet separators px py) := by
  rw [windowCopyInSet, gridPeekCell_line hwhole hpy, pure_bind]
  rfl

/-- A word starts after the last separator before a place, or with its line. -/
theorem wordStart_eq (px : ℕ) : ∃ x, wordStart m py separators px = pure x ∧ x ≤ px ∧
    (x = 0 ∨ m.inSet separators (x - 1) py = true) ∧ ∀ c, x ≤ c → c < px → m.inSet separators c py = false := by
  induction px with
  | zero => exact ⟨0, rfl, le_rfl, .inl rfl, fun c _ hc => absurd hc (Nat.not_lt_zero c)⟩
  | succ px ih =>
    rw [wordStart, windowCopyInSet_eq hwhole hpy, pure_bind]
    by_cases hfound : m.inSet separators px py = true
    · rw [if_pos hfound]
      exact ⟨px + 1, rfl, le_rfl, .inr hfound, fun c hc hc' => absurd hc' (by omega)⟩
    · rw [if_neg hfound]
      obtain ⟨x, heq, hle, hstart, hword⟩ := ih
      refine ⟨x, heq, by omega, hstart, fun c hc hc' => ?_⟩
      rcases Nat.lt_succ_iff_lt_or_eq.1 hc' with hlt | rfl
      · exact hword c hc hlt
      · simpa using hfound

end

/-! ## Going back -/

/-- Going back finds the last place that is not a separator. -/
theorem backToWord_greatest [w.Lenient] (h : m.Based) (hwhole : m.backing.grid.Whole)
    (hn : m.row * (m.screen.grid.sx + 3) + px < n) :
    Meets w (fun p => m.Goes p.1 ∧ (∀ q ∈ p.2, p.1.row = q.2) ∧ (p.2 = none → p.1.row = m.firstLine) ∧
      Greatest (wordCells m separators px m.row) (p.2.map fun q => toLex (q.2, q.1)))
      (backToWord separators n px m.row m) := by
  induction n generalizing m px with
  | zero => exact absurd hn (Nat.not_lt_zero _)
  | succ n ih =>
    rw [backToWord]
    have hlow : m.firstLine ≤ m.row := by
      have hoy := h.oy
      rw [CopyMode.firstLine, CopyMode.row]
      split_ifs <;> omega
    by_cases hpx : px > 0
    · rw [if_pos hpx, windowCopyInSet_eq hwhole h.row_lt, pure_bind]
      cases hfound : m.inSet separators (px - 1) m.row with
      | false =>
        refine .pure ⟨.refl h, ?_, fun hnone => absurd hnone (Option.some_ne_none _),
          Nearest.greatest_some ⟨⟨hlow, .inr ⟨rfl, ?_⟩, hfound⟩, fun q hq => ?_⟩⟩
        · rintro _ ⟨⟩
          rfl
        · show px - 1 < px
          omega
        · rw [Prod.Lex.le_iff]
          rcases hq.2.1 with ⟨hlt, -⟩ | ⟨heq, hlt⟩
          · exact .inl hlt
          · exact .inr ⟨heq, Nat.le_sub_one_of_lt hlt⟩
      | true =>
        have hsame : wordCells m separators px m.row = wordCells m separators (px - 1) m.row := by
          refine Set.ext fun q => and_congr_right fun _ => and_congr_left fun hq => or_congr_right ?_
          refine and_congr_right fun hrow => ⟨fun hlt => ?_, fun hlt => by omega⟩
          refine lt_of_le_of_ne (Nat.le_sub_one_of_lt hlt) fun heq => ?_
          rw [heq, hrow, hfound] at hq
          cases hq
        rw [hsame]
        exact ih h hwhole (by omega)
    · obtain rfl : px = 0 := by omega
      rw [if_neg hpx]
      cases htop : atTop m with
      | true =>
        have hrow := (atTop_iff h).1 htop
        refine .pure ⟨.refl h, fun _ hq => absurd hq (Option.not_mem_none _), fun _ => hrow, by simp,
          fun _ => Set.eq_empty_of_forall_notMem fun q hq => ?_⟩
        have hlow := hq.1
        rcases hq.2.1 with ⟨hlt, -⟩ | ⟨-, hlt⟩
        · omega
        · exact Nat.not_lt_zero _ hlt
      | false =>
        have hpos : m.firstLine < m.row :=
          lt_of_le_of_ne hlow fun heq => Bool.false_ne_true (htop.symm.trans ((atTop_iff h).2 heq.symm))
        refine (windowCopyCursorUp_above hwhole h).bind fun m₁ h₁ => ?_
        have hgoes := h.above.trans (h₁.goes h.above.based)
        have hrow : m₁.row = m.row - 1 := h₁.row.trans m.above_row
        have hwhole₁ : m₁.backing.grid.Whole := hgoes.backing.symm ▸ hwhole
        have hfirst : m₁.firstLine = m.firstLine := by
          rw [← CopyMode.above_firstLine htop]
          obtain ⟨s, cx, lastcx, lastsx, -, rfl⟩ := h₁
          rfl
        rw [hgoes.based.backingRow, pure_bind, windowCopyFindLength_eq hwhole₁ hgoes.based.row_lt hgoes.based, pure_bind]
        have hlength := m₁.lineLength_le m₁.row
        have hfuel : m₁.row * (m₁.screen.grid.sx + 3) + m₁.lineLength m₁.row < n := by
          obtain ⟨k, hk⟩ := Nat.exists_eq_add_of_lt hpos
          rw [hgoes.gridSx] at hlength ⊢
          rw [show m.row = m₁.row + 1 by omega, Nat.succ_mul] at hn
          omega
        have hsame : wordCells m₁ separators (m₁.lineLength m₁.row) m₁.row = wordCells m separators 0 m.row := by
          refine Set.ext fun q => and_congr (by rw [hfirst]) (and_congr ?_ (by rw [hgoes.inSet]))
          rw [hrow, hgoes.lineLength, hgoes.lineLength]
          constructor
          · rintro (⟨hlt, hlen⟩ | ⟨heq, hlen⟩)
            · exact .inl ⟨by omega, hlen⟩
            · exact .inl ⟨by omega, heq ▸ hlen⟩
          · rintro (⟨hlt, hlen⟩ | ⟨-, hlen⟩)
            · rcases Nat.lt_or_eq_of_le (Nat.le_sub_one_of_lt hlt) with hlt | heq
              · exact .inl ⟨hlt, hlen⟩
              · exact .inr ⟨heq, heq ▸ hlen⟩
            · exact absurd hlen (Nat.not_lt_zero _)
        refine (ih hgoes.based hwhole₁ hfuel).mono fun p hp => ?_
        obtain ⟨hgoes', hsome, hnone, hgreatest⟩ := hp
        exact ⟨hgoes.trans hgoes', hsome, fun h => (hnone h).trans hfirst, hsame ▸ hgreatest⟩

/-- The motion goes to the last place where a word starts, if there is one in the lines looked at. -/
theorem windowCopyCursorPreviousWord_place [w.Lenient] (h : m.Placed) (hwhole : m.backing.grid.Whole) :
    Meets w (fun m' => m.firstLine ≤ (ofLex m'.place).1 ∧
      ∀ p ∈ wordStarts m separators, m.firstLine ≤ (ofLex p).1 → IsGreatest (wordStarts m separators) m'.place)
      (windowCopyCursorPreviousWord m separators) := by
  have hcx := h.cx
  have hfuel : m.row * (m.screen.grid.sx + 3) + m.cx < skipSteps m := by
    have hrow := h.toBased.row_lt
    rw [skipSteps, h.sx]
    have hmul := Nat.mul_le_mul_right (m.screen.grid.sx + 3) hrow.le
    rw [Nat.succ_mul]
    omega
  have hcells : ∀ p ∈ wordStarts m separators, m.firstLine ≤ (ofLex p).1 → p ∈ wordCells m separators m.cx m.row :=
    fun p hp hlow => ⟨hlow, hp.1, hp.2.1⟩
  rw [windowCopyCursorPreviousWord, h.toBased.backingRow, pure_bind]
  refine (backToWord_greatest h.toBased hwhole hfuel).bind fun ⟨m₁, found⟩ h₁ => ?_
  obtain ⟨hgoes, hsome, hnone, hgreatest⟩ := h₁
  cases found with
  | none =>
    refine (moveInRow_sameLine hgoes.based 0).mono fun m₂ h₂ => ?_
    have hrow : (ofLex m₂.place).1 = m.firstLine := h₂.1.row.trans (hnone rfl)
    refine ⟨hrow.ge, fun p hp hlow => ?_⟩
    exact absurd (hcells p hp hlow) (Set.eq_empty_iff_forall_notMem.1 (hgreatest.2 rfl) p)
  | some q =>
    obtain ⟨px, py⟩ := q
    obtain rfl : m₁.row = py := hsome _ rfl
    obtain ⟨⟨hlow, hcol, hcell⟩, hupper⟩ := hgreatest.1 _ rfl
    have hwhole₁ : m₁.backing.grid.Whole := hgoes.backing.symm ▸ hwhole
    obtain ⟨x, heq, hle, hstart, hword⟩ : ∃ x, wordStart m₁ m₁.row separators px = pure x ∧ _ :=
      wordStart_eq hwhole₁ hgoes.based.row_lt px
    dsimp only
    rw [heq, pure_bind]
    refine (moveInRow_sameLine hgoes.based x).mono fun m₂ h₂ => ?_
    have hplace : m₂.place = toLex (m₁.row, x) := congrArg toLex (Prod.ext h₂.1.row h₂.2)
    rw [hplace]
    simp only [hgoes.inSet] at hstart hword
    refine ⟨hlow, fun p hp _ => ⟨⟨?_, ?_, hstart⟩, fun q hq => ?_⟩⟩
    · exact hcol.imp (fun h => ⟨h.1, lt_of_le_of_lt hle h.2⟩) fun h => ⟨h.1, lt_of_le_of_lt hle h.2⟩
    · rcases Nat.lt_or_eq_of_le hle with hlt | rfl
      · exact hword x le_rfl hlt
      · exact hcell
    · rw [Prod.Lex.le_iff]
      by_cases hlowq : m.firstLine ≤ (ofLex q).1
      · rcases Prod.Lex.le_iff.1 (hupper (hcells q hq hlowq)) with hlt | ⟨hrow, hlast⟩
        · exact .inl hlt
        · refine .inr ⟨hrow, not_lt.1 fun hgt => ?_⟩
          -- What is before it in the word is no separator.
          have hrow : (ofLex q).1 = m₁.row := hrow
          have hlast : (ofLex q).2 ≤ px := hlast
          have hgt : x < (ofLex q).2 := hgt
          have hbefore := hq.2.2.resolve_left (by omega)
          rw [hrow, hword _ (by omega) (by omega)] at hbefore
          cases hbefore
      · exact .inl (lt_of_lt_of_le (not_le.1 hlowq) hlow)

/-- The motion never hangs, and goes to the last place before the cursor where a word starts, if there is
    one, just if all of the history is scrolled through or the place is not in the first line only. -/
theorem windowCopyCursorPreviousWord_iff (h : m.Placed) (hwhole : m.backing.grid.Whole) (separators : List UInt8) :
    windowCopyCursorPreviousWord m separators ≠ .fault .hang ∧
      ∀ m', (windowCopyCursorPreviousWord m separators).value? = some m' →
        (((wordStarts m separators).Nonempty → IsGreatest (wordStarts m separators) m'.place) ↔
          ((wordStarts m separators).Nonempty → m.backing.grid.hsize ≤ m.oy ∨
            ∃ p ∈ wordStarts m separators, 1 ≤ (ofLex p).1)) := by
  have hplace : Meets (.avoid .hang) _ (windowCopyCursorPreviousWord m separators) :=
    windowCopyCursorPreviousWord_place h hwhole
  refine ⟨hplace.not_fault fun hne => hne rfl, fun m' hm' => ?_⟩
  obtain ⟨hlow, hgreatest⟩ := hplace.value hm'
  rw [CopyMode.firstLine] at hlow hgreatest
  refine forall_congr' fun hsome => ⟨fun hplace => ?_, fun hreach => ?_⟩
  · by_cases hoy : m.oy < m.backing.grid.hsize
    · rw [if_pos hoy] at hlow
      exact .inr ⟨_, hplace.1, hlow⟩
    · exact .inl (not_lt.1 hoy)
  · by_cases hoy : m.oy < m.backing.grid.hsize
    · rw [if_pos hoy] at hgreatest
      obtain ⟨p, hp, hpos⟩ := hreach.resolve_left (by omega)
      exact hgreatest p hp hpos
    · rw [if_neg hoy] at hgreatest
      obtain ⟨p, hp⟩ := hsome
      exact hgreatest p hp (Nat.zero_le _)

instance (m : CopyMode) (separators : List UInt8) : DecidablePred (· ∈ wordStarts m separators) := fun _ =>
  inferInstanceAs (Decidable (_ ∧ _))

/-- From the end of a line the cursor goes to the start of its last word. -/
theorem windowCopyCursorPreviousWord_small : ∃ m m',
    (windowCopyCursorPreviousWord m [32]).value? = some m' ∧ IsGreatest (wordStarts m [32]) m'.place := by
  have hany : ((enterFor .pane {} (screenOfText 6 2 5 1 [[97], [98], [97, 98, 32, 99, 100]]) false).value?.any fun m =>
      m.backing.grid.hsize + m.backing.grid.sy ≤ m.backing.grid.linedata.length ∧
      m.backing.grid.hsize + m.backing.grid.sy + 1 < Exec.word ∧ toLex (2, 3) ∈ wordStarts m [32] ∧
      (windowCopyCursorPreviousWord m [32]).value?.isSome) = true := by decide +kernel
  obtain ⟨m, hm, hcond⟩ := (Option.any_eq_true _ _).1 hany
  obtain ⟨hlength, hroom, hmem, hsome⟩ := of_decide_eq_true hcond
  obtain ⟨m', hm'⟩ := Option.isSome_iff_exists.1 hsome
  have hbase : (screenOfText 6 2 5 1 [[97], [98], [97, 98, 32, 99, 100]]).Entered :=
    screenOfText_entered (by decide) (by decide) (by decide) (by decide)
  have hplaced := enterFor_placed hbase .pane {} false
  have h : m.Placed := Meets.value hplaced hm
  exact ⟨m, m', hm', ((windowCopyCursorPreviousWord_iff h ⟨hlength, hroom⟩ [32]).2 m' hm').2
    (fun _ => .inr ⟨_, hmem, by decide⟩) ⟨_, hmem⟩⟩

/-- The only word is in the first line of the history, which the cursor does not go to. -/
theorem windowCopyCursorPreviousWord_misses : ∃ m m',
    (enterFor .pane {} (screenOfText 3 1 0 0 [[97, 98], [], [99]]) false).value? = some m ∧
    (windowCopyCursorPreviousWord m [32]).value? = some m' ∧ toLex (0, 0) ∈ wordStarts m [32] ∧
    m'.place = toLex (1, 0) ∧ ¬ IsGreatest (wordStarts m [32]) m'.place := by
  have hany : ((enterFor .pane {} (screenOfText 3 1 0 0 [[97, 98], [], [99]]) false).value?.any fun m =>
      toLex (0, 0) ∈ wordStarts m [32] ∧ toLex (1, 0) ∉ wordStarts m [32] ∧
      (windowCopyCursorPreviousWord m [32]).value?.map CopyMode.place = some (toLex (1, 0))) = true := by decide +kernel
  obtain ⟨m, hm, hcond⟩ := (Option.any_eq_true _ _).1 hany
  obtain ⟨hmem, hnot, hplace⟩ := of_decide_eq_true hcond
  obtain ⟨m', hm', hplace⟩ := Option.map_eq_some_iff.1 hplace
  exact ⟨m, m', hm, hm', hmem, hplace, fun hgreatest => hnot (hplace ▸ hgreatest.1)⟩

end Tmux
