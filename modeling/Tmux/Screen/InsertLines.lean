import Tmux.Grid.Rows
import Tmux.Screen.Kept
import Tmux.Screen.Text

/-!
# Inserting and deleting lines

Inserting and deleting lines at the cursor (`screenWriteLines`) changes the rows from the cursor to
the bottom of the scroll region, or of the screen if the cursor is not in the region, and
leaves the other rows and the history alone.

Three of the four operations on the grid move lines and clear those that are left alone
(`gridViewInsertLinesRegion_rows`, `gridViewDeleteLines_rows`,
`gridViewDeleteLinesRegion_rows`). Inserting lines on the screen does not clear any
(`gridViewInsertLines_rows`): lines that are neither moved nor written over stay, if more are
inserted than there are after them (`lineEdit_iff`).
-/

namespace Tmux

open Exec (uadd usub forget)

variable {g : Grid} {s : Screen} {py ny rlower : ℕ}

/-! ## The rows of a grid -/

/-- Inserting lines moves those at the row down, but clears none. -/
theorem gridViewInsertLines_rows (h : g.Whole) (hny : py + ny ≤ g.sy) :
    ∃ g', gridViewInsertLines g py ny = pure g' ∧ g.Edited g.hsize g' ∧
      g'.row = Splice.move (some {}) (py + ny) py (g.sy - py - ny) g.row := by
  have hroom := h.room
  obtain ⟨g', hmove, hedited, hrow⟩ := gridMoveLines_rows h (d := py + ny) (p := py) (n := g.sy - py - ny)
    (by omega) (by omega)
  refine ⟨g', ?_, hedited, hrow⟩
  rw [gridViewInsertLines]
  rw [gridViewY_eq h le_rfl, gridViewY_eq h (y := py) (by omega), Exec.usub_of_le (by omega), pure_bind,
    Exec.usub_of_le (by omega), pure_bind, Exec.uadd_of_lt (by omega), Nat.add_assoc,
    show g.hsize + g.sy - (g.hsize + py) - ny = g.sy - py - ny by omega, hmove]

/-- Moving lines and then clearing some is done with two descriptions of the rows in turn. -/
theorem moveClear_rows (h : g.Whole) (hx : 1 ≤ g.sx) {d p n lo hi : ℕ} (hp : p + n ≤ g.sy) (hd : d + n ≤ g.sy)
    (hlo : lo < g.sy) (hpos : 1 ≤ hi) (hhi : hi ≤ g.sy) :
    ∃ g', (gridMoveLines g (g.hsize + d) (g.hsize + p) n >>= fun gd =>
          usub hi lo >>= gridClear gd 0 (g.hsize + lo) gd.sx).value? = some g' ∧
      g.Edited g.hsize g' ∧ g'.row = Splice.fill (some {}) lo hi (Splice.move (some {}) d p n g.row) := by
  obtain ⟨g₁, hmove, h₁, hrow₁⟩ := gridMoveLines_rows h hp hd
  obtain ⟨g₂, hclear, h₂, hrow₂⟩ := gridClear_rows (h₁.whole h) (h₁.sx ▸ hx) (h₁.sy ▸ hlo) hpos (h₁.sy ▸ hhi)
  rw [h₁.hsize] at hclear h₂
  refine ⟨g₂, ?_, h₁.trans h₂, by rw [hrow₂, hrow₁]⟩
  rw [hmove, pure_bind, hclear]

/-- Inserting lines in the region moves those at the row down, and clears the others. -/
theorem gridViewInsertLinesRegion_rows (h : g.Whole) (hx : 1 ≤ g.sx) (hlower : rlower < g.sy) (hpos : 1 ≤ ny)
    (hny : py + ny ≤ rlower + 1) :
    ∃ g', (gridViewInsertLinesRegion g rlower py ny).value? = some g' ∧ g.Edited g.hsize g' ∧
      g'.row = Splice.fill (some {}) (rlower + 1 - ny) (py + ny)
        (Splice.move (some {}) (py + ny) py (rlower + 1 - py - ny) g.row) := by
  have hroom := h.room
  obtain ⟨g', hval, hrest⟩ := moveClear_rows h hx (by omega : py + (rlower + 1 - py - ny) ≤ g.sy)
    (by omega : py + ny + (rlower + 1 - py - ny) ≤ g.sy) (by omega : rlower + 1 - ny < g.sy)
    (by omega : 1 ≤ py + ny) (by omega)
  refine ⟨g', ?_, hrest⟩
  have hcount : usub ny (rlower + 1 - py - ny) = usub (py + ny) (rlower + 1 - ny) := by
    rw [show rlower + 1 - ny = py + (rlower + 1 - py - ny) by omega, usub_add_left (by omega)]
  rw [gridViewInsertLinesRegion]
  rw [gridViewY_eq h hlower.le, gridViewY_eq h (by omega), Exec.uadd_of_lt (b := 1) (by omega),
    Exec.usub_of_le (by omega), pure_bind, Exec.usub_of_le (by omega), pure_bind, Exec.usub_of_le (by omega),
    pure_bind, Exec.uadd_of_lt (by omega),
    show g.hsize + rlower + 1 - (g.hsize + py) - ny = rlower + 1 - py - ny by omega, hcount,
    show g.hsize + rlower + 1 - (rlower + 1 - py - ny) = g.hsize + (py + ny) by omega,
    show g.hsize + py + (rlower + 1 - py - ny) = g.hsize + (rlower + 1 - ny) by omega]
  exact hval

/-- Deleting lines moves those after them up, and clears the others. -/
theorem gridViewDeleteLines_rows (h : g.Whole) (hx : 1 ≤ g.sx) (hpos : 1 ≤ ny) (hny : py + ny ≤ g.sy) :
    ∃ g', (gridViewDeleteLines g py ny).value? = some g' ∧ g.Edited g.hsize g' ∧
      g'.row = Splice.fill (some {}) (g.sy - ny) (py + ny)
        (Splice.move (some {}) py (py + ny) (g.sy - py - ny) g.row) := by
  have hroom := h.room
  obtain ⟨g', hval, hrest⟩ := moveClear_rows h hx (by omega : py + ny + (g.sy - py - ny) ≤ g.sy)
    (by omega : py + (g.sy - py - ny) ≤ g.sy) (by omega : g.sy - ny < g.sy) (by omega : 1 ≤ py + ny) (by omega)
  refine ⟨g', ?_, hrest⟩
  have hcount : usub (g.hsize + (py + ny)) (g.hsize + (g.sy - ny)) = usub (py + ny) (g.sy - ny) :=
    usub_add_left (by omega)
  rw [gridViewDeleteLines]
  rw [gridViewY_eq h le_rfl, gridViewY_eq h (y := py) (by omega), Exec.usub_of_le (by omega), pure_bind,
    Exec.usub_of_le (by omega), pure_bind, Exec.usub_of_le (by omega)]
  simp only [pure_bind]
  rw [Exec.uadd_of_lt (by omega), Nat.add_assoc, show g.hsize + g.sy - (g.hsize + py) - ny = g.sy - py - ny by omega,
    show g.hsize + g.sy - ny = g.hsize + (g.sy - ny) by omega, hcount]
  exact hval

/-- Deleting lines in the region moves those after them up, and clears the others. -/
theorem gridViewDeleteLinesRegion_rows (h : g.Whole) (hx : 1 ≤ g.sx) (hlower : rlower < g.sy) (hpos : 1 ≤ ny)
    (hny : py + ny ≤ rlower + 1) :
    ∃ g', (gridViewDeleteLinesRegion g rlower py ny).value? = some g' ∧ g.Edited g.hsize g' ∧
      g'.row = Splice.fill (some {}) (rlower + 1 - ny) (py + ny)
        (Splice.move (some {}) py (py + ny) (rlower + 1 - py - ny) g.row) := by
  have hroom := h.room
  obtain ⟨g', hval, hrest⟩ := moveClear_rows h hx (by omega : py + ny + (rlower + 1 - py - ny) ≤ g.sy)
    (by omega : py + (rlower + 1 - py - ny) ≤ g.sy) (by omega : rlower + 1 - ny < g.sy)
    (by omega : 1 ≤ py + ny) (by omega)
  refine ⟨g', ?_, hrest⟩
  have hcount : usub ny (rlower + 1 - py - ny) = usub (py + ny) (rlower + 1 - ny) := by
    rw [show rlower + 1 - ny = py + (rlower + 1 - py - ny) by omega, usub_add_left (by omega)]
  rw [gridViewDeleteLinesRegion]
  rw [gridViewY_eq h hlower.le, gridViewY_eq h (by omega), Exec.uadd_of_lt (b := 1) (by omega),
    Exec.usub_of_le (by omega), pure_bind, Exec.usub_of_le (by omega), pure_bind, Exec.uadd_of_lt (by omega),
    Exec.uadd_of_lt (by omega), Nat.add_assoc,
    show g.hsize + rlower + 1 - (g.hsize + py) - ny = rlower + 1 - py - ny by omega, hcount,
    show g.hsize + py + (rlower + 1 - py - ny) = g.hsize + (rlower + 1 - ny) by omega]
  exact hval

/-! ## The rows of the cursor -/

/-- A row of a grid that is blank. -/
def BlankRow (row : Option GridLine) : Prop := row.any GridLine.isBlank = true

instance (row : Option GridLine) : Decidable (BlankRow row) := inferInstanceAs (Decidable (_ = true))

/-- Insert or delete up to ny lines at the cursor. -/
def screenWriteLines (s : Screen) (ny : ℕ) : Splice.Edit → Exec Screen
  | .insert => screenWriteInsertline s ny
  | .delete => screenWriteDeleteline s ny

/-- Whether the cursor is outside the scroll region. -/
def Screen.outside (s : Screen) : Bool := s.cy < s.rupper ∨ s.cy > s.rlower

/-- The last row affected by inserting or deleting lines at the cursor. -/
def Screen.lastRow (s : Screen) : ℕ := if s.outside then s.grid.sy - 1 else s.rlower

/-- The number of lines inserted or deleted, if `ny` are asked for. -/
def Screen.lineCount (s : Screen) (ny : ℕ) : ℕ := limit (atLeastOne ny) (s.lastRow + 1 - s.cy)

/-- What inserting or deleting lines at the cursor makes of a screen. -/
structure Screen.LinesEdited (s : Screen) (ny : ℕ) (edit : Splice.Edit) (s' : Screen) : Prop where
  rest : s' = { s with grid := s'.grid }
  grid : s.grid.Edited s.grid.hsize s'.grid
  rows : edit.Done BlankRow s.cy (s.lineCount ny) (s.lastRow + 1) s.grid.row s'.grid.row
  below : ∀ r, s.lastRow < r → s'.grid.row r = s.grid.row r

/-- A line is left as it is where a blank one is inserted. -/
def Screen.KeepsLine (s : Screen) (ny : ℕ) : Prop :=
  s.outside = true ∧ ∃ r, s.grid.sy ≤ r + s.lineCount ny ∧ r < s.cy + s.lineCount ny ∧ ¬ BlankRow (s.grid.row r)

theorem atLeastOne_pos (n : ℕ) : 1 ≤ atLeastOne n := by
  unfold atLeastOne
  split_ifs <;> omega

theorem forget_eq_pure {α : Type} {x : Exec α} {a : α} : forget x = pure a ↔ x.value? = some a := by
  cases x with
  | fault f => simp [forget, Exec.pure_eq_done]
  | done b a' => simp [forget, Exec.value?, Exec.pure_eq_done]

/-- What the edit of the rows on the grid makes of the screen. -/
theorem editLines_eq (h : s.Sound) {f : Grid → ℕ → ℕ → Exec Grid} {region : Grid → ℕ → ℕ → ℕ → Exec Grid}
    {g' : Grid} (hout : s.outside = true → (f s.grid s.cy (s.lineCount ny)).value? = some g')
    (hin : s.outside = false → (region s.grid s.rlower s.cy (s.lineCount ny)).value? = some g') :
    forget (editLines f region s ny) = pure { s with grid := g' } := by
  have hcursor := h.rows.cursor
  have hbottom := h.rows.bottom
  have hroom := h.whole.room
  have hpos := atLeastOne_pos ny
  rw [forget_eq_pure, editLines]
  by_cases hcy : s.cy < s.rupper ∨ s.cy > s.rlower
  · have houtside : s.outside = true := decide_eq_true hcy
    have hcount : s.lineCount ny = limit (atLeastOne ny) (s.grid.sy - s.cy) := by
      rw [Screen.lineCount, Screen.lastRow, if_pos houtside]
      congr 1
      omega
    have hne : ¬ limit (atLeastOne ny) (s.grid.sy - s.cy) = 0 := by
      rw [limit_eq_min]
      omega
    have hval := hout houtside
    rw [hcount] at hval
    rw [if_pos hcy, Exec.usub_of_le hcursor.le, pure_bind]
    dsimp only
    rw [if_neg hne, Exec.value?_bind]
    exact ⟨g', hval, rfl⟩
  · have hinside : s.outside = false := decide_eq_false hcy
    have hcount : s.lineCount ny = limit (atLeastOne ny) (s.rlower + 1 - s.cy) := by
      rw [Screen.lineCount, Screen.lastRow, hinside]
      rfl
    have hne : ¬ limit (atLeastOne ny) (s.rlower + 1 - s.cy) = 0 := by
      rw [limit_eq_min]
      omega
    have hval := hin hinside
    rw [hcount] at hval
    rw [if_neg hcy, Exec.uadd_of_lt (by omega), Exec.usub_of_le (by omega), pure_bind]
    dsimp only
    rw [if_neg hne, Exec.value?_bind]
    exact ⟨g', hval, rfl⟩

/-- The lines inserted or deleted are some, and no more than there are from the cursor on. -/
theorem Screen.Sound.lineCount_le (h : s.Sound) (ny : ℕ) :
    1 ≤ s.lineCount ny ∧ s.cy + s.lineCount ny ≤ s.lastRow + 1 ∧ s.lastRow < s.grid.sy := by
  have hcursor := h.rows.cursor
  have hbottom := h.rows.bottom
  have hpos := atLeastOne_pos ny
  rw [Screen.lineCount, limit_eq_min]
  have hlast : s.cy ≤ s.lastRow ∧ s.lastRow < s.grid.sy := by
    unfold Screen.lastRow
    split_ifs with hout
    · omega
    · have hin : ¬ (s.cy < s.rupper ∨ s.cy > s.rlower) := fun hcy => hout (decide_eq_true hcy)
      omega
  omega

theorem Screen.lastRow_outside (h : s.Sound) (hout : s.outside = true) : s.lastRow + 1 = s.grid.sy := by
  have hcursor := h.rows.cursor
  rw [Screen.lastRow, if_pos hout]
  omega

theorem Screen.lastRow_inside (hin : s.outside = false) : s.lastRow = s.rlower := by
  rw [Screen.lastRow, hin]
  rfl

/-- Deleting lines moves those after them up and clears those that are left alone. -/
theorem screenWriteDeleteline_rows (h : s.Sound) (ny : ℕ) :
    ∃ g', screenWriteDeleteline s ny = pure { s with grid := g' } ∧ s.grid.Edited s.grid.hsize g' ∧
      g'.row = Splice.fill (some {}) (s.lastRow + 1 - s.lineCount ny) (s.cy + s.lineCount ny)
        (Splice.move (some {}) s.cy (s.cy + s.lineCount ny) (s.lastRow + 1 - s.cy - s.lineCount ny) s.grid.row) := by
  obtain ⟨hpos, hle, hlast⟩ := h.lineCount_le ny
  cases hout : s.outside with
  | true =>
    have hsy := Screen.lastRow_outside h hout
    obtain ⟨g', hval, hrest⟩ := gridViewDeleteLines_rows h.whole h.width hpos (hsy ▸ hle)
    rw [hsy]
    exact ⟨g', editLines_eq h (fun _ => hval) (by simp [hout]), hrest⟩
  | false =>
    have hlower := Screen.lastRow_inside hout
    obtain ⟨g', hval, hrest⟩ :=
      gridViewDeleteLinesRegion_rows h.whole h.width h.rows.bottom hpos (hlower ▸ hle)
    rw [hlower]
    exact ⟨g', editLines_eq h (by simp [hout]) (fun _ => hval), hrest⟩

/-- In the scroll region, inserting lines moves others down and clears those that are left alone. -/
theorem screenWriteInsertline_inside (h : s.Sound) (hin : s.outside = false) (ny : ℕ) :
    ∃ g', screenWriteInsertline s ny = pure { s with grid := g' } ∧ s.grid.Edited s.grid.hsize g' ∧
      g'.row = Splice.fill (some {}) (s.lastRow + 1 - s.lineCount ny) (s.cy + s.lineCount ny)
        (Splice.move (some {}) (s.cy + s.lineCount ny) s.cy (s.lastRow + 1 - s.cy - s.lineCount ny) s.grid.row) := by
  obtain ⟨hpos, hle, hlast⟩ := h.lineCount_le ny
  have hlower := Screen.lastRow_inside hin
  obtain ⟨g', hval, hrest⟩ :=
    gridViewInsertLinesRegion_rows h.whole h.width h.rows.bottom hpos (hlower ▸ hle)
  rw [hlower]
  exact ⟨g', editLines_eq h (by simp [hin]) (fun _ => hval), hrest⟩

/-- Outside the scroll region, inserting lines moves others down only. -/
theorem screenWriteInsertline_outside (h : s.Sound) (hout : s.outside = true) (ny : ℕ) :
    ∃ g', screenWriteInsertline s ny = pure { s with grid := g' } ∧ s.grid.Edited s.grid.hsize g' ∧
      g'.row = Splice.move (some {}) (s.cy + s.lineCount ny) s.cy (s.lastRow + 1 - s.cy - s.lineCount ny)
        s.grid.row := by
  obtain ⟨hpos, hle, hlast⟩ := h.lineCount_le ny
  have hsy := Screen.lastRow_outside h hout
  obtain ⟨g', hmove, hrest⟩ := gridViewInsertLines_rows h.whole (hsy ▸ hle)
  rw [hsy]
  exact ⟨g', editLines_eq h (fun _ => by rw [hmove]; rfl) (by simp [hout]), hrest⟩

theorem blankRow_new : BlankRow (some {}) := by decide

/-- Inserting and deleting lines at the cursor moves the lines from there to the last row
    affected, and leaves blank ones, unless a line is kept where a blank one is inserted: this is so
    only if the cursor is outside the scroll region, for lines that are not moved. -/
theorem lineEdit_iff (h : s.Sound) (ny : ℕ) (edit : Splice.Edit) :
    (∃ s', screenWriteLines s ny edit = pure s' ∧ s.LinesEdited ny edit s') ↔
      ¬ (edit = .insert ∧ s.KeepsLine ny) := by
  obtain ⟨hpos, hle, hlast⟩ := h.lineCount_le ny
  -- The rows after the last one affected are neither moved nor filled.
  have hbelow : ∀ {d src : ℕ}, d ≤ s.cy + s.lineCount ny → src ≤ s.cy + s.lineCount ny → ∀ r, s.lastRow < r →
      Splice.move (some {}) d src (s.lastRow + 1 - s.cy - s.lineCount ny) s.grid.row r = s.grid.row r :=
    fun hd hsrc r hr => Splice.move_of_le (by omega) (by omega)
  have hfilled : ∀ {old : ℕ → Option GridLine} {r : ℕ}, s.lastRow < r →
      Splice.fill (some {}) (s.lastRow + 1 - s.lineCount ny) (s.cy + s.lineCount ny) old r = old r :=
    fun hr => if_neg (by omega)
  cases edit with
  | delete =>
    obtain ⟨g', hrun, hedited, hrow⟩ := screenWriteDeleteline_rows h ny
    refine iff_of_true ⟨_, hrun, rfl, hedited, ?_, fun r hr => ?_⟩ (by simp)
    · rw [hrow]
      exact Splice.deleted_fill blankRow_new hle
    · rw [hrow, hfilled hr, hbelow (by omega) le_rfl r hr]
  | insert =>
    cases hout : s.outside with
    | false =>
      obtain ⟨g', hrun, hedited, hrow⟩ := screenWriteInsertline_inside h hout ny
      refine iff_of_true ⟨_, hrun, rfl, hedited, ?_, fun r hr => ?_⟩ (by simp [Screen.KeepsLine, hout])
      · rw [hrow]
        exact Splice.inserted_fill blankRow_new hle
      · rw [hrow, hfilled hr, hbelow le_rfl (by omega) r hr]
    | true =>
      obtain ⟨g', hrun, hedited, hrow⟩ := screenWriteInsertline_outside h hout ny
      have hsy := Screen.lastRow_outside h hout
      have hiff : Splice.Inserted _ s.cy (s.lineCount ny) _ s.grid.row _ ↔ _ :=
        Splice.inserted_move_iff blankRow_new hle
      rw [← hrow] at hiff
      constructor
      · rintro ⟨s', hrun', hdone⟩ ⟨-, -, r, hr, hrn, hkept⟩
        obtain rfl := Exec.pure_injective (hrun.symm.trans hrun')
        exact hkept (hiff.1 hdone.rows r (by omega) hrn)
      · intro hkeeps
        refine ⟨_, hrun, rfl, hedited, hiff.2 fun r hr hrn => ?_, fun r hr => ?_⟩
        · by_contra hkept
          exact hkeeps ⟨rfl, hout, r, by omega, hrn, hkept⟩
        · rw [hrow, hbelow le_rfl (by omega) r hr]

/-- A screen of three rows with the cursor on the last one, which is below the scroll region or in
    it. -/
def threeRows (rlower : ℕ) : Screen := { screenOfText 5 3 0 2 [[97], [98], [99]] with rlower }

theorem threeRows_sound {rlower : ℕ} (h : rlower = 1 ∨ rlower = 2) : (threeRows rlower).Sound := by
  rcases h with rfl | rfl
  all_goals exact ⟨⟨by decide, by decide, by decide, by decide⟩, by decide, ⟨by decide, by decide⟩⟩

/-- In the scroll region the last line is lost for a blank one. -/
theorem lineEdit_small :
    ∃ s', screenWriteLines (threeRows 2) 1 .insert = pure s' ∧ (threeRows 2).LinesEdited 1 .insert s' :=
  (lineEdit_iff (threeRows_sound (.inr rfl)) 1 .insert).2 (by
    rintro ⟨-, hout, -⟩
    exact absurd hout (by decide))

/-- Below the region it is not: inserting a line at the bottom of the screen does nothing. -/
theorem lineEdit_keeps : (threeRows 1).Sound ∧
    ¬ ∃ s', screenWriteLines (threeRows 1) 1 .insert = pure s' ∧ (threeRows 1).LinesEdited 1 .insert s' := by
  refine ⟨threeRows_sound (.inl rfl), ?_⟩
  rintro ⟨s', hrun, hdone⟩
  have hsame : screenWriteLines (threeRows 1) 1 .insert = pure (threeRows 1) := by decide
  obtain rfl := Exec.pure_injective (hsame.symm.trans hrun)
  exact absurd (hdone.rows.fresh 2 (by decide) (by decide)) (by decide)

end Tmux
