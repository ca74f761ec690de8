import Tmux.Screen.InsertLines

/-!
# The lines of a screen that gets another height

With a history, `screenResizeY` moves the boundary between it and the screen and cuts or
adds lines at the end only: the row of the cursor is the same one of the grid as before, so
all lines that are cut are below it. Without, the lines below the cursor are cut first, and
then those at the top of the screen (`screenResizeY_lines`).
-/

namespace Tmux

open Exec (uadd usub)

variable {g g' : Grid} {s s' : Screen} {sy needed i r : ℕ}

/-- The lines of a grid, those of the history and those on the screen. -/
def Grid.lines (g : Grid) : List GridLine := g.linedata.take (g.hsize + g.sy)

/-- The lines on the screen. -/
def Grid.visible (g : Grid) : List GridLine := g.lines.drop g.hsize

theorem Grid.getElem?_lines (g : Grid) (i : ℕ) :
    g.lines[i]? = if i < g.hsize + g.sy then g.linedata[i]? else none := List.getElem?_take

theorem Grid.getElem?_visible (g : Grid) (r : ℕ) : g.visible[r]? = if r < g.sy then g.row r else none := by
  rw [visible, List.getElem?_drop, getElem?_lines, Grid.row]
  split_ifs <;> first | rfl | omega

/-- The number of lines below the cursor that are cut for a height. -/
def Screen.cutBottom (s : Screen) (sy : ℕ) : ℕ := min (s.grid.sy - 1 - s.cy) (s.grid.sy - sy)

/-- The number of lines that are then left to be taken from the top. -/
def Screen.cutTop (s : Screen) (sy : ℕ) : ℕ := s.grid.sy - sy - s.cutBottom sy

/-! ## A screen that gets lower -/

theorem deleteBottom_rows (h : s.Sound) (hneeded : 1 ≤ needed) :
    ∃ g', (deleteBottom s needed).value? = some (g', min (s.grid.sy - 1 - s.cy) needed) ∧
      s.grid.Edited s.grid.hsize g' ∧
      ∀ r < s.grid.sy - min (s.grid.sy - 1 - s.cy) needed, g'.row r = s.grid.row r := by
  have hcursor := h.rows.cursor
  rw [deleteBottom, Exec.usub_of_le (by omega), pure_bind, Exec.usub_of_le (by omega), pure_bind]
  by_cases hnone : s.grid.sy - 1 - s.cy = 0
  · rw [if_pos hnone, hnone, Nat.zero_min]
    exact ⟨s.grid, rfl, .refl _, fun _ _ => rfl⟩
  · have hmin : (if s.grid.sy - 1 - s.cy > needed then needed else s.grid.sy - 1 - s.cy) =
        min (s.grid.sy - 1 - s.cy) needed := by
      split_ifs <;> omega
    rw [if_neg hnone]
    dsimp only
    rw [hmin, Exec.usub_of_le (by omega), pure_bind]
    obtain ⟨g', hval, hedited, hrow⟩ := gridViewDeleteLines_rows h.whole h.width
      (by omega : 1 ≤ min (s.grid.sy - 1 - s.cy) needed)
      (by omega : s.grid.sy - min (s.grid.sy - 1 - s.cy) needed + _ ≤ s.grid.sy)
    refine ⟨g', Exec.value?_bind.2 ⟨g', hval, rfl⟩, hedited, fun r hr => ?_⟩
    rw [hrow, Splice.fill, if_neg (by omega), Splice.move, if_neg (by omega), if_neg (by omega)]

/-- With a history, lines at the top are in it from now on. -/
theorem takeTop_on {gd : Grid} (hon : gd.history = true) (needed : ℕ) :
    takeTop s gd needed = pure { gd with hsize := uadd gd.hsize needed } := by
  rw [takeTop, if_pos hon]

/-- Without, they are deleted. -/
theorem takeTop_off {gd : Grid} (h : gd.Whole) (hx : 1 ≤ gd.sx) (hoff : gd.history = false) (hcy : needed ≤ s.cy)
    (hsy : s.cy < gd.sy) :
    ∃ g', (takeTop s gd needed).value? = some g' ∧ gd.Edited gd.hsize g' ∧
      ∀ r, r + needed < gd.sy → g'.row r = gd.row (r + needed) := by
  rw [takeTop, if_neg (by simp [hoff])]
  by_cases hneeded : needed > 0 ∧ s.cy > 0
  · have hcount : (if s.cy > needed then needed else s.cy) = needed := by
      split_ifs <;> omega
    rw [if_pos hneeded, hcount]
    obtain ⟨g', hval, hedited, hrow⟩ := gridViewDeleteLines_rows h hx hneeded.1 (by omega : 0 + needed ≤ gd.sy)
    refine ⟨g', hval, hedited, fun r hr => ?_⟩
    rw [hrow]
    have hdeleted : Splice.Deleted (fun _ => True) 0 needed gd.sy gd.row _ :=
      Splice.deleted_fill (a := some {}) trivial (by omega)
    exact hdeleted.moved r (Nat.zero_le _) hr
  · obtain rfl : needed = 0 := by omega
    rw [if_neg hneeded]
    exact ⟨gd, rfl, .refl gd, fun r _ => rfl⟩

theorem Screen.cutTop_le (h : s.Sound) (hsy : 1 ≤ sy) (hle : sy ≤ s.grid.sy) :
    s.cutTop sy ≤ s.cy ∧ s.cy - s.cutTop sy < sy ∧ s.cutBottom sy + s.cutTop sy + sy = s.grid.sy := by
  have hcursor := h.rows.cursor
  unfold cutTop cutBottom
  omega

/-- With a history, a lower screen has the lines at the top in it, and only those below the cursor
    are touched. -/
theorem shrinkY_on (h : s.Sound) (hon : s.grid.history = true) (hsy : 1 ≤ sy) (hle : sy ≤ s.grid.sy) :
    ∃ l, (shrinkY s sy).value? = some { s with
        grid := { s.grid with linedata := l, hsize := s.grid.hsize + s.cutTop sy }
        cy := s.cy - s.cutTop sy } ∧
      ∀ i < s.grid.hsize + s.cutTop sy + sy, l[i]? = s.grid.linedata[i]? := by
  obtain ⟨htop, -, hcut⟩ := Screen.cutTop_le h hsy hle
  have hroom := h.whole.room
  rw [shrinkY]
  by_cases hlt : sy < s.grid.sy
  · obtain ⟨g', hval, hedited, hrow⟩ := deleteBottom_rows h (by omega : 1 ≤ s.grid.sy - sy)
    refine ⟨g'.linedata, ?_, fun i hi => ?_⟩
    · rw [if_pos hlt, Exec.usub_of_le hle, pure_bind, Exec.value?_bind]
      refine ⟨_, hval, ?_⟩
      dsimp only
      rw [← Screen.cutBottom, Exec.usub_of_le (by omega), pure_bind, ← Screen.cutTop,
        takeTop_on (hedited.history.trans hon), pure_bind, Exec.usub_of_le htop, pure_bind, hedited.hsize,
        Exec.uadd_of_lt (by omega)]
      obtain ⟨hhistory, hsx, hgsy, hlimit⟩ := hedited.toSameShape
      rw [Exec.value?_pure, hhistory, hsx, hgsy, hlimit]
    · rcases lt_or_ge i s.grid.hsize with hi' | hi'
      · exact hedited.above i hi'
      · obtain ⟨r, rfl⟩ := Nat.exists_eq_add_of_le hi'
        rw [← hedited.row_eq]
        exact hrow r (by rw [← Screen.cutBottom]; omega)
  · have hnone : s.cutTop sy = 0 := by omega
    rw [if_neg hlt, hnone]
    exact ⟨s.grid.linedata, rfl, fun _ _ => rfl⟩

/-- Without a history, the lines at the top are deleted. -/
theorem shrinkY_off (h : s.Sound) (hoff : s.grid.history = false) (hsy : 1 ≤ sy) (hle : sy ≤ s.grid.sy) :
    ∃ g', (shrinkY s sy).value? = some { s with grid := g', cy := s.cy - s.cutTop sy } ∧
      s.grid.Edited s.grid.hsize g' ∧ ∀ r < sy, g'.row r = s.grid.row (r + s.cutTop sy) := by
  obtain ⟨htop, -, hcut⟩ := Screen.cutTop_le h hsy hle
  have hcursor := h.rows.cursor
  rw [shrinkY]
  by_cases hlt : sy < s.grid.sy
  · obtain ⟨g₁, hval₁, hedited₁, hrow₁⟩ := deleteBottom_rows h (by omega : 1 ≤ s.grid.sy - sy)
    obtain ⟨g₂, hval₂, hedited₂, hrow₂⟩ := takeTop_off (s := s) (hedited₁.whole h.whole) (hedited₁.sx ▸ h.width)
      (hedited₁.history.trans hoff) htop (hedited₁.sy ▸ hcursor)
    rw [hedited₁.hsize] at hedited₂
    refine ⟨g₂, ?_, hedited₁.trans hedited₂, fun r hr => ?_⟩
    · rw [if_pos hlt, Exec.usub_of_le hle, pure_bind, Exec.value?_bind]
      refine ⟨_, hval₁, ?_⟩
      dsimp only
      rw [← Screen.cutBottom, Exec.usub_of_le (by omega), pure_bind, ← Screen.cutTop, Exec.value?_bind]
      exact ⟨g₂, hval₂, by rw [Exec.usub_of_le htop]; rfl⟩
    · rw [hrow₂ r (by rw [hedited₁.sy]; omega), hrow₁ _ (by rw [← Screen.cutBottom]; omega)]
  · have hnone : s.cutTop sy = 0 := by omega
    rw [if_neg hlt, hnone]
    exact ⟨s.grid, rfl, .refl _, fun _ _ => rfl⟩

/-! ## A screen that gets higher -/

/-- The number of lines that are pulled out of the history for a height. -/
def Screen.pulled (s : Screen) (sy : ℕ) : ℕ := if s.grid.history then min s.grid.hsize (sy - s.grid.sy) else 0

theorem Screen.pulled_le (s : Screen) (sy : ℕ) : s.pulled sy ≤ s.grid.hsize ∧ s.pulled sy ≤ sy - s.grid.sy := by
  unfold pulled
  split_ifs <;> omega

/-- A higher screen has lines of the history at the top, and blank ones after its last one. -/
theorem growY_rows (h : s.Sound) (hsy : s.grid.sy < sy) (hroom : s.grid.hsize + sy + 1 < Exec.word)
    {l : List GridLine} (hl : l.length = s.grid.hsize + sy)
    (hkept : ∀ i < s.grid.hsize + s.grid.sy, l[i]? = s.grid.linedata[i]?) :
    ∃ l', growY { s with grid := { s.grid with linedata := l } } s.grid.sy sy = pure { s with
        grid := { s.grid with linedata := l', hsize := s.grid.hsize - s.pulled sy }
        cy := s.cy + s.pulled sy } ∧
      l'.length = s.grid.hsize + sy ∧
      ∀ i < s.grid.hsize - s.pulled sy + sy, l'[i]? =
        if i < s.grid.hsize + s.grid.sy then s.grid.linedata[i]? else some {} := by
  have hcursor := h.rows.cursor
  have hpulled := s.pulled_le sy
  rw [growY, if_pos hsy, Exec.usub_of_le hsy.le, pure_bind]
  dsimp only
  have havailable : (if s.grid.history ∧ s.grid.hsize > 0 then
      if s.grid.hsize > sy - s.grid.sy then sy - s.grid.sy else s.grid.hsize else 0) = s.pulled sy := by
    unfold Screen.pulled
    cases s.grid.history with
    | true => simp only [true_and, if_true]; split_ifs <;> omega
    | false => simp
  obtain ⟨l', hfill, hlen', hget⟩ := Block.fill_eq (a := ({} : GridLine)) (p := fun _ => true) (l := l)
    (i := s.grid.hsize + s.grid.sy) (n := sy - s.grid.sy - s.pulled sy) (by omega)
  refine ⟨l', ?_, hlen'.trans hl, fun i hi => ?_⟩
  · rw [havailable, Exec.usub_of_le hpulled.1, pure_bind, Exec.usub_of_le hpulled.2, pure_bind,
      Exec.uadd_of_lt (by omega), Exec.usub_of_le (by omega), pure_bind, Exec.uadd_of_lt (by omega),
      show s.grid.hsize - s.pulled sy + sy - (sy - s.grid.sy - s.pulled sy) = s.grid.hsize + s.grid.sy by omega,
      show s.grid.hsize - s.pulled sy + sy - (s.grid.hsize + s.grid.sy) = sy - s.grid.sy - s.pulled sy by omega,
      hfill, pure_bind]
  · simp only [hget, and_true]
    split_ifs with hblank hold hold
    · omega
    · rfl
    · exact hkept i hold
    · omega

/-! ## Both -/

/-- With a history, the cursor keeps its line, and lines are cut or added at the end only. -/
structure Screen.LinesKept (s s' : Screen) : Prop where
  line : s'.grid.hsize + s'.cy = s.grid.hsize + s.cy
  content : s'.grid.row s'.cy = s.grid.row s.cy
  lines : s'.grid.lines = Block.resize {} s.grid.lines (s'.grid.hsize + s'.grid.sy)

/-- Without a history, lines of the screen are cut at the bottom, but none above the cursor as long
    as there are others, and the rest of them at the top; or lines are added at the bottom. -/
structure Screen.LinesCut (s s' : Screen) : Prop where
  hsize : s'.grid.hsize = s.grid.hsize
  scrollback : s'.grid.scrollback = s.grid.scrollback
  cursor : s'.cy = s.cy - s.cutTop s'.grid.sy
  visible : s'.grid.visible = Block.resize {} (s.grid.visible.drop (s.cutTop s'.grid.sy)) s'.grid.sy

theorem Grid.length_lines (h : g.hsize + g.sy ≤ g.linedata.length) : g.lines.length = g.hsize + g.sy := by
  rw [Grid.lines, List.length_take]
  omega

/-- Lines are cut or added at the end only if every row is as before, or a new blank one. -/
theorem Screen.linesKept_of_rows (h : s.Sound) (hline : s'.grid.hsize + s'.cy = s.grid.hsize + s.cy)
    (hcy : s'.cy < s'.grid.sy)
    (hrow : ∀ i < s'.grid.hsize + s'.grid.sy, s'.grid.linedata[i]? =
      if i < s.grid.hsize + s.grid.sy then s.grid.linedata[i]? else some {}) : s.LinesKept s' := by
  have hcursor := h.rows.cursor
  have hlength := h.whole.length
  refine ⟨hline, ?_, List.ext_getElem? fun i => ?_⟩
  · rw [Grid.row, Grid.row, hline, hrow _ (by omega), if_pos (by omega)]
  · rw [Grid.getElem?_lines, Block.getElem?_resize, Grid.getElem?_lines]
    split_ifs with hi hold
    · rw [hrow i hi, if_pos hold, List.getElem?_eq_getElem (by omega), Option.getD_some]
    · rw [hrow i hi, if_neg hold]
      rfl
    · rfl

/-- Lines of the screen are cut or added if all rows are those before, the first ones left out, or
    new blank ones. -/
theorem Screen.linesCut_of_rows (h : s.Sound) (hsize : s'.grid.hsize = s.grid.hsize)
    (habove : ∀ i < s.grid.hsize, s'.grid.linedata[i]? = s.grid.linedata[i]?)
    (hcursor : s'.cy = s.cy - s.cutTop s'.grid.sy)
    (hrow : ∀ r < s'.grid.sy, s'.grid.row r =
      if s.cutTop s'.grid.sy + r < s.grid.sy then s.grid.row (s.cutTop s'.grid.sy + r) else some {}) :
    s.LinesCut s' := by
  refine ⟨hsize, List.ext_getElem? fun i => ?_, hcursor, List.ext_getElem? fun r => ?_⟩
  · rw [Grid.scrollback, Grid.scrollback, List.getElem?_take, List.getElem?_take, hsize]
    split_ifs with hi
    · exact habove i hi
    · rfl
  · rw [Grid.getElem?_visible, Block.getElem?_resize, List.getElem?_drop, Grid.getElem?_visible]
    split_ifs with hr hold
    · obtain ⟨gl, hgl⟩ := h.whole.exists_row hold
      rw [hrow r hr, if_pos hold, hgl, Option.getD_some]
    · rw [hrow r hr, if_neg hold]
      rfl
    · rfl

/-- What a screen is that gets another height. -/
structure Screen.Reheighted (s : Screen) (sy : ℕ) (s' : Screen) : Prop where
  height : s'.grid.sy = sy
  cursor : s'.cy < sy
  length : s'.grid.lines.length = s'.grid.hsize + sy
  kept : s.grid.history = true → s.LinesKept s'
  cut : s.grid.history = false → s.LinesCut s'

section

variable (h : s.Sound) (hsy : 1 ≤ sy)

include h hsy

theorem screenResizeY_lower_on (hle : sy ≤ s.grid.sy) (hon : s.grid.history = true) :
    ∃ s', (screenResizeY s sy).value? = some s' ∧ s.Reheighted sy s' := by
  obtain ⟨htop, hcy, hcut⟩ := Screen.cutTop_le h hsy hle
  have hlength := h.whole.length
  have hroom := h.whole.room
  obtain ⟨l, hval, hkept⟩ := shrinkY_on h hon hsy hle
  have hsize : uadd (s.grid.hsize + s.cutTop sy) sy = s.grid.hsize + s.cutTop sy + sy := Exec.uadd_of_lt (by omega)
  refine ⟨{ s with
    grid := { s.grid with
      linedata := Block.resize {} l (s.grid.hsize + s.cutTop sy + sy)
      hsize := s.grid.hsize + s.cutTop sy
      sy }
    cy := s.cy - s.cutTop sy
    rupper := 0
    rlower := sy - 1 }, ?_, rfl, hcy, Grid.length_lines (Block.length_resize _ _ _).ge, fun _ => ?_,
    fun hoff => absurd hoff (by simp [hon])⟩
  · rw [screenResizeY, if_neg (by omega), Exec.value?_bind]
    refine ⟨_, hval, ?_⟩
    dsimp only
    rw [growY, if_neg (by omega), pure_bind, Exec.usub_of_le hsy, pure_bind, hsize]
    rfl
  · refine Screen.linesKept_of_rows h (by dsimp only; omega) hcy fun i hi => ?_
    dsimp only at hi ⊢
    rw [Block.getElem?_resize, if_pos hi, if_pos (by omega), hkept i hi, List.getElem?_eq_getElem (by omega),
      Option.getD_some]

theorem screenResizeY_lower_off (hle : sy ≤ s.grid.sy) (hoff : s.grid.history = false) :
    ∃ s', (screenResizeY s sy).value? = some s' ∧ s.Reheighted sy s' := by
  obtain ⟨-, hcy, hcut⟩ := Screen.cutTop_le h hsy hle
  have hlength := h.whole.length
  have hroom := h.whole.room
  obtain ⟨g', hval, hedited, hrow⟩ := shrinkY_off h hoff hsy hle
  have hlength' := hedited.length
  have hsize : uadd g'.hsize sy = s.grid.hsize + sy := by
    rw [hedited.hsize, Exec.uadd_of_lt (by omega)]
  have hentry : ∀ i < s.grid.hsize + sy, (Block.resize {} g'.linedata (s.grid.hsize + sy))[i]? = g'.linedata[i]? :=
    fun i hi => by rw [Block.getElem?_resize, if_pos hi, List.getElem?_eq_getElem (by omega), Option.getD_some]
  refine ⟨{ s with
    grid := { g' with linedata := Block.resize {} g'.linedata (s.grid.hsize + sy), sy }
    cy := s.cy - s.cutTop sy
    rupper := 0
    rlower := sy - 1 }, ?_, rfl, hcy, ?_, fun hon => absurd hon (by simp [hoff]), fun _ => ?_⟩
  · rw [screenResizeY, if_neg (by omega), Exec.value?_bind]
    refine ⟨_, hval, ?_⟩
    dsimp only
    rw [growY, if_neg (by omega), pure_bind, Exec.usub_of_le hsy, pure_bind, hsize]
    rfl
  · refine Grid.length_lines ?_
    dsimp only
    rw [Block.length_resize, hedited.hsize]
  · refine Screen.linesCut_of_rows h hedited.hsize (fun i hi => ?_) rfl fun r hr => ?_
    · dsimp only
      rw [hentry i (by omega), hedited.above i hi]
    · dsimp only at hr ⊢
      rw [Grid.row]
      dsimp only
      rw [hedited.hsize, hentry _ (by omega), ← hedited.row_eq, hrow r hr, if_pos (by omega), Nat.add_comm r]

theorem screenResizeY_higher (hgt : s.grid.sy < sy) (hroom : s.grid.hsize + sy + 1 < Exec.word) :
    ∃ s', (screenResizeY s sy).value? = some s' ∧ s.Reheighted sy s' := by
  have hcursor := h.rows.cursor
  have hlength := h.whole.length
  have hsize : uadd s.grid.hsize sy = s.grid.hsize + sy := Exec.uadd_of_lt (by omega)
  have hpulled := s.pulled_le sy
  obtain ⟨l, hgrow, hlen, hget⟩ := growY_rows h hgt hroom
    (l := Block.resize {} s.grid.linedata (s.grid.hsize + sy)) (Block.length_resize _ _ _) fun i hi => by
      rw [Block.getElem?_resize, if_pos (by omega), List.getElem?_eq_getElem (by omega), Option.getD_some]
  refine ⟨{ s with
    grid := { s.grid with linedata := l, hsize := s.grid.hsize - s.pulled sy, sy }
    cy := s.cy + s.pulled sy
    rupper := 0
    rlower := sy - 1 }, ?_, rfl, by dsimp only; omega, Grid.length_lines (by dsimp only; omega), fun hon => ?_,
    fun hoff => ?_⟩
  · rw [screenResizeY, if_neg (by omega), shrinkY, if_neg (by omega), pure_bind]
    dsimp only
    rw [hsize, hgrow, pure_bind, Exec.usub_of_le hsy, pure_bind]
    rfl
  · exact Screen.linesKept_of_rows h (by dsimp only; omega) (by dsimp only; omega) hget
  · have hzero : s.pulled sy = 0 := by
      rw [Screen.pulled, hoff]
      rfl
    have hnone : s.cutTop sy = 0 := by
      unfold Screen.cutTop
      omega
    rw [hzero, Nat.sub_zero] at hget
    refine Screen.linesCut_of_rows h (by dsimp only; rw [hzero, Nat.sub_zero]) (fun i hi => ?_) ?_ fun r hr => ?_
    · rw [hget i (by omega), if_pos (by omega)]
    · dsimp only
      rw [hzero, hnone]
      rfl
    · dsimp only at hr ⊢
      rw [Grid.row, hzero, hnone, Nat.zero_add]
      dsimp only
      rw [Nat.sub_zero, hget _ (by omega), Grid.row]
      split_ifs <;> first | rfl | omega

/-- Giving a screen another height keeps the cursor on it and all rows in the grid; with a history
    no line is lost from the first one to that of the cursor, and without one lines are taken from
    below the cursor first. -/
theorem screenResizeY_lines (hroom : s.grid.hsize + sy + 1 < Exec.word) :
    ∃ s', (screenResizeY s sy).value? = some s' ∧ s.Reheighted sy s' := by
  rcases le_or_gt sy s.grid.sy with hle | hgt
  · cases hhistory : s.grid.history with
    | true => exact screenResizeY_lower_on h hsy hle hhistory
    | false => exact screenResizeY_lower_off h hsy hle hhistory
  · exact screenResizeY_higher h hsy hgt hroom

end

/-- A screen of three rows without a history, with the cursor on the second one. -/
def offScreen : Screen :=
  { screenOfText 5 3 0 1 [[97], [98], [99]] with
    grid := { (screenOfText 5 3 0 1 [[97], [98], [99]]).grid with history := false } }

/-- Without a history, a screen of three rows with the cursor on the second one that gets one row
    loses the row below the cursor and then the one above. -/
theorem screenResizeY_small :
    ∃ s', (screenResizeY offScreen 1).value? = some s' ∧ offScreen.Reheighted 1 s' :=
  screenResizeY_lines ⟨⟨by decide, by decide, by decide, by decide⟩, by decide, ⟨by decide, by decide⟩⟩ (by decide)
    (by decide)

end Tmux
