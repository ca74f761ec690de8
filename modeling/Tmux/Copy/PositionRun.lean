import Tmux.Copy.Position

/-!
# Runs in copy mode

The position in copy mode addresses the backing grid after every run of keys, mouse
events, resizes, output and clearing of the history (`copyRun_inPlace`), as long as

* the history is not cleared while lines of it are shown,
* a search that ends in a line below the first ones is on a screen of four rows at least
  (`FindsNear`), and
* the remembered column of a rectangle is on the screen when lines are moved
  (`CopyMode.RecallsFor`).
-/

namespace Tmux

open Exec (Meets Along uadd usub meets_usub meets_all uadd_of_lt usub_of_le)

/-- The position addresses the backing grid, and what else holds in copy mode. -/
structure CopyMode.Placed (m : CopyMode) : Prop extends CopyMode.Based m where
  cx : m.cx ≤ m.screen.grid.sx

variable {m m' m'' : CopyMode}

/-- It does not matter what is read, searched for or selected. -/
theorem CopyMode.Placed.congr (h : m.Placed) (hscreen : m'.screen = m.screen) (hbacking : m'.backing = m.backing)
    (hpane : m'.ofPane = m.ofPane) (hcx : m'.cx = m.cx) (hcy : m'.cy = m.cy) (hoy : m'.oy = m.oy) : m'.Placed := by
  refine ⟨⟨h.toSized.congr hscreen hbacking hpane, ?_, ?_⟩, ?_⟩
  · rw [hcy, hscreen]
    exact h.cy
  · rw [hoy, hbacking]
    exact h.oy
  · rw [hcx, hscreen]
    exact h.cx

theorem CopyMode.Lands.placed (h : m.Lands m') : m'.Placed := ⟨h.based, h.cx⟩

theorem CopyMode.Drawn.placed (h : m.Drawn m') (hm : m.Placed) : m'.Placed := (h.lands hm.toBased hm.cx).placed

theorem KeepsPlace.placed {C : CopyMode → Prop} {f : CopyMode → Exec CopyMode} (hf : KeepsPlace C f) (h : m.Placed)
    (hm : C m) : Meets .all CopyMode.Placed (f m) :=
  (hf m h.toBased h.cx hm).mono fun _ h' => h'.placed

/-! ## Searching -/

/-- A text that is looked for is found in one of the first lines, unless the screen has four rows. -/
def FindsNear (search : CopyMode → List UInt8 → Exec (Option (ℕ × ℕ))) (searchstr : List UInt8) (m : CopyMode) :
    Prop :=
  searchstr ≠ [] → ∀ found ∈ (search m searchstr).value?, ∀ p ∈ found,
    4 ≤ m.screen.grid.sy ∨ p.2 < m.screen.grid.sy

instance (search : CopyMode → List UInt8 → Exec (Option (ℕ × ℕ))) (searchstr : List UInt8) :
    DecidablePred (FindsNear search searchstr) := fun m =>
  inferInstanceAs (Decidable (searchstr ≠ [] → ∀ found ∈ (search m searchstr).value?, ∀ p ∈ found,
    4 ≤ m.screen.grid.sy ∨ p.2 < m.screen.grid.sy))

/-- Scrolling to a place puts the position there, in a row of the screen if the screen is high enough. -/
theorem scrollTo_eq (h : m.Based) (px : ℕ) {py : ℕ} (hpy : py < m.backing.grid.hsize + m.backing.grid.sy) :
    ∃ cy oy, scrollTo m px py = pure { m with cx := px, cy, oy } ∧ m.backing.grid.hsize - oy + cy = py ∧
      oy ≤ m.backing.grid.hsize ∧ (cy < m.screen.grid.sy ↔ 4 ≤ m.screen.grid.sy ∨ py < m.screen.grid.sy) := by
  have hsy := h.sy
  have hcy := h.cy
  have hlines := h.lines
  unfold scrollTo
  extract_lets gd gap
  have hgap : gap = gd.sy / 4 := rfl
  have hgridSy : gd.sy = m.screen.grid.sy := hsy
  have hgridHsize : gd.hsize = m.backing.grid.hsize := rfl
  rw [uadd_of_lt (a := gd.hsize) (by omega), usub_of_le (by omega), pure_bind]
  split_ifs with htop hbottom
  · exact ⟨_, _, rfl, by omega, le_rfl, iff_of_true (by omega) (.inr (by omega))⟩
  · rw [usub_of_le (by omega), pure_bind]
    exact ⟨_, _, rfl, by omega, Nat.zero_le _, iff_of_true (by omega) (.inl (by omega))⟩
  · rw [uadd_of_lt (by omega), usub_of_le (by omega), pure_bind, usub_of_le (by omega), pure_bind,
      usub_of_le (by omega), pure_bind]
    exact ⟨_, _, rfl, by omega, by omega, by omega⟩

/-- The line scrolled to is on the screen, with four rows or for one of the first lines. -/
theorem scrollTo_lands (h : m.Based) {px py : ℕ} (hpx : px ≤ m.screen.grid.sx)
    (hpy : py < m.backing.grid.hsize + m.backing.grid.sy) (hnear : 4 ≤ m.screen.grid.sy ∨ py < m.screen.grid.sy) :
    Meets .all m.Lands (scrollTo m px py) := by
  obtain ⟨cy, oy, heq, -, hoy, hcy⟩ := scrollTo_eq h px hpy
  rw [heq]
  exact .pure ⟨(h.scroll hoy).trans ((h.scroll hoy).based.place px (hcy.2 hnear)), hpx⟩

theorem windowCopySearchRl_lt (gd sgd : Grid) (py n : ℕ) :
    Meets .all (fun found => ∀ x ∈ found, x < n) (windowCopySearchRl gd sgd py n) := by
  induction n with
  | zero => exact .pure nofun
  | succ n ih =>
    refine (meets_all _).bind fun room _ => ?_
    split_ifs
    · exact ih.mono fun found h x hx => (h x hx).trans (Nat.lt_succ_self n)
    · refine (meets_all _).bind fun found _ => ?_
      split_ifs
      · exact .pure (by simp)
      · exact ih.mono fun found h x hx => (h x hx).trans (Nat.lt_succ_self n)

theorem searchLinesUp_lt (gd sgd : Grid) (sx i last : ℕ) (hlast : last ≤ sx) :
    Meets .all (fun found => ∀ p ∈ found, p.1 ≤ sx ∧ p.2 < i) (searchLinesUp gd sgd sx i last) := by
  induction i generalizing last with
  | zero => exact .pure nofun
  | succ i ih =>
    refine (windowCopySearchRl_lt gd sgd i (last + 1)).bind fun found hfound => ?_
    cases found with
    | none => exact (ih sx (le_refl _)).mono fun found h p hp => ⟨(h p hp).1, (h p hp).2.trans (Nat.lt_succ_self i)⟩
    | some px =>
      have := hfound px rfl
      exact .pure (by rintro _ ⟨⟩; exact ⟨by dsimp only; omega, Nat.lt_succ_self i⟩)

theorem windowCopySearchLr_lt (gd sgd : Grid) (py n ax : ℕ) :
    Meets .all (fun found => ∀ x ∈ found, x < ax + n ∧ 0 < n) (windowCopySearchLr gd sgd py n ax) := by
  induction n generalizing ax with
  | zero => exact .pure nofun
  | succ n ih =>
    unfold windowCopySearchLr
    split_ifs
    · exact .pure nofun
    · refine (meets_all _).bind fun found _ => ?_
      split_ifs
      · exact .pure (by simp)
      · exact (ih (ax + 1)).mono fun found h x hx => by have := h x hx; omega

theorem searchLinesDown_lt (gd sgd : Grid) (n i first : ℕ) :
    Meets .all (fun found => ∀ p ∈ found, p.1 ≤ gd.sx ∧ p.2 < i + n ∧ 0 < n) (searchLinesDown gd sgd n i first) := by
  induction n generalizing i first with
  | zero => exact .pure nofun
  | succ n ih =>
    refine (windowCopySearchLr_lt gd sgd i (gd.sx - first) first).bind fun found hfound => ?_
    cases found with
    | none => exact (ih (i + 1) 0).mono fun found h p hp => by have := h p hp; omega
    | some px =>
      have := hfound px rfl
      exact .pure (by rintro _ ⟨⟩; dsimp only; omega)

/-- What is found is in the backing grid. -/
def InGrid (m : CopyMode) (found : Option (ℕ × ℕ)) : Prop :=
  ∀ p ∈ found, p.1 ≤ m.screen.grid.sx ∧ p.2 < m.backing.grid.hsize + m.backing.grid.sy

theorem placeBefore_meets (h : m.Placed) :
    Meets .all (fun place => ∀ p ∈ place, p.1 ≤ m.screen.grid.sx ∧
      p.2 + 1 ≤ m.backing.grid.hsize + m.backing.grid.sy) (placeBefore m) := by
  have hcx := h.cx
  have hsx := h.sx
  have hwidth := h.width
  obtain ⟨-, hrow⟩ := h.backingRow_eq
  unfold placeBefore
  rw [usub_of_le h.oy, pure_bind]
  have hfy := uadd_le (m.backing.grid.hsize - m.oy) m.cy
  dsimp only
  split_ifs
  · exact .pure nofun
  · rw [usub_of_le (by omega), pure_bind]
    exact .pure (by rintro _ ⟨⟩; dsimp only; omega)
  · exact .pure (by rintro _ ⟨⟩; dsimp only; omega)

theorem searchUp_inGrid (h : m.Placed) (searchstr : List UInt8) :
    Meets .all (InGrid m) (searchUp m searchstr) := by
  have hsx := h.sx
  refine (meets_all _).bind fun sgd _ => (placeBefore_meets h).bind fun place hplace => ?_
  cases place with
  | none => exact .pure nofun
  | some p =>
    obtain ⟨fx, fy⟩ := p
    have hp := hplace _ rfl
    refine (searchLinesUp_lt m.backing.grid sgd m.backing.grid.sx (fy + 1) fx (hp.1.trans hsx.ge)).bind fun found hfound => ?_
    cases found with
    | some hit =>
      refine .pure ?_
      rintro _ ⟨⟩
      have := hfound _ rfl
      dsimp only at hp
      omega
    | none =>
      dsimp only
      split_ifs
      · refine (searchLinesUp_lt m.backing.grid sgd m.backing.grid.sx _ _ (by omega)).mono
          fun found hfound p hp => ?_
        have := hfound p hp
        omega
      · exact .pure nofun

theorem searchDown_inGrid (h : m.Placed) (searchstr : List UInt8) :
    Meets .all (InGrid m) (searchDown m searchstr) := by
  have hsx := h.sx
  refine (meets_all _).bind fun sgd _ => (meets_all _).bind fun place _ => ?_
  cases place with
  | none => exact .pure nofun
  | some p =>
    obtain ⟨fx, fy⟩ := p
    refine (searchLinesDown_lt m.backing.grid sgd _ fy fx).bind fun found hfound => ?_
    cases found with
    | some hit =>
      refine .pure ?_
      rintro _ ⟨⟩
      have := hfound _ rfl
      omega
    | none =>
      dsimp only
      split_ifs
      · refine (searchLinesDown_lt m.backing.grid sgd _ 0 0).mono fun found hfound p hp => ?_
        have := hfound p hp
        omega
      · exact .pure nofun

/-- A search that finds in the grid, and near, keeps the position in it. -/
theorem scrollToHit_lands {search : CopyMode → List UInt8 → Exec (Option (ℕ × ℕ))} {searchstr : List UInt8}
    (h : m.Placed) (hgrid : Meets .all (InGrid m) (search m searchstr)) (hnear : FindsNear search searchstr m) :
    Meets .all m.Lands (scrollToHit search m searchstr) := by
  unfold scrollToHit
  split_ifs with hempty
  · exact .pure (.refl h.toBased h.cx)
  · refine hgrid.self.bind fun found hfound => ?_
    cases found with
    | none => exact .pure (.refl h.toBased h.cx)
    | some p =>
      obtain ⟨px, py⟩ := p
      obtain ⟨hpx, hpy⟩ := hfound.1 _ rfl
      refine (scrollTo_lands h.toBased hpx hpy (hnear hempty _ hfound.2 _ rfl)).bind fun m₁ h₁ => ?_
      exact (redrawAll_drawn h₁.based.screen h₁.based.width).mono fun _ h₂ =>
        h₁.toMoved.lands (h₂.lands h₁.based h₁.cx)

theorem times_eq_foldlM {σ : Type} (f : σ → Exec σ) (n : ℕ) (s : σ) :
    times f n s = (List.replicate n ()).foldlM (fun s _ => f s) s := by
  induction n generalizing s with
  | zero => rfl
  | succ n ih =>
    rw [times, List.replicate_succ, List.foldlM_cons]
    exact bind_congr fun s => ih s

/-- Every search that is repeated finds near. -/
def TimesNear (search : CopyMode → List UInt8 → Exec (Option (ℕ × ℕ))) (searchstr : CopyMode → List UInt8)
    (m : CopyMode) : Prop :=
  Along (fun m (_ : Unit) => scrollToHit search m (searchstr m)) (fun m _ => FindsNear search (searchstr m) m) m
    (List.replicate (repeats m) ())

instance (search : CopyMode → List UInt8 → Exec (Option (ℕ × ℕ))) (searchstr : CopyMode → List UInt8) :
    DecidablePred (TimesNear search searchstr) := fun m =>
  inferInstanceAs (Decidable (Along (fun m (_ : Unit) => scrollToHit search m (searchstr m))
    (fun m _ => FindsNear search (searchstr m) m) m (List.replicate (repeats m) ())))

/-- Searching as a type of input asks to finds near. -/
def SearchesNear (searchstr : CopyMode → List UInt8) (t : WindowCopyInputType) (m : CopyMode) : Prop :=
  (t = .searchUp → TimesNear searchUp searchstr m) ∧ (t = .searchDown → TimesNear searchDown searchstr m)

instance (searchstr : CopyMode → List UInt8) (t : WindowCopyInputType) : DecidablePred (SearchesNear searchstr t) :=
  fun m => inferInstanceAs (Decidable ((t = .searchUp → TimesNear searchUp searchstr m) ∧
    (t = .searchDown → TimesNear searchDown searchstr m)))

theorem timesNear_placed {search : CopyMode → List UInt8 → Exec (Option (ℕ × ℕ))}
    (hsearch : ∀ m : CopyMode, m.Placed → ∀ searchstr, Meets .all (InGrid m) (search m searchstr))
    {searchstr : CopyMode → List UInt8} (h : m.Placed) (hnear : TimesNear search searchstr m) :
    Meets .all CopyMode.Placed (times (fun m => scrollToHit search m (searchstr m)) (repeats m) m) := by
  rw [times_eq_foldlM]
  refine Meets.foldlM_along (fun m _ hnear h => ?_) hnear h
  exact (scrollToHit_lands h (hsearch m h _) hnear).mono fun _ h' => h'.placed

/-! ## Commands -/

/-- The commands that may move the cursor up or down, line by line. -/
def ModeKeyCmd.movesLines : ModeKeyCmd → Bool
  | copyLine | copyEndOfLine | selectLine | down | endOfLine | left | nextSpace | nextSpaceEnd | nextWord
  | nextWordEnd | previousSpace | previousWord | right | scrollDown | scrollUp | startOfLine | up => true
  | _ => false

/-- The commands that start a selection, and then move the cursor. -/
def ModeKeyCmd.selects : ModeKeyCmd → Bool
  | copyLine | copyEndOfLine | selectLine => true
  | _ => false

/-- The remembered column is on the screen if there is a rectangle, or there will be one. -/
def CopyMode.RecallsFor (m : CopyMode) (cmd : ModeKeyCmd) : Prop :=
  m.rectflag = true → m.sel = true ∨ cmd.selects = true → m.lastcx ≤ m.screen.grid.sx

/-- The type of a search the other way. -/
def WindowCopyInputType.otherWay : WindowCopyInputType → WindowCopyInputType
  | searchUp => searchDown
  | searchDown => searchUp
  | t => t

/-- What a command needs to keep the position in the grid. -/
structure CommandKeeps (m : CopyMode) (cmd : ModeKeyCmd) : Prop where
  again : cmd = .searchAgain → SearchesNear CopyMode.searchstr m.searchtype m
  reverse : cmd = .searchReverse → SearchesNear CopyMode.searchstr m.searchtype.otherWay m
  recalls : cmd.movesLines = true → m.RecallsFor cmd

instance (m : CopyMode) (cmd : ModeKeyCmd) : Decidable (m.RecallsFor cmd) :=
  inferInstanceAs (Decidable (m.rectflag = true → m.sel = true ∨ cmd.selects = true →
    m.lastcx ≤ m.screen.grid.sx))

instance (m : CopyMode) (cmd : ModeKeyCmd) : Decidable (CommandKeeps m cmd) :=
  decidable_of_iff ((cmd = .searchAgain → SearchesNear CopyMode.searchstr m.searchtype m) ∧
    (cmd = .searchReverse → SearchesNear CopyMode.searchstr m.searchtype.otherWay m) ∧
    (cmd.movesLines = true → m.RecallsFor cmd))
  ⟨fun h => ⟨h.1, h.2.1, h.2.2⟩, fun h => ⟨h.again, h.reverse, h.recalls⟩⟩

theorem CopyMode.RecallsFor.recalls {cmd : ModeKeyCmd} (h : m.RecallsFor cmd) : m.Recalls := fun hrect hsel =>
  h hrect (.inl hsel)

theorem searchRepeated_placed (h : m.Placed) {reverse : Bool}
    (hnear : SearchesNear CopyMode.searchstr (if reverse then m.searchtype.otherWay else m.searchtype) m) :
    Meets .all CopyMode.Placed (searchRepeated m reverse) := by
  have hup : TimesNear searchUp CopyMode.searchstr m →
      Meets .all CopyMode.Placed (times (fun m => windowCopySearchUp m m.searchstr) (repeats m) m) :=
    timesNear_placed (fun _ => searchUp_inGrid) h
  have hdown : TimesNear searchDown CopyMode.searchstr m →
      Meets .all CopyMode.Placed (times (fun m => windowCopySearchDown m m.searchstr) (repeats m) m) :=
    timesNear_placed (fun _ => searchDown_inGrid) h
  unfold searchRepeated
  cases hsearch : m.searchtype <;> cases reverse <;> rw [hsearch] at hnear
  case searchUp.false => exact hup (hnear.1 rfl)
  case searchUp.true => exact hdown (hnear.2 rfl)
  case searchDown.false => exact hdown (hnear.2 rfl)
  case searchDown.true => exact hup (hnear.1 rfl)
  all_goals exact .pure h

theorem redrawAll_placed (h : m.Placed) : Meets .all CopyMode.Placed (redrawAll m) :=
  (redrawAll_drawn h.screen h.width).mono fun _ h' => h'.placed h

theorem redrawScreen_placed (h : m.Placed) : Meets .all CopyMode.Placed (windowCopyRedrawScreen m) :=
  (windowCopyRedrawScreen_drawn h.screen h.width).mono fun _ h' => h'.placed h

theorem redrawLast_placed (h : m.Placed) : Meets .all CopyMode.Placed (redrawLast m) :=
  (redrawLast_drawn h.screen h.width).mono fun _ h' => h'.placed h

theorem CopyMode.Placed.scroll (h : m.Placed) {oy : ℕ} (hoy : oy ≤ m.backing.grid.hsize) :
    ({ m with oy } : CopyMode).Placed := ⟨(h.toBased.scroll hoy).based, h.cx⟩

theorem CopyMode.Placed.moveTo (h : m.Placed) {cx cy : ℕ} (hcx : cx ≤ m.screen.grid.sx)
    (hcy : cy < m.screen.grid.sy) : ({ m with cx, cy } : CopyMode).Placed := ⟨(h.toBased.place cx hcy).based, hcx⟩

theorem scrollBack_placed (h : m.Placed) (n : ℕ) : (scrollBack n m).Placed := by
  refine h.scroll ?_
  split_ifs <;> omega

theorem scrollForward_placed (h : m.Placed) (n : ℕ) : (scrollForward n m).Placed := by
  have hoy := h.oy
  refine h.scroll ?_
  split_ifs <;> omega

theorem iterate_placed {f : CopyMode → CopyMode} (hf : ∀ m : CopyMode, m.Placed → (f m).Placed) (n : ℕ)
    (h : m.Placed) : (f^[n] m).Placed := by
  induction n generalizing m with
  | zero => exact h
  | succ n ih => exact ih (hf m h)

theorem times_placed {f : CopyMode → Exec CopyMode}
    (hf : ∀ m : CopyMode, m.Placed → Meets .all CopyMode.Placed (f m)) (n : ℕ) (h : m.Placed) :
    Meets .all CopyMode.Placed (times f n m) := by
  induction n generalizing m with
  | zero => exact .pure h
  | succ n ih => exact (hf m h).bind fun m₁ h₁ => ih h₁

theorem windowCopyPageup_placed (h : m.Placed) : Meets .all CopyMode.Placed (windowCopyPageup m) :=
  redrawAll_placed (scrollBack_placed h _)

theorem moveToRow_placed (h : m.Placed) {row : Exec ℕ} (hrow : Meets .all (· < m.screen.grid.sy) row) :
    Meets .all CopyMode.Placed (moveToRow m row) :=
  hrow.bind fun _ hcy => redrawAll_placed (h.moveTo (Nat.zero_le _) hcy)

theorem middleRow_lt (h : m.Placed) : Meets .all (· < m.screen.grid.sy) (middleRow m) := by
  have hcy := h.cy
  unfold middleRow
  rw [usub_of_le (by omega), pure_bind]
  exact .pure (by omega)

theorem lastRow_lt (h : m.Placed) : Meets .all (· < m.screen.grid.sy) (usub m.screen.grid.sy 1) := by
  have hcy := h.cy
  rw [usub_of_le (by omega)]
  exact .pure (by omega)

/-- A selection starts where the cursor is. -/
theorem windowCopyStartSelection_placed (h : m.Placed) :
    Meets .all (fun m' => m'.Placed ∧ m'.screen.grid.sx = m.screen.grid.sx ∧ m'.rectflag = m.rectflag ∧
      m'.lastcx = m.lastcx) (windowCopyStartSelection m) := by
  refine (meets_all _).bind fun sely _ => Exec.meets_map.2 ?_
  have hm : ({ m with selx := m.cx, sely, sel := true } : CopyMode).Placed := h.congr rfl rfl rfl rfl rfl rfl
  refine (windowCopyUpdateSelection_drawn hm.screen hm.width).mono fun p hp => ⟨hp.placed hm, ?_⟩
  obtain ⟨s, hs, heq⟩ := hp
  rw [heq]
  exact ⟨hs.grid.sx, rfl, rfl⟩

theorem selectToEnd_placed (h : m.Placed) (hr : m.rectflag = true → m.lastcx ≤ m.screen.grid.sx) :
    Meets .all CopyMode.Placed (selectToEnd m) := by
  refine (windowCopyStartSelection_placed h).bind fun m₁ ⟨h₁, hsx, hrect, hlast⟩ => ?_
  have hr₁ : m₁.Recalls := fun hrect₁ _ => by
    rw [hsx, hlast]
    exact hr (hrect ▸ hrect₁)
  refine (times_recalls (windowCopyCursorDown_keepsPlace false) (repeats m - 1) m₁ h₁.toBased h₁.cx hr₁).bind
    fun m₂ h₂ => ?_
  refine (windowCopyCursorEndOfLine_keepsPlace m₂ h₂.based h₂.cx (h₂.toMoved.recalls hr₁)).bind fun m₃ h₃ => ?_
  exact redrawScreen_placed h₃.placed

theorem selectLine_placed (h : m.Placed) (hr : m.rectflag = true → m.lastcx ≤ m.screen.grid.sx) :
    Meets .all CopyMode.Placed (do
      let m ← windowCopyCursorStartOfLine m
      selectToEnd m) := by
  refine (windowCopyCursorStartOfLine_keepsPlace m h.toBased h.cx fun hrect _ => hr hrect).bind fun m₁ h₁ => ?_
  refine selectToEnd_placed h₁.placed fun hrect => ?_
  rw [h₁.gridSx]
  rcases h₁.lastcx with hl | hl
  · exact hl
  · rw [hl]
    exact hr (h₁.rectflag ▸ hrect)

theorem updateCursor_placed (h : m.Placed) {cx cy : ℕ} (hcx : cx ≤ m.screen.grid.sx) (hcy : cy < m.screen.grid.sy) :
    Meets .all CopyMode.Placed (windowCopyUpdateCursor m cx cy) := by
  refine (windowCopyUpdateCursor_moved h.toBased cx hcy).mono fun m' h' => ⟨h'.1.based, ?_⟩
  rw [h'.2, h'.1.gridSx]
  exact hcx

theorem windowCopyClearSelection_placed (h : m.Placed) :
    Meets .all CopyMode.Placed (windowCopyClearSelection m) := by
  have hm : ({ m with sel := false } : CopyMode).Placed := h.congr rfl rfl rfl rfl rfl rfl
  refine (meets_all _).bind fun py _ => (windowCopyFindLength_le hm.toBased py).bind fun px hpx => ?_
  split_ifs
  · exact updateCursor_placed hm hpx hm.cy
  · exact .pure hm

theorem windowCopyRectangleToggle_placed (h : m.Placed) :
    Meets .all CopyMode.Placed (windowCopyRectangleToggle m) := by
  have hm : ({ m with rectflag := !m.rectflag } : CopyMode).Placed := h.congr rfl rfl rfl rfl rfl rfl
  refine (meets_all _).bind fun py _ => (windowCopyFindLength_le hm.toBased py).bind fun px hpx => ?_
  split_ifs
  · exact (updateCursor_placed hm hpx hm.cy).bind fun m₁ h₁ => redrawAll_placed h₁
  · exact redrawAll_placed hm

theorem jumpAs_keepsPlace (t : WindowCopyInputType) : KeepsPlace Anywhere (jumpAs t) := by
  cases t
  case jumpForward => exact jumpForward_keepsPlace fun _ => le_refl _
  case jumpBack => exact jumpBackward_keepsPlace Nat.le_succ
  case jumpToForward => exact jumpForward_keepsPlace fun _ => Nat.sub_le _ _
  case jumpToBack => exact jumpBackward_keepsPlace fun px => uadd_le px 1
  all_goals exact fun m h hcx _ => .pure (.refl h hcx)

theorem timesJump_placed (h : m.Placed) (t : WindowCopyInputType) (n : ℕ) :
    Meets .all CopyMode.Placed (times (jumpAs t) n m) :=
  (times_keepsPlace (jumpAs_keepsPlace t) (fun _ _ _ _ => trivial) n).placed h trivial

theorem windowCopyMove_placed (h : m.Placed) {cmd : ModeKeyCmd} (hcmd : CommandKeeps m cmd) :
    Meets .all CopyMode.Placed (windowCopyMove m cmd) := by
  have hr : cmd.movesLines = true → m.Recalls := fun hmoves => (hcmd.recalls hmoves).recalls
  have hselect : cmd.selects = true → m.rectflag = true → m.lastcx ≤ m.screen.grid.sx := fun hsel hrect => by
    have hmoves : cmd.movesLines = true := by cases cmd <;> first | rfl | cases hsel
    exact hcmd.recalls hmoves hrect (.inr hsel)
  cases cmd
  case left => exact (times_recalls windowCopyCursorLeft_keepsPlace _).placed h (hr rfl)
  case right => exact (times_recalls windowCopyCursorRight_keepsPlace _).placed h (hr rfl)
  case up => exact (times_recalls (windowCopyCursorUp_keepsPlace false) _).placed h (hr rfl)
  case down => exact (times_recalls (windowCopyCursorDown_keepsPlace false) _).placed h (hr rfl)
  case scrollUp => exact (times_recalls (windowCopyCursorUp_keepsPlace true) _).placed h (hr rfl)
  case scrollDown => exact (times_recalls (windowCopyCursorDown_keepsPlace true) _).placed h (hr rfl)
  case previousPage => exact times_placed (fun _ => windowCopyPageup_placed) _ h
  case nextPage => exact redrawAll_placed (iterate_placed (fun _ h => scrollForward_placed h _) _ h)
  case halfPageUp => exact redrawAll_placed (iterate_placed (fun _ h => scrollBack_placed h _) _ h)
  case halfPageDown => exact redrawAll_placed (iterate_placed (fun _ h => scrollForward_placed h _) _ h)
  case topLine => exact moveToRow_placed h (.pure (Nat.zero_lt_of_lt h.cy))
  case middleLine => exact moveToRow_placed h (middleRow_lt h)
  case bottomLine => exact moveToRow_placed h (lastRow_lt h)
  case historyTop => exact moveToRow_placed (h.scroll (le_refl _)) (.pure (Nat.zero_lt_of_lt h.cy))
  case historyBottom =>
    exact moveToRow_placed (h.scroll (Nat.zero_le _)) (lastRow_lt (m := { m with oy := 0 }) (h.scroll (Nat.zero_le _)))
  case startSelection => exact (windowCopyStartSelection_placed h).bind fun _ h₁ => redrawScreen_placed h₁.1
  case copyLine => exact selectLine_placed h (hselect rfl)
  case selectLine => exact selectLine_placed h (hselect rfl)
  case copyEndOfLine => exact selectToEnd_placed h (hselect rfl)
  case clearSelection => exact (windowCopyClearSelection_placed h).bind fun _ h₁ => redrawScreen_placed h₁
  case startOfLine => exact windowCopyCursorStartOfLine_keepsPlace.placed h (hr rfl)
  case backToIndentation => exact windowCopyCursorBackToIndentation_keepsPlace.placed h trivial
  case endOfLine => exact windowCopyCursorEndOfLine_keepsPlace.placed h (hr rfl)
  case nextSpace => exact (times_recalls (skipTwice_keepsPlace _ _) _).placed h (hr rfl)
  case nextSpaceEnd => exact (times_recalls (skipTwice_keepsPlace _ _) _).placed h (hr rfl)
  case nextWord => exact (times_recalls (skipTwice_keepsPlace _ _) _).placed h (hr rfl)
  case nextWordEnd => exact (times_recalls (skipTwice_keepsPlace _ _) _).placed h (hr rfl)
  case previousSpace => exact (times_recalls (windowCopyCursorPreviousWord_keepsPlace _) _).placed h (hr rfl)
  case previousWord => exact (times_recalls (windowCopyCursorPreviousWord_keepsPlace _) _).placed h (hr rfl)
  case jumpAgain => exact timesJump_placed h _ _
  case jumpReverse => exact timesJump_placed h _ _
  case searchAgain => exact searchRepeated_placed h (hcmd.again rfl)
  case searchReverse => exact searchRepeated_placed h (hcmd.reverse rfl)
  case rectangleToggle => exact windowCopyRectangleToggle_placed h
  all_goals exact .pure h

/-! ## Keys and the mouse -/

/-- Copy mode is left, or what holds in it does. -/
def CopyResult.Placed (r : CopyResult) : Prop := ∀ m, r = .stays m → m.Placed

theorem CopyMode.Placed.stays (h : m.Placed) : (CopyResult.stays m).Placed := by
  rintro _ ⟨⟩
  exact h

theorem leaves_placed (copied : Option (List UInt8 × ℤ)) : (CopyResult.leaves copied).Placed := by
  intro m h
  cases h

theorem stays_placed {x : Exec CopyMode} (hx : Meets .all CopyMode.Placed x) :
    Meets .all CopyResult.Placed (CopyResult.stays <$> x) :=
  Exec.meets_map.2 (hx.mono fun _ h => h.stays)

theorem copyAndLeave_placed (m : CopyMode) (idx : ℤ) : Meets .all CopyResult.Placed (copyAndLeave m idx) :=
  Meets.bind (meets_all (copiedText m)) fun _ _ => .pure (leaves_placed _)

theorem readJump_placed (h : m.Placed) (k : KeyPress) : Meets .all CopyMode.Placed (readJump m k) := by
  have hjump : Meets .all CopyMode.Placed (jumpToKey m k) := by
    unfold jumpToKey
    split_ifs
    · exact timesJump_placed (m := { m with jumpchar := keyChar k.key }) (h.congr rfl rfl rfl rfl rfl rfl) _ _
    · exact .pure h
  exact hjump.bind fun m₁ h₁ => redrawLast_placed (h₁.congr rfl rfl rfl rfl rfl rfl)

theorem windowCopyKeyNumericPrefix_placed (h : m.Placed) (k : KeyPress) :
    Meets .all (fun p => p.1.Placed) (windowCopyKeyNumericPrefix m k) := by
  unfold windowCopyKeyNumericPrefix
  split_ifs
  · exact .pure h
  · exact .pure h
  · exact (redrawLast_placed (m := { m with numprefix := m.numprefix * 10 + k.key - 48 })
      (h.congr rfl rfl rfl rfl rfl rfl)).bind fun _ h₁ => .pure h₁

theorem enterLine_placed (h : m.Placed) (hnear : SearchesNear (fun _ => m.inputstr) m.inputtype m) :
    Meets .all CopyMode.Placed (enterLine m) := by
  have henter : Meets .all CopyMode.Placed (times (searchAs m.inputtype m.inputstr) (repeats m) m) →
      Meets .all CopyMode.Placed (enterSearch m) := fun hsearch =>
    hsearch.bind fun _ h₁ => .pure (h₁.congr rfl rfl rfl rfl rfl rfl)
  unfold enterLine
  cases hin : m.inputtype <;> rw [hin] at hnear henter
  case searchUp => exact henter (timesNear_placed (fun _ => searchUp_inGrid) h (hnear.1 rfl))
  case searchDown => exact henter (timesNear_placed (fun _ => searchDown_inGrid) h (hnear.2 rfl))
  case gotoLine =>
    refine Meets.bind (P := CopyMode.Placed) ?_ fun _ h₁ => .pure (h₁.congr rfl rfl rfl rfl rfl rfl)
    unfold windowCopyGotoLine
    split
    · exact .pure h
    · next lineno hline =>
      have hbounds := strtonum_bounds hline
      exact redrawAll_placed (h.scroll (by omega))
  all_goals exact .pure h

theorem inputOff_placed (h : m.Placed) : Meets .all CopyMode.Placed (inputOff m) :=
  redrawLast_placed (h.congr rfl rfl rfl rfl rfl rfl)

theorem windowCopyKeyInput_placed (h : m.Placed) (k : KeyPress) {cmd : ModeKeyCmd}
    (hnear : cmd = .editEnter → SearchesNear (fun _ => m.inputstr) m.inputtype m) :
    Meets .all CopyMode.Placed (windowCopyKeyInput m k cmd) := by
  cases cmd
  case editCancel => exact inputOff_placed h
  case editEnter => exact (enterLine_placed h (hnear rfl)).bind fun _ h₁ => inputOff_placed h₁
  case editBackspace => exact redrawLast_placed (h.congr rfl rfl rfl rfl rfl rfl)
  case editDeleteLine => exact redrawLast_placed (h.congr rfl rfl rfl rfl rfl rfl)
  case other =>
    unfold windowCopyKeyInput
    split_ifs
    · exact redrawLast_placed h
    · exact redrawLast_placed (h.congr rfl rfl rfl rfl rfl rfl)
  all_goals exact redrawLast_placed h

theorem inputOn_placed (h : m.Placed) (inputtype : WindowCopyInputType) (prompt : String) :
    Meets .all CopyMode.Placed (inputOn m inputtype prompt) :=
  redrawLast_placed (h.congr rfl rfl rfl rfl rfl rfl)

theorem startNumberPrefix_placed (h : m.Placed) (k : KeyPress) :
    Meets .all CopyMode.Placed (startNumberPrefix m k) := by
  unfold startNumberPrefix
  split_ifs
  · exact Exec.meets_map.2 (windowCopyKeyNumericPrefix_placed
      (m := { m with inputtype := .numericPrefix, numprefix := 0 }) (h.congr rfl rfl rfl rfl rfl rfl) k)
  · exact .pure (h.congr rfl rfl rfl rfl rfl rfl)

theorem windowCopyCommand_placed (h : m.Placed) (sess : Bool) (k : KeyPress) {cmd : ModeKeyCmd}
    (hcmd : CommandKeeps m cmd) : Meets .all CopyResult.Placed (windowCopyCommand m sess k cmd) := by
  have hempty : ({ m with inputstr := [] } : CopyMode).Placed := h.congr rfl rfl rfl rfl rfl rfl
  have hmove : Meets .all CopyResult.Placed (do
      let m ← windowCopyMove m cmd
      if sess ∧ (cmd = .copyLine ∨ cmd = .copyEndOfLine) then copyAndLeave m (-1)
      else pure (.stays { m with numprefix := -1 })) := by
    refine (windowCopyMove_placed h hcmd).bind fun m₁ h₁ => ?_
    split_ifs
    · exact copyAndLeave_placed m₁ _
    · exact .pure (CopyMode.Placed.stays (m := { m₁ with numprefix := -1 }) (h₁.congr rfl rfl rfl rfl rfl rfl))
  unfold windowCopyCommand
  cases cmd
  case cancel => exact .pure (leaves_placed _)
  case copySelection =>
    dsimp only
    split_ifs
    · exact copyAndLeave_placed m _
    · exact .pure (CopyMode.Placed.stays (m := { m with numprefix := -1 }) (h.congr rfl rfl rfl rfl rfl rfl))
  case jump => exact stays_placed (inputOn_placed hempty _ _)
  case jumpBack => exact stays_placed (inputOn_placed hempty _ _)
  case jumpTo => exact stays_placed (inputOn_placed hempty _ _)
  case jumpToBack => exact stays_placed (inputOn_placed hempty _ _)
  case searchUp => exact stays_placed (inputOn_placed h _ _)
  case searchDown => exact stays_placed (inputOn_placed h _ _)
  case gotoLine => exact stays_placed (inputOn_placed hempty _ _)
  case startNumberPrefix => exact stays_placed (startNumberPrefix_placed h k)
  all_goals exact hmove

/-- What a key needs to keep the position in the grid. -/
def KeyKeeps (m : CopyMode) (k : KeyPress) (cmd : ModeKeyCmd) : Prop :=
  if m.inputtype.jumps then True
  else if m.inputtype = .numericPrefix then
    k.key < 48 ∨ k.key > 57 → ∀ m' ∈ (redrawLast { m with inputtype := .off }).value?, CommandKeeps m' cmd
  else if m.inputtype ≠ .off then cmd = .editEnter → SearchesNear (fun _ => m.inputstr) m.inputtype m
  else CommandKeeps m cmd

instance (m : CopyMode) (k : KeyPress) (cmd : ModeKeyCmd) : Decidable (KeyKeeps m k cmd) := by
  unfold KeyKeeps
  infer_instance

theorem windowCopyKey_placed (h : m.Placed) (sess : Bool) (k : KeyPress) {cmd : ModeKeyCmd}
    (hkey : KeyKeeps m k cmd) : Meets .all CopyResult.Placed (windowCopyKey m sess k cmd) := by
  unfold KeyKeeps at hkey
  unfold windowCopyKey
  by_cases hjumps : m.inputtype.jumps = true
  · rw [if_pos hjumps]
    exact stays_placed (readJump_placed h k)
  · rw [if_neg hjumps] at hkey ⊢
    by_cases hprefix : m.inputtype = .numericPrefix
    · rw [if_pos hprefix] at hkey ⊢
      by_cases hdigit : k.key < 48 ∨ k.key > 57
      · rw [windowCopyKeyNumericPrefix, if_pos hdigit, pure_bind]
        refine (redrawLast_placed (m := { m with inputtype := .off })
          (h.congr rfl rfl rfl rfl rfl rfl)).self.bind fun m₁ h₁ => ?_
        exact windowCopyCommand_placed h₁.1 sess k (hkey hdigit m₁ h₁.2)
      · have hread : Meets .all (fun p => p.1.Placed ∧ p.2 = true) (windowCopyKeyNumericPrefix m k) := by
          refine (windowCopyKeyNumericPrefix_placed h k).and ?_
          rw [windowCopyKeyNumericPrefix, if_neg hdigit]
          split_ifs
          · exact .pure rfl
          · exact (meets_all _).bind fun _ _ => .pure rfl
        refine hread.bind fun p hp => ?_
        obtain ⟨m₁, digit⟩ := p
        obtain ⟨h₁, rfl⟩ := hp
        exact .pure h₁.stays
    · rw [if_neg hprefix] at hkey ⊢
      by_cases hinput : m.inputtype ≠ .off
      · rw [if_pos hinput] at hkey ⊢
        exact stays_placed (windowCopyKeyInput_placed h k hkey)
      · rw [if_neg hinput] at hkey ⊢
        exact windowCopyCommand_placed h sess k hkey

/-- Other modes of the screen. -/
theorem CopyMode.Placed.setMode (h : m.Placed) (mode : UInt16) :
    ({ m with screen := { m.screen with mode } } : CopyMode).Placed :=
  ⟨⟨⟨⟨h.screen.cursor, h.screen.region, h.screen.bottom, h.screen.lines⟩, h.backing, h.width, h.sx, h.sy, h.lines,
    h.hlimit⟩, h.cy, h.oy⟩, h.cx⟩

theorem resetMouse_placed (h : m.Placed) (sess : Bool) : Meets .all CopyResult.Placed (resetMouse m sess) := by
  unfold resetMouse
  dsimp only
  split_ifs
  · exact copyAndLeave_placed _ _
  · exact .pure (h.setMode _).stays

theorem windowCopyMouse_placed (h : m.Placed) (sess : Bool) {ev : MouseEvent}
    (hwheel : ev.b &&& mouse45 ≠ 0 → m.Recalls) : Meets .all CopyResult.Placed (windowCopyMouse m sess ev) := by
  unfold windowCopyMouse
  by_cases hx : ev.x ≥ m.screen.grid.sx
  · rw [if_pos hx]
    exact .pure h.stays
  rw [if_neg hx]
  by_cases hy : ev.y ≥ m.screen.grid.sy
  · rw [if_pos hy]
    exact .pure h.stays
  rw [if_neg hy]
  by_cases h45 : ev.b &&& mouse45 ≠ 0
  · rw [if_pos h45]
    have hr := hwheel h45
    split_ifs
    · exact stays_placed ((times_recalls (windowCopyCursorUp_keepsPlace false) 5).placed h hr)
    · refine ((times_recalls (windowCopyCursorDown_keepsPlace false) 5).placed h hr).bind fun m₁ h₁ => ?_
      split_ifs
      · exact resetMouse_placed h₁ sess
      · exact .pure h₁.stays
    · exact .pure h.stays
  rw [if_neg h45]
  by_cases hbutton : m.screen.hasMode modeMouseButton = true
  · rw [if_pos hbutton]
    split_ifs
    · refine (updateCursor_placed h (by omega) (by omega)).bind fun m₁ h₁ => ?_
      refine (windowCopyUpdateSelection_drawn h₁.screen h₁.width).bind fun ⟨m₂, selected⟩ hp => ?_
      have h₂ := hp.placed h₁
      dsimp only at h₂ ⊢
      split_ifs
      · exact stays_placed (redrawScreen_placed h₂)
      · exact .pure h₂.stays
    · exact resetMouse_placed h sess
  · rw [if_neg hbutton]
    split_ifs
    · refine (updateCursor_placed (h.setMode _) (by dsimp only; omega) (by dsimp only; omega)).bind fun m₁ h₁ => ?_
      exact (windowCopyStartSelection_placed h₁).bind fun m₂ h₂ => stays_placed (redrawScreen_placed h₂.1)
    · exact .pure h.stays

/-! ## The backing screen -/

/-- A screen of a size, with as many lines as are counted by words. -/
structure Screen.Fits (s : Screen) (sx sy hlimit : ℕ) : Prop where
  rows : s.InRows
  sx : s.grid.sx = sx
  sy : s.grid.sy = sy
  hlimit : s.grid.hlimit = hlimit
  lines : s.grid.hsize + s.grid.sy < Exec.word

theorem screenResize_fits {s : Screen} (h : s.InRows) (hx : 1 ≤ s.grid.sx) {sx sy : ℕ} (hsx : 1 ≤ sx) (hsy : 1 ≤ sy)
    (hlines : s.grid.hsize + s.grid.sy + sy < Exec.word) :
    Meets .all (fun s' => s'.Fits sx sy s.grid.hlimit) (screenResize s sx sy) := by
  refine ((screenResize_resized (fun _ _ _ => trivial) h hx sx sy).and (screenResize_history h sx sy)).mono
    fun s' ⟨⟨hrows, hsx', hsy'⟩, hhsize, hlimit⟩ => ⟨hrows.rows, by omega, by omega, hlimit, by omega⟩

/-- Once the sizes are the new ones, the position is limited to them. -/
theorem clampPosition_placed {hlimit sx sy : ℕ} (hsx : 1 ≤ sx) (hsy : 1 ≤ sy) (hrows : m.screen.InRows)
    (hsx' : m.screen.grid.sx = sx) (hsy' : m.screen.grid.sy = sy) (hbacking : m.backing.Fits sx sy hlimit)
    (hlimit : m.ofPane = false → m.backing.grid.hlimit = outputLimit) :
    Meets .all CopyMode.Placed (clampPosition m sx sy) := by
  unfold clampPosition
  rw [usub_of_le hsy, pure_bind]
  refine .pure ⟨⟨⟨hrows, hbacking.rows, hsx' ▸ hsx, hbacking.sx.trans hsx'.symm, hbacking.sy.trans hsy'.symm,
    hbacking.lines, hlimit⟩, ?_, limit_le _ _⟩, ?_⟩
  · have := limit_le m.cy (sy - 1)
    dsimp only
    omega
  · exact (limit_le _ _).trans hsx'.ge

theorem resizeBacking_own {ofPane : Bool} {sx sy : ℕ} (h : m.ofPane = ofPane) :
    resizeBacking m ofPane sx sy = screenResize m.backing sx sy := if_pos h

theorem resizeBacking_other {ofPane : Bool} {sx sy : ℕ} (h : m.ofPane ≠ ofPane) :
    resizeBacking m ofPane sx sy = pure m.backing := if_neg h

theorem windowCopyResize_placed {sx sy : ℕ} (hsx : 1 ≤ sx) (hsy : 1 ≤ sy) (hrows : m.screen.InRows)
    (hx : 1 ≤ m.screen.grid.sx) (hlimit : m.ofPane = false → m.backing.grid.hlimit = outputLimit)
    (hbacking : Meets .all (fun s => s.Fits sx sy m.backing.grid.hlimit) (resizeBacking m false sx sy)) :
    Meets .all CopyMode.Placed (windowCopyResize m sx sy) := by
  refine (screenResize_resized (fun _ _ _ => trivial) hrows hx sx sy).bind fun s₁ ⟨h₁, hsx₁, hsy₁⟩ => ?_
  refine hbacking.bind fun b hb => ?_
  refine (clampPosition_placed (m := { m with screen := s₁, backing := b }) hsx hsy h₁.rows
    (hsx₁.trans (by omega)) (hsy₁.trans (by omega)) hb fun hpane => hb.hlimit.trans (hlimit hpane)).bind fun m₁ h₁ => ?_
  refine (windowCopyClearSelection_placed h₁).bind fun m₂ h₂ => (meets_all _).bind fun last _ => ?_
  refine (windowCopyWriteLines_drawn h₂.screen h₂.width 0 last).bind fun m₃ h₃ => ?_
  exact redrawScreen_placed (h₃.placed h₂)

theorem resizePane_placed (h : m.Placed) {sx sy : ℕ} (hsx : 1 ≤ sx) (hsy : 1 ≤ sy)
    (hlines : m.backing.grid.hsize + m.backing.grid.sy + sy < Exec.word) :
    Meets .all CopyMode.Placed (resizePane m sx sy) := by
  have hfits := screenResize_fits h.backing (h.sx ▸ h.width) hsx hsy hlines
  unfold resizePane
  split_ifs
  · exact .pure h
  · by_cases hpane : m.ofPane = true
    · rw [resizeBacking_own hpane]
      refine hfits.bind fun b hb => ?_
      refine windowCopyResize_placed (m := { m with backing := b }) hsx hsy h.screen h.width
        (fun hout => absurd (hpane.symm.trans hout) nofun) ?_
      have hown : ¬ m.ofPane = false := fun hout => absurd (hpane.symm.trans hout) nofun
      rw [resizeBacking_other (m := { m with backing := b }) hown]
      exact .pure { hb with hlimit := rfl }
    · rw [resizeBacking_other hpane, pure_bind]
      refine windowCopyResize_placed hsx hsy h.screen h.width h.hlimit ?_
      rw [resizeBacking_own (by simpa using hpane)]
      exact hfits

/-- Writing a line of output adds to the history a line for each byte at most, and one before. -/
theorem writeOutput_grows (h : m.Placed) (hlimit : m.backing.grid.hlimit = outputLimit) {msg : List UInt8}
    (hlines : m.backing.grid.hsize + (msg.length + 1) < Exec.word) :
    Meets .all (m.backing.Grows (msg.length + 1)) (writeOutput m msg) := by
  have hwidth : 1 ≤ m.backing.grid.sx := h.sx ▸ h.width
  have hroom : m.backing.grid.HasRoom (1 + msg.length) := by
    rw [Grid.HasRoom, hlimit]
    simp only [outputLimit, Exec.word] at *
    omega
  unfold writeOutput
  split_ifs
  · have hreturn : (screenWriteCarriagereturn m.backing).InRows := (screenWriteCarriagereturn_stays h.backing).rows
    have hone : m.backing.grid.HasRoom 1 := ⟨by have := hroom.1; omega, hroom.2⟩
    refine (screenWriteLinefeed_grows hreturn hone false).bind fun s₁ h₁ => ?_
    have h₁ : m.backing.Grows 1 s₁ :=
      ⟨(screenWriteCarriagereturn_stays h.backing).toKept.trans h₁.toKept, h₁.least, h₁.most⟩
    refine (screenWriteVnputs_grows h₁.rows (h₁.grid.sx ▸ hwidth) _ _ (h₁.hasRoom hroom)).mono fun s₂ h₂ => ?_
    exact (h₁.trans h₂).weaken (by omega)
  · refine (screenWriteVnputs_grows h.backing hwidth _ _ ⟨by have := hroom.1; omega, hroom.2⟩).mono fun s₁ h₁ => ?_
    exact h₁.weaken (by omega)

theorem windowCopyVadd_placed (h : m.Placed) {msg : List UInt8}
    (hlines : m.backing.grid.hsize + m.backing.grid.sy + (msg.length + 1) < Exec.word) :
    Meets .all CopyMode.Placed (windowCopyVadd m msg) := by
  have hredraw : ∀ m : CopyMode, m.Placed → ∀ py, Meets .all CopyMode.Placed (windowCopyRedrawLines m py 1) :=
    fun m hm py => (windowCopyRedrawLines_drawn hm.screen hm.width py 1).mono fun _ h' => h'.placed hm
  unfold windowCopyVadd
  by_cases hpane : m.ofPane = true
  · rw [if_pos hpane]
    exact .pure h
  · rw [if_neg hpane]
    have hlimit := h.hlimit (by simpa using hpane)
    refine (writeOutput_grows h hlimit (by omega)).bind fun b hb => ?_
    have hoy := h.oy
    have hleast := hb.least
    have hmost := hb.most
    have hsy := hb.grid.sy
    rw [usub_of_le hleast, pure_bind]
    have hadd := uadd_le m.oy (b.grid.hsize - m.backing.grid.hsize)
    have hplaced : CopyMode.Placed { m with
        backing := b, backingWritten := true, oy := uadd m.oy (b.grid.hsize - m.backing.grid.hsize) } :=
      ⟨⟨⟨h.screen, hb.rows, h.width, hb.grid.sx.trans h.sx, hsy.trans h.sy, by dsimp only; omega, fun _ =>
        hb.grid.hlimit.trans hlimit⟩, h.cy, by dsimp only; omega⟩, h.cx⟩
    refine Meets.bind (P := CopyMode.Placed) ?_ fun m₂ h₂ => ?_
    · unfold drawTop
      split_ifs
      · exact hredraw _ hplaced 0
      · exact .pure hplaced
    · split_ifs
      · exact hredraw m₂ h₂ _
      · exact .pure h₂

/-- Clearing the history keeps the position in the grid if none of it is shown. -/
theorem clearHistory_placed (h : m.Placed) (hoy : m.ofPane = true → m.oy = 0) :
    Meets .all CopyMode.Placed (clearHistory m) := by
  have hlines := h.lines
  unfold clearHistory screenWriteClearhistory
  split_ifs with hpane
  · rw [bind_assoc]
    refine (gridMoveLines_edits (w := .all) trivial m.backing.grid 0 m.backing.grid.hsize m.backing.grid.sy).bind
      fun gd hgd => ?_
    have hsy := hgd.sy
    have hkept : m.backing.Stays { m.backing with grid := { gd with hsize := 0 } } := Screen.stays_grid h.backing
      ⟨⟨hgd.history, hgd.sx, hgd.sy, hgd.hlimit⟩, fun _ => hgd.length, fun _ => .inr rfl⟩
    refine .pure ⟨⟨⟨h.screen, hkept.rows, h.width, hgd.sx.trans h.sx, hsy.trans h.sy, ?_, fun hout => ?_⟩, h.cy, ?_⟩,
      h.cx⟩
    · dsimp only
      omega
    · exact hgd.hlimit.trans (h.hlimit hout)
    · exact (hoy hpane).le
  · exact .pure h

/-! ## Runs -/

/-- What an event needs to keep the position in the grid. -/
def CopyEvent.keepsPlace (m : CopyMode) : CopyEvent → Prop
  | .key _ k cmd => KeyKeeps m k cmd
  | .mouse _ ev => ev.b &&& mouse45 ≠ 0 → m.Recalls
  | .pageup => True
  | .resize sx sy => 1 ≤ sx ∧ 1 ≤ sy ∧ m.backing.grid.hsize + m.backing.grid.sy + sy < Exec.word
  | .output msg => m.backing.grid.hsize + m.backing.grid.sy + (msg.length + 1) < Exec.word
  | .clearHistory => m.ofPane = true → m.oy = 0

instance (m : CopyMode) : Decidable m.Recalls :=
  inferInstanceAs (Decidable (m.rectflag = true → m.sel = true → m.lastcx ≤ m.screen.grid.sx))

instance CopyEvent.decidableKeepsPlace (m : CopyMode) : (e : CopyEvent) → Decidable (e.keepsPlace m)
  | .key _ k cmd => inferInstanceAs (Decidable (KeyKeeps m k cmd))
  | .mouse _ ev => inferInstanceAs (Decidable (ev.b &&& mouse45 ≠ 0 → m.Recalls))
  | .pageup => .isTrue trivial
  | .resize sx sy => inferInstanceAs (Decidable (1 ≤ sx ∧ 1 ≤ sy ∧
      m.backing.grid.hsize + m.backing.grid.sy + sy < Exec.word))
  | .output msg => inferInstanceAs (Decidable (m.backing.grid.hsize + m.backing.grid.sy + (msg.length + 1) < Exec.word))
  | .clearHistory => inferInstanceAs (Decidable (m.ofPane = true → m.oy = 0))

/-- An event in copy mode keeps the position in the grid. -/
theorem copyEvent_placed (h : m.Placed) {e : CopyEvent} (he : e.keepsPlace m) :
    Meets .all CopyResult.Placed (copyEvent m e) := by
  cases e with
  | key sess k cmd => exact windowCopyKey_placed h sess k he
  | mouse sess ev => exact windowCopyMouse_placed h sess he
  | pageup => exact stays_placed (windowCopyPageup_placed h)
  | resize sx sy => exact stays_placed (resizePane_placed h he.1 he.2.1 he.2.2)
  | output msg => exact stays_placed (windowCopyVadd_placed h he)
  | clearHistory => exact stays_placed (clearHistory_placed h he)

/-- While copy mode goes on, the event has what it needs to keep the position in the grid. -/
def StepKeeps : CopyResult → CopyEvent → Prop
  | .stays m, e => e.keepsPlace m
  | .leaves _, _ => True

instance : (r : CopyResult) → (e : CopyEvent) → Decidable (StepKeeps r e)
  | .stays m, e => CopyEvent.decidableKeepsPlace m e
  | .leaves _, _ => .isTrue trivial

theorem copyStep_placed {r : CopyResult} (h : r.Placed) {e : CopyEvent} (he : StepKeeps r e) :
    Meets .all CopyResult.Placed (copyStep r e) := by
  cases r with
  | stays m => exact copyEvent_placed (h m rfl) he
  | leaves copied => exact .pure (leaves_placed copied)

/-- A pane that copy mode is entered on: its cursor is on it, and its lines are counted by words. -/
structure Screen.Entered (s : Screen) : Prop where
  rows : s.InRows
  width : 1 ≤ s.grid.sx
  cx : s.cx ≤ s.grid.sx
  lines : s.grid.hsize + s.grid.sy < Exec.word

theorem screenInit_rows {sx sy : ℕ} (hsy : 1 ≤ sy) (hlimit : ℕ) :
    Meets .all (fun s => s.InRows ∧ s.grid.sx = sx ∧ s.grid.sy = sy ∧ s.grid.hlimit = hlimit ∧ s.grid.hsize = 0)
      (screenInit [] sx sy hlimit) := by
  refine (meets_usub (.inr hsy)).bind fun rlower hr => ?_
  refine (gridClearLines_edits trivial _ _ _).bind fun gd hgd => .pure ?_
  have hr : rlower = sy - 1 := hr hsy
  have hgy : gd.sy = sy := hgd.sy
  refine ⟨⟨hgy ▸ hsy, Nat.zero_le _, ?_, fun h => ?_⟩, hgd.sx, hgy, hgd.hlimit, hgd.hsize⟩
  · dsimp only [screenResetTabs]
    omega
  · dsimp only [screenResetTabs] at h ⊢
    omega

/-- What copy mode is entered for: the contents of a pane, or the output of a command. -/
inductive CopySource
  | pane
  | output
  deriving DecidableEq, Repr

def enterFor (source : CopySource) (options : CopyOptions) (base : Screen) (modeMouse : Bool) : Exec CopyMode :=
  match source with
  | .pane => enterCopyMode options base modeMouse
  | .output => enterForOutput options base modeMouse

theorem enterFor_placed {base : Screen} (h : base.Entered) (source : CopySource) (options : CopyOptions)
    (modeMouse : Bool) : Meets .all CopyMode.Placed (enterFor source options base modeMouse) := by
  have hsy : 1 ≤ base.grid.sy := Nat.one_le_of_lt h.rows.cursor
  have hinit : Meets .all (fun m : CopyMode => m.screen.InRows ∧ m.screen.grid.sx = base.grid.sx ∧
      m.screen.grid.sy = base.grid.sy ∧ m.cx = 0 ∧ m.cy = 0 ∧ m.oy = 0) (windowCopyInit options base modeMouse) := by
    refine (screenInit_rows hsy 0).bind fun s ⟨hrows, hsx, hsy, _⟩ => .pure ?_
    cases modeMouse
    · exact ⟨hrows, hsx, hsy, rfl, rfl, rfl⟩
    · exact ⟨⟨hrows.cursor, hrows.region, hrows.bottom, hrows.lines⟩, hsx, hsy, rfl, rfl, rfl⟩
  have hlines := h.lines
  cases source with
  | pane =>
    refine hinit.bind fun m ⟨hrows, hsx, hsy, _, _, hoy⟩ => ?_
    have hm : CopyMode.Placed { m with
        backing := base, ofPane := true, cx := base.cx, cy := base.cy
        screen := { m.screen with cx := base.cx, cy := base.cy } } :=
      ⟨⟨⟨⟨hsy ▸ h.rows.cursor, hrows.region, hrows.bottom, hrows.lines⟩, h.rows, hsx ▸ h.width, hsx.symm, hsy.symm,
        hlines, nofun⟩, hsy ▸ h.rows.cursor, hoy ▸ Nat.zero_le _⟩, hsx ▸ h.cx⟩
    refine (writeLines_drawn hm.screen hm.width _).bind fun m₁ h₁ => ?_
    have hm₁ := h₁.placed hm
    exact (moveCursor_drawn hm₁.screen hm₁.width _ _).mono fun _ h₂ => h₂.placed hm₁
  | output =>
    refine hinit.bind fun m ⟨hrows, hsx, hsy', hcx, hcy, hoy⟩ => ?_
    refine (screenInit_rows hsy outputLimit).bind fun s ⟨hs, hssx, hssy, hlimit, hhsize⟩ => .pure ?_
    refine ⟨⟨⟨hrows, ⟨hs.cursor, hs.region, hs.bottom, hs.lines⟩, hsx ▸ h.width, hssx.trans hsx.symm,
      hssy.trans hsy'.symm, ?_, fun _ => hlimit⟩, ?_, ?_⟩, ?_⟩
    · dsimp only
      omega
    · dsimp only
      omega
    · exact hoy ▸ Nat.zero_le _
    · exact hcx ▸ Nat.zero_le _

/-- In a run in copy mode, the position addresses the backing grid in every state, and the line of
    the cursor is one of it. -/
theorem copyRun_inPlace {options : CopyOptions} {base : Screen} {modeMouse : Bool} {source : CopySource}
    (hbase : base.Entered) (hm : (enterFor source options base modeMouse).value? = some m) {es : List CopyEvent}
    (hes : Along copyStep StepKeeps (.stays m) es)
    (hrun : (es.foldlM copyStep (.stays m)).value? = some (.stays m')) :
    m'.InPlace ∧ backingRow m' = pure (m'.backing.grid.hsize - m'.oy + m'.cy) ∧
      m'.backing.grid.hsize - m'.oy + m'.cy < m'.backing.grid.hsize + m'.screen.grid.sy := by
  have h := (enterFor_placed hbase source options modeMouse).value hm
  have h' : m'.Placed := (Meets.foldlM_along (fun _ _ he hr => copyStep_placed hr he) hes h.stays).value hrun m' rfl
  refine ⟨h'.inPlace h'.cx, h'.backingRow_eq.1, ?_⟩
  rw [← h'.sy]
  exact h'.backingRow_eq.2

theorem screenOfText_entered {sx sy cx cy : ℕ} {text : List (List UInt8)} (hsx : 1 ≤ sx) (hcx : cx ≤ sx)
    (hcy : cy < sy) (hlines : text.length - sy + sy < Exec.word) : (screenOfText sx sy cx cy text).Entered where
  rows := ⟨hcy, Nat.zero_le _, by dsimp only [screenOfText, gridCreate]; omega, fun h => by
    dsimp only [screenOfText, gridCreate] at h ⊢; omega⟩
  width := hsx
  cx := hcx
  lines := hlines

/-- What becomes of copy mode, if it goes on. -/
def CopyResult.mode? : CopyResult → Option CopyMode
  | stays m => some m
  | leaves _ => none

theorem CopyResult.mode?_eq_some {r : CopyResult} (h : r.mode? = some m) : r = .stays m := by
  cases r with
  | stays m' =>
    obtain rfl := Option.some.inj h
    rfl
  | leaves copied => cases h

/-- Selecting in a pane with history, which then gets another size and loses the history, and searching. -/
theorem copyRun_inPlace_small : ∃ m m',
    (enterFor .pane {} (screenOfText 3 2 0 0 [[97, 98], [99], [100]]) false).value? = some m ∧
    (([.pageup, .key true { key := 32 } .startSelection, .key true { key := 106 } .down, .resize 2 2,
      .key true { key := 71 } .historyBottom, .clearHistory, .key true { key := 47 } .searchDown,
      .key true { key := 99 } .other, .key true { key := 10 } .editEnter] : List CopyEvent).foldlM copyStep
        (.stays m)).value? = some (.stays m') ∧
    m'.InPlace ∧ backingRow m' = pure (m'.backing.grid.hsize - m'.oy + m'.cy) ∧
      m'.backing.grid.hsize - m'.oy + m'.cy < m'.backing.grid.hsize + m'.screen.grid.sy := by
  have hany : ((enterFor .pane {} (screenOfText 3 2 0 0 [[97, 98], [99], [100]]) false).value?.any fun m =>
      Along copyStep StepKeeps (.stays m)
        [.pageup, .key true { key := 32 } .startSelection, .key true { key := 106 } .down, .resize 2 2,
          .key true { key := 71 } .historyBottom, .clearHistory, .key true { key := 47 } .searchDown,
          .key true { key := 99 } .other, .key true { key := 10 } .editEnter] ∧
      ((([.pageup, .key true { key := 32 } .startSelection, .key true { key := 106 } .down, .resize 2 2,
          .key true { key := 71 } .historyBottom, .clearHistory, .key true { key := 47 } .searchDown,
          .key true { key := 99 } .other, .key true { key := 10 } .editEnter] : List CopyEvent).foldlM copyStep
        (.stays m)).value?.bind CopyResult.mode?).isSome) = true := by decide +kernel
  obtain ⟨m, hm, hes⟩ := (Option.any_eq_true _ _).1 hany
  obtain ⟨hes, hrun⟩ := of_decide_eq_true hes
  obtain ⟨m', hrun⟩ := Option.isSome_iff_exists.1 hrun
  obtain ⟨r, hr, hmode⟩ := Option.bind_eq_some_iff.1 hrun
  obtain rfl := CopyResult.mode?_eq_some hmode
  refine ⟨m, m', hm, hr, copyRun_inPlace ?_ hm hes hr⟩
  exact screenOfText_entered (by decide) (by decide) (by decide) (by decide)

/-- Clearing the history while a line of it is shown leaves the position above the backing grid. -/
theorem copyRun_not_inPlace : ∃ m m',
    (enterFor .pane {} (screenOfText 2 2 0 0 [[97], [98], [99]]) false).value? = some m ∧
    (([.key true { key := 74 } .scrollUp, .clearHistory] : List CopyEvent).foldlM copyStep (.stays m)).value? =
      some (.stays m') ∧
    m'.backing.grid.hsize < m'.oy ∧ (backingRow m').wraps = true ∧ ¬ m'.InPlace := by
  have hany : ((enterFor .pane {} (screenOfText 2 2 0 0 [[97], [98], [99]]) false).value?.any fun m =>
      ((([.key true { key := 74 } .scrollUp, .clearHistory] : List CopyEvent).foldlM copyStep
        (.stays m)).value?.bind CopyResult.mode?).any fun m' =>
        m'.backing.grid.hsize < m'.oy ∧ (backingRow m').wraps = true) = true := by decide +kernel
  obtain ⟨m, hm, hany⟩ := (Option.any_eq_true _ _).1 hany
  obtain ⟨m', hm', hplace⟩ := (Option.any_eq_true _ _).1 hany
  obtain ⟨r, hr, hmode⟩ := Option.bind_eq_some_iff.1 hm'
  obtain rfl := CopyResult.mode?_eq_some hmode
  obtain ⟨hoy, hwraps⟩ := of_decide_eq_true hplace
  exact ⟨m, m', hm, hr, hoy, hwraps, fun h => absurd h.oy (by omega)⟩

/-- A search on a screen of two rows may put the cursor below it. -/
example : ((do
    let m ← enterFor .pane {} (screenOfText 2 2 0 0 [[97], [98], [120], [99], [100]]) false
    ([.key true { key := 63 } .searchUp, .key true { key := 120 } .other, .key true { key := 10 } .editEnter] :
      List CopyEvent).foldlM copyStep (.stays m)).value?.bind CopyResult.mode?).map CopyMode.cy = some 2 := by
  decide +kernel

/-- A rectangle on a narrower screen recalls a column that is not there any more. -/
example : ((do
    let m ← enterFor .pane {} (screenOfText 4 2 2 1 [[97, 98, 99, 100], [98, 98]]) false
    ([.key true { key := 82 } .rectangleToggle, .key true { key := 32 } .startSelection,
      .key true { key := 108 } .right, .key true { key := 108 } .right, .key true { key := 107 } .up, .resize 2 2,
      .key true { key := 32 } .startSelection, .key true { key := 106 } .down] :
      List CopyEvent).foldlM copyStep (.stays m)).value?.bind CopyResult.mode?).map CopyMode.cx = some 4 := by
  decide +kernel

end Tmux
