import Tmux.Grid.Scroll
import Tmux.Input.Pending

/-!
# Replaying pending input

The bytes kept since the parser was last in the ground state, fed to the parser of a
fresh pane, bring it to the same state with the same pending, from where it takes the same
transitions (`inputParse_replay`).

The replay returns (`replay_returns`), as all that these bytes ask of the screen is control
characters, which a screen that is whole (`Screen.Sturdy`) carries out.
-/

namespace Tmux

/-! ## Control characters -/

/-- A screen with its lines, its tabs and its cursor in place. -/
structure Screen.Sturdy (s : Screen) (hlimit : ℕ) : Prop where
  grid : s.grid.Limited hlimit
  width : 1 ≤ s.grid.sx
  tabs : s.tabs.length = s.grid.sx
  row : s.cy < s.grid.sy
  region : s.rupper ≤ s.rlower
  bottom : s.rlower < s.grid.sy

section

variable {s : Screen} {hlimit : ℕ}

theorem Grid.Limited.line {g : Grid} (h : g.Limited hlimit) {r : ℕ} (hr : r < g.sy) :
    ∃ gl, g.linedata[gridViewY g r]? = some gl := by
  rw [gridViewY_eq h.whole hr.le]
  exact ⟨_, List.getElem?_eq_getElem (by rw [h.length]; omega)⟩

theorem screenWriteBackspace_sturdy (h : s.Sturdy hlimit) :
    ∃ s', screenWriteBackspace s = pure s' ∧ s'.Sturdy hlimit := by
  have hrow := h.row
  unfold screenWriteBackspace
  split_ifs with hcx hcy
  · exact ⟨s, rfl, h⟩
  · obtain ⟨gl, hgl⟩ := h.grid.line (r := s.cy - 1) (by omega)
    rw [Block.load_eq hgl, pure_bind, Exec.usub_of_le h.width, pure_bind]
    split_ifs
    · exact ⟨_, rfl, h.grid, h.width, h.tabs, by dsimp only; omega, h.region, h.bottom⟩
    · exact ⟨s, rfl, h⟩
  · exact ⟨_, rfl, h.grid, h.width, h.tabs, h.row, h.region, h.bottom⟩

theorem nextTab_returns (tabs : List Bool) {n : ℕ} (cx : ℕ) (h : cx + n < tabs.length) :
    ∃ cx', nextTab tabs cx n = pure cx' := by
  induction n generalizing cx with
  | zero => exact ⟨cx, rfl⟩
  | succ n ih =>
    have hbit : bitTest tabs (cx + 1) = pure tabs[cx + 1] := by
      rw [bitTest, List.getElem?_eq_getElem (by omega)]
    rw [nextTab, hbit, pure_bind]
    split_ifs
    · exact ⟨_, rfl⟩
    · exact ih _ (by omega)

theorem tabRight_sturdy (h : s.Sturdy hlimit) : ∃ s', tabRight s = pure s' ∧ s'.Sturdy hlimit := by
  unfold tabRight
  have hwidth := h.width
  have htabs := h.tabs
  rw [Exec.usub_of_le hwidth, pure_bind]
  split_ifs with hcx
  · exact ⟨s, rfl, h⟩
  · obtain ⟨cx, hnext⟩ := nextTab_returns s.tabs (n := s.grid.sx - 1 - s.cx) s.cx (by omega)
    rw [hnext]
    exact ⟨_, rfl, h.grid, h.width, h.tabs, h.row, h.region, h.bottom⟩

theorem screenWriteLinefeed_sturdy (h : s.Sturdy hlimit) (hlimit' : 1 ≤ hlimit) (wrapped : Bool) :
    ∃ s', screenWriteLinefeed s wrapped = pure s' ∧ s'.Sturdy hlimit := by
  obtain ⟨gl, hgl⟩ := h.grid.line h.row
  have hrow : gridViewY s.grid s.cy < s.grid.linedata.length := (List.getElem?_eq_some_iff.1 hgl).1
  obtain ⟨gd, hgd⟩ : ∃ gd : Grid, gd = { s.grid with
    linedata := s.grid.linedata.set (gridViewY s.grid s.cy) { gl with wrapped } } := ⟨_, rfl⟩
  have hupdate : updateRow s.grid (gridViewY s.grid s.cy) (fun gl => pure { gl with wrapped }) = pure gd := by
    rw [updateRow, Block.load_eq hgl, pure_bind, pure_bind, Block.store_eq hrow, pure_bind, hgd]
  have hlimited : gd.Limited hlimit := by
    rw [hgd]
    exact ⟨h.grid.on, h.grid.limit, h.grid.hsize, by rw [List.length_set, h.grid.length], h.grid.room,
      h.grid.sx, h.grid.sy⟩
  have hsx : gd.sx = s.grid.sx := by rw [hgd]
  have hsy : gd.sy = s.grid.sy := by rw [hgd]
  have hsturdy : ∀ {gd' : Grid} {cy : ℕ}, gd'.Limited hlimit → gd'.sx = s.grid.sx → gd'.sy = s.grid.sy →
      cy < s.grid.sy → Screen.Sturdy { s with grid := gd', cy } hlimit := fun hgd' hx hy hcy =>
    ⟨hgd', hx ▸ h.width, hx ▸ h.tabs, hy ▸ hcy, h.region, hy ▸ h.bottom⟩
  unfold screenWriteLinefeed
  rw [hupdate, pure_bind, Exec.usub_of_le h.grid.sy, Exec.forget_pure, pure_bind]
  split_ifs with hlower hlast
  · obtain ⟨gd', hscroll, hgd'⟩ := hlimited.scroll hlimit' h.region (hsy ▸ h.bottom)
    have hshape := ((gridViewScrollRegionUp_kept (w := .all) trivial trivial gd s.rupper s.rlower)).value
      (a := gd') (by rw [hscroll]; rfl)
    rw [hscroll, Exec.forget_pure, pure_bind]
    exact ⟨_, rfl, hsturdy hgd' (hshape.sx.trans hsx) (hshape.sy.trans hsy) h.row⟩
  · exact ⟨_, rfl, hsturdy hlimited hsx hsy (by omega)⟩
  · exact ⟨_, rfl, hsturdy hlimited hsx hsy h.row⟩

/-- Control characters are carried out. -/
theorem performControl_sturdy {ps : PaneScreen} (h : ps.base.Sturdy hlimit) (hlimit' : 1 ≤ hlimit) (ch : UInt8) :
    ∃ ps', perform ps (controlOperation ch) = pure ps' ∧ ps'.base.Sturdy hlimit := by
  have hmap : ∀ {x : Exec Screen}, (∃ s, x = pure s ∧ s.Sturdy hlimit) →
      ∃ ps', (fun base => { ps with base }) <$> x = pure ps' ∧ ps'.base.Sturdy hlimit := by
    rintro x ⟨s, rfl, hs⟩
    exact ⟨_, by rw [map_pure], hs⟩
  unfold controlOperation
  split
  · exact hmap (screenWriteBackspace_sturdy h)
  · exact hmap (tabRight_sturdy h)
  · exact hmap (screenWriteLinefeed_sturdy h hlimit' false)
  · exact hmap (screenWriteLinefeed_sturdy h hlimit' false)
  · exact hmap (screenWriteLinefeed_sturdy h hlimit' false)
  · exact hmap ⟨_, rfl, h.grid, h.width, h.tabs, h.row, h.region, h.bottom⟩
  · exact ⟨ps, rfl, h⟩

end

/-! ## The replay -/

/-- A transition out of the ground state, or on from one that is not, does not print or carry out
    a command. -/
theorem kept_transitions (state : InputState) : ∀ itr ∈ state.transitions, itr.state.getD state ≠ .ground →
    itr.handler = none ∨ itr.handler = some .c0Dispatch ∨ itr.handler = some .utf8Open ∨
      (itr.handler = some .utf8Add ∧ state.inCharacter = true) ∨
      itr.handler = some .intermediate ∨ itr.handler = some .parameter ∨ itr.handler = some .input := by
  cases state <;> decide

section

variable {wp wp' q : Pane} {ch : UInt8} {itr : InputTransition} {hlimit : ℕ}

/-- The state after a byte is the one of the transition, unless the handler refuses. -/
theorem courseByte_state (utf8 : Bool) (ictx : InputCtx) (hfind : findTransition ictx.state ch = some itr) :
    (courseByte utf8 ictx ch).state =
      if (courseRun utf8 ictx ch itr).2 then itr.state.getD ictx.state else ictx.state := by
  have hbyte : courseByte utf8 ictx ch = courseTransition utf8 ictx ch itr := by
    rw [courseByte, hfind]
    rfl
  rw [hbyte, courseTransition]
  dsimp only
  split_ifs
  · rw [← pending_state, courseSwitch_pending, pending_state]
    cases itr.state with
    | none => exact courseRun_state _ _ _ _
    | some state => exact courseSetState_state _ _
  · exact courseRun_state _ _ _ _

/-- A handler of the sequence or the character that is pending returns in a parser with the same
    pending. -/
theorem runTransition_replays (hpending : wp.ictx.pending = q.ictx.pending) (hutf8 : wp.utf8 = q.utf8)
    (hfind : findTransition wp.ictx.state ch = some itr) {p : Pane × Bool}
    (hrun : (runTransition wp ch itr).value? = some p) (hchanges : p.2 = true)
    (hstate : itr.state.getD wp.ictx.state ≠ .ground) (hq : q.base.Sturdy hlimit) (hlimit' : 1 ≤ hlimit) :
    ∃ q₁, runTransition q ch itr = pure (q₁, true) ∧ q₁.base.Sturdy hlimit := by
  unfold runTransition at hrun ⊢
  rcases kept_transitions wp.ictx.state itr (findTransition_mem hfind) hstate with
    h | h | h | ⟨h, hin⟩ | h | h | h <;> rw [h] at hrun <;> simp only [h]
  · exact ⟨q, rfl, hq⟩
  · obtain ⟨ps, hps, hsturdy⟩ := performControl_sturdy hq hlimit' ch
    have hperforms : Pane.screen <$> inputC0Dispatch q ch = pure ps := (inputC0Dispatch_performs ch).trans hps
    obtain ⟨q₁, hq₁, rfl⟩ := Exec.map_eq_pure.1 hperforms
    exact ⟨q₁, by rw [runHandler, hq₁, map_pure], hsturdy⟩
  · obtain ⟨d, hd⟩ := utf8Open_pure ch
    cases hon : wp.utf8 with
    | false =>
      simp only [runHandler, inputUtf8Open, hon] at hrun
      obtain ⟨wp₁, -, hwp₁⟩ := Exec.value?_bind.1 hrun
      obtain rfl := Option.some.inj hwp₁
      cases hchanges
    | true =>
      refine ⟨{ q with ictx := { q.ictx with utf8data := d.1 } }, ?_, hq⟩
      rw [runHandler, inputUtf8Open, ← hutf8, hon, hd]
      rfl
  · -- the character has room for the byte, as it has in the other parser
    have hdata : wp.ictx.utf8data = q.ictx.utf8data := (pending_eq_iff.1 hpending).2.1 hin
    simp only [runHandler, map_eq_pure_bind] at hrun
    obtain ⟨wp₁, hadd, -⟩ := Exec.value?_bind.1 hrun
    obtain ⟨d, happend, -⟩ := Exec.value?_bind.1 hadd
    rcases utf8Append_cases wp.ictx.utf8data ch with ⟨d, hd⟩ | hfault
    · refine ⟨{ q with ictx := { q.ictx with utf8data := d.1 } }, ?_, hq⟩
      rw [runHandler, inputUtf8Add, ← hdata, hd]
      rfl
    · rw [hfault] at happend
      cases happend
  · exact ⟨_, rfl, hq⟩
  · exact ⟨_, rfl, hq⟩
  · exact ⟨_, rfl, hq⟩

theorem inputSetState_sturdy (h : q.base.Sturdy hlimit) (state : InputState) :
    ∃ q', inputSetState q state = pure q' ∧ q'.base.Sturdy hlimit := by
  have hset : ∀ title ccolour, ∃ q', q.update (fun s => pure { s with title, ccolour }) = pure q' ∧
      q'.base.Sturdy hlimit :=
    fun title ccolour => ⟨_, rfl, h.grid, h.width, h.tabs, h.row, h.region, h.bottom⟩
  have hexit : ∃ q', q.ictx.state.exit q = pure q' ∧ q'.base.Sturdy hlimit := by
    unfold InputState.exit
    split
    · unfold inputExitOsc
      extract_lets _ digits option _ p
      clear_value p option digits
      by_cases hnone : q.ictx.discard = true ∨ digits = []
      · rw [if_pos hnone]
        exact ⟨q, rfl, h⟩
      · rw [if_neg hnone]
        split
        · exact hset _ _
        · exact hset _ _
        · exact hset _ _
        · by_cases hp : p = []
          · simp only [hp, ↓reduceIte]
            exact hset _ _
          · simp only [hp, ↓reduceIte]
            exact hset _ _
        · exact ⟨q, rfl, h⟩
    · unfold inputExitApc
      split_ifs
      · exact ⟨q, rfl, h⟩
      · exact hset _ _
    · exact ⟨q, rfl, h⟩
  obtain ⟨q', hq', hsturdy⟩ := hexit
  refine ⟨{ q' with ictx := state.enter { q'.ictx with
    state, sinceGround := if state = .ground then [] else q'.ictx.sinceGround } }, ?_, hsturdy⟩
  rw [inputSetState, hq', pure_bind]

theorem saveInput_sturdy (h : q.base.Sturdy hlimit) (ch : UInt8) : (saveInput q ch).base.Sturdy hlimit := by
  rw [Pane.base, saveInput_screen]
  exact h

/-- A byte that does not lead to the ground state is parsed by a parser with the same pending. -/
theorem inputByte_replays (hpending : wp.ictx.pending = q.ictx.pending) (hutf8 : wp.utf8 = q.utf8)
    (hbyte : (inputByte wp ch).value? = some wp') (hstate : wp'.ictx.state ≠ .ground)
    (hq : q.base.Sturdy hlimit) (hlimit' : 1 ≤ hlimit) :
    ∃ q', inputByte q ch = pure q' ∧ q'.base.Sturdy hlimit := by
  obtain ⟨itr, hfind⟩ := findTransition_total wp.ictx.state ch
  have hsame : q.ictx.state = wp.ictx.state := by rw [← pending_state, ← hpending, pending_state]
  have hcourse : (courseByte wp.utf8 wp.ictx.course ch).state = wp'.ictx.course.state := by
    rw [((inputByte_courses wp ch).value hbyte).1]
  rw [courseByte_state wp.utf8 wp.ictx.course hfind] at hcourse
  unfold inputByte at hbyte ⊢
  rw [hsame]
  simp only [hfind] at hbyte ⊢
  obtain ⟨p, hrun, -⟩ := Exec.value?_bind.1 hbyte
  have hchanges := ((runTransition_courses ch itr).value hrun).2
  have htrue : p.2 = true := by
    by_contra hfalse
    rw [Bool.not_eq_true] at hfalse
    have hrefuses := hchanges.symm.trans hfalse
    rw [if_neg (by simp [hrefuses])] at hcourse
    exact hstate (hcourse.symm.trans (courseRun_refuses_ground wp.ictx.course (findTransition_mem hfind) hrefuses))
  rw [if_pos (hchanges.symm.trans htrue)] at hcourse
  obtain ⟨q₁, hrun₁, hq₁⟩ := runTransition_replays hpending hutf8 hfind hrun htrue
    (fun h => hstate (hcourse.symm.trans h)) hq hlimit'
  have hswitch : ∃ q₂, switchState q₁ itr = pure q₂ ∧ q₂.base.Sturdy hlimit := by
    unfold switchState
    cases itr.state with
    | none => exact ⟨q₁, rfl, hq₁⟩
    | some state => exact inputSetState_sturdy hq₁ state
  obtain ⟨q₂, hswitch₂, hq₂⟩ := hswitch
  refine ⟨saveInput q₂ ch, ?_, saveInput_sturdy hq₂ ch⟩
  rw [hrun₁, pure_bind]
  simp only [if_true, hswitch₂, pure_bind]

/-- What is kept of the input of a pane, replayed in a fresh one. -/
theorem replay_returns {buf : List UInt8} {fresh : Pane} (hwp : wp.ictx = {}) (hfresh : fresh.ictx = {})
    (hutf8 : wp.utf8 = fresh.utf8) (hsturdy : fresh.base.Sturdy hlimit) (hlimit' : 1 ≤ hlimit)
    (hrun : (inputParse wp buf).value? = some wp') :
    ∃ q, inputParse fresh wp'.ictx.sinceGround = pure q ∧ q.base.Sturdy hlimit := by
  induction buf using List.reverseRecOn generalizing wp' with
  | nil =>
    obtain rfl : wp = wp' := by simpa [inputParse] using hrun
    rw [hwp]
    exact ⟨fresh, rfl, hsturdy⟩
  | append_singleton buf ch ih =>
    rw [inputParse, List.foldlM_append] at hrun
    obtain ⟨wp₁, hrun₁, hlast⟩ := Exec.value?_bind.1 hrun
    rw [List.foldlM_cons] at hlast
    obtain ⟨wp₂, hbyte, hnil⟩ := Exec.value?_bind.1 hlast
    obtain rfl : wp₂ = wp' := by simpa using hnil
    obtain ⟨q, hq, hqs⟩ := ih hrun₁
    obtain ⟨hcourse, hsame⟩ := inputParse_course hrun₁
    have hvalue : (inputParse fresh wp₁.ictx.sinceGround).value? = some q := by rw [hq]; rfl
    obtain ⟨hcourseq, hsameq⟩ := inputParse_course hvalue
    have hbegin : wp.ictx.course = {} := by
      rw [hwp]
      rfl
    have hbeginq : fresh.ictx.course = {} := by
      rw [hfresh]
      rfl
    rw [hbegin] at hcourse
    rw [hbeginq] at hcourseq
    have hreproduced := reproduced_courseParse wp.utf8 buf
    rw [← hcourse] at hreproduced
    have hpending : wp₁.ictx.pending = q.ictx.pending := by
      rw [← pending_course q.ictx, hcourseq, ← hutf8]
      exact hreproduced.1.symm
    have hcourse₂ := ((inputByte_courses wp₁ ch).value hbyte).1
    have hsince := courseByte_sinceGround wp₁.utf8 wp₁.ictx.course ch hreproduced.2
    rw [← hcourse₂] at hsince
    by_cases hground : wp₂.ictx.state = .ground
    · have hempty : wp₂.ictx.sinceGround = [] := hsince.trans (if_pos hground)
      rw [hempty]
      exact ⟨fresh, rfl, hsturdy⟩
    · have hmore : wp₂.ictx.sinceGround = wp₁.ictx.sinceGround ++ [ch] := hsince.trans (if_neg hground)
      obtain ⟨q', hbyteq, hqs'⟩ := inputByte_replays hpending (by rw [hsame, hsameq, hutf8]) hbyte hground
        hqs hlimit'
      refine ⟨q', ?_, hqs'⟩
      rw [hmore, inputParse, List.foldlM_append, ← inputParse, hq, pure_bind, List.foldlM_cons, hbyteq,
        pure_bind, List.foldlM_nil]

end

/-- A pane is created with its screen whole. -/
theorem paneCreate_sturdy {title : List UInt8} {sx sy hlimit : ℕ} {alternateScreen utf8 : Bool} {wp : Pane}
    (hsx : 1 ≤ sx ∧ sx < Exec.word) (hsy : 1 ≤ sy) (hroom : hlimit + sy + 1 < Exec.word)
    (hwp : (paneCreate title sx sy hlimit alternateScreen utf8).value? = some wp) :
    wp.base.Sturdy hlimit := by
  have hw : ∀ e, e ≠ .bit → e ≠ .hang → Exec.Allowed.all.faults e := fun _ _ _ => trivial
  obtain ⟨hrange, -⟩ := (paneCreate_meets hw hsx hsy title hlimit alternateScreen utf8).value hwp
  have hgrid : (gridCreate sx sy hlimit).Edited 0 wp.base.grid := by
    obtain ⟨ps, hps, hpane⟩ := Exec.value?_bind.1 hwp
    obtain rfl := Option.some.inj hpane
    obtain ⟨s, hs, hscreen⟩ := Exec.value?_bind.1 hps
    obtain rfl := Option.some.inj hscreen
    obtain ⟨rlower, -, hs⟩ := Exec.value?_bind.1 hs
    obtain ⟨gd, hgd, hs⟩ := Exec.value?_bind.1 hs
    obtain rfl := Option.some.inj hs
    exact (gridClearLines_edits (w := .all) trivial _ _ _).value hgd
  refine ⟨⟨hgrid.history, hgrid.hlimit, ?_, ?_, ?_, hrange.small, ?_⟩, hrange.width, hrange.cols.tabs,
    hrange.rows.cursor, hrange.rows.region, hrange.rows.bottom⟩
  · rw [hgrid.hsize]
    exact Nat.zero_le _
  · rw [hgrid.length, hgrid.hsize, hgrid.sy]
    simp [gridCreate]
  · rw [hgrid.sy]
    exact hroom
  · rw [hgrid.sy]
    exact hsy

end Tmux
