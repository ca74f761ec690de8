import Tmux.Input.Operation
import Tmux.Screen.Characters

/-!
# What an operation asked for by input keeps

The operations that are carried out on the screen keep the cursor and the scroll region
on it, and the cursor no further than one column past the last one
(`performScreen_kept`), without wrapping, unless the operation is one of those that go
wrong there (`Screen.fits`).
-/

namespace Tmux

open Exec (Meets usub meets_usub)

variable {w : Exec.Allowed} {s s' : Screen}

/-! ## Tabs -/

theorem bitTest_meets {name : List Bool} {bit : ℕ} (hbit : w.faults .bit ∨ bit < name.length) :
    Meets w (fun _ => True) (bitTest name bit) := by
  unfold bitTest
  cases hget : name[bit]? with
  | none => exact hbit.resolve_right (by simpa using hget)
  | some b => exact .pure trivial

theorem bitPut_meets {name : List Bool} {bit : ℕ} (hbit : w.faults .bit ∨ bit < name.length) (b : Bool) :
    Meets w (fun name' => name'.length = name.length) (bitPut name bit b) := by
  unfold bitPut
  split_ifs with hlt
  · exact .pure List.length_set
  · exact hbit.resolve_right hlt

theorem bitNclear_meets {name : List Bool} {start stop : ℕ} (hbit : w.faults .bit ∨ stop < name.length) :
    Meets w (fun name' => name'.length = name.length) (bitNclear name start stop) := by
  refine Meets.foldlM rfl fun name' bit hmem hlen => ?_
  have hle := List.mem_range'_1.1 hmem
  exact (bitPut_meets (hbit.imp_right fun h => by omega) false).mono fun _ h => h.trans hlen

theorem nextTab_meets {tabs : List Bool} {cx n : ℕ} (hbit : w.faults .bit ∨ cx + n < tabs.length) :
    Meets w (fun cx' => cx' ≤ cx + n) (nextTab tabs cx n) := by
  induction n generalizing cx with
  | zero => exact .pure (le_refl _)
  | succ n ih =>
    refine (bitTest_meets (hbit.imp_right fun h => by omega)).bind fun b _ => ?_
    split_ifs
    · exact .pure (by omega)
    · exact (ih (hbit.imp_right fun h => by omega)).mono fun _ h => by omega

theorem previousTab_meets {tabs : List Bool} {cx : ℕ} (hbit : w.faults .bit ∨ cx ≤ tabs.length) :
    Meets w (fun cx' => cx' ≤ cx) (previousTab tabs cx) := by
  induction cx with
  | zero => exact .pure (le_refl _)
  | succ cx ih =>
    rw [previousTab]
    split_ifs
    · exact .pure (Nat.zero_le _)
    · refine (bitTest_meets (hbit.imp_right fun h => by omega)).bind fun b _ => ?_
      split_ifs
      · exact .pure (by omega)
      · exact (ih (hbit.imp_right fun h => by omega)).mono fun _ h => by omega

theorem previousTabs_meets {tabs : List Bool} {cx : ℕ} (hbit : w.faults .bit ∨ cx ≤ tabs.length) (n : ℕ) :
    Meets w (fun cx' => cx' ≤ cx) (previousTabs tabs cx n) := by
  induction n generalizing cx with
  | zero => exact .pure (le_refl _)
  | succ n ih =>
    rw [previousTabs]
    split_ifs
    · refine (previousTab_meets hbit).bind fun cx' h' => ?_
      exact (ih (hbit.imp_right h'.trans)).mono fun _ h => h.trans h'
    · exact .pure (le_refl _)

/-- The tabs are those of the columns, and the cursor is on the screen or one column past it. -/
structure Screen.InCols (s : Screen) : Prop where
  tabs : s.tabs.length = s.grid.sx
  cursor : s.cx ≤ s.grid.sx

section

variable (hbit : w.faults .bit ∨ s.InCols) (h : s.InRows)

include hbit h

theorem tabRight_stays (hx : 1 ≤ s.grid.sx) : Meets w s.Stays (tabRight s) := by
  refine (meets_usub (.inr hx)).bind fun last hlast => ?_
  have hlast := hlast hx
  split_ifs with hcx
  · exact .pure (.refl h)
  · have htab : w.faults .bit ∨ s.cx + (last - s.cx) < s.tabs.length := hbit.imp_right fun hcols => by
      rw [hcols.tabs]
      omega
    exact (nextTab_meets htab).bind fun cx hcx' => .pure (Screen.stays_cursor h (.inr (by omega)) h.cursor)

theorem tabLeft_stays (n : ℕ) : Meets w s.Stays (tabLeft s n) := by
  have htab : w.faults .bit ∨ s.cx ≤ s.tabs.length := hbit.imp_right fun hcols => by
    rw [hcols.tabs]
    exact hcols.cursor
  exact (previousTabs_meets htab n).bind fun cx hcx => .pure (Screen.stays_cursor h (.inl hcx) h.cursor)

omit hbit in
/-- Other tabs, as many as before. -/
theorem Screen.stays_tabs {tabs : List Bool} (htabs : tabs.length = s.tabs.length) :
    s.Stays { s with tabs } :=
  ⟨⟨.refl _, ⟨h.cursor, h.region, h.bottom, h.lines⟩, .inl htabs, rfl⟩, .inl (le_refl _)⟩

theorem putTab_stays (b : Bool) : Meets w s.Stays (putTab s b) := by
  unfold putTab
  split_ifs with hcx
  · refine (bitPut_meets (hbit.imp_right fun hcols => ?_) b).bind fun tabs htabs =>
      .pure (Screen.stays_tabs h htabs)
    rw [hcols.tabs]
    exact hcx
  · exact .pure (.refl h)

theorem clearTabs_stays (hx : 1 ≤ s.grid.sx) : Meets w s.Stays (clearTabs s) := by
  refine (meets_usub (.inr hx)).bind fun last hlast => ?_
  refine (bitNclear_meets (hbit.imp_right fun hcols => ?_)).bind fun tabs htabs =>
    .pure (Screen.stays_tabs h htabs)
  rw [hcols.tabs]
  have := hlast hx
  omega

theorem tabClear_stays (hx : 1 ≤ s.grid.sx) (params : List ℤ) : Meets w s.Stays (tabClear s params) := by
  unfold tabClear
  split
  · exact putTab_stays hbit h false
  · exact clearTabs_stays hbit h hx
  · exact .pure (.refl h)

end
/-! ## Modes and clearing -/

section

variable (hw : ∀ e, e ≠ .bit → e ≠ .hang → w.faults e) (h : s.InRows) (hx : 1 ≤ s.grid.sx)

include hw h hx

theorem clearHome_stays : Meets w s.Stays (clearHome s) :=
  (screenWriteCursormove_stays h hx 0 0).bind fun _ h₁ =>
    (screenWriteClearscreen_stays (hw _ nofun nofun) h₁.rows).mono fun _ h₂ => h₁.trans h₂

theorem setScreenMode_stays (mode : ℤ) (state : Bool) : Meets w s.Stays (setScreenMode s mode state) := by
  unfold setScreenMode
  split
  case h_2 => exact clearHome_stays hw h hx
  all_goals try split_ifs
  all_goals refine .pure ?_
  all_goals first
    | exact .refl h
    | exact setMode_stays h (by decide) _
    | exact screenWriteMousemodeOff_stays h
    | exact screenWriteMousemodeOn_stays h (by decide)

theorem eraseDisplay_stays (params : List ℤ) : Meets w s.Stays (eraseDisplay s params) := by
  unfold eraseDisplay
  split
  · exact screenWriteClearendofscreen_stays (hw _ nofun nofun) h hx
  · exact screenWriteClearstartofscreen_stays (hw _ nofun nofun) h hx
  · exact screenWriteClearscreen_stays (hw _ nofun nofun) h
  · split_ifs
    · exact screenWriteClearhistory_stays (hw _ nofun nofun) h
    · exact .pure (.refl h)
  · exact .pure (.refl h)

theorem eraseLine_stays (params : List ℤ) : Meets w s.Stays (eraseLine s params) := by
  unfold eraseLine
  split
  · exact screenWriteClearendofline_stays (hw _ nofun nofun) h hx
  · exact screenWriteClearstartofline_stays (hw _ nofun nofun) h hx
  · exact screenWriteClearline_stays (hw _ nofun nofun) h
  · exact .pure (.refl h)

omit hw hx in
/-- Another cursor style. -/
theorem screenSetCursorStyle_stays (style : ℕ) : s.Stays (screenSetCursorStyle s style) := by
  unfold screenSetCursorStyle
  split_ifs
  · exact ⟨⟨.refl _, ⟨h.cursor, h.region, h.bottom, h.lines⟩, .inl rfl, rfl⟩, .inl (le_refl _)⟩
  · exact .refl h

theorem screenWriteReset_stays : Meets w s.Stays (screenWriteReset s) := by
  have h₁ := screenResetTabs_stays h
  refine (meets_usub (w := w.wrapping) (.inl trivial)).forget.bind fun last _ => ?_
  refine (screenWriteScrollregion_stays h₁.rows 0 last).bind fun s₂ hs₂ => ?_
  have h₂ := h₁.trans hs₂
  have h₃ : s.Stays (screenWriteInsertmode s₂ false) := h₂.trans (setMode_stays h₂.rows (by decide) false)
  have h₄ : s.Stays (screenWriteKcursormode _ false) := h₃.trans (setMode_stays h₃.rows (by decide) false)
  have h₅ : s.Stays (screenWriteKkeypadmode _ false) := h₄.trans (setMode_stays h₄.rows (by decide) false)
  have h₆ := h₅.trans (screenWriteMousemodeOff_stays h₅.rows)
  refine (screenWriteClearscreen_stays (hw _ nofun nofun) h₆.rows).bind fun s₇ hs₇ => ?_
  have h₇ := h₆.trans hs₇
  exact (screenWriteCursormove_stays h₇.rows (h₇.grid.sx ▸ hx) 0 0).mono fun _ h₈ => h₇.trans h₈

end

/-! ## Operations -/

/-- Whether an operation writes a cell. -/
def Operation.writes : Operation → Bool
  | .write _ _ => true
  | _ => false

/-- An operation fits a screen: the cursor is not moved right from past the last column, at least
    as many characters are deleted as are left after them, and a character that is written
    is no wider than the screen, the row of the cursor having more than padding. -/
def Screen.fits (s : Screen) : Operation → Prop
  | .command .cuf _ => s.cx < s.grid.sx
  | .command .dch params => s.cx < s.grid.sx →
      s.grid.sx ≤ s.cx + 2 * limit (atLeastOne (inputCount params 0)) (s.grid.sx - s.cx)
  | .write gc utf8data => gc.isPadding = false → cellWidth gc utf8data ≠ 0 →
      cellWidth gc utf8data ≤ s.grid.sx ∧ s.onlyPadding = false
  | _ => True

instance (s : Screen) : ∀ op, Decidable (s.fits op)
  | .command .cuf _ => inferInstanceAs (Decidable (s.cx < s.grid.sx))
  | .command .dch params => inferInstanceAs (Decidable (s.cx < s.grid.sx →
      s.grid.sx ≤ s.cx + 2 * limit (atLeastOne (inputCount params 0)) (s.grid.sx - s.cx)))
  | .write gc utf8data => inferInstanceAs (Decidable (gc.isPadding = false → cellWidth gc utf8data ≠ 0 →
      cellWidth gc utf8data ≤ s.grid.sx ∧ s.onlyPadding = false))
  | .command .cbt _ | .command .cub _ | .command .cud _ | .command .cup _ | .command .cuu _
  | .command .cnl _ | .command .cpl _ | .command .decstbm _ | .command .dl _ | .command .ed _
  | .command .el _ | .command .hpa _ | .command .ich _ | .command .il _ | .command .tbc _
  | .command .vpa _ | .command .decscusr _ | .command .da _ | .command .daTwo _ | .command .dsr _
  | .command .rcp _ | .command .rm _ | .command .rmPrivate _ | .command .scp _ | .command .sgr _
  | .command .sm _ | .command .smPrivate _ => isTrue trivial
  | .keep | .backspace | .tab | .linefeed | .nextLine | .carriageReturn | .setTab | .reverseIndex
  | .keypad _ | .cursorTo _ _ | .alignmentTest | .reset | .insertMode _ | .privateMode _ _
  | .alternateOn _ | .alternateOff => isTrue trivial

/-- What an operation does to the column of the cursor, if lines wrap: it stays no further than one
    past the last one, and comes there by writing only. -/
def Screen.Turns (s : Screen) (op : Operation) (s' : Screen) : Prop :=
  s.fits op → s.hasMode modeWrap = true → s.cx ≤ s.grid.sx →
    s'.cx ≤ s.grid.sx ∧ (s'.cx = s.grid.sx → s.cx = s.grid.sx ∨ op.writes)

theorem Screen.Stays.turns (hs : s.Stays s') (op : Operation) : s.Kept s' ∧ s.Turns op s' := by
  refine ⟨hs.toKept, fun _ _ hcx => ?_⟩
  rcases hs.cols with hc | hc
  · exact ⟨hc.trans hcx, fun heq => .inl (by omega)⟩
  · exact ⟨hc.le, fun heq => absurd heq (by omega)⟩

section

variable (hw : ∀ e, e ≠ .bit → e ≠ .hang → w.faults e) (h : s.InRows) (hx : 1 ≤ s.grid.sx)
  (hword : w.wraps ∨ s.grid.sx < Exec.word) (hbit : w.faults .bit ∨ s.InCols)
  (hcx : w.wraps ∨ s.cx ≤ s.grid.sx)

include hw h hx hword hbit hcx

theorem screenCsi_kept (params : List ℤ) (type : InputCsiType)
    (hfits : w.wraps ∨ s.fits (.command type params)) :
    Meets w (fun s' => s.Kept s' ∧ s.Turns (.command type params) s') (screenCsi s params type) := by
  suffices hstays : type ≠ .cuf → Meets w s.Stays (screenCsi s params type) by
    by_cases hcuf : type = .cuf
    · subst hcuf
      refine (screenWriteCursorright_kept h hfits (inputCount params 0)).mono fun s' hs' => ⟨hs'.1, ?_⟩
      exact fun hlt _ _ => ⟨(hs'.2 hlt).le, fun heq => absurd heq (hs'.2 hlt).ne⟩
    · exact (hstays hcuf).mono fun s' hs' => hs'.turns _
  intro hcuf
  have hreturn := screenWriteCarriagereturn_stays h
  cases type with
  | cuf => exact absurd rfl hcuf
  | cbt => exact tabLeft_stays hbit h _
  | cub => exact screenWriteCursorleft_stays h _
  | cud => exact screenWriteCursordown_stays h _
  | cup => exact screenWriteCursormove_stays h hx _ _
  | cuu => exact screenWriteCursorup_stays h _
  | cnl => exact (screenWriteCursordown_stays hreturn.rows _).mono fun _ h' => hreturn.trans h'
  | cpl => exact (screenWriteCursorup_stays hreturn.rows _).mono fun _ h' => hreturn.trans h'
  | dch =>
    refine screenWriteDeletecharacter_stays (hw _ nofun nofun) h hx hcx ?_
    rcases hword with hword | hword
    · exact .inl hword
    · exact hfits.imp_right fun hfits => ⟨hword, hfits⟩
  | decstbm => exact screenWriteScrollregion_stays h _ _
  | dl => exact screenWriteDeleteline_stays (hw _ nofun nofun) h _
  | ed => exact eraseDisplay_stays hw h hx params
  | el => exact eraseLine_stays hw h hx params
  | hpa => exact screenWriteCursormove_stays h hx _ _
  | ich => exact screenWriteInsertcharacter_stays (hw _ nofun nofun) h hx hcx _
  | il => exact screenWriteInsertline_stays (hw _ nofun nofun) h _
  | tbc => exact tabClear_stays hbit h hx params
  | vpa => exact screenWriteCursormove_stays h hx _ _
  | decscusr => exact .pure (screenSetCursorStyle_stays h _)
  | da | daTwo | dsr | rcp | rm | rmPrivate | scp | sgr | sm | smPrivate => exact .pure (.refl h)

/-- An operation on a screen keeps the cursor and the scroll region on it. It wraps nowhere, and
    keeps the cursor in its columns, if it fits. -/
theorem performScreen_kept {op : Operation} (hfits : w.wraps ∨ s.fits op) :
    Meets w (fun s' => s.Kept s' ∧ s.Turns op s') (performScreen s op) := by
  suffices hstays : (∀ type params, op ≠ .command type params) → op.writes = false →
      Meets w s.Stays (performScreen s op) by
    cases op with
    | command type params => exact screenCsi_kept hw h hx hword hbit hcx params type hfits
    | write gc utf8data =>
      refine (screenWriteCell_kept hw h hx gc utf8data hfits).mono fun s' hs' => ⟨hs'.1, fun hfits hwrap hcx => ?_⟩
      exact ⟨hs'.2 hcx hwrap fun hpad hzero => (hfits hpad hzero).1, fun _ => .inr rfl⟩
    | _ => exact (hstays nofun rfl).mono fun s' hs' => hs'.turns _
  intro hcommand hwrites
  have hreturn := screenWriteCarriagereturn_stays h
  cases op with
  | command type params => exact absurd rfl (hcommand type params)
  | write gc utf8data => cases hwrites
  | backspace => exact screenWriteBackspace_stays (hw _ nofun nofun) h hx
  | tab => exact tabRight_stays hbit h hx
  | linefeed => exact screenWriteLinefeed_stays (hw _ nofun nofun) h false
  | nextLine => exact (screenWriteLinefeed_stays (hw _ nofun nofun) hreturn.rows false).mono fun _ h' => hreturn.trans h'
  | carriageReturn => exact .pure hreturn
  | setTab => exact putTab_stays hbit h true
  | reverseIndex => exact screenWriteReverseindex_stays (hw _ nofun nofun) h
  | keypad state => exact .pure (setMode_stays h (by decide) state)
  | cursorTo cx cy => exact screenWriteCursormove_stays h hx cx cy
  | alignmentTest => exact screenWriteAlignmenttest_stays (hw _ nofun nofun) h
  | reset => exact screenWriteReset_stays hw h hx
  | insertMode state => exact .pure (setMode_stays h (by decide) state)
  | privateMode mode state => exact setScreenMode_stays hw h hx mode state
  | keep | alternateOn _ | alternateOff => exact .pure (.refl h)

end

end Tmux
