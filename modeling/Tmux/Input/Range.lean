import Tmux.Input.Kept
import Tmux.Screen.Resized

/-!
# The cursor of a pane

Whatever is written to a pane, and however it is resized, the cursor and the scroll
region stay on the screen (`eventRun_inRows`).

The column of the cursor is at most one past the last one, and is there only after a cell
was written, in the runs whose bytes ask for operations that fit the screen
(`eventRun_columns`). One that does not is moving the cursor right from past the last
column (`eventRun_not_columns`).
-/

namespace Tmux

open Exec (Meets Along usub meets_usub)

/-- What happens to a pane: a byte of input, or another size. -/
inductive PaneEvent
  | input (ch : UInt8)
  | resize (sx sy : ℕ)
  deriving DecidableEq, Repr

/-- The sizes are words that are not zero. -/
def PaneEvent.valid : PaneEvent → Prop
  | .input _ => True
  | .resize sx sy => (1 ≤ sx ∧ sx < Exec.word) ∧ 1 ≤ sy ∧ sy < Exec.word

instance : ∀ e : PaneEvent, Decidable e.valid
  | .input _ => isTrue trivial
  | .resize sx sy => inferInstanceAs (Decidable ((1 ≤ sx ∧ sx < Exec.word) ∧ 1 ≤ sy ∧ sy < Exec.word))

/-- Create a pane. -/
def paneCreate (title : List UInt8) (sx sy hlimit : ℕ) (alternateScreen utf8 : Bool) : Exec Pane := do
  let screen ← paneScreenCreate title sx sy hlimit alternateScreen
  pure { screen, utf8 }

def eventStep (wp : Pane) : PaneEvent → Exec Pane
  | .input ch => inputByte wp ch
  | .resize sx sy => do
    let screen ← windowPaneResize wp.screen sx sy
    pure { wp with screen }

/-- Parsing input is a run. -/
theorem eventRun_input (wp : Pane) (buf : List UInt8) :
    (buf.map PaneEvent.input).foldlM eventStep wp = inputParse wp buf := by
  rw [List.foldlM_map]
  rfl

variable {w : Exec.Allowed} {wp wp' : Pane}

/-- The cursor, the scroll region and the tabs are on the screen, and lines wrap. -/
structure Screen.InRange (s : Screen) : Prop where
  rows : s.InRows
  width : 1 ≤ s.grid.sx
  small : s.grid.sx < Exec.word
  cols : s.InCols
  wrap : s.hasMode modeWrap = true

/-! ## One step -/

section

variable (hw : ∀ e, e ≠ .bit → e ≠ .hang → w.faults e)

include hw

theorem screenInit_meets {sx sy : ℕ} (hsx : 1 ≤ sx ∧ sx < Exec.word) (hsy : 1 ≤ sy) (title : List UInt8)
    (hlimit : ℕ) : Meets w (fun s => s.InRange ∧ s.cx = 0) (screenInit title sx sy hlimit) := by
  refine (meets_usub (.inr hsy)).bind fun rlower hr => ?_
  refine (gridClearLines_edits (hw _ nofun nofun) _ _ _).bind fun gd hgd => .pure ?_
  have hr : rlower = sy - 1 := hr hsy
  have hgx : gd.sx = sx := hgd.sx
  have hgy : gd.sy = sy := hgd.sy
  refine ⟨⟨⟨hgy ▸ hsy, Nat.zero_le _, ?_, fun h => ?_⟩, hgx ▸ hsx.1, hgx ▸ hsx.2, ⟨?_, Nat.zero_le _⟩, ?_⟩, rfl⟩
  · dsimp only [screenResetTabs]
    omega
  · dsimp only [screenResetTabs] at h ⊢
    omega
  · simp [screenResetTabs, hgx, gridCreate]
  · show ((modeCursor ||| modeWrap) &&& modeWrap != 0) = true
    decide

theorem paneCreate_meets {sx sy : ℕ} (hsx : 1 ≤ sx ∧ sx < Exec.word) (hsy : 1 ≤ sy)
    (title : List UInt8) (hlimit : ℕ) (alternateScreen utf8 : Bool) :
    Meets w (fun wp => wp.base.InRange ∧ wp.base.cx = 0)
      (paneCreate title sx sy hlimit alternateScreen utf8) := by
  unfold paneCreate paneScreenCreate
  rw [bind_assoc]
  exact (screenInit_meets hw hsx hsy title hlimit).bind fun s hs => .pure hs

/-- What an operation on the screen of a pane does to the cursor: it stays on the screen. -/
theorem perform_rows {wp : PaneScreen} (hall : w.wraps ∧ w.faults .bit) (h : wp.base.InRows)
    (hx : 1 ≤ wp.base.grid.sx) (op : Operation) :
    Meets w (fun wp' => wp'.base.InRows ∧ 1 ≤ wp'.base.grid.sx) (perform wp op) := by
  have hbase : Meets w (fun s => s.InRows ∧ 1 ≤ s.grid.sx) (performScreen wp.base op) :=
    (performScreen_kept hw h hx (.inl hall.1) (.inl hall.2) (.inl hall.1) (.inl hall.1)).mono fun s hs =>
      ⟨hs.1.rows, hs.1.grid.sx ▸ hx⟩
  cases op with
  | alternateOn gc => exact (windowPaneAlternateOn_resized hw h hx gc).mono fun _ h' => ⟨h'.1.rows, h'.1.width⟩
  | alternateOff =>
    refine Exec.meets_map.2 ((windowPaneAlternateOff_resized hw h hx).mono fun _ h' => ?_)
    exact ⟨h'.1.rows, h'.1.width⟩
  | _ => exact Exec.meets_map.2 hbase

theorem eventStep_rows (hall : w.wraps ∧ w.faults .bit) (h : wp.base.InRows ∧ 1 ≤ wp.base.grid.sx)
    {e : PaneEvent} (he : e.valid) :
    Meets w (fun wp' => wp'.base.InRows ∧ 1 ≤ wp'.base.grid.sx) (eventStep wp e) := by
  cases e with
  | input ch =>
    refine inputByte_meets (P := fun ps => ps.base.InRows ∧ 1 ≤ ps.base.grid.sx) (fun ps _ _ hps => ?_)
      (hw _ nofun nofun) (perform_rows hw hall h.1 h.2 _)
    exact ⟨⟨hps.1.cursor, hps.1.region, hps.1.bottom, hps.1.lines⟩, hps.2⟩
  | resize sx sy =>
    exact (windowPaneResize_resized hw h.1 h.2 he.1.1).bind fun ps hps => .pure ⟨hps.1.rows, hps.1.width⟩

end

/-- Neither a bit past the end of a bit string is used, nor does a subtraction wrap. -/
def columnsAllowed : Exec.Allowed := (Exec.Allowed.avoid .bit).straight

theorem columnsAllowed_faults (e : Exec.Fault) (he : e ≠ .bit) (_ : e ≠ .hang) : columnsAllowed.faults e := he

variable {s s' : Screen}

theorem Screen.Kept.inRange (hs : s.Kept s') (h : s.InRange) (hcx : s'.cx ≤ s.grid.sx) : s'.InRange where
  rows := hs.rows
  width := hs.grid.sx ▸ h.width
  small := hs.grid.sx ▸ h.small
  cols := ⟨by rw [hs.grid.sx, ← h.cols.tabs]; exact hs.tabs.elim id (·.trans h.cols.tabs.symm), hs.grid.sx ▸ hcx⟩
  wrap := hs.wrap.trans h.wrap

theorem Screen.Resized.inRange (hs : s.Resized s') (h : s.InRange) (hsmall : s'.grid.sx < Exec.word) :
    s'.InRange where
  rows := hs.rows
  width := hs.width
  small := hsmall
  cols := by
    refine ⟨hs.tabs h.cols.tabs, ?_⟩
    rcases hs.cols with ⟨hcx, hsx⟩ | hc
    · exact hcx ▸ hsx ▸ h.cols.cursor
    · exact hc.le
  wrap := by rw [Screen.hasMode, hs.mode]; exact h.wrap

/-- The cursor comes past the last column by writing only. -/
def Screen.Pends (writes : Bool) (s s' : Screen) : Prop :=
  s'.cx = s'.grid.sx → s.cx = s.grid.sx ∨ writes = true

theorem Screen.Resized.pends (hs : s.Resized s') : s.Pends false s' := fun hcx => by
  rcases hs.cols with ⟨hcx', hsx⟩ | hc
  · exact .inl (by omega)
  · omega

/-- An operation that fits the screen of a pane keeps the cursor in its range. -/
theorem perform_range {wp : PaneScreen} (h : wp.base.InRange) {op : Operation} (hfits : wp.base.fits op) :
    Meets columnsAllowed (fun wp' => wp'.base.InRange ∧ wp.base.Pends op.writes wp'.base) (perform wp op) := by
  have hw := columnsAllowed_faults
  have hbase : Meets columnsAllowed (fun s => s.InRange ∧ wp.base.Pends op.writes s) (performScreen wp.base op) := by
    refine (performScreen_kept hw h.rows h.width (.inr h.small) (.inr h.cols) (.inr h.cols.cursor)
      (.inr hfits)).mono fun s hs => ?_
    have hcx := hs.2 hfits h.wrap h.cols.cursor
    exact ⟨hs.1.inRange h hcx.1, fun heq => hcx.2 (heq.trans hs.1.grid.sx)⟩
  cases op with
  | alternateOn gc =>
    refine (windowPaneAlternateOn_resized hw h.rows h.width gc).mono fun wp' h' => ?_
    exact ⟨h'.1.inRange h (h'.2 ▸ h.small), h'.1.pends⟩
  | alternateOff =>
    refine Exec.meets_map.2 ((windowPaneAlternateOff_resized hw h.rows h.width).mono fun p h' => ?_)
    exact ⟨h'.1.inRange h (h'.2 ▸ h.small), h'.1.pends⟩
  | _ => exact Exec.meets_map.2 hbase

/-- Whether an event asks for writing a cell. -/
def PaneEvent.writes (wp : Pane) : PaneEvent → Bool
  | .input ch => (byteOperation wp ch).writes
  | .resize _ _ => false

/-- What an event asks for fits the screen. -/
def PaneEvent.fits (wp : Pane) : PaneEvent → Prop
  | .input ch => wp.base.fits (byteOperation wp ch)
  | .resize _ _ => True

instance (wp : Pane) : ∀ e : PaneEvent, Decidable (e.fits wp)
  | .input ch => inferInstanceAs (Decidable (wp.base.fits (byteOperation wp ch)))
  | .resize _ _ => isTrue trivial

theorem eventStep_range (h : wp.base.InRange) {e : PaneEvent} (he : e.valid) (hfits : e.fits wp) :
    Meets columnsAllowed (fun wp' => wp'.base.InRange ∧ wp.base.Pends (e.writes wp) wp'.base)
      (eventStep wp e) := by
  cases e with
  | input ch =>
    refine inputByte_meets (P := fun ps => ps.base.InRange ∧ wp.base.Pends (byteOperation wp ch).writes ps.base)
      (fun ps _ _ hps => ⟨?_, hps.2⟩) (columnsAllowed_faults _ nofun nofun) (perform_range h hfits)
    exact ⟨⟨hps.1.rows.cursor, hps.1.rows.region, hps.1.rows.bottom, hps.1.rows.lines⟩, hps.1.width,
      hps.1.small, ⟨hps.1.cols.tabs, hps.1.cols.cursor⟩, hps.1.wrap⟩
  | resize sx sy =>
    refine (windowPaneResize_resized columnsAllowed_faults h.rows h.width he.1.1).bind fun ps hps => .pure ?_
    exact ⟨hps.1.inRange h (hps.2 ▸ he.1.2), hps.1.pends⟩

/-! ## Runs -/

/-- Ever since a cell was written in the run of `l` the cursor has been past the last column. -/
def WroteLast (wp : Pane) (l : List PaneEvent) : Prop :=
  ∃ l₁ ch l₂ wp₁, l = l₁ ++ .input ch :: l₂ ∧ (l₁.foldlM eventStep wp).value? = some wp₁ ∧
    (byteOperation wp₁ ch).writes = true ∧
    ∀ l₃ wp₃, l₃ <+: l₂ → ((l₁ ++ .input ch :: l₃).foldlM eventStep wp).value? = some wp₃ →
      wp₃.base.cx = wp₃.base.grid.sx

/-- The event of a run that brings the cursor past the last column writes a cell, or the cursor
    was there before. -/
theorem wroteLast_of_step {wp₁ : Pane} {l : List PaneEvent} {e : PaneEvent}
    (hrun : (l.foldlM eventStep wp).value? = some wp₁) (hstep : (eventStep wp₁ e).value? = some wp')
    (hcx : wp'.base.cx = wp'.base.grid.sx)
    (h : WroteLast wp l ∨ e.writes wp₁ = true) : WroteLast wp (l ++ [e]) := by
  have hrun' : ((l ++ [e]).foldlM eventStep wp).value? = some wp' := by
    rw [List.foldlM_append]
    exact Exec.value?_bind.2 ⟨wp₁, hrun, by simpa using hstep⟩
  rcases h with ⟨l₁, ch, l₂, wp₀, rfl, hl₁, hwrites, hall⟩ | hwrites
  · refine ⟨l₁, ch, l₂ ++ [e], wp₀, by simp, hl₁, hwrites, fun l₃ wp₃ hl₃ hwp₃ => ?_⟩
    rcases List.prefix_concat_iff.1 hl₃ with rfl | hl₃
    · rw [← List.cons_append, ← List.append_assoc, hrun'] at hwp₃
      obtain rfl := Option.some.inj hwp₃
      exact hcx
    · exact hall l₃ wp₃ hl₃ hwp₃
  · cases e with
    | resize sx sy => cases hwrites
    | input ch =>
      refine ⟨l, ch, [], wp₁, rfl, hrun, hwrites, fun l₃ wp₃ hl₃ hwp₃ => ?_⟩
      rw [List.prefix_nil.1 hl₃, hrun'] at hwp₃
      obtain rfl := Option.some.inj hwp₃
      exact hcx

theorem eventRun_wroteLast (h : wp.base.InRange) (hcx : wp.base.cx = 0) {l : List PaneEvent}
    (hl : Along eventStep (fun wp e => e.fits wp ∧ e.valid) wp l)
    (hrun : (l.foldlM eventStep wp).value? = some wp') (hlast : wp'.base.cx = wp'.base.grid.sx) :
    WroteLast wp l := by
  induction l using List.reverseRecOn generalizing wp' with
  | nil =>
    obtain rfl : wp = wp' := by simpa using hrun
    have := h.width
    omega
  | append_singleton l e ih =>
    rw [List.foldlM_append] at hrun
    obtain ⟨wp₁, hwp₁, hstep⟩ := Exec.value?_bind.1 hrun
    replace hstep : (eventStep wp₁ e).value? = some wp' := by simpa using hstep
    have hfits := (hl.right hwp₁).1
    have hrange := (Meets.foldlM_along (w := columnsAllowed) (I := fun wp => wp.base.InRange)
      (fun wp e he hwp => (eventStep_range hwp he.2 he.1).mono fun _ h => h.1) hl.left h).value hwp₁
    refine wroteLast_of_step hwp₁ hstep hlast ?_
    exact (((eventStep_range hrange hfits.2 hfits.1).value hstep).2 hlast).imp_left (ih hl.left hwp₁)

/-- The column of the cursor of a pane, in the runs whose events fit the screen: no tab past the
    last column is used, no subtraction wraps, and the cursor is at most one column past the
    last one, having stayed there since a cell was written. -/
theorem eventRun_columns {title : List UInt8} {sx sy hlimit : ℕ} {alternateScreen utf8 : Bool}
    {l : List PaneEvent} (hsize : (PaneEvent.resize sx sy).valid) (hl : ∀ e ∈ l, e.valid)
    (hwp : (paneCreate title sx sy hlimit alternateScreen utf8).value? = some wp)
    (hfits : Along eventStep (fun wp e => e.fits wp) wp l) :
    l.foldlM eventStep wp ≠ .fault .bit ∧ (l.foldlM eventStep wp).wraps = false ∧
      ∀ wp', (l.foldlM eventStep wp).value? = some wp' → wp'.base.cx ≤ wp'.base.grid.sx ∧
        (wp'.base.cx = wp'.base.grid.sx → WroteLast wp l) := by
  have hcreate := (paneCreate_meets columnsAllowed_faults hsize.1 hsize.2.1 title hlimit alternateScreen utf8).value hwp
  have hl := hfits.and_forall hl
  have hruns : Meets columnsAllowed (fun wp => wp.base.InRange) (l.foldlM eventStep wp) :=
    Meets.foldlM_along (fun wp e he hwp => (eventStep_range hwp he.2 he.1).mono fun _ h => h.1) hl hcreate.1
  refine ⟨hruns.not_fault (fun h => h rfl), hruns.wraps_eq id, fun wp' hrun => ⟨(hruns.value hrun).cols.cursor, ?_⟩⟩
  exact eventRun_wroteLast hcreate.1 hcreate.2 hl hrun

/-- Writing in the last column, and moving the cursor right after going back. -/
theorem eventRun_columns_small : ∃ wp, (paneCreate [] 3 2 10 true false).value? = some wp ∧
    ([.input 97, .input 98, .input 99, .input 8, .input 27, .input 91, .input 67] :
      List PaneEvent).foldlM eventStep wp ≠ .fault .bit ∧
    (([.input 97, .input 98, .input 99, .input 8, .input 27, .input 91, .input 67] :
      List PaneEvent).foldlM eventStep wp).wraps = false ∧
    ∀ wp', (([.input 97, .input 98, .input 99, .input 8, .input 27, .input 91, .input 67] :
      List PaneEvent).foldlM eventStep wp).value? = some wp' → wp'.base.cx ≤ wp'.base.grid.sx ∧
        (wp'.base.cx = wp'.base.grid.sx → WroteLast wp
          [.input 97, .input 98, .input 99, .input 8, .input 27, .input 91, .input 67]) := by
  have hany : ((paneCreate [] 3 2 10 true false).value?.any fun wp =>
      Along eventStep (fun wp e => e.fits wp) wp
        [.input 97, .input 98, .input 99, .input 8, .input 27, .input 91, .input 67]) = true := by
    decide +kernel
  obtain ⟨wp, hwp, hfits⟩ := (Option.any_eq_true _ _).1 hany
  exact ⟨wp, hwp, eventRun_columns (by decide) (by decide) hwp (of_decide_eq_true hfits)⟩

/-- Moving the cursor right from past the last column takes it further, by a subtraction that wraps.
    Moving it back to a tab then uses one past the last column. -/
theorem eventRun_not_columns : ∃ wp wp', (paneCreate [] 3 2 10 true false).value? = some wp ∧
    (([.input 97, .input 98, .input 99, .input 27, .input 91, .input 67] :
      List PaneEvent).foldlM eventStep wp).value? = some wp' ∧
    (([.input 97, .input 98, .input 99, .input 27, .input 91, .input 67] :
      List PaneEvent).foldlM eventStep wp).wraps = true ∧ wp'.base.grid.sx < wp'.base.cx ∧
    ([.input 27, .input 91, .input 90] : List PaneEvent).foldlM eventStep wp' = .fault .bit := by
  have hany : ((paneCreate [] 3 2 10 true false).value?.any fun wp =>
      (([.input 97, .input 98, .input 99, .input 27, .input 91, .input 67] :
        List PaneEvent).foldlM eventStep wp).value?.any fun wp' =>
      (([.input 97, .input 98, .input 99, .input 27, .input 91, .input 67] :
        List PaneEvent).foldlM eventStep wp).wraps = true ∧ wp'.base.grid.sx < wp'.base.cx ∧
      ([.input 27, .input 91, .input 90] : List PaneEvent).foldlM eventStep wp' = .fault .bit) = true := by
    decide +kernel
  obtain ⟨wp, hwp, hany⟩ := (Option.any_eq_true _ _).1 hany
  obtain ⟨wp', hwp', hany⟩ := (Option.any_eq_true _ _).1 hany
  exact ⟨wp, wp', hwp, hwp', of_decide_eq_true hany⟩

end Tmux
