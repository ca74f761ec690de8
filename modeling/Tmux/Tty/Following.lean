import Tmux.Tty.Alignment

/-!
# The terminal follows the screen

What is written to the screen of a pane is written to the terminal by a command (`PaneWrite.command`), unless the pane is
to be redrawn, which a command may ask for instead. What a write does to the picture of the pane (`PaneWrite.picture`) is
what it does to the screen (`PaneWrite.screen_depicts`) and what the command does to the terminal
(`PaneWrite.command_commanded`). So after every run of writes, of redrawing and of waiting the terminal displays the screen
of the pane, or the pane is to be redrawn, and the rest of the terminal is left alone (`paneRun_follows`).

This takes that the cursor is on the screen, where the part that changes starts or ends there, and that no character is
cut in two. To clear or scroll more than one line, a scroll region is needed, which has two rows or more; what is left of
the cursor is lost if the screen is cleared into the history from the first line on; and the start of the last line, up to
the cursor, is only cleared in its place if the lines above it are cleared with the sequence for it.
-/

namespace Tmux

open Exec (uadd usub forget)

/-- What is written to a pane. -/
inductive PaneWrite
  | cursormove (px py : ℕ)
  | erase (e : Erase)
  | characters (nx : ℕ) (edit : Splice.Edit)
  | lines (ny : ℕ) (edit : Splice.Edit)
  | reverseindex
  | linefeed
  | alignmenttest
  deriving DecidableEq, Repr

namespace PaneWrite

/-- What is written to the screen. -/
def screen (s : Screen) : PaneWrite → Exec Screen
  | .cursormove px py => screenWriteCursormove s px py
  | .erase e => screenWriteErase s e
  | .characters nx edit => screenWriteCharacters s nx edit
  | .lines ny edit => screenWriteLines s ny edit
  | .reverseindex => screenWriteReverseindex s
  | .linefeed => screenWriteLinefeed s false
  | .alignmenttest => screenWriteAlignmenttest s

/-- What is written to the terminal when the screen `s` has become `s'`, and whether the pane is to be redrawn. -/
def command (k : TtyDevice) (ox oy : ℕ) (s s' : Screen) (tty : TtyOut) : PaneWrite → Exec (TtyOut × Bool)
  | .cursormove _ _ => pure (tty, false)
  | .erase e => do
    let tty ← tty.ttyErase k (s.context ox oy) s' e
    pure (tty, false)
  | .characters nx edit =>
    -- Past the last column, there is nothing to insert or delete.
    if s.characterCount nx = 0 then pure (tty, false)
    else do
      let tty ← tty.ttyCharacters k { s.context ox oy with num := s.characterCount nx } s' edit
      pure (tty, false)
  | .lines ny edit => tty.ttyLines k { s.context ox oy with num := s.lineCount ny } s' edit
  | .reverseindex => tty.ttyCmdReverseindex k (s.context ox oy) s'
  | .linefeed => tty.ttyCmdLinefeed k (s.context ox oy) s'
  | .alignmenttest => do
    let tty ← tty.ttyCmdAlignmenttest k (s.context ox oy) s'
    pure (tty, false)

/-- What a write is meant to do: to the picture of a pane whose cursor and scroll region are those of a screen. -/
def picture (k : TtyDevice) (s : Screen) (p : Picture) : PaneWrite → Picture
  | .cursormove _ _ => p
  | .erase e => p.erase (blankGlyph k) (e.addresses s)
  | .characters nx edit => p.edit (blankGlyph k) s.grid.sx s.cy s.cx (s.characterCount nx) edit
  | .lines ny edit => p.editRows (blankGlyph k) s.cy s.rlower (s.lineCount ny) edit
  | .reverseindex => if s.cy = s.rupper then p.editRows (blankGlyph k) s.rupper s.rlower 1 .insert else p
  | .linefeed => if s.cy = s.rlower then p.editRows (blankGlyph k) s.rupper s.rlower 1 .delete else p
  | .alignmenttest => fun _ _ => alignmentGlyph k

/-- Lines that are drawn again are not gone on with from behind the last column of the terminal. -/
def CanDraw (ox sx : ℕ) (s : Screen) (pos : TtyPosition) : Prop := ox = 0 → sx ≤ s.grid.sx ∨ pos.cx < pos.sx

/-- What a write needs to be followed on a terminal of so many columns with its cursor at a position. -/
def Followed (k : TtyDevice) (ox sx : ℕ) (s : Screen) (pos : TtyPosition) : PaneWrite → Prop
  | .cursormove _ _ => True
  | .erase e => e.Followed k ox sx s ((s.grid.row s.cy).getD {})
  | .characters nx edit => s.CanEdit ((s.grid.row s.cy).getD {}) nx edit ∧ CanDraw ox sx s pos
  | .lines _ _ => 2 ≤ s.grid.sy ∧ s.outside = false ∧ CanDraw ox sx s pos
  | .reverseindex | .linefeed => 2 ≤ s.grid.sy ∧ CanDraw ox sx s pos
  | .alignmenttest => 2 ≤ s.grid.sy

end PaneWrite

/-- A pane that is visible, and the terminal that it is displayed on. It may be marked to be redrawn. -/
structure PaneOutput where
  s : Screen
  tty : TtyOut
  redraw : Bool := false

/-- While the server waits, the scroll region is the whole terminal and the cursor is where that of the active pane is. -/
def serverClientResetState (k : TtyDevice) (sy cx cy : ℕ) (tty : TtyOut) : Exec TtyOut := do
  let last ← usub sy 1
  pure (((tty.ttyRegion k 0 last).ttyCursor k cx cy).ttyReset k)

/-- A pane is written to, or it is redrawn if it is to be, or the server waits. -/
inductive PaneStep
  | write (w : PaneWrite)
  | redraw
  | reset (cx cy : ℕ)
  deriving DecidableEq, Repr

/-- What a step does to a pane and a terminal of so many rows. -/
def panePerform (k : TtyDevice) (ox oy sy : ℕ) (o : PaneOutput) : PaneStep → Exec PaneOutput
  | .write w => do
    let s ← w.screen o.s
    -- Nothing is written to the terminal for a pane that is to be redrawn.
    if o.redraw then pure { o with s }
    else do
      let (tty, redraw) ← w.command k ox oy o.s s o.tty
      pure { s, tty, redraw }
  | .redraw =>
    if o.redraw then do
      let tty ← screenRedrawPane k o.s {} ox oy o.s.grid.sy false o.tty
      pure { o with tty, redraw := false }
    else pure o
  | .reset cx cy => do
    let tty ← serverClientResetState k sy cx cy o.tty
    pure { o with tty }

/-- What a step needs to be followed. A line that the one above it goes on with is drawn in its place if it starts plainly
    and the one above it is not at the bottom margin. -/
def PaneStep.Followed (k : TtyDevice) (ox oy sx sy : ℕ) (o : PaneOutput) : PaneStep → Prop
  | .write w => w.Followed k ox sx o.s o.tty.pos
  | .redraw => ∀ py, 0 < py → py < o.s.grid.sy → ∀ gl, o.s.grid.row py = some gl →
      (lineAbove o.s py).any (·.wrapped) = true → ox = 0 → sx = o.s.grid.sx →
      oy + py ≠ o.tty.pos.rlower + 1 ∧ gl.StartsPlain
  | .reset _ cy => 2 ≤ sy ∧ cy < sy

variable {k : TtyDevice} {s s' : Screen} {p : Picture} {w : PaneWrite} {o o' : PaneOutput} {d₀ d d' : Display}
  {tty : TtyOut} {ox oy sx : ℕ}

namespace PaneWrite

/-! ## The screen -/

theorem screen_stays (h : s.Sound) (w : PaneWrite) : Exec.Meets .all s.Stays (w.screen s) := by
  cases w with
  | cursormove px py => exact screenWriteCursormove_stays h.rows h.width px py
  | erase e =>
    cases e with
    | endofline => exact screenWriteClearendofline_stays trivial h.rows h.width
    | startofline => exact screenWriteClearstartofline_stays trivial h.rows h.width
    | line => exact screenWriteClearline_stays trivial h.rows
    | endofscreen => exact screenWriteClearendofscreen_stays trivial h.rows h.width
    | startofscreen => exact screenWriteClearstartofscreen_stays trivial h.rows h.width
    | screen => exact screenWriteClearscreen_stays trivial h.rows
  | characters nx edit =>
    cases edit with
    | insert => exact screenWriteInsertcharacter_stays trivial h.rows h.width (.inl trivial) nx
    | delete => exact screenWriteDeletecharacter_stays trivial h.rows h.width (.inl trivial) (.inl trivial)
  | lines ny edit =>
    cases edit with
    | insert => exact screenWriteInsertline_stays trivial h.rows ny
    | delete => exact screenWriteDeleteline_stays trivial h.rows ny
  | reverseindex => exact screenWriteReverseindex_stays trivial h.rows
  | linefeed => exact screenWriteLinefeed_stays trivial h.rows false
  | alignmenttest => exact screenWriteAlignmenttest_stays trivial h.rows

/-- What is written to the screen does to it what the write is meant to do. -/
theorem screen_depicts (h : s.Sound) (hsx : s.grid.sx < Exec.word) (hroom : s.grid.hlimit + s.grid.sy + 1 < Exec.word)
    (hscrolls : s.grid.history = false ∨ 1 ≤ s.grid.hlimit) (hfits : s.EveryRow (·.Fits s.grid.sx)) {pos : TtyPosition}
    (hw : w.Followed k ox sx s pos) :
    ∃ s', (w.screen s).value? = some s' ∧ s'.grid.Whole ∧
      ∀ p, s.Depicts k p → s'.Depicts k (w.picture k s p) := by
  have hcy := h.rows.cursor
  cases w with
  | cursormove px py =>
    have hrun : screenWriteCursormove s px py =
        pure { s with cx := limit px (s.grid.sx - 1), cy := limit py (s.grid.sy - 1) } := by
      rw [screenWriteCursormove, Exec.usub_of_le h.width, pure_bind, Exec.usub_of_le (by omega), Exec.forget_pure,
        pure_bind]
    exact ⟨{ s with cx := limit px (s.grid.sx - 1), cy := limit py (s.grid.sy - 1) }, by rw [screen, hrun]; rfl, h.whole,
      fun p hp => ⟨hp.fits, hp.looks⟩⟩
  | erase e =>
    obtain ⟨g', hval, herased⟩ := screenWriteErase_erased h hsx hroom hw.keeps
    exact ⟨_, hval, herased.whole,
      fun p hp => hp.erased h.whole herased fun y hy gl hgl => hw.uncut hgl (hfits y hy gl hgl)⟩
  | characters nx edit =>
    obtain ⟨gl, hgl⟩ := h.whole.exists_row hcy
    obtain ⟨hedit, -⟩ := hw
    rw [hgl, Option.getD_some] at hedit
    obtain ⟨gl', hval, hline⟩ := screenWriteCharacters_line h hsx hgl hedit (hfits _ hcy gl hgl)
    refine ⟨_, hval, h.whole.withLine _ gl', fun p hp => ?_⟩
    obtain ⟨hfits', hlooks⟩ := hline k p (hp.looks _ hcy gl hgl)
    exact hp.withLine h.whole hcy ⟨hfits', hlooks⟩ fun y _ hy x _ => Picture.edit_of_ne _ _ hy x
  | lines ny edit =>
    obtain ⟨g', hrun, hwhole, hdepicts⟩ := screenWriteLines_depicts h hw.2.1 ny
    exact ⟨_, by rw [screen, hrun]; rfl, hwhole, hdepicts⟩
  | reverseindex =>
    rw [screen]
    by_cases htop : s.cy = s.rupper
    · obtain ⟨g', hrun, hwhole, hdepicts⟩ := screenWriteReverseindex_depicts h hw.1 htop
      refine ⟨_, by rw [hrun]; rfl, hwhole, fun p hp => ?_⟩
      rw [picture, if_pos htop]
      exact hdepicts p hp
    · rw [screenWriteReverseindex, if_neg htop]
      have hdepicts : ∀ cy p, s.Depicts k p → Screen.Depicts k { s with cy } (picture k s p .reverseindex) :=
        fun cy p hp => by
          rw [picture, if_neg htop]
          exact ⟨hp.fits, hp.looks⟩
      split_ifs
      · exact ⟨_, rfl, h.whole, hdepicts (s.cy - 1)⟩
      · exact ⟨_, rfl, h.whole, hdepicts s.cy⟩
  | linefeed =>
    obtain ⟨s', hrun, hwhole, hdepicts⟩ := screenWriteLinefeed_depicts h hw.1 hroom hscrolls
    exact ⟨s', by rw [screen, hrun]; rfl, hwhole, hdepicts⟩
  | alignmenttest =>
    obtain ⟨s', hrun, hwhole, hdepicts⟩ := screenWriteAlignmenttest_depicts h hsx
    exact ⟨s', by rw [screen, hrun]; rfl, hwhole, fun _ _ => hdepicts k⟩

/-! ## The terminal -/

open TtyOut

/-- What is written to the terminal does to the place of the pane what the write is meant to do. -/
theorem command_commanded (hk : k.Scrolls) (h : Tracks k d₀ tty d) (hs : s'.Within d.t ox oy) (hsound : s.Sound)
    (hsx : s'.grid.sx = s.grid.sx) (hsy : s'.grid.sy = s.grid.sy)
    (hw : w.Followed k ox d.t.sx s tty.pos) (hp : s'.Depicts k (w.picture k s (d.picture ox oy))) :
    ∃ r, w.command k ox oy s s' tty = pure r ∧
      Commanded k d₀ d ox oy s' (w.picture k s (d.picture ox oy)) r := by
  have hcy := hsound.rows.cursor
  have hbottom := hsound.rows.bottom
  have hwidth := hs.width
  cases w with
  | cursormove px py => exact ⟨_, rfl, d, h, .refl _ _ _ _ d, fun _ _ _ _ _ => rfl⟩
  | erase e =>
    obtain ⟨tty', hrun, hclears⟩ := h.ttyErase hk.toCommands hs hsx hsy hcy hw
    exact ⟨(tty', false), by rw [command, hrun]; rfl, hclears.commanded hs hsx hsy⟩
  | characters nx edit =>
    obtain ⟨hedit, hmove⟩ := hw
    have hcount := hedit.count.1
    obtain ⟨gl', hgl'⟩ := hs.whole.exists_row (hsy.symm ▸ hcy)
    obtain ⟨tty', hrun, hdraws⟩ := h.ttyCharacters { s.context ox oy with num := s.characterCount nx } hk.toCommands hs
      (hsx.symm ▸ hedit.cursor) (hsy.symm ▸ hcy) hgl' (hp.fits _ (hsy.symm ▸ hcy) gl' hgl')
      (by rw [hsx]; exact hsx ▸ hp.looks _ (hsy.symm ▸ hcy) gl' hgl') (fun _ => hk.dch) (by rw [hsx]; exact hmove)
    refine ⟨(tty', false), ?_, ?_⟩
    · rw [command, if_neg (by omega), hrun]
      rfl
    · exact TtyOut.Draws.commanded (hsx ▸ hdraws) hs (hsy.symm ▸ hcy) (fun _ _ => rfl)
        fun y hy x => Picture.edit_of_ne _ _ hy x
  | lines ny edit =>
    have hin : ¬(s.cy < s.rupper ∨ s.cy > s.rlower) := of_decide_eq_false hw.2.1
    exact h.ttyLines { s.context ox oy with num := s.lineCount ny } hk hs (hsound.rows.lines hw.1) (hsy.symm ▸ hbottom)
      (by rw [hsx]; exact hw.2.2) ⟨Nat.not_lt.1 fun hlt => hin (.inl hlt),
        Nat.not_lt.1 fun hlt => hin (.inr hlt)⟩ hp
  | reverseindex =>
    by_cases htop : s.cy = s.rupper
    · rw [picture, if_pos htop] at hp ⊢
      exact h.ttyCmdReverseindex (s.context ox oy) hk hs (hsound.rows.lines hw.1) (hsy.symm ▸ hbottom)
        (by rw [hsx]; exact hw.2) htop hp
    · refine ⟨(tty, false), if_pos htop, d, h, .refl _ _ _ _ d, fun _ _ _ _ _ => ?_⟩
      rw [picture, if_neg htop]
  | linefeed =>
    by_cases hlast : s.cy = s.rlower
    · rw [picture, if_pos hlast] at hp ⊢
      exact h.ttyCmdLinefeed (s.context ox oy) hk hs (hsound.rows.lines hw.1) (hsy.symm ▸ hbottom)
        (by rw [hsx]; exact hw.2) hlast rfl hp
    · refine ⟨(tty, false), if_pos hlast, d, h, .refl _ _ _ _ d, fun _ _ _ _ _ => ?_⟩
      rw [picture, if_neg hlast]
  | alignmenttest =>
    obtain ⟨tty', hrun, hcommanded⟩ := h.ttyCmdAlignmenttest (s.context ox oy) hk.toCommands hs (hsy.symm ▸ hw)
    exact ⟨(tty', false), by rw [command, hrun]; rfl, hcommanded⟩

end PaneWrite

/-! ## Both -/

/-- The terminal displays the screen of a pane in its place, unless the pane is to be redrawn. -/
structure PaneFollows (k : TtyDevice) (d₀ : Display) (ox oy : ℕ) (o : PaneOutput) (d : Display) : Prop where
  tracks : o.tty.Tracks k d₀ d
  within : o.s.Within d.t ox oy
  sound : o.s.Sound
  room : o.s.grid.hlimit + o.s.grid.sy + 1 < Exec.word
  scrolls : o.s.grid.history = false ∨ 1 ≤ o.s.grid.hlimit
  fits : o.s.EveryRow (·.Fits o.s.grid.sx)
  shows : o.redraw = false → o.s.Depicts k (d.picture ox oy)

/-- A write is followed. -/
theorem PaneFollows.write (h : PaneFollows k d₀ ox oy o d) (hk : k.Scrolls) (hw : w.Followed k ox d.t.sx o.s o.tty.pos) :
    ∃ o' d', (panePerform k ox oy d.t.sy o (.write w)).value? = some o' ∧ PaneFollows k d₀ ox oy o' d' ∧
      SameAround ox oy o.s.grid.sx o.s.grid.sy d d' ∧ o.s.grid.SameShape o'.s.grid := by
  have hwidth := h.within.width
  have hheight := h.within.height
  have hword := h.tracks.ok.width
  obtain ⟨s', hval, hwhole, hdepicts⟩ := PaneWrite.screen_depicts h.sound (by simp only [Exec.word]; omega) h.room h.scrolls
    h.fits hw
  have hstays := (w.screen_stays h.sound).value hval
  have hsx := hstays.grid.sx
  have hsy := hstays.grid.sy
  have hsound : s'.Sound := ⟨hstays.rows, hsx.symm ▸ h.sound.width, hwhole⟩
  have hwithin : s'.Within d.t ox oy := ⟨hwhole, hsx.symm ▸ h.within.positive, hsx.symm ▸ hwidth, hsy.symm ▸ hheight⟩
  have hroom : s'.grid.hlimit + s'.grid.sy + 1 < Exec.word := by
    rw [hstays.grid.hlimit, hsy]
    exact h.room
  have hscrolls : s'.grid.history = false ∨ 1 ≤ s'.grid.hlimit := by
    rw [hstays.grid.history, hstays.grid.hlimit]
    exact h.scrolls
  cases hredraw : o.redraw with
  | true =>
    refine ⟨{ o with s := s' }, d, ?_, ⟨h.tracks, hwithin, hsound, hroom, hscrolls,
      (hdepicts _ h.fits.depicts).fits, fun hnot => Bool.noConfusion (hredraw.symm.trans hnot)⟩,
      .refl _ _ _ _ d, hstays.grid.toSameShape⟩
    rw [panePerform, Exec.value?_bind]
    refine ⟨s', hval, ?_⟩
    rw [hredraw]
    rfl
  | false =>
    have hp := hdepicts _ (h.shows hredraw)
    obtain ⟨r, hrun, d', htracks, haround, hplace⟩ :=
      PaneWrite.command_commanded hk h.tracks hwithin h.sound hsx hsy hw hp
    rw [hsx, hsy] at haround
    refine ⟨{ s := s', tty := r.1, redraw := r.2 }, d', ?_, ⟨htracks, ⟨hwhole, hwithin.positive,
      haround.width.symm ▸ hwithin.width, haround.height.symm ▸ hwithin.height⟩, hsound, hroom, hscrolls, hp.fits,
      fun hshown => hp.congr rfl rfl (fun _ _ => rfl) (hplace hshown)⟩, haround, hstays.grid.toSameShape⟩
    rw [panePerform, Exec.value?_bind]
    refine ⟨s', hval, ?_⟩
    rw [hredraw, if_neg Bool.false_ne_true, hrun]
    rfl

/-- Redrawing the pane makes the terminal display its screen again. -/
theorem PaneFollows.redrawn (h : PaneFollows k d₀ ox oy o d) (hk : k.Scrolls)
    (hflows : PaneStep.Followed k ox oy d.t.sx d.t.sy o .redraw) :
    ∃ o' d', (panePerform k ox oy d.t.sy o .redraw).value? = some o' ∧ PaneFollows k d₀ ox oy o' d' ∧
      SameAround ox oy o.s.grid.sx o.s.grid.sy d d' ∧ o.s.grid.SameShape o'.s.grid := by
  have hrlower : o.tty.pos.rlower = d.t.bottom := by rcases h.tracks.pos with hpos | hpos <;> rw [hpos] <;> rfl
  rw [panePerform]
  cases hredraw : o.redraw with
  | false => exact ⟨o, d, rfl, h, .refl _ _ _ _ d, .refl _⟩
  | true =>
    have hlines : o.s.CanRedraw k {} d.t ox oy 0 o.s.grid.sy :=
      ⟨fun py _ hpy gl hgl => (h.fits py hpy gl hgl).data, fun py _ hpy gl hgl => (h.fits py hpy gl hgl).straight rfl,
        fun py hpos hpy gl hgl habove hzero hall => hrlower ▸ hflows py hpos hpy gl hgl habove hzero hall⟩
    have hfirst : wrapsThere o.s (lineAbove o.s 0) o.tty.pos 0 ox oy = false := by
      rw [wrapsThere, lineAbove, if_pos rfl, Option.any_none, Bool.and_false, Bool.false_and, Bool.false_and,
        Bool.false_and]
    obtain ⟨tty', d', hrun, h', hdrawn, -⟩ :=
      h.tracks.redrawLines hk.toDraws h.within le_rfl hlines (Nat.zero_add o.s.grid.sy).le hfirst
    rw [Nat.zero_add] at hdrawn
    obtain ⟨x, y, ht⟩ := hdrawn.terminal
    refine ⟨{ o with tty := tty'.ttyReset k, redraw := false }, _, ?_, ⟨h'.ttyReset hk.toDraws,
      h.within.moved ⟨x, y, ht⟩, h.sound, h.room, h.scrolls, h.fits, fun _ => ⟨h.fits, fun y hy gl hgl x hx => ?_⟩⟩,
      ⟨by rw [ht], by rw [ht], fun i j _ hij => hdrawn.others i j (by omega)⟩, .refl _⟩
    · rw [if_pos rfl, screenRedrawPane, List.range_eq_range', if_neg Bool.false_ne_true, hrun]
      rfl
    · exact ((h.fits y hy gl hgl).rowGlyphs (by rfl) hx).symm.trans (hdrawn.rows y (Nat.zero_le y) hy gl hgl x hx)

/-- While the server waits, nothing changes on the terminal but its cursor and its scroll region. -/
theorem PaneFollows.reset (h : PaneFollows k d₀ ox oy o d) (hk : k.Scrolls) {cx cy : ℕ} (hsy : 2 ≤ d.t.sy)
    (hcy : cy < d.t.sy) :
    ∃ o' d', (panePerform k ox oy d.t.sy o (.reset cx cy)).value? = some o' ∧ PaneFollows k d₀ ox oy o' d' ∧
      SameAround ox oy o.s.grid.sx o.s.grid.sy d d' ∧ o.s.grid.SameShape o'.s.grid := by
  obtain ⟨d₁, x, y, h₁, -, ht₁, hcells₁⟩ := h.tracks.ttyRegion hk.toCommands (show 0 < d.t.sy - 1 by omega)
    (show d.t.sy - 1 < d.t.sy by omega)
  have h₂ := (h₁.ttyCursor (x := cx) hk.toDraws (show cy < d₁.t.sy by rw [ht₁]; exact hcy)).tracks.ttyReset hk.toDraws
  refine ⟨{ o with tty := ((o.tty.ttyRegion k 0 (d.t.sy - 1)).ttyCursor k cx cy).ttyReset k }, _, ?_,
    ⟨h₂, h.within.regioned (by rw [ht₁]), h.sound, h.room, h.scrolls, h.fits, fun hshown =>
      (h.shows hshown).congr rfl rfl (fun _ _ => rfl) fun y _ x _ => ?_⟩,
    ⟨by rw [ht₁], by rw [ht₁], fun i j _ _ => congrFun (congrFun hcells₁ i) j⟩, .refl _⟩
  · rw [panePerform, serverClientResetState, Exec.usub_of_le (by omega), pure_bind]
    rfl
  · exact congrFun (congrFun hcells₁ (oy + y)) (ox + x)

/-- In every run of writes, redrawing and waiting that is followed, the terminal displays the screen of the pane in its
    place, or the pane is to be redrawn, and the rest of the terminal has not changed. -/
theorem paneRun_follows (hk : k.Scrolls) {steps : List PaneStep} (h : PaneFollows k d₀ ox oy o d)
    (hsteps : Exec.Along (panePerform k ox oy d.t.sy) (PaneStep.Followed k ox oy d.t.sx d.t.sy) o steps) :
    ∃ o' d', (steps.foldlM (panePerform k ox oy d.t.sy) o).value? = some o' ∧ PaneFollows k d₀ ox oy o' d' ∧
      SameAround ox oy o.s.grid.sx o.s.grid.sy d d' := by
  induction steps generalizing o d with
  | nil => exact ⟨o, d, rfl, h, .refl _ _ _ _ d⟩
  | cons step steps ih =>
    obtain ⟨hstep, hrest⟩ := hsteps
    have hdone : ∃ o₁ d₁, (panePerform k ox oy d.t.sy o step).value? = some o₁ ∧ PaneFollows k d₀ ox oy o₁ d₁ ∧
        SameAround ox oy o.s.grid.sx o.s.grid.sy d d₁ ∧ o.s.grid.SameShape o₁.s.grid := by
      cases step with
      | write w => exact h.write hk hstep
      | redraw => exact h.redrawn hk hstep
      | reset cx cy => exact h.reset hk hstep.1 hstep.2
    obtain ⟨o₁, d₁, hval, h₁, haround, hshape⟩ := hdone
    obtain ⟨o', d', hrun, h', haround'⟩ := ih h₁ (by rw [haround.width, haround.height]; exact hrest o₁ hval)
    rw [haround.height] at hrun
    rw [hshape.sx, hshape.sy] at haround'
    refine ⟨o', d', ?_, h', haround.trans haround'⟩
    rw [List.foldlM_cons]
    exact Exec.value?_bind.2 ⟨o₁, hval, hrun⟩

/-! ## A screen of plain characters -/

/-- A pane with the lines `ab` and `c` on a terminal that displays it. -/
def abcPane : PaneOutput where
  s := { abcScreen with rlower := 1, grid := { abcScreen.grid with history := false } }
  tty := { pos := (anyDisplay 2).t.position }

def abcDisplay : Display :=
  { anyDisplay 2 with cells := fun y x => (((abcScreen.grid.row y).getD {}).glyph anyTerminal x).getD .rest }

theorem abcPane_follows : PaneFollows anyTerminal abcDisplay 0 0 abcPane abcDisplay := by
  have hcells : ∀ gl ∈ abcScreen.grid.linedata, ∀ x < 2, (gl.cell x).IsPrintable := by decide
  have hrows : abcPane.s.EveryRow (·.Fits abcPane.s.grid.sx) := fun _ _ gl hgl =>
    GridLine.fits_of_plain (hcells gl (List.mem_of_getElem? hgl))
  have hdepicts : abcPane.s.Depicts anyTerminal (abcDisplay.picture 0 0) :=
    hrows.depicts.congr rfl rfl (fun _ _ => rfl) fun y _ x _ => by
      rw [Display.picture, Nat.zero_add, Nat.zero_add]
      rfl
  exact ⟨⟨rfl, rfl, .inl rfl, ⟨by decide, by decide, by decide, by decide, by decide⟩⟩,
    ⟨⟨by decide, by decide⟩, by decide, by decide, by decide⟩,
    ⟨⟨by decide, by decide, by decide, by decide⟩, by decide, ⟨by decide, by decide⟩⟩, by decide, .inl rfl,
    hrows, fun _ => hdepicts⟩

theorem anyTerminal_scrolls : anyTerminal.Scrolls where
  toDraws := ⟨rfl, ⟨.inl rfl, rfl, fun _ _ => rfl, fun _ => .inl rfl⟩, rfl⟩
  home := rfl
  csr := rfl
  down := .inl rfl
  il1 := rfl
  dl1 := rfl
  ri := rfl
  dch := rfl

theorem paneRun_follows_abc : ∃ o' d',
    ([PaneStep.write (.cursormove 1 0), .write (.erase .endofline), .write (.lines 1 .insert), .reset 1 0].foldlM
      (panePerform anyTerminal 0 0 3) abcPane).value? = some o' ∧ PaneFollows anyTerminal abcDisplay 0 0 o' d' ∧
      SameAround 0 0 abcPane.s.grid.sx abcPane.s.grid.sy abcDisplay d' := by
  refine paneRun_follows anyTerminal_scrolls abcPane_follows ⟨trivial, fun o₁ h₁ => ?_⟩
  obtain rfl := Option.some.inj h₁
  refine ⟨⟨by decide, fun _ => by decide⟩, fun o₂ h₂ => ?_⟩
  obtain rfl := Option.some.inj h₂
  exact ⟨⟨Nat.le_refl 2, rfl, fun _ => .inl le_rfl⟩, fun _ _ => ⟨⟨by decide, by decide⟩, fun _ _ => trivial⟩⟩

end Tmux
