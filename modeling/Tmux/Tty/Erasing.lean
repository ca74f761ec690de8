import Tmux.Tty.Lines

/-!
# Erasing a part of a pane

What erases a part of a screen, from the cursor on or up to it, has a command for the terminal (`TtyOut.ttyErase`). The
command blanks the columns that the screen has there (`TtyOut.Tracks.ttyErase`), which are those named
(`screenWriteErase_erased`), on some conditions (`Erase.Followed`).
-/

namespace Tmux

open Exec (uadd usub forget)

instance (s : Screen) (e : Erase) (x y : ℕ) : Decidable (e.addresses s x y) :=
  match e with
  | .endofline => inferInstanceAs (Decidable (y = s.cy ∧ s.cx ≤ x))
  | .startofline => inferInstanceAs (Decidable (y = s.cy ∧ x ≤ s.cx))
  | .line => inferInstanceAs (Decidable (y = s.cy))
  | .endofscreen => inferInstanceAs (Decidable (s.cy < y ∨ y = s.cy ∧ s.cx ≤ x))
  | .startofscreen => inferInstanceAs (Decidable (y < s.cy ∨ y = s.cy ∧ x ≤ s.cx))
  | .screen => inferInstanceAs (Decidable True)

/-- What a command is told of a screen before it is changed. -/
def Screen.context (s : Screen) (ox oy : ℕ) : TtyCtx where
  ocx := s.cx
  ocy := s.cy
  orupper := s.rupper
  orlower := s.rlower
  xoff := ox
  yoff := oy

/-- The command for erasing a part of a screen. -/
def TtyOut.ttyErase (k : TtyDevice) (ctx : TtyCtx) (s : Screen) (tty : TtyOut) : Erase → Exec TtyOut
  | .endofline => pure (tty.ttyCmdClearendofline k ctx s)
  | .startofline => pure (tty.ttyCmdClearstartofline k ctx)
  | .line => pure (tty.ttyCmdClearline k ctx s)
  | .endofscreen => tty.ttyCmdClearendofscreen k ctx s
  | .startofscreen => tty.ttyCmdClearstartofscreen k ctx s
  | .screen => tty.ttyCmdClearscreen k ctx s

/-- What erasing a part of a screen needs to be followed, where the line of the cursor is `gl`. -/
def Erase.Followed (k : TtyDevice) (ox sx : ℕ) (s : Screen) (gl : GridLine) : Erase → Prop
  | .endofline => s.cx < s.grid.sx ∧ gl.StartsAt s.grid.sx s.cx
  | .startofline => s.cx < s.grid.sx ∧ gl.StartsAt s.grid.sx (s.cx + 1)
  | .line => True
  | .endofscreen => 2 ≤ s.grid.sy ∧ s.cx < s.grid.sx ∧ gl.StartsAt s.grid.sx s.cx ∧ ¬s.LosesStart
  | .startofscreen => 2 ≤ s.grid.sy ∧ s.cx < s.grid.sx ∧ gl.StartsAt s.grid.sx (s.cx + 1) ∧
      (s.cy = 0 ∨ ox = 0 ∧ sx ≤ s.grid.sx ∧ k.edits .el = true)
  | .screen => 2 ≤ s.grid.sy

variable {k : TtyDevice} {s : Screen} {gl : GridLine} {e : Erase} {d₀ d : Display} {tty : TtyOut} {ox oy sx y : ℕ}

/-! ## The screen -/

/-- Nothing is lost by erasing but what is named. -/
theorem screenWriteErase_erased (h : s.Sound) (hsx : s.grid.sx < Exec.word)
    (hlimit : s.grid.hlimit + s.grid.sy + 1 < Exec.word) (hkeep : e = .endofscreen → ¬s.LosesStart) :
    ∃ g', (screenWriteErase s e).value? = some { s with grid := g' } ∧ s.grid.Erased (e.addresses s) g' := by
  have hcursor := h.rows.cursor
  have hroom := h.whole.room
  have hput : ∀ {f : Exec Grid} {g'}, f.value? = some g' →
      (f >>= fun grid => pure { s with grid }).value? = some { s with grid := g' } :=
    fun {f g'} hval => Exec.value?_bind.2 ⟨g', hval, rfl⟩
  cases e with
  | endofline =>
    obtain ⟨g', hval, herased⟩ := clearRight_erased h hsx
    exact ⟨g', hput hval, herased⟩
  | startofline =>
    obtain ⟨g', hval, herased⟩ := clearLeft_erased h hsx h.whole (.refl _)
    exact ⟨g', hput hval, herased⟩
  | line =>
    obtain ⟨g', hval, herased⟩ := gridViewClear_row h.whole hsx hcursor (Nat.zero_le s.grid.sx) h.width le_rfl
    refine ⟨g', hput hval, herased.congr fun x hx y _ => ?_⟩
    exact ⟨fun hxy => hxy.1, fun hy => ⟨hy, Nat.zero_le _, hx⟩⟩
  | startofscreen =>
    obtain ⟨g₁, hval₁, herased₁⟩ := gridViewClear_rows h.whole h.width (Nat.zero_le s.cy) hcursor.le
    obtain ⟨g₂, hval₂, herased₂⟩ := clearLeft_erased h hsx herased₁.whole herased₁.toSameShape
    refine ⟨g₂, Exec.value?_bind.2 ⟨g₁, hval₁, hput hval₂⟩, (herased₁.trans herased₂).congr fun x _ y _ => ?_⟩
    rw [Erase.addresses]
    omega
  | screen =>
    rw [screenWriteErase, screenWriteClearscreen]
    split_ifs with hon
    · obtain ⟨g', hval, herased⟩ := gridViewClearHistory_erased h.whole hlimit (by omega)
      exact ⟨g', hput (by rw [Exec.value?_forget]; exact hval), herased⟩
    · obtain ⟨g', hval, herased⟩ := gridViewClear_rows h.whole h.width (Nat.zero_le s.grid.sy) le_rfl
      refine ⟨g', hput hval, herased.congr fun x _ y hy => ?_⟩
      exact iff_of_true ⟨Nat.zero_le y, hy⟩ trivial
  | endofscreen =>
    rw [screenWriteErase, screenWriteClearendofscreen]
    split_ifs with htop
    · -- All of the screen goes to the history, but there is nothing left of the cursor.
      obtain ⟨g', hval, herased⟩ := gridViewClearHistory_erased h.whole hlimit (by omega)
      refine ⟨g', hput (by rw [Exec.value?_forget]; exact hval), herased.toSameShape, herased.whole,
        fun x hx y hy _ => herased.erased x hx y hy trivial, fun x hx y hy hxy => ?_⟩
      rw [herased.erased x hx y hy trivial]
      rw [Erase.addresses] at hxy
      obtain rfl : y = 0 := by omega
      by_contra hne
      exact hkeep rfl ⟨htop.1, htop.2, x, hx, by omega, fun heq => hne heq.symm⟩
    · obtain ⟨g₁, hval₁, herased₁⟩ := clearRight_erased h hsx
      obtain ⟨g₂, hval₂, herased₂⟩ := gridViewClear_rows herased₁.whole (herased₁.sx ▸ h.width)
        (by omega : s.cy + 1 ≤ s.grid.sy) herased₁.sy.ge
      rw [herased₁.sx] at hval₂
      refine ⟨g₂, Exec.value?_bind.2 ⟨g₁, hval₁, ?_⟩, (herased₁.trans herased₂).congr fun x _ y hy => ?_⟩
      · rw [Exec.uadd_of_lt (by omega), Exec.usub_of_le (by omega), Exec.forget_pure, pure_bind]
        exact hput hval₂
      · rw [Erase.addresses]
        omega

theorem Erase.Followed.keeps (he : e.Followed k ox sx s gl) (heq : e = .endofscreen) : ¬s.LosesStart := by
  subst heq
  exact he.2.2.2

/-- What is erased in a row is a part of it between two columns that characters start in. -/
theorem Erase.Followed.uncut (he : e.Followed k ox sx s ((s.grid.row s.cy).getD {})) (hgl : s.grid.row y = some gl)
    (hfits : gl.Fits s.grid.sx) : ∃ lo hi, lo ≤ hi ∧ hi ≤ s.grid.sx ∧ gl.StartsAt s.grid.sx lo ∧
      gl.StartsAt s.grid.sx hi ∧ ∀ x < s.grid.sx, e.addresses s x y ↔ lo ≤ x ∧ x < hi := by
  have hall : (∀ x < s.grid.sx, e.addresses s x y) → ∃ lo hi, lo ≤ hi ∧ hi ≤ s.grid.sx ∧ gl.StartsAt s.grid.sx lo ∧
      gl.StartsAt s.grid.sx hi ∧ ∀ x < s.grid.sx, e.addresses s x y ↔ lo ≤ x ∧ x < hi := fun h =>
    ⟨0, s.grid.sx, Nat.zero_le _, le_rfl, hfits.startsAt_zero, gl.startsAt_end _,
      fun x hx => iff_of_true (h x hx) ⟨Nat.zero_le x, hx⟩⟩
  have hnone : (∀ x < s.grid.sx, ¬e.addresses s x y) → ∃ lo hi, lo ≤ hi ∧ hi ≤ s.grid.sx ∧ gl.StartsAt s.grid.sx lo ∧
      gl.StartsAt s.grid.sx hi ∧ ∀ x < s.grid.sx, e.addresses s x y ↔ lo ≤ x ∧ x < hi := fun h =>
    ⟨s.grid.sx, s.grid.sx, le_rfl, le_rfl, gl.startsAt_end _, gl.startsAt_end _,
      fun x hx => iff_of_false (h x hx) fun hxy => absurd hxy.2 (Nat.not_lt.2 hxy.1)⟩
  have hright : s.cx < s.grid.sx → gl.StartsAt s.grid.sx s.cx → (∀ x, e.addresses s x y ↔ s.cx ≤ x) →
      ∃ lo hi, lo ≤ hi ∧ hi ≤ s.grid.sx ∧ gl.StartsAt s.grid.sx lo ∧ gl.StartsAt s.grid.sx hi ∧
        ∀ x < s.grid.sx, e.addresses s x y ↔ lo ≤ x ∧ x < hi := fun hcx hstarts h =>
    ⟨s.cx, s.grid.sx, hcx.le, le_rfl, hstarts, gl.startsAt_end _, fun x hx => (h x).trans (and_iff_left hx).symm⟩
  have hleft : s.cx < s.grid.sx → gl.StartsAt s.grid.sx (s.cx + 1) → (∀ x, e.addresses s x y ↔ x ≤ s.cx) →
      ∃ lo hi, lo ≤ hi ∧ hi ≤ s.grid.sx ∧ gl.StartsAt s.grid.sx lo ∧ gl.StartsAt s.grid.sx hi ∧
        ∀ x < s.grid.sx, e.addresses s x y ↔ lo ≤ x ∧ x < hi := fun hcx hstarts h =>
    ⟨0, s.cx + 1, Nat.zero_le _, hcx, hfits.startsAt_zero, hstarts,
      fun x _ => (h x).trans (Nat.lt_succ_iff.symm.trans (and_iff_right (Nat.zero_le x)).symm)⟩
  by_cases hy : y = s.cy
  · -- the row of the cursor
    subst hy
    rw [hgl, Option.getD_some] at he
    cases e with
    | endofline => exact hright he.1 he.2 fun x => and_iff_right rfl
    | startofline => exact hleft he.1 he.2 fun x => and_iff_right rfl
    | line => exact hall fun x _ => rfl
    | endofscreen =>
      exact hright he.2.1 he.2.2.1 fun x => (or_iff_right (Nat.lt_irrefl _)).trans (and_iff_right rfl)
    | startofscreen =>
      exact hleft he.2.1 he.2.2.1 fun x => (or_iff_right (Nat.lt_irrefl _)).trans (and_iff_right rfl)
    | screen => exact hall fun x _ => trivial
  · cases e with
    | endofline => exact hnone fun x _ hxy => hy hxy.1
    | startofline => exact hnone fun x _ hxy => hy hxy.1
    | line => exact hnone fun x _ hxy => hy hxy
    | endofscreen =>
      by_cases hbelow : s.cy < y
      · exact hall fun x _ => .inl hbelow
      · exact hnone fun x _ hxy => hxy.elim hbelow fun h => hy h.1
    | startofscreen =>
      by_cases habove : y < s.cy
      · exact hall fun x _ => .inl habove
      · exact hnone fun x _ hxy => hxy.elim habove fun h => hy h.1
    | screen => exact hall fun x _ => trivial

/-! ## The terminal -/

/-- A command that erases a part of a pane blanks the columns that the screen has there. -/
theorem TtyOut.Tracks.ttyErase (h : Tracks k d₀ tty d) (hk : k.Commands) {s' : Screen} (hs : s'.Within d.t ox oy)
    (hsx : s'.grid.sx = s.grid.sx) (hsy : s'.grid.sy = s.grid.sy) (hcy : s.cy < s.grid.sy)
    (he : e.Followed k ox d.t.sx s gl) :
    ∃ tty', tty.ttyErase k (s.context ox oy) s' e = pure tty' ∧ Clears k d₀ d tty' fun i j =>
      oy ≤ i ∧ i < oy + s.grid.sy ∧ ox ≤ j ∧ j < ox + s.grid.sx ∧ e.addresses s (j - ox) (i - oy) := by
  have hwidth := hs.width
  have hcy' : (s.context ox oy).ocy < s'.grid.sy := hsy.symm ▸ hcy
  -- The parts cleared are those named.
  have hnamed : ∀ {tty' : TtyOut} {A B : ℕ → ℕ → Prop}, Clears k d₀ d tty' A → (∀ i j, A i j ↔ B i j) →
      Clears k d₀ d tty' B := fun hclears hAB => by
    obtain ⟨d', h', hpainted⟩ := hclears
    exact ⟨d', h', hpainted.congr fun i j _ => hAB i j⟩
  cases e with
  | endofline =>
    have hclears := ttyCmdClearendofline_clears hk h hs hcy' (show (s.context ox oy).ocx < _ from hsx.symm ▸ he.1)
    refine ⟨_, rfl, hnamed hclears fun i j => ?_⟩
    rw [hsx, Erase.addresses, Screen.context]
    dsimp only
    omega
  | startofline =>
    have hclears := ttyCmdClearstartofline_clears hk h hs hcy' (show (s.context ox oy).ocx < _ from hsx.symm ▸ he.1)
    have hcx := he.1
    refine ⟨_, rfl, hnamed hclears fun i j => ?_⟩
    rw [Erase.addresses, Screen.context]
    dsimp only
    omega
  | line =>
    refine ⟨_, rfl, hnamed (ttyCmdClearline_clears hk h hs hcy') fun i j => ?_⟩
    rw [hsx, Erase.addresses, Screen.context]
    dsimp only
    omega
  | endofscreen =>
    obtain ⟨tty', hrun, hclears⟩ := ttyCmdClearendofscreen_clears hk h hs (hsy.symm ▸ he.1)
      (show (s.context ox oy).ocx < _ from hsx.symm ▸ he.2.1) hcy'
    refine ⟨tty', hrun, hnamed hclears fun i j => ?_⟩
    rw [hsx, hsy, Erase.addresses, Screen.context]
    dsimp only
    omega
  | startofscreen =>
    obtain ⟨tty', hrun, hclears⟩ := ttyCmdClearstartofscreen_clears hk h hs (hsy.symm ▸ he.1)
      (show (s.context ox oy).ocx < _ from hsx.symm ▸ he.2.1) hcy' (hsx.symm ▸ he.2.2.2)
    have hcx := he.2.1
    refine ⟨tty', hrun, hnamed hclears fun i j => ?_⟩
    rw [hsx, Erase.addresses, Screen.context]
    dsimp only
    omega
  | screen =>
    have hs' : s'.Within d.t (s.context ox oy).xoff (s.context ox oy).yoff := hs
    obtain ⟨tty', hrun, hclears⟩ := ttyCmdClearscreen_clears hk h hs' (hsy.symm ▸ he)
    refine ⟨tty', hrun, hnamed hclears fun i j => ?_⟩
    rw [hsx, hsy, Erase.addresses, and_true]
    exact Iff.rfl

/-- The columns of a pane that are blanked. -/
theorem TtyOut.Clears.commanded {s' : Screen} (h : Clears k d₀ d tty fun i j =>
      oy ≤ i ∧ i < oy + s.grid.sy ∧ ox ≤ j ∧ j < ox + s.grid.sx ∧ e.addresses s (j - ox) (i - oy))
    (hs : s'.Within d.t ox oy) (hsx : s'.grid.sx = s.grid.sx) (hsy : s'.grid.sy = s.grid.sy) :
    Commanded k d₀ d ox oy s' ((d.picture ox oy).erase (blankGlyph k) (e.addresses s)) (tty, false) := by
  have hwidth := hs.width
  obtain ⟨d', h', hpainted⟩ := h
  refine ⟨d', h', ⟨hpainted.sx, hpainted.sy, fun i j hj hij => hpainted.kept i j hj fun hin => by omega⟩,
    fun _ y hy x hx => ?_⟩
  have hcol : ox + x < d.t.sx := by omega
  rw [Picture.erase, Display.picture, Display.picture]
  split_ifs with hxy
  · refine hpainted.painted _ _ hcol ⟨by omega, by omega, by omega, by omega, ?_⟩
    rw [Nat.add_sub_cancel_left, Nat.add_sub_cancel_left]
    exact hxy
  · refine hpainted.kept _ _ hcol fun hin => hxy ?_
    have hnamed := hin.2.2.2.2
    rw [Nat.add_sub_cancel_left, Nat.add_sub_cancel_left] at hnamed
    exact hnamed

end Tmux
