import Tmux.Screen.Kept
import Tmux.Screen.Pane

/-!
# Resizing, and the alternate screen

Resizing a screen (`screenResize_resized`), and entering and leaving the alternate screen,
keep the cursor and the scroll region on the screen, and put the cursor past the last
column only if it was there before.
-/

namespace Tmux

open Exec (Meets uadd usub meets_usub)

variable {w : Exec.Allowed} {s s' s'' : Screen}

/-- Two screens have the same columns, and the cursor in the same one of them. -/
structure Screen.SameCols (s s' : Screen) : Prop where
  sx : s'.grid.sx = s.grid.sx
  cx : s'.cx = s.cx
  tabs : s'.tabs = s.tabs
  mode : s'.mode = s.mode

/-- What becomes of a screen that gets another size. -/
structure Screen.Resized (s s' : Screen) : Prop where
  rows : s'.InRows
  width : 1 ≤ s'.grid.sx
  tabs : s.tabs.length = s.grid.sx → s'.tabs.length = s'.grid.sx
  mode : s'.mode = s.mode
  cols : s'.cx = s.cx ∧ s'.grid.sx = s.grid.sx ∨ s'.cx < s'.grid.sx

theorem Screen.Resized.refl (h : s.InRows) (hx : 1 ≤ s.grid.sx) : s.Resized s :=
  ⟨h, hx, id, rfl, .inl ⟨rfl, rfl⟩⟩

theorem Screen.Resized.trans (h : s.Resized s') (h' : s'.Resized s'') : s.Resized s'' := by
  refine ⟨h'.rows, h'.width, fun ht => h'.tabs (h.tabs ht), h'.mode.trans h.mode, ?_⟩
  rcases h'.cols with ⟨hcx, hsx⟩ | hc
  · rw [hcx, hsx]
    exact h.cols
  · exact .inr hc

section

variable (hw : ∀ e, e ≠ .bit → e ≠ .hang → w.faults e)

include hw

/-! ## The height -/

section

variable (hwraps : w.wraps)

include hwraps

theorem deleteBottom_meets (h : s.InRows) (needed : ℕ) :
    Meets w (fun p => s.grid.Edited 0 p.1 ∧ p.2 = min (s.grid.sy - 1 - s.cy) needed) (deleteBottom s needed) := by
  have hcursor := h.cursor
  refine (meets_usub (.inl hwraps)).bind fun last hlast => ?_
  refine (meets_usub (.inl hwraps)).bind fun available hav => ?_
  by_cases h0 : available = 0
  · rw [if_pos h0]
    exact .pure ⟨.refl _, by omega⟩
  · rw [if_neg h0]
    refine (meets_usub (.inl hwraps)).bind fun py _ => ?_
    refine (gridViewDeleteLines_edits (hw _ nofun nofun) hwraps s.grid _ _).bind fun gd hgd => .pure ⟨hgd, ?_⟩
    dsimp only
    split_ifs <;> omega

theorem takeTop_shape (gd : Grid) (needed : ℕ) : Meets w gd.SameShape (takeTop s gd needed) := by
  unfold takeTop
  extract_lets available
  by_cases hon : gd.history = true
  · rw [if_pos hon]
    exact .pure ⟨rfl, rfl, rfl, rfl⟩
  · rw [if_neg hon]
    by_cases htop : needed > 0 ∧ available > 0
    · rw [if_pos htop]
      exact (gridViewDeleteLines_edits (hw _ nofun nofun) hwraps gd _ _).mono fun _ hgd => hgd.toSameShape
    · rw [if_neg htop]
      exact .pure (.refl gd)

/-- A screen that gets lower keeps its cursor. -/
theorem shrinkY_meets (h : s.InRows) {sy : ℕ} (hsy : 1 ≤ sy) :
    Meets w (fun s' => s.SameCols s' ∧ s'.grid.sy = s.grid.sy ∧
      (sy < s.grid.sy ∧ s'.cy < sy ∨ s.grid.sy ≤ sy ∧ s'.cy = s.cy)) (shrinkY s sy) := by
  have hcursor := h.cursor
  unfold shrinkY
  split_ifs with hlt
  · refine (meets_usub (.inl hwraps)).bind fun needed hneeded => ?_
    refine (deleteBottom_meets hw hwraps h needed).bind fun p hp => ?_
    refine (meets_usub (.inl hwraps)).bind fun rest hrest => ?_
    refine (takeTop_shape hw hwraps p.1 rest).bind fun gd hgd => ?_
    refine (meets_usub (.inl hwraps)).bind fun cy hcy => .pure ?_
    have hshape := hp.1.toSameShape.trans hgd
    have hp2 := hp.2
    have hneeded := hneeded hlt.le
    have hrest := hrest (by omega)
    refine ⟨⟨hshape.sx, rfl, rfl, rfl⟩, hshape.sy, .inl ⟨hlt, ?_⟩⟩
    have hcy := hcy (by omega)
    dsimp only
    omega
  · exact .pure ⟨⟨rfl, rfl, rfl, rfl⟩, rfl, .inr ⟨by omega, rfl⟩⟩

/-- A screen that gets higher moves its cursor down by no more than the rows added. -/
theorem growY_meets (s : Screen) (oldy sy : ℕ) :
    Meets w (fun s' => s.SameCols s' ∧ s'.grid.sy = s.grid.sy ∧ s'.cy ≤ s.cy + (sy - oldy)) (growY s oldy sy) := by
  unfold growY
  by_cases hlt : sy > oldy
  · rw [if_pos hlt]
    refine (meets_usub (.inl hwraps)).bind fun needed hneeded => ?_
    extract_lets available
    refine (meets_usub (.inl hwraps)).bind fun hsize _ => ?_
    refine (meets_usub (.inl hwraps)).bind fun rest _ => ?_
    refine (meets_usub (.inl hwraps)).bind fun bottom _ => ?_
    refine (Block.meets_fill (hw _ nofun nofun) _ _ _ _).bind fun l _ => .pure ⟨⟨rfl, rfl, rfl, rfl⟩, rfl, ?_⟩
    have hle : available ≤ needed := by
      simp only [available]
      split_ifs <;> omega
    have hneeded := hneeded hlt.le
    have hadd := uadd_le s.cy available
    dsimp only
    omega
  · rw [if_neg hlt]
    exact .pure ⟨⟨rfl, rfl, rfl, rfl⟩, rfl, by omega⟩

theorem screenResizeY_resized (h : s.InRows) (hx : 1 ≤ s.grid.sx) {sy : ℕ} (hsy : 1 ≤ sy) :
    Meets w (fun s' => s.Resized s' ∧ s'.grid.sx = s.grid.sx ∧ s'.grid.sy = sy) (screenResizeY s sy) := by
  unfold screenResizeY
  rw [if_neg (by omega)]
  extract_lets oldy
  refine (shrinkY_meets hw hwraps h hsy).bind fun s₁ h₁ => ?_
  extract_lets linedata gd₂ s₂
  refine (growY_meets hw hwraps s₂ oldy sy).bind fun s₃ h₃ => ?_
  refine (meets_usub (.inl hwraps)).bind fun rlower hr => .pure ?_
  have hr := hr hsy
  have hcursor := h.cursor
  have hcy : s₃.cy < sy := by
    have h₃ : s₃.cy ≤ s₁.cy + (sy - s.grid.sy) := h₃.2.2
    rcases h₁.2.2 with ⟨hlt, h₁⟩ | ⟨hle, h₁⟩ <;> omega
  have hsx : s₃.grid.sx = s.grid.sx := h₃.1.sx.trans h₁.1.sx
  refine ⟨⟨⟨hcy, Nat.zero_le _, ?_, fun hlines => ?_⟩, hsx.symm ▸ hx, fun ht => ?_, h₃.1.mode.trans h₁.1.mode,
    .inl ⟨h₃.1.cx.trans h₁.1.cx, hsx⟩⟩, hsx, rfl⟩
  · dsimp only
    omega
  · dsimp only at hlines ⊢
    omega
  · rw [h₃.1.tabs.trans h₁.1.tabs, ht]
    exact hsx.symm

end

/-! ## Both sizes -/

omit hw in
theorem changeX_resized (h : s.InRows) (hx : 1 ≤ s.grid.sx) {sx : ℕ} (hsx : 1 ≤ sx) :
    Meets w (fun s' => s.Resized s' ∧ s'.grid.sx = sx) (changeX s sx) := by
  unfold changeX
  by_cases hne : sx ≠ s.grid.sx
  · rw [if_pos hne, screenResizeX, if_neg (by omega), bind_assoc]
    refine (meets_usub (.inr hsx)).bind fun last hlast => .pure ⟨⟨?_, hsx, fun _ => ?_, rfl, .inr ?_⟩, rfl⟩
    · exact ⟨h.cursor, h.region, h.bottom, h.lines⟩
    · simp [screenResetTabs]
    · have hlast := hlast hsx
      simp only [screenResetTabs]
      split_ifs <;> omega
  · rw [if_neg hne]
    rw [not_not] at hne
    exact .pure ⟨.refl h hx, hne.symm⟩

/-- Resizing a screen keeps the cursor and the scroll region on it. -/
theorem screenResize_resized (h : s.InRows) (hx : 1 ≤ s.grid.sx) (sx sy : ℕ) :
    Meets w (fun s' => s.Resized s' ∧ s'.grid.sx = max sx 1 ∧ s'.grid.sy = max sy 1) (screenResize s sx sy) := by
  unfold screenResize
  extract_lets sx₁ sy₁
  have hsx : sx₁ = max sx 1 := by
    simp only [sx₁]
    split_ifs <;> omega
  have hsy : sy₁ = max sy 1 := by
    simp only [sy₁]
    split_ifs <;> omega
  refine (changeX_resized h hx (by omega)).bind fun s₁ h₁ => ?_
  split_ifs with hne
  · refine (screenResizeY_resized (w := w.wrapping) hw trivial h₁.1.rows h₁.1.width (by omega)).forget.mono ?_
    exact fun s₂ h₂ => ⟨h₁.1.trans h₂.1, h₂.2.1.trans (h₁.2.trans hsx), h₂.2.2.trans hsy⟩
  · rw [not_not] at hne
    exact .pure ⟨h₁.1, h₁.2.trans hsx, hne ▸ hsy⟩

theorem windowPaneResize_resized {wp : PaneScreen} (h : wp.base.InRows) (hx : 1 ≤ wp.base.grid.sx) {sx sy : ℕ}
    (hsx : 1 ≤ sx) :
    Meets w (fun wp' => wp.base.Resized wp'.base ∧ wp'.base.grid.sx = sx) (windowPaneResize wp sx sy) := by
  unfold windowPaneResize
  split_ifs with hsame
  · exact .pure ⟨.refl h hx, hsame.1.symm⟩
  · refine (screenResize_resized hw h hx sx sy).bind fun s' h' => .pure ⟨h'.1, ?_⟩
    exact h'.2.1.trans (by omega)

/-! ## The alternate screen -/

omit hw in
/-- A screen on which only the grid is another one, of the same size. -/
theorem Screen.resized_grid (h : s.InRows) (hx : 1 ≤ s.grid.sx) {gd : Grid} (hsx : gd.sx = s.grid.sx)
    (hsy : gd.sy = s.grid.sy) : s.Resized { s with grid := gd } where
  rows := ⟨hsy ▸ h.cursor, h.region, hsy ▸ h.bottom, hsy ▸ h.lines⟩
  width := hsx ▸ hx
  tabs ht := ht.trans hsx.symm
  mode := rfl
  cols := .inl ⟨rfl, hsx⟩

theorem copyLines_shape (dst : Grid) (dy : ℕ) (src : Grid) (sy n : ℕ) :
    Meets w (dst.Edited 0) (copyLines dst dy src sy n) := by
  induction n generalizing dst dy sy with
  | zero => exact .pure (.refl dst)
  | succ n ih =>
    refine (Block.meets_load (hw _ nofun nofun) sy).bind fun gl _ => ?_
    refine (Block.meets_store (hw _ nofun nofun) dy gl).bind fun l hl => ?_
    have hstep : dst.Edited 0 { dst with linedata := l } := Grid.edited_linedata ⟨hl.1, nofun⟩
    exact (ih _ _ _).mono fun _ h => hstep.trans h

theorem gridDuplicateLines_shape (hwraps : w.wraps) (dst : Grid) (dy : ℕ) (src : Grid) (sy ny : ℕ) :
    Meets w (dst.Edited 0) (gridDuplicateLines dst dy src sy ny) := by
  have hlimit : ∀ gd y ny, Meets w (fun _ => True) (limitLines gd y ny) := fun gd y ny => by
    unfold limitLines
    split_ifs
    · exact (meets_usub (.inl hwraps)).mono fun _ _ => trivial
    · exact .pure trivial
  refine (hlimit dst dy ny).bind fun n₁ _ => (hlimit src sy n₁).bind fun n₂ _ => ?_
  refine (gridClearLines_edits (hw _ nofun nofun) dst dy n₂).bind fun gd₁ h₁ => ?_
  exact (copyLines_shape hw gd₁ dy src sy n₂).mono fun _ h₂ => (h₁.weaken (Nat.zero_le _)).trans h₂

theorem windowPaneAlternateOn_resized {wp : PaneScreen} (h : wp.base.InRows) (hx : 1 ≤ wp.base.grid.sx)
    (gc : GridCell) :
    Meets w (fun wp' => wp.base.Resized wp'.base ∧ wp'.base.grid.sx = wp.base.grid.sx)
      (windowPaneAlternateOn wp gc) := by
  unfold windowPaneAlternateOn
  split_ifs
  · exact .pure ⟨.refl h hx, rfl⟩
  · exact .pure ⟨.refl h hx, rfl⟩
  · refine (gridDuplicateLines_shape (w := w.wrapping) hw trivial _ _ _ _ _).forget.bind fun saved _ => ?_
    refine (gridViewClear_edits (hw _ nofun nofun) _ _ _ _ _).bind fun gd hgd => .pure ⟨?_, hgd.sx⟩
    exact Screen.resized_grid h hx hgd.sx hgd.sy

theorem fitY_resized (h : s.InRows) (hx : 1 ≤ s.grid.sx) (saved : Grid) (sy height : ℕ) :
    Meets w (fun s' => s.Resized s' ∧ s'.grid.sx = s.grid.sx) (fitY s saved sy height) := by
  unfold fitY
  split_ifs
  · exact (screenResize_resized hw h hx _ _).mono fun s' h' => ⟨h'.1, h'.2.1.trans (by omega)⟩
  · exact .pure ⟨.refl h hx, rfl⟩

omit hw in
theorem restoreCursor_resized (h : s.InRows) (hx : 1 ≤ s.grid.sx) (cx cy : ℕ) :
    Meets w (fun s' => s.Resized s' ∧ s'.grid.sx = s.grid.sx) (restoreCursor s cx cy) := by
  have hcursor := h.cursor
  refine (meets_usub (.inr hx)).bind fun lastx hlastx => ?_
  refine (meets_usub (w := w.wrapping) (.inl trivial)).forget.bind fun lasty hlasty => .pure ⟨?_, rfl⟩
  have hlex := limit_le cx lastx
  have hley := limit_le cy lasty
  have hcy : limit cy lasty < s.grid.sy := by omega
  refine ⟨⟨hcy, h.region, h.bottom, h.lines⟩, hx, id, rfl, .inr ?_⟩
  dsimp only
  omega

theorem windowPaneAlternateOff_resized {wp : PaneScreen} (h : wp.base.InRows) (hx : 1 ≤ wp.base.grid.sx) :
    Meets w (fun p => wp.base.Resized p.1.base ∧ p.1.base.grid.sx = wp.base.grid.sx)
      (windowPaneAlternateOff wp) := by
  unfold windowPaneAlternateOff
  split
  · exact .pure ⟨.refl h hx, rfl⟩
  · split_ifs
    · exact .pure ⟨.refl h hx, rfl⟩
    · extract_lets sy
      refine (fitY_resized hw h hx _ _ _).bind fun s₁ h₁ => ?_
      refine (gridDuplicateLines_shape (w := w.wrapping) hw trivial _ _ _ _ _).forget.bind fun gd hgd => ?_
      have h₂ := Screen.resized_grid h₁.1.rows h₁.1.width hgd.sx hgd.sy
      refine (restoreCursor_resized h₂.rows h₂.width _ _).bind fun s₃ h₃ => ?_
      have h₄ : s₃.Resized { s₃ with grid := { s₃.grid with history := true } } :=
        Screen.resized_grid h₃.1.rows h₃.1.width rfl rfl
      refine (fitY_resized hw h₄.rows h₄.width _ _ _).bind fun s₅ h₅ => .pure ?_
      refine ⟨(((h₁.1.trans h₂).trans h₃.1).trans h₄).trans h₅.1, ?_⟩
      exact h₅.2.trans (h₃.2.trans (hgd.sx.trans h₁.2))

end

end Tmux
