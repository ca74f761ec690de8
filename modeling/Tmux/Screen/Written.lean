import Tmux.Screen.Characters
import Tmux.Screen.Resized
import Tmux.Screen.Text

/-!
# What writing text keeps

Writing strings to a screen and copying lines to it keep the cursor and the scroll region
on the screen (`screenWriteVnputs_kept`, `screenWriteCopy_kept`). A string adds as many
lines to the history as it has characters at most, as long as the history is not at its
limit (`screenWriteVnputs_grows`), and another size adds as many as the screen has
(`screenResize_history`).

Faults are allowed here, and wrapping, but writing never goes on forever.
-/

namespace Tmux

open Exec.Allowed (Lenient)
open Exec (Meets uadd usub meets_usub meets_all uadd_of_lt)

variable {n m : ℕ} {gd gd' : Grid} {s s' s'' : Screen}

/-! ## Strings and copies -/

section

variable {w : Exec.Allowed} [w.Lenient]

theorem writeCell_kept (h : s.InRows) (hx : 1 ≤ s.grid.sx) (gc : GridCell) (utf8data : Option Utf8Data) :
    Meets w s.Kept (screenWriteCell s gc utf8data) :=
  (screenWriteCell_kept (fun e _ he => Lenient.faults e he) h hx gc utf8data (.inl Lenient.wraps)).mono
    fun _ h' => h'.1

/-- Writing keeps what a cell keeps of the screen that is written to. -/
theorem keptFrom_cell (s : Screen) (hx : 1 ≤ s.grid.sx) (s₁ : Screen) (gc : GridCell) (utf8data : Option Utf8Data)
    (h₁ : s.Kept s₁) : Meets w s.Kept (screenWriteCell s₁ gc utf8data) :=
  (writeCell_kept h₁.rows (h₁.grid.sx ▸ hx) gc utf8data).mono fun _ h₂ => h₁.trans h₂

theorem screenWriteVnputs_kept (h : s.InRows) (hx : 1 ≤ s.grid.sx) (maxlen : ℤ) (gc : GridCell)
    (utf8flag : Bool) (msg : List UInt8) : Meets w s.Kept (screenWriteVnputs s maxlen gc utf8flag msg) :=
  nputsFrom_meets (keptFrom_cell s hx) none maxlen utf8flag _ msg 0 gc (.refl h)

theorem screenWriteCopy_kept (h : s.InRows) (hx : 1 ≤ s.grid.sx) (src : Screen) (px py nx ny : ℕ) :
    Meets w s.Kept (screenWriteCopy s src px py nx ny) :=
  screenWriteCopy_meets (keptFrom_cell s hx)
    (fun _ h₁ => (screenWriteClearendofline_stays (Lenient.faults _ nofun) h₁.rows (h₁.grid.sx ▸ hx)).mono
      fun _ h₂ => h₁.trans h₂.toKept)
    (fun _ h₁ => (screenWriteClearline_stays (Lenient.faults _ nofun) h₁.rows).mono fun _ h₂ => h₁.trans h₂.toKept)
    (fun _ cx cy h₁ => (screenWriteCursormove_stays h₁.rows (h₁.grid.sx ▸ hx) cx cy).mono fun _ h₂ => h₁.trans h₂.toKept)
    (.refl h) src px py nx ny

end

/-! ## How much the history grows -/

/-- What writing keeps of a screen while it adds at most `n` lines to the history. -/
structure Screen.Grows (n : ℕ) (s s' : Screen) : Prop extends Screen.Kept s s' where
  least : s.grid.hsize ≤ s'.grid.hsize
  most : s'.grid.hsize ≤ s.grid.hsize + n

theorem Screen.Grows.trans (h : s.Grows n s') (h' : s'.Grows m s'') : s.Grows (n + m) s'' :=
  ⟨h.toKept.trans h'.toKept, h.least.trans h'.least, h'.most.trans (by have := h.most; omega)⟩

theorem Screen.Grows.weaken (h : s.Grows n s') (hm : n ≤ m) : s.Grows m s' :=
  ⟨h.toKept, h.least, h.most.trans (by omega)⟩

theorem Screen.Kept.grows (h : s.Kept s') (hsize : s'.grid.hsize = s.grid.hsize) : s.Grows n s' :=
  ⟨h, hsize.ge, by omega⟩

/-- The history is not at its limit, and that is a word. -/
def Grid.HasRoom (gd : Grid) (n : ℕ) : Prop := gd.hsize + n ≤ gd.hlimit ∧ gd.hlimit < Exec.word

/-- Scrolling up moves one line into the history at most. -/
theorem gridViewScrollRegionUp_grows (h : gd.HasRoom 1) (rupper rlower : ℕ) :
    Meets .all (fun gd' => gd.hsize ≤ gd'.hsize ∧ gd'.hsize ≤ gd.hsize + 1)
      (gridViewScrollRegionUp gd rupper rlower) := by
  have hlt : gd.hsize < gd.hlimit := by have := h.1; omega
  have hadd : uadd gd.hsize 1 = gd.hsize + 1 := uadd_of_lt (by have := h.2; omega)
  unfold gridViewScrollRegionUp
  split_ifs
  · rw [gridCollectHistory, if_pos hlt, pure_bind]
    refine (meets_all _).bind fun bottom _ => ?_
    split_ifs
    · exact (meets_all _).bind fun l _ => .pure (by dsimp only; omega)
    · refine (meets_all _).bind fun _ _ => (meets_all _).bind fun _ _ => (meets_all _).bind fun _ _ => ?_
      refine (meets_all _).bind fun _ _ => (meets_all _).bind fun _ _ => (meets_all _).bind fun _ _ => ?_
      exact .pure (by dsimp only; omega)
  · refine (meets_all _).bind fun ny _ => ?_
    exact (gridMoveLines_edits trivial gd _ _ _).mono fun gd₁ h₁ => by have := h₁.hsize; omega

theorem screenWriteLinefeed_grows (h : s.InRows) (hroom : s.grid.HasRoom 1) (wrapped : Bool) :
    Meets .all (s.Grows 1) (screenWriteLinefeed s wrapped) := by
  suffices hsize : Meets .all (fun s' => s.grid.hsize ≤ s'.grid.hsize ∧ s'.grid.hsize ≤ s.grid.hsize + 1)
      (screenWriteLinefeed s wrapped) from
    ((screenWriteLinefeed_stays trivial h wrapped).and hsize).mono fun s' hs' =>
      ⟨hs'.1.toKept, hs'.2.1, hs'.2.2⟩
  refine (updateRow_edits trivial (fun _ => .pure trivial) s.grid _).bind fun gd hgd => ?_
  refine (meets_all _).bind fun last _ => ?_
  have hhsize := hgd.hsize
  have hroom' : gd.HasRoom 1 := by rwa [Grid.HasRoom, hhsize, hgd.hlimit]
  split_ifs
  · refine (Meets.forget (w := .all) (gridViewScrollRegionUp_grows hroom' _ _)).bind fun gd' hgd' => .pure ?_
    dsimp only
    omega
  · exact .pure (by dsimp only; omega)
  · exact .pure (by dsimp only; omega)

theorem insertSpace_hsize (s : Screen) (width : ℕ) :
    Meets .all (fun s' => s'.grid.hsize = s.grid.hsize) (insertSpace s width) := by
  unfold insertSpace
  split_ifs
  · refine (meets_all _).bind fun last _ => ?_
    split_ifs
    · refine (meets_all _).bind fun _ _ => (meets_all _).bind fun _ _ => ?_
      exact (gridMoveCells_edits trivial s.grid _ _ _ _).bind fun gd hgd => .pure hgd.hsize
    · exact .pure rfl
  · exact .pure rfl

theorem wrapLine_grows (h : s.InRows) (hroom : s.grid.HasRoom 1) (width : ℕ) :
    Meets .all (s.Grows 1) (wrapLine s width) := by
  refine (meets_all _).bind fun spills _ => ?_
  cases spills with
  | false => exact .pure ((Screen.Kept.refl h).grows rfl)
  | true =>
    refine (screenWriteLinefeed_grows h hroom true).bind fun s₁ h₁ => .pure ?_
    exact ⟨h₁.toKept.trans (Screen.stays_cursor h₁.rows (.inl (Nat.zero_le _)) h₁.rows.cursor).toKept, h₁.least,
      h₁.most⟩

theorem writeCharacter_grows (h : s.InRows) (hroom : s.grid.HasRoom 1) (gc : GridCell)
    (utf8data : Option Utf8Data) (width : ℕ) :
    Meets .all (fun s' => s.grid.hsize ≤ s'.grid.hsize ∧ s'.grid.hsize ≤ s.grid.hsize + 1)
      (writeCharacter s gc utf8data width) := by
  have hw : ∀ e, e ≠ .bit → e ≠ .hang → Exec.Allowed.all.faults e := fun _ _ _ => trivial
  refine (meets_all _).bind fun _ _ => ?_
  have hspace : Meets .all s.Stays (insertSpace s width) := insertSpace_stays hw h (.inl trivial)
  refine (hspace.and (insertSpace_hsize s width)).bind fun s₁ h₁ => ?_
  have hroom₁ : s₁.grid.HasRoom 1 := by rwa [Grid.HasRoom, h₁.2, h₁.1.grid.hlimit]
  refine (wrapLine_grows h₁.1.rows hroom₁ width).bind fun s₂ h₂ => ?_
  have hsize : s.grid.hsize ≤ s₂.grid.hsize ∧ s₂.grid.hsize ≤ s.grid.hsize + 1 := by
    have := h₂.least
    have := h₂.most
    omega
  refine (meets_all _).bind fun spills _ => (meets_all _).bind fun last _ => ?_
  split_ifs
  · exact .pure hsize
  · refine (drawCharacter_edits hw gc utf8data width).mono ?_
    rintro _ ⟨gd, hgd, rfl⟩
    rwa [hgd.hsize]

/-- Writing a cell adds one line to the history at most. -/
theorem screenWriteCell_grows (h : s.InRows) (hx : 1 ≤ s.grid.sx) (hroom : s.grid.HasRoom 1) (gc : GridCell)
    (utf8data : Option Utf8Data) : Meets .all (s.Grows 1) (screenWriteCell s gc utf8data) := by
  suffices hsize : Meets .all (fun s' => s.grid.hsize ≤ s'.grid.hsize ∧ s'.grid.hsize ≤ s.grid.hsize + 1)
      (screenWriteCell s gc utf8data) from
    ((writeCell_kept h hx gc utf8data).and hsize).mono fun s' hs' => ⟨hs'.1, hs'.2.1, hs'.2.2⟩
  unfold screenWriteCell
  split_ifs
  · exact .pure (by omega)
  · refine (meets_all _).bind fun width _ => (meets_all _).bind fun full _ => ?_
    split_ifs
    · exact .pure (by omega)
    · refine (meets_all _).bind fun u _ => (screenWriteCombine_redrawn (fun _ _ _ => trivial) u).mono ?_
      rintro _ ⟨gd, hgd, rfl⟩
      have := hgd.hsize
      dsimp only
      omega
    · exact writeCharacter_grows h hroom gc utf8data width

theorem Screen.Grows.hasRoom (h : s.Grows n s') (hroom : s.grid.HasRoom (n + m)) : s'.grid.HasRoom m := by
  have := h.most
  have := hroom.1
  have := hroom.2
  have := h.grid.hlimit
  constructor <;> omega

/-- A string without a limit, with no styles embedded in it, adds as many lines to the history as it
    has characters at most. -/
theorem nputsFrom_grows (utf8flag : Bool) (n : ℕ) (msg : List UInt8) (size : ℕ) (gc : GridCell)
    (h : s.InRows) (hx : 1 ≤ s.grid.sx) (hroom : s.grid.HasRoom n) :
    Meets .all (s.Grows n) (nputsFrom none 0 utf8flag n msg size gc s) := by
  induction n generalizing s msg size gc with
  | zero => exact .pure ((Screen.Kept.refl h).grows rfl)
  | succ n ih =>
    have hone : s.grid.HasRoom 1 := ⟨by have := hroom.1; omega, hroom.2⟩
    have hnext : ∀ s₁ s₂ : Screen, s.Grows 1 s₁ → s₁.Grows n s₂ → s.Grows (n + 1) s₂ := fun s₁ s₂ h₁ h₂ =>
      (h₁.trans h₂).weaken (by omega)
    rw [Nat.add_comm] at hroom
    cases msg with
    | nil => exact .pure ((Screen.Kept.refl h).grows rfl)
    | cons ch ptr =>
      refine (meets_all (readCharacter utf8flag ch ptr)).bind fun next _ => ?_
      rcases next with _ | ⟨_ | utf8data, rest⟩
      · exact .pure ((Screen.Kept.refl h).grows rfl)
      · dsimp only
        rw [if_neg (by simp)]
        refine (screenWriteCell_grows h hx hone _ _).bind fun s₁ h₁ => ?_
        exact (ih rest _ _ h₁.rows (h₁.grid.sx ▸ hx) (h₁.hasRoom hroom)).mono fun s₂ h₂ => hnext s₁ s₂ h₁ h₂
      · dsimp only
        rw [if_neg (by simp)]
        refine (screenWriteCell_grows h hx hone _ _).bind fun s₁ h₁ => ?_
        exact (ih rest _ _ h₁.rows (h₁.grid.sx ▸ hx) (h₁.hasRoom hroom)).mono fun s₂ h₂ => hnext s₁ s₂ h₁ h₂

/-- Writing a string adds as many lines to the history as it has bytes at most. -/
theorem screenWriteVnputs_grows (h : s.InRows) (hx : 1 ≤ s.grid.sx) (gc : GridCell) (utf8flag : Bool)
    {msg : List UInt8} (hroom : s.grid.HasRoom msg.length) :
    Meets .all (s.Grows msg.length) (screenWriteVnputs s 0 gc utf8flag msg) :=
  nputsFrom_grows utf8flag _ msg 0 gc h hx hroom

/-! ## Other sizes -/

theorem shrinkY_history (h : s.InRows) (sy : ℕ) :
    Meets .all (fun s' => s'.grid.hsize ≤ s.grid.hsize + s.grid.sy ∧ s'.grid.hlimit = s.grid.hlimit)
      (shrinkY s sy) := by
  have hw : ∀ e, e ≠ .bit → e ≠ .hang → Exec.Allowed.all.faults e := fun _ _ _ => trivial
  unfold shrinkY
  split_ifs with hlt
  · refine (meets_usub (.inl trivial)).bind fun needed hneeded => ?_
    refine (deleteBottom_meets hw trivial h needed).bind fun p hp => ?_
    refine (meets_usub (.inl trivial)).bind fun rest hrest => ?_
    have hneeded := hneeded hlt.le
    have hrest := hrest (by have := hp.2; omega)
    have hhsize := hp.1.hsize
    have hlimit := hp.1.hlimit
    have htop : Meets .all (fun gd => gd.hsize ≤ s.grid.hsize + s.grid.sy ∧ gd.hlimit = s.grid.hlimit)
        (takeTop s p.1 rest) := by
      unfold takeTop
      extract_lets available
      by_cases hon : p.1.history = true
      · rw [if_pos hon]
        have := uadd_le p.1.hsize rest
        exact .pure ⟨by dsimp only; omega, hlimit⟩
      · rw [if_neg hon]
        by_cases htop : rest > 0 ∧ available > 0
        · rw [if_pos htop]
          refine (gridViewDeleteLines_edits trivial trivial p.1 _ _).mono fun gd hgd => ?_
          have := hgd.hsize
          exact ⟨by omega, hgd.hlimit.trans hlimit⟩
        · rw [if_neg htop]
          exact .pure ⟨by omega, hlimit⟩
    exact htop.bind fun gd hgd => (meets_all _).bind fun cy _ => .pure hgd
  · exact .pure ⟨by omega, rfl⟩

theorem growY_history (s : Screen) (oldy sy : ℕ) :
    Meets .all (fun s' => s'.grid.hsize ≤ s.grid.hsize ∧ s'.grid.hlimit = s.grid.hlimit) (growY s oldy sy) := by
  unfold growY
  by_cases hlt : sy > oldy
  · rw [if_pos hlt]
    refine (meets_all _).bind fun needed _ => ?_
    extract_lets available
    have hle : available ≤ s.grid.hsize := by
      simp only [available]
      split_ifs <;> omega
    refine (meets_usub (.inl trivial)).bind fun hsize hhsize => ?_
    refine (meets_all _).bind fun _ _ => (meets_all _).bind fun _ _ => (meets_all _).bind fun _ _ => .pure ⟨?_, rfl⟩
    dsimp only
    omega
  · rw [if_neg hlt]
    exact .pure ⟨le_refl _, rfl⟩

/-- Another size moves as many lines into the history as the screen has at most. -/
theorem screenResize_history (h : s.InRows) (sx sy : ℕ) :
    Meets .all (fun s' => s'.grid.hsize ≤ s.grid.hsize + s.grid.sy ∧ s'.grid.hlimit = s.grid.hlimit)
      (screenResize s sx sy) := by
  unfold screenResize
  extract_lets sx₁ sy₁
  have hcols : Meets .all (fun s' => s'.InRows ∧ s'.grid.hsize = s.grid.hsize ∧ s'.grid.sy = s.grid.sy ∧
      s'.grid.hlimit = s.grid.hlimit)
      (changeX s sx₁) := by
    unfold changeX screenResizeX
    by_cases hne : sx₁ ≠ s.grid.sx
    · rw [if_pos hne]
      by_cases hzero : sx₁ = 0
      · rw [if_pos hzero]
        exact trivial
      · rw [if_neg hzero, bind_assoc]
        exact (meets_all _).bind fun _ _ => .pure ⟨⟨h.cursor, h.region, h.bottom, h.lines⟩, rfl, rfl, rfl⟩
    · rw [if_neg hne]
      exact .pure ⟨h, rfl, rfl, rfl⟩
  refine hcols.bind fun s₁ h₁ => ?_
  split_ifs
  · unfold screenResizeY
    by_cases hzero : sy₁ = 0
    · rw [if_pos hzero]
      exact trivial
    · rw [if_neg hzero]
      refine Meets.forget (w := .all) ?_
      refine (shrinkY_history h₁.1 sy₁).bind fun s₂ h₂ => ?_
      refine (growY_history _ _ _).bind fun s₃ h₃ => (meets_all _).bind fun _ _ => .pure ?_
      dsimp only at h₃ ⊢
      have := h₁.2
      omega
  · exact .pure ⟨by have := h₁.2; omega, h₁.2.2.2⟩

end Tmux
