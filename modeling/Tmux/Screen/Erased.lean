import Tmux.Grid.Rows
import Tmux.Screen.Kept
import Tmux.Screen.Text

/-!
# Erasing

The operations that erase part of a line or of the screen (`Erase`) name cells by their
place relative to the cursor (`Erase.addresses`). They make these default cells and leave
the other ones of the screen alone (`Grid.Erased`), which cells are named adding up where a
part of a row and whole rows are erased one after the other.

One case is different: erasing from the first row to the end of the screen scrolls all of
the screen into the history, if there is one, and so erases what is left of the cursor as
well (`erase_iff`).
-/

namespace Tmux

open Exec (uadd usub forget)

variable {g g' g'' : Grid} {s : Screen} {gl gl' : GridLine} {r px lo hi n : ℕ} {A B : ℕ → ℕ → Prop}

/-- What a column of a row of the screen shows. -/
def Grid.shown (g : Grid) (x y : ℕ) : GridCell × Option GridUtf8 := ((g.row y).getD {}).shown x

/-- The cells of the screen at the places named are made default ones, and the other ones are left
    alone. -/
structure Grid.Erased (A : ℕ → ℕ → Prop) (g g' : Grid) : Prop extends Grid.SameShape g g' where
  whole : g'.Whole
  erased : ∀ x < g.sx, ∀ y < g.sy, A x y → g'.shown x y = defaultShown
  kept : ∀ x < g.sx, ∀ y < g.sy, ¬ A x y → g'.shown x y = g.shown x y

theorem Grid.Erased.trans (h : g.Erased A g') (h' : g'.Erased B g'') : g.Erased (fun x y => A x y ∨ B x y) g'' where
  toSameShape := h.toSameShape.trans h'.toSameShape
  whole := h'.whole
  erased x hx y hy hxy := by
    have hx' : x < g'.sx := h.sx ▸ hx
    have hy' : y < g'.sy := h.sy ▸ hy
    by_cases hB : B x y
    · exact h'.erased x hx' y hy' hB
    · rw [h'.kept x hx' y hy' hB]
      exact h.erased x hx y hy (hxy.resolve_right hB)
  kept x hx y hy hxy := by
    rw [h'.kept x (h.sx ▸ hx) y (h.sy ▸ hy) fun hB => hxy (.inr hB)]
    exact h.kept x hx y hy fun hA => hxy (.inl hA)

theorem Grid.Erased.congr (h : g.Erased A g') (hAB : ∀ x < g.sx, ∀ y < g.sy, A x y ↔ B x y) : g.Erased B g' where
  toSameShape := h.toSameShape
  whole := h.whole
  erased x hx y hy hxy := h.erased x hx y hy ((hAB x hx y hy).2 hxy)
  kept x hx y hy hxy := h.kept x hx y hy fun hA => hxy ((hAB x hx y hy).1 hA)

theorem Grid.Erased.refl (h : g.Whole) (hA : ∀ x < g.sx, ∀ y < g.sy, ¬ A x y) : g.Erased A g where
  toSameShape := .refl g
  whole := h
  erased x hx y hy hxy := absurd hxy (hA x hx y hy)
  kept _ _ _ _ _ := rfl

/-! ## Parts of a row, and rows -/

theorem Grid.shown_of_row (h : g.row r = some gl) (x : ℕ) : g.shown x r = gl.shown x := by
  rw [Grid.shown, h, Option.getD_some]

theorem Grid.withLine_row (h : g.Whole) (hr : r < g.sy) (y : ℕ) :
    (g.withLine (g.hsize + r) gl).row y = if y = r then some gl else g.row y := by
  split_ifs with hy
  · rw [hy]
    exact Grid.withLine_load (h.lt_length hr)
  · show (g.linedata.set (g.hsize + r) gl)[g.hsize + y]? = g.linedata[g.hsize + y]?
    exact List.getElem?_set_ne (by omega)

/-- Clearing the columns of a row from one on up to another one. -/
theorem gridViewClear_row (h : g.Whole) (hsx : g.sx < Exec.word) (hr : r < g.sy) (hpx : px ≤ hi) (hlt : px < g.sx)
    (hhi : hi ≤ g.sx) :
    ∃ g', (gridViewClear g px r (hi - px) 1).value? = some g' ∧ g.Erased (fun x y => y = r ∧ px ≤ x ∧ x < hi) g' := by
  obtain ⟨gl, hgl⟩ := h.exists_row hr
  obtain ⟨gl', hval, hshown⟩ := gridClear_row h hsx hr hgl hlt hhi
  rw [Exec.usub_of_le hpx, pure_bind, ← gridViewY_eq h hr.le] at hval
  refine ⟨_, hval, (g.withLine_edited _ gl').toSameShape, h.withLine _ gl', fun x hx y hy hxy => ?_,
    fun x hx y hy hxy => ?_⟩
  · rw [gridViewY_eq h hr.le, Grid.shown, Grid.withLine_row h hr, if_pos hxy.1, Option.getD_some, hshown x hx,
      Splice.fill, if_pos hxy.2]
  · rw [gridViewY_eq h hr.le, Grid.shown, Grid.withLine_row h hr]
    split_ifs with hy
    · rw [Option.getD_some, hshown x hx, Splice.fill, if_neg fun hx' => hxy ⟨hy, hx'⟩, hy, Grid.shown_of_row hgl]
    · rfl

/-- Clearing the rows from one on up to another one. -/
theorem gridViewClear_rows (h : g.Whole) (hx : 1 ≤ g.sx) (hlo : lo ≤ hi) (hhi : hi ≤ g.sy) :
    ∃ g', (gridViewClear g 0 lo g.sx (hi - lo)).value? = some g' ∧ g.Erased (fun _ y => lo ≤ y ∧ y < hi) g' := by
  by_cases hnone : lo = hi
  · refine ⟨g, ?_, .refl h fun x _ y _ hy => by omega⟩
    rw [gridViewClear, gridClear, if_pos (.inr (by omega))]
    rfl
  · obtain ⟨g', hval, hedited, hrow⟩ := gridClear_rows h hx (by omega : lo < g.sy) (by omega) hhi
    rw [Exec.usub_of_le hlo, pure_bind, ← gridViewY_eq h (by omega)] at hval
    refine ⟨g', hval, hedited.toSameShape, hedited.whole h, fun x _ y _ hxy => ?_, fun x _ y _ hxy => ?_⟩
    · rw [Grid.shown, hrow, Splice.fill, if_pos hxy]
      exact GridLine.shown_of_cell rfl
    · rw [Grid.shown, hrow, Splice.fill, if_neg hxy]
      rfl

/-! ## Clearing into the history -/

/-- With no history at all, a line is collected from the screen, and the size of the history goes
    round. -/
theorem gridCollectHistory_none (h : g.Whole) (hsy : 1 ≤ g.sy) (hhsize : g.hsize = 0) (hlimit : g.hlimit = 0) :
    ∃ linedata, gridCollectHistory g = .done true { g with linedata, hsize := Exec.word - 1 } ∧
      ∀ r, r + 1 < g.sy → linedata[r]? = g.row (r + 1) := by
  have hroom := h.room
  obtain ⟨linedata, hmove, -, hget⟩ := gridMoveLines_eq h 0 1 (g.sy - 1) (by omega) (by omega)
  refine ⟨linedata, ?_, fun r hr => ?_⟩
  · have hyy : (if g.hlimit / 10 < 1 then 1 else g.hlimit / 10) = 1 := if_pos (by omega)
    have hround : usub g.hsize 1 = .done true (Exec.word - 1) := by
      rw [hhsize]
      rfl
    rw [gridCollectHistory, if_neg (by omega)]
    dsimp only
    rw [hyy, Exec.uadd_of_lt (by omega), Exec.usub_of_le (by omega), pure_bind,
      show g.hsize + g.sy - 1 = g.sy - 1 by omega, hmove, pure_bind]
    dsimp only
    rw [hround]
    rfl
  · rw [hget, if_pos (by omega), Grid.row]
    congr 1
    omega

theorem uadd_round {n : ℕ} (hn : 1 ≤ n) (hword : n < Exec.word) : uadd (Exec.word - 1) n = n - 1 := by
  rw [uadd, show Exec.word - 1 + n = n - 1 + Exec.word by simp only [Exec.word]; omega, Nat.add_mod_right,
    Nat.mod_eq_of_lt (by omega)]

/-- Scrolling one line into the history moves the rows up by one, and leaves a blank one at the
    bottom. This is so even if there is no room at all in the history: the row of the only line
    taken from it then goes round, and round again. -/
theorem scrollLine_rows (h : g.Whole) (hlimit : g.hlimit + g.sy + 1 < Exec.word) (hsy : 1 ≤ g.sy) :
    ∃ g', (gridCollectHistory g >>= gridScrollHistory).value? = some g' ∧ g.SameShape g' ∧ g'.Whole ∧
      ∀ r < g.sy, g'.row r = if r + 1 < g.sy then g.row (r + 1) else some {} := by
  have hroom := h.room
  by_cases hle : collected g ≤ g.hsize
  · obtain ⟨l₁, hcollect, hlen₁, hget₁⟩ := gridCollectHistory_eq h hle
    have hlength := h.length
    have hwhole₁ : Grid.Whole { g with linedata := l₁, hsize := g.hsize - collected g } :=
      ⟨by dsimp only; omega, by dsimp only; omega⟩
    obtain ⟨l₂, hscroll, hlen₂, hget₂⟩ := gridScrollHistory_eq hwhole₁
    dsimp only at hlen₂ hget₂
    refine ⟨{ g with linedata := l₂, hsize := g.hsize - collected g + 1 }, by rw [hcollect, pure_bind, hscroll]; rfl,
      ⟨rfl, rfl, rfl, rfl⟩, ⟨hlen₂.ge, ?_⟩, fun r hr => ?_⟩
    · have hkept : g.hsize - collected g + 1 ≤ max g.hsize g.hlimit := by
        unfold collected at hle ⊢
        split_ifs at hle ⊢ <;> omega
      dsimp only
      omega
    · rw [Grid.row, Grid.row]
      dsimp only
      rw [hget₂ (g.hsize - collected g + 1 + r) (by omega)]
      by_cases hlast : r + 1 < g.sy
      · rw [if_pos (by omega), if_pos hlast, hget₁ _ (by omega)]
        congr 1
        omega
      · rw [if_neg (by omega), if_neg hlast]
  · -- No history at all: the line is collected from the screen.
    have hmore : ¬ g.hsize < g.hlimit := fun hlt => hle (by rw [collected, if_pos hlt]; exact Nat.zero_le _)
    rw [collected, if_neg hmore] at hle
    have hnone : g.hsize = 0 ∧ g.hlimit = 0 := by omega
    obtain ⟨l₁, hcollect, hget₁⟩ := gridCollectHistory_none h hsy hnone.1 hnone.2
    have hrows := uadd_round hsy (by omega : g.sy < Exec.word)
    refine ⟨{ g with linedata := (Block.resize {} l₁ g.sy).set (g.sy - 1) {}, hsize := 0 }, ?_, ⟨rfl, rfl, rfl, rfl⟩,
      ⟨?_, ?_⟩, fun r hr => ?_⟩
    · rw [hcollect, Exec.done_bind, gridScrollHistory]
      dsimp only
      rw [hrows, Exec.uadd_of_lt (by omega), Nat.sub_add_cancel hsy,
        Block.store_eq (by rw [Block.length_resize]; omega), pure_bind]
      rfl
    · dsimp only
      rw [List.length_set, Block.length_resize, Nat.zero_add]
    · dsimp only
      omega
    · show ((Block.resize {} l₁ g.sy).set (g.sy - 1) {})[0 + r]? = _
      rw [Nat.zero_add, List.getElem?_set, Block.length_resize, Block.getElem?_resize, if_pos hr]
      by_cases hlast : r + 1 < g.sy
      · obtain ⟨gl, hgl⟩ := h.exists_row hlast
        rw [if_neg (by omega), if_pos hlast, hget₁ r hlast, hgl, Option.getD_some]
      · rw [if_pos (by omega), if_pos (by omega), if_neg hlast]

/-- Scrolling lines into the history moves the rows up, and leaves blank ones. -/
theorem scrollLines_rows (h : g.Whole) (hlimit : g.hlimit + g.sy + 1 < Exec.word) (hsy : 1 ≤ g.sy) (n : ℕ) :
    ∃ g', (scrollLines g n).value? = some g' ∧ g.SameShape g' ∧ g'.Whole ∧
      ∀ r < g.sy, g'.row r = if r + n < g.sy then g.row (r + n) else some {} := by
  induction n generalizing g with
  | zero => exact ⟨g, rfl, .refl g, h, fun r hr => by rw [Nat.add_zero, if_pos hr]⟩
  | succ n ih =>
    obtain ⟨g₁, hval₁, hshape₁, hwhole₁, hrow₁⟩ := scrollLine_rows h hlimit hsy
    obtain ⟨g₂, hval₂, hshape₂, hwhole₂, hrow₂⟩ :=
      ih hwhole₁ (by rw [hshape₁.hlimit, hshape₁.sy]; exact hlimit) (hshape₁.sy ▸ hsy)
    refine ⟨g₂, ?_, hshape₁.trans hshape₂, hwhole₂, fun r hr => ?_⟩
    · rw [scrollLines, ← bind_assoc, Exec.value?_bind]
      exact ⟨g₁, hval₁, hval₂⟩
    · rw [hrow₂ r (hshape₁.sy ▸ hr), hshape₁.sy]
      by_cases hrn : r + n < g.sy
      · rw [if_pos hrn, hrow₁ _ hrn]
        rfl
      · rw [if_neg hrn, if_neg (by omega)]

theorem GridLine.shown_of_unused (h : gl.used = false) (x : ℕ) : gl.shown x = defaultShown := by
  have hlength : gl.celldata.length = 0 := by
    rw [GridLine.used, decide_eq_false_iff_not] at h
    omega
  exact GridLine.shown_of_cell (GridLine.cell_of_length_le (by omega))

/-- Clearing into the history erases the screen. -/
theorem gridViewClearHistory_erased (h : g.Whole) (hlimit : g.hlimit + g.sy + 1 < Exec.word) (hsy : 1 ≤ g.sy) :
    ∃ g', (gridViewClearHistory g).value? = some g' ∧ g.Erased (fun _ _ => True) g' := by
  obtain ⟨last, -, hlast, -, hunused⟩ := lastUsed_eq h le_rfl
  obtain ⟨g', hval, hshape, hwhole, hrow⟩ := scrollLines_rows h hlimit hsy last
  refine ⟨g', ?_, hshape, hwhole, fun x _ y hy _ => ?_, fun x _ y _ hxy => absurd trivial hxy⟩
  · rw [gridViewClearHistory, hlast, pure_bind, hval]
  · rw [Grid.shown, hrow y hy]
    split_ifs with hused
    · obtain ⟨gl, hgl⟩ := h.exists_row hused
      have hnone := hunused (y + last) (by omega) hused
      rw [hgl, Option.any_some] at hnone
      rw [hgl, Option.getD_some]
      exact GridLine.shown_of_unused hnone x
    · exact GridLine.shown_of_cell rfl

/-! ## Erasing from the cursor -/

/-- The operations that erase a part of the line of the cursor or of the screen. -/
inductive Erase
  | endofline
  | startofline
  | line
  | endofscreen
  | startofscreen
  | screen
  deriving DecidableEq, Repr

def screenWriteErase (s : Screen) : Erase → Exec Screen
  | .endofline => screenWriteClearendofline s
  | .startofline => screenWriteClearstartofline s
  | .line => screenWriteClearline s
  | .endofscreen => screenWriteClearendofscreen s
  | .startofscreen => screenWriteClearstartofscreen s
  | .screen => screenWriteClearscreen s

/-- The cells that an operation names. -/
def Erase.addresses (s : Screen) : Erase → ℕ → ℕ → Prop
  | .endofline, x, y => y = s.cy ∧ s.cx ≤ x
  | .startofline, x, y => y = s.cy ∧ x ≤ s.cx
  | .line, _, y => y = s.cy
  | .endofscreen, x, y => s.cy < y ∨ y = s.cy ∧ s.cx ≤ x
  | .startofscreen, x, y => y < s.cy ∨ y = s.cy ∧ x ≤ s.cx
  | .screen, _, _ => True

/-- What erasing makes of a screen. -/
structure Screen.Erased (s : Screen) (e : Erase) (s' : Screen) : Prop where
  rest : s' = { s with grid := s'.grid }
  grid : s.grid.Erased (e.addresses s) s'.grid

/-- Something left of the cursor on the first row is erased with the screen. -/
def Screen.LosesStart (s : Screen) : Prop :=
  s.cy = 0 ∧ s.grid.history = true ∧ ∃ x < s.grid.sx, x < s.cx ∧ s.grid.shown x 0 ≠ defaultShown

section

variable (h : s.Sound) (hsx : s.grid.sx < Exec.word)

include h hsx

theorem clearRight_erased :
    ∃ g', (clearRight s).value? = some g' ∧ s.grid.Erased (fun x y => y = s.cy ∧ s.cx ≤ x) g' := by
  have hwidth := h.width
  rw [clearRight, Exec.usub_of_le hwidth, pure_bind]
  by_cases hcx : s.cx ≤ s.grid.sx - 1
  · obtain ⟨g', hval, herased⟩ := gridViewClear_row h.whole hsx h.rows.cursor
      (by omega : s.cx ≤ s.grid.sx) (by omega) le_rfl
    rw [if_pos hcx, Exec.usub_of_le (by omega), pure_bind]
    exact ⟨g', hval, herased.congr fun x hx y _ => by omega⟩
  · rw [if_neg hcx]
    exact ⟨s.grid, rfl, .refl h.whole fun x hx y _ => by omega⟩

theorem clearLeft_erased {g : Grid} (hg : g.Whole) (hshape : s.grid.SameShape g) :
    ∃ g', (clearLeft s g).value? = some g' ∧ g.Erased (fun x y => y = s.cy ∧ x ≤ s.cx) g' := by
  have hwidth := h.width
  have hcursor := h.rows.cursor
  rw [clearLeft, Exec.usub_of_le hwidth, pure_bind]
  have hclear : ∀ {hi}, 1 ≤ hi → hi ≤ s.grid.sx → (∀ x < s.grid.sx, x < hi ↔ x ≤ s.cx) →
      ∃ g', (gridViewClear g 0 s.cy hi 1).value? = some g' ∧ g.Erased (fun x y => y = s.cy ∧ x ≤ s.cx) g' :=
    fun {hi} hpos hle hiff => by
      obtain ⟨g', hval, herased⟩ := gridViewClear_row hg (hshape.sx ▸ hsx) (hshape.sy ▸ hcursor)
        (Nat.zero_le hi) (by rw [hshape.sx]; omega) (hshape.sx ▸ hle)
      refine ⟨g', hval, herased.congr fun x hx y _ => ?_⟩
      rw [← hiff x (hshape.sx ▸ hx)]
      simp
  split_ifs with hcx
  · exact hclear hwidth le_rfl fun x hx => by omega
  · rw [Exec.uadd_of_lt (by omega)]
    exact hclear (by omega) (by omega) fun x _ => Nat.lt_succ_iff

/-- Erasing makes the cells named default ones, and leaves the other ones alone, but for what is
    left of the cursor on the first row if the end of the screen is erased into the history. -/
theorem erase_iff (hlimit : s.grid.hlimit + s.grid.sy + 1 < Exec.word) (e : Erase) :
    (∃ s', (screenWriteErase s e).value? = some s' ∧ s.Erased e s') ↔ ¬ (e = .endofscreen ∧ s.LosesStart) := by
  have hcursor := h.rows.cursor
  -- An operation that puts another grid on the screen.
  have hput : ∀ {x : Exec Grid} {g'}, x.value? = some g' → s.grid.Erased (e.addresses s) g' →
      ∃ s', (x >>= fun grid => pure { s with grid }).value? = some s' ∧ s.Erased e s' :=
    fun {x g'} hval herased => ⟨{ s with grid := g' }, Exec.value?_bind.2 ⟨g', hval, rfl⟩, rfl, herased⟩
  cases e with
  | endofline =>
    obtain ⟨g', hval, herased⟩ := clearRight_erased h hsx
    exact iff_of_true (hput hval herased) (by simp)
  | startofline =>
    obtain ⟨g', hval, herased⟩ := clearLeft_erased h hsx h.whole (.refl _)
    exact iff_of_true (hput hval herased) (by simp)
  | line =>
    obtain ⟨g', hval, herased⟩ := gridViewClear_row h.whole hsx hcursor (Nat.zero_le s.grid.sx)
      h.width le_rfl
    refine iff_of_true (hput hval (herased.congr fun x hx y _ => ?_)) (by simp)
    exact ⟨fun hxy => hxy.1, fun hy => ⟨hy, Nat.zero_le _, hx⟩⟩
  | startofscreen =>
    obtain ⟨g₁, hval₁, herased₁⟩ := gridViewClear_rows h.whole h.width (Nat.zero_le s.cy) hcursor.le
    obtain ⟨g₂, hval₂, herased₂⟩ := clearLeft_erased h hsx herased₁.whole herased₁.toSameShape
    have hval : (gridViewClear s.grid 0 0 s.grid.sx s.cy >>= clearLeft s).value? = some g₂ :=
      Exec.value?_bind.2 ⟨g₁, hval₁, hval₂⟩
    have hdone := hput hval ((herased₁.trans herased₂).congr fun x _ y _ => by simp [Erase.addresses])
    rw [bind_assoc] at hdone
    exact iff_of_true hdone (by simp)
  | screen =>
    refine iff_of_true ?_ (by simp)
    rw [screenWriteErase, screenWriteClearscreen]
    split_ifs with hon
    · obtain ⟨g', hval, herased⟩ := gridViewClearHistory_erased h.whole hlimit (by omega)
      exact hput (by rw [Exec.value?_forget]; exact hval) herased
    · obtain ⟨g', hval, herased⟩ := gridViewClear_rows h.whole h.width (Nat.zero_le s.grid.sy) le_rfl
      exact hput hval (herased.congr fun x _ y hy => by simp [Erase.addresses, hy])
  | endofscreen =>
    rw [screenWriteErase, screenWriteClearendofscreen]
    by_cases htop : s.cy = 0 ∧ s.grid.history = true
    · -- All of the screen goes to the history.
      rw [if_pos htop]
      obtain ⟨g', hval, herased⟩ := gridViewClearHistory_erased h.whole hlimit (by omega)
      have hrun : (forget (gridViewClearHistory s.grid) >>= fun grid => pure { s with grid }).value? =
          some { s with grid := g' } := Exec.value?_bind.2 ⟨g', by rw [Exec.value?_forget]; exact hval, rfl⟩
      constructor
      · rintro ⟨s', hrun', hdone⟩ ⟨-, -, -, x, hx, hcx, hkept⟩
        obtain rfl := Option.some.inj (hrun.symm.trans hrun')
        refine hkept ?_
        rw [← hdone.grid.kept x hx 0 (by omega) (by rw [Erase.addresses]; omega)]
        exact herased.erased x hx 0 (by omega) trivial
      · intro hloses
        refine ⟨_, hrun, rfl, herased.toSameShape, herased.whole, fun x hx y hy _ => herased.erased x hx y hy trivial,
          fun x hx y hy hxy => ?_⟩
        rw [herased.erased x hx y hy trivial]
        rw [Erase.addresses] at hxy
        obtain rfl : y = 0 := by omega
        by_contra hne
        exact hloses ⟨rfl, htop.1, htop.2, x, hx, by omega, fun heq => hne heq.symm⟩
    · rw [if_neg htop]
      refine iff_of_true ?_ fun hloses => htop ⟨hloses.2.1, hloses.2.2.1⟩
      obtain ⟨g₁, hval₁, herased₁⟩ := clearRight_erased h hsx
      obtain ⟨g₂, hval₂, herased₂⟩ := gridViewClear_rows herased₁.whole (herased₁.sx ▸ h.width)
        (by omega : s.cy + 1 ≤ s.grid.sy) herased₁.sy.ge
      rw [herased₁.sx] at hval₂
      have hroom := h.whole.room
      have hval : (clearRight s >>= fun grid => forget (usub s.grid.sy (uadd s.cy 1)) >>=
          gridViewClear grid 0 (uadd s.cy 1) s.grid.sx).value? = some g₂ := by
        refine Exec.value?_bind.2 ⟨g₁, hval₁, ?_⟩
        rw [Exec.uadd_of_lt (by omega), Exec.usub_of_le (by omega), Exec.forget_pure, pure_bind, hval₂]
      have hdone := hput hval ((herased₁.trans herased₂).congr fun x _ y hy => by
        rw [Erase.addresses]
        omega)
      simp only [bind_assoc] at hdone
      exact hdone

end

/-- A screen of two rows with the cursor on the first one. -/
def twoRows : Screen := screenOfText 3 2 1 0 [[97, 98], [99]]

theorem twoRows_sound : twoRows.Sound :=
  ⟨⟨by decide, by decide, by decide, by decide⟩, by decide, ⟨by decide, by decide⟩⟩

/-- To the start of the line, the cell of the cursor is erased. -/
theorem erase_small : ∃ s', (screenWriteErase twoRows .startofline).value? = some s' ∧ twoRows.Erased .startofline s' :=
  (erase_iff twoRows_sound (by decide) (by decide) .startofline).2 (by rintro ⟨⟨⟩, -⟩)

/-- To the end of the screen, the one left of it is erased as well. -/
theorem erase_loses : twoRows.Sound ∧
    ¬ ∃ s', (screenWriteErase twoRows .endofscreen).value? = some s' ∧ twoRows.Erased .endofscreen s' := by
  refine ⟨twoRows_sound, ?_⟩
  rintro ⟨s', hval, hdone⟩
  have hrun : (screenWriteErase twoRows .endofscreen).value? =
      some (screenOfText 3 2 1 0 [[97, 98], [99], [], []]) := by decide
  obtain rfl := Option.some.inj (hrun.symm.trans hval)
  have hkept := hdone.grid.kept 0 (by decide) 0 (by decide) (by unfold Erase.addresses; decide)
  exact absurd hkept (by decide)

end Tmux
