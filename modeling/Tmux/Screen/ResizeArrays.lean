import Tmux.Grid.Owners
import Tmux.Screen.Screen

/-!
# The arrays of a screen that is resized

When the screen gets lower, lines are deleted and their array is cut (`Arrays.screenResizeY`). No array of a line is lost
by that: the lines that are cut off were freed before (`Arrays.screenResize_owner`).
-/

open Exec (Meets)

namespace Tmux

open Exec (Refines uadd usub)

namespace Arrays

/-- Delete lines. -/
def gridViewDeleteLines (h : Heap) (gd : OwnedGrid) (py ny : ℕ) : Exec (Heap × OwnedGrid) := do
  let py := gridViewY gd.erase py
  let sy := gridViewY gd.erase gd.sy
  let n ← usub sy py
  let n ← usub n ny
  let (h, gd) ← gridMoveLines h gd py (uadd py ny) n
  let sy ← usub sy ny
  let n ← usub (uadd py ny) sy
  gridClear h gd 0 sy gd.sx n

/-- Delete as many as needed of the lines below the cursor, that is in the row `cy`. Gives the number of lines
    deleted. -/
def deleteBottom (h : Heap) (gd : OwnedGrid) (cy needed : ℕ) : Exec ((Heap × OwnedGrid) × ℕ) := do
  let last ← usub gd.sy 1
  let available ← usub last cy
  if available = 0 then pure ((h, gd), 0)
  else do
    let available := if available > needed then needed else available
    let py ← usub gd.sy available
    let q ← gridViewDeleteLines h gd py available
    pure (q, available)

/-- Take lines from the top: the history takes them over, or they are deleted if it is off. -/
def takeTop (h : Heap) (gd : OwnedGrid) (cy needed : ℕ) : Exec (Heap × OwnedGrid) :=
  let available := cy
  if gd.history then pure (h, { gd with hsize := uadd gd.hsize needed })
  else if needed > 0 ∧ available > 0 then
    gridViewDeleteLines h gd 0 (if available > needed then needed else available)
  else pure (h, gd)

/-- Delete lines from the bottom until hitting the cursor, then push lines from the top into the history. -/
def shrinkY (h : Heap) (gd : OwnedGrid) (cy sy : ℕ) : Exec (Heap × OwnedGrid) :=
  if sy < gd.sy then do
    let needed ← usub gd.sy sy
    let (q, available) ← deleteBottom h gd cy needed
    let needed ← usub needed available
    takeTop q.1 q.2 cy needed
  else pure (h, gd)

/-- Pull as many lines as possible from the history to the top, then fill the remaining with blanks at the bottom. -/
def growY (gd : OwnedGrid) (oldy sy : ℕ) : Exec OwnedGrid := do
  if sy > oldy then do
    let needed ← usub sy oldy
    let available :=
      if gd.history ∧ gd.hsize > 0 then
        if gd.hsize > needed then needed else gd.hsize
      else 0
    let hsize ← usub gd.hsize available
    let needed ← usub needed available
    let bottom ← usub (uadd hsize sy) needed
    let linedata ← Block.fill {} (fun _ => true) gd.linedata bottom (uadd hsize sy - bottom)
    pure { gd with hsize, linedata }
  else pure gd

def screenResizeY (h : Heap) (gd : OwnedGrid) (cy sy : ℕ) : Exec (Heap × OwnedGrid) :=
  if sy = 0 then .fault .fatal
  else do
    let oldy := gd.sy
    let (h, gd) ← shrinkY h gd cy sy
    -- Resize line arrays.
    let gd := { gd with linedata := Block.resize {} gd.linedata (uadd gd.hsize sy) }
    let gd ← growY gd oldy sy
    pure (h, { gd with sy })

/-- Resize a screen with the cursor in the row `cy`. -/
def screenResize (h : Heap) (gd : OwnedGrid) (cy sx sy : ℕ) : Exec (Heap × OwnedGrid) := do
  let sx := if sx < 1 then 1 else sx
  let sy := if sy < 1 then 1 else sy
  let gd := { gd with sx }
  if sy ≠ gd.sy then screenResizeY h gd cy sy else pure (h, gd)

variable {h : Heap} {gd : OwnedGrid} {rest : ℕ → Prop} {s : Screen} {n py ny cy sy : ℕ}

/-! ## Without the pointers -/

theorem usub_value (a b : ℕ) : ∃ c, (usub a b).value? = some c := by
  unfold usub
  split_ifs
  · exact ⟨_, rfl⟩
  · exact ⟨_, rfl⟩

theorem gridViewDeleteLines_erases (h : Heap) (gd : OwnedGrid) (py ny : ℕ) :
    Refines erased (gridViewDeleteLines h gd py ny) (Tmux.gridViewDeleteLines gd.erase py ny) := by
  refine (usub_refines _ _).bind fun n₁ _ => (usub_refines _ _).bind fun n₂ _ => ?_
  refine (gridMoveLines_erases h gd _ _ _).bind fun q _ => ?_
  exact (usub_refines _ _).bind fun last _ => (usub_refines _ _).bind fun n _ => gridClear_erases q.1 q.2 _ _ _ _

theorem deleteBottom_erases (hs : s.grid = gd.erase) (needed : ℕ) :
    Refines (fun r : (Heap × OwnedGrid) × ℕ => (erased r.1, r.2)) (deleteBottom h gd s.cy needed)
      (Tmux.deleteBottom s needed) := by
  unfold deleteBottom Tmux.deleteBottom
  rw [hs]
  refine (usub_refines _ _).bind fun last _ => (usub_refines _ _).bind fun available _ => ?_
  dsimp only [id]
  split_ifs with hnone
  · exact .pure rfl
  all_goals exact (usub_refines _ _).bind fun py _ => (gridViewDeleteLines_erases h gd _ _).bind fun q _ => .pure rfl

theorem takeTop_erases (s : Screen) (h : Heap) (gd : OwnedGrid) (needed : ℕ) :
    Refines erased (takeTop h gd s.cy needed) (Tmux.takeTop s gd.erase needed) := by
  unfold takeTop Tmux.takeTop
  dsimp only
  by_cases hhistory : gd.history = true
  · rw [if_pos hhistory, if_pos (show gd.erase.history = true from hhistory)]
    exact .pure rfl
  · rw [if_neg hhistory, if_neg (show ¬gd.erase.history = true from hhistory)]
    split_ifs
    · exact gridViewDeleteLines_erases h gd _ _
    · exact gridViewDeleteLines_erases h gd _ _
    · exact .pure rfl

theorem shrinkY_erases (hs : s.grid = gd.erase) {q : Heap × OwnedGrid} (hq : (shrinkY h gd s.cy sy).value? = some q) :
    ∃ s', (Tmux.shrinkY s sy).value? = some s' ∧ s'.grid = erased q := by
  unfold shrinkY at hq
  unfold Tmux.shrinkY
  rw [hs]
  by_cases hlt : sy < gd.sy
  · rw [if_pos hlt] at hq
    rw [if_pos (show sy < gd.erase.sy from hlt)]
    obtain ⟨needed, hneeded, hq⟩ := Exec.value?_bind.1 hq
    obtain ⟨r, hr, hq⟩ := Exec.value?_bind.1 hq
    obtain ⟨needed', hneeded', hq⟩ := Exec.value?_bind.1 hq
    obtain ⟨cy', hcy'⟩ := usub_value s.cy needed'
    refine ⟨{ s with grid := erased q, cy := cy' }, ?_, rfl⟩
    refine Exec.value?_bind.2 ⟨needed, hneeded, Exec.value?_bind.2 ⟨_, deleteBottom_erases hs needed r hr, ?_⟩⟩
    refine Exec.value?_bind.2 ⟨needed', hneeded', Exec.value?_bind.2 ⟨_, takeTop_erases s r.1.1 r.1.2 needed' q hq, ?_⟩⟩
    exact Exec.value?_bind.2 ⟨cy', hcy', rfl⟩
  · rw [if_neg hlt] at hq
    rw [if_neg (show ¬sy < gd.erase.sy from hlt)]
    obtain rfl := Option.some.inj hq
    exact ⟨s, rfl, hs⟩

theorem growY_erases (hs : s.grid = gd.erase) (oldy sy : ℕ) {gd' : OwnedGrid}
    (hgd' : (growY gd oldy sy).value? = some gd') :
    ∃ s', (Tmux.growY s oldy sy).value? = some s' ∧ s'.grid = gd'.erase := by
  unfold growY at hgd'
  unfold Tmux.growY
  by_cases hgrows : sy > oldy
  · rw [if_pos hgrows] at hgd' ⊢
    rw [hs]
    obtain ⟨needed, hneeded, hgd'⟩ := Exec.value?_bind.1 hgd'
    obtain ⟨hsize, hhsize, hgd'⟩ := Exec.value?_bind.1 hgd'
    obtain ⟨needed', hneeded', hgd'⟩ := Exec.value?_bind.1 hgd'
    obtain ⟨bottom, hbottom, hgd'⟩ := Exec.value?_bind.1 hgd'
    obtain ⟨l, hl, hgd'⟩ := Exec.value?_bind.1 hgd'
    obtain rfl := Option.some.inj hgd'
    refine ⟨_, Exec.value?_bind.2 ⟨needed, hneeded, Exec.value?_bind.2 ⟨hsize, hhsize, Exec.value?_bind.2
      ⟨needed', hneeded', Exec.value?_bind.2 ⟨bottom, hbottom, Exec.value?_bind.2
        ⟨_, Block.fill_refines OwnedLine.toGridLine {} _ _ _ _ l hl, rfl⟩⟩⟩⟩⟩, rfl⟩
  · rw [if_neg hgrows] at hgd' ⊢
    obtain rfl := Option.some.inj hgd'
    exact ⟨s, rfl, hs⟩

/-- The width of a screen is that of its grid. -/
theorem changeX_erases (hs : s.grid = gd.erase) (sx : ℕ) (hsx : 0 < sx) :
    ∃ s', (changeX s sx).value? = some s' ∧ s'.grid = ({ gd with sx } : OwnedGrid).erase ∧ s'.cy = s.cy := by
  unfold changeX
  by_cases hne : sx ≠ s.grid.sx
  · rw [if_pos hne, screenResizeX, if_neg hsx.ne']
    obtain ⟨last, hlast⟩ := usub_value sx 1
    refine ⟨_, Exec.value?_bind.2 ⟨_, Exec.value?_bind.2 ⟨last, hlast, rfl⟩, rfl⟩, ?_, rfl⟩
    dsimp only [screenResetTabs]
    rw [hs]
    rfl
  · rw [if_neg hne]
    refine ⟨s, rfl, ?_, rfl⟩
    rw [not_not] at hne
    rw [hs, hne, hs]
    rfl

theorem screenResizeY_erases (hs : s.grid = gd.erase) (sy : ℕ) {q : Heap × OwnedGrid}
    (hq : (screenResizeY h gd s.cy sy).value? = some q) :
    ∃ s', (Tmux.screenResizeY s sy).value? = some s' ∧ s'.grid = erased q := by
  unfold screenResizeY at hq
  unfold Tmux.screenResizeY
  by_cases hzero : sy = 0
  · rw [if_pos hzero] at hq
    cases hq
  rw [if_neg hzero] at hq ⊢
  obtain ⟨q₁, hq₁, hq⟩ := Exec.value?_bind.1 hq
  obtain ⟨gd₂, hgd₂, hq⟩ := Exec.value?_bind.1 hq
  obtain rfl := Option.some.inj hq
  obtain ⟨s₁, hs₁, hgrid₁⟩ := shrinkY_erases hs hq₁
  obtain ⟨rlower, hrlower⟩ := usub_value sy 1
  have hresized : Block.resize {} s₁.grid.linedata (uadd s₁.grid.hsize sy) =
      (Block.resize {} q₁.2.linedata (uadd q₁.2.hsize sy)).map OwnedLine.toGridLine := by
    rw [hgrid₁, Block.map_resize]
    rfl
  have hgrid : ({ s₁.grid with linedata := Block.resize {} s₁.grid.linedata (uadd s₁.grid.hsize sy) } : Grid) =
      ({ q₁.2 with linedata := Block.resize {} q₁.2.linedata (uadd q₁.2.hsize sy) } : OwnedGrid).erase := by
    rw [hresized, hgrid₁]
    rfl
  obtain ⟨s₂, hs₂, hgrid₂⟩ := growY_erases (s := { s₁ with grid := _ }) hgrid gd.sy sy hgd₂
  refine ⟨_, Exec.value?_bind.2 ⟨s₁, hs₁, Exec.value?_bind.2 ⟨s₂, ?_, Exec.value?_bind.2 ⟨rlower, hrlower, rfl⟩⟩⟩, ?_⟩
  · rwa [hs]
  · dsimp only
    rw [hgrid₂]
    rfl

/-- A screen is resized as its grid is, without the pointers. -/
theorem screenResize_erases (hs : s.grid = gd.erase) (sx sy : ℕ) {q : Heap × OwnedGrid}
    (hq : (screenResize h gd s.cy sx sy).value? = some q) :
    ∃ s', (Tmux.screenResize s sx sy).value? = some s' ∧ s'.grid = erased q := by
  unfold screenResize at hq
  unfold Tmux.screenResize
  dsimp only at hq ⊢
  obtain ⟨s₁, hs₁, hgrid₁, hcy₁⟩ := changeX_erases hs (if sx < 1 then 1 else sx) (by split_ifs <;> omega)
  have hsy₁ : s₁.grid.sy = gd.sy := by rw [hgrid₁]; rfl
  by_cases hne : (if sy < 1 then 1 else sy) = gd.sy
  · rw [if_neg (not_not.2 hne)] at hq
    obtain rfl := Option.some.inj hq
    refine ⟨s₁, Exec.value?_bind.2 ⟨s₁, hs₁, ?_⟩, hgrid₁⟩
    rw [if_neg (by rw [hsy₁]; exact not_not.2 hne)]
    rfl
  · rw [if_pos hne, ← hcy₁] at hq
    obtain ⟨s₂, hs₂, hgrid₂⟩ := screenResizeY_erases hgrid₁ _ hq
    refine ⟨s₂, Exec.value?_bind.2 ⟨s₁, hs₁, ?_⟩, hgrid₂⟩
    rwa [if_pos (by rw [hsy₁]; exact hne), Exec.value?_forget]

/-! ## Owners -/

theorem viewY_eq (hfits : gd.hsize + n < Exec.word) : gridViewY gd.erase n = gd.hsize + n := Exec.uadd_of_lt hfits

/-- Clearing all columns of lines frees them. -/
theorem gridClear_lines (ho : gd.Owner h rest) (hsx : gd.sx ≠ 0) (py ny : ℕ) :
    Meets notFreed (fun q => gd.Keeps rest q ∧ (∀ k, Blank gd.linedata k → Blank q.2.linedata k) ∧
      (py + ny ≤ gd.lines → ∀ k, py ≤ k → k < py + ny → Blank q.2.linedata k)) (gridClear h gd 0 py gd.sx ny) := by
  unfold gridClear
  by_cases hny : ny = 0
  · rw [if_pos (.inr hny)]
    exact .pure ⟨⟨ho, .refl gd⟩, fun _ hk => hk, fun _ k _ _ => by omega⟩
  · rw [if_neg (not_or.2 ⟨hsx, hny⟩), if_pos ⟨rfl, rfl⟩]
    exact gridClearLines_keeps ho py ny

/-- Lines after those that are deleted move up, and leave lines behind that own nothing. -/
theorem gridViewDeleteLines_keeps (ho : gd.Owner h rest) (hsx : gd.sx ≠ 0) (hword : gd.hsize + gd.sy < Exec.word)
    (hny : 0 < ny) (hfits : py + ny ≤ gd.sy) :
    Meets notFreed (fun q => gd.Keeps rest q ∧
      (∀ k, gd.lines ≤ k + ny → Blank q.2.linedata k) ∧
      ∀ k, gd.hsize + py ≤ k → Blank gd.linedata (k + ny) → Blank q.2.linedata k)
      (gridViewDeleteLines h gd py ny) := by
  have hlines : gd.lines = gd.hsize + gd.sy := Exec.uadd_of_lt hword
  unfold gridViewDeleteLines
  dsimp only
  rw [viewY_eq (show gd.hsize + py < Exec.word by omega), viewY_eq hword]
  refine (Exec.meets_usub (.inl trivial)).bind fun n₁ hn₁ => (Exec.meets_usub (.inl trivial)).bind fun n hn => ?_
  obtain rfl := hn₁ (by omega)
  obtain rfl := hn (by omega)
  rw [Exec.uadd_of_lt (by omega)]
  refine (gridMoveLines_keeps ho _ _ _).bind fun ⟨h₁, gd₁⟩ ⟨hkeeps, hmoved⟩ => ?_
  have hget := hmoved (by omega) (by omega) (by omega)
  dsimp only at hget ⊢
  refine (Exec.meets_usub (.inl trivial)).bind fun last hlast => ?_
  obtain rfl := hlast (by omega)
  refine (meets_usub_word _ _).bind fun n hn => ?_
  have hlines₁ : gd₁.lines = gd.lines := hkeeps.shape.lines
  refine (gridClear_lines hkeeps.owner (by rwa [hkeeps.shape.sx]) _ n).mono fun q ⟨hkeeps', hblank', hcleared⟩ => ?_
  have hlast : ∀ k, gd.lines ≤ k + ny → Blank q.2.linedata k := fun k hk => by
    by_cases hpast : gd.lines ≤ k
    · exact fun gl => hkeeps'.owner.past k gl (by rwa [hkeeps'.shape.lines, hkeeps.shape.lines])
    by_cases hwiped : gd.hsize + py + ny ≤ k
    · refine hblank' k (blank_of_empty ?_)
      rw [hget, if_neg (by omega), if_pos (by omega)]
    · have hn' := hn.1 (by omega)
      exact hcleared (by rw [hlines₁]; omega) k (by omega) (by omega)
  refine ⟨⟨hkeeps'.owner, hkeeps.shape.trans hkeeps'.shape⟩, hlast, fun k hk hblank => ?_⟩
  by_cases hmoved : k + ny < gd.lines
  · refine hblank' k (hblank.congr ?_)
    rw [hget, if_pos (by omega)]
    congr 1
    omega
  · exact hlast k (by omega)

/-- Lines below the cursor are deleted. -/
theorem deleteBottom_keeps (ho : gd.Owner h rest) (hsx : gd.sx ≠ 0) (hword : gd.hsize + gd.sy < Exec.word)
    (hcy : cy < gd.sy) {needed : ℕ} (hneeded : 0 < needed) :
    Meets notFreed (fun r => gd.Keeps rest r.1 ∧ r.2 = min (gd.sy - 1 - cy) needed ∧
      ∀ k, gd.lines ≤ k + r.2 → Blank r.1.2.linedata k) (deleteBottom h gd cy needed) := by
  refine (Exec.meets_usub (.inl trivial)).bind fun last hlast => (Exec.meets_usub (.inl trivial)).bind fun a ha => ?_
  obtain rfl := hlast (by omega)
  obtain rfl := ha (by omega)
  by_cases hnone : gd.sy - 1 - cy = 0
  · rw [if_pos hnone]
    exact .pure ⟨⟨ho, .refl gd⟩, by omega, fun k hk gl => ho.past k gl hk⟩
  rw [if_neg hnone]
  have hmin : (if gd.sy - 1 - cy > needed then needed else gd.sy - 1 - cy) = min (gd.sy - 1 - cy) needed := by
    split_ifs <;> omega
  dsimp only
  rw [hmin]
  refine (Exec.meets_usub (.inl trivial)).bind fun py hpy => ?_
  obtain rfl := hpy (by omega)
  exact (gridViewDeleteLines_keeps ho hsx hword (by omega) (by omega)).bind fun q hq => .pure ⟨hq.1, rfl, hq.2.1⟩

/-- A grid that gets fewer rows: the lines that are to be cut off own nothing. -/
structure Cut (gd : OwnedGrid) (rest : ℕ → Prop) (n : ℕ) (q : Heap × OwnedGrid) : Prop where
  owned : Owned OwnedLine.arrays q.1 rest q.2.linedata
  sized : ∀ gl ∈ q.2.linedata, gl.Sized
  room : q.2.hsize + n ≤ gd.hsize + gd.sy
  blank : ∀ k, q.2.hsize + n ≤ k → Blank q.2.linedata k

/-- Lines are taken from the top, after those at the bottom are deleted. -/
theorem takeTop_cut (ho : gd.Owner h rest) (hsx : gd.sx ≠ 0) (hword : gd.hsize + gd.sy < Exec.word) {needed : ℕ}
    (hcy : needed ≤ cy) (hsum : sy + needed + n = gd.sy) (hsy : 0 < sy) (hblank : ∀ k, gd.lines ≤ k + n → Blank gd.linedata k) :
    Meets notFreed (Cut gd rest sy) (takeTop h gd cy needed) := by
  have hlines : gd.lines = gd.hsize + gd.sy := Exec.uadd_of_lt hword
  unfold takeTop
  dsimp only
  split_ifs with hhistory htop hmore
  · have hsize : uadd gd.hsize needed = gd.hsize + needed := Exec.uadd_of_lt (by omega)
    exact .pure ⟨ho.owned, ho.sized, by dsimp only; omega, fun k hk => hblank k (by dsimp only at hk; omega)⟩
  · refine (gridViewDeleteLines_keeps ho hsx hword htop.1 (by omega)).mono fun q hq => ?_
    have hsize := hq.1.shape.hsize
    exact ⟨hq.1.owner.owned, hq.1.owner.sized, by omega, fun k hk => hq.2.2 k (by omega) (hblank _ (by omega))⟩
  · refine (gridViewDeleteLines_keeps ho hsx hword htop.2 (by omega)).mono fun q hq => ?_
    have hsize := hq.1.shape.hsize
    exact ⟨hq.1.owner.owned, hq.1.owner.sized, by omega, fun k hk => hq.2.2 k (by omega) (hblank _ (by omega))⟩
  · exact .pure ⟨ho.owned, ho.sized, by dsimp only; omega, fun k hk => hblank k (by dsimp only at hk; omega)⟩

theorem shrinkY_cut (ho : gd.Owner h rest) (hsx : gd.sx ≠ 0) (hword : gd.hsize + gd.sy < Exec.word) (hcy : cy < gd.sy)
    (hsy : 0 < sy) (hlt : sy < gd.sy) : Meets notFreed (Cut gd rest sy) (shrinkY h gd cy sy) := by
  rw [shrinkY, if_pos hlt]
  refine (Exec.meets_usub (.inl trivial)).bind fun needed hneeded => ?_
  obtain rfl := hneeded hlt.le
  refine (deleteBottom_keeps ho hsx hword hcy (by omega)).bind fun ⟨q, available⟩ ⟨hkeeps, havailable, hblank⟩ => ?_
  dsimp only at havailable hblank ⊢
  refine (Exec.meets_usub (.inl trivial)).bind fun needed hneeded => ?_
  obtain rfl := hneeded (by omega)
  have hshape := hkeeps.shape
  refine (takeTop_cut (n := available) hkeeps.owner (by rwa [hshape.sx]) (by rwa [hshape.hsize, hshape.sy]) (by omega)
    (by rw [hshape.sy]; omega) hsy (by rwa [hshape.lines])).mono fun q' hq' => ⟨hq'.owned, hq'.sized, ?_, hq'.blank⟩
  have hroom := hq'.room
  rwa [hshape.hsize, hshape.sy] at hroom

/-- Lines that own nothing are made empty. -/
theorem fill_owned {l : List OwnedLine} {i n : ℕ} (ho : Owned OwnedLine.arrays h rest l) (hsized : ∀ gl ∈ l, gl.Sized)
    (hblank : ∀ k, i ≤ k → k < i + n → Blank l k) :
    Meets notFreed (fun l' => Owned OwnedLine.arrays h rest l' ∧ (∀ gl ∈ l', gl.Sized) ∧ l'.length = l.length ∧
      ∀ k, Blank l k → Blank l' k) (Block.fill {} (fun _ => true) l i n) := by
  refine (Block.fill_entries notFreed_overread ({} : OwnedLine) _ i n).mono fun l' ⟨hlength, hget⟩ => ?_
  have hempty : ∀ {b : OwnedLine}, some {} = some b → b.arrays = [] := fun hb => Option.some.inj hb ▸ rfl
  refine ⟨ho.rearranged Eq (fun i b hb hne => ⟨i, rfl, ?_⟩) (fun i i' j hi hi' => hi.trans hi'.symm)
    (fun j a ha hne => ?_), fun gl hgl => ?_, hlength, fun k hk gl hgl => ?_⟩
  · rw [hget] at hb
    split_ifs at hb
    · exact absurd (hempty hb) hne
    · exact hb
  · refine List.mem_of_getElem? (i := j) ?_
    rw [hget, if_neg fun hin => hne (hblank j hin.1 hin.2.1 a ha), ha]
  · obtain ⟨k, hk⟩ := List.mem_iff_getElem?.1 hgl
    rw [hget] at hk
    split_ifs at hk
    · exact Option.some.inj hk ▸ OwnedLine.sized_empty
    · exact hsized gl (List.mem_of_getElem? hk)
  · rw [hget] at hgl
    split_ifs at hgl
    · exact hempty hgl
    · exact hk gl hgl

/-- Pulling lines out of the history leaves none behind that owns an array. -/
theorem growY_owner (ho : gd.Owner h rest) {oldy : ℕ}
    (hfits : gd.hsize + sy < Exec.word) (hgrows : oldy < sy) (hlength : gd.linedata.length = gd.hsize + sy)
    (hblank : ∀ k, gd.hsize + oldy ≤ k → Blank gd.linedata k) :
    Meets notFreed (fun gd' => ({ gd' with sy } : OwnedGrid).Owner h rest) (growY gd oldy sy) := by
  rw [growY, if_pos hgrows]
  refine (Exec.meets_usub (.inl trivial)).bind fun needed hneeded => ?_
  obtain rfl := hneeded hgrows.le
  dsimp only
  generalize havailable : (if gd.history = true ∧ gd.hsize > 0 then
    if gd.hsize > sy - oldy then sy - oldy else gd.hsize else 0) = available
  have hle : available ≤ gd.hsize ∧ available ≤ sy - oldy := by
    rw [← havailable]
    split_ifs <;> omega
  refine (Exec.meets_usub (.inl trivial)).bind fun hsize hhsize => (Exec.meets_usub (.inl trivial)).bind fun n hn => ?_
  obtain rfl := hhsize hle.1
  obtain rfl := hn hle.2
  rw [Exec.uadd_of_lt (show gd.hsize - available + sy < Exec.word by omega)]
  refine (Exec.meets_usub (.inl trivial)).bind fun bottom hbottom => ?_
  obtain rfl := hbottom (by omega)
  refine (fill_owned ho.owned ho.sized fun k hk _ => hblank k (by omega)).bind fun l ⟨howned, hsized, hlength', hblank'⟩ =>
    .pure ⟨howned, hsized, fun k gl hk => hblank' k (hblank k ?_) gl, ?_⟩
  · rw [OwnedGrid.lines, Exec.uadd_of_lt (by dsimp only; omega)] at hk
    dsimp only at hk
    omega
  · dsimp only
    omega

theorem screenResizeY_owner (ho : gd.Owner h rest) (hsx : gd.sx ≠ 0) (hword : gd.hsize + max gd.sy sy < Exec.word)
    (hcy : cy < gd.sy) (hsy : 0 < sy) (hne : sy ≠ gd.sy) :
    Meets notFreed (fun q => q.2.Owner q.1 rest) (screenResizeY h gd cy sy) := by
  have hlines : gd.lines = gd.hsize + gd.sy := Exec.uadd_of_lt (by omega)
  rw [screenResizeY, if_neg hsy.ne']
  by_cases hlt : sy < gd.sy
  · refine (shrinkY_cut ho hsx (by omega) hcy hsy hlt).bind fun q hq => ?_
    have hroom := hq.room
    dsimp only
    rw [Exec.uadd_of_lt (show q.2.hsize + sy < Exec.word by omega), growY, if_neg (by omega), pure_bind]
    obtain ⟨howned, hsized, hblank⟩ := resize_owned hq.owned hq.sized hq.blank le_rfl
    refine .pure ⟨howned, hsized, fun k gl hk => hblank k ?_ gl, ?_⟩
    · rwa [OwnedGrid.lines, Exec.uadd_of_lt (by dsimp only; omega)] at hk
    · dsimp only
      rw [Block.length_resize]
      omega
  · rw [shrinkY, if_neg hlt, pure_bind]
    dsimp only
    have hsize : uadd gd.hsize sy = gd.hsize + sy := Exec.uadd_of_lt (by omega)
    rw [hsize]
    obtain ⟨howned, hsized, hblank⟩ := resize_owned ho.owned ho.sized ho.blank (n := gd.hsize + sy) (by omega)
    have hresized : ({ gd with linedata := Block.resize {} gd.linedata (gd.hsize + sy) } : OwnedGrid).Owner h rest :=
      ⟨howned, hsized, fun k gl hk => hblank k hk gl, by dsimp only; rw [Block.length_resize]; omega⟩
    refine (growY_owner hresized (by dsimp only; omega) (by omega) (Block.length_resize _ _ _)
      fun k hk => hblank k (hlines ▸ hk)).bind fun gd' hgd' => .pure hgd'

/-- Resizing a screen loses no array. -/
theorem screenResize_owner (ho : gd.Owner h rest) (sx : ℕ) (hword : gd.hsize + max gd.sy sy < Exec.word)
    (hcy : cy < gd.sy) : Meets notFreed (fun q => q.2.Owner q.1 rest) (screenResize h gd cy sx sy) := by
  have ho' : ({ gd with sx := if sx < 1 then 1 else sx } : OwnedGrid).Owner h rest :=
    ⟨ho.owned, ho.sized, ho.past, ho.room⟩
  unfold screenResize
  dsimp only
  by_cases hne : (if sy < 1 then 1 else sy) = gd.sy
  · rw [if_neg (not_not.2 hne)]
    exact .pure ho'
  · rw [if_pos hne]
    refine screenResizeY_owner ho' ?_ ?_ hcy ?_ hne
    · dsimp only
      split_ifs <;> omega
    · dsimp only
      split_ifs <;> omega
    · split_ifs <;> omega

end Arrays

end Tmux
