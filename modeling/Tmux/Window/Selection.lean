import Tmux.Window.Commands

/-!
# The active and the last pane

The active pane of a window is one of its panes, and the last one is another of
them, if there is one (`Selected`). The commands on panes keep that
(`paneRun_selected`), unless the walk to a visible pane ends at the pane that was
active before (`SelectOk`) or at the last one (`ShowOk`), or a pane joined to
another window leaves its own window with the last pane missing or active
(`LeaveOk`).
-/

namespace Tmux

/-! ## Layouts -/

/-- Two windows have the same panes, and the same active and last one. -/
structure SameSelection (w w' : Window) : Prop where
  id : w'.id = w.id
  panes : w'.paneIds = w.paneIds
  active : w'.active = w.active
  last : w'.last = w.last

namespace SameSelection

variable {w w' w'' : Window}

theorem refl (w : Window) : SameSelection w w := ⟨rfl, rfl, rfl, rfl⟩

theorem trans (h : SameSelection w w') (h' : SameSelection w' w'') : SameSelection w w'' :=
  ⟨h'.id.trans h.id, h'.panes.trans h.panes, h'.active.trans h.active, h'.last.trans h.last⟩

/-- Panes are updated keeping their identifiers. -/
theorem updatePane (w : Window) (wp : ℕ) {f : WindowPane → WindowPane} (hf : ∀ p, (f p).id = p.id) :
    SameSelection w (w.updatePane wp f) := by
  refine ⟨rfl, ?_, rfl, rfl⟩
  rw [Window.updatePane, Window.paneIds, Window.paneIds, List.map_map]
  refine List.map_congr_left fun p _ => ?_
  dsimp only [Function.comp_apply]
  split
  · exact hf p
  · rfl

theorem clearCells (w : Window) (wps : List ℕ) : SameSelection w (w.clearCells wps) := by
  refine ⟨rfl, ?_, rfl, rfl⟩
  rw [Window.clearCells, Window.paneIds, Window.paneIds, List.map_map]
  refine List.map_congr_left fun p _ => ?_
  dsimp only [Function.comp_apply]
  split <;> rfl

theorem withRoot (w : Window) (root : Option LayoutCell) (next : ℕ) :
    SameSelection w { w with layoutRoot := root, nextCell := next } := ⟨rfl, rfl, rfl, rfl⟩

end SameSelection

section Layout

variable {w w' : Window}

theorem fixPane_id {root : LayoutCell} {wsx wsy : ℕ} {p p' : WindowPane}
    (h : (fixPane root wsx wsy p).value? = some p') : p'.id = p.id := by
  unfold fixPane at h
  split at h
  · obtain rfl : p = p' := by simpa using h
    rfl
  · obtain ⟨⟨lc, cells⟩, -, h⟩ := Exec.value?_bind.1 h
    obtain rfl := Option.some.inj h
    rfl

theorem layoutFixPanes_same {wsx wsy : ℕ} (h : (layoutFixPanes w wsx wsy).value? = some w') :
    SameSelection w w' := by
  obtain ⟨root, -, h⟩ := Exec.value?_bind.1 h
  obtain ⟨panes, hpanes, h⟩ := Exec.value?_bind.1 h
  obtain rfl := Option.some.inj h
  refine ⟨rfl, ?_, rfl, rfl⟩
  exact Exec.map_eq_of_forall₂ (Exec.forall₂_of_mapM hpanes) fun p p' hfix => fixPane_id hfix

theorem layoutMakeLeaf_same {lc wp : ℕ} (h : (layoutMakeLeaf w lc wp).value? = some w') :
    SameSelection w w' := by
  obtain ⟨root, -, h⟩ := Exec.value?_bind.1 h
  obtain ⟨cell, -, h⟩ := Exec.value?_bind.1 h
  obtain rfl := Option.some.inj h
  exact (SameSelection.withRoot w _ w.nextCell).trans (.updatePane _ _ fun _ => rfl)

theorem layoutAssignPane_same {lc wp : ℕ} (h : (layoutAssignPane w lc wp).value? = some w') :
    SameSelection w w' := by
  obtain ⟨w₁, hleaf, h⟩ := Exec.value?_bind.1 h
  exact (layoutMakeLeaf_same hleaf).trans (layoutFixPanes_same h)

theorem layoutInit_same (h : (layoutInit w).value? = some w') : SameSelection w w' := by
  obtain ⟨wp, -, h⟩ := Exec.value?_bind.1 h
  obtain ⟨w₁, hleaf, h⟩ := Exec.value?_bind.1 h
  exact (SameSelection.withRoot w _ _).trans ((layoutMakeLeaf_same hleaf).trans (layoutFixPanes_same h))

theorem layoutClosePane_same {wp : ℕ} (h : (layoutClosePane w wp).value? = some w') :
    SameSelection w w' := by
  obtain ⟨lc, -, h⟩ := Exec.value?_bind.1 h
  obtain ⟨root, -, h⟩ := Exec.value?_bind.1 h
  obtain ⟨⟨root', wps⟩, -, h⟩ := Exec.value?_bind.1 h
  have hclear := (SameSelection.withRoot w root' w.nextCell).trans (.clearCells _ wps)
  cases root' with
  | none =>
    obtain rfl := Option.some.inj h
    exact hclear
  | some root' => exact hclear.trans ((SameSelection.withRoot _ _ w.nextCell).trans (layoutFixPanes_same h))

theorem layoutSplitPane_same {wp lc : ℕ} {type : LayoutType} {size : ℤ} {before : Bool}
    (h : (layoutSplitPane w wp type size before).value? = some (some (w', lc))) :
    SameSelection w w' := by
  obtain ⟨⟨a, cells⟩, -, h⟩ := Exec.value?_bind.1 h
  obtain ⟨root, -, h⟩ := Exec.value?_bind.1 h
  split_ifs at h
  · cases h
  · cases h
  · obtain ⟨⟨size1, size2⟩, -, h⟩ := Exec.value?_bind.1 h
    obtain ⟨parent, -, h⟩ := Exec.value?_bind.1 h
    -- In both cases the pane split is only told its cell again.
    cases parent with
    | some lcparent =>
      obtain ⟨rfl, -⟩ := Prod.ext_iff.1 (Option.some.inj (Option.some.inj h))
      exact (SameSelection.withRoot w _ _).trans (.updatePane _ _ fun _ => rfl)
    | none =>
      obtain ⟨rfl, -⟩ := Prod.ext_iff.1 (Option.some.inj (Option.some.inj h))
      exact (SameSelection.withRoot w _ _).trans (.updatePane _ _ fun _ => rfl)

theorem resizeWindow_same {sx sy : ℕ} (h : (resizeWindow w sx sy).value? = some w') :
    SameSelection w w' := by
  obtain ⟨w₁, hresize, h⟩ := Exec.value?_bind.1 h
  obtain rfl := Option.some.inj h
  obtain ⟨lc, -, hresize⟩ := Exec.value?_bind.1 hresize
  obtain ⟨lc₁, -, hresize⟩ := Exec.value?_bind.1 hresize
  obtain ⟨lc₂, -, hresize⟩ := Exec.value?_bind.1 hresize
  have hsame := (SameSelection.withRoot w _ w.nextCell).trans (layoutFixPanes_same hresize)
  exact ⟨hsame.id, hsame.panes, hsame.active, hsame.last⟩

theorem setCellPane_same {lc wp : ℕ} (h : (setCellPane w lc wp).value? = some w') :
    SameSelection w w' := by
  obtain ⟨root, -, h⟩ := Exec.value?_bind.1 h
  obtain ⟨cell, -, h⟩ := Exec.value?_bind.1 h
  obtain rfl := Option.some.inj h
  exact SameSelection.withRoot w _ w.nextCell

end Layout

/-! ## Windows -/

/-- The active pane of a window is one of its panes, or the stray pane `a`, and the last one
    another of them or the stray pane `l`. -/
structure SelectedBut (a l : Option ℕ) (w : Window) : Prop where
  active : ∃ wp, w.active = some wp ∧ (wp ∈ w.paneIds ∨ a = some wp)
  last : ∀ wp, w.last = some wp → (wp ∈ w.paneIds ∨ l = some wp) ∧ w.active ≠ some wp

/-- The active pane of a window is one of its panes, and the last one another of them, if
    there is one. -/
def Selected (w : Window) : Prop :=
  (∃ wp ∈ w.paneIds, w.active = some wp) ∧
    ∀ wp, w.last = some wp → wp ∈ w.paneIds ∧ w.active ≠ some wp

instance (w : Window) : Decidable (Selected w) :=
  decidable_of_iff ((∃ wp ∈ w.paneIds, w.active = some wp) ∧
    ∀ wp ∈ w.last, wp ∈ w.paneIds ∧ w.active ≠ some wp) Iff.rfl

theorem selectedBut_none {w : Window} : SelectedBut none none w ↔ Selected w := by
  constructor
  · rintro ⟨⟨wp, hwp, hmem⟩, hlast⟩
    exact ⟨⟨wp, by simpa using hmem, hwp⟩, fun wp h => by simpa using hlast wp h⟩
  · rintro ⟨⟨wp, hmem, hwp⟩, hlast⟩
    exact ⟨⟨wp, hwp, .inl hmem⟩, fun wp h => ⟨.inl (hlast wp h).1, (hlast wp h).2⟩⟩

theorem SelectedBut.mono {a l a' l' : Option ℕ} {w w' : Window} (h : SelectedBut a l w)
    (hactive : w'.active = w.active) (hlast : w'.last = w.last)
    (ha : ∀ wp, wp ∈ w.paneIds ∨ a = some wp → wp ∈ w'.paneIds ∨ a' = some wp)
    (hl : ∀ wp, wp ∈ w.paneIds ∨ l = some wp → wp ∈ w'.paneIds ∨ l' = some wp) :
    SelectedBut a' l' w' := by
  obtain ⟨⟨wp, hwp, hmem⟩, hold⟩ := h
  refine ⟨⟨wp, hactive.trans hwp, ha wp hmem⟩, fun wp h => ?_⟩
  rw [hactive]
  exact ⟨hl wp (hold wp (hlast ▸ h)).1, (hold wp (hlast ▸ h)).2⟩

theorem SameSelection.selectedBut {a l : Option ℕ} {w w' : Window} (hs : SameSelection w w')
    (h : SelectedBut a l w) : SelectedBut a l w' :=
  h.mono hs.active hs.last (fun _ hwp => hs.panes ▸ hwp) fun _ hwp => hs.panes ▸ hwp

theorem SameSelection.selected {w w' : Window} (hs : SameSelection w w') (h : Selected w) :
    Selected w' := selectedBut_none.1 (hs.selectedBut (selectedBut_none.2 h))

theorem mem_paneIds_of_findPane {w : Window} {wp : ℕ} {p : WindowPane} (h : w.findPane wp = some p) :
    p.id = wp ∧ p ∈ w.panes := by
  refine ⟨?_, List.mem_of_find?_eq_some h⟩
  simpa [isPane] using List.find?_some h

/-- The walk to a visible pane ends at a pane of the window, or where it is told to stop. -/
theorem visibleFrom_value {w : Window} {wp n a b : ℕ}
    (h : (visibleFrom w wp n a).value? = some b) : b = wp ∨ b ∈ w.paneIds := by
  induction n generalizing a with
  | zero => simp [visibleFrom] at h
  | succ n ih =>
    rw [visibleFrom] at h
    obtain ⟨pane, hpane, h⟩ := Exec.value?_bind.1 h
    rw [Exec.value?_follow] at hpane
    split_ifs at h with hv
    · obtain rfl := Option.some.inj h
      obtain ⟨rfl, hp⟩ := mem_paneIds_of_findPane hpane
      exact .inr (List.mem_map_of_mem hp)
    · obtain ⟨prev, -, h⟩ := Exec.value?_bind.1 h
      split_ifs at h
      · exact .inl (Option.some.inj h).symm
      · exact ih h

/-- A walk starts at a pane of the window. -/
theorem mem_of_visibleFrom {w : Window} {wp n a b : ℕ}
    (h : (visibleFrom w wp n a).value? = some b) : a ∈ w.paneIds := by
  cases n with
  | zero => simp [visibleFrom] at h
  | succ n =>
    rw [visibleFrom] at h
    obtain ⟨pane, hpane, -⟩ := Exec.value?_bind.1 h
    rw [Exec.value?_follow] at hpane
    obtain ⟨rfl, hp⟩ := mem_paneIds_of_findPane hpane
    exact List.mem_map_of_mem hp

/-- The walk from a pane to be made active, if it is not, does not end at the active one. -/
def SelectOk (w : Window) (wp : ℕ) : Prop :=
  w.active ≠ some wp →
    ∀ a ∈ (visibleFrom w wp (w.panes.length + 1) wp).value?, w.active ≠ some a

/-- The walk from the active pane ends there or does not end at the last one. -/
def ShowOk (w : Window) : Prop :=
  ∀ wp ∈ w.active, ∀ a ∈ (visibleFrom w wp (w.panes.length + 1) wp).value?,
    a = wp ∨ w.last ≠ some a

instance (w : Window) (wp : ℕ) : Decidable (SelectOk w wp) := by
  unfold SelectOk
  infer_instance

instance (w : Window) : Decidable (ShowOk w) := by
  unfold ShowOk
  infer_instance

/-- Making a pane the active one leaves only the last one stray. -/
theorem windowSetActivePane_selectedBut {w w' : Window} {wp : ℕ} {a l : Option ℕ}
    (h : SelectedBut a l w) (ha : ∀ p, a = some p → p ≠ wp ∧ l = some p) (hok : SelectOk w wp)
    (hset : (windowSetActivePane w wp).value? = some w') :
    w'.id = w.id ∧ SelectedBut none l w' := by
  unfold windowSetActivePane at hset
  obtain ⟨⟨act, hact, hmem⟩, hlast⟩ := h
  by_cases heq : w.active = some wp
  · rw [if_pos heq] at hset
    obtain rfl := Option.some.inj hset
    refine ⟨rfl, ⟨wp, heq, .inl ?_⟩, hlast⟩
    obtain rfl : act = wp := Option.some.inj (hact.symm.trans heq)
    rcases hmem with hmem | hmem
    · exact hmem
    · exact absurd rfl (ha _ hmem).1
  · rw [if_neg heq] at hset
    obtain ⟨b, hwalk, hset⟩ := Exec.value?_bind.1 hset
    obtain rfl := Option.some.inj hset
    have hb : b ∈ w.paneIds := by
      rcases visibleFrom_value hwalk with rfl | hb
      · exact mem_of_visibleFrom hwalk
      · exact hb
    refine ⟨rfl, ⟨b, rfl, .inl hb⟩, fun p hp => ?_⟩
    obtain rfl : act = p := Option.some.inj (hact.symm.trans hp)
    refine ⟨?_, fun e => hok heq b hwalk (hact.trans e.symm)⟩
    rcases hmem with hmem | hmem
    · exact .inl hmem
    · exact .inr (ha _ hmem).2

theorem windowSetActivePane_selected {w w' : Window} {wp : ℕ} (h : Selected w) (hok : SelectOk w wp)
    (hset : (windowSetActivePane w wp).value? = some w') : w'.id = w.id ∧ Selected w' := by
  obtain ⟨hid, hw'⟩ := windowSetActivePane_selectedBut (selectedBut_none.2 h) (by simp) hok hset
  exact ⟨hid, selectedBut_none.1 hw'⟩

/-- Moving on from an active pane that is not visible keeps the selection. -/
theorem showActive_selected {w w' : Window} (h : Selected w) (hok : ShowOk w)
    (hshow : (showActive w).value? = some w') : w'.id = w.id ∧ Selected w' := by
  obtain ⟨wp, hwp, hshow⟩ := Exec.value?_bind.1 hshow
  obtain ⟨a, hwalk, hshow⟩ := Exec.value?_bind.1 hshow
  obtain rfl := Option.some.inj hshow
  rw [Exec.value?_follow] at hwp
  have ha : a ∈ w.paneIds := by
    rcases visibleFrom_value hwalk with rfl | ha
    · exact mem_of_visibleFrom hwalk
    · exact ha
  refine ⟨rfl, ⟨a, ha, rfl⟩, fun l hl => ⟨(h.2 l hl).1, fun e => ?_⟩⟩
  · obtain rfl : a = l := Option.some.inj e
    rcases hok wp hwp a hwalk with rfl | hne
    · exact (h.2 a hl).2 hwp
    · exact hne hl

/-! ### Panes leaving -/

theorem mem_ids_eraseP {wp a : ℕ} {panes : List WindowPane} (h : a ∈ panes.map WindowPane.id)
    (hne : a ≠ wp) : a ∈ (panes.eraseP (isPane wp)).map WindowPane.id := by
  obtain ⟨p, hp, rfl⟩ := List.mem_map.1 h
  exact List.mem_map_of_mem ((List.mem_eraseP_of_neg (by simpa [isPane] using hne)).2 hp)

/-- A pane that is not the only one has a neighbour, which is left when it is gone. -/
theorem exists_neighbour {wp : ℕ} {panes : List WindowPane} (h : wp ∈ panes.map WindowPane.id)
    (hlen : panes.length ≠ 1) :
    ∃ q, (Queue.prev? (isPane wp) panes).or (Queue.next? (isPane wp) panes) = some q ∧
      q ∈ panes.eraseP (isPane wp) := by
  obtain ⟨p, hp, rfl⟩ := List.mem_map.1 h
  obtain ⟨l, x, r, rfl, hx, hl⟩ := Queue.exists_split ⟨p, hp, show isPane p.id p = true by simp [isPane]⟩
  rw [Queue.prev?_split hl hx, Queue.next?_split hl hx, Queue.eraseP_split hl hx]
  rcases l.eq_nil_or_concat with rfl | ⟨l, y, rfl⟩
  · cases r with
    | nil => exact absurd rfl hlen
    | cons q r => exact ⟨q, by simp, by simp⟩
  · exact ⟨y, by simp, by simp⟩

theorem windowRemovePane_selected {w : Window} (h : Selected w) {wp : ℕ} (hlen : w.panes.length ≠ 1) :
    Selected (windowRemovePane w wp) := by
  obtain ⟨⟨act, hmem, hact⟩, hlast⟩ := h
  unfold windowRemovePane
  split_ifs with ha hl
  · refine ⟨?_, by simp⟩
    obtain rfl : act = wp := Option.some.inj (hact.symm.trans ha)
    cases hw : w.last with
    | some l =>
      exact ⟨l, mem_ids_eraseP (hlast l hw).1 fun e => (hlast l hw).2 (e ▸ hact), rfl⟩
    | none =>
      obtain ⟨q, hq, hmemq⟩ := exists_neighbour hmem hlen
      exact ⟨q.id, List.mem_map_of_mem hmemq, by rw [hq]; rfl⟩
  · refine ⟨⟨act, mem_ids_eraseP hmem fun e => ha (e ▸ hact), hact⟩, by simp⟩
  · refine ⟨⟨act, mem_ids_eraseP hmem fun e => ha (e ▸ hact), hact⟩, fun l hw => ?_⟩
    exact ⟨mem_ids_eraseP (hlast l hw).1 fun e => hl (e ▸ hw), (hlast l hw).2⟩

theorem SameSelection.length_eq {w w' : Window} (h : SameSelection w w') :
    w'.panes.length = w.panes.length := by
  have hids := congrArg List.length h.panes
  simpa [Window.paneIds] using hids

theorem windowRemovePane_panes (w : Window) (wp : ℕ) :
    (windowRemovePane w wp).id = w.id ∧ (windowRemovePane w wp).panes = w.panes.eraseP (isPane wp) := by
  unfold windowRemovePane
  split_ifs <;> exact ⟨rfl, rfl⟩

theorem closePane_selected {w w' : Window} (h : Selected w) {wp : ℕ} (hlen : w.panes.length ≠ 1)
    (hclose : (closePane w wp).value? = some w') :
    w'.id = w.id ∧ (∀ a ∈ w.paneIds, a ≠ wp → a ∈ w'.paneIds) ∧ Selected w' := by
  obtain ⟨w₁, hlayout, hw'⟩ := Exec.value?_bind.1 hclose
  obtain rfl := Option.some.inj hw'
  have hs := layoutClosePane_same hlayout
  obtain ⟨hid, hpanes⟩ := windowRemovePane_panes w₁ wp
  refine ⟨hid.trans hs.id, fun a ha hne => ?_, windowRemovePane_selected (hs.selected h) ?_⟩
  · rw [Window.paneIds, hpanes]
    exact mem_ids_eraseP (show a ∈ w₁.paneIds from hs.panes ▸ ha) hne
  · rw [hs.length_eq]
    exact hlen

theorem mem_of_closePane {w w' : Window} {wp : ℕ} (h : (closePane w wp).value? = some w') :
    wp ∈ w.paneIds := by
  obtain ⟨w₁, hclose, -⟩ := Exec.value?_bind.1 h
  obtain ⟨lc, hcell, -⟩ := Exec.value?_bind.1 hclose
  obtain ⟨p, hp, -⟩ := Exec.value?_bind.1 hcell
  rw [Exec.value?_follow] at hp
  obtain ⟨rfl, hmem⟩ := mem_paneIds_of_findPane hp
  exact List.mem_map_of_mem hmem

/-- Killing the others keeps the selection: the pane itself stays, so that no pane killed is
    the only one. -/
theorem killOthers_selected {w w' : Window} (h : Selected w) {wp : ℕ} (hwp : wp ∈ w.paneIds)
    (hkill : (killOthers w wp).value? = some w') : w'.id = w.id ∧ Selected w' := by
  have hinv := Exec.foldlM_along_value (C := fun _ _ => True)
    (I := fun v : Window => v.id = w.id ∧ wp ∈ v.paneIds ∧ Selected v) ?_ (.trivial _ _)
    ⟨rfl, hwp, h⟩ hkill
  · exact ⟨hinv.1, hinv.2.2⟩
  · rintro v p - ⟨hid, hmem, hv⟩ v' hv'
    split_ifs at hv' with hp
    · obtain rfl := Option.some.inj hv'
      exact ⟨hid, hmem, hv⟩
    · have hne : wp ≠ p.id := fun e => hp (by simp [isPane, e])
      have hlen : v.panes.length ≠ 1 := fun hlen => by
        obtain ⟨q, hq⟩ := List.length_eq_one_iff.1 hlen
        have hmem' := mem_of_closePane hv'
        rw [Window.paneIds, hq] at hmem hmem'
        simp at hmem hmem'
        exact hne (hmem.trans hmem'.symm)
      obtain ⟨hid', hkeep, hv''⟩ := closePane_selected hv hlen hv'
      exact ⟨hid'.trans hid, hkeep wp hmem hne, hv''⟩

/-- The pane that is active once another one leaves: the one before it, or else after it. -/
def neighbour (w : Window) (wp : ℕ) : Option ℕ :=
  (Queue.prev? (· == wp) w.paneIds).or (Queue.next? (· == wp) w.paneIds)

theorem neighbour_eq (w : Window) (wp : ℕ) : neighbour w wp =
    ((Queue.prev? (isPane wp) w.panes).or (Queue.next? (isPane wp) w.panes)).map WindowPane.id := by
  have h : ∀ p : WindowPane, (p.id == wp) = isPane wp p := fun _ => rfl
  rw [neighbour, Window.paneIds, Queue.prev?_map h, Queue.next?_map h, Option.map_or]

/-- If a pane moving within its window is active, the one active after it is not the last one. -/
def MoveOk (w : Window) (wp : ℕ) : Prop :=
  w.active = some wp → ∀ q ∈ neighbour w wp, w.last ≠ some q

/-- A pane leaving others for another window is not the last one, nor is the one active after it. -/
def LeaveOk (w : Window) (wp : ℕ) : Prop :=
  w.panes.length ≠ 1 → w.last ≠ some wp ∧ MoveOk w wp

instance (w : Window) (wp : ℕ) : Decidable (MoveOk w wp) := by
  unfold MoveOk
  infer_instance

instance (w : Window) (wp : ℕ) : Decidable (LeaveOk w wp) := by
  unfold LeaveOk
  infer_instance

theorem SameSelection.moveOk {w w' : Window} (hs : SameSelection w w') {wp : ℕ} (h : MoveOk w wp) :
    MoveOk w' wp := by
  rw [MoveOk, neighbour, hs.panes, hs.active, hs.last]
  exact h

theorem SameSelection.leaveOk {w w' : Window} (hs : SameSelection w w') {wp : ℕ} (h : LeaveOk w wp) :
    LeaveOk w' wp := by
  rw [LeaveOk, hs.length_eq, hs.last]
  exact fun hlen => ⟨(h hlen).1, hs.moveOk (h hlen).2⟩

/-- A pane taken out of its window is stray at most as the last one. -/
theorem unlinkPane_selectedBut {w : Window} (h : Selected w) {wp : ℕ} (hlen : w.panes.length ≠ 1)
    (hok : MoveOk w wp) : SelectedBut none (some wp) (unlinkPane w wp) := by
  obtain ⟨⟨act, hmem, hact⟩, hlast⟩ := h
  have hstray : ∀ l, w.last = some l → l ∈ (unlinkPane w wp).paneIds ∨ some wp = some l :=
    fun l hl => by
      by_cases e : l = wp
      · exact .inr (by rw [e])
      · exact .inl (mem_ids_eraseP (hlast l hl).1 e)
  by_cases ha : w.active = some wp
  · obtain rfl : act = wp := Option.some.inj (hact.symm.trans ha)
    obtain ⟨q, hq, hmemq⟩ := exists_neighbour hmem hlen
    have hactive : (unlinkPane w act).active = some q.id := by
      rw [unlinkPane]
      dsimp only
      rw [if_pos ha, hq]
      rfl
    refine ⟨⟨q.id, hactive, .inl (List.mem_map_of_mem hmemq)⟩, fun l hl => ⟨hstray l hl, fun e => ?_⟩⟩
    refine hok ha q.id (by rw [neighbour_eq, hq]; rfl) ?_
    exact hl.trans (e.symm.trans hactive)
  · have hactive : (unlinkPane w wp).active = some act := by
      rw [unlinkPane]
      dsimp only
      rw [if_neg ha, hact]
    refine ⟨⟨act, hactive, .inl (mem_ids_eraseP hmem fun e => ha (e ▸ hact))⟩, fun l hl =>
      ⟨hstray l hl, fun e => ?_⟩⟩
    exact (hlast l hl).2 (hact.trans (hactive.symm.trans e))

/-! ## Servers -/

namespace Server

variable {s : Server} {w v : Window} {id : ℕ}

theorem window_value (h : (s.window id).value? = some w) : w ∈ s.windows ∧ w.id = id := by
  rw [window, Exec.value?_follow] at h
  exact ⟨List.mem_of_find?_eq_some h, by simpa [isWindow] using List.find?_some h⟩

theorem mem_setWindow (h : v ∈ (s.setWindow w).windows) : v = w ∨ v ∈ s.windows ∧ v.id ≠ w.id := by
  obtain ⟨u, hu, rfl⟩ := List.mem_map.1 h
  by_cases hw : isWindow w.id u = true
  · exact .inl (if_pos hw)
  · exact .inr ⟨by rwa [if_neg hw], by rw [if_neg hw]; simpa [isWindow] using hw⟩

/-- The window read after one is updated: that one, or another one as it was. -/
theorem window_setWindow (h : ((s.setWindow w).window id).value? = some v) :
    (s.window id).value? = some v ∧ id ≠ w.id ∨ v = w ∧ id = w.id ∧ ∃ u, (s.window id).value? = some u := by
  rw [window, Exec.value?_follow, setWindow, List.find?_map] at h
  have hcomp : (isWindow id ∘ fun v => if isWindow w.id v = true then w else v) = isWindow id := by
    funext u
    dsimp only [Function.comp_apply]
    by_cases hu : isWindow w.id u = true
    · rw [if_pos hu]
      obtain hu : u.id = w.id := by simpa [isWindow] using hu
      simp [isWindow, hu]
    · rw [if_neg hu]
  rw [hcomp] at h
  obtain ⟨u, hu, rfl⟩ := Option.map_eq_some_iff.1 h
  have hid : u.id = id := by simpa [isWindow] using List.find?_some hu
  rw [window, Exec.value?_follow]
  by_cases hw : isWindow w.id u = true
  · rw [if_pos hw]
    exact .inr ⟨rfl, hid ▸ by simpa [isWindow] using hw, u, hu⟩
  · rw [if_neg hw]
    exact .inl ⟨hu, hid ▸ by simpa [isWindow] using hw⟩

theorem window_setWindow_self (h : ((s.setWindow w).window id).value? = some v) (hid : id = w.id) :
    v = w := by
  rcases window_setWindow h with ⟨-, hne⟩ | ⟨rfl, -⟩
  · exact absurd hid hne
  · rfl

/-- Every window of a server is selected, but for stray panes. -/
def SelectedBut (a l : ℕ → Option ℕ) (s : Server) : Prop :=
  ∀ w ∈ s.windows, Tmux.SelectedBut (a w.id) (l w.id) w

/-- Every window of a server is selected. -/
def Selected (s : Server) : Prop := ∀ w ∈ s.windows, Tmux.Selected w

theorem Selected.setWindow (hs : s.Selected) (hw : Tmux.Selected w) : (s.setWindow w).Selected :=
  fun v hv => by
    rcases mem_setWindow hv with rfl | ⟨hv, -⟩
    · exact hw
    · exact hs v hv

theorem Selected.kill (hs : s.Selected) (id : ℕ) : (serverKillWindow s id).Selected :=
  fun v hv => hs v (List.mem_of_mem_filter hv)

end Server

/-- The walks made when the sizes of windows are recalculated keep the selection. -/
def RecalculateOk (s : Server) (sizes : List (ℕ × ℕ × ℕ)) : Prop :=
  ∀ w ∈ s.windows, ∀ size ∈ sizes.lookup w.id, ¬ (w.sx = size.1 ∧ w.sy = size.2) →
    ∀ w' ∈ (resizeWindow w size.1 size.2).value?, ShowOk w'

instance (s : Server) (sizes : List (ℕ × ℕ × ℕ)) : Decidable (RecalculateOk s sizes) := by
  unfold RecalculateOk
  infer_instance

theorem recalculateSize_selected {w w' : Window} {sizes : List (ℕ × ℕ × ℕ)} (hw : Selected w)
    (hok : ∀ size ∈ sizes.lookup w.id, ¬ (w.sx = size.1 ∧ w.sy = size.2) →
      ∀ w' ∈ (resizeWindow w size.1 size.2).value?, ShowOk w')
    (h : (recalculateSize sizes w).value? = some w') : Selected w' := by
  unfold recalculateSize at h
  split at h
  · obtain rfl := Option.some.inj h
    exact hw
  · rename_i sx sy hsize
    split_ifs at h with heq
    · obtain rfl := Option.some.inj h
      exact hw
    · obtain ⟨w₁, hresize, hshow⟩ := Exec.value?_bind.1 h
      exact (showActive_selected ((resizeWindow_same hresize).selected hw)
        (hok (sx, sy) hsize heq w₁ hresize) hshow).2

theorem recalculateSizes_selected {s s' : Server} (hs : s.Selected) {sizes : List (ℕ × ℕ × ℕ)}
    (hok : RecalculateOk s sizes) (h : (recalculateSizes s sizes).value? = some s') : s'.Selected := by
  -- The windows gone through are those there were in the beginning.
  have hloop : ∀ (l : List Window), l ⊆ s.windows → ∀ t t' : Server, t.Selected →
      (l.foldlM (recalculateWindow sizes) t).value? = some t' → t'.Selected := by
    intro l
    induction l with
    | nil =>
      intro _ t t' ht h
      obtain rfl : t = t' := by simpa using h
      exact ht
    | cons w l ih =>
      intro hl t t' ht h
      rw [List.foldlM_cons] at h
      obtain ⟨t₁, h₁, h⟩ := Exec.value?_bind.1 h
      obtain ⟨w', hw', h₁⟩ := Exec.value?_bind.1 h₁
      obtain rfl := Option.some.inj h₁
      have hmem := hl List.mem_cons_self
      exact ih (List.subset_of_cons_subset hl) _ t'
        (ht.setWindow (recalculateSize_selected (hs w hmem) (hok w hmem) hw')) h
  exact hloop s.windows (List.Subset.refl _) s s' hs h

end Tmux
