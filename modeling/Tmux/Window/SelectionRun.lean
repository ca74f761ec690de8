import Tmux.Window.Selection

/-!
# Runs of the commands on panes

Any sequence of commands on the panes of a server (`PaneCommand`) is run on windows
just created. As long as every command meets its condition in the state before it
(`PaneCommand.Ok`), the active and the last pane of every window are valid after
each of them (`paneRun_selected`).
-/

namespace Tmux

/-! ## Splitting -/

theorem windowAddPane_value {w w' : Window} {new : ℕ} (hne : w.panes ≠ [])
    (h : (windowAddPane w new).value? = some w') : w'.id = w.id ∧ w'.active = w.active ∧
      w'.last = w.last ∧ w.paneIds ⊆ w'.paneIds ∧ w'.panes.length = w.panes.length + 1 := by
  unfold windowAddPane at h
  rw [if_neg (by simpa using hne)] at h
  obtain ⟨active, -, h⟩ := Exec.value?_bind.1 h
  obtain ⟨p, hp, h⟩ := Exec.value?_bind.1 h
  obtain rfl := Option.some.inj h
  rw [Exec.value?_follow] at hp
  obtain ⟨rfl, hmem⟩ := mem_paneIds_of_findPane hp
  exact ⟨rfl, rfl, rfl, List.map_subset _ (Queue.subset_insertAfter _ _),
    Queue.length_insertAfter hmem (by simp [isPane])⟩

theorem Selected.panes_ne {w : Window} (h : Selected w) : w.panes ≠ [] := fun e => by
  obtain ⟨a, ha, -⟩ := h.1
  simp [Window.paneIds, e] at ha

/-- More panes leave a window selected. -/
theorem Selected.mono {w w' : Window} (h : Selected w) (hactive : w'.active = w.active)
    (hlast : w'.last = w.last) (hids : w.paneIds ⊆ w'.paneIds) : Selected w' :=
  selectedBut_none.1 ((selectedBut_none.2 h).mono hactive hlast
    (fun _ => Or.imp_left fun hwp => hids hwp) fun _ => Or.imp_left fun hwp => hids hwp)

theorem openPane_selected {w w' : Window} (h : Selected w) {wp new : ℕ} {args : Args}
    {spawn e : Option String} (hopen : (openPane w wp args new spawn).value? = some (w', e)) :
    w'.id = w.id ∧ Selected w' := by
  obtain ⟨pane, -, hopen⟩ := Exec.value?_bind.1 hopen
  split at hopen
  · obtain ⟨rfl, -⟩ := Prod.ext_iff.1 (Option.some.inj hopen)
    exact ⟨rfl, h⟩
  · obtain ⟨split, hsplit, hopen⟩ := Exec.value?_bind.1 hopen
    rcases split with _ | ⟨w₁, lc⟩
    · obtain ⟨rfl, -⟩ := Prod.ext_iff.1 (Option.some.inj hopen)
      exact ⟨rfl, h⟩
    · obtain ⟨w₂, hadd, hopen⟩ := Exec.value?_bind.1 hopen
      have hs := layoutSplitPane_same hsplit
      have h₁ := hs.selected h
      obtain ⟨hid, hactive, hlast, hids, hlen⟩ := windowAddPane_value h₁.panes_ne hadd
      have h₂ : Selected w₂ := h₁.mono hactive hlast hids
      rcases spawn with _ | cause
      · obtain ⟨w₃, hassign, hopen⟩ := Exec.value?_bind.1 hopen
        obtain ⟨rfl, -⟩ := Prod.ext_iff.1 (Option.some.inj hopen)
        have hs' := layoutAssignPane_same hassign
        exact ⟨hs'.id.trans (hid.trans hs.id), hs'.selected h₂⟩
      · obtain ⟨rfl, -⟩ := Prod.ext_iff.1 (Option.some.inj hopen)
        have hpos := List.length_pos_iff.2 h₁.panes_ne
        exact ⟨(windowRemovePane_panes w₂ new).1.trans (hid.trans hs.id),
          windowRemovePane_selected h₂ (by omega)⟩

/-! ## Moving -/

/-- The pane moved leaves its window selected. -/
def LeaveOrMoveOk (s : Server) (dst src : ℕ × ℕ) : Prop :=
  ∀ w ∈ (s.window src.1).value?, if src.1 = dst.1 then MoveOk w src.2 else LeaveOk w src.2

instance (s : Server) (dst src : ℕ × ℕ) : Decidable (LeaveOrMoveOk s dst src) := by
  unfold LeaveOrMoveOk
  infer_instance

/-- A pane is taken out of its window, the others staying where they are. -/
theorem takePane_value {s s' : Server} {id wp : ℕ} {pane : WindowPane}
    (h : (takePane s id wp).value? = some (s', pane)) :
    pane.id = wp ∧ ∃ w w', (s.window id).value? = some w ∧ SameSelection w w' ∧
      ∀ v ∈ s'.windows, v ∈ s.windows ∧ v.id ≠ id ∨
        v = unlinkPane w' wp ∧ w'.panes.length ≠ 1 := by
  obtain ⟨w, hw, h⟩ := Exec.value?_bind.1 h
  obtain ⟨w', hclose, h⟩ := Exec.value?_bind.1 h
  obtain ⟨p, hp, h⟩ := Exec.value?_bind.1 h
  obtain ⟨rfl, rfl⟩ := Prod.ext_iff.1 (Option.some.inj h)
  rw [Exec.value?_follow] at hp
  have hs := layoutClosePane_same hclose
  have hid : (unlinkPane w' wp).id = id := hs.id.trans (Server.window_value hw).2
  refine ⟨(mem_paneIds_of_findPane hp).1, w, w', hw, hs, fun v hv => ?_⟩
  dsimp only at hv
  by_cases hempty : (unlinkPane w' wp).panes.isEmpty = true
  · rw [if_pos hempty] at hv
    obtain ⟨hv, hne⟩ := List.mem_filter.1 hv
    have hne : v.id ≠ id := by simpa [isWindow] using hne
    rcases Server.mem_setWindow hv with rfl | ⟨hv, -⟩
    · exact absurd hid hne
    · exact .inl ⟨hv, hne⟩
  · rw [if_neg hempty] at hv
    rcases Server.mem_setWindow hv with rfl | ⟨hv, hne⟩
    · refine .inr ⟨rfl, fun hlen => hempty ?_⟩
      obtain ⟨q, hq⟩ := List.length_eq_one_iff.1 hlen
      have hpq : isPane wp q = true := by
        have hmem := (mem_paneIds_of_findPane hp)
        rw [hq, List.mem_singleton] at hmem
        simpa [isPane, hmem.2] using hmem.1
      simp [unlinkPane, hq, List.eraseP_cons_of_pos hpq]
    · exact .inl ⟨hv, fun e => hne (e.trans hid.symm)⟩

/-- A pane put into a window after one of its panes is one of them, and the others stay. -/
theorem putPane_value {s s' : Server} {id after lc : ℕ} {wp : WindowPane}
    (h : (putPane s id after wp lc).value? = some s') :
    ∃ w w', (s.window id).value? = some w ∧ w'.id = id ∧ w'.active = w.active ∧ w'.last = w.last ∧
      w.paneIds ⊆ w'.paneIds ∧ (after ∈ w.paneIds → wp.id ∈ w'.paneIds) ∧ s' = s.setWindow w' := by
  obtain ⟨w, hw, h⟩ := Exec.value?_bind.1 h
  obtain ⟨w', hassign, h⟩ := Exec.value?_bind.1 h
  obtain rfl := Option.some.inj h
  have hs := layoutAssignPane_same hassign
  refine ⟨w, w', hw, hs.id.trans (Server.window_value hw).2, hs.active, hs.last, ?_, ?_, rfl⟩
  · rw [hs.panes]
    exact List.map_subset _ (Queue.subset_insertAfter _ _)
  · intro hafter
    obtain ⟨q, hq, rfl⟩ := List.mem_map.1 hafter
    rw [hs.panes]
    exact List.mem_map.2 ⟨_, Queue.mem_insertAfter hq (by simp [isPane]), rfl⟩

theorem movePane_selected {s s' : Server} (hs : s.Selected) {same : Bool} {dst src : ℕ × ℕ}
    {args : Args} {e : Option String} (hok : e = none → LeaveOrMoveOk s dst src)
    (h : (movePane s same dst src args).value? = some (s', e)) : s'.Selected := by
  obtain ⟨dstw, hdstw, h⟩ := Exec.value?_bind.1 h
  obtain ⟨dstwp, hdstwp, h⟩ := Exec.value?_bind.1 h
  rw [Exec.value?_follow] at hdstwp
  obtain ⟨hdst, hmem⟩ := mem_paneIds_of_findPane hdstwp
  split_ifs at h with hwin hsame
  · obtain ⟨rfl, -⟩ := Prod.ext_iff.1 (Option.some.inj h)
    exact hs
  · obtain ⟨rfl, -⟩ := Prod.ext_iff.1 (Option.some.inj h)
    exact hs
  · split at h
    · obtain ⟨rfl, -⟩ := Prod.ext_iff.1 (Option.some.inj h)
      exact hs
    · obtain ⟨split, hsplit, h⟩ := Exec.value?_bind.1 h
      rcases split with _ | ⟨dstw', lc⟩
      · obtain ⟨rfl, -⟩ := Prod.ext_iff.1 (Option.some.inj h)
        exact hs
      · obtain ⟨⟨s₂, wp⟩, htake, h⟩ := Exec.value?_bind.1 h
        obtain ⟨s₃, hput, h⟩ := Exec.value?_bind.1 h
        obtain ⟨rfl, rfl⟩ := Prod.ext_iff.1 (Option.some.inj h)
        have hsame₁ := layoutSplitPane_same hsplit
        obtain ⟨hdmem, hdid⟩ := Server.window_value hdstw
        have hs₁ : (s.setWindow dstw').Selected := hs.setWindow (hsame₁.selected (hs dstw hdmem))
        obtain ⟨hwp, w, w', hw, hsw, hv⟩ := takePane_value htake
        obtain ⟨u, u', hu, hid, hactive, hlast, hids, hafter, rfl⟩ := putPane_value hput
        -- The window of the pane is one of the server before, up to its layout.
        have hw₁ : Selected w' := hsw.selected (hs₁ w (Server.window_value hw).1)
        have hbefore : ∃ w₀, (s.window src.1).value? = some w₀ ∧ SameSelection w₀ w' := by
          rcases Server.window_setWindow hw with ⟨hw₀, -⟩ | ⟨rfl, hsrc, -⟩
          · exact ⟨w, hw₀, hsw⟩
          · rw [hsame₁.id, hdid] at hsrc
            exact ⟨dstw, hsrc ▸ hdstw, hsame₁.trans hsw⟩
        obtain ⟨w₀, hw₀, hsw₀⟩ := hbefore
        have hok₀ := hok rfl w₀ hw₀
        have hw'id : w'.id = src.1 := hsw₀.id.trans (Server.window_value hw₀).2
        have huid := (Server.window_value hu).2
        -- The window the pane is put into keeps its panes, and has that one.
        intro v hvmem
        rcases Server.mem_setWindow hvmem with rfl | ⟨hvmem, hvid⟩
        · rcases hv u (Server.window_value hu).1 with ⟨hold, -⟩ | ⟨rfl, hlen⟩
          · exact (hs₁ u hold).mono hactive hlast hids
          · have heq : src.1 = dst.1 := hw'id.symm.trans huid
            rw [if_pos heq] at hok₀
            obtain rfl : w₀ = dstw := Option.some.inj (hw₀.symm.trans (heq ▸ hdstw))
            have hne : dst.2 ≠ src.2 := fun e => by
              cases same with
              | true => exact hwin ⟨rfl, heq⟩
              | false => exact hsame ⟨by simp, e.symm⟩
            have hdst' : dst.2 ∈ w'.paneIds := hsw₀.panes ▸ hdst ▸ List.mem_map_of_mem hmem
            have hsrc' := hafter (mem_ids_eraseP hdst' hne)
            have hbut := unlinkPane_selectedBut hw₁ hlen (hsw₀.moveOk hok₀)
            refine selectedBut_none.1 (hbut.mono hactive hlast (fun _ => Or.imp_left fun hp => hids hp) ?_)
            rintro p (hp | hp)
            · exact .inl (hids hp)
            · obtain rfl := Option.some.inj hp
              exact .inl (hwp ▸ hsrc')
        · rcases hv v hvmem with ⟨hold, -⟩ | ⟨rfl, hlen⟩
          · exact hs₁ v hold
          · have hne : src.1 ≠ dst.1 := fun e => hvid (hid ▸ hw'id.trans e)
            rw [if_neg hne] at hok₀
            obtain ⟨hlast', hmove⟩ := hsw₀.leaveOk hok₀ hlen
            have hbut := unlinkPane_selectedBut hw₁ hlen hmove
            refine selectedBut_none.1 ⟨hbut.active, fun l hl => ⟨?_, (hbut.last l hl).2⟩⟩
            rcases (hbut.last l hl).1 with hl' | hl'
            · exact .inl hl'
            · exact absurd (hl.trans hl'.symm) hlast'

/-! ## Selecting -/

/-- A pane made the active one of a window, where the stray pane `a id`, if any, is another one. -/
theorem selectPane_selectedBut {s s' : Server} {a l : ℕ → Option ℕ} (hs : s.SelectedBut a l)
    {id wp : ℕ} (ha : ∀ p, a id = some p → p ≠ wp ∧ l id = some p)
    (hok : ∀ w ∈ (s.window id).value?, SelectOk w wp)
    (h : (selectPane s id wp).value? = some s') :
    s'.SelectedBut (Function.update a id none) l := by
  obtain ⟨w, hw, h⟩ := Exec.value?_bind.1 h
  obtain ⟨w', hset, h⟩ := Exec.value?_bind.1 h
  obtain rfl := Option.some.inj h
  obtain ⟨hmem, rfl⟩ := Server.window_value hw
  obtain ⟨hid, hw'⟩ := windowSetActivePane_selectedBut (hs w hmem) ha (hok w hw) hset
  intro v hv
  rcases Server.mem_setWindow hv with rfl | ⟨hv, hne⟩
  · rw [hid, Function.update_self]
    exact hw'
  · rw [Function.update_of_ne (hid ▸ hne)]
    exact hs v hv

theorem Server.selectedBut_none {s : Server} :
    s.SelectedBut (fun _ => none) (fun _ => none) ↔ s.Selected :=
  forall₂_congr fun _ _ => Tmux.selectedBut_none

theorem selectPane_selected {s s' : Server} (hs : s.Selected) {id wp : ℕ}
    (hok : ∀ w ∈ (s.window id).value?, SelectOk w wp)
    (h : (selectPane s id wp).value? = some s') : s'.Selected := by
  have hsel := selectPane_selectedBut (Server.selectedBut_none.2 hs) (by simp) hok h
  rw [Function.update_eq_self_iff.2 rfl] at hsel
  exact Server.selectedBut_none.1 hsel

/-- The walk of a selection, if it is made. -/
def SelectWhereOk (s : Server) (selection : ℕ × Option ℕ × ℕ) : Prop :=
  ∀ w ∈ (s.window selection.1).value?,
    (selection.2.1.isNone ∨ w.active = selection.2.1) → SelectOk w selection.2.2

instance (s : Server) (selection : ℕ × Option ℕ × ℕ) : Decidable (SelectWhereOk s selection) := by
  unfold SelectWhereOk
  infer_instance

/-- A selection made where the stray pane is the active one, if it is not made anyway. -/
theorem selectWhere_selectedBut {s s' : Server} {a l : ℕ → Option ℕ} (hs : s.SelectedBut a l)
    {id wp : ℕ} {only : Option ℕ} (ha : ∀ p, a id = some p → p ≠ wp ∧ l id = some p)
    (honly : only = none ∨ a id = none ∨ only = a id) (hok : SelectWhereOk s (id, only, wp))
    (h : (selectWhere s (id, only, wp)).value? = some s') :
    s'.SelectedBut (Function.update a id none) l := by
  obtain ⟨w, hw, h⟩ := Exec.value?_bind.1 h
  split_ifs at h with hsel
  · refine selectPane_selectedBut hs ha (fun v hv => ?_) h
    obtain rfl : w = v := Option.some.inj (hw.symm.trans hv)
    exact hok w hw hsel
  · obtain rfl := Option.some.inj h
    intro v hv
    by_cases hid : v.id = id
    · obtain ⟨hmem, hwid⟩ := Server.window_value hw
      obtain rfl : w = v := List.inj_on_of_nodup_map s.nodup hmem hv (hwid.trans hid.symm)
      obtain ⟨⟨p, hp, hmemp⟩, hlast⟩ := hs w hv
      subst hid
      rw [Function.update_self]
      -- The active pane is not the stray one, or it would be left.
      refine ⟨⟨p, hp, .inl (hmemp.resolve_right fun hstray => hsel ?_)⟩, hlast⟩
      rcases honly with rfl | hnone | rfl
      · exact .inl rfl
      · rw [hnone] at hstray
        cases hstray
      · exact .inr (hp.trans hstray.symm)
    · rw [Function.update_of_ne hid]
      exact hs v hv

/-! ## Swapping -/

section Swap

variable {s s' : Server} {a l : ℕ → Option ℕ} {w w' : Window} {id : ℕ}

theorem Server.SelectedBut.setWindow
    (hs : ∀ v ∈ s.windows, v.id ≠ w.id → Tmux.SelectedBut (a v.id) (l v.id) v)
    (hw : Tmux.SelectedBut (a w.id) (l w.id) w) : (s.setWindow w).SelectedBut a l := fun v hv => by
  rcases Server.mem_setWindow hv with rfl | ⟨hv, hne⟩
  · exact hw
  · exact hs v hv hne

theorem Server.SelectedBut.setSame (hs : s.SelectedBut a l) (hw : (s.window id).value? = some w)
    (hsame : SameSelection w w') : (s.setWindow w').SelectedBut a l := by
  refine .setWindow (fun v hv _ => hs v hv) ?_
  rw [hsame.id]
  exact hsame.selectedBut (hs w (Server.window_value hw).1)

/-- The list of panes of a window is changed, a stray pane leaving it at most. -/
theorem Server.SelectedBut.setPanes (hs : s.SelectedBut a l) (hw : (s.window id).value? = some w)
    {q : List WindowPane} (hids : ∀ p ∈ w.paneIds, p ∈ q.map WindowPane.id ∨
      a id = some p ∧ l id = some p) : (s.setWindow { w with panes := q }).SelectedBut a l := by
  obtain ⟨hmem, rfl⟩ := Server.window_value hw
  refine .setWindow (fun v hv _ => hs v hv) ((hs w hmem).mono rfl rfl ?_ ?_)
  · exact fun p hp => hp.elim (fun hp => (hids p hp).imp_right And.left) .inr
  · exact fun p hp => hp.elim (fun hp => (hids p hp).imp_right And.right) .inr

end Swap

/-- The stray panes `p` of the window `x` and `q` of the window `y`. -/
def strayAt (x y : ℕ) (p q : Option ℕ) (id : ℕ) : Option ℕ :=
  if id = x then p else if id = y then q else none

theorem strayAt_left (x y : ℕ) (p q : Option ℕ) : strayAt x y p q x = p := if_pos rfl

theorem strayAt_right {x y : ℕ} (h : x ≠ y) (p q : Option ℕ) : strayAt x y p q y = q := by
  rw [strayAt, if_neg h.symm, if_pos rfl]

theorem update_strayAt_left (x y : ℕ) (p q : Option ℕ) :
    Function.update (strayAt x y p q) x none = strayAt x y none q := by
  funext id
  by_cases h : id = x <;> simp [Function.update, strayAt, h]

theorem update_strayAt_right {x y : ℕ} (h : x ≠ y) (p q : Option ℕ) :
    Function.update (strayAt x y p q) y none = strayAt x y p none := by
  funext id
  by_cases hx : id = x
  · subst hx
    rw [Function.update_of_ne h, strayAt_left, strayAt_left]
  · by_cases hy : id = y <;> simp [Function.update, strayAt, hx, hy, h.symm]

theorem strayAt_none (x y : ℕ) : strayAt x y none none = fun _ => none := by
  funext id
  simp [strayAt]

theorem Server.Selected.stray {s : Server} (hs : s.Selected) (a l : ℕ → Option ℕ) :
    s.SelectedBut a l := fun w hw =>
  (Tmux.selectedBut_none.2 (hs w hw)).mono rfl rfl (fun _ => Or.imp_right (by simp))
    fun _ => Or.imp_right (by simp)

theorem subset_insertPane (tmp : Option ℕ) (wp : WindowPane) (panes : List WindowPane) :
    panes ⊆ insertPane tmp wp panes := by
  cases tmp with
  | none => exact List.subset_cons_self _ _
  | some tmp => exact Queue.subset_insertAfter _ _

/-- Two panes swapped between two windows are stray in the windows they left at most. -/
theorem swapPanes_selectedBut {s s' : Server} (hs : s.Selected) {dst src : ℕ × ℕ}
    (hne : src.1 ≠ dst.1) (h : (swapPanes s dst src).value? = some s') :
    s'.SelectedBut (strayAt src.1 dst.1 (some src.2) (some dst.2))
      (strayAt src.1 dst.1 (some src.2) (some dst.2)) := by
  obtain ⟨dstw, hdstw, h⟩ := Exec.value?_bind.1 h
  obtain ⟨dstwp, hdstwp, h⟩ := Exec.value?_bind.1 h
  obtain ⟨srcw, hsrcw, h⟩ := Exec.value?_bind.1 h
  obtain ⟨srcwp, hsrcwp, h⟩ := Exec.value?_bind.1 h
  obtain ⟨srcw₁, hsrcw₁, h⟩ := Exec.value?_bind.1 h
  obtain ⟨dstw₂, hdstw₂, h⟩ := Exec.value?_bind.1 h
  obtain ⟨srcw₃, hsrcw₃, h⟩ := Exec.value?_bind.1 h
  obtain ⟨srclc, -, h⟩ := Exec.value?_bind.1 h
  obtain ⟨srcw₄, hset₁, h⟩ := Exec.value?_bind.1 h
  obtain ⟨dstw₅, hdstw₅, h⟩ := Exec.value?_bind.1 h
  obtain ⟨dstlc, -, h⟩ := Exec.value?_bind.1 h
  obtain ⟨dstw₆, hset₂, h⟩ := Exec.value?_bind.1 h
  obtain rfl := Option.some.inj h
  set stray := strayAt src.1 dst.1 (some src.2) (some dst.2) with hstray
  have hsrc : stray src.1 = some src.2 := strayAt_left _ _ _ _
  have hdst : stray dst.1 = some dst.2 := strayAt_right hne _ _
  have h₀ := hs.stray stray stray
  have h₁ := h₀.setPanes hdstw (q := dstw.panes.eraseP (isPane dst.2)) fun p hp => by
    by_cases e : p = dst.2
    · exact .inr ⟨by rw [hdst, e], by rw [hdst, e]⟩
    · exact .inl (mem_ids_eraseP hp e)
  have h₂ := h₁.setPanes hsrcw₁
    (q := Queue.replace (isPane src.2) { takePlace dstwp srcwp with window := src.1 } srcw₁.panes)
    fun p hp => by
      by_cases e : p = src.2
      · exact .inr ⟨by rw [hsrc, e], by rw [hsrc, e]⟩
      · obtain ⟨q, hq, rfl⟩ := List.mem_map.1 hp
        exact .inl (List.mem_map_of_mem (Queue.mem_replace_of_neg hq (by simpa [isPane] using e)))
  refine ((h₂.setPanes hdstw₂ fun p hp => .inl (List.map_subset _ ?_ hp)).setSame hsrcw₃
    (setCellPane_same hset₁)).setSame hdstw₅ (setCellPane_same hset₂)
  exact subset_insertPane _ _ _

/-- A list in which two panes are swapped has the same panes. -/
theorem mem_swapped {panes : List WindowPane} {dst src dst' src' : WindowPane} {d t p : ℕ}
    (hdst : dst ∈ panes) (hd : dst.id = d) (hsrc : src ∈ panes) (ht : src.id = t) (hne : t ≠ d)
    (hd' : dst'.id = d) (ht' : src'.id = t) (hp : p ∈ panes.map WindowPane.id) :
    p ∈ (insertPane (if (Queue.prev? (isPane d) panes).map WindowPane.id = some t then some d
      else (Queue.prev? (isPane d) panes).map WindowPane.id) src'
      (Queue.replace (isPane t) dst' (panes.eraseP (isPane d)))).map WindowPane.id := by
  have hmemd : dst' ∈ Queue.replace (isPane t) dst' (panes.eraseP (isPane d)) := by
    have herase := (List.mem_eraseP_of_neg (p := isPane d) (by simp [isPane, ht, hne])).2 hsrc
    exact Queue.mem_replace herase (by simp [isPane, ht])
  have hstay : ∀ q ∈ panes, q.id ≠ d → q.id ≠ t →
      q ∈ Queue.replace (isPane t) dst' (panes.eraseP (isPane d)) := fun q hq hqd hqt =>
    Queue.mem_replace_of_neg ((List.mem_eraseP_of_neg (by simpa [isPane] using hqd)).2 hq)
      (by simpa [isPane] using hqt)
  by_cases hpt : p = t
  · -- The pane put back is put after a pane that is there.
    refine List.mem_map.2 ⟨src', ?_, ht'.trans hpt.symm⟩
    cases hprev : Queue.prev? (isPane d) panes with
    | none => exact List.mem_cons_self
    | some q =>
      have hqd : q.id ≠ d := by
        obtain ⟨l, x, r, rfl, hx, hl⟩ := Queue.exists_split ⟨dst, hdst, show isPane d dst = true by
          simp [isPane, hd]⟩
        rw [Queue.prev?_split hl hx] at hprev
        simpa [isPane] using hl q (List.mem_of_getLast? hprev)
      rw [Option.map_some]
      split_ifs with hqt
      · exact Queue.mem_insertAfter hmemd (by simp [isPane, hd'])
      · exact Queue.mem_insertAfter (hstay q (Queue.mem_of_prev? hprev) hqd fun e => hqt (by rw [e]))
          (by simp [isPane])
  · refine List.map_subset _ (subset_insertPane _ _ _) ?_
    by_cases hpd : p = d
    · exact List.mem_map.2 ⟨dst', hmemd, hd'.trans hpd.symm⟩
    · obtain ⟨q, hq, rfl⟩ := List.mem_map.1 hp
      exact List.mem_map_of_mem (hstay q hq hpd hpt)

/-- Two panes swapped in a window leave it selected. -/
theorem swapPanes_selected {s s' : Server} (hs : s.Selected) {dst src : ℕ × ℕ}
    (heq : src.1 = dst.1) (hne : src.2 ≠ dst.2) (h : (swapPanes s dst src).value? = some s') :
    s'.Selected := by
  obtain ⟨dstw, hdstw, h⟩ := Exec.value?_bind.1 h
  obtain ⟨dstwp, hdstwp, h⟩ := Exec.value?_bind.1 h
  obtain ⟨srcw, hsrcw, h⟩ := Exec.value?_bind.1 h
  obtain ⟨srcwp, hsrcwp, h⟩ := Exec.value?_bind.1 h
  obtain ⟨srcw₁, hsrcw₁, h⟩ := Exec.value?_bind.1 h
  obtain ⟨dstw₂, hdstw₂, h⟩ := Exec.value?_bind.1 h
  obtain ⟨srcw₃, hsrcw₃, h⟩ := Exec.value?_bind.1 h
  obtain ⟨srclc, -, h⟩ := Exec.value?_bind.1 h
  obtain ⟨srcw₄, hset₁, h⟩ := Exec.value?_bind.1 h
  obtain ⟨dstw₅, hdstw₅, h⟩ := Exec.value?_bind.1 h
  obtain ⟨dstlc, -, h⟩ := Exec.value?_bind.1 h
  obtain ⟨dstw₆, hset₂, h⟩ := Exec.value?_bind.1 h
  obtain rfl := Option.some.inj h
  rw [heq, hdstw] at hsrcw
  obtain rfl : dstw = srcw := Option.some.inj hsrcw
  obtain ⟨hmem, hid⟩ := Server.window_value hdstw
  obtain rfl := Server.window_setWindow_self hsrcw₁ (heq.trans hid.symm)
  obtain rfl := Server.window_setWindow_self hdstw₂ hid.symm
  rw [Exec.value?_follow] at hdstwp hsrcwp
  obtain ⟨hdid, hdmem⟩ := mem_paneIds_of_findPane hdstwp
  obtain ⟨hsid, hsmem⟩ := mem_paneIds_of_findPane hsrcwp
  rw [← Server.selectedBut_none]
  refine Server.SelectedBut.setSame (.setSame (.setWindow (fun v hv hvid => ?_) ?_) hsrcw₃
    (setCellPane_same hset₁)) hdstw₅ (setCellPane_same hset₂)
  · -- The other windows are as they were.
    rcases Server.mem_setWindow hv with rfl | ⟨hv, -⟩
    · exact absurd rfl hvid
    · rcases Server.mem_setWindow hv with rfl | ⟨hv, -⟩
      · exact absurd rfl hvid
      · exact Tmux.selectedBut_none.2 (hs v hv)
  · exact Tmux.selectedBut_none.2 ((hs dstw hmem).mono rfl rfl fun p hp =>
      mem_swapped hdmem hdid hsmem hsid hne hdid hsid hp)

/-- A last pane that is stray is forgotten. -/
theorem forgetLast_selectedBut {s s' : Server} {a l : ℕ → Option ℕ} (hs : s.SelectedBut a l)
    {id wp : ℕ} (hl : ∀ p, l id = some p → p = wp) (h : (forgetLast s id wp).value? = some s') :
    s'.SelectedBut a (Function.update l id none) := by
  obtain ⟨w, hw, h⟩ := Exec.value?_bind.1 h
  obtain rfl := Option.some.inj h
  obtain ⟨hmem, rfl⟩ := Server.window_value hw
  have hwant : ∀ v ∈ s.windows, v.id ≠ w.id →
      SelectedBut (a v.id) (Function.update l w.id none v.id) v := fun v hv hne => by
    rw [Function.update_of_ne hne]
    exact hs v hv
  obtain ⟨hactive, hlast⟩ := hs w hmem
  split_ifs with hforget
  · refine .setWindow hwant ⟨hactive, by simp⟩
  · intro v hv
    by_cases hid : v.id = w.id
    · obtain rfl : v = w := List.inj_on_of_nodup_map s.nodup hv hmem hid
      refine ⟨hactive, fun p hp => ⟨.inl ((hlast p hp).1.resolve_right fun hstray => ?_), (hlast p hp).2⟩⟩
      exact hforget (hl p hstray ▸ hp)
    · exact hwant v hv hid

/-- The walks of the selections made after a swap. -/
def SwapOk (s : Server) (dst : ℕ × ℕ) (src : Option (ℕ × ℕ)) (args : Args) : Prop :=
  ∀ src' ∈ (swapSource s dst src args).value?, ∀ src ∈ src', src.2 ≠ dst.2 →
    ∀ s₁ ∈ (swapPanes s dst src).value?, ∀ selections ∈ (swapSelections s₁ dst src args).value?,
      Exec.Along selectWhere SelectWhereOk s₁ selections

instance (s : Server) (dst : ℕ × ℕ) (src : Option (ℕ × ℕ)) (args : Args) :
    Decidable (SwapOk s dst src args) := by
  unfold SwapOk
  infer_instance

theorem swapSelections_cross {s : Server} {dst src : ℕ × ℕ} {args : Args} (hne : src.1 ≠ dst.1)
    {selections : List (ℕ × Option ℕ × ℕ)}
    (h : (swapSelections s dst src args).value? = some selections) :
    ∃ only only', selections = [(src.1, only, dst.2), (dst.1, only', src.2)] ∧
      (only = none ∨ only = some src.2) ∧ (only' = none ∨ only' = some dst.2) := by
  obtain ⟨w, -, h⟩ := Exec.value?_bind.1 h
  obtain ⟨wp, -, h⟩ := Exec.value?_bind.1 h
  split_ifs at h
  · obtain rfl := Option.some.inj h
    exact ⟨some src.2, some dst.2, rfl, .inr rfl, .inr rfl⟩
  · obtain rfl := Option.some.inj h
    exact ⟨none, none, rfl, .inl rfl, .inl rfl⟩

theorem selectWhere_selected {s s' : Server} (hs : s.Selected) {selection : ℕ × Option ℕ × ℕ}
    (hok : SelectWhereOk s selection) (h : (selectWhere s selection).value? = some s') :
    s'.Selected := by
  obtain ⟨id, only, wp⟩ := selection
  have hsel := selectWhere_selectedBut (Server.selectedBut_none.2 hs) (by simp) (.inr (.inl rfl)) hok h
  rw [Function.update_eq_self_iff.2 rfl] at hsel
  exact Server.selectedBut_none.1 hsel

theorem cmdSwapPaneExec_selected {s s' : Server} (hs : s.Selected) {dst : ℕ × ℕ}
    {src : Option (ℕ × ℕ)} {args : Args} (hok : SwapOk s dst src args)
    (h : (cmdSwapPaneExec s dst src args).value? = some s') : s'.Selected := by
  obtain ⟨src', hsrc, h⟩ := Exec.value?_bind.1 h
  rcases src' with _ | src'
  · obtain rfl := Option.some.inj h
    exact hs
  · have hok' := hok _ hsrc src' rfl
    dsimp only at h
    split_ifs at h with heq hwin
    · obtain rfl := Option.some.inj h
      exact hs
    · obtain ⟨s₁, hswap, h⟩ := Exec.value?_bind.1 h
      obtain ⟨selections, hsel, h⟩ := Exec.value?_bind.1 h
      obtain ⟨s₂, hselect, h⟩ := Exec.value?_bind.1 h
      obtain ⟨s₃, hforget, hforget'⟩ := Exec.value?_bind.1 h
      have h₁ := swapPanes_selectedBut hs hwin hswap
      have halong := hok' heq s₁ hswap selections hsel
      obtain ⟨only, only', rfl, honly, honly'⟩ := swapSelections_cross hwin hsel
      simp only [List.foldlM_cons, List.foldlM_nil, bind_pure] at hselect
      obtain ⟨s₄, hsel₁, hsel₂⟩ := Exec.value?_bind.1 hselect
      -- Each selection leaves its window with a valid active pane, and then the last one that
      -- is stray is forgotten.
      have h₂ := selectWhere_selectedBut h₁ (fun p hp => ⟨fun e => heq ?_, hp⟩) ?_ halong.1 hsel₁
      · rw [update_strayAt_left] at h₂
        have h₃ := selectWhere_selectedBut h₂ (fun p hp => ⟨fun e => heq ?_, ?_⟩) ?_
          (halong.2 s₄ hsel₁).1 hsel₂
        · rw [update_strayAt_right hwin, strayAt_none] at h₃
          have h₄ := forgetLast_selectedBut h₃ (fun p hp => ?_) hforget
          · rw [update_strayAt_left] at h₄
            have h₅ := forgetLast_selectedBut h₄ (fun p hp => ?_) hforget'
            · rw [update_strayAt_right hwin, strayAt_none] at h₅
              exact Server.selectedBut_none.1 h₅
            · rw [strayAt_right hwin] at hp
              exact (Option.some.inj hp).symm
          · rw [strayAt_left] at hp
            exact (Option.some.inj hp).symm
        · rw [strayAt_right hwin] at hp
          exact e.symm.trans (Option.some.inj hp).symm
        · rw [strayAt_right hwin] at hp ⊢
          exact hp
        · rw [strayAt_right hwin]
          exact honly'.imp_right .inr
      · rw [strayAt_left] at hp
        exact (Option.some.inj hp).trans e
      · rw [strayAt_left]
        exact honly.imp_right .inr
    · obtain ⟨s₁, hswap, h⟩ := Exec.value?_bind.1 h
      obtain ⟨selections, hsel, h⟩ := Exec.value?_bind.1 h
      obtain ⟨s₂, hselect, h⟩ := Exec.value?_bind.1 h
      obtain rfl := Option.some.inj h
      exact Exec.foldlM_along_value (fun _ _ hsel ht t' => selectWhere_selected ht hsel)
        (hok' heq s₁ hswap selections hsel) (swapPanes_selected hs (not_not.1 hwin) heq hswap) hselect

/-! ## Rotating, breaking and killing -/

theorem shiftPlaces_ids (wp : WindowPane) (panes : List WindowPane) :
    (shiftPlaces wp panes).map WindowPane.id = panes.map WindowPane.id := by
  induction panes using shiftPlaces.induct with
  | case1 => rfl
  | case2 p => rfl
  | case3 p q panes ih =>
    rw [shiftPlaces, List.map_cons, ih]
    rfl

/-- Rotating keeps the panes of a window. -/
theorem rotatePanes_value {w w' : Window} {down : Bool} (h : (rotatePanes w down).value? = some w') :
    w'.id = w.id ∧ w'.active = w.active ∧ w'.last = w.last ∧ w.paneIds ⊆ w'.paneIds := by
  obtain ⟨wp, hwp, h⟩ := Exec.value?_bind.1 h
  rw [Exec.value?_follow] at hwp
  have hloop := Exec.foldlM_along_value (C := fun _ _ => True) (I := SameSelection _) ?_
    (.trivial _ _) (.refl _) h
  · refine ⟨hloop.id, hloop.active, hloop.last, fun p hp => ?_⟩
    rw [hloop.panes, Window.paneIds]
    dsimp only
    cases down with
    | true =>
      rw [if_pos rfl] at hwp
      simp only [if_true]
      rw [shiftPlaces_ids, List.map_cons, List.mem_cons]
      rw [Window.paneIds, ← List.dropLast_append_getLast? _ hwp] at hp
      simpa [or_comm] using hp
    | false =>
      rw [if_neg Bool.false_ne_true] at hwp
      simp only [Bool.false_eq_true, if_false]
      rw [List.map_reverse, shiftPlaces_ids, ← List.map_reverse, List.reverse_reverse]
      rw [Window.paneIds, ← List.cons_head?_tail hwp] at hp
      simpa [or_comm] using hp
  · intro v p _ hv v' hv'
    split at hv'
    · obtain rfl := Option.some.inj hv'
      exact hv
    · exact hv.trans (setCellPane_same hv')

/-- The walk of the selection made after a rotation. -/
def RotateOk (s : Server) (id : ℕ) (args : Args) : Prop :=
  ∀ w ∈ (s.window id).value?, ∀ w' ∈ (rotatePanes w (argsHas args 'D')).value?,
    ∀ wp ∈ (rotateTo w' (argsHas args 'D')).value?, SelectOk w' wp

instance (s : Server) (id : ℕ) (args : Args) : Decidable (RotateOk s id args) := by
  unfold RotateOk
  infer_instance

theorem cmdRotateWindowExec_selected {s s' : Server} (hs : s.Selected) {id : ℕ} {args : Args}
    (hok : RotateOk s id args) (h : (cmdRotateWindowExec s id args).value? = some s') :
    s'.Selected := by
  obtain ⟨w, hw, h⟩ := Exec.value?_bind.1 h
  obtain ⟨w₁, hrotate, h⟩ := Exec.value?_bind.1 h
  obtain ⟨wp, hto, h⟩ := Exec.value?_bind.1 h
  obtain ⟨w₂, hset, h⟩ := Exec.value?_bind.1 h
  obtain rfl := Option.some.inj h
  obtain ⟨-, hactive, hlast, hids⟩ := rotatePanes_value hrotate
  have h₁ := (hs w (Server.window_value hw).1).mono hactive hlast hids
  exact hs.setWindow (windowSetActivePane_selected h₁ (hok w hw w₁ hrotate wp hto) hset).2

theorem cmdBreakPaneExec_selected {s s' : Server} (hs : s.Selected) {id wp sx sy : ℕ}
    {e : Option String} (h : (cmdBreakPaneExec s id wp sx sy).value? = some (s', e)) :
    s'.Selected := by
  obtain ⟨w, hw, h⟩ := Exec.value?_bind.1 h
  split_ifs at h with hlen
  · obtain ⟨rfl, -⟩ := Prod.ext_iff.1 (Option.some.inj h)
    exact hs
  · obtain ⟨w₁, hclose, h⟩ := Exec.value?_bind.1 h
    obtain ⟨pane, hpane, h⟩ := Exec.value?_bind.1 h
    obtain ⟨w₂, hinit, h⟩ := Exec.value?_bind.1 h
    obtain ⟨rfl, -⟩ := Prod.ext_iff.1 (Option.some.inj h)
    rw [Exec.value?_follow] at hpane
    have hsame := layoutClosePane_same hclose
    have h₁ : Selected (windowRemovePane w₁ wp) := by
      refine windowRemovePane_selected (hsame.selected (hs w (Server.window_value hw).1)) ?_
      rw [hsame.length_eq]
      exact hlen
    have h₂ : Selected w₂ := by
      refine (layoutInit_same hinit).selected ⟨⟨wp, ?_, rfl⟩, by simp⟩
      simp [Window.paneIds, (mem_paneIds_of_findPane hpane).1]
    intro v hv
    rcases List.mem_append.1 hv with hv | hv
    · exact hs.setWindow h₁ v hv
    · obtain rfl : v = _ := by simpa using hv
      exact h₂.mono rfl rfl (List.Subset.refl _)

theorem cmdKillPaneExec_selected {s s' : Server} (hs : s.Selected) {id wp : ℕ} {args : Args}
    {sizes : List (ℕ × ℕ × ℕ)} (hwp : ∀ w ∈ (s.window id).value?, wp ∈ w.paneIds)
    (hok : (∀ w ∈ (s.window id).value?, w.panes.length = 1 →
      RecalculateOk (serverKillWindow s id) sizes))
    (h : (cmdKillPaneExec s id wp args sizes).value? = some s') : s'.Selected := by
  obtain ⟨w, hw, h⟩ := Exec.value?_bind.1 h
  have hsel := hs w (Server.window_value hw).1
  split_ifs at h with hlen
  · exact recalculateSizes_selected (hs.kill id) (hok w hw hlen) h
  · obtain ⟨w', hkill, h⟩ := Exec.value?_bind.1 h
    obtain rfl := Option.some.inj h
    exact hs.setWindow (killOthers_selected hsel (hwp w hw) hkill).2
  · obtain ⟨w', hclose, h⟩ := Exec.value?_bind.1 h
    obtain rfl := Option.some.inj h
    exact hs.setWindow (closePane_selected hsel hlen hclose).2.2

/-! ## Runs -/

/-- The commands on panes. -/
inductive PaneCommand
  | splitWindow (id wp : ℕ) (args : Args) (new : ℕ) (spawn : Option String)
  | killPane (id wp : ℕ) (args : Args) (sizes : List (ℕ × ℕ × ℕ))
  /-- `join-pane` or, in the same window too, `move-pane`. -/
  | joinPane (notSameWindow : Bool) (dst src : ℕ × ℕ) (args : Args) (sizes : List (ℕ × ℕ × ℕ))
  | breakPane (id wp sx sy : ℕ)
  | swapPane (dst : ℕ × ℕ) (src : Option (ℕ × ℕ)) (args : Args)
  | rotateWindow (id : ℕ) (args : Args)
  | selectPane (id wp : ℕ)
  | recalculateSizes (sizes : List (ℕ × ℕ × ℕ))
  deriving DecidableEq, Repr

namespace PaneCommand

/-- Whether there is a pane in a window. -/
def hasPane (s : Server) (t : ℕ × ℕ) : Bool :=
  match s.windows.find? (isWindow t.1) with
  | none => false
  | some w => t.2 ∈ w.paneIds

/-- The panes a command is told of are there, and a new one is new. -/
def Enabled (s : Server) : PaneCommand → Bool
  | splitWindow id wp _ new _ => hasPane s (id, wp) && s.windows.all fun w => new ∉ w.paneIds
  | killPane id wp _ _ => hasPane s (id, wp)
  | joinPane _ dst src _ _ => hasPane s dst && hasPane s src
  | breakPane id wp _ _ => hasPane s (id, wp)
  | swapPane dst src _ => hasPane s dst && src.all (hasPane s)
  | rotateWindow id _ => s.windows.any (isWindow id)
  | selectPane id wp => hasPane s (id, wp)
  | recalculateSizes _ => true

/-- Run a command. -/
def exec (s : Server) : PaneCommand → Exec Server
  | splitWindow id wp args new spawn => do
    let w ← s.window id
    let (w, _) ← cmdSplitWindowExec w wp args new spawn
    pure (s.setWindow w)
  | killPane id wp args sizes => cmdKillPaneExec s id wp args sizes
  | joinPane notSameWindow dst src args sizes => do
    let (s, _) ← Tmux.joinPane s notSameWindow dst src args sizes
    pure s
  | breakPane id wp sx sy => do
    let (s, _) ← cmdBreakPaneExec s id wp sx sy
    pure s
  | swapPane dst src args => cmdSwapPaneExec s dst src args
  | rotateWindow id args => cmdRotateWindowExec s id args
  | selectPane id wp => Tmux.selectPane s id wp
  | recalculateSizes sizes => Tmux.recalculateSizes s sizes

/-- The walks to visible panes that a command makes do not end at the pane that was active, or
    at the last one, and a pane joined elsewhere leaves its window selected. -/
def Ok (s : Server) : PaneCommand → Prop
  | splitWindow id wp args new spawn =>
    ∀ w ∈ (s.window id).value?, ∀ r ∈ (openPane w wp args new spawn).value?, r.2 = none →
      ¬ argsHas args 'd' → SelectOk r.1 new
  | killPane id _ _ sizes =>
    ∀ w ∈ (s.window id).value?, w.panes.length = 1 → RecalculateOk (serverKillWindow s id) sizes
  | joinPane notSameWindow dst src args sizes =>
    ∀ r ∈ (movePane s notSameWindow dst src args).value?, r.2 = none →
      LeaveOrMoveOk s dst src ∧ RecalculateOk r.1 sizes ∧
        ∀ s' ∈ (Tmux.recalculateSizes r.1 sizes).value?, ¬ argsHas args 'd' →
          ∀ w ∈ (s'.window dst.1).value?, SelectOk w src.2
  | breakPane _ _ _ _ => True
  | swapPane dst src args => SwapOk s dst src args
  | rotateWindow id args => RotateOk s id args
  | selectPane id wp => ∀ w ∈ (s.window id).value?, SelectOk w wp
  | recalculateSizes sizes => RecalculateOk s sizes

instance (s : Server) (c : PaneCommand) : Decidable (c.Ok s) := by
  cases c <;> unfold Ok <;> infer_instance

end PaneCommand

/-- Run a command, if the panes it is told of are there. -/
def paneStep (s : Server) (c : PaneCommand) : Exec Server := if c.Enabled s then c.exec s else pure s

/-- Create windows of some sizes, each with a pane. -/
def newWindows (sizes : List (ℕ × ℕ)) : Exec Server :=
  sizes.foldlM (fun s size => do
    let w ← windowCreate s.newAddress s.newAddress size.1 size.2
    pure (s.addWindow w)) {}

theorem joinPane_selected {s s' : Server} (hs : s.Selected) {same : Bool} {dst src : ℕ × ℕ}
    {args : Args} {sizes : List (ℕ × ℕ × ℕ)} {e : Option String}
    (hok : (PaneCommand.joinPane same dst src args sizes).Ok s)
    (h : (joinPane s same dst src args sizes).value? = some (s', e)) : s'.Selected := by
  obtain ⟨⟨s₁, e₁⟩, hmove, h⟩ := Exec.value?_bind.1 h
  have h₁ : s₁.Selected := movePane_selected hs (fun he => (hok _ hmove he).1) hmove
  rcases e₁ with _ | cause
  · obtain ⟨-, hrec, hsel⟩ := hok _ hmove rfl
    obtain ⟨s₂, hsizes, h⟩ := Exec.value?_bind.1 h
    have h₂ := recalculateSizes_selected h₁ hrec hsizes
    split_ifs at h with hd
    · obtain ⟨rfl, -⟩ := Prod.ext_iff.1 (Option.some.inj h)
      exact h₂
    · obtain ⟨s₃, hselect, h⟩ := Exec.value?_bind.1 h
      obtain ⟨rfl, -⟩ := Prod.ext_iff.1 (Option.some.inj h)
      exact selectPane_selected h₂ (hsel s₂ hsizes hd) hselect
  · obtain ⟨rfl, -⟩ := Prod.ext_iff.1 (Option.some.inj h)
    exact h₁

theorem cmdSplitWindowExec_selected {w w' : Window} (h : Selected w) {wp new : ℕ} {args : Args}
    {spawn e : Option String} (hok : ∀ r ∈ (openPane w wp args new spawn).value?, r.2 = none →
      ¬ argsHas args 'd' → SelectOk r.1 new)
    (hexec : (cmdSplitWindowExec w wp args new spawn).value? = some (w', e)) : Selected w' := by
  obtain ⟨⟨w₁, e₁⟩, hopen, hexec⟩ := Exec.value?_bind.1 hexec
  have h₁ := (openPane_selected h hopen).2
  rcases e₁ with _ | cause
  · obtain ⟨w₂, hselect, hexec⟩ := Exec.value?_bind.1 hexec
    obtain ⟨rfl, -⟩ := Prod.ext_iff.1 (Option.some.inj hexec)
    unfold selectNew at hselect
    split_ifs at hselect with hd
    · obtain rfl := Option.some.inj hselect
      exact h₁
    · exact (windowSetActivePane_selected h₁ (hok _ hopen rfl hd) hselect).2
  · obtain ⟨rfl, -⟩ := Prod.ext_iff.1 (Option.some.inj hexec)
    exact h₁

theorem PaneCommand.mem_of_hasPane {s : Server} {id wp : ℕ} (h : hasPane s (id, wp) = true) :
    ∀ w ∈ (s.window id).value?, wp ∈ w.paneIds := fun w hw => by
  rw [Server.window, Exec.value?_follow, Option.mem_def] at hw
  rw [hasPane, hw] at h
  simpa using h

/-- A command meeting its condition leaves the windows selected. -/
theorem paneStep_selected {s s' : Server} {c : PaneCommand} (hok : c.Ok s) (hs : s.Selected)
    (h : (paneStep s c).value? = some s') : s'.Selected := by
  unfold paneStep at h
  split_ifs at h with hen
  · cases c with
    | splitWindow id wp args new spawn =>
      obtain ⟨w, hw, h⟩ := Exec.value?_bind.1 h
      obtain ⟨⟨w', e⟩, hsplit, h⟩ := Exec.value?_bind.1 h
      obtain rfl := Option.some.inj h
      exact hs.setWindow (cmdSplitWindowExec_selected (hs w (Server.window_value hw).1) (hok w hw) hsplit)
    | killPane id wp args sizes =>
      exact cmdKillPaneExec_selected hs (PaneCommand.mem_of_hasPane hen) hok h
    | joinPane same dst src args sizes =>
      obtain ⟨⟨s₁, e⟩, hjoin, h⟩ := Exec.value?_bind.1 h
      obtain rfl := Option.some.inj h
      exact joinPane_selected hs hok hjoin
    | breakPane id wp sx sy =>
      obtain ⟨⟨s₁, e⟩, hbreak, h⟩ := Exec.value?_bind.1 h
      obtain rfl := Option.some.inj h
      exact cmdBreakPaneExec_selected hs hbreak
    | swapPane dst src args => exact cmdSwapPaneExec_selected hs hok h
    | rotateWindow id args => exact cmdRotateWindowExec_selected hs hok h
    | selectPane id wp => exact selectPane_selected hs hok h
    | recalculateSizes sizes => exact recalculateSizes_selected hs hok h
  · obtain rfl := Option.some.inj h
    exact hs

theorem newWindows_selected {sizes : List (ℕ × ℕ)} {s : Server}
    (h : (newWindows sizes).value? = some s) : s.Selected := by
  refine Exec.foldlM_along_value (C := fun _ _ => True) (I := Server.Selected) ?_ (.trivial _ _)
    (fun w hw => absurd hw (by simp)) h
  rintro s size - hs s' h'
  obtain ⟨w, hw, h'⟩ := Exec.value?_bind.1 h'
  obtain rfl := Option.some.inj h'
  rw [windowCreate_eq, Exec.value?_pure] at hw
  obtain rfl := Option.some.inj hw
  intro v hv
  rcases List.mem_append.1 hv with hv | hv
  · exact hs v hv
  · obtain rfl : v = _ := by simpa using hv
    exact ⟨⟨_, by simp [Window.paneIds, newWindow], rfl⟩, by simp [newWindow]⟩

/-- Whatever commands on panes are run, each meeting its condition, every window left has an
    active pane among its panes, and no last one or another of them. -/
theorem paneRun_selected (sizes : List (ℕ × ℕ)) (cs : List PaneCommand)
    (h : ∀ s ∈ (newWindows sizes).value?, Exec.Along paneStep (fun s c => c.Ok s) s cs) :
    ∀ s ∈ (newWindows sizes >>= fun s => cs.foldlM paneStep s).value?, ∀ w ∈ s.windows,
      Selected w := by
  intro s hs
  obtain ⟨s₀, hnew, hrun⟩ := Exec.value?_bind.1 hs
  exact Exec.foldlM_along_value (fun _ _ hok hs _ => paneStep_selected hok hs) (h s₀ hnew)
    (newWindows_selected hnew) hrun

/-- A pane is split off in each of two windows, moved to the other window and broken out again. -/
theorem paneRun_selected_run : ∃ s, (newWindows [(80, 24), (40, 12)] >>= fun s =>
    [.splitWindow 1 1 { flags := ['d'] } 10 none, .splitWindow 2 2 { flags := ['h', 'd'] } 20 none,
      .joinPane true (2, 2) (1, 10) {} [(2, 30, 12)], .swapPane (2, 10) (some (1, 1)) {},
      .rotateWindow 2 {}, .breakPane 2 20 80 24, .killPane 2 2 {} []].foldlM paneStep s).value? =
        some s ∧ ∀ w ∈ s.windows, Selected w := by
  obtain ⟨s, hs⟩ := Option.isSome_iff_exists.1 (show (newWindows [(80, 24), (40, 12)] >>= fun s =>
    [.splitWindow 1 1 { flags := ['d'] } 10 none, .splitWindow 2 2 { flags := ['h', 'd'] } 20 none,
      .joinPane true (2, 2) (1, 10) {} [(2, 30, 12)], .swapPane (2, 10) (some (1, 1)) {},
      .rotateWindow 2 {}, .breakPane 2 20 80 24, .killPane 2 2 {} []].foldlM paneStep s).value?.isSome
    from by decide +kernel)
  exact ⟨s, hs, paneRun_selected _ _ (by decide +kernel) s hs⟩

/-- The last pane of a window is joined to another one. -/
theorem paneRun_not_selected : ¬ ∀ (sizes : List (ℕ × ℕ)) (cs : List PaneCommand),
    ∀ s ∈ (newWindows sizes >>= fun s => cs.foldlM paneStep s).value?, ∀ w ∈ s.windows,
      Selected w := by
  intro h
  have := h [(80, 24), (80, 24)] [.splitWindow 1 1 {} 10 none, .joinPane true (2, 2) (1, 1) {} []]
  revert this
  decide +kernel

end Tmux
