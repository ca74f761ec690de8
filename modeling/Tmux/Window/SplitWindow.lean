import Tmux.Arguments
import Tmux.Layout.Run
import Tmux.Window.Active

/-!
# Splitting a window

The command splitting a pane of a window (`cmdSplitWindowExec`). It fails if the
size it is given is no number, if the pane is too small, or if the program of
the new pane cannot be run; in the last case the pane is split by then, and only
the new pane is taken out of the window again.

* `openPane_cases`: what becomes of the window;
* `cmdSplitWindowExec_unchanged_iff`: an error leaves the window as it was,
  unless it comes from running the program.
-/

namespace Tmux

open RoseTree

/-- The axis a pane is split along. -/
def splitType (args : Args) : LayoutType := if argsHas args 'h' then .leftright else .topbottom

/-- The size of a new pane asked for, as a size or as a percentage, of at most `maxval`, of
    the pane split, or a negative one if none is. -/
def sizeHint (args : Args) (maxval : ℤ) (wp : WindowPane) : Except String ℤ :=
  if argsHas args 'l' then
    match argsStrtonum args 'l' 0 intMax with
    | .error cause => .error ("size " ++ cause)
    | .ok size => .ok size
  else if argsHas args 'p' then
    match argsStrtonum args 'p' 0 maxval with
    | .error cause => .error ("percentage " ++ cause)
    | .ok percentage =>
      let total := if splitType args = .topbottom then wp.sy else wp.sx
      .ok ((total * percentage.toNat % Exec.word / 100 : ℕ) : ℤ)
  else .ok (-1)

/-- The size asked for when a window is split. -/
def splitHint (args : Args) (wp : WindowPane) : Except String ℤ := sizeHint args intMax wp

/-- The error message of a split. -/
def createPaneFailed (cause : String) : String := "create pane failed: " ++ cause

/-- Split the pane `wp` of a window, running a program in the pane `new`, or failing to for
    the cause `spawn`. Gives the window and the error message, if any. -/
def openPane (w : Window) (wp : ℕ) (args : Args) (new : ℕ) (spawn : Option String) :
    Exec (Window × Option String) := do
  let pane ← Exec.follow (w.findPane wp)
  match splitHint args pane with
  | .error cause => pure (w, some (createPaneFailed cause))
  | .ok size =>
    match ← layoutSplitPane w wp (splitType args) size false with
    | none => pure (w, some (createPaneFailed "pane too small"))
    | some (w, lc) => do
      let w ← windowAddPane w new
      match spawn with
      | some cause => pure (windowRemovePane w new, some (createPaneFailed cause))
      | none => do
        let w ← layoutAssignPane w lc new
        pure (w, none)

/-- Make a new pane the active one, unless asked not to. -/
def selectNew (args : Args) (w : Window) (new : ℕ) : Exec Window :=
  if argsHas args 'd' then pure w else windowSetActivePane w new

/-- Split the pane `wp` of a window, and make the new one active. -/
def cmdSplitWindowExec (w : Window) (wp : ℕ) (args : Args) (new : ℕ) (spawn : Option String) :
    Exec (Window × Option String) := do
  match ← openPane w wp args new spawn with
  | (w, some cause) => pure (w, some cause)
  | (w, none) => do
    let w ← selectNew args w new
    pure (w, none)

/-- Two windows have the same panes, of the same sizes and in the same cells, the same layout,
    and the same active and last pane. -/
structure Unchanged (w w' : Window) : Prop where
  panes : w'.panes = w.panes
  layoutRoot : w'.layoutRoot = w.layoutRoot
  active : w'.active = w.active
  last : w'.last = w.last

theorem Unchanged.refl (w : Window) : Unchanged w w := ⟨rfl, rfl, rfl, rfl⟩

theorem splitType_ne (args : Args) : splitType args ≠ .windowpane := by
  unfold splitType
  split <;> simp

/-- A new pane linked and taken out again is gone without a trace. -/
theorem windowRemovePane_linked {w : Window} {l r : List WindowPane} {act q : WindowPane}
    (hp : w.panes = l ++ act :: q :: r) (hl : ∀ p ∈ l ++ [act], p.id ≠ q.id)
    (hactive : w.active ≠ some q.id) (hlast : w.last ≠ some q.id) :
    windowRemovePane w q.id = { w with panes := l ++ act :: r } := by
  have hl' : ∀ p ∈ l ++ [act], isPane q.id p = false := fun p h => by simpa [isPane] using hl p h
  have herase := Queue.eraseP_split hl' (r := r) (show isPane q.id q = true by simp [isPane])
  rw [windowRemovePane, if_neg hactive, if_neg hlast, hp]
  simpa using herase

/-- A pane of a window can be selected. -/
theorem selectNew_returns {w : Window} (hnd : w.paneIds.Nodup) {wp : ℕ} (hwp : wp ∈ w.paneIds)
    (args : Args) : ∃ w', selectNew args w wp = pure w' := by
  unfold selectNew
  split
  · exact ⟨w, rfl⟩
  · rcases windowSetActivePane_eq hnd hwp with ⟨-, hset⟩ | ⟨-, a, -, -, hset⟩
    · exact ⟨_, hset⟩
    · exact ⟨_, hset⟩

/-- A layout with a cell split is another one. -/
theorem SplitOf.ne {t : LayoutType} {before : Bool} {next : ℕ} {a old new : CellInfo}
    {root : LayoutCell} {c : List (Frame CellInfo)} (hs : SplitOf t before next a old new root c) :
    fill c (.node new []) ≠ root := fun h => by
  obtain ⟨B, A, P, hroot, hnew, -, -⟩ := hs.nodes_eq
  rw [h, hroot] at hnew
  have hlen := congrArg List.length hnew
  cases before <;> simp at hlen <;> omega

/-- A new pane for which there is space is linked into the window. -/
theorem splitPane_linked {w : Window} {root : LayoutCell} (h : HasLayout w root) {t : LayoutType}
    (ht : t ≠ .windowpane) {p act : WindowPane} (hp : p ∈ w.panes) (hact : act ∈ w.panes) {new : ℕ}
    (hnew : new ∉ w.paneIds) (size : ℤ) (before : Bool) {a : CellInfo}
    (hcell : w.cellOf p.id = pure (.node a [])) (hge : 5 ≤ a.size t) :
    ∃ w', splitPane w p.id t size before act.id new = pure w' ∧ w'.paneIds.Nodup ∧
      new ∈ w'.paneIds := by
  obtain ⟨c, a', -, -, -, hcell', hcases⟩ := splitPane_cases h ht hp hact hnew size before
  obtain rfl : a = a' := by simpa [hcell] using hcell'
  rcases hcases with ⟨hlt, -⟩ | ⟨-, old, lcnew, c', panes, l, r, hpure, hw', -, -, -, -, -, hf⟩
  · omega
  · have hids : panes.map WindowPane.id = _ :=
      Exec.map_eq_of_forall₂ hf (f := WindowPane.id) fun p p' hfix => (fixPane_rest hfix).1
    refine ⟨_, hpure, hw'.panes, ?_⟩
    rw [Window.paneIds, hids]
    simp [windowPaneCreate]

/-- What becomes of a window a pane of which is split: nothing if the size given is no
    number or the pane too small; its layout alone if the program cannot be run. -/
theorem openPane_cases {w : Window} {root : LayoutCell} (h : HasLayout w root)
    {p act : WindowPane} (hp : p ∈ w.panes) (hact : act ∈ w.panes) (hactive : w.active = some act.id)
    {new : ℕ} (hlast : w.last ≠ some new) (hnew : new ∉ w.paneIds) (args : Args)
    (spawn : Option String) :
    (∃ cause, splitHint args p = .error cause ∧
        openPane w p.id args new spawn = pure (w, some (createPaneFailed cause))) ∨
      ∃ size a, splitHint args p = .ok size ∧ w.cellOf p.id = pure (.node a []) ∧
        (a.size (splitType args) < 5 ∧ openPane w p.id args new spawn =
            pure (w, some (createPaneFailed "pane too small")) ∨
          5 ≤ a.size (splitType args) ∧
            ((∃ cause root' next, spawn = some cause ∧ root' ≠ root ∧
              openPane w p.id args new spawn =
                pure ({ w with layoutRoot := some root', nextCell := next },
                  some (createPaneFailed cause))) ∨
              spawn = none ∧ ∃ w', openPane w p.id args new spawn = pure (w', none) ∧
                w'.paneIds.Nodup ∧ new ∈ w'.paneIds)) := by
  have hfind : w.findPane p.id = some p := h.findPane hp
  unfold openPane
  rw [hfind, Exec.follow_some, pure_bind]
  cases hsize : splitHint args p with
  | error cause => exact .inl ⟨cause, rfl, rfl⟩
  | ok size =>
    dsimp only
    obtain ⟨-, a, -, -, -, hcell, hcases⟩ := layoutSplitPane_cases h (splitType_ne args) hp size false
    refine .inr ⟨size, a, rfl, hcell, ?_⟩
    rcases hcases with ⟨hlt, hnone⟩ | ⟨hge, old, lcnew, c, next, hsome, hs, -⟩
    · exact .inl ⟨hlt, by rw [hnone, pure_bind]⟩
    · refine .inr ⟨hge, ?_⟩
      rw [hsome, pure_bind]
      dsimp only
      set w₁ : Window := { w with layoutRoot := some (fill c (.node lcnew [])), nextCell := next }
        with hw₁
      cases spawn with
      | some cause =>
        obtain ⟨l, r, hlr⟩ := List.append_of_mem hact
        have hne : ∀ q ∈ w.panes, q.id ≠ new := fun q hq e => hnew (e ▸ List.mem_map_of_mem hq)
        have hnd := h.panes
        rw [Window.paneIds, hlr, List.map_append, List.map_cons, List.nodup_append] at hnd
        have hl : ∀ q ∈ l, q.id ≠ act.id := fun q hq =>
          hnd.2.2 _ (List.mem_map_of_mem hq) _ List.mem_cons_self
        have hadd := windowAddPane_eq (w := w₁) hlr hl hactive new
        have hremove := windowRemovePane_linked
          (w := { w₁ with panes := l ++ act :: windowPaneCreate w₁ new :: r })
          (q := windowPaneCreate w₁ new) rfl
          (fun q hq => hne q (by rw [hlr]; simp at hq ⊢; tauto))
          (fun e => hne act hact (Option.some.inj (hactive.symm.trans e))) hlast
        refine .inl ⟨cause, _, next, rfl, hs.ne, ?_⟩
        rw [hadd, pure_bind]
        refine congrArg pure (Prod.ext ?_ rfl)
        exact hremove.trans (by rw [hw₁, hlr])
      | none =>
        refine .inr ⟨rfl, ?_⟩
        obtain ⟨w₃, hsplit, hnd, hmem⟩ :=
          splitPane_linked h (splitType_ne args) hp hact hnew size false hcell hge
        rw [splitPane, hsome, pure_bind] at hsplit
        dsimp only at hsplit
        rw [← hactive] at hsplit
        obtain ⟨w₂, hadd, hassign⟩ := Exec.bind_eq_pure.1 hsplit
        exact ⟨w₃, by rw [hadd, pure_bind]; dsimp only; rw [hassign, pure_bind], hnd, hmem⟩

/-- An error of the command splitting a pane leaves the window as it was if and only if the
    program of the new pane can be run, or is not run because the size given is no number or
    the pane too small. -/
theorem cmdSplitWindowExec_unchanged_iff {w : Window} {root : LayoutCell} (h : HasLayout w root)
    {wp active : ℕ} (hwp : wp ∈ w.paneIds) (hactive : w.active = some active)
    (hmem : active ∈ w.paneIds) {new : ℕ} (hlast : w.last ≠ some new) (hnew : new ∉ w.paneIds)
    (args : Args) (spawn : Option String) :
    ∃ w' e, cmdSplitWindowExec w wp args new spawn = pure (w', e) ∧
      ((e.isSome → Unchanged w w') ↔
        spawn = none ∨ (∃ p ∈ w.findPane wp, (splitHint args p).isOk = false) ∨
          ∃ lc, w.cellOf wp = pure lc ∧ lc.val.size (splitType args) < 5) := by
  obtain ⟨p, hp, rfl⟩ := List.mem_map.1 hwp
  obtain ⟨act, hact, rfl⟩ := List.mem_map.1 hmem
  have hfind : w.findPane p.id = some p := h.findPane hp
  have herror : ∀ {w' cause}, openPane w p.id args new spawn = pure (w', some cause) →
      cmdSplitWindowExec w p.id args new spawn = pure (w', some cause) := fun hopen => by
    rw [cmdSplitWindowExec, hopen, pure_bind]
  rcases openPane_cases h hp hact hactive hlast hnew args spawn with
    ⟨cause, hsize, hopen⟩ | ⟨size, a, hsize, hcell, ⟨hlt, hopen⟩ |
      ⟨hge, ⟨cause, root', next, rfl, hne, hopen⟩ | ⟨rfl, w₁, hopen, hnd, hmem⟩⟩⟩
  · refine ⟨_, _, herror hopen, iff_of_true (fun _ => .refl w) (.inr (.inl ⟨p, hfind, ?_⟩))⟩
    rw [hsize]
    rfl
  · exact ⟨_, _, herror hopen, iff_of_true (fun _ => .refl w) (.inr (.inr ⟨_, hcell, hlt⟩))⟩
  · refine ⟨_, _, herror hopen, iff_of_false (fun hsame => hne ?_) ?_⟩
    · exact Option.some.inj ((hsame rfl).layoutRoot.trans h.root_eq)
    · rintro (hspawn | ⟨q, hq, hbad⟩ | ⟨lc, hlc, hlt⟩)
      · cases hspawn
      · obtain rfl : p = q := Option.some.inj (hfind.symm.trans hq)
        rw [hsize] at hbad
        cases hbad
      · obtain rfl : RoseTree.node a [] = lc := by simpa [hcell] using hlc
        exact absurd hlt (not_lt.2 hge)
  · obtain ⟨w', hselect⟩ := selectNew_returns hnd hmem args
    refine ⟨w', none, ?_, iff_of_true (fun hsome => by cases hsome) (.inl rfl)⟩
    rw [cmdSplitWindowExec, hopen, pure_bind]
    dsimp only
    rw [hselect, pure_bind]

/-- Nothing is left of a split refused, in a window of a single pane. -/
theorem cmdSplitWindowExec_unchanged_small : ∃ w' e,
    cmdSplitWindowExec (newWindow 0 0 80 4) 0 {} 1 (some "sh: no more processes") = pure (w', e) ∧
      ((e.isSome → Unchanged (newWindow 0 0 80 4) w') ↔
        some "sh: no more processes" = none ∨
          (∃ p ∈ (newWindow 0 0 80 4).findPane 0, (splitHint {} p).isOk = false) ∨
          ∃ lc, (newWindow 0 0 80 4).cellOf 0 = pure lc ∧ lc.val.size (splitType {}) < 5) :=
  cmdSplitWindowExec_unchanged_iff (newWindow_hasLayout 0 0 80 4) (by decide) (by rfl) (by decide)
    (by decide) (by decide) {} _

/-- A layout stays split if the program of the new pane cannot be run. -/
theorem cmdSplitWindowExec_changes : ¬ ∀ (w : Window) (root : LayoutCell) (wp active new : ℕ)
    (args : Args) (spawn : Option String), HasLayout w root → wp ∈ w.paneIds →
    w.active = some active → active ∈ w.paneIds → w.last ≠ some new → new ∉ w.paneIds →
    ∀ r ∈ (cmdSplitWindowExec w wp args new spawn).value?, r.2.isSome → Unchanged w r.1 := by
  intro h
  have hsame := h (newWindow 0 0 80 24) _ 0 0 1 {} (some "sh: no more processes")
    (newWindow_hasLayout 0 0 80 24) (by decide) rfl (by decide) (by decide) (by decide)
  have hnodes : ∀ r ∈ (cmdSplitWindowExec (newWindow 0 0 80 24) 0 {} 1
      (some "sh: no more processes")).value?, r.2.isSome → r.1.layoutRoot.map RoseTree.nodes =
        (newWindow 0 0 80 24).layoutRoot.map RoseTree.nodes :=
    fun r hr hsome => by rw [(hsame r hr hsome).layoutRoot]
  revert hnodes
  decide +kernel

end Tmux
