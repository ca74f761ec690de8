import Tmux.Layout.Close
import Tmux.Layout.Resize

/-!
# Runs of the layout

A window is created with a single pane (`newWindow_hasLayout`), and any
sequence of operations on its layout (`LayoutOp`) is run on it (`layoutRun`). An
operation that cannot be asked for, such as splitting a pane that is not there or
closing the last one, is left out of the run.

Whatever the run, it returns: nothing missing is followed, no loop goes on
forever. After every operation the layout is consistent, and tiles the window
once its offsets are fixed (`layoutRun_hasLayout`).
-/

namespace Tmux

open RoseTree

/-- The operations on the layout of a window. -/
inductive LayoutOp
  /-- Split a pane, assigning a new one, linked after the active one, to the cell split off. -/
  | split (wp : ℕ) (type : LayoutType) (size : ℤ) (insertBefore : Bool) (active new : ℕ)
  /-- Close a pane. -/
  | close (wp : ℕ)
  /-- Resize a pane. -/
  | resizePane (wp : ℕ) (type : LayoutType) (change : ℤ)
  /-- Resize the layout, and record the size of the window or not. -/
  | resize (sx sy : ℕ) (record : Bool)
  deriving DecidableEq, Repr

/-- An operation can be asked for: it is on panes of the window, a new pane is new, and a
    pane to be closed is not the last. -/
def LayoutOp.Enabled (w : Window) : LayoutOp → Prop
  | split wp type _ _ active new =>
    type ≠ .windowpane ∧ wp ∈ w.paneIds ∧ active ∈ w.paneIds ∧ new ∉ w.paneIds
  | close wp => wp ∈ w.paneIds ∧ w.panes.length ≠ 1
  | resizePane wp type _ => type ≠ .windowpane ∧ wp ∈ w.paneIds
  | resize _ _ _ => True

instance (w : Window) : DecidablePred (LayoutOp.Enabled w) := fun op => by
  cases op <;> unfold LayoutOp.Enabled <;> infer_instance

/-- Do an operation. -/
def LayoutOp.exec (w : Window) : LayoutOp → Exec Window
  | split wp type size insertBefore active new =>
    splitPane w wp type size insertBefore active new
  | close wp => closePane w wp
  | resizePane wp type change => layoutResizePane w wp type change
  | resize sx sy record => do
    let w ← layoutResize w sx sy
    pure (if record then windowResize w sx sy else w)

/-- Do an operation, if it can be asked for. -/
def layoutStep (w : Window) (op : LayoutOp) : Exec Window :=
  if op.Enabled w then op.exec w else pure w

/-- Run a sequence of operations. -/
def layoutRun (w : Window) (ops : List LayoutOp) : Exec Window := ops.foldlM layoutStep w

/-! ## Creation -/

/-- The cell of the only pane of a window just created. -/
def firstCell (wp sx sy : ℕ) : CellInfo :=
  { id := 0, parent := none, sx, sy, xoff := 0, yoff := 0, wp := some wp }

/-- A window just created. -/
def newWindow (id wp sx sy : ℕ) : Window :=
  { id, sx, sy, panes := [{ id := wp, window := id, layoutCell := some 0, sx, sy }],
    active := some wp, layoutRoot := some (.node (firstCell wp sx sy) []), nextCell := 1 }

/-- A window is created with its pane in a single cell. -/
theorem windowCreate_eq (id wp sx sy : ℕ) :
    windowCreate id wp sx sy = pure (newWindow id wp sx sy) := by
  set lc := firstCell wp sx sy with hlc
  set p : WindowPane := { id := wp, window := id, layoutCell := some 0, sx, sy } with hp
  -- The pane fills the window, so that nothing of it is cropped.
  have hcrop : ∀ n k, cropSize 0 n n k = n := fun n k => by unfold cropSize; split_ifs <;> omega
  have hfix : fixPane (.node lc []) sx sy p = pure p := by
    simp [fixPane, hp, hlc, firstCell, findCell, RoseTree.find?, isCell, hcrop]
  have hleaf : layoutMakeLeaf
      { id, sx, sy, panes := [windowPaneCreate { id, sx, sy } wp], nextCell := 1,
        layoutRoot := some (.node (layoutSetSize (layoutCreateCell 0 none) sx sy 0 0) []) } 0 wp =
      pure { id, sx, sy, panes := [p], layoutRoot := some (.node lc []), nextCell := 1 } := by
    simp [layoutMakeLeaf, findCell, RoseTree.find?, isCell, layoutSetSize, layoutCreateCell,
      replaceCell, RoseTree.replace, Window.updatePane, isPane, windowPaneCreate, firstCell, hlc, hp]
  have hadd : windowAddPane { id, sx, sy } wp =
    pure { id, sx, sy, panes := [windowPaneCreate { id, sx, sy } wp] } := rfl
  have hpanes : layoutFixPanes
      { id, sx, sy, panes := [p], layoutRoot := some (.node lc []), nextCell := 1 } sx sy =
      pure { id, sx, sy, panes := [p], layoutRoot := some (.node lc []), nextCell := 1 } := by
    simp [layoutFixPanes, hfix]
  rw [windowCreate, hadd, pure_bind, layoutInit]
  simp only [List.head?_cons, Exec.follow_some, pure_bind]
  exact (congrArg (· >>= _ >>= _) hleaf).trans ((congrArg (· >>= _) hpanes).trans (pure_bind _ _))

/-- A window just created has a layout. -/
theorem newWindow_hasLayout (id wp sx sy : ℕ) :
    HasLayout (newWindow id wp sx sy) (.node (firstCell wp sx sy) []) where
  root_eq := rfl
  cells := cells_leaf rfl
  top := rfl
  ids := by simp [cellIds]
  fresh := by simp [cellIds, firstCell, newWindow]
  panes := by simp [Window.paneIds, newWindow]
  links := by simp [leafLinks, CellInfo.link?, WindowPane.link, firstCell, newWindow]

/-! ## Steps -/

/-- What an operation does to the layout `root` of the window `w`, giving `root'` and `w'`. -/
inductive LayoutChange (w w' : Window) : LayoutOp → LayoutCell → LayoutCell → Prop
  /-- The operation cannot be asked for, is refused, or finds nothing to do. -/
  | none {op : LayoutOp} {root : LayoutCell} (hop : ∀ sx sy record, op ≠ .resize sx sy record)
      (hw : w' = w) : LayoutChange w w' op root root
  | split {wp : ℕ} {t : LayoutType} {size : ℤ} {before : Bool} {active new : ℕ}
      {root : LayoutCell} {a old lcnew : CellInfo} {c : List (Frame CellInfo)}
      (ht : t ≠ .windowpane) (hcell : w.cellOf wp = pure (.node a [])) (ha : a.type = .windowpane)
      (hmem : a ∈ root.nodes) (hge : 5 ≤ a.size t) (hs : SplitOf t before w.nextCell a old lcnew root c)
      (hb : Beside t before a old lcnew)
      (hsize : splitSizes (a.size t) size = pure (if before then (lcnew.size t, old.size t)
        else (old.size t, lcnew.size t))) (hw : w'.sx = w.sx ∧ w'.sy = w.sy) :
      LayoutChange w w' (.split wp t size before active new) root (fill c (.node lcnew []))
  | merge {wp : ℕ} {a : CellInfo} {o o' root root' : LayoutCell} (hm : MergeOf a o o' root root')
      (hw : w'.sx = w.sx ∧ w'.sy = w.sy) :
      LayoutChange w w' (.close wp) root (layoutFixOffsets root')
  | move {wp : ℕ} {t : LayoutType} {change : ℤ} {c : List (Frame CellInfo)} {lc lc' : LayoutCell}
      (ht : t ≠ .windowpane) (hr : Resized t 0 lc lc') (hw : w'.sx = w.sx ∧ w'.sy = w.sy) :
      LayoutChange w w' (.resizePane wp t change) (fill c lc) (layoutFixOffsets (fill c lc'))
  | resize {sx sy : ℕ} {record : Bool} {root lc₁ lc₂ : LayoutCell}
      (h₁ : Resized .leftright (resizeChange root .leftright w.sx sx) root lc₁)
      (h₂ : Resized .topbottom (resizeChange lc₁ .topbottom w.sy sy) lc₁ lc₂)
      (hw : if record then w'.sx = sx ∧ w'.sy = sy else w'.sx = w.sx ∧ w'.sy = w.sy) :
      LayoutChange w w' (.resize sx sy record) root (layoutFixOffsets lc₂)

theorem mem_paneIds {w : Window} {wp : ℕ} (h : wp ∈ w.paneIds) : ∃ p ∈ w.panes, p.id = wp :=
  List.mem_map.1 h

/-- A step returns, and leaves the window with a layout, changed by the operation. -/
theorem layoutStep_cases {w : Window} {root : LayoutCell} (h : HasLayout w root) (op : LayoutOp) :
    ∃ w' root', layoutStep w op = pure w' ∧ HasLayout w' root' ∧
      LayoutChange w w' op root root' := by
  unfold layoutStep
  by_cases hop : op.Enabled w
  · rw [if_pos hop]
    cases op with
    | split wp t size before active new =>
      obtain ⟨ht, hwp, hact, hnew⟩ := hop
      obtain ⟨p, hp, rfl⟩ := mem_paneIds hwp
      obtain ⟨act, hmem, rfl⟩ := mem_paneIds hact
      obtain ⟨c, a, rfl, hw, -, hcell, ⟨-, hnone⟩ | ⟨hge, old, lcnew, c', panes, l, r, hsome, hw', hs, hb,
        -, hsize, -⟩⟩ := splitPane_cases h ht hp hmem hnew size before
      · exact ⟨w, _, hnone, h, .none (by simp) rfl⟩
      · exact ⟨_, _, hsome, hw', .split ht hcell hw (by simp [nodes_fill]) hge hs hb hsize ⟨rfl, rfl⟩⟩
    | close wp =>
      obtain ⟨hwp, hlen⟩ := hop
      obtain ⟨p, hp, rfl⟩ := mem_paneIds hwp
      obtain ⟨w', a, o, o', root', l, r, hclose, hw', hm, -, -, hsx, hsy, -⟩ :=
        closePane_cases h hp hlen
      exact ⟨w', _, hclose, hw', .merge hm ⟨hsx, hsy⟩⟩
    | resizePane wp t change =>
      obtain ⟨ht, hwp⟩ := hop
      obtain ⟨p, hp, rfl⟩ := mem_paneIds hwp
      rcases layoutResizePane_eq h hp ht change with hnone | ⟨c, lc, lc', panes, hsome, rfl, hr, hw', -⟩
      · exact ⟨w, root, hnone, h, .none (by simp) rfl⟩
      · exact ⟨_, _, hsome, hw', .move ht hr ⟨rfl, rfl⟩⟩
    | resize sx sy record =>
      obtain ⟨lc₁, lc₂, panes, hresize, h₁, h₂, hw'⟩ := layoutResize_eq h sx sy
      refine ⟨_, _, by rw [LayoutOp.exec, hresize, pure_bind], ?_, .resize h₁ h₂ ?_⟩
      · cases record
        · exact hw'
        · exact hw'.congr rfl rfl rfl rfl
      · cases record <;> exact ⟨rfl, rfl⟩
  · rw [if_neg hop]
    refine ⟨w, root, rfl, h, .none (fun sx sy record => ?_) rfl⟩
    rintro rfl
    exact hop trivial

end Tmux
