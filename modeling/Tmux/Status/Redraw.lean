import Mathlib.Algebra.GroupWithZero.Nat
import Mathlib.Algebra.BigOperators.Group.List.Basic
import Tmux.Library.Exec
import Tmux.Screen.Bounded

/-!
# The status line

The status line of a client (`statusRedraw`) has a text on the left and one on the right,
and the list of the windows of the session between them. If the list is too wide, a slice
of it is shown, with a marker on each side where something is left out (`cutList`).

A text is what its characters are in columns, one or two each, or none for a character
combined with the one before. Embedded styles have no columns, and neither they nor the
colours are kept. Sums do not wrap.
-/

namespace Tmux

open Exec

/-- A text of the status line, as the widths of its characters. -/
abbrev StatusText := List ℕ

/-- A window in the list of windows. -/
structure StatusWindow where
  idx : ℕ
  /-- The text of the window, after the format for it. -/
  text : StatusText
  /-- The option `window-status-separator` of the window. -/
  separator : StatusText
  /-- Whether the window has an alert. -/
  alert : Bool := false
  /-- The width of the text when the status line was last redrawn. -/
  statusWidth : ℕ := 0
  deriving DecidableEq, Repr

/-- A session, as far as its status line is concerned. -/
structure StatusSession where
  windows : List StatusWindow
  curw : StatusWindow
  mem : curw ∈ windows
  nodup : (windows.map StatusWindow.idx).Nodup

/-- A client, as far as its status line is concerned. -/
structure StatusClient where
  sx : ℕ
  sy : ℕ
  /-- The column of the list of windows shown in the first column of the terminal. -/
  wlmouse : ℤ := 0
  deriving DecidableEq, Repr

/-- The options of the status line. -/
structure StatusOptions where
  status : Bool := true
  left : StatusText := []
  right : StatusText := []
  leftLength : ℕ := 10
  rightLength : ℕ := 40
  justify : ℕ := 0
  deriving DecidableEq, Repr

/-- The number of columns of a text. -/
def screenWriteCstrlen (text : StatusText) : ℕ := text.sum

/-- The number of columns drawn of a text, at most `maxlen`, after `size` of them. A wide
    character that does not fit is replaced by blanks. -/
def cnputsColumns (maxlen : ℕ) : ℕ → StatusText → ℕ
  | size, [] => size
  | size, width :: text =>
    if maxlen < size + width then maxlen else cnputsColumns maxlen (size + width) text

/-- The number of columns for a text on the left or on the right. -/
def statusLength (length : ℕ) (text : StatusText) : ℕ :=
  if screenWriteCstrlen text < length then screenWriteCstrlen text else length

/-- A slice of the list of windows. A marker is zero if it is not shown, and negative if
    there is an alert in what is left out. -/
structure StatusSlice where
  wlstart : ℕ := 0
  wlwidth : ℕ
  wlavailable : ℕ
  larrow : ℤ := 0
  rarrow : ℤ := 0
  deriving DecidableEq, Repr

/-- The slice to show of a list of `wlwidth` columns in `wlavailable` ones, where the text
    of the current window is at `wloffset`, in `wlsize` columns. -/
def cutList (wlwidth wloffset wlsize wlavailable : ℕ) : Exec StatusSlice := do
  -- If there is enough space for the total width, skip to draw now.
  if wlwidth ≤ wlavailable then pure { wlwidth, wlavailable }
  -- If the current window is already on screen, good to draw from the start and just
  -- leave off the end.
  else if wloffset + wlsize < wlavailable then
    if wlavailable > 0 then do
      let wlavailable ← usub wlavailable 1
      pure { wlwidth := wlavailable, wlavailable, rarrow := 1 }
    else pure { wlwidth := wlavailable, wlavailable }
  else do
    -- Work out how many characters we need to omit from the start.
    let larrow := if wlavailable > 0 then 1 else 0
    let wlavailable ← if wlavailable > 0 then usub wlavailable 1 else pure wlavailable
    let wlstart ← usub (wloffset + wlsize) wlavailable
    if wlavailable > 0 ∧ wlwidth > wlstart + wlavailable + 1 then do
      let wlavailable ← usub wlavailable 1
      pure { wlstart := wlstart + 1, wlwidth := wlavailable, wlavailable, larrow, rarrow := 1 }
    else pure { wlstart, wlwidth := wlavailable, wlavailable, larrow }

/-- Work out the state of the left and right arrows, from the column `offset` of the list on. -/
def alertArrows : ℕ → List StatusWindow → StatusSlice → StatusSlice
  | _, [], slice => slice
  | offset, wl :: windows, slice =>
    let slice :=
      if wl.alert ∧ slice.larrow = 1 ∧ offset < slice.wlstart then { slice with larrow := -1 }
      else slice
    let offset := offset + wl.statusWidth
    let slice :=
      if wl.alert ∧ slice.rarrow = 1 ∧ offset > slice.wlstart + slice.wlwidth then
        { slice with rarrow := -1 }
      else slice
    alertArrows offset windows slice

/-- The places of the parts of a status line. -/
structure StatusPlaces where
  /-- The columns of the text on the left, from the first one on. -/
  llen : ℕ
  /-- The column of the marker on the left. -/
  larrow : Option ℕ
  /-- The slice of the list of windows. -/
  slice : StatusSlice
  /-- The column of the slice. -/
  wloffset : ℕ
  /-- The column of the marker on the right. -/
  rarrow : Option ℕ
  /-- The column of the text on the right, and its columns. -/
  right : ℕ
  rlen : ℕ
  deriving DecidableEq, Repr

/-- The offset of the list of windows. -/
def listOffset (opts : StatusOptions) (llen : ℕ) (slice : StatusSlice) : Exec ℕ := do
  let wloffset := if llen ≠ 0 then llen + 1 else 0
  let wloffset ←
    if slice.wlwidth < slice.wlavailable then do
      let rest ← usub slice.wlavailable slice.wlwidth
      pure (if opts.justify = 1 then wloffset + rest / 2
        else if opts.justify = 2 then wloffset + rest
        else wloffset)
    else pure wloffset
  pure (if slice.larrow ≠ 0 then wloffset + 1 else wloffset)

/-- Draw the parts of a status line. -/
def drawStatus (sx : ℕ) (opts : StatusOptions) (llen rlen : ℕ) (slice : StatusSlice) :
    Exec StatusPlaces := do
  -- The left string is followed by a blank, where the arrow may be.
  let cx := if llen ≠ 0 then cnputsColumns llen 0 opts.left + 1 else 0
  let larrow := if slice.larrow ≠ 0 then some cx else none
  let right ← usub sx rlen
  let (rarrow, cx) ←
    if slice.rarrow ≠ 0 then do
      let cx ← usub right 2
      pure (some cx, cx + 1)
    else do
      let cx ← usub right 1
      pure (none, cx)
  let drawn := if rlen ≠ 0 then cnputsColumns rlen 0 opts.right else 0
  let wloffset ← listOffset opts llen slice
  pure { llen, larrow, slice, wloffset, rarrow, right := cx + 1, rlen := drawn }

/-- Add a window to the width of the list of windows, noting the offset of the current one. -/
def addWidth (curw : ℕ) (widths : ℕ × ℕ) (wl : StatusWindow) : ℕ × ℕ :=
  let wloffset := if wl.idx = curw then widths.1 else widths.2
  let seplen := screenWriteCstrlen wl.separator
  (widths.1 + (screenWriteCstrlen wl.text + seplen), wloffset)

/-- The width of the list of windows, and the offset of the text of the current one. -/
def listWidth (s : StatusSession) : ℕ × ℕ := s.windows.foldl (addWidth s.curw.idx) (0, 0)

/-- What is on a status line after redrawing it. -/
inductive StatusLine
  /-- The line is not redrawn. -/
  | same
  | blank
  | drawn (places : StatusPlaces)
  deriving DecidableEq, Repr

/-- Record the widths of the texts of the windows. -/
def recordWidths (windows : List StatusWindow) : List StatusWindow :=
  windows.map fun wl => { wl with statusWidth := screenWriteCstrlen wl.text }

/-- Draw the status line of a client. -/
def statusRedraw (c : StatusClient) (opts : StatusOptions) (s : StatusSession) :
    Exec (StatusClient × List StatusWindow × StatusLine) := do
  -- No status line?
  if c.sy = 0 ∨ ¬ opts.status then pure (c, s.windows, .same)
  -- If the height is one line, blank status line.
  else if c.sy ≤ 1 then pure (c, s.windows, .blank)
  else do
    let llen := statusLength opts.leftLength opts.left
    let rlen := statusLength opts.rightLength opts.right
    -- Figure out how much space we have for the window list.
    let needed := (if llen ≠ 0 then llen + 1 else 0) + (if rlen ≠ 0 then rlen + 1 else 0)
    if c.sx = 0 ∨ c.sx ≤ needed then pure (c, s.windows, .blank)
    else do
      let wlavailable ← usub c.sx needed
      let (wlwidth, wloffset) := listWidth s
      let windows := recordWidths s.windows
      let slice ← cutList wlwidth wloffset (screenWriteCstrlen s.curw.text) wlavailable
      -- Bail if anything is now too small too.
      if wlwidth > wlavailable ∧ (slice.wlwidth = 0 ∨ slice.wlavailable = 0) then
        pure (c, windows, .blank)
      else do
        let slice := if wlwidth > wlavailable then alertArrows 0 windows slice else slice
        let places ← drawStatus c.sx opts llen rlen slice
        pure ({ c with wlmouse := (slice.wlstart : ℤ) - places.wloffset }, windows, .drawn places)

/-! ## Widths -/

theorem cnputsColumns_eq {maxlen size : ℕ} (h : size ≤ maxlen) (text : StatusText) :
    cnputsColumns maxlen size text = min maxlen (size + text.sum) := by
  induction text generalizing size with
  | nil => rw [cnputsColumns, List.sum_nil, Nat.add_zero, min_eq_right h]
  | cons width text ih =>
    rw [cnputsColumns, List.sum_cons]
    split_ifs with hfull
    · rw [min_eq_left (by omega)]
    · rw [ih (by omega), Nat.add_assoc]

theorem statusLength_eq (length : ℕ) (text : StatusText) :
    statusLength length text = min text.sum length := by
  rw [statusLength, screenWriteCstrlen]
  split_ifs with h
  · rw [min_eq_left h.le]
  · rw [min_eq_right (not_lt.1 h)]

/-- A text on the left or on the right takes just the columns there are for it. -/
theorem cnputsColumns_statusLength (length : ℕ) (text : StatusText) :
    cnputsColumns (statusLength length text) 0 text = statusLength length text := by
  rw [cnputsColumns_eq (Nat.zero_le _), statusLength_eq, Nat.zero_add]
  exact min_eq_left (min_le_left _ _)

/-- The columns of a window in the list, with the separator after it. -/
def StatusWindow.columns (wl : StatusWindow) : ℕ := wl.text.sum + wl.separator.sum

/-- The width of the list of windows. -/
def StatusSession.total (s : StatusSession) : ℕ := (s.windows.map StatusWindow.columns).sum

/-- The column of the text of the current window in the list. -/
def StatusSession.offset (s : StatusSession) : ℕ :=
  ((s.windows.takeWhile fun wl => wl.idx != s.curw.idx).map StatusWindow.columns).sum

/-- The number of columns of the text of the current window. -/
def StatusSession.size (s : StatusSession) : ℕ := s.curw.text.sum

/-- The list splits at the current window. -/
theorem StatusSession.exists_split (s : StatusSession) :
    ∃ l r, s.windows = l ++ s.curw :: r ∧ (∀ wl ∈ l, wl.idx ≠ s.curw.idx) ∧
      ∀ wl ∈ r, wl.idx ≠ s.curw.idx := by
  obtain ⟨l, r, h⟩ := List.append_of_mem s.mem
  have hnd := s.nodup
  rw [h, (List.perm_middle.map _).nodup_iff, List.map_cons, List.nodup_cons] at hnd
  exact ⟨l, r, h, fun wl hwl e => hnd.1 (e ▸ List.mem_map_of_mem (List.mem_append_left _ hwl)),
    fun wl hwl e => hnd.1 (e ▸ List.mem_map_of_mem (List.mem_append_right _ hwl))⟩

theorem StatusSession.offset_split (s : StatusSession) {l r : List StatusWindow}
    (h : s.windows = l ++ s.curw :: r) (hl : ∀ wl ∈ l, wl.idx ≠ s.curw.idx) :
    s.offset = (l.map StatusWindow.columns).sum := by
  rw [offset, h, List.takeWhile_append_of_pos (by simpa using hl)]
  simp

theorem foldl_addWidth {curw : ℕ} {l : List StatusWindow} (hl : ∀ wl ∈ l, wl.idx ≠ curw)
    (x : ℕ × ℕ) : l.foldl (addWidth curw) x = (x.1 + (l.map StatusWindow.columns).sum, x.2) := by
  induction l generalizing x with
  | nil => rfl
  | cons wl l ih =>
    rw [List.foldl_cons, ih (fun v hv => hl v (List.mem_cons_of_mem _ hv)), addWidth,
      if_neg (hl wl List.mem_cons_self), List.map_cons, List.sum_cons]
    exact Prod.ext (Nat.add_assoc ..) rfl

theorem listWidth_eq (s : StatusSession) : listWidth s = (s.total, s.offset) := by
  obtain ⟨l, r, h, hl, hr⟩ := s.exists_split
  rw [listWidth, s.offset_split h hl, StatusSession.total, h, List.foldl_append, foldl_addWidth hl,
    List.foldl_cons, foldl_addWidth hr, addWidth, if_pos rfl]
  simp [StatusWindow.columns, screenWriteCstrlen, Nat.add_assoc]

/-- The text of the current window is in the list. -/
theorem StatusSession.offset_add_size_le (s : StatusSession) : s.offset + s.size ≤ s.total := by
  obtain ⟨l, r, h, hl, -⟩ := s.exists_split
  rw [s.offset_split h hl, total, h, List.map_append, List.map_cons, List.sum_append, List.sum_cons,
    size, StatusWindow.columns]
  omega

/-! ## The slice -/

/-- Whether a list of `total` columns is cut off on the right, `available` columns being there
    for it and its markers. -/
def cutsEnd (available total offset size : ℕ) : Prop :=
  available < total ∧
    (offset + size < available ∧ 2 ≤ available ∨
      available ≤ offset + size ∧ 3 ≤ available ∧ offset + size + 1 < total)

instance (available total offset size : ℕ) : Decidable (cutsEnd available total offset size) := by
  unfold cutsEnd
  infer_instance

/-- A slice of a list of `total` columns for `available` columns. -/
structure SliceOf (available total offset size : ℕ) (slice : StatusSlice) : Prop where
  inside : slice.wlstart + slice.wlwidth ≤ total
  width : slice.wlwidth ≤ slice.wlavailable
  full : available < total → slice.wlwidth = slice.wlavailable
  /-- A column is left for each of the markers. -/
  room : slice.wlavailable + (if slice.larrow ≠ 0 then 1 else 0) +
    (if slice.rarrow ≠ 0 then 1 else 0) = available
  start : slice.larrow = 0 → slice.wlstart = 0
  /-- The text of the current window is shown, as far as there is space for it. -/
  current : size ≤ slice.wlavailable →
    slice.wlstart ≤ offset ∧ offset + size ≤ slice.wlstart + slice.wlwidth
  arrow : 0 < slice.wlavailable → (slice.rarrow ≠ 0 ↔ cutsEnd available total offset size)
  fits : total ≤ available → slice.wlwidth = total ∧ slice.larrow = 0 ∧ slice.rarrow = 0
  bail : slice.wlavailable = 0 → ¬ cutsEnd available total offset size

/-- Cutting the list of windows returns, no subtraction having wrapped. -/
theorem cutList_eq {available total offset size : ℕ} (ha : 0 < available)
    (h : offset + size ≤ total) : ∃ slice, cutList total offset size available = pure slice ∧
      SliceOf available total offset size slice := by
  unfold cutList
  have hone : ∀ {n}, 0 < n → usub n 1 = pure (n - 1) := fun hn => usub_of_le hn
  by_cases hfit : total ≤ available
  · have hcut : ¬ cutsEnd available total offset size := fun hcut => absurd hfit (not_le.2 hcut.1)
    exact ⟨_, if_pos hfit, by simp, hfit, by omega, by simp, by simp,
      fun _ => ⟨Nat.zero_le _, by simpa using h⟩, fun _ => iff_of_false (by simp) hcut, by simp,
      fun _ => hcut⟩
  · rw [if_neg hfit]
    by_cases hshown : offset + size < available
    · rw [if_pos hshown, if_pos ha, hone ha, pure_bind]
      refine ⟨_, rfl, ?_, le_rfl, fun _ => rfl, ?_, by simp, ?_, ?_, by omega, ?_⟩
      all_goals simp [cutsEnd]
      all_goals omega
    · rw [if_neg hshown, if_pos ha, if_pos ha, hone ha, pure_bind]
      dsimp only
      rw [usub_of_le (by omega), pure_bind]
      by_cases hcut : 0 < available - 1 ∧ total > offset + size - (available - 1) + (available - 1) + 1
      · rw [if_pos hcut, hone (by omega), pure_bind]
        refine ⟨_, rfl, ?_, le_rfl, fun _ => rfl, ?_, by simp, ?_, ?_, by omega, ?_⟩
        all_goals simp [cutsEnd]
        all_goals omega
      · rw [if_neg hcut]
        refine ⟨_, rfl, ?_, le_rfl, fun _ => rfl, ?_, by simp, ?_, ?_, by omega, ?_⟩
        all_goals simp [cutsEnd]
        all_goals omega

/-- An alert changes how a marker is shown, and not whether it is. -/
theorem alertArrows_sliceOf {available total offset size : ℕ} (windows : List StatusWindow) (n : ℕ)
    {slice : StatusSlice} (h : SliceOf available total offset size slice) :
    SliceOf available total offset size (alertArrows n windows slice) := by
  induction windows generalizing n slice with
  | nil => exact h
  | cons wl windows ih =>
    rw [alertArrows]
    refine ih _ ?_
    have hleft : SliceOf available total offset size
        (if wl.alert ∧ slice.larrow = 1 ∧ n < slice.wlstart then { slice with larrow := -1 }
        else slice) := by
      split_ifs with hl
      · obtain ⟨h₁, h₂, h₃, h₄, h₅, h₆, h₇, h₈, h₉⟩ := h
        refine ⟨h₁, h₂, h₃, ?_, by simp, h₆, h₇, fun hfit => ?_, h₉⟩
        · simpa [hl.2.1] using h₄
        · have := (h₈ hfit).2.1
          omega
      · exact h
    generalize (if wl.alert ∧ slice.larrow = 1 ∧ n < slice.wlstart then { slice with larrow := -1 }
      else slice) = slice' at hleft ⊢
    split_ifs with hr
    · obtain ⟨h₁, h₂, h₃, h₄, h₅, h₆, h₇, h₈, h₉⟩ := hleft
      refine ⟨h₁, h₂, h₃, ?_, h₅, h₆, fun hpos => ?_, fun hfit => ?_, h₉⟩
      · simpa [hr.2.1] using h₄
      · simpa [hr.2.1] using h₇ hpos
      · have := (h₈ hfit).2.2
        omega
    · exact hleft

theorem alertArrows_wlavailable (windows : List StatusWindow) (n : ℕ) (slice : StatusSlice) :
    (alertArrows n windows slice).wlavailable = slice.wlavailable := by
  induction windows generalizing n slice with
  | nil => rfl
  | cons wl windows ih =>
    rw [alertArrows, ih]
    split_ifs <;> rfl

/-! ## Places -/

/-- The columns of the parts of a status line. -/
def StatusPlaces.columns (p : StatusPlaces) : List (List ℕ) :=
  [List.range' 0 p.llen, p.larrow.toList, List.range' p.wloffset p.slice.wlwidth, p.rarrow.toList,
    List.range' p.right p.rlen]

/-- The parts of a status line are in different columns of the `sx` ones there are, the slice
    is one of the list of windows, and it has all of the text of the current window if there
    is space for that. -/
structure Arranged (sx : ℕ) (s : StatusSession) (p : StatusPlaces) : Prop where
  disjoint : p.columns.Pairwise List.Disjoint
  inside : ∀ part ∈ p.columns, ∀ x ∈ part, x < sx
  slice : p.slice.wlstart + p.slice.wlwidth ≤ s.total
  current : s.size ≤ p.slice.wlavailable →
    p.slice.wlstart ≤ s.offset ∧ s.offset + s.size ≤ p.slice.wlstart + p.slice.wlwidth

/-- The columns that the texts on both sides need, each with a blank. -/
def neededColumns (opts : StatusOptions) : ℕ :=
  (if statusLength opts.leftLength opts.left ≠ 0 then statusLength opts.leftLength opts.left + 1 else 0) +
    (if statusLength opts.rightLength opts.right ≠ 0 then statusLength opts.rightLength opts.right + 1
      else 0)

/-- Where the parts of a status line are drawn, `llen` and `rlen` being the columns of the texts
    on both sides. -/
structure SlicePlaced (sx llen rlen : ℕ) (slice : StatusSlice) (p : StatusPlaces) : Prop where
  llen_eq : p.llen = llen
  slice_eq : p.slice = slice
  rlen_eq : p.rlen = rlen
  right_eq : p.right = sx - rlen
  larrow_eq : p.larrow = if slice.larrow ≠ 0 then some (if llen ≠ 0 then llen + 1 else 0) else none
  rarrow_eq : p.rarrow = if slice.rarrow ≠ 0 then some (sx - rlen - 2) else none
  wloffset_ge : (if llen ≠ 0 then llen + 1 else 0) + (if slice.larrow ≠ 0 then 1 else 0) ≤ p.wloffset
  wloffset_le : p.wloffset + slice.wlwidth ≤
    (if llen ≠ 0 then llen + 1 else 0) + (if slice.larrow ≠ 0 then 1 else 0) + slice.wlavailable

/-- The list of windows is put where there is space for it. -/
theorem listOffset_eq (opts : StatusOptions) (llen : ℕ) {slice : StatusSlice}
    (h : slice.wlwidth ≤ slice.wlavailable) : ∃ wloffset, listOffset opts llen slice = pure wloffset ∧
      (if llen ≠ 0 then llen + 1 else 0) + (if slice.larrow ≠ 0 then 1 else 0) ≤ wloffset ∧
      wloffset + slice.wlwidth ≤
        (if llen ≠ 0 then llen + 1 else 0) + (if slice.larrow ≠ 0 then 1 else 0) + slice.wlavailable := by
  unfold listOffset
  dsimp only
  generalize (if llen ≠ 0 then llen + 1 else 0) = left
  by_cases hless : slice.wlwidth < slice.wlavailable
  · rw [if_pos hless, usub_of_le hless.le, pure_bind, pure_bind]
    refine ⟨_, rfl, ?_, ?_⟩
    all_goals split_ifs <;> omega
  · rw [if_neg hless, pure_bind]
    refine ⟨_, rfl, ?_, ?_⟩
    all_goals split_ifs <;> omega

theorem drawStatus_eq {sx : ℕ} (opts : StatusOptions) {slice : StatusSlice}
    (h : slice.wlwidth ≤ slice.wlavailable) (hpos : 0 < slice.wlavailable)
    (hsx : slice.wlavailable + (if slice.larrow ≠ 0 then 1 else 0) +
      (if slice.rarrow ≠ 0 then 1 else 0) + neededColumns opts = sx) :
    ∃ p, drawStatus sx opts (statusLength opts.leftLength opts.left)
        (statusLength opts.rightLength opts.right) slice = pure p ∧
      SlicePlaced sx (statusLength opts.leftLength opts.left) (statusLength opts.rightLength opts.right)
        slice p := by
  have hl := cnputsColumns_statusLength opts.leftLength opts.left
  have hr := cnputsColumns_statusLength opts.rightLength opts.right
  unfold neededColumns at hsx
  generalize statusLength opts.leftLength opts.left = llen at *
  generalize statusLength opts.rightLength opts.right = rlen at *
  obtain ⟨wloffset, hoff, hge, hle⟩ := listOffset_eq opts llen h
  have hrlen : (if rlen ≠ 0 then cnputsColumns rlen 0 opts.right else 0) = rlen := by
    split_ifs with h0
    · exact hr
    · omega
  unfold drawStatus
  dsimp only
  rw [hrlen, hl]
  by_cases hra : slice.rarrow ≠ 0
  · rw [if_pos hra] at hsx
    have h₁ : rlen ≤ sx := by split_ifs at hsx <;> omega
    have h₂ : 2 ≤ sx - rlen := by split_ifs at hsx <;> omega
    rw [usub_of_le h₁, pure_bind, if_pos hra, usub_of_le h₂, pure_bind, pure_bind, hoff, pure_bind]
    refine ⟨_, rfl, rfl, rfl, rfl, ?_, rfl, (if_pos hra).symm, hge, hle⟩
    dsimp only
    omega
  · rw [if_neg hra] at hsx
    have h₁ : rlen ≤ sx := by split_ifs at hsx <;> omega
    have h₂ : 1 ≤ sx - rlen := by split_ifs at hsx <;> omega
    rw [usub_of_le h₁, pure_bind, if_neg hra, usub_of_le h₂, pure_bind, pure_bind, hoff, pure_bind]
    refine ⟨_, rfl, rfl, rfl, rfl, ?_, rfl, (if_neg hra).symm, hge, hle⟩
    dsimp only
    omega

/-- Parts are in different columns if one ends where the other has not begun yet. -/
theorem disjoint_of_bound {a b : List ℕ} (n : ℕ) (ha : ∀ x ∈ a, x < n) (hb : ∀ x ∈ b, n ≤ x) :
    a.Disjoint b := fun x hxa hxb => absurd (ha x hxa) (not_lt.2 (hb x hxb))

/-- Parts one after the other, each in its bounds, are in different columns. -/
theorem pairwise_disjoint {n₁ n₂ n₃ n₄ : ℕ} {a b c d e : List ℕ} (h₁₂ : n₁ ≤ n₂) (h₂₃ : n₂ ≤ n₃)
    (h₃₄ : n₃ ≤ n₄) (ha : ∀ x ∈ a, x < n₁) (hb : ∀ x ∈ b, n₁ ≤ x ∧ x < n₂)
    (hc : ∀ x ∈ c, n₂ ≤ x ∧ x < n₃) (hd : ∀ x ∈ d, n₃ ≤ x ∧ x < n₄) (he : ∀ x ∈ e, n₄ ≤ x) :
    [a, b, c, d, e].Pairwise List.Disjoint := by
  simp only [List.pairwise_cons, List.mem_cons, List.not_mem_nil, or_false, forall_eq_or_imp, forall_eq,
    false_implies, implies_true, List.Pairwise.nil, and_true]
  refine ⟨⟨?_, ?_, ?_, ?_⟩, ⟨?_, ?_, ?_⟩, ⟨?_, ?_⟩, ?_⟩
  · exact disjoint_of_bound n₁ ha fun x hx => (hb x hx).1
  · exact disjoint_of_bound n₁ ha fun x hx => h₁₂.trans (hc x hx).1
  · exact disjoint_of_bound n₁ ha fun x hx => (h₁₂.trans h₂₃).trans (hd x hx).1
  · exact disjoint_of_bound n₁ ha fun x hx => ((h₁₂.trans h₂₃).trans h₃₄).trans (he x hx)
  · exact disjoint_of_bound n₂ (fun x hx => (hb x hx).2) fun x hx => (hc x hx).1
  · exact disjoint_of_bound n₂ (fun x hx => (hb x hx).2) fun x hx => h₂₃.trans (hd x hx).1
  · exact disjoint_of_bound n₂ (fun x hx => (hb x hx).2) fun x hx => (h₂₃.trans h₃₄).trans (he x hx)
  · exact disjoint_of_bound n₃ (fun x hx => (hc x hx).2) fun x hx => (hd x hx).1
  · exact disjoint_of_bound n₃ (fun x hx => (hc x hx).2) fun x hx => h₃₄.trans (he x hx)
  · exact disjoint_of_bound n₄ (fun x hx => (hd x hx).2) he

/-- The parts are in different columns unless the marker on the right is in the slice, where
    there is no text on the right. -/
theorem SlicePlaced.arranged_iff {sx llen rlen : ℕ} {s : StatusSession} {available : ℕ}
    {slice : StatusSlice} {p : StatusPlaces} (hp : SlicePlaced sx llen rlen slice p)
    (hs : SliceOf available s.total s.offset s.size slice) (hpos : 0 < slice.wlavailable)
    (hsx : available + ((if llen ≠ 0 then llen + 1 else 0) + (if rlen ≠ 0 then rlen + 1 else 0)) = sx) :
    Arranged sx s p ↔ rlen ≠ 0 ∨ slice.rarrow = 0 := by
  obtain ⟨hllen, hslice, hrlen, hright, hlarrow, hrarrow, hge, hle⟩ := hp
  have hroom := hs.room
  have hwidth := hs.width
  constructor
  · -- The marker would be in the last column of the slice.
    rintro ⟨hdis, -, -, -⟩
    by_contra hno
    push Not at hno
    obtain ⟨rfl, hra⟩ := hno
    have hcut : available < s.total := by
      by_contra hfit
      exact hra (hs.fits (not_lt.1 hfit)).2.2
    have hfull := hs.full hcut
    rw [if_pos hra] at hroom hrarrow
    simp only [StatusPlaces.columns, List.pairwise_cons] at hdis
    have hmark : sx - 0 - 2 ∈ p.rarrow.toList := by simp [hrarrow]
    refine hdis.2.2.1 p.rarrow.toList (by simp) ?_ hmark
    rw [List.mem_range'_1, hslice]
    rw [(if_neg (by simp) : (if 0 ≠ 0 then 0 + 1 else 0) = 0)] at hsx
    omega
  · intro hno
    have hllen' : llen ≤ if llen ≠ 0 then llen + 1 else 0 := by split_ifs <;> omega
    generalize (if llen ≠ 0 then llen + 1 else 0) = left at *
    have hrlen' : rlen ≤ if rlen ≠ 0 then rlen + 1 else 0 := by split_ifs <;> omega
    have hla : ∀ x ∈ p.larrow, left ≤ x ∧ x < left + if slice.larrow ≠ 0 then 1 else 0 := by
      intro x hx
      rw [hlarrow] at hx
      split_ifs at hx ⊢
      · obtain rfl := Option.some.inj hx
        exact ⟨le_rfl, Nat.lt_succ_self _⟩
      · cases hx
    have hra : ∀ x ∈ p.rarrow, left + (if slice.larrow ≠ 0 then 1 else 0) + slice.wlavailable ≤ x ∧
        x < sx - rlen := by
      intro x hx
      rw [hrarrow] at hx
      split_ifs at hx with hshown
      · obtain rfl := Option.some.inj hx
        rw [if_pos hshown] at hroom
        rw [if_pos (hno.resolve_right hshown)] at hsx
        omega
      · cases hx
    generalize (if slice.larrow ≠ 0 then 1 else 0) = la at *
    generalize (if slice.rarrow ≠ 0 then 1 else 0) = ra at *
    generalize (if rlen ≠ 0 then rlen + 1 else 0) = right at *
    refine ⟨?_, ?_, by rw [hslice]; exact hs.inside, by rw [hslice]; exact hs.current⟩
    · have hfit : left + la + slice.wlavailable ≤ sx - rlen := by omega
      refine pairwise_disjoint (Nat.le_add_right left la) (Nat.le_add_right _ _) hfit ?_ ?_ ?_ ?_ ?_
      · intro x hx
        rw [List.mem_range'_1] at hx
        omega
      · exact fun x hx => hla x (Option.mem_toList.1 hx)
      · intro x hx
        rw [List.mem_range'_1, hslice] at hx
        omega
      · exact fun x hx => hra x (Option.mem_toList.1 hx)
      · intro x hx
        rw [List.mem_range'_1] at hx
        omega
    · intro part hpart x hx
      simp only [StatusPlaces.columns, List.mem_cons, List.not_mem_nil, or_false] at hpart
      rcases hpart with rfl | rfl | rfl | rfl | rfl
      · rw [List.mem_range'_1] at hx
        omega
      · have := hla x (Option.mem_toList.1 hx)
        omega
      · rw [List.mem_range'_1, hslice] at hx
        omega
      · have := hra x (Option.mem_toList.1 hx)
        omega
      · rw [List.mem_range'_1] at hx
        omega

/-- Whether a status line is drawn, on a terminal with more than one line. -/
def hasStatus (c : StatusClient) (opts : StatusOptions) : Prop := opts.status ∧ 1 < c.sy

/-- What a client shows is told by the places of the parts of its status line. -/
def StatusLine.All (P : StatusPlaces → Prop) : StatusLine → Prop
  | .drawn p => P p
  | _ => True

/-- What becomes of a status line: either no part of it is drawn, or all of them in their places. -/
theorem statusRedraw_cases (c : StatusClient) (opts : StatusOptions) (s : StatusSession) :
    (∃ windows line, statusRedraw c opts s = pure (c, windows, line) ∧ (line = .same ∨ line = .blank) ∧
        (windows = s.windows ∨ windows = recordWidths s.windows) ∧
        (hasStatus c opts → ¬ cutsEnd (c.sx - neededColumns opts) s.total s.offset s.size)) ∨
      ∃ slice p, hasStatus c opts ∧
        statusRedraw c opts s = pure ({ c with wlmouse := (slice.wlstart : ℤ) - p.wloffset },
          recordWidths s.windows, .drawn p) ∧
        neededColumns opts < c.sx ∧ 0 < slice.wlavailable ∧
        SliceOf (c.sx - neededColumns opts) s.total s.offset s.size slice ∧
        SlicePlaced c.sx (statusLength opts.leftLength opts.left)
          (statusLength opts.rightLength opts.right) slice p := by
  unfold statusRedraw
  by_cases hstatus : c.sy = 0 ∨ ¬ opts.status
  · refine .inl ⟨s.windows, .same, if_pos hstatus, .inl rfl, .inl rfl, fun h => ?_⟩
    rcases hstatus with h0 | hoff
    · have := h.2
      omega
    · exact absurd h.1 hoff
  rw [if_neg hstatus]
  by_cases hone : c.sy ≤ 1
  · exact .inl ⟨s.windows, .blank, if_pos hone, .inr rfl, .inl rfl, fun h => absurd h.2 (not_lt.2 hone)⟩
  have hhas : hasStatus c opts := ⟨by_contra fun hoff => hstatus (.inr hoff), not_le.1 hone⟩
  rw [if_neg hone]
  dsimp only
  rw [← neededColumns]
  by_cases hsx : c.sx = 0 ∨ c.sx ≤ neededColumns opts
  · refine .inl ⟨s.windows, .blank, if_pos hsx, .inr rfl, .inl rfl, fun _ h => ?_⟩
    obtain ⟨-, h | h⟩ := h <;> omega
  have hneeded : neededColumns opts < c.sx := by omega
  have havailable : 0 < c.sx - neededColumns opts := Nat.sub_pos_of_lt hneeded
  rw [if_neg hsx, usub_of_le hneeded.le, pure_bind, listWidth_eq]
  dsimp only
  obtain ⟨slice, hcut, hs⟩ := cutList_eq havailable s.offset_add_size_le
  have hsize : screenWriteCstrlen s.curw.text = s.size := rfl
  rw [hsize, hcut, pure_bind]
  by_cases hbail : s.total > c.sx - neededColumns opts ∧ (slice.wlwidth = 0 ∨ slice.wlavailable = 0)
  · refine .inl ⟨_, .blank, if_pos hbail, .inr rfl, .inr rfl, fun _ => hs.bail ?_⟩
    have := hs.full hbail.1
    omega
  rw [if_neg hbail]
  have hpos : 0 < slice.wlavailable := by
    by_cases hfit : s.total ≤ c.sx - neededColumns opts
    · have hroom := hs.room
      rw [(hs.fits hfit).2.1, (hs.fits hfit).2.2] at hroom
      simp only [ne_eq, not_true, if_false] at hroom
      omega
    · omega
  have hs' : SliceOf (c.sx - neededColumns opts) s.total s.offset s.size
      (if s.total > c.sx - neededColumns opts then alertArrows 0 (recordWidths s.windows) slice
        else slice) ∧ 0 < (if s.total > c.sx - neededColumns opts then
          alertArrows 0 (recordWidths s.windows) slice else slice).wlavailable := by
    split_ifs
    · exact ⟨alertArrows_sliceOf _ _ hs, by rwa [alertArrows_wlavailable]⟩
    · exact ⟨hs, hpos⟩
  generalize (if s.total > c.sx - neededColumns opts then alertArrows 0 (recordWidths s.windows) slice
    else slice) = slice' at hs' ⊢
  obtain ⟨hs', hpos'⟩ := hs'
  have hroom : slice'.wlavailable + (if slice'.larrow ≠ 0 then 1 else 0) +
      (if slice'.rarrow ≠ 0 then 1 else 0) + neededColumns opts = c.sx := by
    rw [hs'.room]
    omega
  obtain ⟨p, hdraw, hp⟩ := drawStatus_eq opts hs'.width hpos' hroom
  rw [hdraw, pure_bind]
  exact .inr ⟨slice', p, hhas, rfl, hneeded, hpos', hs', hp⟩

/-- A session of two windows, the texts of which have six columns each. -/
def twoWindows : StatusSession where
  windows := [⟨0, [1, 1, 1, 1, 1, 1], [1], false, 0⟩, ⟨1, [1, 1, 1, 1, 1, 1], [1], false, 0⟩]
  curw := ⟨0, [1, 1, 1, 1, 1, 1], [1], false, 0⟩
  mem := by simp
  nodup := by decide

end Tmux
