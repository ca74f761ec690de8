import Mathlib.Order.MinMax
import Tmux.Session.Session
import Tmux.Status.Redraw

/-!
# Clicks on the status line

A click on the status line selects the window whose text is there (`statusSetWindowAt`),
counting the columns of the texts from the column of the list that is at the left edge of
the terminal, with one column for each separator.

The line that is drawn (`StatusPlaces.line`) shows a slice of the list, with the separators
as wide as they are. A character half of which is left out is not drawn if it is the right
half that is in the slice, and drawn whole if it is the left one.
-/

namespace Tmux

open Exec

/-! ## The line -/

/-- What a column of the status line shows. -/
inductive StatusColumn
  | blank
  | left
  | larrow
  | rarrow
  | right
  | separator
  /-- A column of the text of the window with an index. -/
  | window (idx : ℕ)
  deriving DecidableEq, Repr

/-- The characters of the list of windows, with what they show and their widths. -/
def listCharacters (windows : List StatusWindow) : List (StatusColumn × ℕ) :=
  windows.flatMap fun wl =>
    wl.text.map (fun width => (.window wl.idx, width)) ++
      wl.separator.map fun width => (.separator, width)

/-- The cells of a character: its own, with what it shows and its width, and padding. -/
def characterCells (c : StatusColumn × ℕ) : List (Option (StatusColumn × ℕ)) :=
  if c.2 = 0 then [] else some c :: List.replicate (c.2 - 1) none

/-- The columns that a cell fills when it is copied. Padding is ignored. -/
def cellColumns : Option (StatusColumn × ℕ) → List StatusColumn
  | none => []
  | some (shown, width) => List.replicate width shown

/-- The columns filled by the slice of the list of windows that is copied. -/
def copiedColumns (windows : List StatusWindow) (slice : StatusSlice) : List StatusColumn :=
  ((((listCharacters windows).flatMap characterCells).drop slice.wlstart).take slice.wlwidth).flatMap
    cellColumns

/-- Write columns on a line, from a column on. -/
def putColumns (line : ℕ → StatusColumn) (cx : ℕ) (columns : List StatusColumn) (x : ℕ) : StatusColumn :=
  if cx ≤ x then columns[x - cx]?.getD (line x) else line x

/-- Write a marker on a line, if it is shown. -/
def putMarker (line : ℕ → StatusColumn) (cx : Option ℕ) (marker : StatusColumn) : ℕ → StatusColumn :=
  match cx with
  | none => line
  | some cx => putColumns line cx [marker]

/-- The status line with its parts in their places, drawn in this order. -/
def StatusPlaces.line (p : StatusPlaces) (windows : List StatusWindow) : ℕ → StatusColumn :=
  let line := putColumns (fun _ => .blank) 0 (List.replicate p.llen .left)
  let line := putMarker line p.larrow .larrow
  let line := putMarker line p.rarrow .rarrow
  let line := putColumns line p.right (List.replicate p.rlen .right)
  putColumns line p.wloffset (copiedColumns windows p.slice)

/-- What a client shows in a column of its status line. -/
def StatusLine.column (line : StatusLine) (windows : List StatusWindow) (x : ℕ) : StatusColumn :=
  match line with
  | .drawn p => p.line windows x
  | _ => .blank

/-! ## Clicks -/

/-- The indices of the windows at a column of the list of windows, counted on from there. -/
def windowsAt : List StatusWindow → ℕ → List ℕ
  | [], _ => []
  | wl :: windows, x =>
    let rest := windowsAt windows ((x + (word - (wl.statusWidth + 1) % word)) % word)
    if x < wl.statusWidth then wl.idx :: rest else rest

/-- The indices of the windows to select when a column of the status line is clicked on. -/
def clickedWindows (c : StatusClient) (windows : List StatusWindow) (x : ℕ) : List ℕ :=
  windowsAt windows (((x : ℤ) + c.wlmouse) % word).toNat

/-- Select the window at a column of the status line. -/
def statusSetWindowAt (c : StatusClient) (windows : List StatusWindow) (x : ℕ) (s : Session) :
    Exec Session :=
  (clickedWindows c windows x).foldlM (fun s idx => do
    let (s, _) ← sessionSelect s idx
    pure s) s

/-! ## Places -/

/-- A window of the list: where its text is, and where it is counted to be. -/
structure WindowPlace where
  idx : ℕ
  start : ℕ
  width : ℕ
  countedStart : ℕ
  countedWidth : ℕ
  deriving DecidableEq, Repr

/-- The places of windows, from a column of the list on, and from a column counted. -/
def windowPlaces : ℕ → ℕ → List StatusWindow → List WindowPlace
  | _, _, [] => []
  | start, counted, wl :: windows =>
    ⟨wl.idx, start, wl.text.sum, counted, wl.statusWidth⟩ ::
      windowPlaces (start + wl.columns) (counted + (wl.statusWidth + 1)) windows

/-- The columns of windows counted, each with one for its separator. -/
def countedColumns (windows : List StatusWindow) : ℕ :=
  (windows.map fun wl => wl.statusWidth + 1).sum

/-- A window is selected in the columns where its text is counted to be. -/
theorem mem_windowsAt {windows : List StatusWindow} {start counted idx : ℕ} {x : ℤ}
    (hle : x < word + counted) (hge : (counted : ℤ) + countedColumns windows ≤ x + word) :
    idx ∈ windowsAt windows ((x - counted) % word).toNat ↔
      ∃ pl ∈ windowPlaces start counted windows, pl.idx = idx ∧
        (pl.countedStart : ℤ) ≤ x ∧ x < pl.countedStart + pl.countedWidth := by
  induction windows generalizing start counted with
  | nil => simp [windowsAt, windowPlaces]
  | cons wl windows ih =>
    rw [countedColumns, List.map_cons, List.sum_cons, ← countedColumns] at hge
    have hrest := @ih (start + wl.columns) (counted + (wl.statusWidth + 1)) (by push_cast; omega)
      (by push_cast at hge ⊢; omega)
    -- The column goes on being counted from the next window.
    have hnext : (((x - counted) % word).toNat + (word - (wl.statusWidth + 1) % word)) % word =
        ((x - ((counted + (wl.statusWidth + 1) : ℕ) : ℤ)) % word).toNat := by
      clear hrest ih
      simp only [word] at *
      omega
    have hhere : ((x - counted) % word).toNat < wl.statusWidth ↔
        (counted : ℤ) ≤ x ∧ x < counted + wl.statusWidth := by
      clear hrest hnext ih
      simp only [word] at *
      omega
    rw [windowsAt, windowPlaces, hnext]
    simp only [List.exists_mem_cons_iff, ← hrest]
    rw [← hhere]
    split_ifs with hwl
    · simp [hwl, eq_comm]
    · simp [hwl]

/-- The columns of the list of windows. -/
def listColumns (windows : List StatusWindow) : List StatusColumn :=
  (listCharacters windows).flatMap fun c => List.replicate c.2 c.1

/-- The column from which on the first character at a cell, or after it, is. -/
def nextCharacter (cells : List (Option (StatusColumn × ℕ))) (q : ℕ) : ℕ :=
  q + ((cells.drop q).takeWhile Option.isNone).length

/-- The cells of the list of windows. -/
def listCells (windows : List StatusWindow) : List (Option (StatusColumn × ℕ)) :=
  (listCharacters windows).flatMap characterCells

/-- No character begins with padding. -/
theorem takeWhile_isNone_cells (cs : List (StatusColumn × ℕ)) :
    (cs.flatMap characterCells).takeWhile Option.isNone = [] := by
  induction cs with
  | nil => rfl
  | cons c cs ih =>
    rw [List.flatMap_cons, characterCells]
    split_ifs
    · exact ih
    · rfl

theorem nextCharacter_append (l cells : List (Option (StatusColumn × ℕ))) (k : ℕ) :
    nextCharacter (l ++ cells) (l.length + k) = l.length + nextCharacter cells k := by
  rw [nextCharacter, nextCharacter, List.drop_length_add_append, Nat.add_assoc]

/-- The columns filled by a number of cells go on to the end of the last character. -/
theorem take_cells (cs : List (StatusColumn × ℕ)) (m : ℕ) :
    ((cs.flatMap characterCells).take m).flatMap cellColumns =
      (cs.flatMap fun c => List.replicate c.2 c.1).take (nextCharacter (cs.flatMap characterCells) m) := by
  induction cs generalizing m with
  | nil => simp
  | cons c cs ih =>
    obtain ⟨shown, width⟩ := c
    rw [List.flatMap_cons, List.flatMap_cons]
    rcases width with _ | width
    · exact ih m
    · have hcells : characterCells (shown, width + 1) = some (shown, width + 1) :: List.replicate width none := rfl
      have hcolumns : (characterCells (shown, width + 1)).flatMap cellColumns =
          List.replicate (width + 1) shown := by
        simp [hcells, cellColumns, List.flatMap_cons]
      rcases m with _ | m
      · simp [nextCharacter, hcells]
      · rcases Nat.lt_or_ge m width with hm | hm
        · -- The character goes on after the cells.
          have htake : ((characterCells (shown, width + 1) ++ cs.flatMap characterCells).take
              (m + 1)).flatMap cellColumns = List.replicate (width + 1) shown := by
            rw [List.take_append_of_le_length (by simp [hcells]; omega), hcells, List.take_succ_cons,
              List.take_replicate, List.flatMap_cons]
            have hpad : (List.replicate (min m width) none).flatMap cellColumns = [] :=
              List.flatMap_eq_nil_iff.2 fun x hx => by rw [List.eq_of_mem_replicate hx]; rfl
            rw [hpad, List.append_nil]
            rfl
          have hnext : nextCharacter (characterCells (shown, width + 1) ++ cs.flatMap characterCells)
              (m + 1) = width + 1 := by
            rw [nextCharacter, hcells, List.cons_append, List.drop_succ_cons, List.drop_append_of_le_length
              (by simp; omega), List.drop_replicate, List.takeWhile_append_of_pos (by simp),
              takeWhile_isNone_cells]
            simp only [List.append_nil, List.length_replicate]
            omega
          rw [htake, hnext]
          exact (List.take_left' (by simp)).symm
        · obtain ⟨k, rfl⟩ := Nat.exists_eq_add_of_le hm
          have hlen : (characterCells (shown, width + 1)).length = width + 1 := by simp [hcells]
          have hrep : (List.replicate (width + 1) shown).length = width + 1 := List.length_replicate
          have hm : width + k + 1 = (characterCells (shown, width + 1)).length + k := by omega
          rw [hm, nextCharacter_append, List.take_length_add_append, List.flatMap_append, hcolumns, ih,
            hlen.trans hrep.symm, List.take_length_add_append]

/-- The slice copied fills the columns from the first character that begins in it on, to the
    end of the last one. -/
theorem copiedColumns_eq (windows : List StatusWindow) (slice : StatusSlice) :
    copiedColumns windows slice =
      ((listColumns windows).take (nextCharacter (listCells windows) (slice.wlstart + slice.wlwidth))).drop
        (nextCharacter (listCells windows) slice.wlstart) := by
  have hstart := take_cells (listCharacters windows) slice.wlstart
  have hend := take_cells (listCharacters windows) (slice.wlstart + slice.wlwidth)
  rw [← listCells, ← listColumns] at hstart hend
  rw [List.take_add, List.flatMap_append, hstart] at hend
  have hcopied : copiedColumns windows slice = ((listColumns windows).take
      (nextCharacter (listCells windows) (slice.wlstart + slice.wlwidth))).drop
        ((listColumns windows).take (nextCharacter (listCells windows) slice.wlstart)).length := by
    rw [← hend, List.drop_left]
    rfl
  rw [hcopied, List.length_take]
  rcases le_total (nextCharacter (listCells windows) slice.wlstart) (listColumns windows).length with h | h
  · rw [min_eq_left h]
  · have hle := List.length_take_le' (nextCharacter (listCells windows) (slice.wlstart + slice.wlwidth))
      (listColumns windows)
    rw [min_eq_right h, List.drop_eq_nil_of_le hle, List.drop_eq_nil_of_le (hle.trans h)]

theorem windowPlaces_le {windows : List StatusWindow} {start counted : ℕ} :
    ∀ pl ∈ windowPlaces start counted windows, start ≤ pl.start := by
  induction windows generalizing start counted with
  | nil => simp [windowPlaces]
  | cons wl windows ih =>
    rw [windowPlaces, List.forall_mem_cons]
    exact ⟨le_rfl, fun pl hpl => (Nat.le_add_right _ _).trans (ih pl hpl)⟩

/-- A text fills its columns. -/
theorem textColumns (shown : StatusColumn) (text : StatusText) :
    (text.map fun width => (shown, width)).flatMap (fun c => List.replicate c.2 c.1) =
      List.replicate text.sum shown := by
  induction text with
  | nil => rfl
  | cons width text ih =>
    rw [List.map_cons, List.flatMap_cons, ih, List.sum_cons, List.replicate_add]

/-- The columns of the list that show the text of a window are those of its place. -/
theorem listColumns_eq_window {windows : List StatusWindow} {start counted idx i : ℕ} :
    (listColumns windows)[i]? = some (.window idx) ↔
      ∃ pl ∈ windowPlaces start counted windows, pl.idx = idx ∧ pl.start ≤ start + i ∧
        start + i < pl.start + pl.width := by
  induction windows generalizing start counted i with
  | nil => simp [listColumns, listCharacters, windowPlaces]
  | cons wl windows ih =>
    have hcols : listColumns (wl :: windows) = List.replicate wl.text.sum (.window wl.idx) ++
        (List.replicate wl.separator.sum .separator ++ listColumns windows) := by
      rw [listColumns, listCharacters, List.flatMap_cons, List.flatMap_append, List.flatMap_append,
        textColumns, textColumns, List.append_assoc]
      rfl
    have hlater : i < wl.columns → ¬ ∃ pl ∈ windowPlaces (start + wl.columns)
        (counted + (wl.statusWidth + 1)) windows, pl.idx = idx ∧ pl.start ≤ start + i ∧
          start + i < pl.start + pl.width := by
      rintro hi ⟨pl, hpl, -, hle, -⟩
      have := windowPlaces_le pl hpl
      omega
    rw [hcols, windowPlaces, List.exists_mem_cons_iff]
    rcases Nat.lt_or_ge i wl.text.sum with hi | hi
    · have hcol : i < wl.columns := by
        rw [StatusWindow.columns]
        omega
      rw [List.getElem?_append_left (by simpa using hi), List.getElem?_replicate, if_pos hi,
        or_iff_left (hlater hcol)]
      simp [hi]
    · rw [List.getElem?_append_right (by simpa using hi), List.length_replicate]
      have hhere : ¬ (wl.idx = idx ∧ start ≤ start + i ∧ start + i < start + wl.text.sum) := by omega
      rw [or_iff_right hhere]
      rcases Nat.lt_or_ge i wl.columns with hcol | hcol
      · rw [StatusWindow.columns] at hcol
        rw [List.getElem?_append_left (by simp; omega), List.getElem?_replicate, if_pos (by omega)]
        exact iff_of_false (by simp) (hlater (by rw [StatusWindow.columns]; omega))
      · rw [StatusWindow.columns] at hcol
        rw [List.getElem?_append_right (by simp; omega), List.length_replicate,
          @ih (start + wl.columns) (counted + (wl.statusWidth + 1))]
        have hi : start + wl.columns + (i - wl.text.sum - wl.separator.sum) = start + i := by
          rw [StatusWindow.columns]
          omega
        rw [hi]

theorem putColumns_ne {line : ℕ → StatusColumn} {cx x : ℕ} {columns : List StatusColumn}
    {shown : StatusColumn} (hline : line x ≠ shown) (h : shown ∉ columns) :
    putColumns line cx columns x ≠ shown := by
  rw [putColumns]
  split_ifs
  · cases hcol : columns[x - cx]? with
    | none => exact hline
    | some col =>
      rintro rfl
      exact h (List.mem_of_getElem? hcol)
  · exact hline

theorem putMarker_ne {line : ℕ → StatusColumn} {cx : Option ℕ} {x : ℕ} {marker shown : StatusColumn}
    (hline : line x ≠ shown) (h : shown ≠ marker) : putMarker line cx marker x ≠ shown := by
  cases cx with
  | none => exact hline
  | some cx => exact putColumns_ne hline (by simpa using h)

/-- A column of the line shows the text of a window where the slice has a column of it. -/
theorem line_eq_window {p : StatusPlaces} {windows : List StatusWindow} {x idx : ℕ} :
    p.line windows x = .window idx ↔
      p.wloffset ≤ x ∧ (copiedColumns windows p.slice)[x - p.wloffset]? = some (.window idx) := by
  have hbase : ∀ line : ℕ → StatusColumn, line x ≠ .window idx →
      (putColumns line p.wloffset (copiedColumns windows p.slice) x = .window idx ↔
        p.wloffset ≤ x ∧ (copiedColumns windows p.slice)[x - p.wloffset]? = some (.window idx)) := by
    intro line hline
    rw [putColumns]
    split_ifs with hx
    · cases hcol : (copiedColumns windows p.slice)[x - p.wloffset]? with
      | none => simp [hline]
      | some col => simp [hx]
    · simp [hx, hline]
  refine hbase _ (putColumns_ne (putMarker_ne (putMarker_ne (putColumns_ne ?_ ?_) ?_) ?_) ?_)
  all_goals simp

/-! ## Ranges -/

/-- The columns from `a` to `b`, given by their bounds unless there are none. -/
def interval (a b : ℤ) : ℤ × ℤ := if a < b then (a, b) else (0, 0)

theorem interval_eq_iff {a b a' b' : ℤ} :
    interval a b = interval a' b' ↔ ∀ x, a ≤ x ∧ x < b ↔ a' ≤ x ∧ x < b' := by
  unfold interval
  constructor
  · intro h x
    split_ifs at h <;> simp only [Prod.mk.injEq] at h <;> omega
  · intro h
    have h₁ := h a
    have h₂ := h (b - 1)
    have h₃ := h a'
    have h₄ := h (b' - 1)
    split_ifs <;> simp only [Prod.mk.injEq] <;> omega

/-- The columns from `a` to `b` among those from `lo` to `hi`. -/
def clip (lo hi a b : ℤ) : ℤ × ℤ := interval (max lo a) (min hi b)

/-- A column is in an interval. -/
def InInterval (r : ℤ × ℤ) (x : ℤ) : Prop := r.1 ≤ x ∧ x < r.2

theorem inInterval_interval {a b x : ℤ} : InInterval (interval a b) x ↔ a ≤ x ∧ x < b := by
  rw [InInterval, interval]
  split_ifs with h
  · rfl
  · exact iff_of_false (by simp) (by omega)

theorem inInterval_clip {lo hi a b x : ℤ} :
    InInterval (clip lo hi a b) x ↔ (lo ≤ x ∧ a ≤ x) ∧ x < hi ∧ x < b := by
  rw [clip, inInterval_interval, max_le_iff, lt_min_iff]

/-- The columns of a terminal where the text of a window is counted to be. -/
def countedRange (c : StatusClient) (pl : WindowPlace) : ℤ × ℤ :=
  clip 0 c.sx (pl.countedStart - c.wlmouse) (pl.countedStart - c.wlmouse + pl.countedWidth)

/-- The columns of a terminal where a status line shows the text of a window. -/
def StatusLine.range (line : StatusLine) (c : StatusClient) (windows : List StatusWindow)
    (pl : WindowPlace) : ℤ × ℤ :=
  match line with
  | .drawn p =>
    let first := nextCharacter (listCells windows) p.slice.wlstart
    let last := nextCharacter (listCells windows) (p.slice.wlstart + p.slice.wlwidth)
    clip p.wloffset (min c.sx (p.wloffset + last - first)) (p.wloffset + pl.start - first)
      (p.wloffset + pl.start - first + pl.width)
  | _ => (0, 0)

/-- The columns of the list of windows, of the terminal and the one at its left edge are
    few enough for a word. -/
structure StatusFits (c : StatusClient) (windows : List StatusWindow) : Prop where
  sx : c.sx ≤ 2147483648
  columns : countedColumns windows ≤ 2147483648
  wlmouse_ge : -2147483648 ≤ c.wlmouse
  wlmouse_le : c.wlmouse ≤ 2147483648

/-- The ranges are intervals on the terminal. -/
theorem countedRange_eq (c : StatusClient) (pl : WindowPlace) : ∃ a b, countedRange c pl = interval a b :=
  ⟨_, _, rfl⟩

theorem StatusLine.range_eq (line : StatusLine) (c : StatusClient) (windows : List StatusWindow)
    (pl : WindowPlace) : ∃ a b, line.range c windows pl = interval a b := by
  cases line with
  | drawn p => exact ⟨_, _, rfl⟩
  | same => exact ⟨0, 0, rfl⟩
  | blank => exact ⟨0, 0, rfl⟩

theorem inInterval_countedRange {c : StatusClient} {pl : WindowPlace} {x : ℤ}
    (h : InInterval (countedRange c pl) x) : 0 ≤ x ∧ x < c.sx := by
  rw [countedRange, inInterval_clip] at h
  exact ⟨h.1.1, h.2.1⟩

theorem StatusLine.inInterval_range {line : StatusLine} {c : StatusClient}
    {windows : List StatusWindow} {pl : WindowPlace} {x : ℤ}
    (h : InInterval (line.range c windows pl) x) : 0 ≤ x ∧ x < c.sx := by
  cases line with
  | drawn p =>
    dsimp only [StatusLine.range] at h
    rw [inInterval_clip] at h
    omega
  | same =>
    obtain ⟨h₁, h₂⟩ := h
    exact absurd h₁ (not_le.2 h₂)
  | blank =>
    obtain ⟨h₁, h₂⟩ := h
    exact absurd h₁ (not_le.2 h₂)

/-- A click selects the windows counted to be there. -/
theorem StatusFits.mem_clickedWindows {c : StatusClient} {windows : List StatusWindow}
    (h : StatusFits c windows) {x idx : ℕ} (hx : x < c.sx) :
    idx ∈ clickedWindows c windows x ↔
      ∃ pl ∈ windowPlaces 0 0 windows, pl.idx = idx ∧ InInterval (countedRange c pl) x := by
  obtain ⟨h₁, h₂, h₃, h₄⟩ := h
  have hword : (word : ℤ) = 4294967296 := rfl
  have hle : (x : ℤ) + c.wlmouse < word + (0 : ℕ) := by omega
  have hge : ((0 : ℕ) : ℤ) + countedColumns windows ≤ x + c.wlmouse + word := by omega
  have hmem := @mem_windowsAt windows 0 0 idx (x + c.wlmouse) hle hge
  rw [Int.natCast_zero, sub_zero] at hmem
  rw [clickedWindows, hmem]
  refine exists_congr fun pl => and_congr_right fun _ => and_congr_right fun _ => ?_
  rw [countedRange, inInterval_clip]
  omega

/-- A status line shows the text of a window in the columns of its range. -/
theorem StatusLine.column_eq_window {line : StatusLine} {c : StatusClient}
    {windows : List StatusWindow} {x idx : ℕ} (hx : x < c.sx) :
    line.column windows x = .window idx ↔
      ∃ pl ∈ windowPlaces 0 0 windows, pl.idx = idx ∧ InInterval (line.range c windows pl) x := by
  have hnone : InInterval (0, 0) x ↔ False := ⟨fun ⟨h₁, h₂⟩ => absurd h₁ (not_le.2 h₂), False.elim⟩
  cases line with
  | same => simp [StatusLine.column, StatusLine.range, hnone]
  | blank => simp [StatusLine.column, StatusLine.range, hnone]
  | drawn p =>
    dsimp only [StatusLine.column, StatusLine.range]
    rw [line_eq_window, copiedColumns_eq, List.getElem?_drop, List.getElem?_take]
    generalize nextCharacter (listCells windows) p.slice.wlstart = first
    generalize nextCharacter (listCells windows) (p.slice.wlstart + p.slice.wlwidth) = last
    constructor
    · rintro ⟨hoff, hcol⟩
      split_ifs at hcol with hlast
      · obtain ⟨pl, hpl, hidx, hge, hlt⟩ := (@listColumns_eq_window windows 0 0 _ _).1 hcol
        refine ⟨pl, hpl, hidx, inInterval_clip.2 ?_⟩
        omega
    · rintro ⟨pl, hpl, hidx, hin⟩
      rw [inInterval_clip] at hin
      refine ⟨by omega, ?_⟩
      rw [if_pos (by omega)]
      exact (@listColumns_eq_window windows 0 0 _ _).2 ⟨pl, hpl, hidx, by omega, by omega⟩

theorem windowPlaces_idx (windows : List StatusWindow) (start counted : ℕ) :
    (windowPlaces start counted windows).map WindowPlace.idx = windows.map StatusWindow.idx := by
  induction windows generalizing start counted with
  | nil => rfl
  | cons wl windows ih => rw [windowPlaces, List.map_cons, List.map_cons, ih]

end Tmux
