import Tmux.Tty.Cursor
import Tmux.Tty.Rendition

/-!
# What a terminal displays

A display is a terminal with its rendition and with what was last written to its columns (`Display`). It takes
sequences and characters: a character that does not fit on the row goes to the start of the next one, and the rows of
the scroll region move up when the terminal scrolls.
-/

namespace Tmux

open Device

/-- What was last written to a column: a character, or the rest of the one on its left. -/
inductive Glyph
  | text (bytes : List UInt8) (r : Rendition)
  | rest

/-- What is written to a terminal: a sequence for the cursor or the rendition, a character that takes some columns, or a
    sequence that changes columns or rows. -/
inductive TtyItem
  | seq (s : TtySequence)
  | text (bytes : List UInt8) (width : ℕ)
  /-- Clear from the cursor to the end of the row. -/
  | el
  /-- Clear from the start of the row to the cursor. -/
  | el1
  /-- Insert columns at the cursor. -/
  | ich (n : ℕ)
  /-- Delete columns at the cursor. -/
  | dch (n : ℕ)
  /-- Insert rows at the cursor. -/
  | il (n : ℕ)
  /-- Delete rows at the cursor. -/
  | dl (n : ℕ)
  /-- Set the scroll region. -/
  | csr (top bottom : ℕ)
  /-- Move up, and scroll down at the top of the scroll region. -/
  | ri
  deriving DecidableEq, Repr

/-- A terminal, its rendition, and the columns of its rows. -/
structure Display where
  t : Terminal
  r : Rendition
  cells : ℕ → ℕ → Glyph

/-- The glyphs of a character. -/
def textGlyphs (bytes : List UInt8) (r : Rendition) : ℕ → List Glyph
  | 0 => []
  | n + 1 => .text bytes r :: List.replicate n .rest

theorem length_textGlyphs (bytes : List UInt8) (r : Rendition) (width : ℕ) :
    (textGlyphs bytes r width).length = width := by
  cases width with
  | zero => rfl
  | succ n => rw [textGlyphs, List.length_cons, List.length_replicate]

namespace Display

variable (d : Display)

/-- A column that is cleared. -/
def blank : Glyph := .text [32] d.r

/-- Glyphs from a column of a row on. -/
def fill (y x : ℕ) (gs : List Glyph) : Display :=
  { d with cells := fun i j => if i = y ∧ x ≤ j then gs[j - x]?.getD (d.cells i j) else d.cells i j }

/-- The terminal changes, and the rows of its region move up if it scrolls. -/
def become (t : Terminal) : Display :=
  { d with
    t
    cells := if t.scrolls = d.t.scrolls then d.cells
      else fun i j =>
        if d.t.top ≤ i ∧ i < d.t.bottom then d.cells (i + 1) j
        else if i = d.t.bottom then d.blank
        else d.cells i j }

/-- Go to the start of the next row. -/
def newLine : Display := d.become (Terminal.lineFeed { d.t with x := 0 })

/-- Glyphs at the cursor, which moves behind them. -/
def put (gs : List Glyph) : Display := { d.fill d.t.y d.t.x gs with t.x := d.t.x + gs.length }

/-- The column of the cursor: the last one if it is behind it. -/
def column : ℕ := min d.t.x (d.t.sx - 1)

/-- Columns are inserted at the cursor, and the last ones of the row are lost. -/
def insertColumns (n : ℕ) : Display :=
  { d with cells := fun i j =>
      if i = d.t.y ∧ d.column ≤ j ∧ j < d.t.sx then if j < d.column + n then d.blank else d.cells i (j - n)
      else d.cells i j }

/-- Columns are deleted at the cursor, and blank ones come last. -/
def deleteColumns (n : ℕ) : Display :=
  { d with cells := fun i j =>
      if i = d.t.y ∧ d.column ≤ j ∧ j < d.t.sx then if j + n < d.t.sx then d.cells i (j + n) else d.blank
      else d.cells i j }

/-- Rows are inserted, and the last ones of the region are lost. -/
def insertRows (top bottom n : ℕ) : Display :=
  { d with cells := fun i j =>
      if top ≤ i ∧ i ≤ bottom then if i < top + n then d.blank else d.cells (i - n) j
      else d.cells i j }

/-- Rows are deleted, and blank ones come last in the region. -/
def deleteRows (top bottom n : ℕ) : Display :=
  { d with cells := fun i j =>
      if top ≤ i ∧ i ≤ bottom then if i + n ≤ bottom then d.cells (i + n) j else d.blank
      else d.cells i j }

/-- What a display does with what is written to it. A character that does not fit is written on the next row, and rows
    are only inserted and deleted in the scroll region, which has more than one row. -/
def apply : TtyItem → Display
  | .seq s => { d.become (d.t.apply s) with r := d.r.apply s }
  | .text bytes width =>
    let d := if d.t.x + width > d.t.sx then d.newLine else d
    d.put (textGlyphs bytes d.r width)
  | .el => d.fill d.t.y d.column (List.replicate (d.t.sx - d.column) d.blank)
  | .el1 => d.fill d.t.y 0 (List.replicate (d.column + 1) d.blank)
  | .ich n => d.insertColumns n
  | .dch n => d.deleteColumns n
  | .il n => if d.t.top ≤ d.t.y ∧ d.t.y ≤ d.t.bottom then d.insertRows d.t.y d.t.bottom n else d
  | .dl n => if d.t.top ≤ d.t.y ∧ d.t.y ≤ d.t.bottom then d.deleteRows d.t.y d.t.bottom n else d
  | .csr top bottom =>
    if top < bottom ∧ bottom < d.t.sy then { d with t := { d.t with x := 0, y := 0, top, bottom } } else d
  | .ri =>
    if d.t.y = d.t.top then d.insertRows d.t.top d.t.bottom 1
    else { d with t := { d.t with y := d.t.y - 1 } }

variable {d} {y x : ℕ} {gs gs' : List Glyph} {i j : ℕ}

theorem fill_cells_of_ne (h : i ≠ y) : (d.fill y x gs).cells i j = d.cells i j := if_neg fun h' => h h'.1

theorem fill_cells_of_lt (h : j < x) : (d.fill y x gs).cells i j = d.cells i j :=
  if_neg fun h' => absurd h'.2 (Nat.not_le.2 h)

theorem fill_cells (hx : x ≤ j) : (d.fill y x gs).cells y j = gs[j - x]?.getD (d.cells y j) := if_pos ⟨rfl, hx⟩

theorem fill_cells_of_le (h : x + gs.length ≤ j) : (d.fill y x gs).cells i j = d.cells i j := by
  rw [fill]
  dsimp only
  rw [List.getElem?_eq_none (by omega), Option.getD_none, ite_self]

@[simp] theorem fill_nil : d.fill y x [] = d := by
  simp [fill]

/-- Glyphs, and then more behind them. -/
theorem fill_fill : (d.fill y x gs).fill y (x + gs.length) gs' = d.fill y x (gs ++ gs') := by
  rw [fill, fill, fill]
  congr 1
  funext i j
  dsimp only
  by_cases hi : i = y
  · by_cases hj : x + gs.length ≤ j
    · have hlen : gs.length ≤ j - x := by omega
      rw [if_pos ⟨hi, hj⟩, if_pos ⟨hi, by omega⟩, if_pos ⟨hi, by omega⟩, List.getElem?_append_right hlen,
        List.getElem?_eq_none hlen, Option.getD_none, Nat.sub_sub]
    · rw [if_neg fun h => hj h.2]
      by_cases hx : x ≤ j
      · rw [if_pos ⟨hi, hx⟩, if_pos ⟨hi, hx⟩, List.getElem?_append_left (by omega)]
      · rw [if_neg fun h => hx h.2, if_neg fun h => hx h.2]
  · rw [if_neg fun h => hi h.1, if_neg fun h => hi h.1, if_neg fun h => hi h.1]

theorem put_nil : d.put [] = d := by
  rw [put, fill_nil]
  rfl

theorem put_put : (d.put gs).put gs' = d.put (gs ++ gs') := by
  have hfill : (d.put gs).put gs' =
      { ((d.fill d.t.y d.t.x gs).fill d.t.y (d.t.x + gs.length) gs') with t.x := d.t.x + gs.length + gs'.length } := rfl
  rw [hfill, fill_fill, put, List.length_append, Nat.add_assoc]

/-- A terminal that does not scroll keeps its columns. -/
theorem become_of_scrolls {t : Terminal} (h : t.scrolls = d.t.scrolls) : d.become t = { d with t } := by
  rw [become, if_pos h]

end Display

/-- No sequence takes back that a terminal has scrolled. -/
theorem Terminal.scrolls_le_apply (t : Terminal) (s : TtySequence) : t.scrolls ≤ (t.apply s).scrolls := by
  have hfeed : t.scrolls ≤ t.lineFeed.scrolls := by
    rw [lineFeed]
    split_ifs
    · exact Nat.le_succ _
    · exact Nat.le_refl _
  cases s with
  | char ch =>
    have hchar : t.apply (.char ch) = if ch = 13 then { t with x := 0 } else if ch = 10 then t.lineFeed else t := rfl
    rw [hchar]
    split_ifs
    · exact Nat.le_refl _
    · exact hfeed
    · exact Nat.le_refl _
  | code c => cases c <;> exact Nat.le_refl _
  | code1 c n => cases c <;> exact Nat.le_refl _
  | code2 c n m => cases c <;> exact Nat.le_refl _
  | sgr params => exact Nat.le_refl _

theorem Terminal.scrolls_le_foldl (t : Terminal) (seqs : List TtySequence) :
    t.scrolls ≤ (seqs.foldl apply t).scrolls := by
  induction seqs generalizing t with
  | nil => exact Nat.le_refl _
  | cons s seqs ih => exact (t.scrolls_le_apply s).trans (ih _)

/-- Sequences that scroll nothing change the terminal and its rendition. -/
theorem Display.foldl_seqs {seqs : List TtySequence} {d : Display}
    (h : (seqs.foldl Terminal.apply d.t).scrolls = d.t.scrolls) :
    (seqs.map .seq).foldl Display.apply d =
      { d with t := seqs.foldl Terminal.apply d.t, r := seqs.foldl Rendition.apply d.r } := by
  induction seqs generalizing d with
  | nil => rfl
  | cons s seqs ih =>
    have hs : (d.t.apply s).scrolls = d.t.scrolls :=
      Nat.le_antisymm (h ▸ Terminal.scrolls_le_foldl _ seqs) (d.t.scrolls_le_apply s)
    have hd : d.apply (.seq s) = { d with t := d.t.apply s, r := d.r.apply s } := by
      rw [Display.apply, become_of_scrolls hs]
    rw [List.map_cons, List.foldl_cons, hd, ih (h.trans hs.symm)]
    rfl

/-! ## What sequences leave alone -/

theorem putcode_keeps {σ : Type} {step : σ → TtySequence → σ} {c : TtyCode} (h : ∀ s, step s (.code c) = s)
    (tty : TtyKind) : Keeps step (ttyPutcode tty c) := fun s => by
  rw [ttyPutcode]
  split_ifs
  · exact h s
  · rfl

theorem putcode1_keeps {σ : Type} {step : σ → TtySequence → σ} {c : TtyCode} {a : ℤ}
    (h : ∀ s, step s (.code1 c a) = s) (tty : TtyKind) : Keeps step (ttyPutcode1 tty c a) := fun s => by
  rw [ttyPutcode1]
  split_ifs
  · exact h s
  · rfl

/-- Moving the cursor leaves the rendition alone. -/
theorem ttyCursor_keeps (tty : TtyKind) (pos : TtyPosition) (x y : ℕ) :
    Keeps Rendition.apply (ttyCursor tty pos x y) := by
  have hcup : ∀ a b : ℤ, Keeps Rendition.apply (ttyPutcode2 tty .cup a b) := fun a b s => by
    rw [ttyPutcode2]
    split_ifs <;> rfl
  have hcolumn : ∀ x y, Keeps Rendition.apply (ttyCursorColumn tty pos x y) := fun x y => by
    unfold ttyCursorColumn
    dsimp only
    split_ifs
    · exact fun _ => rfl
    · exact putcode_keeps (fun _ => rfl) tty
    · exact putcode_keeps (fun _ => rfl) tty
    · exact putcode1_keeps (fun _ => rfl) tty
    · exact putcode1_keeps (fun _ => rfl) tty
    · exact putcode1_keeps (fun _ => rfl) tty
    · exact hcup _ _
  have hrow : ∀ x y, Keeps Rendition.apply (ttyCursorRow tty pos x y) := fun x y => by
    unfold ttyCursorRow
    dsimp only
    split_ifs
    · exact putcode_keeps (fun _ => rfl) tty
    · exact putcode_keeps (fun _ => rfl) tty
    · exact putcode1_keeps (fun _ => rfl) tty
    · exact hcup _ _
    · exact putcode1_keeps (fun _ => rfl) tty
    · exact putcode1_keeps (fun _ => rfl) tty
    · exact hcup _ _
  have hmove : ∀ x, Keeps Rendition.apply (ttyCursorMove tty pos x y) := fun x => by
    unfold ttyCursorMove
    split_ifs
    · exact hcup _ _
    · exact putcode_keeps (fun _ => rfl) tty
    · exact fun _ => rfl
    · exact hcolumn _ _
    · exact hrow _ _
    · exact hcup _ _
  unfold ttyCursor
  dsimp only
  split_ifs
  · exact .pure _
  · exact (hmove _).bind fun _ => .pure _
  · exact .pure _
  · exact (hmove _).bind fun _ => .pure _

theorem sgr_keeps (params : List ℕ) : Keeps Terminal.apply (ttyPuts params) := fun _ => rfl

theorem ttyReset_keeps (tty : TtyKind) (tc : GridCell) : Keeps Terminal.apply (ttyReset tty tc) := by
  rw [ttyReset]
  split_ifs
  · exact .pure _
  · exact (putcode_keeps (fun _ => rfl) tty).bind fun _ => (putcode_keeps (fun _ => rfl) tty).bind fun _ => .pure _
  · exact (Keeps.pure _).bind fun _ => (putcode_keeps (fun _ => rfl) tty).bind fun _ => .pure _

theorem ttyTry_keeps (tty : TtyKind) (g : Ground) (c : UInt8) : Keeps Terminal.apply (ttyTry tty g c) := by
  rw [ttyTry]
  split_ifs
  · exact (sgr_keeps _).bind fun _ => .pure _
  · exact (sgr_keeps _).bind fun _ => .pure _
  · exact .pure _

theorem ttyColoursFg_keeps (tty : TtyKind) (gc tc : GridCell) : Keeps Terminal.apply (ttyColoursFg tty gc tc) := by
  rw [ttyColoursFg]
  split_ifs
  · exact (ttyTry_keeps tty _ _).bind fun _ => .pure _
  · exact (sgr_keeps _).bind fun _ => .pure _
  · exact (putcode1_keeps (fun _ => rfl) tty).bind fun _ => .pure _

theorem ttyColoursBg_keeps (tty : TtyKind) (gc tc : GridCell) : Keeps Terminal.apply (ttyColoursBg tty gc tc) := by
  rw [ttyColoursBg]
  split_ifs
  · exact (ttyTry_keeps tty _ _).bind fun _ => .pure _
  · exact (sgr_keeps _).bind fun _ => .pure _
  · exact (putcode1_keeps (fun _ => rfl) tty).bind fun _ => .pure _
  · exact (putcode1_keeps (fun _ => rfl) tty).bind fun _ => .pure _

theorem ttyDefaults_keeps (tty : TtyKind) (gc tc : GridCell) : Keeps Terminal.apply (ttyDefaults tty gc tc) := by
  have hdefault : ∀ (g : Ground) gc tc, Keeps Terminal.apply (ttyDefault tty g gc tc) := fun g gc tc => by
    rw [ttyDefault]
    split_ifs
    · exact (sgr_keeps _).bind fun _ => .pure _
    · exact (putcode1_keeps (fun _ => by cases g <;> rfl) tty).bind fun _ => .pure _
    · exact (Keeps.pure _).bind fun _ => .pure _
    · exact .pure _
  rw [ttyDefaults]
  split_ifs
  · exact ttyReset_keeps tty tc
  · exact (hdefault _ _ _).bind fun _ => hdefault _ _ _
  · exact .pure _

theorem ttyColours_keeps (tty : TtyKind) (gc tc : GridCell) : Keeps Terminal.apply (ttyColours tty gc tc) := by
  rw [ttyColours]
  split_ifs
  · exact .pure _
  · refine (ttyDefaults_keeps tty gc tc).bind fun tc => ?_
    have hset : Keeps Terminal.apply (if toSet .fg gc tc then ttyColoursFg tty gc tc else pure tc) := by
      split_ifs
      · exact ttyColoursFg_keeps tty gc tc
      · exact .pure _
    refine hset.bind fun tc => ?_
    split_ifs
    · exact ttyColoursBg_keeps tty gc tc
    · exact .pure _

theorem Terminal.apply_of_isAttribute {c : TtyCode} (h : c.isAttribute = true) (t : Terminal) :
    t.apply (.code c) = t := by
  cases c <;> first | rfl | exact absurd h Bool.false_ne_true

theorem putAttributes_keeps (tty : TtyKind) (changed : UInt8) : Keeps Terminal.apply (putAttributes tty changed) := by
  have hall := attributeCodes_isAttribute tty
  rw [putAttributes]
  generalize attributeCodes tty = codes at hall
  induction codes with
  | nil => exact .pure _
  | cons entry codes ih =>
    have hentry : Keeps Terminal.apply (if changed &&& entry.1 ≠ 0 then ttyPutcode tty entry.2 else pure ⟨⟩) := by
      split_ifs
      · exact putcode_keeps (fun t => t.apply_of_isAttribute (hall entry List.mem_cons_self)) tty
      · exact .pure _
    exact hentry.bind fun _ => ih fun entry' h => hall entry' (List.mem_cons_of_mem _ h)

/-- Changing attributes and colours leaves the cursor alone. -/
theorem ttyAttributes_keeps (tty : TtyKind) (gc tc : GridCell) : Keeps Terminal.apply (ttyAttributes tty gc tc) := by
  have hclear : Keeps Terminal.apply (if tc.attr &&& ~~~(fixCell tty gc).attr ≠ 0 then ttyReset tty tc else pure tc) := by
    split_ifs
    · exact ttyReset_keeps tty tc
    · exact .pure _
  exact hclear.bind fun tc => (ttyColours_keeps tty _ _).bind fun tc => (putAttributes_keeps tty _).bind fun _ => .pure _

end Tmux
