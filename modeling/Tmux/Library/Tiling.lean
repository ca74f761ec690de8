import Mathlib.Algebra.GroupWithZero.Nat
import Mathlib.Data.List.Chain
import Mathlib.Order.Nat

/-!
# Tilings of a rectangle

A rectangle of a grid is cut by a line of positions, from one side to the opposite one, into two smaller ones, and
these are cut further (`Tiling`). The rectangles left, the tiles, lie inside, with a line between any two of them
(`Tiling.clear`). Nothing but lines is between tiles: every position is in a tile or on the line after one
(`Tiling.exists_reaches`), a tile that is not at a side has another one across the line at this side
(`Tiling.exists_left`, `exists_right`, `exists_up`, `exists_down`), and a line goes on in two opposite directions until
it is outside (`Tiling.gap_line`). So what is next to a tile, and not in it, is on a line (`Tiling.gap_of_around`).

Mirrored at the diagonal (`Rect.swap`), a tiling is one again (`Tiling.swap`), so that facts are proved along one axis.
-/

/-- A rectangle of positions, by its corner and its size. -/
@[ext] structure Rect where
  x : ℕ
  y : ℕ
  sx : ℕ
  sy : ℕ
  deriving DecidableEq, Repr

namespace Rect

/-- A rectangle mirrored at the diagonal. -/
def swap (r : Rect) : Rect := ⟨r.y, r.x, r.sy, r.sx⟩

/-- A position is in a rectangle. -/
def Has (r : Rect) (x y : ℕ) : Prop := (r.x ≤ x ∧ x < r.x + r.sx) ∧ r.y ≤ y ∧ y < r.y + r.sy

/-- A position is in the columns of a rectangle or in the one after them. -/
def Spans (r : Rect) (x : ℕ) : Prop := r.x ≤ x ∧ x ≤ r.x + r.sx

/-- A position is in a rectangle or on the lines after it. -/
def Reaches (r : Rect) (x y : ℕ) : Prop := r.Spans x ∧ r.swap.Spans y

/-- A position is in a rectangle or next to it, at a corner as well. -/
def Around (r : Rect) (x y : ℕ) : Prop := (r.x ≤ x + 1 ∧ x ≤ r.x + r.sx) ∧ r.y ≤ y + 1 ∧ y ≤ r.y + r.sy

/-- A rectangle is inside another one. -/
structure Within (s r : Rect) : Prop where
  left : r.x ≤ s.x
  right : s.x + s.sx ≤ r.x + r.sx
  top : r.y ≤ s.y
  bottom : s.y + s.sy ≤ r.y + r.sy

/-- There is a line between two rectangles. -/
def Clear (s t : Rect) : Prop :=
  (s.x + s.sx < t.x ∨ t.x + t.sx < s.x) ∨ s.y + s.sy < t.y ∨ t.y + t.sy < s.y

/-- Two rectangles next to each other and the line between them. -/
def beside (r s : Rect) : Rect := ⟨r.x, r.y, r.sx + 1 + s.sx, r.sy⟩

/-- Two rectangles one above the other and the line between them. -/
def above (r s : Rect) : Rect := ⟨r.x, r.y, r.sx, r.sy + 1 + s.sy⟩

/-- A rectangle is on the right of another one, with a line between them. -/
structure Follows (r s : Rect) : Prop where
  off : s.x = r.x + r.sx + 1
  across : s.y = r.y
  size : s.sy = r.sy

/-- A rectangle is cut into tiles. -/
inductive Tiling : Rect → List Rect → Prop
  | single (r : Rect) : Tiling r [r]
  | beside {r s : Rect} {l m : List Rect} (hr : Tiling r l) (hs : Tiling s m) (h : r.Follows s) :
    Tiling (r.beside s) (l ++ m)
  | above {r s : Rect} {l m : List Rect} (hr : Tiling r l) (hs : Tiling s m) (h : r.swap.Follows s.swap) :
    Tiling (r.above s) (l ++ m)

/-- A position is in no rectangle of a list. -/
def Gap (l : List Rect) (x y : ℕ) : Prop := ∀ s ∈ l, ¬s.Has x y

/-- Two positions along an axis are next to each other. -/
def Next (x x' : ℕ) : Prop := x' + 1 = x ∨ x' = x + 1

/-- On two opposite sides of a position there is a gap. -/
def GoesOn (l : List Rect) (x y : ℕ) : Prop :=
  (∀ x', Next x x' → Gap l x' y) ∨ ∀ y', Next y y' → Gap l x y'

variable {r s t : Rect} {l m : List Rect} {x y : ℕ}

@[simp] theorem swap_swap (r : Rect) : r.swap.swap = r := rfl

@[simp] theorem swap_above (r s : Rect) : (r.above s).swap = r.swap.beside s.swap := rfl

@[simp] theorem swap_beside (r s : Rect) : (r.beside s).swap = r.swap.above s.swap := rfl

theorem has_swap : r.swap.Has y x ↔ r.Has x y := and_comm

theorem within_swap (h : s.Within r) : s.swap.Within r.swap := ⟨h.3, h.4, h.1, h.2⟩

theorem clear_swap : s.swap.Clear t.swap ↔ s.Clear t := or_comm

theorem gap_swap : Gap (l.map swap) y x ↔ Gap l x y := by
  rw [Gap, List.forall_mem_map]
  exact forall₂_congr fun _ _ => not_congr has_swap

theorem goesOn_swap : GoesOn (l.map swap) y x ↔ GoesOn l x y := by
  rw [GoesOn, or_comm]
  exact or_congr (forall₂_congr fun _ _ => gap_swap) (forall₂_congr fun _ _ => gap_swap)

theorem gap_append : Gap (l ++ m) x y ↔ Gap l x y ∧ Gap m x y := List.forall_mem_append

theorem Within.refl (r : Rect) : r.Within r := ⟨le_rfl, le_rfl, le_rfl, le_rfl⟩

theorem Within.trans (h : s.Within t) (h' : t.Within r) : s.Within r :=
  ⟨h'.1.trans h.1, h.2.trans h'.2, h'.3.trans h.3, h.4.trans h'.4⟩

theorem Within.has (h : s.Within r) (hs : s.Has x y) : r.Has x y :=
  ⟨⟨h.1.trans hs.1.1, hs.1.2.trans_le h.2⟩, h.3.trans hs.2.1, hs.2.2.trans_le h.4⟩

theorem Clear.symm (h : s.Clear t) : t.Clear s := h.imp Or.symm Or.symm

instance : Std.Symm Clear := ⟨fun _ _ => Clear.symm⟩

theorem Reaches.around (h : r.Reaches x y) : r.Around x y :=
  ⟨⟨Nat.le_succ_of_le h.1.1, h.1.2⟩, Nat.le_succ_of_le h.2.1, h.2.2⟩

/-- What is next to a rectangle is not in another one, with a line between the two. -/
theorem Clear.not_has (h : s.Clear t) (hxy : s.Around x y) : ¬t.Has x y := by
  rintro ⟨⟨hx, hx'⟩, hy, hy'⟩
  obtain ⟨⟨hsx, hsx'⟩, hsy, hsy'⟩ := hxy
  rcases h with (h | h) | h | h <;> omega

theorem within_beside_left (r s : Rect) : r.Within (r.beside s) :=
  ⟨le_rfl, Nat.add_le_add_left (Nat.le_add_right_of_le (Nat.le_succ _)) _, le_rfl, le_rfl⟩

theorem Follows.within (h : r.Follows s) : s.Within (r.beside s) where
  left := h.off ▸ Nat.le_succ_of_le (Nat.le_add_right _ _)
  right := by
    rw [h.off]
    dsimp only [beside]
    omega
  top := h.across.ge
  bottom := by
    rw [h.across, h.size]
    rfl

/-- What is inside two rectangles next to each other has the line of these between it. -/
theorem Follows.clear (h : r.Follows s) (ht : t.Within r) {u : Rect} (hu : u.Within s) : t.Clear u := by
  have hleft := ht.right
  have hright := hu.left
  have hoff := h.off
  exact .inl (.inl (by omega))

theorem Follows.reaches (h : r.Follows s) (hxy : (r.beside s).Reaches x y) : r.Reaches x y ∨ s.Reaches x y := by
  obtain ⟨⟨hx, hx'⟩, hy, hy'⟩ := hxy
  have hoff := h.off
  have hacross := h.across
  have hsize := h.size
  dsimp only [beside, swap] at hx hx' hy hy'
  by_cases hr : x ≤ r.x + r.sx
  · exact .inl ⟨⟨hx, hr⟩, hy, hy'⟩
  · exact .inr ⟨⟨by omega, by omega⟩, by dsimp only [swap]; omega, by dsimp only [swap]; omega⟩

/-- The rows of two rectangles next to each other are the same. -/
theorem Follows.spans (h : r.Follows s) : s.swap.Spans y ↔ r.swap.Spans y := by
  rw [Spans, Spans, swap, swap, h.across, h.size]

theorem Within.spans (h : s.Within r) : r.swap.Spans s.y :=
  ⟨h.top, le_trans (Nat.le_add_right _ _) h.bottom⟩

/-- A position in the columns of two rectangles one above the other is in the rows of one of them. -/
theorem Follows.spans_above (h : r.swap.Follows s.swap) (hy : (r.above s).swap.Spans y) :
    r.swap.Spans y ∨ s.swap.Spans y := by
  have hx : r.Spans r.x := ⟨le_rfl, Nat.le_add_right _ _⟩
  exact (h.reaches (x := y) (y := r.x) ⟨hy, hx⟩).imp And.left And.left

/-- There is nothing of a rectangle in a column that it does not have. -/
theorem gap_of_within (hl : ∀ t ∈ l, t.Within r) (hx : x < r.x ∨ r.x + r.sx ≤ x) : Gap l x y := fun t ht hxy => by
  have hhas := (hl t ht).has hxy
  have hleft := hhas.1.1
  have hright := hhas.1.2
  omega

theorem Follows.has (h : r.Follows s) (hxy : (r.beside s).Has x y) :
    r.Has x y ∨ x = r.x + r.sx ∨ s.Has x y := by
  obtain ⟨⟨hx, hx'⟩, hy, hy'⟩ := hxy
  have hoff := h.off
  have hacross := h.across
  have hsize := h.size
  dsimp only [beside] at hx hx' hy hy'
  rcases Nat.lt_trichotomy x (r.x + r.sx) with hr | hr | hr
  · exact .inl ⟨⟨hx, hr⟩, hy, hy'⟩
  · exact .inr (.inl hr)
  · exact .inr (.inr ⟨⟨by omega, by omega⟩, by omega, by omega⟩)

/-- A line between two rectangles next to each other, or in one of them, goes on. -/
theorem Follows.goesOn (h : r.Follows s) (hl : ∀ t ∈ l, t.Within r) (hm : ∀ t ∈ m, t.Within s)
    (hr : r.Has x y → Gap l x y → GoesOn l x y) (hs : s.Has x y → Gap m x y → GoesOn m x y)
    (hxy : (r.beside s).Has x y) (hgap : Gap (l ++ m) x y) : GoesOn (l ++ m) x y := by
  have hoff := h.off
  obtain ⟨hgapl, hgapm⟩ := gap_append.1 hgap
  rcases h.has hxy with hxy | rfl | hxy
  · have hx := hxy.1.2
    refine (hr hxy hgapl).imp (fun hon x' hnext => ?_) fun hon y' hnext => ?_
    · exact gap_append.2 ⟨hon x' hnext, gap_of_within hm (by rcases hnext with hnext | hnext <;> omega)⟩
    · exact gap_append.2 ⟨hon y' hnext, gap_of_within hm (by omega)⟩
  · exact .inr fun y' _ => gap_append.2 ⟨gap_of_within hl (by omega), gap_of_within hm (by omega)⟩
  · have hx := hxy.1.1
    refine (hs hxy hgapm).imp (fun hon x' hnext => ?_) fun hon y' hnext => ?_
    · exact gap_append.2 ⟨gap_of_within hl (by rcases hnext with hnext | hnext <;> omega), hon x' hnext⟩
    · exact gap_append.2 ⟨gap_of_within hl (by omega), hon y' hnext⟩

namespace Tiling

/-- The tiles of a rectangle mirrored tile the rectangle mirrored. -/
theorem swap (h : Tiling r l) : Tiling r.swap (l.map Rect.swap) := by
  induction h with
  | single r => exact .single r.swap
  | beside _ _ h hr hs =>
    rw [List.map_append]
    exact .above hr hs h
  | above _ _ h hr hs =>
    rw [List.map_append]
    exact .beside hr hs h

/-- Tiles are inside the rectangle. -/
theorem within (h : Tiling r l) : ∀ t ∈ l, t.Within r := by
  induction h with
  | single r =>
    intro t ht
    obtain rfl := List.mem_singleton.1 ht
    exact .refl t
  | @beside r s _ _ _ _ h hr hs =>
    refine List.forall_mem_append.2 ⟨fun t ht => ?_, fun t ht => ?_⟩
    · exact (hr t ht).trans (within_beside_left r s)
    · exact (hs t ht).trans h.within
  | @above r s _ _ _ _ h hr hs =>
    refine List.forall_mem_append.2 ⟨fun t ht => ?_, fun t ht => ?_⟩
    · exact (hr t ht).trans (within_swap (within_beside_left r.swap s.swap))
    · exact (hs t ht).trans (within_swap h.within)

/-- There is a line between any two tiles. -/
theorem clear (h : Tiling r l) : l.Pairwise Clear := by
  induction h with
  | single r => exact List.pairwise_singleton _ r
  | beside hr hs h ihr ihs =>
    exact List.pairwise_append.2 ⟨ihr, ihs, fun a ha b hb => h.clear (hr.within a ha) (hs.within b hb)⟩
  | above hr hs h ihr ihs =>
    refine List.pairwise_append.2 ⟨ihr, ihs, fun a ha b hb => clear_swap.1 ?_⟩
    exact h.clear (within_swap (hr.within a ha)) (within_swap (hs.within b hb))

/-- A position next to a tile and not in it is in no tile. -/
theorem gap_of_around (h : Tiling r l) (ht : t ∈ l) (hxy : t.Around x y) (hnot : ¬t.Has x y) : Gap l x y := by
  intro s hs
  by_cases hst : t = s
  · exact hst ▸ hnot
  · exact (h.clear.forall ht hs hst).not_has hxy

/-- A position is in a tile or on a line after one. -/
theorem exists_reaches (h : Tiling r l) (hxy : r.Reaches x y) : ∃ t ∈ l, t.Reaches x y := by
  induction h with
  | single r => exact ⟨r, List.mem_singleton_self r, hxy⟩
  | beside _ _ h hr hs =>
    rcases h.reaches hxy with hxy | hxy
    · obtain ⟨t, ht, hxy⟩ := hr hxy
      exact ⟨t, List.mem_append_left _ ht, hxy⟩
    · obtain ⟨t, ht, hxy⟩ := hs hxy
      exact ⟨t, List.mem_append_right _ ht, hxy⟩
  | above _ _ h hr hs =>
    rcases h.reaches hxy.symm with hxy | hxy
    · obtain ⟨t, ht, hxy⟩ := hr hxy.symm
      exact ⟨t, List.mem_append_left _ ht, hxy⟩
    · obtain ⟨t, ht, hxy⟩ := hs hxy.symm
      exact ⟨t, List.mem_append_right _ ht, hxy⟩

/-- In every row, a tile is at the left side. -/
theorem exists_first (h : Tiling r l) (hy : r.swap.Spans y) : ∃ t ∈ l, t.x = r.x ∧ t.swap.Spans y := by
  induction h with
  | single r => exact ⟨r, List.mem_singleton_self r, rfl, hy⟩
  | beside _ _ _ hr _ =>
    obtain ⟨t, ht, hx, hy⟩ := hr hy
    exact ⟨t, List.mem_append_left _ ht, hx, hy⟩
  | above _ _ h hr hs =>
    rcases h.spans_above hy with hy | hy
    · obtain ⟨t, ht, hx, hy⟩ := hr hy
      exact ⟨t, List.mem_append_left _ ht, hx, hy⟩
    · obtain ⟨t, ht, hx, hy⟩ := hs hy
      exact ⟨t, List.mem_append_right _ ht, hx.trans h.across, hy⟩

/-- In every row, a tile is at the right side. -/
theorem exists_last (h : Tiling r l) (hy : r.swap.Spans y) :
    ∃ t ∈ l, t.x + t.sx = r.x + r.sx ∧ t.swap.Spans y := by
  induction h with
  | single r => exact ⟨r, List.mem_singleton_self r, rfl, hy⟩
  | @beside r s _ _ _ _ h _ hs =>
    obtain ⟨t, ht, hx, hy⟩ := hs (h.spans.2 hy)
    refine ⟨t, List.mem_append_right _ ht, ?_, hy⟩
    rw [hx, h.off]
    dsimp only [Rect.beside]
    omega
  | @above r s _ _ _ _ h hr hs =>
    rcases h.spans_above hy with hy | hy
    · obtain ⟨t, ht, hx, hy⟩ := hr hy
      exact ⟨t, List.mem_append_left _ ht, hx, hy⟩
    · obtain ⟨t, ht, hx, hy⟩ := hs hy
      have hside : s.x + s.sx = r.x + r.sx := congrArg₂ (· + ·) h.across h.size
      exact ⟨t, List.mem_append_right _ ht, hx.trans hside, hy⟩

/-- A tile that is not at the left side has another one across the line on its left. -/
theorem exists_left (h : Tiling r l) (ht : t ∈ l) (hx : t.x ≠ r.x) :
    ∃ u ∈ l, u.x + u.sx + 1 = t.x ∧ u.swap.Spans t.y := by
  induction h with
  | single r => exact absurd (congrArg Rect.x (List.mem_singleton.1 ht)) hx
  | @beside r s _ _ hr hs h ihr ihs =>
    rcases List.mem_append.1 ht with ht | ht
    · obtain ⟨u, hu, h⟩ := ihr ht hx
      exact ⟨u, List.mem_append_left _ hu, h⟩
    · by_cases hts : t.x = s.x
      · -- The tile is at the line between the two parts.
        obtain ⟨u, hu, hux, huy⟩ := hr.exists_last (h.spans.1 (hs.within t ht).spans)
        exact ⟨u, List.mem_append_left _ hu, by rw [hux, hts, h.off], huy⟩
      · obtain ⟨u, hu, h⟩ := ihs ht hts
        exact ⟨u, List.mem_append_right _ hu, h⟩
  | above _ _ h ihr ihs =>
    rcases List.mem_append.1 ht with ht | ht
    · obtain ⟨u, hu, h⟩ := ihr ht hx
      exact ⟨u, List.mem_append_left _ hu, h⟩
    · obtain ⟨u, hu, h⟩ := ihs ht fun hts => hx (hts.trans h.across)
      exact ⟨u, List.mem_append_right _ hu, h⟩

/-- A tile that is not at the right side has another one across the line on its right. -/
theorem exists_right (h : Tiling r l) (ht : t ∈ l) (hx : t.x + t.sx ≠ r.x + r.sx) :
    ∃ u ∈ l, u.x = t.x + t.sx + 1 ∧ u.swap.Spans t.y := by
  induction h with
  | single r => exact absurd (congrArg (fun r : Rect => r.x + r.sx) (List.mem_singleton.1 ht)) hx
  | @beside r s _ _ hr hs h ihr ihs =>
    rcases List.mem_append.1 ht with ht | ht
    · by_cases htr : t.x + t.sx = r.x + r.sx
      · -- The tile is at the line between the two parts.
        obtain ⟨u, hu, hux, huy⟩ := hs.exists_first (h.spans.2 (hr.within t ht).spans)
        exact ⟨u, List.mem_append_right _ hu, by rw [hux, htr, h.off], huy⟩
      · obtain ⟨u, hu, h⟩ := ihr ht htr
        exact ⟨u, List.mem_append_left _ hu, h⟩
    · have hside : s.x + s.sx = (r.beside s).x + (r.beside s).sx := by
        rw [h.off]
        dsimp only [Rect.beside]
        omega
      obtain ⟨u, hu, h⟩ := ihs ht fun hts => hx (hts.trans hside)
      exact ⟨u, List.mem_append_right _ hu, h⟩
  | @above r s _ _ _ _ h ihr ihs =>
    rcases List.mem_append.1 ht with ht | ht
    · obtain ⟨u, hu, h⟩ := ihr ht hx
      exact ⟨u, List.mem_append_left _ hu, h⟩
    · have hside : s.x + s.sx = r.x + r.sx := congrArg₂ (· + ·) h.across h.size
      obtain ⟨u, hu, h⟩ := ihs ht fun hts => hx (hts.trans hside)
      exact ⟨u, List.mem_append_right _ hu, h⟩

/-- In every column, a tile is at the top. -/
theorem exists_top (h : Tiling r l) (hx : r.Spans x) : ∃ t ∈ l, t.y = r.y ∧ t.Spans x := by
  obtain ⟨_, hmem, hy, hx⟩ := h.swap.exists_first hx
  obtain ⟨t, ht, rfl⟩ := List.mem_map.1 hmem
  exact ⟨t, ht, hy, hx⟩

/-- In every column, a tile is at the bottom. -/
theorem exists_bottom (h : Tiling r l) (hx : r.Spans x) : ∃ t ∈ l, t.y + t.sy = r.y + r.sy ∧ t.Spans x := by
  obtain ⟨_, hmem, hy, hx⟩ := h.swap.exists_last hx
  obtain ⟨t, ht, rfl⟩ := List.mem_map.1 hmem
  exact ⟨t, ht, hy, hx⟩

/-- A tile that is not at the top has another one across the line above it. -/
theorem exists_up (h : Tiling r l) (ht : t ∈ l) (hy : t.y ≠ r.y) :
    ∃ u ∈ l, u.y + u.sy + 1 = t.y ∧ u.Spans t.x := by
  obtain ⟨_, hmem, huy, hux⟩ := h.swap.exists_left (List.mem_map_of_mem ht) hy
  obtain ⟨u, hu, rfl⟩ := List.mem_map.1 hmem
  exact ⟨u, hu, huy, hux⟩

/-- A tile that is not at the bottom has another one across the line below it. -/
theorem exists_down (h : Tiling r l) (ht : t ∈ l) (hy : t.y + t.sy ≠ r.y + r.sy) :
    ∃ u ∈ l, u.y = t.y + t.sy + 1 ∧ u.Spans t.x := by
  obtain ⟨_, hmem, huy, hux⟩ := h.swap.exists_right (List.mem_map_of_mem ht) hy
  obtain ⟨u, hu, rfl⟩ := List.mem_map.1 hmem
  exact ⟨u, hu, huy, hux⟩

/-- A line goes on in two opposite directions. -/
theorem gap_line (h : Tiling r l) (hxy : r.Has x y) (hgap : Gap l x y) : GoesOn l x y := by
  induction h with
  | single r => exact absurd hxy (hgap r (List.mem_singleton_self r))
  | beside hr hs h ihr ihs => exact h.goesOn hr.within hs.within ihr ihs hxy hgap
  | above hr hs h ihr ihs =>
    rw [← goesOn_swap, List.map_append]
    rw [← gap_swap, List.map_append] at hgap
    refine h.goesOn hr.swap.within hs.swap.within (fun hxy hgap => ?_) (fun hxy hgap => ?_) hxy.symm hgap
    · exact goesOn_swap.2 (ihr (has_swap.1 hxy) (gap_swap.1 hgap))
    · exact goesOn_swap.2 (ihs (has_swap.1 hxy) (gap_swap.1 hgap))

section Row

variable {α : Type*} {rect : α → Rect} {tiles : α → List Rect}

/-- Tilings of rectangles that follow one another tile the rectangle that these and the lines between them fill. -/
theorem row {a : α} {as : List α} (h : ∀ b ∈ a :: as, Tiling (rect b) (tiles b))
    (hchain : (a :: as).IsChain fun b c => (rect b).Follows (rect c)) {r : Rect} (hx : r.x = (rect a).x)
    (hy : r.y = (rect a).y) (hsy : r.sy = (rect a).sy)
    (hsx : r.sx + 1 = ((a :: as).map fun b => (rect b).sx).sum + (a :: as).length) :
    Tiling r ((a :: as).flatMap tiles) := by
  induction as generalizing a r with
  | nil =>
    obtain rfl : r = rect a := Rect.ext hx hy (by simpa using hsx) hsy
    simpa using h a (List.mem_singleton_self a)
  | cons b as ih =>
    obtain ⟨hab, hchain⟩ := List.isChain_cons_cons.1 hchain
    rw [List.forall_mem_cons] at h
    rw [List.map_cons, List.sum_cons, List.length_cons] at hsx
    -- What is after the first rectangle and its line.
    have hrest := ih (r := ⟨(rect b).x, (rect b).y, r.sx - (rect a).sx - 1, (rect b).sy⟩) h.2 hchain rfl rfl rfl
      (by rw [List.length_cons] at hsx ⊢; rw [List.map_cons, List.sum_cons] at hsx ⊢; dsimp only; omega)
    have hr : r = (rect a).beside ⟨(rect b).x, (rect b).y, r.sx - (rect a).sx - 1, (rect b).sy⟩ := by
      refine Rect.ext hx hy ?_ hsy
      rw [List.map_cons, List.sum_cons, List.length_cons] at hsx
      dsimp only [Rect.beside]
      omega
    rw [hr, List.flatMap_cons]
    exact .beside h.1 hrest ⟨hab.1, hab.2, hab.3⟩

/-- Tilings of rectangles one below the other tile the rectangle that these and the lines between them fill. -/
theorem column {a : α} {as : List α} (h : ∀ b ∈ a :: as, Tiling (rect b) (tiles b))
    (hchain : (a :: as).IsChain fun b c => (rect b).swap.Follows (rect c).swap) {r : Rect} (hx : r.x = (rect a).x)
    (hy : r.y = (rect a).y) (hsx : r.sx = (rect a).sx)
    (hsy : r.sy + 1 = ((a :: as).map fun b => (rect b).sy).sum + (a :: as).length) :
    Tiling r ((a :: as).flatMap tiles) := by
  have hrow := row (fun b hb => (h b hb).swap) hchain (r := r.swap) hy hx hsx hsy
  simpa [List.map_flatMap, Function.comp_def] using hrow.swap

end Row

end Tiling

end Rect
