import Tmux.Layout.Tiles

/-!
# The borders of panes

A position of the screen is inside a pane or on a border (`screenRedrawCheckCell`). Whether it is on one is decided by
the first pane in the list that has the position inside or around it (`screenRedrawCellBorder`), and how the border is
drawn by the four positions next to it.

In a window that is filled it does not matter which pane is the first: a position around a pane is on a border if it is
in no pane (`screenRedrawCellBorder_iff`). A border goes on in two opposite directions, so that a line or a join is drawn
whose arms are the sides with a border or the edge of the window (`screenRedrawCheckCell_draws`).
-/

namespace Tmux

open Rect

/-- What there is at a position: a pane, a border with arms on some sides, or nothing. -/
inductive BorderCell
  | inside
  | leftright
  | topbottom
  | topleft
  | topright
  | bottomleft
  | bottomright
  | topjoin
  | bottomjoin
  | leftjoin
  | rightjoin
  | join
  | outside
  deriving DecidableEq, Repr

/-- Check if a position is on the border of a particular pane: there is none if it is outside of the pane. -/
def screenRedrawCellBorder1 (wp : WindowPane) (px py : ℕ) : Option Bool :=
  -- Inside the pane.
  if px ≥ wp.xoff ∧ px < wp.xoff + wp.sx ∧ py ≥ wp.yoff ∧ py < wp.yoff + wp.sy then some false
  -- Left and right borders.
  else if ((wp.yoff = 0 ∨ py ≥ wp.yoff - 1) ∧ py ≤ wp.yoff + wp.sy) ∧
      ((wp.xoff ≠ 0 ∧ px = wp.xoff - 1) ∨ px = wp.xoff + wp.sx) then some true
  -- Top and bottom borders.
  else if ((wp.xoff = 0 ∨ px ≥ wp.xoff - 1) ∧ px ≤ wp.xoff + wp.sx) ∧
      ((wp.yoff ≠ 0 ∧ py = wp.yoff - 1) ∨ py = wp.yoff + wp.sy) then some true
  else none

/-- Check if a position is on the border of a pane. -/
def screenRedrawCellBorder (w : Window) (px py : ℕ) : Bool :=
  (w.panes.findSome? fun wp =>
    if !windowPaneVisible w wp then none else screenRedrawCellBorder1 wp px py).getD false

/-- The kind of a border by its arms, a bit each for left, right, top and bottom. Only one arm does not make sense. -/
def borderCell : ℕ → Option BorderCell
  | 15 => some .join
  | 14 => some .bottomjoin
  | 13 => some .topjoin
  | 12 => some .topbottom
  | 11 => some .rightjoin
  | 10 => some .bottomright
  | 9 => some .topright
  | 7 => some .leftjoin
  | 6 => some .bottomleft
  | 5 => some .topleft
  | 3 => some .leftright
  | _ => none

/-- A bit of the arms of a border. -/
def armBit (arm : Bool) (bit : ℕ) : ℕ := if arm then bit else 0

/-- What there is at a position of a pane or around it. -/
def checkBorder (w : Window) (px py : ℕ) : Option BorderCell :=
  -- If definitely inside, return so.
  if !screenRedrawCellBorder w px py then some .inside
  else
    let left := armBit (px = 0 || screenRedrawCellBorder w (px - 1) py) 8
    let right := armBit (px ≤ w.sx && screenRedrawCellBorder w (px + 1) py) 4
    let top := armBit (py = 0 || screenRedrawCellBorder w px (py - 1)) 2
    let bottom := armBit (py ≤ w.sy && screenRedrawCellBorder w px (py + 1)) 1
    borderCell (left ||| right ||| top ||| bottom)

/-- Check if a position is inside a pane. -/
def screenRedrawCheckCell (w : Window) (px py : ℕ) : BorderCell :=
  if px > w.sx ∨ py > w.sy then .outside
  else
    (w.panes.findSome? fun wp =>
      if !windowPaneVisible w wp then none
      -- If outside the pane and its border, skip it.
      else if (wp.xoff ≠ 0 ∧ px < wp.xoff - 1) ∨ px > wp.xoff + wp.sx ∨ (wp.yoff ≠ 0 ∧ py < wp.yoff - 1) ∨
          py > wp.yoff + wp.sy then none
      else checkBorder w px py).getD .outside

/-- The arms of a border. -/
structure Arms where
  left : Bool
  right : Bool
  top : Bool
  bottom : Bool
  deriving DecidableEq, Repr

/-- The arms with which a border is drawn. -/
def BorderCell.arms? : BorderCell → Option Arms
  | .inside => none
  | .leftright => some ⟨false, false, true, true⟩
  | .topbottom => some ⟨true, true, false, false⟩
  | .topleft => some ⟨false, true, false, true⟩
  | .topright => some ⟨true, false, false, true⟩
  | .bottomleft => some ⟨false, true, true, false⟩
  | .bottomright => some ⟨true, false, true, false⟩
  | .topjoin => some ⟨true, true, false, true⟩
  | .bottomjoin => some ⟨true, true, true, false⟩
  | .leftjoin => some ⟨false, true, true, true⟩
  | .rightjoin => some ⟨true, false, true, true⟩
  | .join => some ⟨true, true, true, true⟩
  | .outside => none

/-- A position is inside a pane of a window. -/
def Window.InPane (w : Window) (x y : ℕ) : Prop := ∃ p ∈ w.panes, p.rect.Has x y

/-- A position is on a border of a window: inside it, and in no pane. -/
def Window.OnBorder (w : Window) (x y : ℕ) : Prop := w.rect.Has x y ∧ ¬w.InPane x y

/-! ## One pane -/

section Pane

variable {wp : WindowPane} {px py : ℕ}

theorem screenRedrawCellBorder1_inside : screenRedrawCellBorder1 wp px py = some false ↔ wp.rect.Has px py := by
  rw [Rect.Has, and_assoc]
  unfold screenRedrawCellBorder1
  constructor
  · intro h
    split_ifs at h with hin
    · exact hin
    all_goals cases h
  · intro h
    exact if_pos h

/-- What is on the border of a pane is around it. -/
theorem around_of_border (h : screenRedrawCellBorder1 wp px py = some true) : wp.rect.Around px py := by
  have hxy : (wp.xoff ≤ px + 1 ∧ px ≤ wp.xoff + wp.sx) ∧ wp.yoff ≤ py + 1 ∧ py ≤ wp.yoff + wp.sy := by
    unfold screenRedrawCellBorder1 at h
    split_ifs at h with hin hsides htopbottom
    · cases h
    · obtain ⟨hy, hx⟩ := hsides
      omega
    · obtain ⟨hx, hy⟩ := htopbottom
      omega
  exact hxy

/-- A position on the lines after a pane is on its border. -/
theorem border_of_reaches (h : wp.rect.Reaches px py) (hnot : ¬wp.rect.Has px py) :
    screenRedrawCellBorder1 wp px py = some true := by
  obtain ⟨⟨hx, hx'⟩, hy, hy'⟩ := h
  rw [Rect.Has, and_assoc] at hnot
  dsimp only [WindowPane.rect, Rect.swap] at hx hx' hy hy' hnot
  unfold screenRedrawCellBorder1
  rw [if_neg hnot]
  split_ifs with hsides htopbottom
  · rfl
  · rfl
  · omega

end Pane

/-! ## Which border -/

/-- A scan whose entries give one result or none gives this result. -/
theorem findSome?_eq_some {α β : Type*} {f : α → Option β} {l : List α} {b : β} (hex : ∃ a ∈ l, f a ≠ none)
    (hall : ∀ a ∈ l, ∀ c, f a = some c → c = b) : l.findSome? f = some b := by
  cases hfind : l.findSome? f with
  | none =>
    obtain ⟨a, ha, hne⟩ := hex
    exact absurd (List.findSome?_eq_none_iff.1 hfind a ha) hne
  | some c =>
    obtain ⟨a, ha, hc⟩ := List.exists_of_findSome?_eq_some hfind
    exact congrArg some (hall a ha c hc)

section Filled

variable {w : Window} {root : LayoutCell} {px py : ℕ}

theorem not_visible_eq (h : Filled w root) {p : WindowPane} (hp : p ∈ w.panes) :
    ¬(!windowPaneVisible w p) = true := by
  rw [h.visible p hp, Bool.not_true]
  exact Bool.false_ne_true

/-- A position next to a pane and not in it is in no pane. -/
theorem Filled.not_inPane (h : Filled w root) {p : WindowPane} (hp : p ∈ w.panes) (hxy : p.rect.Around px py)
    (hnot : ¬p.rect.Has px py) : ¬w.InPane px py := by
  obtain ⟨l, htiling, hmem⟩ := h.exists_tiling
  rintro ⟨q, hq, hhas⟩
  exact htiling.gap_of_around ((hmem _).2 ⟨p, hp, rfl⟩) hxy hnot _ ((hmem _).2 ⟨q, hq, rfl⟩) hhas

/-- A position of the window or on the lines after it is in a pane or on the lines after one. -/
theorem Filled.exists_reaches (h : Filled w root) (hx : px ≤ w.sx) (hy : py ≤ w.sy) :
    ∃ p ∈ w.panes, p.rect.Reaches px py := by
  obtain ⟨l, htiling, hmem⟩ := h.exists_tiling
  have hreaches : w.rect.Reaches px py :=
    ⟨⟨Nat.zero_le _, hx.trans (Nat.zero_add _).ge⟩, Nat.zero_le _, hy.trans (Nat.zero_add _).ge⟩
  obtain ⟨t, ht, hreaches⟩ := htiling.exists_reaches hreaches
  obtain ⟨p, hp, rfl⟩ := (hmem t).1 ht
  exact ⟨p, hp, hreaches⟩

/-- A position of the window or on the lines after it is on a border exactly if it is in no pane. -/
theorem screenRedrawCellBorder_iff (h : Filled w root) (hx : px ≤ w.sx) (hy : py ≤ w.sy) :
    screenRedrawCellBorder w px py = true ↔ ¬w.InPane px py := by
  obtain ⟨p, hp, hreaches⟩ := h.exists_reaches hx hy
  unfold screenRedrawCellBorder
  by_cases hin : w.InPane px py
  · obtain ⟨q, hq, hhas⟩ := id hin
    have hfind := findSome?_eq_some (b := false) (l := w.panes)
      (f := fun wp => if !windowPaneVisible w wp then none else screenRedrawCellBorder1 wp px py)
      ⟨q, hq, by rw [if_neg (not_visible_eq h hq), screenRedrawCellBorder1_inside.2 hhas]; simp⟩
      fun a ha c hc => by
        rw [if_neg (not_visible_eq h ha)] at hc
        cases c with
        | false => rfl
        | true =>
          -- The position would be around one pane and in another.
          by_cases hself : a.rect.Has px py
          · rw [screenRedrawCellBorder1_inside.2 hself] at hc
            cases hc
          · exact absurd hin (h.not_inPane ha (around_of_border hc) hself)
    rw [hfind]
    exact iff_of_false Bool.false_ne_true (not_not_intro hin)
  · have hnot : ∀ q ∈ w.panes, ¬q.rect.Has px py := fun q hq hhas => hin ⟨q, hq, hhas⟩
    have hfind := findSome?_eq_some (b := true) (l := w.panes)
      (f := fun wp => if !windowPaneVisible w wp then none else screenRedrawCellBorder1 wp px py)
      ⟨p, hp, by rw [if_neg (not_visible_eq h hp), border_of_reaches hreaches (hnot p hp)]; simp⟩
      fun a ha c hc => by
        rw [if_neg (not_visible_eq h ha)] at hc
        cases c with
        | false => exact absurd (screenRedrawCellBorder1_inside.1 hc) (hnot a ha)
        | true => rfl
    rw [hfind]
    exact iff_of_true rfl hin

/-- What there is at a position is the same for every pane that is not skipped. -/
theorem screenRedrawCheckCell_eq (h : Filled w root) (hx : px < w.sx) (hy : py < w.sy) {c : BorderCell}
    (hc : checkBorder w px py = some c) : screenRedrawCheckCell w px py = c := by
  obtain ⟨p, hp, hreaches⟩ := h.exists_reaches hx.le hy.le
  have haround : (p.xoff ≤ px + 1 ∧ px ≤ p.xoff + p.sx) ∧ p.yoff ≤ py + 1 ∧ py ≤ p.yoff + p.sy := hreaches.around
  unfold screenRedrawCheckCell
  rw [if_neg (by omega), findSome?_eq_some (b := c)]
  · rfl
  · refine ⟨p, hp, ?_⟩
    rw [if_neg (not_visible_eq h hp), if_neg (by omega), hc]
    exact Option.some_ne_none c
  · intro a ha d hd
    rw [if_neg (not_visible_eq h ha)] at hd
    split_ifs at hd with hskip
    · exact Option.some_inj.1 (hd.symm.trans hc)

/-! ## Arms -/

/-- A border with arms on two opposite sides is drawn with its arms. -/
theorem borderCell_arms : ∀ left right top bottom : Bool, (left && right || top && bottom) = true →
    ∃ c, borderCell (armBit left 8 ||| armBit right 4 ||| armBit top 2 ||| armBit bottom 1) = some c ∧
      c.arms? = some ⟨left, right, top, bottom⟩ := by
  intro left right top bottom hopposite
  cases left <;> cases right <;> cases top <;> cases bottom <;>
    first | exact ⟨_, rfl, rfl⟩ | cases hopposite

/-- The sides of a position on which there is a border, as they are looked for. -/
def bordersAround (w : Window) (px py : ℕ) : Arms where
  left := px = 0 || screenRedrawCellBorder w (px - 1) py
  right := px ≤ w.sx && screenRedrawCellBorder w (px + 1) py
  top := py = 0 || screenRedrawCellBorder w px (py - 1)
  bottom := py ≤ w.sy && screenRedrawCellBorder w px (py + 1)

/-- The arms of a position of a window are the sides on which there is a border or the edge. -/
structure Window.HasArms (w : Window) (px py : ℕ) (arms : Arms) : Prop where
  left : arms.left = true ↔ px = 0 ∨ w.OnBorder (px - 1) py
  right : arms.right = true ↔ px + 1 = w.sx ∨ w.OnBorder (px + 1) py
  top : arms.top = true ↔ py = 0 ∨ w.OnBorder px (py - 1)
  bottom : arms.bottom = true ↔ py + 1 = w.sy ∨ w.OnBorder px (py + 1)

/-- Inside the window a position is on a border if it is in no pane. -/
theorem onBorder_iff (hx : px < w.sx) (hy : py < w.sy) : w.OnBorder px py ↔ ¬w.InPane px py :=
  and_iff_right ⟨⟨Nat.zero_le _, hx.trans_eq (Nat.zero_add _).symm⟩, Nat.zero_le _,
    hy.trans_eq (Nat.zero_add _).symm⟩

theorem Filled.lt_of_inPane (h : Filled w root) (hin : w.InPane px py) : px < w.sx ∧ py < w.sy := by
  obtain ⟨l, htiling, hmem⟩ := h.exists_tiling
  obtain ⟨p, hp, hhas⟩ := hin
  have hwindow := (htiling.within _ ((hmem _).2 ⟨p, hp, rfl⟩)).has hhas
  exact ⟨hwindow.1.2.trans_eq (Nat.zero_add _), hwindow.2.2.trans_eq (Nat.zero_add _)⟩

/-- On the line after the window or in it, a border is found where there is one or the edge. -/
theorem screenRedrawCellBorder_edge (h : Filled w root) (hx : px ≤ w.sx) (hy : py ≤ w.sy) :
    screenRedrawCellBorder w px py = true ↔ (px = w.sx ∨ py = w.sy) ∨ w.OnBorder px py := by
  rw [screenRedrawCellBorder_iff h hx hy]
  by_cases hedge : px = w.sx ∨ py = w.sy
  · refine iff_of_true (fun hin => ?_) (.inl hedge)
    have hlt := h.lt_of_inPane hin
    omega
  · rw [or_iff_right hedge, onBorder_iff (by omega) (by omega)]

theorem bordersAround_hasArms (h : Filled w root) (hx : px < w.sx) (hy : py < w.sy) :
    w.HasArms px py (bordersAround w px py) where
  left := by
    rw [bordersAround, Bool.or_eq_true, decide_eq_true_iff, screenRedrawCellBorder_edge h (by omega) hy.le]
    refine or_congr_right' fun hpx => or_iff_right ?_
    omega
  right := by
    rw [bordersAround, Bool.and_eq_true, decide_eq_true_iff, screenRedrawCellBorder_edge h hx hy.le,
      and_iff_right hx.le]
    refine or_congr_left (or_iff_left ?_)
    omega
  top := by
    rw [bordersAround, Bool.or_eq_true, decide_eq_true_iff, screenRedrawCellBorder_edge h hx.le (by omega)]
    refine or_congr_right' fun hpy => or_iff_right ?_
    omega
  bottom := by
    rw [bordersAround, Bool.and_eq_true, decide_eq_true_iff, screenRedrawCellBorder_edge h hx.le hy,
      and_iff_right hy.le]
    refine or_congr_left (or_iff_right ?_)
    omega

/-- A border goes on in two opposite directions. -/
theorem bordersAround_opposite (h : Filled w root) (hx : px < w.sx) (hy : py < w.sy) (hborder : w.OnBorder px py) :
    ((bordersAround w px py).left && (bordersAround w px py).right ||
      (bordersAround w px py).top && (bordersAround w px py).bottom) = true := by
  obtain ⟨l, htiling, hmem⟩ := h.exists_tiling
  have hgap : ∀ x y, Gap l x y ↔ ¬w.InPane x y := fun x y => by
    constructor
    · rintro hgap ⟨p, hp, hhas⟩
      exact hgap _ ((hmem _).2 ⟨p, hp, rfl⟩) hhas
    · intro hin t ht hhas
      obtain ⟨p, hp, rfl⟩ := (hmem t).1 ht
      exact hin ⟨p, hp, hhas⟩
  have hfound : ∀ x y, x ≤ w.sx → y ≤ w.sy → Gap l x y → screenRedrawCellBorder w x y = true :=
    fun x y hx hy hxy => (screenRedrawCellBorder_iff h hx hy).2 ((hgap x y).1 hxy)
  rw [Bool.or_eq_true, Bool.and_eq_true, Bool.and_eq_true]
  refine (htiling.gap_line hborder.1 ((hgap px py).2 hborder.2)).imp (fun hon => ⟨?_, ?_⟩) fun hon => ⟨?_, ?_⟩
  · rw [bordersAround, Bool.or_eq_true, decide_eq_true_iff]
    exact or_iff_not_imp_left.2 fun hpx => hfound _ _ (by omega) hy.le (hon _ (.inl (by omega)))
  · rw [bordersAround, Bool.and_eq_true, decide_eq_true_iff]
    exact ⟨hx.le, hfound _ _ hx hy.le (hon _ (.inr rfl))⟩
  · rw [bordersAround, Bool.or_eq_true, decide_eq_true_iff]
    exact or_iff_not_imp_left.2 fun hpy => hfound _ _ hx.le (by omega) (hon _ (.inl (by omega)))
  · rw [bordersAround, Bool.and_eq_true, decide_eq_true_iff]
    exact ⟨hy.le, hfound _ _ hx.le hy (hon _ (.inr rfl))⟩

/-- In a window that is filled, a position is found inside exactly if it is in a pane, and otherwise on a border whose
    arms are the sides with a border or the edge of the window. -/
theorem screenRedrawCheckCell_draws (h : Filled w root) (hx : px < w.sx) (hy : py < w.sy) :
    (screenRedrawCheckCell w px py = .inside ↔ w.InPane px py) ∧
      (¬w.InPane px py → ∃ arms, (screenRedrawCheckCell w px py).arms? = some arms ∧ w.HasArms px py arms) ∧
      screenRedrawCheckCell w px py ≠ .outside := by
  by_cases hin : w.InPane px py
  · have hinside : screenRedrawCheckCell w px py = .inside := by
      refine screenRedrawCheckCell_eq h hx hy ?_
      have hnot : screenRedrawCellBorder w px py = false :=
        Bool.eq_false_iff.2 fun hborder => (screenRedrawCellBorder_iff h hx.le hy.le).1 hborder hin
      rw [checkBorder, hnot, Bool.not_false, if_pos rfl]
    rw [hinside]
    exact ⟨iff_of_true rfl hin, fun hout => absurd hin hout, by decide⟩
  · have hborder := (onBorder_iff hx hy).2 hin
    obtain ⟨c, hc, harms⟩ := borderCell_arms _ _ _ _ (bordersAround_opposite h hx hy hborder)
    have hcheck : screenRedrawCheckCell w px py = c := by
      refine screenRedrawCheckCell_eq h hx hy ?_
      rw [checkBorder, (screenRedrawCellBorder_iff h hx.le hy.le).2 hin, Bool.not_true, if_neg Bool.false_ne_true]
      exact hc
    rw [hcheck]
    refine ⟨iff_of_false (fun hinside => ?_) hin, fun _ => ⟨_, harms, bordersAround_hasArms h hx hy⟩, fun hout => ?_⟩
    · rw [hinside] at harms
      cases harms
    · rw [hout] at harms
      cases harms

/-- Where the separators of three panes meet, a join is drawn. -/
theorem screenRedrawCheckCell_draws_join : screenRedrawCheckCell joinWindow 2 2 = .leftjoin ∧
    (¬joinWindow.InPane 2 2 → ∃ arms, (screenRedrawCheckCell joinWindow 2 2).arms? = some arms ∧
      joinWindow.HasArms 2 2 arms) :=
  ⟨by decide, (screenRedrawCheckCell_draws joinWindow_filled (by decide) (by decide)).2.1⟩

end Filled

end Tmux
