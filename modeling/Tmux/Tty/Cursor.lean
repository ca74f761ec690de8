import Tmux.Tty.Term

/-!
# The cursor of a terminal

The cursor is moved by the shortest of a number of sequences (`ttyCursor`): those relative to its position where that
and the scroll region are tracked, and an absolute one elsewhere. A position or a margin that is not known is
tracked as the largest word, which takes part in the comparisons as a number.

On a terminal with the cursor of a VT100 (`Terminal`), the cursor gets where an absolute sequence moves it to, and
nothing scrolls, but for the moves that meet a margin or start from a row that is not known (`Misses`,
`ttyCursor_iff`).
-/

namespace Tmux

open Device

/-! ## The sequences -/

/-- What stands for a position that is not known. -/
def unknown : ℕ := 4294967295

/-- An integer as an unsigned word. -/
def toWord (n : ℤ) : ℕ := (n % 4294967296).toNat

/-- An integer as a signed word. -/
def toSigned (n : ℤ) : ℤ := (n + 2147483648) % 4294967296 - 2147483648

/-- What is tracked of the cursor and the scroll region of a terminal, and its width. -/
structure TtyPosition where
  sx : ℕ
  cx : ℕ
  cy : ℕ
  rupper : ℕ
  rlower : ℕ
  deriving DecidableEq, Repr

section

variable (tty : TtyKind) (pos : TtyPosition)

/-- Move the column only, the row staying the same. -/
def ttyCursorColumn (cx cy : ℕ) : TtyWriter PUnit :=
  let change := toSigned (pos.cx - cx)
  if cx = 0 then ttyPutc 13
  else if cx = toWord (pos.cx - 1) ∧ tty.has .cub1 then ttyPutcode tty .cub1
  else if cx = toWord (pos.cx + 1) ∧ tty.has .cuf1 then ttyPutcode tty .cuf1
  else if change.natAbs > cx ∧ tty.has .hpa then ttyPutcode1 tty .hpa cx
  else if 0 < change ∧ tty.has .cub then ttyPutcode1 tty .cub change
  else if change < 0 ∧ tty.has .cuf then ttyPutcode1 tty .cuf (-change)
  else ttyPutcode2 tty .cup cy cx

/-- Move the row only, the column staying the same. -/
def ttyCursorRow (cx cy : ℕ) : TtyWriter PUnit :=
  let change := toSigned (pos.cy - cy)
  if pos.cy ≠ pos.rupper ∧ cy = toWord (pos.cy - 1) ∧ tty.has .cuu1 then ttyPutcode tty .cuu1
  else if pos.cy ≠ pos.rlower ∧ cy = toWord (pos.cy + 1) ∧ tty.has .cud1 then ttyPutcode tty .cud1
  -- A change larger than the absolute position, or one that would cross the scroll region.
  else if change.natAbs > cy ∨ (change < 0 ∧ toWord (cy - change) > pos.rlower) ∨
      (0 < change ∧ toWord (cy - change) < pos.rupper) then
    if tty.has .vpa then ttyPutcode1 tty .vpa cy else ttyPutcode2 tty .cup cy cx
  else if 0 < change ∧ tty.has .cuu then ttyPutcode1 tty .cuu change
  else if change < 0 ∧ tty.has .cud then ttyPutcode1 tty .cud (-change)
  else ttyPutcode2 tty .cup cy cx

/-- The sequence that moves the cursor. -/
def ttyCursorMove (cx cy : ℕ) : TtyWriter PUnit :=
  -- At the very end of the line, just use absolute movement.
  if pos.cx > toWord (pos.sx - 1) then ttyPutcode2 tty .cup cy cx
  else if cx = 0 ∧ cy = 0 ∧ tty.has .home then ttyPutcode tty .home
  else if cx = 0 ∧ cy = toWord (pos.cy + 1) ∧ pos.cy ≠ pos.rlower then do
    ttyPutc 13
    ttyPutc 10
  else if cy = pos.cy then ttyCursorColumn tty pos cx cy
  else if cx = pos.cx then ttyCursorRow tty pos cx cy
  else ttyPutcode2 tty .cup cy cx

/-- Move the cursor to an absolute position. -/
def ttyCursor (cx cy : ℕ) : TtyWriter TtyPosition :=
  let cx := if cx > toWord (pos.sx - 1) then toWord (pos.sx - 1) else cx
  if cx = pos.cx ∧ cy = pos.cy then pure pos
  else do
    ttyCursorMove tty pos cx cy
    pure { pos with cx, cy }

end

/-! ## The terminal -/

/-- The size of a terminal, its cursor, the top and bottom margins of its scroll region, and how often it has
    scrolled. After the last column is written, the cursor is behind it. -/
structure Terminal where
  sx : ℕ
  sy : ℕ
  x : ℕ
  y : ℕ
  top : ℕ
  bottom : ℕ
  scrolls : ℕ := 0
  deriving DecidableEq, Repr

namespace Terminal

/-- The cursor is on the screen, and the margins are. -/
structure Ok (t : Terminal) : Prop where
  width : 0 < t.sx ∧ t.sx < 2147483648
  height : t.sy < 2147483648
  x : t.x ≤ t.sx
  y : t.y < t.sy
  margins : t.top ≤ t.bottom ∧ t.bottom < t.sy

variable (t : Terminal)

def left (n : ℕ) : Terminal := { t with x := min t.x (t.sx - 1) - n }

def right (n : ℕ) : Terminal := { t with x := min (t.x + n) (t.sx - 1) }

/-- Move up, but not across the top margin. -/
def up (n : ℕ) : Terminal := { t with y := if t.top ≤ t.y then max (t.y - n) t.top else t.y - n }

/-- Move down, but not across the bottom margin. -/
def down (n : ℕ) : Terminal := { t with y := if t.y ≤ t.bottom then min (t.y + n) t.bottom else min (t.y + n) (t.sy - 1) }

/-- A line feed scrolls at the bottom margin. -/
def lineFeed : Terminal :=
  if t.y = t.bottom then { t with scrolls := t.scrolls + 1 } else { t with y := min (t.y + 1) (t.sy - 1) }

/-- Move to an absolute position. -/
def moveTo (x y : ℕ) : Terminal := { t with x := min x (t.sx - 1), y := min y (t.sy - 1) }

/-- What a terminal does with a sequence for its cursor. -/
def apply : TtySequence → Terminal
  | .char ch => if ch = 13 then { t with x := 0 } else if ch = 10 then t.lineFeed else t
  | .code .home => t.moveTo 0 0
  | .code .cub1 => t.left 1
  | .code .cuf1 => t.right 1
  | .code .cuu1 => t.up 1
  | .code .cud1 => t.down 1
  | .code1 .cub n => t.left n.toNat
  | .code1 .cuf n => t.right n.toNat
  | .code1 .cuu n => t.up n.toNat
  | .code1 .cud n => t.down n.toNat
  | .code1 .hpa n => t.moveTo n.toNat t.y
  | .code1 .vpa n => t.moveTo t.x n.toNat
  | .code2 .cup n m => t.moveTo m.toNat n.toNat
  | _ => t

theorem apply_home : t.apply (.code .home) = t.moveTo 0 0 := rfl

theorem apply_cub1 : t.apply (.code .cub1) = t.left 1 := rfl

theorem apply_cuf1 : t.apply (.code .cuf1) = t.right 1 := rfl

theorem apply_cuu1 : t.apply (.code .cuu1) = t.up 1 := rfl

theorem apply_cud1 : t.apply (.code .cud1) = t.down 1 := rfl

theorem apply_cub (n : ℤ) : t.apply (.code1 .cub n) = t.left n.toNat := rfl

theorem apply_cuf (n : ℤ) : t.apply (.code1 .cuf n) = t.right n.toNat := rfl

theorem apply_cuu (n : ℤ) : t.apply (.code1 .cuu n) = t.up n.toNat := rfl

theorem apply_cud (n : ℤ) : t.apply (.code1 .cud n) = t.down n.toNat := rfl

theorem apply_hpa (n : ℤ) : t.apply (.code1 .hpa n) = t.moveTo n.toNat t.y := rfl

theorem apply_vpa (n : ℤ) : t.apply (.code1 .vpa n) = t.moveTo t.x n.toNat := rfl

theorem apply_cup (n m : ℤ) : t.apply (.code2 .cup n m) = t.moveTo m.toNat n.toNat := rfl

end Terminal

/-- What is tracked is what the terminal has, where it is known. -/
structure TtyPosition.Agrees (pos : TtyPosition) (t : Terminal) : Prop where
  sx : pos.sx = t.sx
  cx : pos.cx = unknown ∨ pos.cx = t.x
  cy : pos.cy = unknown ∨ pos.cy = t.y
  rupper : pos.rupper = unknown ∨ pos.rupper = t.top
  rlower : pos.rlower = unknown ∨ pos.rlower = t.bottom

/-- The moves to a column and a row that do not get there. Their start column is known and not behind the last
    one, and they are one of these: to the first row from one that is not known, by a line feed, or one row down
    in the same column; down from the bottom margin or across it, which is not known; or one row up from the top
    margin, which is not known. -/
def Misses (tty : TtyKind) (pos : TtyPosition) (t : Terminal) (x y : ℕ) : Prop :=
  pos.cx < t.sx ∧
    ((pos.cy = unknown ∧ pos.rlower ≠ unknown ∧ y = 0 ∧
        (x = 0 ∧ tty.has .home = false ∨
          x ≠ 0 ∧ x = pos.cx ∧ tty.has .cud1 = true ∧ ¬(t.y = 0 ∧ t.bottom = 0))) ∨
      (pos.cy ≠ unknown ∧ pos.rlower = unknown ∧ t.y ≤ t.bottom ∧ t.bottom < y ∧
        (x = 0 ∧ y = t.y + 1 ∨
          x = pos.cx ∧ (y = t.y + 1 ∧ tty.has .cud1 = true ∨ tty.has .cud = true))) ∨
      (pos.cy ≠ unknown ∧ pos.rupper = unknown ∧ t.y = t.top ∧ y + 1 = t.y ∧ x = pos.cx ∧ tty.has .cuu1 = true ∧
        ¬(x = 0 ∧ y = 0 ∧ tty.has .home = true)))

/-! ## Moves -/

variable {tty : TtyKind} {pos : TtyPosition} {t : Terminal} {x y : ℕ}

open Terminal

theorem toSigned_sub {a b : ℕ} (ha : a < 2147483648) (hb : b < 2147483648) : toSigned (a - b) = (a : ℤ) - b := by
  rw [toSigned]
  omega

/-- A sequence of a capability that the terminal has. -/
theorem after_putcode {c : TtyCode} (h : tty.has c = true) : after apply (ttyPutcode tty c) t = t.apply (.code c) := by
  rw [ttyPutcode, if_pos h, after_write]

theorem after_putcode1 {c : TtyCode} (h : tty.has c = true) (a : ℤ) :
    after apply (ttyPutcode1 tty c a) t = t.apply (.code1 c a) := by
  rw [ttyPutcode1, if_pos h, after_write]

/-- An absolute sequence moves the cursor to where it is to be. -/
theorem after_cup (hcup : tty.has .cup = true) (hx : x < t.sx) (hy : y < t.sy) :
    after apply (ttyPutcode2 tty .cup y x) t = { t with x, y } := by
  rw [ttyPutcode2, if_pos hcup, after_write, apply_cup, Terminal.moveTo, Int.toNat_natCast, Int.toNat_natCast,
    Nat.min_eq_left (by omega), Nat.min_eq_left (by omega)]

/-- Moving the column gets there, whatever the region. -/
theorem ttyCursorColumn_lands (hcup : tty.has .cup = true) (ht : t.Ok) (hcx : pos.cx = t.x) (hcol : t.x < t.sx)
    (hx : x < t.sx) : after apply (ttyCursorColumn tty pos x t.y) t = { t with x } := by
  obtain ⟨⟨hpos, hwidth⟩, hheight, -, hrow, -⟩ := ht
  have hchange : toSigned ((pos.cx : ℤ) - x) = (t.x : ℤ) - x := by
    rw [hcx, toSigned_sub (by omega) (by omega)]
  rw [ttyCursorColumn, hchange, hcx]
  split_ifs with h0 hleft hright habs hcub hcuf
  · rw [h0]
    rfl
  · rw [after_putcode hleft.2, apply_cub1, left]
    rw [toWord] at hleft
    congr 1
    omega
  · rw [after_putcode hright.2, apply_cuf1, right]
    rw [toWord] at hright
    congr 1
    omega
  · rw [after_putcode1 habs.2, apply_hpa, Terminal.moveTo, Int.toNat_natCast, Nat.min_eq_left (by omega),
      Nat.min_eq_left (by omega)]
  · rw [after_putcode1 hcub.2, apply_cub, left]
    congr 1
    omega
  · rw [after_putcode1 hcuf.2, apply_cuf, right]
    congr 1
    omega
  · exact after_cup hcup hx hrow

theorem y_inj {n m : ℕ} : { t with y := n } = { t with y := m } ↔ n = m := by
  rw [Terminal.mk.injEq]
  simp

/-- A move down gets there unless it is across the bottom margin. -/
theorem down_lands_iff {n : ℕ} (hy : y = t.y + n) (h : y < t.sy) :
    t.down n = { t with y } ↔ ¬(t.y ≤ t.bottom ∧ t.bottom < y) := by
  rw [Terminal.down, y_inj]
  split_ifs <;> omega

/-- A move up gets there unless it is across the top margin. -/
theorem up_lands_iff {n : ℕ} (hy : y + n = t.y) : t.up n = { t with y } ↔ ¬(t.top ≤ t.y ∧ y < t.top) := by
  rw [Terminal.up, y_inj]
  split_ifs <;> omega

/-- What can go wrong in a column from a row that is known. -/
theorem misses_row_iff (ht : t.Ok) (hcx : pos.cx = t.x) (hcol : t.x < t.sx) (hcy : pos.cy = t.y)
    (hhome : ¬(t.x = 0 ∧ y = 0 ∧ tty.has .home = true)) (hfeed : ¬(t.x = 0 ∧ y = t.y + 1 ∧ t.y ≠ pos.rlower)) :
    Misses tty pos t t.x y ↔
      (pos.rlower = unknown ∧ t.y ≤ t.bottom ∧ t.bottom < y ∧
        (y = t.y + 1 ∧ tty.has .cud1 = true ∨ tty.has .cud = true)) ∨
      (pos.rupper = unknown ∧ t.y = t.top ∧ y + 1 = t.y ∧ tty.has .cuu1 = true) := by
  have hknown : t.y ≠ unknown := by
    have hrow := ht.y
    have hheight := ht.height
    rw [unknown]
    omega
  rw [Misses, hcx, hcy]
  constructor
  · rintro ⟨-, ⟨h, -⟩ | ⟨-, hl, hy, hb, hmove⟩ | ⟨-, hu, hy, hup, -, hcuu, -⟩⟩
    · exact absurd h hknown
    · refine .inl ⟨hl, hy, hb, ?_⟩
      rcases hmove with hmove | ⟨-, hmove⟩
      · exact absurd ⟨hmove.1, hmove.2, by rw [hl]; exact hknown⟩ hfeed
      · exact hmove
    · exact .inr ⟨hu, hy, hup, hcuu⟩
  · rintro (⟨hl, hy, hb, hmove⟩ | ⟨hu, hy, hup, hcuu⟩)
    · exact ⟨hcol, .inr (.inl ⟨hknown, hl, hy, hb, .inr ⟨rfl, hmove⟩⟩)⟩
    · exact ⟨hcol, .inr (.inr ⟨hknown, hu, hy, hup, rfl, hcuu, hhome⟩)⟩

theorem above_of_toWord {a b : ℕ} (h : b = toWord ((a : ℤ) - 1)) (ha : a < 2147483648) (hb : b < 2147483648) :
    b + 1 = a := by
  rw [toWord] at h
  omega

theorem below_of_toWord {a b : ℕ} (h : b = toWord ((a : ℤ) + 1)) (ha : a < 2147483648) : b = a + 1 := by
  rw [toWord] at h
  omega

/-- A change of the row is larger than the absolute position, or would cross the scroll region, counted from the row
    it goes to as far as it goes. -/
def Crosses (rupper rlower a b : ℕ) : Prop :=
  2 * b < a ∨ (a < b ∧ rlower + a < 2 * b) ∨ (b < a ∧ 2 * b < rupper + a)

theorem crosses_iff {rupper rlower a b : ℕ} (ha : a < 2147483648) (hb : b < 2147483648) :
    (((a : ℤ) - b).natAbs > b ∨ ((a : ℤ) - b < 0 ∧ toWord ((b : ℤ) - ((a : ℤ) - b)) > rlower) ∨
      (0 < (a : ℤ) - b ∧ toWord ((b : ℤ) - ((a : ℤ) - b)) < rupper)) ↔ Crosses rupper rlower a b := by
  rw [toWord, Crosses]
  omega

/-- With a bottom margin that is not known, no change down crosses the region. -/
theorem Crosses.up {rupper a b : ℕ} (h : Crosses rupper unknown a b) (hb : b < 2147483648) : b < a := by
  rw [Crosses, unknown] at h
  omega

/-- A change up that does not cross the region does not go above its top margin, which is known. -/
theorem top_of_not_crosses {rupper rlower a b top : ℕ} (h : ¬Crosses rupper rlower a b) (hb : b < 2147483648)
    (hu : rupper = unknown ∨ rupper = top) (hlt : b < a) : rupper = top ∧ top ≤ b := by
  rw [Crosses] at h
  rw [unknown] at hu
  omega

/-- A change down that does not cross the region does not go below its bottom margin if that is known. -/
theorem bottom_of_not_crosses {rupper rlower a b bottom : ℕ} (h : ¬Crosses rupper rlower a b)
    (hl : rlower = unknown ∨ rlower = bottom) (hlt : a < b) (hbottom : bottom < b) : rlower = unknown := by
  rw [Crosses] at h
  rcases hl with hl | hl
  · exact hl
  · omega

/-- Moving the row gets there unless a margin that is not known is met. -/
theorem ttyCursorRow_lands_iff (hcup : tty.has .cup = true) (ht : t.Ok) (hag : pos.Agrees t) (hcx : pos.cx = t.x)
    (hcol : t.x < t.sx) (hcy : pos.cy = t.y) (hy : y < t.sy)
    (hhome : ¬(t.x = 0 ∧ y = 0 ∧ tty.has .home = true)) (hfeed : ¬(t.x = 0 ∧ y = t.y + 1 ∧ t.y ≠ pos.rlower)) :
    after apply (ttyCursorRow tty pos t.x y) t = { t with y } ↔ ¬Misses tty pos t t.x y := by
  rw [misses_row_iff ht hcx hcol hcy hhome hfeed]
  clear hhome hfeed
  obtain ⟨-, hheight, -, hrow, hmargins, hbottom⟩ := ht
  have hy31 : y < 2147483648 := hy.trans hheight
  have hrow31 : t.y < 2147483648 := hrow.trans hheight
  have hknown : t.y ≠ unknown := by rw [unknown]; omega
  have hchange : toSigned ((pos.cy : ℤ) - y) = (t.y : ℤ) - y := by rw [hcy, toSigned_sub hrow31 hy31]
  -- A move by one row up is only not taken from the margin, which is then known.
  have hcuu1 : ¬(t.y ≠ pos.rupper ∧ y = toWord ((t.y : ℤ) - 1) ∧ tty.has .cuu1 = true) →
      ¬(pos.rupper = unknown ∧ t.y = t.top ∧ y + 1 = t.y ∧ tty.has .cuu1 = true) := by
    rintro hup ⟨hu, -, hy', hcuu⟩
    exact hup ⟨by rwa [hu], by rw [toWord]; omega, hcuu⟩
  rw [ttyCursorRow, hchange, hcy]
  split_ifs with hup hdown hcross hvpa hcuu hcud
  · have hy' : y + 1 = t.y := above_of_toWord hup.2.1 hrow31 hy31
    rw [after_putcode hup.2.2, apply_cuu1, up_lands_iff hy']
    refine not_congr ⟨fun h => ?_, ?_⟩
    · have htop : t.y = t.top := by omega
      exact .inr ⟨hag.rupper.resolve_right fun hu => hup.1 (htop.trans hu.symm), htop, hy', hup.2.2⟩
    · rintro (⟨-, h, h', -⟩ | ⟨-, h, -⟩)
      · omega
      · exact ⟨Nat.le_of_eq h.symm, by omega⟩
  · have hy' : y = t.y + 1 := below_of_toWord hdown.2.1 hrow31
    rw [after_putcode hdown.2.2, apply_cud1, down_lands_iff hy' hy]
    refine not_congr ⟨fun h => ?_, ?_⟩
    · have hbot : t.y = t.bottom := by omega
      exact .inl ⟨hag.rlower.resolve_right fun hl => hdown.1 (hbot.trans hl.symm), h.1, h.2, .inl ⟨hy', hdown.2.2⟩⟩
    · rintro (⟨-, h, h', -⟩ | ⟨-, -, h, -⟩)
      · exact ⟨h, h'⟩
      · omega
  · rw [crosses_iff hrow31 hy31] at hcross
    rw [after_putcode1 hvpa, apply_vpa, Terminal.moveTo, Int.toNat_natCast, Nat.min_eq_left (by omega),
      Nat.min_eq_left (by omega)]
    refine iff_of_true rfl (not_or.2 ⟨?_, hcuu1 hup⟩)
    rintro ⟨hl, h, h', -⟩
    rw [hl] at hcross
    exact absurd (hcross.up hy31) (by omega)
  · rw [crosses_iff hrow31 hy31] at hcross
    rw [after_cup hcup hcol hy]
    refine iff_of_true rfl (not_or.2 ⟨?_, hcuu1 hup⟩)
    rintro ⟨hl, h, h', -⟩
    rw [hl] at hcross
    exact absurd (hcross.up hy31) (by omega)
  · rw [crosses_iff hrow31 hy31] at hcross
    have hlt : y < t.y := by omega
    obtain ⟨hu, htop⟩ := top_of_not_crosses hcross hy31 hag.rupper hlt
    have hy' : y + ((t.y : ℤ) - y).toNat = t.y := by omega
    rw [after_putcode1 hcuu.2, apply_cuu, up_lands_iff hy']
    refine iff_of_true (fun h => Nat.not_lt.2 htop h.2) (not_or.2 ⟨?_, hcuu1 hup⟩)
    rintro ⟨-, h, h', -⟩
    omega
  · rw [crosses_iff hrow31 hy31] at hcross
    have hlt : t.y < y := by omega
    have hy' : y = t.y + (-((t.y : ℤ) - y)).toNat := by omega
    rw [after_putcode1 hcud.2, apply_cud, down_lands_iff hy' hy]
    refine not_congr ⟨fun h => .inl ⟨?_, h.1, h.2, .inr hcud.2⟩, ?_⟩
    · exact bottom_of_not_crosses hcross hag.rlower hlt h.2
    · rintro (⟨-, h, h', -⟩ | ⟨-, -, h, -⟩)
      · exact ⟨h, h'⟩
      · omega
  · rw [after_cup hcup hcol hy]
    refine iff_of_true rfl (not_or.2 ⟨?_, hcuu1 hup⟩)
    rintro ⟨hl, h, h', hmove⟩
    rcases hmove with ⟨hy', hcud1⟩ | hcud'
    · exact hdown ⟨by rwa [hl], by rw [toWord]; omega, hcud1⟩
    · exact hcud ⟨by omega, hcud'⟩

theorem toWord_unknown : toWord ((unknown : ℤ) + 1) = 0 := rfl

/-- From a row that is not known, moving the row gets there unless it is by one row down. -/
theorem ttyCursorRow_unknown (hcup : tty.has .cup = true) (ht : t.Ok) (hcol : t.x < t.sx) (hcy : pos.cy = unknown)
    (hy : y < t.sy) :
    after apply (ttyCursorRow tty pos t.x y) t = { t with y } ↔
      ¬(pos.rlower ≠ unknown ∧ y = 0 ∧ tty.has .cud1 = true ∧ ¬(t.y = 0 ∧ t.bottom = 0)) := by
  obtain ⟨-, hheight, -, hrow, hmargins, hbottom⟩ := ht
  have hchange : toSigned ((unknown : ℤ) - y) = -1 - y := by
    rw [toSigned, unknown]
    omega
  have hcross : (toSigned ((unknown : ℤ) - y)).natAbs > y := by
    rw [hchange]
    omega
  have habove : ¬(unknown ≠ pos.rupper ∧ y = toWord ((unknown : ℤ) - 1) ∧ tty.has .cuu1 = true) := by
    rintro ⟨-, h, -⟩
    rw [h] at hy
    exact absurd (hy.trans hheight) (by decide)
  rw [ttyCursorRow, hcy, toWord_unknown, if_neg habove]
  by_cases hdown : unknown ≠ pos.rlower ∧ y = 0 ∧ tty.has .cud1 = true
  · obtain ⟨hl, rfl, hcud⟩ := hdown
    rw [if_pos ⟨hl, rfl, hcud⟩, after_putcode hcud, apply_cud1, Terminal.down, y_inj]
    have hmin : (if t.y ≤ t.bottom then min (t.y + 1) t.bottom else min (t.y + 1) (t.sy - 1)) = 0 ↔
        t.y = 0 ∧ t.bottom = 0 := by
      split_ifs <;> omega
    rw [hmin]
    exact ⟨fun h h' => h'.2.2.2 h, fun h => not_not.1 fun h' => h ⟨Ne.symm hl, rfl, hcud, h'⟩⟩
  · rw [if_neg hdown, if_pos (.inl hcross)]
    refine iff_of_true ?_ fun h => hdown ⟨Ne.symm h.1, h.2.1, h.2.2.1⟩
    split
    · next hvpa =>
      rw [after_putcode1 hvpa, apply_vpa, Terminal.moveTo, Int.toNat_natCast, Nat.min_eq_left (by omega),
        Nat.min_eq_left (by omega)]
    · exact after_cup hcup hcol hy

/-- A line feed after a carriage return gets to the next row unless it is from the bottom margin. -/
theorem feed_lands_iff : after apply (do ttyPutc 13; ttyPutc 10) t = { t with x := 0, y } ↔
    t.y ≠ t.bottom ∧ y = min (t.y + 1) (t.sy - 1) := by
  rw [after_bind]
  show lineFeed { t with x := 0 } = _ ↔ _
  rw [lineFeed]
  split
  · next hbottom =>
    refine iff_of_false (fun h => ?_) fun h => h.1 hbottom
    have hscrolls := congrArg Terminal.scrolls h
    exact absurd hscrolls (Nat.succ_ne_self _)
  · next hbottom =>
    rw [Terminal.mk.injEq]
    simp [hbottom, eq_comm]

/-- The moves of the cursor. -/
theorem ttyCursorMove_lands_iff (hcup : tty.has .cup = true) (ht : t.Ok) (hag : pos.Agrees t) (hx : x < t.sx)
    (hy : y < t.sy) (hmove : ¬(x = pos.cx ∧ y = pos.cy)) :
    after apply (ttyCursorMove tty pos x y) t = { t with x, y } ↔ ¬Misses tty pos t x y := by
  have hwidth : toWord ((pos.sx : ℤ) - 1) = t.sx - 1 := by
    have hw := ht.width
    rw [hag.sx, toWord]
    omega
  have hrow31 : t.y < 2147483648 := ht.y.trans ht.height
  have hy31 : y < 2147483648 := hy.trans ht.height
  rw [ttyCursorMove, hwidth]
  by_cases hend : pos.cx > t.sx - 1
  · rw [if_pos hend, after_cup hcup hx hy]
    exact iff_of_true rfl fun h => by have := h.1; omega
  rw [if_neg hend]
  have hcx : pos.cx = t.x := hag.cx.resolve_left fun h => hend (by
    have hw := ht.width
    rw [h, unknown]
    omega)
  have hcol : t.x < t.sx := by
    have hw := ht.width
    omega
  by_cases hhome : x = 0 ∧ y = 0 ∧ tty.has .home = true
  · obtain ⟨rfl, rfl, hhas⟩ := hhome
    rw [if_pos ⟨rfl, rfl, hhas⟩, after_putcode hhas, apply_home, Terminal.moveTo, Nat.zero_min, Nat.zero_min]
    refine iff_of_true rfl ?_
    rintro ⟨-, ⟨-, -, -, h | h⟩ | ⟨-, -, -, h, -⟩ | ⟨-, -, -, -, -, -, h⟩⟩
    · exact Bool.false_ne_true (h.2.symm.trans hhas)
    · exact h.1 rfl
    · exact Nat.not_lt_zero _ h
    · exact h ⟨rfl, rfl, hhas⟩
  rw [if_neg hhome]
  have hrow : ∀ {n}, n < t.sy → n ≠ unknown := fun {n} hn h => by
    have hheight := ht.height
    rw [h, unknown] at hn
    omega
  by_cases hfeed : x = 0 ∧ y = toWord ((pos.cy : ℤ) + 1) ∧ pos.cy ≠ pos.rlower
  · rw [if_pos hfeed]
    obtain ⟨rfl, hnext, hl⟩ := hfeed
    rw [feed_lands_iff]
    rcases hag.cy with hcy | hcy
    · have h0 : y = 0 := by rw [hnext, hcy, toWord_unknown]
      refine iff_of_false (fun h => ?_) (not_not.2 ⟨by omega, .inl ⟨hcy, ?_, h0, .inl ⟨rfl, ?_⟩⟩⟩)
      · have hbottom := ht.margins.2
        have hy' := ht.y
        omega
      · rwa [← hcy, ne_comm]
      · exact Bool.eq_false_iff.2 fun h => hhome ⟨rfl, h0, h⟩
    · rw [hcy] at hnext hl
      have hy' := below_of_toWord hnext hrow31
      have hlands : (t.y ≠ t.bottom ∧ y = min (t.y + 1) (t.sy - 1)) ↔ t.y ≠ t.bottom := by omega
      rw [hlands]
      refine not_congr ⟨fun h => ⟨by omega, .inr (.inl ⟨?_, ?_, ?_, ?_, .inl ⟨rfl, hy'⟩⟩)⟩, ?_⟩
      · rw [hcy]
        exact hrow ht.y
      · exact hag.rlower.resolve_right fun h' => hl (h.trans h'.symm)
      · exact Nat.le_of_eq h
      · omega
      · rintro ⟨-, ⟨-, -, h, -⟩ | ⟨-, -, h, h', -⟩ | ⟨-, -, -, h, -⟩⟩ <;> omega
  rw [if_neg hfeed]
  by_cases hsame : y = pos.cy
  · have hcy : pos.cy = t.y := hag.cy.resolve_left (hsame ▸ hrow hy)
    rw [if_pos hsame, hsame, hcy, ttyCursorColumn_lands hcup ht hcx hcol hx]
    refine iff_of_true rfl ?_
    rintro ⟨-, ⟨h, -⟩ | ⟨-, -, h, h', -⟩ | ⟨-, -, -, h, -⟩⟩
    · exact hrow ht.y (hcy.symm.trans h)
    · omega
    · omega
  rw [if_neg hsame]
  by_cases hcolumn : x = pos.cx
  · rw [if_pos hcolumn, hcolumn, hcx]
    rw [hcolumn, hcx] at hhome hfeed
    rcases hag.cy with hcy | hcy
    · rw [ttyCursorRow_unknown hcup ht hcol hcy hy, Misses, hcx, hcy]
      rw [hcy, toWord_unknown] at hfeed
      refine not_congr ⟨fun h => ⟨hcol, .inl ⟨rfl, h.1, h.2.1, .inr ⟨?_, rfl, h.2.2⟩⟩⟩, ?_⟩
      · exact fun h0 => hfeed ⟨h0, h.2.1, Ne.symm h.1⟩
      · rintro ⟨-, ⟨-, hl, h0, hmoved⟩ | ⟨h, -⟩ | ⟨h, -⟩⟩
        · rcases hmoved with ⟨h, -⟩ | ⟨-, -, h⟩
          · exact absurd ⟨h, h0, Ne.symm hl⟩ hfeed
          · exact ⟨hl, h0, h⟩
        · exact absurd rfl h
        · exact absurd rfl h
    · rw [hcy] at hsame
      refine ttyCursorRow_lands_iff hcup ht hag hcx hcol hcy hy hhome ?_
      rintro ⟨h0, hy', hl⟩
      exact hfeed ⟨h0, by rw [hcy, toWord]; omega, by rwa [hcy]⟩
  rw [if_neg hcolumn, after_cup hcup hx hy]
  refine iff_of_true rfl ?_
  rintro ⟨-, ⟨hcy, hl, h0, h | h⟩ | ⟨hcy, hl, -, -, h | h⟩ | ⟨-, -, -, -, h, -⟩⟩
  · exact hfeed ⟨h.1, by rw [h0, hcy, toWord_unknown], by rwa [hcy, ne_comm]⟩
  · exact hcolumn h.2.1
  · have hcy' := hag.cy.resolve_left hcy
    exact hfeed ⟨h.1, by rw [h.2, hcy', toWord]; omega, by rwa [hl]⟩
  · exact hcolumn h.1
  · exact hcolumn h

/-- Where the row and the margins are known, no move misses. -/
theorem not_misses_of_known (hcy : pos.cy ≠ unknown) (hu : pos.rupper ≠ unknown) (hl : pos.rlower ≠ unknown) :
    ¬Misses tty pos t x y := by
  rintro ⟨-, ⟨h, -⟩ | ⟨-, h, -⟩ | ⟨-, h, -⟩⟩
  · exact hcy h
  · exact hl h
  · exact hu h

/-- Moving the cursor leads to the same as absolute positioning, and the position is tracked, exactly if the move is
    none of those that miss. -/
theorem ttyCursor_iff (hcup : tty.has .cup = true) (ht : t.Ok) (hag : pos.Agrees t) (hy : y < t.sy) (x : ℕ) :
    (after apply (ttyCursor tty pos x y) t = { t with x := min x (t.sx - 1), y } ∧
      value (ttyCursor tty pos x y) = { pos with cx := min x (t.sx - 1), cy := y }) ↔
    ¬Misses tty pos t (min x (t.sx - 1)) y := by
  have hw := ht.width
  have hwidth : toWord ((pos.sx : ℤ) - 1) = t.sx - 1 := by
    rw [hag.sx, toWord]
    omega
  have hclamp : (if x > toWord ((pos.sx : ℤ) - 1) then toWord ((pos.sx : ℤ) - 1) else x) = min x (t.sx - 1) := by
    rw [hwidth]
    split_ifs <;> omega
  have hx : min x (t.sx - 1) < t.sx := by omega
  rw [ttyCursor, hclamp]
  generalize min x (t.sx - 1) = x' at hx
  by_cases hmove : x' = pos.cx ∧ y = pos.cy
  · obtain ⟨hx', hy'⟩ := hmove
    have hcx : pos.cx = t.x := hag.cx.resolve_left fun h => by
      rw [hx', h, unknown] at hx
      omega
    have hcy : pos.cy = t.y := hag.cy.resolve_left fun h => by
      have hheight := ht.height
      rw [hy', h, unknown] at hy
      omega
    rw [if_pos ⟨hx', hy'⟩, after_pure, value_pure, hx', hy']
    refine iff_of_true ⟨by rw [hcx, hcy], rfl⟩ ?_
    rw [hcx, hcy]
    rintro ⟨-, ⟨h, -⟩ | ⟨-, -, h, h', -⟩ | ⟨-, -, -, h, -⟩⟩
    · have hheight := ht.height
      rw [hy', h, unknown] at hy
      omega
    · omega
    · omega
  · rw [if_neg hmove, after_bind, after_pure, value_bind, value_pure]
    rw [← ttyCursorMove_lands_iff hcup ht hag hx hy hmove]
    exact and_iff_left rfl

/-- A terminal with the capability for absolute positioning and no other. -/
def cupOnly : TtyKind where
  term := { has := fun c => c = .cup }

/-- One row down, to the start of the line, in the upper one of two regions. -/
theorem ttyCursor_next_line :
    let t : Terminal := { sx := 80, sy := 24, x := 7, y := 4, top := 0, bottom := 5 }
    let pos : TtyPosition := { sx := 80, cx := 7, cy := 4, rupper := 0, rlower := 5 }
    after apply (ttyCursor cupOnly pos 0 5) t = { t with x := 0, y := 5 } :=
  ((ttyCursor_iff (show cupOnly.has .cup = true from rfl)
    ⟨⟨by decide, by decide⟩, by decide, by decide, by decide, ⟨by decide, by decide⟩⟩
    ⟨rfl, .inr rfl, .inr rfl, .inr rfl, .inr rfl⟩ (by decide) 0).2
      (not_misses_of_known (by decide) (by decide) (by decide))).1

/-- From the bottom margin, which is not known after a raw string is written, the same move scrolls. -/
theorem ttyCursor_scrolls :
    let t : Terminal := { sx := 80, sy := 24, x := 0, y := 5, top := 0, bottom := 5 }
    let pos : TtyPosition := { sx := 80, cx := 0, cy := 5, rupper := unknown, rlower := unknown }
    after apply (ttyCursor cupOnly pos 0 6) t = { t with scrolls := 1 } := by
  decide

end Tmux
