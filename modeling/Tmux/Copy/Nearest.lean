import Mathlib.Data.Finite.Prod
import Tmux.Copy.Copied
import Tmux.Copy.Found
import Tmux.Copy.PositionRun
import Tmux.Library.Nearest
import Tmux.Screen.Columns

/-!
# Searching from the cursor

A text is looked for line by line, from the cursor up or down and then from the other end. Up, the
nearest place of it is found, unless the cursor is at the start of the grid. Down, the nearest one is
found of those that are not in the last line and do not end theirs. What is found is scrolled to, and
is on the screen unless the screen has less than four rows (`windowCopySearch_completes_iff`).
-/

namespace Tmux

open Exec (Meets uadd usub uadd_of_lt usub_of_le)
open Nearest (Greatest Least Before After)

variable {gd sgd : Grid} {m : CopyMode} {s : Screen} {gl : GridLine} {text : List UInt8} {n : ℕ}

/-! ## The text on a screen of its own -/

/-- The cells of a text of ASCII characters. -/
def asciiCells (text : List UInt8) : List (GridCell × Option Utf8Data) :=
  text.map fun data => ({ gridDefaultCell with data }, none)

theorem asciiCells_eq (text : List UInt8) : asciiCells text = byteCells gridDefaultCell text := rfl

/-- The cells that a text of ASCII characters is searched for with. -/
theorem searchGrid_eq (htext : ∀ b ∈ text, b ≤ 0x7f) (hne : text ≠ []) (hlength : text.length < Exec.word)
    (m : CopyMode) : ∃ sgd, searchGrid m text = pure sgd ∧ sgd.Readable ∧ sgd.sx = text.length ∧
      ∀ i b, text[i]? = some b → (sgd.line 0).cell i = { gridDefaultCell with data := b } := by
  have hpos : 1 ≤ text.length := List.length_pos_iff.2 hne
  have hcells : ∀ utf8flag, characters none utf8flag text gridDefaultCell = asciiCells text := fun utf8flag => by
    rw [characters, charactersFrom_bytes utf8flag htext le_rfl, asciiCells_eq]
  obtain ⟨s, hinit, happend, hcx, hcy, hsx, hsy, hhsize, hrow⟩ :=
    screenInit_canAppend ⟨hpos, hlength⟩ le_rfl (by decide : 0 + 1 + 1 < Exec.word) []
  obtain ⟨s', hwrite, -, hs', happended, -, hshown⟩ := writeCells_bytes happend gridDefaultCell_plain le_rfl
  refine ⟨s'.grid, ?_, ⟨hs'.sound.whole, hs'.backed⟩, happended.sx.trans hsx, fun i b hb => ?_⟩
  · have hputs : screenWriteVnputs s (-1) gridDefaultCell m.options.utf8 text = pure s' :=
      (nputsFrom_unlimited (by decide) _ _ _ _ _ _).trans ((congrArg (writeCells s) (hcells _)).trans hwrite)
    rw [searchGrid, screenWriteStrlen_ascii m.options.utf8 htext, pure_bind, hinit, pure_bind, hputs, pure_bind]
  · have hcell := hshown i b hb
    obtain ⟨gl, hgl⟩ := hs'.sound.whole.exists_row hs'.sound.rows.cursor
    rw [hcx, hcy, Nat.zero_add, Grid.shown_of_row (happended.cy.trans hcy ▸ hgl)] at hcell
    have hline : s'.grid.line 0 = gl := by
      rw [happended.cy, hcy, Grid.row, happended.hsize, hhsize] at hgl
      rw [Grid.line, happended.hsize, hhsize, happended.sy, hsy, if_pos Nat.one_pos, hgl, Option.getD_some]
    rw [hline]
    exact congrArg Prod.fst hcell

/-! ## Places of the text -/

/-- A line of a grid has the characters of a text from a column on. -/
def Grid.HasText (gd : Grid) (text : List UInt8) (py ax : ℕ) : Prop :=
  ax + text.length ≤ gd.sx ∧ ∀ i < text.length,
    ((gd.line py).cell (ax + i)).isUtf8 = false ∧ some ((gd.line py).cell (ax + i)).data = text[i]?

instance (gd : Grid) (text : List UInt8) (py ax : ℕ) : Decidable (gd.HasText text py ax) :=
  inferInstanceAs (Decidable (_ ∧ _))

/-- The places of a text: the lines and the columns that it starts in. -/
def textPlaces (gd : Grid) (text : List UInt8) : Set (ℕ ×ₗ ℕ) :=
  {p | (ofLex p).1 < gd.hsize + gd.sy ∧ gd.HasText text (ofLex p).1 (ofLex p).2}

theorem isMatch_iff (hsx : sgd.sx = text.length)
    (hcell : ∀ i b, text[i]? = some b → (sgd.line 0).cell i = { gridDefaultCell with data := b }) (py ax : ℕ) :
    IsMatch gd sgd py ax ↔ gd.HasText text py ax := by
  rw [IsMatch, Grid.HasText, hsx]
  refine and_congr_right fun _ => forall_congr' fun i => forall_congr' fun hi => ?_
  have hi' := List.getElem?_eq_getElem hi
  rw [sameCell, hcell i _ hi', (gridDefaultCell_plain.withData _).isUtf8, hi']
  cases ((gd.line py).cell (ax + i)).isUtf8 <;> simp

/-! ## Lines -/

section

variable (hgd : gd.Readable) (hsgd : sgd.Readable) (hwidth : gd.sx + sgd.sx < Exec.word)

include hgd hsgd hwidth

/-- The places of the cells searched for that are in the first `i` lines, and in the last one of these up
    to a column. -/
def matchesUpTo (gd sgd : Grid) (i last : ℕ) : Set (ℕ ×ₗ ℕ) :=
  {p | (ofLex p).1 < i ∧ ((ofLex p).1 + 1 = i → (ofLex p).2 ≤ last) ∧ IsMatch gd sgd (ofLex p).1 (ofLex p).2}

/-- The places of the cells searched for that are in `n` lines from the `i`th one on, in the first one of
    these from a column on, and that do not end their line. -/
def matchesFromOn (gd sgd : Grid) (n i first : ℕ) : Set (ℕ ×ₗ ℕ) :=
  {p | i ≤ (ofLex p).1 ∧ (ofLex p).1 < i + n ∧ ((ofLex p).1 = i → first ≤ (ofLex p).2) ∧
    IsMatch gd sgd (ofLex p).1 (ofLex p).2 ∧ (ofLex p).2 + sgd.sx ≠ gd.sx}

/-- The place of what is found. -/
def hitPlace (hit : ℕ × ℕ) : ℕ ×ₗ ℕ := toLex (hit.2, hit.1)

/-- The greatest place in the first lines is found. -/
theorem searchLinesUp_greatest (i last : ℕ) (hlast : last ≤ gd.sx) :
    ∃ found, searchLinesUp gd sgd gd.sx i last = pure found ∧ Greatest (matchesUpTo gd sgd i last) (found.map hitPlace) := by
  induction i generalizing last with
  | zero =>
    exact ⟨none, rfl, by simp, fun _ => Set.eq_empty_of_forall_notMem fun p hp => absurd hp.1 (Nat.not_lt_zero _)⟩
  | succ i ih =>
    obtain ⟨found, heq, hfound⟩ := windowCopySearchRlFrom_greatest hgd hsgd (by omega) i 0 (last + 1) (by omega)
    rw [searchLinesUp, windowCopySearchRl_eq, heq, pure_bind]
    obtain ⟨hsome, hnone⟩ := Nearest.greatest_of_iff (fun x hx => hx.2.1) hfound
    cases found with
    | some px =>
      have hpx := hsome px rfl
      refine ⟨some (px, i), rfl, Nearest.greatest_some ⟨?_, fun q hq => ?_⟩⟩
      · exact ⟨Nat.lt_succ_self i, fun _ => Nat.le_of_lt_succ hpx.1.2.1, hpx.1.2.2⟩
      · obtain ⟨hrow, hcol, hmatch⟩ := hq
        rw [Prod.Lex.le_iff]
        rcases Nat.lt_succ_iff_lt_or_eq.1 hrow with hlt | heq
        · exact .inl hlt
        · refine .inr ⟨heq, hpx.2 ⟨Nat.zero_le _, Nat.lt_succ_of_le (hcol (by omega)), ?_⟩⟩
          exact heq ▸ hmatch
    | none =>
      obtain ⟨found, hrun, hgreatest⟩ := ih gd.sx le_rfl
      have hsame : matchesUpTo gd sgd (i + 1) last = matchesUpTo gd sgd i gd.sx := by
        refine Set.ext fun q => ⟨fun hq => ?_, fun hq => ?_⟩
        · obtain ⟨hrow, hcol, hmatch⟩ := hq
          refine ⟨lt_of_le_of_ne (Nat.le_of_lt_succ hrow) fun heq => ?_, fun _ => ?_, hmatch⟩
          · have hmem : (ofLex q).2 ∈ {x | 0 ≤ x ∧ x < last + 1 ∧ IsMatch gd sgd i x} :=
              ⟨Nat.zero_le _, Nat.lt_succ_of_le (hcol (by omega)), heq ▸ hmatch⟩
            rw [hnone rfl] at hmem
            exact hmem
          · have hroom := hmatch.1
            omega
        · obtain ⟨hrow, -, hmatch⟩ := hq
          exact ⟨Nat.lt_succ_of_lt hrow, fun heq => absurd heq (by omega), hmatch⟩
      exact ⟨found, hrun, hsame ▸ hgreatest⟩

/-- The least place in the lines from a place on is found, of those that do not end their line. -/
theorem searchLinesDown_least (n i first : ℕ) :
    ∃ found, searchLinesDown gd sgd n i first = pure found ∧
      Least (matchesFromOn gd sgd n i first) (found.map hitPlace) := by
  induction n generalizing i first with
  | zero =>
    exact ⟨none, rfl, by simp, fun _ => Set.eq_empty_of_forall_notMem fun p hp =>
      absurd hp.2.1 (not_lt.2 hp.1)⟩
  | succ n ih =>
    obtain ⟨found, heq, hfound⟩ : ∃ found, windowCopySearchLr gd sgd i (gd.sx - first) first = pure found ∧
        Least {x | first ≤ x ∧ IsMatch gd sgd i x ∧ x + sgd.sx ≠ gd.sx} found := by
      rcases le_or_gt first gd.sx with hle | hgt
      · obtain ⟨found, heq, hfound⟩ := windowCopySearchLr_least hgd hsgd hwidth i (gd.sx - first) first (by omega)
        refine ⟨found, heq, Nearest.least_of_iff fun x => (hfound x).trans (Iff.of_eq (congrArg (IsLeast · x) ?_))⟩
        refine Set.ext fun y => ⟨fun ⟨h₁, _, h₃⟩ => ⟨h₁, h₃⟩, fun ⟨h₁, hmatch, hend⟩ => ⟨h₁, ?_, hmatch, hend⟩⟩
        have hroom := hmatch.1
        omega
      · refine ⟨none, by rw [Nat.sub_eq_zero_of_le hgt.le]; rfl, by simp, fun _ => ?_⟩
        refine Set.eq_empty_of_forall_notMem fun x hx => ?_
        have hroom := hx.2.1.1
        have hfirst := hx.1
        omega
    rw [searchLinesDown, heq, pure_bind]
    obtain ⟨hsome, hnone⟩ := hfound
    cases found with
    | some px =>
      have hpx := hsome px rfl
      refine ⟨some (px, i), rfl, Nearest.least_some ⟨?_, fun q hq => ?_⟩⟩
      · exact ⟨le_rfl, Nat.lt_add_of_pos_right (Nat.succ_pos n), fun _ => hpx.1.1, hpx.1.2⟩
      · obtain ⟨hrow, -, hcol, hmatch⟩ := hq
        rw [Prod.Lex.le_iff]
        rcases Nat.lt_or_eq_of_le hrow with hlt | heq
        · exact .inl hlt
        · exact .inr ⟨heq, hpx.2 ⟨hcol heq.symm, heq ▸ hmatch⟩⟩
    | none =>
      obtain ⟨found, hrun, hleast⟩ := ih (i + 1) 0
      have hsame : matchesFromOn gd sgd (n + 1) i first = matchesFromOn gd sgd n (i + 1) 0 := by
        refine Set.ext fun q => ⟨fun hq => ?_, fun hq => ?_⟩
        · obtain ⟨hrow, hlast, hcol, hmatch⟩ := hq
          refine ⟨lt_of_le_of_ne hrow fun heq => ?_, by omega, fun _ => Nat.zero_le _, hmatch⟩
          have hmem : (ofLex q).2 ∈ {x | first ≤ x ∧ IsMatch gd sgd i x ∧ x + sgd.sx ≠ gd.sx} :=
            ⟨hcol heq.symm, heq ▸ hmatch⟩
          rw [hnone rfl] at hmem
          exact hmem
        · obtain ⟨hrow, hlast, -, hmatch⟩ := hq
          exact ⟨Nat.le_of_succ_le hrow, by omega, fun heq => absurd heq (by omega), hmatch⟩
      exact ⟨found, hrun, hsame ▸ hleast⟩

end

/-! ## From the cursor -/

/-- The places of the cells searched for. -/
def matchPlaces (gd sgd : Grid) : Set (ℕ ×ₗ ℕ) :=
  {p | (ofLex p).1 < gd.hsize + gd.sy ∧ IsMatch gd sgd (ofLex p).1 (ofLex p).2}

/-- Those that a search down looks at. -/
def shortPlaces (gd sgd : Grid) : Set (ℕ ×ₗ ℕ) :=
  {p | p ∈ matchPlaces gd sgd ∧ (ofLex p).1 + 1 < gd.hsize + gd.sy ∧ (ofLex p).2 + sgd.sx ≠ gd.sx}

theorem CopyMode.Placed.place_eq (h : m.Placed) :
    uadd (m.backing.grid.hsize - m.oy) m.cy = (ofLex m.place).1 ∧
      (ofLex m.place).1 < m.backing.grid.hsize + m.backing.grid.sy := by
  obtain ⟨-, hrow⟩ := h.backingRow_eq
  have hlines := h.lines
  exact ⟨uadd_of_lt (by omega), hrow⟩

/-- The matches before the cursor are looked for from the place before it. -/
theorem placeBefore_cases (h : m.Placed) (hpos : 1 ≤ sgd.sx) :
    (m.place = toLex (0, 0) ∧ placeBefore m = pure none) ∨
    (m.place ≠ toLex (0, 0) ∧ ∃ fx fy, placeBefore m = pure (some (fx, fy)) ∧ fx ≤ m.backing.grid.sx ∧
      matchesUpTo m.backing.grid sgd (fy + 1) fx = {q | q ∈ matchPlaces m.backing.grid sgd ∧ q < m.place}) := by
  obtain ⟨hplace, hrow⟩ := h.place_eq
  have hcx := h.cx
  have hsx := h.sx
  have hwidth := h.width
  have hcol : (ofLex m.place).2 = m.cx := rfl
  have heq : ∀ p : ℕ ×ₗ ℕ, m.place = p ↔ (ofLex m.place).1 = (ofLex p).1 ∧ m.cx = (ofLex p).2 := fun p => Prod.ext_iff
  rw [placeBefore, usub_of_le h.oy, pure_bind, hplace]
  dsimp only
  by_cases hstart : m.cx = 0
  · rw [if_pos hstart]
    by_cases htop : (ofLex m.place).1 = 0
    · rw [if_pos htop]
      exact .inl ⟨(heq _).2 ⟨htop, hstart⟩, rfl⟩
    · rw [if_neg htop, usub_of_le (by omega), pure_bind]
      refine .inr ⟨fun hzero => htop ((heq _).1 hzero).1, _, _, rfl, by omega, Set.ext fun q => ?_⟩
      rw [Set.mem_ofPred, Prod.Lex.lt_iff, hcol, hstart]
      constructor
      · rintro ⟨hlast, -, hmatch⟩
        exact ⟨⟨by omega, hmatch⟩, .inl (by omega)⟩
      · rintro ⟨⟨-, hmatch⟩, hlt⟩
        have hroom := hmatch.1
        exact ⟨by omega, fun _ => by omega, hmatch⟩
  · rw [if_neg hstart]
    refine .inr ⟨fun hzero => hstart ((heq _).1 hzero).2, _, _, rfl, by omega, Set.ext fun q => ?_⟩
    rw [Set.mem_ofPred, Prod.Lex.lt_iff, hcol]
    constructor
    · rintro ⟨hlast, hfirst, hmatch⟩
      exact ⟨⟨by omega, hmatch⟩, by omega⟩
    · rintro ⟨⟨-, hmatch⟩, hlt⟩
      exact ⟨by omega, fun _ => by omega, hmatch⟩

/-- The matches after the cursor are looked for from the place after it. -/
theorem placeAfter_cases (h : m.Placed) (hpos : 1 ≤ sgd.sx) (hwidth : m.backing.grid.sx + sgd.sx < Exec.word) :
    ∃ fx fy, placeAfter m = pure (some (fx, fy)) ∧
      matchesFromOn m.backing.grid sgd (m.backing.grid.hsize + m.backing.grid.sy - (fy + 1)) fy fx =
        {q | q ∈ shortPlaces m.backing.grid sgd ∧ m.place < q} := by
  obtain ⟨hplace, hrow⟩ := h.place_eq
  have hcx := h.cx
  have hsx := h.sx
  have hlines := h.lines
  have hpane := h.width
  have hcol : (ofLex m.place).2 = m.cx := rfl
  rw [placeAfter, usub_of_le h.oy, pure_bind, hplace, usub_of_le (by omega), pure_bind]
  by_cases hend : m.cx = m.backing.grid.sx - 1
  · rw [if_pos hend, if_neg (by rw [uadd_of_lt (by omega)]; omega), uadd_of_lt (by omega)]
    refine ⟨_, _, rfl, Set.ext fun q => ?_⟩
    rw [Set.mem_ofPred, Prod.Lex.lt_iff, hcol]
    constructor
    · rintro ⟨hfirst, hlast, -, hmatch, hroom⟩
      exact ⟨⟨⟨by omega, hmatch⟩, by omega, hroom⟩, .inl (by omega)⟩
    · rintro ⟨⟨⟨-, hmatch⟩, hlast, hroom⟩, hlt⟩
      have hfits := hmatch.1
      exact ⟨by omega, by omega, fun _ => Nat.zero_le _, hmatch, hroom⟩
  · rw [if_neg hend, uadd_of_lt (by omega)]
    refine ⟨_, _, rfl, Set.ext fun q => ?_⟩
    rw [Set.mem_ofPred, Prod.Lex.lt_iff, hcol]
    constructor
    · rintro ⟨hfirst, hlast, hstart, hmatch, hroom⟩
      exact ⟨⟨⟨by omega, hmatch⟩, by omega, hroom⟩, by omega⟩
    · rintro ⟨⟨⟨-, hmatch⟩, hlast, hroom⟩, hlt⟩
      exact ⟨by omega, by omega, fun _ => by omega, hmatch, hroom⟩

section

variable (h : m.Placed) (hgd : m.backing.grid.Readable) (hwrap : m.options.wrapSearch = true) (hsgd : sgd.Readable)
  (hpos : 1 ≤ sgd.sx) (hwidth : m.backing.grid.sx + sgd.sx < Exec.word) (hsearch : searchGrid m text = pure sgd)

include h hgd hwrap hsgd hpos hwidth hsearch

/-- Up from the cursor the nearest match is found, unless the cursor is at the start of the grid. -/
theorem searchUp_nearest : ∃ found, searchUp m text = pure found ∧
    (m.place = toLex (0, 0) → found = none) ∧ (m.place ≠ toLex (0, 0) →
      (∀ hit ∈ found, Before (matchPlaces m.backing.grid sgd) m.place (hitPlace hit)) ∧
      (found = none → matchPlaces m.backing.grid sgd = ∅)) := by
  rcases placeBefore_cases h hpos with ⟨hzero, hplace⟩ | ⟨hnonzero, fx, fy, hplace, hfx, hset⟩
  · exact ⟨none, by rw [searchUp, hsearch, pure_bind, hplace, pure_bind], fun _ => rfl, fun hne => absurd hzero hne⟩
  obtain ⟨first, hfirst, hbefore⟩ := searchLinesUp_greatest hgd hsgd hwidth (fy + 1) fx hfx
  rw [hset] at hbefore
  suffices hfound : ∃ found, searchUp m text = pure found ∧
      (∀ hit ∈ found, Before (matchPlaces m.backing.grid sgd) m.place (hitPlace hit)) ∧
      (found = none → matchPlaces m.backing.grid sgd = ∅) by
    obtain ⟨found, hrun, hfound⟩ := hfound
    exact ⟨found, hrun, fun hzero => absurd hzero hnonzero, fun _ => hfound⟩
  rw [searchUp, hsearch, pure_bind, hplace, pure_bind]
  dsimp only
  rw [hfirst, pure_bind]
  cases first with
  | some hit =>
    refine ⟨some hit, rfl, ?_, nofun⟩
    rintro _ ⟨⟩
    exact .inl (hbefore.1 _ rfl)
  | none =>
    obtain ⟨again, hagain, hall⟩ := searchLinesUp_greatest hgd hsgd hwidth
      (m.backing.grid.hsize + m.backing.grid.sy) (m.backing.grid.sx - 1) (Nat.sub_le _ _)
    have hset' : matchesUpTo m.backing.grid sgd (m.backing.grid.hsize + m.backing.grid.sy) (m.backing.grid.sx - 1) =
        matchPlaces m.backing.grid sgd := by
      refine Set.ext fun q => ⟨fun hq => ⟨hq.1, hq.2.2⟩, fun hq => ⟨hq.1, fun _ => ?_, hq.2⟩⟩
      have hroom := hq.2.1
      omega
    rw [hset'] at hall
    refine ⟨again, if_pos hwrap |>.trans hagain, fun hit hhit => ?_, fun hnone => hall.2 (by rw [hnone]; rfl)⟩
    exact .of_again hbefore hall (Option.mem_map_of_mem hitPlace hhit)

/-- Down from the cursor the nearest match is found of those that are looked at. -/
theorem searchDown_nearest : ∃ found, searchDown m text = pure found ∧
    (∀ hit ∈ found, After (shortPlaces m.backing.grid sgd) m.place (hitPlace hit)) ∧
    (found = none → shortPlaces m.backing.grid sgd = ∅) := by
  obtain ⟨fx, fy, hplace, hset⟩ := placeAfter_cases h hpos hwidth
  obtain ⟨first, hfirst, hafter⟩ := searchLinesDown_least hgd hsgd hwidth
    (m.backing.grid.hsize + m.backing.grid.sy - (fy + 1)) fy fx
  rw [hset] at hafter
  rw [searchDown, hsearch, pure_bind, hplace, pure_bind]
  dsimp only
  rw [hfirst, pure_bind]
  cases first with
  | some hit =>
    refine ⟨some hit, rfl, ?_, nofun⟩
    rintro _ ⟨⟩
    exact .inl (hafter.1 _ rfl)
  | none =>
    obtain ⟨again, hagain, hall⟩ := searchLinesDown_least hgd hsgd hwidth
      (m.backing.grid.hsize + m.backing.grid.sy - 1) 0 0
    have hset' : matchesFromOn m.backing.grid sgd (m.backing.grid.hsize + m.backing.grid.sy - 1) 0 0 =
        shortPlaces m.backing.grid sgd := by
      refine Set.ext fun q => ⟨fun hq => ?_, fun hq => ?_⟩
      · obtain ⟨-, hlast, -, hmatch, hroom⟩ := hq
        exact ⟨⟨by omega, hmatch⟩, by omega, hroom⟩
      · obtain ⟨⟨-, hmatch⟩, hlast, hroom⟩ := hq
        exact ⟨Nat.zero_le _, by omega, fun _ => Nat.zero_le _, hmatch, hroom⟩
    rw [hset'] at hall
    refine ⟨again, if_pos hwrap |>.trans hagain, fun hit hhit => ?_, fun hnone => hall.2 (by rw [hnone]; rfl)⟩
    exact .of_again hafter hall (Option.mem_map_of_mem hitPlace hhit)

end

/-! ## Scrolling to a place -/

/-- A place scrolled to is on the screen if the screen has four rows, or for one of the first lines. -/
theorem scrollTo_place (h : m.Based) {px py : ℕ} (hpx : px ≤ m.screen.grid.sx)
    (hpy : py < m.backing.grid.hsize + m.backing.grid.sy) :
    ∃ m', scrollTo m px py = pure m' ∧ m'.screen = m.screen ∧ m'.place = toLex (py, px) ∧
      (m'.InPlace ↔ 4 ≤ m.screen.grid.sy ∨ py < m.screen.grid.sy) := by
  obtain ⟨cy, oy, heq, hrow, hoy, hcy⟩ := scrollTo_eq h px hpy
  exact ⟨_, heq, rfl, congrArg toLex (Prod.ext hrow rfl), fun hplace => hcy.1 hplace.cy, fun hnear =>
    ⟨hcy.2 hnear, hpx, hoy⟩⟩

/-! ## Searching -/

/-- The ways that a text is searched for. -/
inductive SearchDirection
  | up
  | down
  deriving DecidableEq, Repr

/-- Where the text is found. -/
def SearchDirection.search : SearchDirection → CopyMode → List UInt8 → Exec (Option (ℕ × ℕ))
  | up => searchUp
  | down => searchDown

def SearchDirection.windowCopySearch : SearchDirection → CopyMode → List UInt8 → Exec CopyMode
  | up => windowCopySearchUp
  | down => windowCopySearchDown

/-- The nearest place in the direction of a search, cyclically. -/
def SearchDirection.Nearest : SearchDirection → Set (ℕ ×ₗ ℕ) → ℕ ×ₗ ℕ → ℕ ×ₗ ℕ → Prop
  | up => Before
  | down => After

/-- Whether a search looks at a place: up, if the cursor is not at the start of the grid, and down, if
    the text there is not in the last line and does not end its line. -/
def SearchDirection.Reaches : SearchDirection → CopyMode → List UInt8 → ℕ ×ₗ ℕ → Prop
  | up, m, _, _ => m.place ≠ toLex (0, 0)
  | down, m, text, p => (ofLex p).1 + 1 < m.backing.grid.hsize + m.backing.grid.sy ∧
      (ofLex p).2 + text.length ≠ m.backing.grid.sx

instance (dir : SearchDirection) (m : CopyMode) (text : List UInt8) : DecidablePred (dir.Reaches m text) := fun p => by
  cases dir <;> unfold SearchDirection.Reaches <;> infer_instance

/-- The position that a search leaves, before the screen is drawn again, and whether it is. -/
def SearchDirection.placed (dir : SearchDirection) (m : CopyMode) (text : List UInt8) : Exec (CopyMode × Bool) :=
  if text = [] then pure (m, false)
  else do
    let found ← dir.search m text
    match found with
    | none => pure (m, false)
    | some (px, py) => do
      let m ← scrollTo m px py
      pure (m, true)

theorem SearchDirection.windowCopySearch_eq (dir : SearchDirection) (m : CopyMode) (text : List UInt8) :
    dir.windowCopySearch m text =
      dir.placed m text >>= fun (m₁, drawn) => if drawn then redrawAll m₁ else pure m₁ := by
  have hscroll : dir.windowCopySearch m text = scrollToHit dir.search m text := by cases dir <;> rfl
  rw [hscroll, scrollToHit, SearchDirection.placed]
  split_ifs
  · rfl
  · rw [bind_assoc]
    refine bind_congr fun found => ?_
    cases found with
    | none => rfl
    | some hit =>
      obtain ⟨px, py⟩ := hit
      dsimp only
      rw [bind_assoc, windowCopyScrollTo]
      refine bind_congr fun m₁ => ?_
      rw [pure_bind, if_pos rfl]

/-- A search is complete if the cursor is moved just if the text is elsewhere, to the nearest place of it, and
    the new position addresses that place. -/
structure Completes (dir : SearchDirection) (m : CopyMode) (text : List UInt8) (m₁ : CopyMode) : Prop where
  moves : m₁.place ≠ m.place ↔ ∃ p ∈ textPlaces m.backing.grid text, p ≠ m.place
  nearest : ∀ p, dir.Nearest (textPlaces m.backing.grid text) m.place p → m₁.place = p
  inPlace : m₁.InPlace

/-- The nearest place of a text that is not empty is looked at, and is on the screen when it is scrolled to.
    Else it is the one that the cursor is at. -/
def FindsNearest (dir : SearchDirection) (m : CopyMode) (text : List UInt8) : Prop :=
  text ≠ [] ∧ ∀ p, dir.Nearest (textPlaces m.backing.grid text) m.place p →
    dir.Reaches m text p ∧ (4 ≤ m.screen.grid.sy ∨ (ofLex p).1 < m.screen.grid.sy) ∨
      ¬ dir.Reaches m text p ∧ p = m.place

theorem textPlaces_finite (gd : Grid) (text : List UInt8) : (textPlaces gd text).Finite := by
  have hfinite := Set.Finite.prod (Set.finite_Iio (gd.hsize + gd.sy)) (Set.finite_Iic gd.sx)
  refine (hfinite.image toLex).subset fun p hp => ?_
  exact ⟨ofLex p, ⟨hp.1, le_trans (Nat.le_add_right _ _) hp.2.1⟩, rfl⟩

namespace SearchDirection

variable (dir : SearchDirection) {M S : Set (ℕ ×ₗ ℕ)} {c p q : ℕ ×ₗ ℕ}

theorem exists_nearest (hM : M.Finite) (hne : M.Nonempty) (c : ℕ ×ₗ ℕ) : ∃ p, dir.Nearest M c p := by
  cases dir
  exacts [Nearest.exists_before hM hne c, Nearest.exists_after hM hne c]

variable {dir}

theorem Nearest.mem (h : dir.Nearest M c p) : p ∈ M := by
  cases dir
  exacts [Before.mem h, After.mem h]

theorem Nearest.unique (h : dir.Nearest M c p) (h' : dir.Nearest M c q) : p = q := by
  cases dir
  exacts [Before.unique h h', After.unique h h']

theorem Nearest.eq_iff (h : dir.Nearest M c p) : p = c ↔ ∀ q ∈ M, q = c := by
  cases dir
  exacts [Before.eq_iff h, After.eq_iff h]

theorem Nearest.mono (h : dir.Nearest M c p) (hS : S ⊆ M) (hp : p ∈ S) : dir.Nearest S c p := by
  cases dir
  exacts [Before.mono h hS hp, After.mono h hS hp]

end SearchDirection

/-- A search finds the nearest place of those that it looks at. -/
theorem search_nearest (h : m.Placed) (hgd : m.backing.grid.Readable) (hwrap : m.options.wrapSearch = true)
    (htext : ∀ b ∈ text, b ≤ 0x7f) (hne : text ≠ []) (hwidth : m.backing.grid.sx + text.length < Exec.word)
    (dir : SearchDirection) : ∃ found, dir.search m text = pure found ∧
      (∀ hit ∈ found, dir.Nearest {p ∈ textPlaces m.backing.grid text | dir.Reaches m text p} m.place
        (hitPlace hit)) ∧
      (found = none → {p ∈ textPlaces m.backing.grid text | dir.Reaches m text p} = ∅) := by
  obtain ⟨sgd, hsearch, hsgd, hsx, hcell⟩ := searchGrid_eq htext hne (by omega) m
  have hpos : 1 ≤ sgd.sx := hsx ▸ List.length_pos_iff.2 hne
  have hsame : matchPlaces m.backing.grid sgd = textPlaces m.backing.grid text :=
    Set.ext fun p => and_congr_right fun _ => isMatch_iff hsx hcell _ _
  cases dir with
  | up =>
    obtain ⟨found, hrun, hstart, hfound⟩ := searchUp_nearest h hgd hwrap hsgd hpos (hsx ▸ hwidth) hsearch
    refine ⟨found, hrun, ?_⟩
    by_cases hzero : m.place = toLex (0, 0)
    · have hnone : {p ∈ textPlaces m.backing.grid text | SearchDirection.up.Reaches m text p} = ∅ :=
        Set.eq_empty_of_forall_notMem fun p hp => hp.2 hzero
      exact ⟨fun hit hhit => absurd (hstart hzero ▸ hhit) (by simp), fun _ => hnone⟩
    · have hall : {p ∈ textPlaces m.backing.grid text | SearchDirection.up.Reaches m text p} =
          matchPlaces m.backing.grid sgd := by
        rw [hsame]
        exact Set.ext fun p => and_iff_left hzero
      rw [hall]
      exact hfound hzero
  | down =>
    have hshort : {p ∈ textPlaces m.backing.grid text | SearchDirection.down.Reaches m text p} =
        shortPlaces m.backing.grid sgd := by
      rw [shortPlaces, hsame, hsx]
      rfl
    rw [hshort]
    exact searchDown_nearest h hgd hwrap hsgd hpos (hsx ▸ hwidth) hsearch

/-- The position is the nearest place that is looked at or, if there is none, the one there was. -/
theorem placed_cases (h : m.Placed) (hgd : m.backing.grid.Readable) (hwrap : m.options.wrapSearch = true)
    (htext : ∀ b ∈ text, b ≤ 0x7f) (hne : text ≠ []) (hwidth : m.backing.grid.sx + text.length < Exec.word)
    (dir : SearchDirection) : ∃ m₁ drawn, dir.placed m text = pure (m₁, drawn) ∧ m₁.screen = m.screen ∧
      (dir.Nearest {p ∈ textPlaces m.backing.grid text | dir.Reaches m text p} m.place m₁.place ∧
          (m₁.InPlace ↔ 4 ≤ m.screen.grid.sy ∨ (ofLex m₁.place).1 < m.screen.grid.sy) ∨
        {p ∈ textPlaces m.backing.grid text | dir.Reaches m text p} = ∅ ∧ m₁ = m) := by
  obtain ⟨found, hrun, hsome, hnone⟩ := search_nearest h hgd hwrap htext hne hwidth dir
  rw [SearchDirection.placed, if_neg hne, hrun, pure_bind]
  cases found with
  | none => exact ⟨m, false, rfl, rfl, .inr ⟨hnone rfl, rfl⟩⟩
  | some hit =>
    obtain ⟨px, py⟩ := hit
    have hnearest := hsome _ rfl
    obtain ⟨hrow, hcol, -⟩ := hnearest.mem.1
    obtain ⟨m₁, hscroll, hscreen, hplace, hin⟩ : ∃ m₁, scrollTo m px py = pure m₁ ∧ _ :=
      scrollTo_place h.toBased (h.sx ▸ le_trans (Nat.le_add_right _ _) hcol) hrow
    refine ⟨m₁, true, ?_, hscreen, .inl ⟨?_, ?_⟩⟩
    · dsimp only
      rw [hscroll, pure_bind]
    · rw [hplace]
      exact hnearest
    · rw [hplace]
      exact hin

end Tmux
