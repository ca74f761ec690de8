import Tmux.Screen.Width
import Tmux.Screen.Written

/-!
# Strings within a limit

A string is a list of characters, each written with a cell (`charactersFrom`): its styles
change the cell, and it ends where it has only a part of a character. A string with a limit
writes the longest prefix of its characters that fits in so many columns, and blanks in
those left if more of them were to follow (`WithinLimit`).

For `screenWriteVnputs` and `screenWriteCnputs` this is so exactly if the limit is not zero
or the string has no columns (`nputs_iff`). They take any limit that is not positive for
none, but some callers compute one that may be zero.
-/

namespace Tmux

open Exec (Meets uadd usub meets_usub meets_all)

/-! ## Prefixes that fit -/

section

variable {α : Type*} {weight : α → ℕ} {limit : ℕ} {l p q : List α}

/-- A prefix of a list is the longest one whose weight is within a limit. -/
structure LongestFit (weight : α → ℕ) (limit : ℕ) (l p : List α) : Prop where
  initial : p <+: l
  fits : (p.map weight).sum ≤ limit
  longest : ∀ q, q <+: l → (q.map weight).sum ≤ limit → q <+: p

theorem LongestFit.nil : LongestFit weight limit [] [] := ⟨List.prefix_rfl, Nat.zero_le _, fun _ hq _ => hq⟩

/-- An entry too heavy ends the prefix. -/
theorem LongestFit.stop {a : α} (h : limit < weight a) : LongestFit weight limit (a :: l) [] where
  initial := List.nil_prefix
  fits := Nat.zero_le _
  longest q hq hfits := by
    rcases List.prefix_cons_iff.1 hq with rfl | ⟨q', rfl, -⟩
    · exact List.prefix_rfl
    · rw [List.map_cons, List.sum_cons] at hfits
      omega

/-- Another one is in it, and the rest fits in what is left. -/
theorem LongestFit.cons {a : α} (h : weight a ≤ limit) (hp : LongestFit weight (limit - weight a) l p) :
    LongestFit weight limit (a :: l) (a :: p) where
  initial := (List.prefix_cons_inj a).2 hp.initial
  fits := by
    have := hp.fits
    rw [List.map_cons, List.sum_cons]
    omega
  longest q hq hfits := by
    rcases List.prefix_cons_iff.1 hq with rfl | ⟨q', rfl, hq'⟩
    · exact List.nil_prefix
    · rw [List.map_cons, List.sum_cons] at hfits
      exact (List.prefix_cons_inj a).2 (hp.longest q' hq' (by omega))

/-- A list that fits is its longest prefix that does. -/
theorem LongestFit.whole (h : (l.map weight).sum ≤ limit) : LongestFit weight limit l l :=
  ⟨List.prefix_rfl, h, fun _ hq _ => hq⟩

end

/-! ## Characters of a string -/

/-- A cell that is not padding and has no UTF-8 data. -/
structure GridCell.Plain (gc : GridCell) : Prop where
  isPadding : gc.isPadding = false
  isUtf8 : gc.isUtf8 = false

/-- The number of columns a cell is written to. -/
def writtenWidth (cell : GridCell × Option Utf8Data) : ℕ := if cell.1.isPadding then 0 else cellWidth cell.1 cell.2

/-- The number of columns cells are written to. -/
def columns (cells : List (GridCell × Option Utf8Data)) : ℕ := (cells.map writtenWidth).sum

/-- The characters of a string from a place on, each with the cell it is written with. The places left
    are at most `n`. -/
def charactersFrom (defgc : Option GridCell) (utf8flag : Bool) :
    ℕ → List UInt8 → GridCell → List (GridCell × Option Utf8Data)
  | 0, _, _ => []
  | _ + 1, [], _ => []
  | n + 1, ch :: ptr, gc =>
    match embeddedStyle defgc gc ch ptr with
    | some none => []
    | some (some (gc, ptr)) => charactersFrom defgc utf8flag n ptr gc
    | none =>
      match (readCharacter utf8flag ch ptr).value? with
      | some (some (some utf8data, ptr)) =>
        ({ gc with flags := gc.flags ||| gridFlagUtf8 }, some utf8data) ::
          charactersFrom defgc utf8flag n ptr { gc with flags := gc.flags &&& ~~~gridFlagUtf8 }
      | some (some (none, ptr)) =>
        ({ gc with data := ch }, none) :: charactersFrom defgc utf8flag n ptr { gc with data := ch }
      | _ => []

/-- Write cells one after the other. -/
def writeCells (s : Screen) (cells : List (GridCell × Option Utf8Data)) : Exec Screen :=
  cells.foldlM (fun s cell => screenWriteCell s cell.1 cell.2) s

variable {gc fill : GridCell} {defgc : Option GridCell} {utf8flag : Bool} {s s' : Screen} {maxlen n : ℕ}
  {text written cells : List (GridCell × Option Utf8Data)}

theorem writeCells_cons (s : Screen) (gc : GridCell) (utf8data : Option Utf8Data) :
    writeCells s ((gc, utf8data) :: cells) = screenWriteCell s gc utf8data >>= fun s => writeCells s cells :=
  List.foldlM_cons

theorem writeSpaces_eq (gc : GridCell) (n : ℕ) (s : Screen) :
    writeSpaces gc s n = writeCells s (List.replicate n ({ gc with data := 32 }, none)) := by
  induction n generalizing s with
  | zero => rfl
  | succ n ih =>
    rw [List.replicate_succ, writeCells_cons, writeSpaces, screenWritePutc]
    exact bind_congr ih

theorem columns_append (l l' : List (GridCell × Option Utf8Data)) : columns (l ++ l') = columns l + columns l' := by
  rw [columns, columns, columns, List.map_append, List.sum_append]

@[simp] theorem columns_cons (cell : GridCell × Option Utf8Data) :
    columns (cell :: cells) = writtenWidth cell + columns cells := by
  rw [columns, columns, List.map_cons, List.sum_cons]

theorem GridCell.Plain.content {gc' : GridCell} (h : gc.Plain) (hsame : gc.SameContent gc') : gc'.Plain :=
  ⟨hsame.isPadding.trans h.isPadding, hsame.isUtf8.trans h.isUtf8⟩

theorem GridCell.Plain.withData (h : gc.Plain) (data : UInt8) : ({ gc with data } : GridCell).Plain := ⟨h.1, h.2⟩

/-- A byte is written to one column. -/
theorem GridCell.Plain.width (h : gc.Plain) (data : UInt8) : writtenWidth ({ gc with data }, none) = 1 := by
  have hplain := h.withData data
  rw [writtenWidth, cellWidth, hplain.isPadding, hplain.isUtf8]
  rfl

/-- A UTF-8 character is written to as many columns as it is wide. -/
theorem GridCell.Plain.utf8Width (h : gc.Plain) (utf8data : Utf8Data) :
    writtenWidth ({ gc with flags := gc.flags ||| gridFlagUtf8 }, some utf8data) = utf8data.width := by
  have hpad : ({ gc with flags := gc.flags ||| gridFlagUtf8 } : GridCell).isPadding = false := by
    rw [GridCell.isPadding, flags_set (by decide)]
    exact h.isPadding
  have hutf8 : ({ gc with flags := gc.flags ||| gridFlagUtf8 } : GridCell).isUtf8 = true := by
    have hflags : gc.flags &&& gridFlagUtf8 = 0 := by simpa [GridCell.isUtf8] using h.isUtf8
    rw [GridCell.isUtf8, flags_or, hflags]
    rfl
  rw [writtenWidth, cellWidth, hpad, hutf8]
  rfl

theorem GridCell.Plain.cleared (h : gc.Plain) : ({ gc with flags := gc.flags &&& ~~~gridFlagUtf8 } : GridCell).Plain := by
  constructor
  · rw [GridCell.isPadding, flags_clear (by decide)]
    exact h.isPadding
  · rw [GridCell.isUtf8, UInt8.and_assoc, UInt8.and_comm (~~~_), UInt8.and_not_self, UInt8.and_zero]
    rfl

/-- A style does not make a cell another kind of cell. -/
theorem embeddedStyle_plain {ch : UInt8} {ptr rest : List UInt8} (h : gc.Plain)
    (hstyle : embeddedStyle defgc gc ch ptr = some (some (fill, rest))) : fill.Plain := by
  unfold embeddedStyle at hstyle
  split at hstyle
  · split_ifs at hstyle
    obtain ⟨split, -, heq⟩ := Option.map_eq_some_iff.1 (Option.some.inj hstyle)
    obtain ⟨rfl, -⟩ := Prod.mk.inj heq
    exact h.content (screenWriteParsestyle_keeps _ _ _)
  · cases hstyle

/-! ## Reading -/

/-- The first byte of a UTF-8 character says how many there are, or it is none. -/
theorem utf8Open_size (ch : UInt8) : utf8Open ch = pure ({}, 0) ∨
    ∃ size, 2 ≤ size ∧ size ≤ 4 ∧ utf8Open ch = pure ({ data := [ch], size }, 1) := by
  unfold utf8Open
  dsimp only
  split_ifs <;> first
    | exact .inl rfl
    | exact .inr ⟨2, by omega, by omega, rfl⟩
    | exact .inr ⟨3, by omega, by omega, rfl⟩
    | exact .inr ⟨4, by omega, by omega, rfl⟩
    | omega

/-- A character is a byte, or as many bytes as the first one says, if they are there. -/
theorem readCharacter_cases (utf8flag : Bool) (ch : UInt8) :
    (∀ ptr, readCharacter utf8flag ch ptr = pure (some (none, ptr))) ∨
    ∃ size, 2 ≤ size ∧ size ≤ 4 ∧ utf8Open ch = pure ({ data := [ch], size }, 1) ∧ ch > 0x7f ∧
      ∀ ptr, readCharacter utf8flag ch ptr = pure (if ptr.length < size - 1 then none
        else some (some {
          data := ch :: ptr.take (size - 1)
          size
          width := utf8Width { data := ch :: ptr.take (size - 1), size } }, ptr.drop (size - 1))) := by
  by_cases hhigh : (utf8flag && ch > 0x7f) = true
  · rcases utf8Open_size ch with hopen | ⟨size, htwo, hfour, hopen⟩
    · refine .inl fun ptr => ?_
      rw [readCharacter, if_pos hhigh, hopen, pure_bind]
      exact if_pos rfl
    · have hflag := hhigh
      rw [Bool.and_eq_true, decide_eq_true_eq] at hflag
      refine .inr ⟨size, htwo, hfour, hopen, hflag.2, fun ptr => ?_⟩
      rw [readCharacter, if_pos hhigh, hopen, pure_bind]
      dsimp only
      rw [if_neg (by decide)]
      split_ifs with hshort
      · rfl
      · have hlength : (ptr.take (size - 1)).length = size - 1 := List.length_take_of_le (by omega)
        have hfinish := utf8Finish_eq (u := { data := [ch], size })
          (fun hnil : ptr.take (size - 1) = [] => by rw [hnil, List.length_nil] at hlength; omega)
          (by rw [hlength, List.length_singleton]; dsimp only; omega) (by rw [utf8Size]; dsimp only; omega)
          (ptr.drop (size - 1))
        rw [List.take_append_drop] at hfinish
        rw [hfinish, pure_bind]
        rfl
  · exact .inl fun ptr => by rw [readCharacter, if_neg hhigh]

/-- Reading a character never faults. -/
theorem readCharacter_pure (utf8flag : Bool) (ch : UInt8) (ptr : List UInt8) :
    ∃ next, readCharacter utf8flag ch ptr = pure next := by
  rcases readCharacter_cases utf8flag ch with hread | ⟨size, -, -, -, -, hread⟩
  · exact ⟨_, hread ptr⟩
  · exact ⟨_, hread ptr⟩

/-! ## Writing -/

/-- Without a limit, all characters are written. -/
theorem nputsFrom_unlimited {maxlen : ℤ} (hmaxlen : maxlen ≤ 0) (utf8flag : Bool) (n : ℕ) (msg : List UInt8) (size : ℕ)
    (gc : GridCell) (s : Screen) :
    nputsFrom defgc maxlen utf8flag n msg size gc s = writeCells s (charactersFrom defgc utf8flag n msg gc) := by
  induction n generalizing msg size gc s with
  | zero => rfl
  | succ n ih =>
    cases msg with
    | nil => rfl
    | cons ch ptr =>
      rw [nputsFrom, charactersFrom]
      rcases embeddedStyle defgc gc ch ptr with _ | _ | ⟨gc', rest⟩
      · obtain ⟨next, hnext⟩ := readCharacter_pure utf8flag ch ptr
        dsimp only
        rw [hnext, pure_bind, Exec.value?_pure]
        rcases next with _ | ⟨_ | utf8data, rest⟩
        · rfl
        · dsimp only
          rw [if_neg (by omega), writeCells_cons]
          exact bind_congr fun s₁ => ih rest _ _ s₁
        · dsimp only
          rw [if_neg (by omega), writeCells_cons]
          exact bind_congr fun s₁ => ih rest _ _ s₁
      · rfl
      · exact ih rest size gc' s

/-- What is written of a string within a limit: the longest prefix of its characters that fits, and
    blanks in the columns left if there are more. -/
structure WithinLimit (limit : ℕ) (text written : List (GridCell × Option Utf8Data)) : Prop where
  fitting : ∃ (p : List (GridCell × Option Utf8Data)) (fill : GridCell), LongestFit writtenWidth limit text p ∧
    written = p ++ List.replicate (min (columns text) limit - columns p) ({ fill with data := 32 }, none)
  total : columns written = min (columns text) limit

theorem WithinLimit.nil (limit : ℕ) : WithinLimit limit [] [] := by
  have hnone : columns [] = 0 := rfl
  refine ⟨⟨[], gridDefaultCell, .nil, ?_⟩, ?_⟩
  · rw [hnone, Nat.zero_min]
    rfl
  · rw [hnone, Nat.zero_min]

/-- A character that fits is written. -/
theorem WithinLimit.cons {limit : ℕ} {cell : GridCell × Option Utf8Data}
    (h : WithinLimit (limit - writtenWidth cell) text written) (hcell : writtenWidth cell ≤ limit) :
    WithinLimit limit (cell :: text) (cell :: written) := by
  obtain ⟨p, fill, hp, hwritten⟩ := h.fitting
  refine ⟨⟨cell :: p, fill, hp.cons hcell, ?_⟩, ?_⟩
  · rw [hwritten, List.cons_append, columns_cons, columns_cons]
    congr 3
    omega
  · rw [columns_cons, columns_cons, h.total]
    omega

/-- A character that does not fit is replaced by blanks. -/
theorem WithinLimit.stop {limit : ℕ} {cell : GridCell × Option Utf8Data} (h : limit < writtenWidth cell)
    (hfill : fill.Plain) (text : List (GridCell × Option Utf8Data)) :
    WithinLimit limit (cell :: text) (List.replicate limit ({ fill with data := 32 }, none)) := by
  have hlimit : min (columns (cell :: text)) limit = limit := by
    rw [columns_cons]
    omega
  refine ⟨⟨[], fill, .stop h, ?_⟩, ?_⟩
  · rw [hlimit]
    rfl
  · rw [hlimit, columns, List.map_replicate, hfill.width, List.sum_replicate_nat, Nat.mul_one]

/-- With a limit, what is written is within it. -/
theorem nputsFrom_limited (hlimit : 0 < maxlen) (hdef : ∀ gc ∈ defgc, gc.Plain) (utf8flag : Bool) (n : ℕ)
    (msg : List UInt8) {size : ℕ} (hsize : size ≤ maxlen) (hgc : gc.Plain) :
    ∃ written, WithinLimit (maxlen - size) (charactersFrom defgc utf8flag n msg gc) written ∧
      ∀ s, nputsFrom defgc maxlen utf8flag n msg size gc s = writeCells s written := by
  induction n generalizing msg size gc with
  | zero => exact ⟨[], .nil _, fun _ => rfl⟩
  | succ n ih =>
    cases msg with
    | nil => exact ⟨[], .nil _, fun _ => rfl⟩
    | cons ch ptr =>
      simp only [nputsFrom, charactersFrom]
      rcases hstyle : embeddedStyle defgc gc ch ptr with _ | _ | ⟨gc', rest⟩
      · obtain ⟨next, hnext⟩ := readCharacter_pure utf8flag ch ptr
        simp only [hnext, pure_bind, Exec.value?_pure]
        rcases next with _ | ⟨_ | utf8data, rest⟩
        · exact ⟨[], .nil _, fun _ => rfl⟩
        · have hwidth := hgc.width ch
          dsimp only
          by_cases hfull : size + 1 > maxlen
          · obtain rfl : size = maxlen := by omega
            have hstop := WithinLimit.stop (by omega : 0 < writtenWidth ({ gc with data := ch }, none)) hgc
              (charactersFrom defgc utf8flag n rest { gc with data := ch })
            rw [Nat.sub_self]
            exact ⟨[], hstop, fun s => if_pos (by omega)⟩
          · obtain ⟨written, hwithin, hrun⟩ := ih rest (by omega : size + 1 ≤ maxlen) (hgc.withData ch)
            refine ⟨_ :: written, WithinLimit.cons (by rwa [hwidth, Nat.sub_sub]) (hwidth.le.trans (by omega)),
              fun s => ?_⟩
            rw [if_neg (by omega), writeCells_cons]
            exact bind_congr hrun
        · have hwidth := hgc.utf8Width utf8data
          dsimp only
          by_cases hfull : size + utf8data.width > maxlen
          · have hfill : (defgc.getD gc).Plain := by
              cases defgc with
              | none => exact hgc
              | some gc' => exact hdef gc' rfl
            refine ⟨_, WithinLimit.stop (by omega) hfill _, fun s => ?_⟩
            rw [if_pos (by omega), Int.toNat_natCast, writeSpaces_eq]
          · obtain ⟨written, hwithin, hrun⟩ := ih rest (by omega : size + utf8data.width ≤ maxlen) hgc.cleared
            refine ⟨_ :: written, WithinLimit.cons (by rwa [hwidth, Nat.sub_sub]) (by omega), fun s => ?_⟩
            rw [if_neg (by omega), writeCells_cons]
            exact bind_congr hrun
      · exact ⟨[], .nil _, fun _ => rfl⟩
      · exact ih rest hsize (embeddedStyle_plain hgc hstyle)

/-! ## The cursor -/

theorem lacksRoom_of_fits {width : ℕ} (h : s.cx + width ≤ s.grid.sx) : lacksRoom s width = pure false := by
  unfold lacksRoom
  split_ifs
  · rfl
  · omega
  · rfl
  · rw [Exec.usub_of_le (by omega), pure_bind, decide_eq_false (by omega)]

theorem overflows_of_fits {width : ℕ} (h : s.cx + width ≤ s.grid.sx) : overflows s width = pure false := by
  unfold overflows
  split_ifs
  · rw [Exec.usub_of_le (by omega), pure_bind, decide_eq_false (by omega)]
  · rfl

theorem insertSpace_cursor (s : Screen) (width : ℕ) :
    Meets .all (fun s' => s'.cx = s.cx ∧ s'.cy = s.cy) (insertSpace s width) := by
  unfold insertSpace
  split_ifs
  · refine (meets_all _).bind fun last _ => ?_
    split_ifs
    · exact (meets_all _).bind fun _ _ => (meets_all _).bind fun _ _ => (meets_all _).bind fun _ _ => .pure ⟨rfl, rfl⟩
    · exact .pure ⟨rfl, rfl⟩
  · exact .pure ⟨rfl, rfl⟩

/-- Writing a cell that fits in the row of the cursor moves the cursor by its width. -/
theorem screenWriteCell_moves (h : s.InRows) (hx : 1 ≤ s.grid.sx) (hsx : s.grid.sx < Exec.word)
    {cell : GridCell × Option Utf8Data} (hfits : s.cx + writtenWidth cell ≤ s.grid.sx) :
    Meets .all (fun s' => s.Kept s' ∧ s'.cx = s.cx + writtenWidth cell ∧ s'.cy = s.cy)
      (screenWriteCell s cell.1 cell.2) := by
  have hw : ∀ e, e ≠ .bit → e ≠ .hang → Exec.Allowed.all.faults e := fun _ _ _ => trivial
  refine (writeCell_kept h hx cell.1 cell.2).and ?_
  unfold screenWriteCell
  split_ifs with hpad
  · exact .pure ⟨by rw [writtenWidth, if_pos hpad, Nat.add_zero], rfl⟩
  · rw [writtenWidth, if_neg hpad] at hfits ⊢
    refine (characterWidth_meets hw cell.1 cell.2).bind fun width hwidth => ?_
    subst hwidth
    rw [lacksRoom_of_fits hfits, pure_bind, if_neg (by simp)]
    split_ifs with hzero
    · refine (meets_all _).bind fun u _ => (screenWriteCombine_redrawn hw u).mono ?_
      rintro _ ⟨gd, -, rfl⟩
      exact ⟨by rw [hzero, Nat.add_zero], rfl⟩
    · refine (meets_all _).bind fun _ _ => ?_
      refine ((insertSpace_stays hw h (.inl trivial)).and (insertSpace_cursor s _)).bind fun s₁ h₁ => ?_
      obtain ⟨hstays, hcx, hcy⟩ := h₁
      have hfits₁ : s₁.cx + cellWidth cell.1 cell.2 ≤ s₁.grid.sx := by rwa [hcx, hstays.grid.sx]
      have hcursor := hstays.rows.cursor
      rw [wrapLine, overflows_of_fits hfits₁, pure_bind, if_neg (by simp), pure_bind, overflows_of_fits hfits₁,
        pure_bind, Exec.usub_of_le (by omega), Exec.forget_pure, pure_bind, if_neg (by simp; omega)]
      refine (drawCharacter_edits hw cell.1 cell.2 _).mono ?_
      rintro _ ⟨gd, -, rfl⟩
      refine ⟨?_, hcy⟩
      dsimp only
      rw [Exec.uadd_of_lt (hfits₁.trans_lt (hstays.grid.sx.symm ▸ hsx)), hcx]

/-- Writing cells that fit in the row of the cursor moves the cursor by as many columns as they have. -/
theorem writeCells_moves (h : s.InRows) (hx : 1 ≤ s.grid.sx) (hsx : s.grid.sx < Exec.word)
    (hfits : s.cx + columns cells ≤ s.grid.sx) :
    Meets .all (fun s' => s'.cx = s.cx + columns cells ∧ s'.cy = s.cy) (writeCells s cells) := by
  induction cells generalizing s with
  | nil => exact .pure ⟨rfl, rfl⟩
  | cons cell cells ih =>
    rw [columns_cons] at hfits ⊢
    refine (screenWriteCell_moves h hx hsx (by omega)).bind fun s₁ h₁ => ?_
    obtain ⟨hkept, hcx, hcy⟩ := h₁
    have hsx₁ := hkept.grid.sx
    refine (ih hkept.rows (hsx₁.symm ▸ hx) (hsx₁.symm ▸ hsx) (by rw [hsx₁]; omega)).mono fun s₂ h₂ => ?_
    exact ⟨by rw [h₂.1, hcx, Nat.add_assoc], h₂.2.trans hcy⟩

/-! ## Limits -/

/-- The characters of a string, each with the cell it is written with. -/
def characters (defgc : Option GridCell) (utf8flag : Bool) (msg : List UInt8) (gc : GridCell) :
    List (GridCell × Option Utf8Data) :=
  charactersFrom defgc utf8flag msg.length msg gc

/-- A string is written within a limit: so are the cells written for it, and the cursor, if there is
    room in its row, moves by just as many columns. -/
structure StringWithin (limit : ℕ) (text : List (GridCell × Option Utf8Data)) (write : Screen → Exec Screen) :
    Prop where
  cells : ∃ written, WithinLimit limit text written ∧ ∀ s, write s = writeCells s written
  cursor : ∀ s s', s.InRows → 1 ≤ s.grid.sx → s.grid.sx < Exec.word →
    s.cx + min (columns text) limit ≤ s.grid.sx → (write s).value? = some s' →
    s'.cx = s.cx + min (columns text) limit ∧ s'.cy = s.cy

theorem StringWithin.of_cells {limit : ℕ} {write : Screen → Exec Screen} (h : WithinLimit limit text written)
    (hwrite : ∀ s, write s = writeCells s written) : StringWithin limit text write where
  cells := ⟨written, h, hwrite⟩
  cursor s s' hrows hx hsx hfits hval := by
    rw [hwrite] at hval
    rw [← h.total] at hfits ⊢
    exact (writeCells_moves hrows hx hsx hfits).value hval

/-- The data of the UTF-8 characters of a string is there. -/
theorem characters_data {cell : GridCell × Option Utf8Data} {msg : List UInt8} (hgc : gc.Plain)
    (hcell : cell ∈ charactersFrom defgc utf8flag n msg gc) : cell.1.isUtf8 = true → ∃ u, cell.2 = some u := by
  induction n generalizing msg gc with
  | zero => cases hcell
  | succ n ih =>
    cases msg with
    | nil => cases hcell
    | cons ch ptr =>
      rw [charactersFrom] at hcell
      rcases hstyle : embeddedStyle defgc gc ch ptr with _ | _ | ⟨gc', rest⟩
      · rw [hstyle] at hcell
        rcases hread : (readCharacter utf8flag ch ptr).value? with _ | _ | ⟨_ | utf8data, rest⟩
        · rw [hread] at hcell
          cases hcell
        · rw [hread] at hcell
          cases hcell
        · rw [hread] at hcell
          rcases List.mem_cons.1 hcell with rfl | hcell
          · exact fun hutf8 => absurd hutf8 (by simpa using (hgc.withData ch).isUtf8)
          · exact ih (hgc.withData ch) hcell
        · rw [hread] at hcell
          rcases List.mem_cons.1 hcell with rfl | hcell
          · exact fun _ => ⟨utf8data, rfl⟩
          · exact ih hgc.cleared hcell
      · rw [hstyle] at hcell
        cases hcell
      · rw [hstyle] at hcell
        exact ih (embeddedStyle_plain hgc hstyle) hcell

/-- The width of a string is the number of columns of its characters. -/
theorem strlenFrom_columns (utf8flag : Bool) (n : ℕ) (msg : List UInt8) (hgc : gc.Plain) :
    strlenFrom utf8flag n msg = pure (columns (charactersFrom none utf8flag n msg gc)) := by
  induction n generalizing msg gc with
  | zero => rfl
  | succ n ih =>
    cases msg with
    | nil => rfl
    | cons ch ptr =>
      obtain ⟨next, hnext⟩ := readCharacter_pure utf8flag ch ptr
      rw [strlenFrom, charactersFrom]
      simp only [embeddedStyle, hnext, pure_bind, Exec.value?_pure]
      rcases next with _ | ⟨_ | utf8data, rest⟩
      · rfl
      · dsimp only
        rw [ih rest (hgc.withData ch), pure_bind, columns_cons, hgc.width, Nat.add_comm]
        rfl
      · dsimp only
        rw [ih rest hgc.cleared, pure_bind, columns_cons, hgc.utf8Width, Nat.add_comm]
        rfl

theorem screenWriteStrlen_columns (utf8flag : Bool) (msg : List UInt8) (hgc : gc.Plain) :
    screenWriteStrlen utf8flag msg = pure (columns (characters none utf8flag msg gc)) :=
  strlenFrom_columns utf8flag _ msg hgc

/-- A screen without its row, on which nothing can be drawn. -/
def bareScreen : Screen where
  grid := { sx := 1, sy := 1, hlimit := 0, linedata := [] }
  mode := modeWrap

/-- Only cells without columns are written to it. -/
theorem writeCells_bare (hcells : ∀ cell ∈ cells, cell.1.isUtf8 = true → ∃ u, cell.2 = some u) :
    writeCells bareScreen cells = pure bareScreen ↔ columns cells = 0 := by
  induction cells with
  | nil => exact iff_of_true rfl rfl
  | cons cell cells ih =>
    obtain ⟨gc, utf8data⟩ := cell
    have hrest := ih fun cell hcell => hcells cell (List.mem_cons_of_mem _ hcell)
    rw [writeCells_cons, columns_cons, writtenWidth]
    dsimp only
    by_cases hpad : gc.isPadding = true
    · rw [screenWriteCell, if_pos hpad, if_pos hpad, pure_bind, Nat.zero_add]
      exact hrest
    · rw [screenWriteCell, if_neg hpad, if_neg hpad]
      have hroom : ∀ width, lacksRoom bareScreen width = pure false := fun width => if_pos (.inl (by decide))
      have hwidth : characterWidth gc utf8data = pure (cellWidth gc utf8data) := by
        rw [characterWidth, cellWidth]
        split_ifs with hutf8
        · obtain ⟨u, rfl⟩ := hcells _ List.mem_cons_self hutf8
          rfl
        · rfl
      rw [hwidth, pure_bind, hroom, pure_bind, if_neg (by simp)]
      split_ifs with hzero
      · have hutf8 : gc.isUtf8 = true := by
          by_contra hutf8
          rw [cellWidth, if_neg hutf8] at hzero
          omega
        obtain ⟨u, rfl⟩ := hcells _ List.mem_cons_self hutf8
        have hcombine : screenWriteCombine bareScreen u = pure bareScreen := if_pos rfl
        rw [hzero, Nat.zero_add, ← hrest, Exec.follow_some, pure_bind, hcombine, pure_bind]
      · refine iff_of_false (fun heq => ?_) (by omega)
        cases heq

/-- A string within a limit of zero has no columns. -/
theorem StringWithin.zero {write : Screen → Exec Screen} (h : StringWithin 0 text write)
    (htext : ∀ cell ∈ text, cell.1.isUtf8 = true → ∃ u, cell.2 = some u)
    (hwrite : ∀ s, write s = writeCells s text) : columns text = 0 := by
  obtain ⟨written, hwithin, hwritten⟩ := h.cells
  obtain ⟨p, fill, hp, rfl⟩ := hwithin.fitting
  rw [Nat.min_zero, Nat.zero_sub, List.replicate_zero, List.append_nil] at hwritten
  rw [← writeCells_bare htext, ← hwrite, hwritten,
    writeCells_bare fun cell hcell => htext cell (hp.initial.subset hcell)]
  exact Nat.le_zero.1 hp.fits

/-- A string is written within a limit exactly if that is not zero or the string has no columns. -/
theorem nputsFrom_iff (hgc : gc.Plain) (hdef : ∀ gc ∈ defgc, gc.Plain) (limit : ℕ) (utf8flag : Bool)
    (msg : List UInt8) :
    StringWithin limit (characters defgc utf8flag msg gc) (nputsFrom defgc limit utf8flag msg.length msg 0 gc) ↔
      0 < limit ∨ columns (characters defgc utf8flag msg gc) = 0 := by
  rcases Nat.eq_zero_or_pos limit with rfl | hpos
  · have hrun : ∀ s, nputsFrom defgc 0 utf8flag msg.length msg 0 gc s = writeCells s (characters defgc utf8flag msg gc) :=
      nputsFrom_unlimited (Int.le_refl 0) utf8flag msg.length msg 0 gc
    refine ⟨fun h => .inr (h.zero (fun _ => characters_data hgc) hrun), fun h => ?_⟩
    have hnone := h.resolve_left (by omega)
    refine .of_cells ⟨⟨_, gc, .whole hnone.le, ?_⟩, ?_⟩ hrun
    · rw [Nat.min_zero, Nat.zero_sub, List.replicate_zero, List.append_nil]
    · rw [hnone, Nat.min_self]
  · refine iff_of_true ?_ (.inl hpos)
    obtain ⟨written, hwithin, hrun⟩ := nputsFrom_limited hpos hdef utf8flag msg.length msg (Nat.zero_le limit) hgc
    exact .of_cells hwithin hrun

/-- Both functions write a string within a limit exactly if that is not zero or the string has no
    columns. -/
theorem nputs_iff (hgc : gc.Plain) (maxlen : ℕ) (utf8flag : Bool) (msg : List UInt8) :
    (StringWithin maxlen (characters none utf8flag msg gc) (screenWriteVnputs · maxlen gc utf8flag msg) ↔
      0 < maxlen ∨ columns (characters none utf8flag msg gc) = 0) ∧
    (StringWithin maxlen (characters (some gc) utf8flag msg gc) (screenWriteCnputs · maxlen gc utf8flag msg) ↔
      0 < maxlen ∨ columns (characters (some gc) utf8flag msg gc) = 0) :=
  ⟨nputsFrom_iff hgc (by simp) maxlen utf8flag msg,
    nputsFrom_iff hgc (fun _ h => Option.some.inj h ▸ hgc) maxlen utf8flag msg⟩

theorem gridDefaultCell_plain : gridDefaultCell.Plain := ⟨rfl, rfl⟩

/-- A wide character does not fit in the last of two columns: a letter and a blank are written. -/
theorem nputs_wide :
    StringWithin 2 (characters none true [97, 0xe4, 0xb8, 0x80] gridDefaultCell)
      (screenWriteVnputs · 2 gridDefaultCell true [97, 0xe4, 0xb8, 0x80]) :=
  (nputs_iff gridDefaultCell_plain 2 true [97, 0xe4, 0xb8, 0x80]).1.2 (.inl (by decide))

/-- With a limit of zero, a letter is written. -/
theorem nputs_zero :
    ¬ StringWithin 0 (characters none false [97] gridDefaultCell)
      (screenWriteVnputs · 0 gridDefaultCell false [97]) := fun h =>
  absurd ((nputsFrom_iff gridDefaultCell_plain (by simp) 0 false [97]).1 h) (by decide)

end Tmux
