import Tmux.Tty.Recognised

/-!
# Reading reports within the buffer

`ttyKeysMouseAt` and `ttyKeysDeviceAt` look at a memory, of which the buffer are the first `len`
bytes, and fault where it ends. They do what `ttyKeysMouse` and `ttyKeysDevice` do in the memory
of a buffer with one byte after it.

In a memory that ends with the buffer they find a report that is complete, but run past the end if
more than its first three bytes are there and the rest is not (`Follows`). So they stay in the
buffer, and tell reports, if and only if it is not empty and no such report is in it
(`ttyKeysReports_within_iff`).
-/

namespace Tmux

open Exec (Refines)
open Recogniser

variable {mem buf : List UInt8} {len : ℕ}

/-! ## Reading from memory -/

/-- The start of a report, of three bytes, of which the last one is tested. -/
def reportStartAt (third : UInt8 → Bool) (mem : List UInt8) (len : ℕ) : Exec (Answer Unit) := do
  let c₀ ← Block.load mem 0
  if c₀ ≠ 27 then pure .no
  else if len = 1 then pure .more
  else do
    let c₁ ← Block.load mem 1
    if c₁ ≠ 91 then pure .no
    else if len = 2 then pure .more
    else do
      let c₂ ← Block.load mem 2
      if !third c₂ then pure .no
      else if len = 3 then pure .more
      else pure (.found ())

/-- Read a value of a mouse report at an offset, and the offset after it. -/
def readMouseAt (utf8 : Bool) (mem : List UInt8) (len size : ℕ) : Exec (Answer (ℕ × ℕ)) :=
  if len < size then pure .more
  else do
    let ch ← Block.load mem size
    if utf8 then do
      let (utf8data, more) ← utf8Open ch
      if more ≠ 0 then
        if utf8data.size ≠ 2 then pure .no
        else if len < size + 1 then pure .more
        else do
          let ch ← Block.load mem (size + 1)
          let (utf8data, _) ← utf8Append utf8data ch
          pure (.found (utf8Combine utf8data, size + 2))
      else pure (.found (ch.toNat, size + 1))
    else pure (.found (ch.toNat, size + 1))

/-- Read a value and go on with it, if there is one. -/
def mouseValueAt (utf8 : Bool) (mem : List UInt8) (len size : ℕ) (m : MouseEvent)
    (go : ℕ → ℕ → Exec (MouseEvent × Answer ℕ)) : Exec (MouseEvent × Answer ℕ) := do
  match ← readMouseAt utf8 mem len size with
  | .no => pure (m, .no)
  | .more => pure (m, .more)
  | .found (value, size) => go value size

/-- Handle mouse key input. -/
def ttyKeysMouseAt (utf8 : Bool) (m : MouseEvent) (mem : List UInt8) (len : ℕ) :
    Exec (MouseEvent × Answer ℕ) := do
  match ← reportStartAt (· = 77) mem len with
  | .no => pure (m, .no)
  | .more => pure (m, .more)
  | .found () =>
    mouseValueAt utf8 mem len 3 m fun b size =>
      mouseValueAt utf8 mem len size { m with b } fun x size =>
        mouseValueAt utf8 mem len size { m with b, x } fun y size =>
          pure (checkMouse { b, x, y } size)

/-- Copy the rest of a reply up to a `c`, as far as there is room. -/
def deviceTextAt (mem : List UInt8) (len : ℕ) : ℕ → ℕ → Exec (Answer (List UInt8))
  | 0, _ => pure .no
  | room + 1, i => do
    let c ← Block.load mem i
    if c = 99 then pure (.found [])
    else if i = len then pure .more
    else do
      match ← deviceTextAt mem len room (i + 1) with
      | .found tmp => pure (.found (c :: tmp))
      | .no => pure .no
      | .more => pure .more

/-- Handle device attributes input. -/
def ttyKeysDeviceAt (mem : List UInt8) (len : ℕ) : Exec (Answer (ℕ × Option ℕ)) := do
  match ← reportStartAt (fun c => c = 62 || c = 63) mem len with
  | .no => pure .no
  | .more => pure .more
  | .found () =>
    match ← deviceTextAt mem len 63 3 with
    | .no => pure .no
    | .more => pure .more
    -- Only secondary is of interest.
    | .found tmp => pure (.found (4 + tmp.length, if mem[2]? = some 62 then some (deviceVersion tmp) else none))

/-! ## In the memory of a buffer and one byte after it -/

theorem reportStartAt_eq (third : UInt8 → Bool) (hbuf : buf ≠ []) (after : List UInt8) :
    reportStartAt third (buf ++ after) buf.length = pure (reportStart third buf) := by
  rcases buf with _ | ⟨c₀, _ | ⟨c₁, _ | ⟨c₂, buf⟩⟩⟩
  · exact absurd rfl hbuf
  all_goals
    unfold reportStartAt reportStart
    simp only [List.cons_append, Block.load, List.getElem?_cons_zero, List.getElem?_cons_succ, List.length_cons,
      List.length_nil, pure_bind]
    split_ifs <;> simp_all

theorem ttyKeysMouseAt_past (utf8 : Bool) (m : MouseEvent) (hbuf : buf ≠ []) (past : UInt8) :
    ttyKeysMouseAt utf8 m (buf ++ [past]) buf.length = ttyKeysMouse utf8 m buf past := by
  rw [ttyKeysMouseAt, reportStartAt_eq _ hbuf, pure_bind]
  rfl

theorem deviceTextAt_past (past : UInt8) (room : ℕ) {i : ℕ} (hi : i ≤ buf.length) :
    deviceTextAt (buf ++ [past]) buf.length room i = pure (deviceText past room (buf.drop i)) := by
  induction room generalizing i with
  | zero => rfl
  | succ room ih =>
    rcases Nat.lt_or_eq_of_le hi with hlt | rfl
    · have hload : (buf ++ [past])[i]? = some buf[i] := by
        rw [List.getElem?_append_left hlt, List.getElem?_eq_getElem hlt]
      rw [deviceTextAt, Block.load_eq hload, pure_bind, List.drop_eq_getElem_cons hlt, deviceText, if_neg hlt.ne, ih hlt,
        pure_bind]
      split_ifs
      · rfl
      · cases deviceText past room (buf.drop (i + 1)) <;> rfl
    · have hload : (buf ++ [past])[buf.length]? = some past := by simp
      rw [deviceTextAt, Block.load_eq hload, pure_bind, List.drop_length, deviceText, if_pos rfl]
      split_ifs <;> rfl

/-- More than the first three bytes of a report are there where it starts. -/
theorem lt_length_of_reportStart {third : UInt8 → Bool} (h : reportStart third buf = .found ()) : 3 < buf.length := by
  rcases buf with _ | ⟨c₀, _ | ⟨c₁, _ | ⟨c₂, _ | ⟨c₃, buf⟩⟩⟩⟩
  · cases h
  all_goals
    unfold reportStart at h
    simp only [] at h
    split_ifs at h
  simp

theorem ttyKeysDeviceAt_past (hbuf : buf ≠ []) (past : UInt8) :
    ttyKeysDeviceAt (buf ++ [past]) buf.length = pure (ttyKeysDevice buf past) := by
  rw [ttyKeysDeviceAt, reportStartAt_eq _ hbuf, pure_bind, ttyKeysDevice]
  cases hstart : reportStart (fun c => c = 62 || c = 63) buf with
  | no => rfl
  | more => rfl
  | found u =>
    have hlen := lt_length_of_reportStart hstart
    dsimp only
    rw [deviceTextAt_past past 63 (by omega), pure_bind, List.getElem?_append_left (by omega)]
    cases deviceText past 63 (buf.drop 3) <;> rfl

/-! ## In larger memories -/

/-- What is loaded from a memory is loaded from a larger one. -/
theorem load_refines_append (mem after : List UInt8) (i : ℕ) :
    Refines id (Block.load mem i) (Block.load (mem ++ after) i) := by
  intro c hc
  have hget := (Block.load_entries (w := .all) trivial i).value hc
  rw [Block.load_eq (l := mem ++ after) (i := i) (a := c)]
  · rfl
  · rw [List.getElem?_append_left (List.getElem?_eq_some_iff.1 hget).1, hget]

theorem readMouseAt_refines (utf8 : Bool) (mem after : List UInt8) (len size : ℕ) :
    Refines id (readMouseAt utf8 mem len size) (readMouseAt utf8 (mem ++ after) len size) := by
  unfold readMouseAt
  by_cases hend : len < size
  · rw [if_pos hend, if_pos hend]
    exact .pure rfl
  rw [if_neg hend, if_neg hend]
  refine (load_refines_append mem after size).bind fun ch _ => ?_
  dsimp only [id]
  cases utf8 with
  | false => exact .pure rfl
  | true =>
    refine Refines.bind (f := id) (fun _ h => h) fun u _ => ?_
    dsimp only [id]
    split_ifs
    · exact .pure rfl
    · exact .pure rfl
    · refine (load_refines_append mem after _).bind fun ch' _ => ?_
      exact Refines.bind (f := id) (fun _ h => h) fun u' _ => .pure rfl
    · exact .pure rfl

theorem mouseValueAt_refines (utf8 : Bool) (mem after : List UInt8) (len size : ℕ) (m : MouseEvent)
    {go go' : ℕ → ℕ → Exec (MouseEvent × Answer ℕ)} (hgo : ∀ value size, Refines id (go value size) (go' value size)) :
    Refines id (mouseValueAt utf8 mem len size m go) (mouseValueAt utf8 (mem ++ after) len size m go') := by
  refine (readMouseAt_refines utf8 mem after len size).bind fun answer _ => ?_
  cases answer with
  | no => exact .pure rfl
  | more => exact .pure rfl
  | found r => exact hgo r.1 r.2

theorem ttyKeysMouseAt_refines (utf8 : Bool) (m : MouseEvent) (after : List UInt8) (hbuf : buf ≠ []) :
    Refines id (ttyKeysMouseAt utf8 m buf buf.length) (ttyKeysMouseAt utf8 m (buf ++ after) buf.length) := by
  have hstart := reportStartAt_eq (· = 77) hbuf []
  rw [List.append_nil] at hstart
  rw [ttyKeysMouseAt, ttyKeysMouseAt, hstart, reportStartAt_eq _ hbuf, pure_bind, pure_bind]
  cases reportStart (· = 77) buf with
  | no => exact .pure rfl
  | more => exact .pure rfl
  | found u =>
    exact mouseValueAt_refines _ _ _ _ _ _ fun _ _ => mouseValueAt_refines _ _ _ _ _ _ fun _ _ =>
      mouseValueAt_refines _ _ _ _ _ _ fun _ _ => .pure rfl

theorem deviceTextAt_refines (mem after : List UInt8) (len room i : ℕ) :
    Refines id (deviceTextAt mem len room i) (deviceTextAt (mem ++ after) len room i) := by
  induction room generalizing i with
  | zero => exact .pure rfl
  | succ room ih =>
    refine (load_refines_append mem after i).bind fun c _ => ?_
    dsimp only [id]
    split_ifs
    · exact .pure rfl
    · exact .pure rfl
    · refine (ih (i + 1)).bind fun answer _ => ?_
      cases answer <;> exact .pure rfl

theorem ttyKeysDeviceAt_refines (after : List UInt8) (hbuf : buf ≠ []) :
    Refines id (ttyKeysDeviceAt buf buf.length) (ttyKeysDeviceAt (buf ++ after) buf.length) := by
  have hstart := reportStartAt_eq (fun c => c = 62 || c = 63) hbuf []
  rw [List.append_nil] at hstart
  rw [ttyKeysDeviceAt, ttyKeysDeviceAt, hstart, reportStartAt_eq _ hbuf, pure_bind, pure_bind]
  cases hstart : reportStart (fun c => c = 62 || c = 63) buf with
  | no => exact .pure rfl
  | more => exact .pure rfl
  | found u =>
    have hlen := lt_length_of_reportStart hstart
    refine (deviceTextAt_refines buf after buf.length 63 3).bind fun answer _ => ?_
    rw [List.getElem?_append_left (by omega)]
    cases answer <;> exact .pure rfl

/-! ## In a memory that ends with the buffer -/

/-- A value is read as it is recognised, but where it goes on past the buffer. -/
theorem readMouseAt_exact (utf8 : Bool) {size : ℕ} (hsize : size ≤ buf.length) :
    match mouseCoordinate utf8 (buf.drop size) with
    | .no => readMouseAt utf8 buf buf.length size = pure .no
    | .more => readMouseAt utf8 buf buf.length size = .fault .overread
    | .found (value, rest) => readMouseAt utf8 buf buf.length size = pure (.found (value, buf.length - rest.length)) := by
  unfold readMouseAt
  rw [if_neg hsize.not_gt]
  rcases hdrop : buf.drop size with _ | ⟨ch, rest⟩
  · have hload : buf[size]? = none := List.getElem?_eq_none (List.drop_eq_nil_iff.1 hdrop)
    show Block.load buf size >>= _ = _
    rw [Block.load, hload]
    rfl
  have hload : buf[size]? = some ch := by rw [← List.head?_drop, hdrop, List.head?_cons]
  have hnext : buf[size + 1]? = rest.head? := by
    rw [← List.head?_drop, ← List.drop_drop, hdrop, List.drop_one, List.tail_cons]
  have hrest : rest.length + 1 = buf.length - size := by rw [← List.length_drop, hdrop, List.length_cons]
  rw [Block.load_eq hload, pure_bind, mouseCoordinate, andThen, item]
  dsimp only
  cases utf8 with
  | false =>
    rw [if_neg Bool.false_ne_true, if_neg (by simp)]
    dsimp only [unit]
    rw [show buf.length - rest.length = size + 1 by omega]
  | true =>
    rw [if_pos rfl]
    by_cases hopens : 0xc2 ≤ ch ∧ ch ≤ 0xf4
    · rw [if_pos (by simpa using hopens)]
      by_cases htwo : ch ≤ 0xdf
      · rw [utf8Open_two hopens.1 htwo, pure_bind, if_pos htwo]
        have hin : ¬ buf.length < size + 1 := by omega
        rcases rest with _ | ⟨ch', rest⟩
        · simp only [List.head?_nil] at hnext
          simp [hin, andThen, item, Block.load, hnext]
        · simp only [List.head?_cons] at hnext
          have hsize : buf.length - rest.length = size + 2 := by
            rw [List.length_cons] at hrest
            omega
          simp [hin, andThen, item, Block.load_eq hnext, utf8Append, utf8Size, unit, twoBytes, utf8Combine, hsize]
      · obtain ⟨u, hu, hsize⟩ := utf8Open_long htwo hopens.2
        rw [hu, pure_bind, if_neg htwo]
        simp [hsize, nothing]
    · rw [utf8Open_none hopens, pure_bind, if_neg (c := _ = true) (by simpa using hopens)]
      dsimp only [unit]
      rw [show buf.length - rest.length = size + 1 by omega]
      rfl

/-- The size that a parser finds follows a recogniser: what it finds is recognised, in the buffer, and it runs past
    the end of the buffer where more is needed. -/
def Exact {β : Type} (n : ℕ) (x : Exec (Answer ℕ)) : Answer (β × List UInt8) → Prop
  | .no => x = pure .no
  | .more => x = .fault .overread
  | .found (_, rest) => x = pure (.found (n - rest.length))

/-- A value is read, and what follows it is read after it. -/
theorem mouseValueAt_exact (utf8 : Bool) {size : ℕ} (hsize : size ≤ buf.length) (m : MouseEvent)
    {go : ℕ → ℕ → Exec (MouseEvent × Answer ℕ)} {S : ℕ → Recogniser UInt8 MouseEvent}
    (hgo : ∀ value, ∀ size ≤ buf.length, Exact buf.length (Prod.snd <$> go value size) (S value (buf.drop size))) :
    Exact buf.length (Prod.snd <$> mouseValueAt utf8 buf buf.length size m go)
      ((mouseCoordinate utf8).andThen S (buf.drop size)) := by
  have hread := readMouseAt_exact utf8 hsize
  unfold mouseValueAt andThen
  cases hvalue : mouseCoordinate utf8 (buf.drop size) with
  | no =>
    rw [hvalue] at hread
    dsimp only at hread
    rw [hread]
    rfl
  | more =>
    rw [hvalue] at hread
    dsimp only at hread
    rw [hread]
    rfl
  | found r =>
    have hsuffix := ((takes_mouseCoordinate utf8).splits hvalue).trans (List.drop_suffix size buf)
    have hdrop := List.suffix_iff_eq_drop.1 hsuffix
    rw [hvalue] at hread
    dsimp only at hread ⊢
    have hrest := hgo r.1 (buf.length - r.2.length) (Nat.sub_le _ _)
    rw [← hdrop] at hrest
    rw [hread, pure_bind]
    exact hrest

/-- What is left of a text is in the buffer, and what is copied of it before. -/
theorem deviceTextAt_exact (room : ℕ) {i : ℕ} (hi : i ≤ buf.length) :
    match replyText room (buf.drop i) with
    | .no => deviceTextAt buf buf.length room i = pure .no
    | .more => deviceTextAt buf buf.length room i = .fault .overread
    | .found (_, rest) => ∃ tmp, deviceTextAt buf buf.length room i = pure (.found tmp) ∧
        i + (tmp.length + 1) = buf.length - rest.length := by
  induction room generalizing i with
  | zero => rfl
  | succ room ih =>
    rcases Nat.lt_or_eq_of_le hi with hlt | rfl
    · have hnext := ih hlt
      rw [deviceTextAt, Block.load_eq (List.getElem?_eq_getElem hlt), pure_bind, List.drop_eq_getElem_cons hlt, replyText,
        andThen, item, if_neg hlt.ne]
      dsimp only
      by_cases hc : buf[i] = 99
      · rw [if_pos hc, if_pos hc]
        refine ⟨[], rfl, ?_⟩
        rw [List.length_drop, List.length_nil]
        omega
      · rw [if_neg hc, if_neg hc]
        cases hr : replyText room (buf.drop (i + 1)) with
        | no =>
          rw [hr] at hnext
          dsimp only at hnext ⊢
          rw [hnext, pure_bind]
        | more =>
          rw [hr] at hnext
          dsimp only at hnext ⊢
          rw [hnext]
          rfl
        | found r =>
          rw [hr] at hnext
          obtain ⟨tmp, htmp, hlen⟩ := hnext
          refine ⟨buf[i] :: tmp, by rw [htmp, pure_bind], ?_⟩
          rw [List.length_cons]
          omega
    · rw [List.drop_length]
      show Block.load buf buf.length >>= _ = _
      rw [Block.load, List.getElem?_eq_none (le_refl _)]
      rfl

/-! ## Parsers of reports -/

/-- A parser of reports that start with three bytes, which follows a recogniser: it asks for more in those, runs past
    the end of the buffer where more is needed after them, and does the same in a larger memory if it does
    not. -/
structure Follows {β : Type} (f : List UInt8 → ℕ → Exec (Answer ℕ)) (R : Recogniser UInt8 β) : Prop where
  empty : f [] 0 = .fault .overread
  head : ∀ buf, buf ≠ [] → buf.length ≤ 3 →
    (R buf = .no ∧ f buf buf.length = pure .no) ∨ (R buf = .more ∧ f buf buf.length = pure .more)
  rest : ∀ buf, 3 < buf.length → Exact buf.length (f buf buf.length) (R buf)
  larger : ∀ buf after, buf ≠ [] → Refines id (f buf buf.length) (f (buf ++ after) buf.length)

/-- A parser reads only the buffer, finds nothing longer than it, and asks for more in the start of whatever it would
    find if it was complete. -/
structure ReadsReports (f : List UInt8 → ℕ → Exec (Answer ℕ)) (buf : List UInt8) : Prop where
  within : f buf buf.length ≠ .fault .overread
  size : ∀ after size, (f (buf ++ after) buf.length).value? = some (.found size) → size ≤ buf.length
  starts : buf ≠ [] →
    (∃ report, buf <+: report ∧ buf ≠ report ∧ (f report report.length).value? = some (.found report.length)) →
    ∀ after, (f (buf ++ after) buf.length).value? = some .more

section

variable {β : Type} {f : List UInt8 → ℕ → Exec (Answer ℕ)} {R : Recogniser UInt8 β}

theorem Follows.eq_no (h : Follows f R) (hbuf : buf ≠ []) (hno : R buf = .no) : f buf buf.length = pure .no := by
  by_cases hlen : buf.length ≤ 3
  · rcases h.head buf hbuf hlen with hhead | hhead
    · exact hhead.2
    · rw [hno] at hhead
      cases hhead.1
  · have hrest := h.rest buf (by omega)
    rw [hno] at hrest
    exact hrest

theorem Follows.readsReports_iff (h : Follows f R) (hR : Stable R) :
    ReadsReports f buf ↔ buf ≠ [] ∧ (3 < buf.length → R buf ≠ .more) := by
  constructor
  · intro hreads
    refine ⟨?_, fun hlen hmore => ?_⟩
    · rintro rfl
      exact hreads.within h.empty
    · have hrest := h.rest buf hlen
      rw [hmore] at hrest
      exact hreads.within hrest
  · rintro ⟨hbuf, hmore⟩
    have hlarger : ∀ {answer : Answer ℕ}, f buf buf.length = pure answer →
        ∀ after, (f (buf ++ after) buf.length).value? = some answer := fun heq after =>
      h.larger buf after hbuf _ (by rw [heq]; rfl)
    cases hr : R buf with
    | no =>
      have hno := h.eq_no hbuf hr
      refine ⟨by rw [hno]; exact nofun, fun after size hsize => ?_, ?_⟩
      · rw [hlarger hno after] at hsize
        cases hsize
      · -- There is nothing in what it is the start of, either.
        rintro - ⟨report, ⟨q, rfl⟩, -, hreport⟩
        rw [h.eq_no (by simp [hbuf]) (hR.no hr q)] at hreport
        cases hreport
    | more =>
      have hlen : buf.length ≤ 3 := by
        by_contra hlen
        exact hmore (by omega) hr
      have heq := ((h.head buf hbuf hlen).resolve_left fun hhead => by rw [hr] at hhead; cases hhead.1).2
      refine ⟨by rw [heq]; exact nofun, fun after size hsize => ?_, fun _ _ => hlarger heq⟩
      rw [hlarger heq after] at hsize
      cases hsize
    | found r =>
      have hlen : 3 < buf.length := by
        by_contra hlen
        rcases h.head buf hbuf (by omega) with hhead | hhead <;> rw [hr] at hhead <;> cases hhead.1
      have heq := h.rest buf hlen
      rw [hr] at heq
      refine ⟨by rw [heq]; exact nofun, fun after size hsize => ?_, ?_⟩
      · rw [hlarger heq after] at hsize
        obtain rfl := Answer.found.inj (Option.some.inj hsize)
        exact Nat.sub_le _ _
      · -- What is found in the start is not all of a longer report.
        rintro - ⟨report, ⟨q, rfl⟩, hne, hreport⟩
        have hlong := h.rest (buf ++ q) (by rw [List.length_append]; omega)
        have hfound : R (buf ++ q) = .found (r.1, r.2 ++ q) := hR.found hr q
        rw [hfound] at hlong
        rw [show f (buf ++ q) (buf ++ q).length = _ from hlong] at hreport
        have hsize := Answer.found.inj (Option.some.inj hreport)
        refine absurd ?_ hne
        rw [List.length_append, List.length_append] at hsize
        rw [List.eq_nil_of_length_eq_zero (l := q) (by omega), List.append_nil]

end

section

variable {β : Type} {S : Unit → Recogniser UInt8 β}

/-- The start of a report of three bytes at most is looked at as it is recognised. -/
theorem reportStart_head (third : UInt8 → Bool) (hS : S () [] = .more) (hbuf : buf ≠ []) (hlen : buf.length ≤ 3) :
    ((reportHead third).andThen S buf = .no ∧ reportStart third buf = .no) ∨
      ((reportHead third).andThen S buf = .more ∧ reportStart third buf = .more) := by
  have hstart := reportStart_eq third hbuf
  cases hhead : reportHead third buf with
  | no =>
    rw [hhead] at hstart
    exact .inl ⟨andThen_no hhead, hstart⟩
  | more =>
    rw [hhead] at hstart
    exact .inr ⟨andThen_more hhead, hstart.1⟩
  | found r =>
    obtain ⟨⟨⟩, rest⟩ := r
    rw [hhead] at hstart
    obtain ⟨hstart, c₂, rfl⟩ := hstart
    obtain rfl : rest = [] := List.eq_nil_of_length_eq_zero (by simp only [List.length_cons] at hlen; omega)
    exact .inr ⟨by rw [andThen_found hhead, hS], hstart⟩

/-- The start of a longer one is there if it is recognised, and its rest follows. -/
theorem reportStart_rest (third : UInt8 → Bool) (hlen : 3 < buf.length) :
    ((reportHead third).andThen S buf = .no ∧ reportStart third buf = .no) ∨
      ((reportHead third).andThen S buf = S () (buf.drop 3) ∧ reportStart third buf = .found ()) := by
  have hstart := reportStart_eq third (List.ne_nil_of_length_pos (by omega) : buf ≠ [])
  cases hhead : reportHead third buf with
  | no =>
    rw [hhead] at hstart
    exact .inl ⟨andThen_no hhead, hstart⟩
  | more =>
    rw [hhead] at hstart
    exact absurd hstart.2 (by omega)
  | found r =>
    obtain ⟨⟨⟩, rest⟩ := r
    rw [hhead] at hstart
    obtain ⟨hstart, c₂, rfl⟩ := hstart
    have hrest : rest ≠ [] := by
      rintro rfl
      simp at hlen
    rw [if_neg hrest] at hstart
    exact .inr ⟨andThen_found hhead, hstart⟩

end

theorem reportStartAt_exact (third : UInt8 → Bool) (hbuf : buf ≠ []) :
    reportStartAt third buf buf.length = pure (reportStart third buf) := by
  have hstart := reportStartAt_eq third hbuf []
  rwa [List.append_nil] at hstart

/-- The size of a mouse report. -/
def mouseSize (utf8 : Bool) (m : MouseEvent) (mem : List UInt8) (len : ℕ) : Exec (Answer ℕ) :=
  Prod.snd <$> ttyKeysMouseAt utf8 m mem len

/-- The size of a reply about the device attributes. -/
def deviceSize (mem : List UInt8) (len : ℕ) : Exec (Answer ℕ) := Answer.map Prod.fst <$> ttyKeysDeviceAt mem len

theorem refines_map {α β : Type} {x y : Exec α} (h : Refines id x y) (f : α → β) : Refines id (f <$> x) (f <$> y) := by
  rw [map_eq_pure_bind, map_eq_pure_bind]
  exact h.bind fun a _ => .pure rfl

theorem mouseSize_follows (utf8 : Bool) (m : MouseEvent) : Follows (mouseSize utf8 m) (mouseReport utf8) where
  empty := rfl
  head buf hbuf hlen := by
    unfold mouseSize ttyKeysMouseAt
    rw [reportStartAt_exact _ hbuf, pure_bind]
    refine (reportStart_head (· = 77) rfl hbuf hlen).imp (fun h => ⟨h.1, ?_⟩) fun h => ⟨h.1, ?_⟩ <;> rw [h.2] <;> rfl
  rest buf hlen := by
    unfold mouseSize ttyKeysMouseAt mouseReport
    rw [reportStartAt_exact _ (List.ne_nil_of_length_pos (by omega)), pure_bind]
    rcases reportStart_rest (S := fun _ => (mouseCoordinate utf8).andThen fun b =>
      (mouseCoordinate utf8).andThen fun x => (mouseCoordinate utf8).andThen fun y =>
        if b < 32 ∨ x < 33 ∨ y < 33 then nothing else unit (MouseEvent.mk (x - 33) (y - 33) (b - 32)))
      (· = 77) hlen with h | h
    · rw [h.1, h.2]
      rfl
    · rw [h.1, h.2]
      dsimp only
      refine mouseValueAt_exact utf8 (by omega) m fun b size hsize => mouseValueAt_exact utf8 hsize _ fun x size hsize =>
        mouseValueAt_exact utf8 hsize _ fun y size hsize => ?_
      rw [map_pure, checkMouse]
      dsimp only
      split_ifs with hvalues
      · rfl
      · refine congrArg (fun n => (pure (Answer.found n) : Exec (Answer ℕ))) ?_
        rw [List.length_drop]
        omega
  larger buf after hbuf := refines_map (ttyKeysMouseAt_refines utf8 m after hbuf) _

theorem deviceSize_follows : Follows deviceSize deviceReply where
  empty := rfl
  head buf hbuf hlen := by
    unfold deviceSize ttyKeysDeviceAt
    rw [reportStartAt_exact _ hbuf, pure_bind]
    refine (reportStart_head (fun c => c = 62 || c = 63) rfl hbuf hlen).imp (fun h => ⟨h.1, ?_⟩) fun h => ⟨h.1, ?_⟩ <;>
      rw [h.2] <;> rfl
  rest buf hlen := by
    unfold deviceSize ttyKeysDeviceAt deviceReply
    rw [reportStartAt_exact _ (List.ne_nil_of_length_pos (by omega)), pure_bind]
    rcases reportStart_rest (S := fun _ => replyText 63) (fun c => c = 62 || c = 63) hlen with h | h
    · rw [h.1, h.2]
      rfl
    · rw [h.1, h.2]
      dsimp only
      have htext := deviceTextAt_exact 63 (Nat.le_of_lt hlen)
      cases hr : replyText 63 (buf.drop 3) with
      | no =>
        rw [hr] at htext
        dsimp only at htext
        rw [htext]
        rfl
      | more =>
        rw [hr] at htext
        dsimp only at htext
        rw [htext]
        rfl
      | found r =>
        rw [hr] at htext
        obtain ⟨tmp, htmp, hsize⟩ := htext
        rw [htmp]
        refine congrArg (fun n => (pure (Answer.found n) : Exec (Answer ℕ))) ?_
        dsimp only
        omega
  larger buf after hbuf := refines_map (ttyKeysDeviceAt_refines after hbuf) _

/-- The parsers of mouse reports and of replies read only the buffer, and tell what is in it, if and only if it is not
    empty and no report or reply is in it of which more than the first three bytes are there, but not
    all. -/
theorem ttyKeysReports_within_iff (utf8 : Bool) (m : MouseEvent) (buf : List UInt8) :
    ReadsReports (mouseSize utf8 m) buf ∧ ReadsReports deviceSize buf ↔
      buf ≠ [] ∧ (3 < buf.length → mouseReport utf8 buf ≠ .more ∧ deviceReply buf ≠ .more) := by
  rw [(mouseSize_follows utf8 m).readsReports_iff (stable_mouseReport utf8),
    deviceSize_follows.readsReports_iff stable_deviceReply]
  tauto

/-- The byte after the first three of a reply and one more is read. -/
theorem deviceSize_reads_past : ¬ ReadsReports deviceSize [27, 91, 62, 48] := fun h => by
  have hwithin := h.within
  revert hwithin
  decide

end Tmux
