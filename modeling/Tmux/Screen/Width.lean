import Mathlib.Algebra.GroupWithZero.Nat
import Tmux.Screen.Text

/-!
# Widths of strings

The width of a character is what the table of widths assigns to it (`assignedWidth`): the
tree that is built from a table finds the entry of every value, or that there is none
(`lookupWidth_utf8Build`), and it is built from every table whose intervals are disjoint,
in any order (`utf8Build_scans`).

A string of characters in UTF-8 is read character by character (`readCharacter_encode`).
The value of a character is put together from its bytes, and is the character that was
encoded if it has up to three of them; from four bytes, a bit too many is taken of the first
one, so that a value results that is not a character at all (`utf8Combine_character`). The
length of a string is the sum of the widths of its characters for this reason only if none
of them has four bytes (`screenWriteStrlen_iff`).
-/

namespace Tmux

variable {v : ℕ} {item : Utf8WidthEntry} {root root' : Utf8WidthTree} {table : List Utf8WidthEntry}

/-! ## The tree of widths -/

/-- Whether a value is in the interval of an entry. -/
def Utf8WidthEntry.has (item : Utf8WidthEntry) (v : ℕ) : Bool := item.first ≤ v && v ≤ item.last

/-- The width a table assigns to a value, one if it has no entry for it. -/
def assignedWidth (table : List Utf8WidthEntry) (v : ℕ) : ℕ := ((table.find? (·.has v)).map Utf8WidthEntry.width).getD 1

/-- All entries of a tree are intervals that are not empty. -/
def Utf8WidthTree.Proper : Utf8WidthTree → Prop
  | .nil => True
  | .node left item right => left.Proper ∧ item.first ≤ item.last ∧ right.Proper

/-- A search in the tree finds an entry inserted, and what it found before otherwise. -/
theorem insertWidth_proper (h : (insertWidth item root).value? = some root') (hitem : item.first ≤ item.last)
    (hroot : root.Proper) :
    root'.Proper ∧ ∀ v, lookupWidth v root' = if item.has v then item.width else lookupWidth v root := by
  have hhas : ∀ v, item.has v = true ↔ item.first ≤ v ∧ v ≤ item.last := by simp [Utf8WidthEntry.has]
  induction root generalizing root' with
  | nil =>
    obtain rfl := Option.some.inj h
    refine ⟨⟨trivial, hitem, trivial⟩, fun v => ?_⟩
    simp only [lookupWidth, hhas]
    split_ifs <;> first | rfl | omega
  | node left node right ihl ihr =>
    obtain ⟨hl, hnode, hr⟩ := hroot
    rw [insertWidth] at h
    by_cases hleft : item.last < node.first
    · rw [if_pos hleft, Exec.value?_bind] at h
      obtain ⟨left', hinsert, hroot'⟩ := h
      obtain rfl := Option.some.inj hroot'
      obtain ⟨hproper, hlookup⟩ := ihl hinsert hl
      refine ⟨⟨hproper, hnode, hr⟩, fun v => ?_⟩
      simp only [lookupWidth, hlookup, hhas]
      split_ifs <;> first | rfl | omega
    · rw [if_neg hleft] at h
      by_cases hright : item.first > node.last
      · rw [if_pos hright, Exec.value?_bind] at h
        obtain ⟨right', hinsert, hroot'⟩ := h
        obtain rfl := Option.some.inj hroot'
        obtain ⟨hproper, hlookup⟩ := ihr hinsert hr
        refine ⟨⟨hl, hnode, hproper⟩, fun v => ?_⟩
        simp only [lookupWidth, hlookup, hhas]
        split_ifs <;> first | rfl | omega
      · rw [if_neg hright] at h
        cases h

/-- A search in a tree that entries without common values were inserted in one after the other. -/
theorem lookupWidth_foldlM (h : (table.foldlM (fun root item => insertWidth item root) root).value? = some root')
    (hroot : root.Proper) (htable : ∀ item ∈ table, item.first ≤ item.last) (v : ℕ)
    (hpairs : table.Pairwise fun a b => a.has v = true → b.has v = false) :
    lookupWidth v root' = ((table.find? (·.has v)).map Utf8WidthEntry.width).getD (lookupWidth v root) := by
  induction table generalizing root with
  | nil =>
    obtain rfl := Option.some.inj h
    rfl
  | cons item table ih =>
    rw [List.foldlM_cons, Exec.value?_bind] at h
    obtain ⟨root₁, hinsert, hrest⟩ := h
    obtain ⟨hproper, hlookup⟩ := insertWidth_proper hinsert (htable item List.mem_cons_self) hroot
    rw [List.pairwise_cons] at hpairs
    rw [ih hrest hproper (fun b hb => htable b (List.mem_cons_of_mem _ hb)) hpairs.2, hlookup, List.find?_cons]
    cases hhas : item.has v with
    | true =>
      have hnone : table.find? (·.has v) = none :=
        List.find?_eq_none.2 fun b hb => by simp [hpairs.1 b hb hhas]
      rw [hnone]
      rfl
    | false => rfl

/-- Two intervals without common values. -/
def Utf8WidthEntry.Apart (a b : Utf8WidthEntry) : Prop := a.last < b.first ∨ b.last < a.first

instance (a b : Utf8WidthEntry) : Decidable (a.Apart b) := inferInstanceAs (Decidable (_ ∨ _))

theorem utf8Overlap_apart {a b : Utf8WidthEntry} (h : a.Apart b) (ha : a.first ≤ a.last) (hb : b.first ≤ b.last) :
    utf8Overlap a b = false := by
  rw [Utf8WidthEntry.Apart] at h
  simp only [utf8Overlap, Bool.or_eq_false_iff, Bool.and_eq_false_iff, decide_eq_false_iff_not]
  omega

theorem foldlM_guarded {α β : Type} {p : α → Bool} {f : β → α → Exec β} {l : List α} (h : ∀ a ∈ l, p a = false)
    (b : β) : l.foldlM (fun b a => if p a then .fault .fatal else f b a) b = l.foldlM f b := by
  induction l generalizing b with
  | nil => rfl
  | cons a l ih =>
    rw [List.foldlM_cons, List.foldlM_cons, h a List.mem_cons_self, if_neg (by simp)]
    exact bind_congr fun b' => ih (fun a' ha' => h a' (List.mem_cons_of_mem _ ha')) b'

/-- Building the tree inserts the entries of the table one after the other, if no two of them
    overlap. -/
theorem utf8Build_eq (htable : ∀ item ∈ table, item.first ≤ item.last) (hpairs : table.Pairwise Utf8WidthEntry.Apart) :
    utf8Build table = table.foldlM (fun root item => insertWidth item root) .nil := by
  have hapart : ∀ {i j : ℕ} (hi : i < table.length) (hj : j < table.length), i ≠ j →
      utf8Overlap table[i] table[j] = false := fun {i j} hi hj hij => by
    refine utf8Overlap_apart ?_ (htable _ (List.getElem_mem hi)) (htable _ (List.getElem_mem hj))
    rcases Nat.lt_or_gt_of_ne hij with hlt | hgt
    · exact List.pairwise_iff_getElem.1 hpairs i j hi hj hlt
    · exact (List.pairwise_iff_getElem.1 hpairs j i hj hi hgt).symm
  rw [utf8Build, foldlM_guarded (f := fun root (p : Utf8WidthEntry × ℕ) => insertWidth p.1 root)]
  · conv_rhs => rw [← List.zipIdx_map_fst 0 table, List.foldlM_map]
  · rintro ⟨item, i⟩ hitem
    obtain ⟨hi, rfl⟩ := List.getElem?_eq_some_iff.1 (List.mk_mem_zipIdx_iff_getElem?.1 hitem)
    refine List.any_eq_false.2 ?_
    rintro ⟨other, j⟩ hother
    obtain ⟨hj, rfl⟩ := List.getElem?_eq_some_iff.1 (List.mk_mem_zipIdx_iff_getElem?.1 hother)
    by_cases hij : i = j
    · simp [hij]
    · simp [hapart hi hj hij]

/-- A search in the tree built from a table finds the width assigned. -/
theorem lookupWidth_utf8Build (h : (utf8Build table).value? = some root)
    (htable : ∀ item ∈ table, item.first ≤ item.last) (hpairs : table.Pairwise Utf8WidthEntry.Apart) (v : ℕ) :
    lookupWidth v root = assignedWidth table v := by
  rw [utf8Build_eq htable hpairs] at h
  refine lookupWidth_foldlM h trivial htable v (hpairs.imp fun {a b} hab ha => ?_)
  rw [Utf8WidthEntry.Apart] at hab
  simp only [Utf8WidthEntry.has, Bool.and_eq_true, decide_eq_true_eq] at ha
  simp only [Utf8WidthEntry.has, Bool.and_eq_false_iff, decide_eq_false_iff_not]
  omega

/-- All entries of a tree satisfy `P`. -/
def Utf8WidthTree.All (P : Utf8WidthEntry → Prop) : Utf8WidthTree → Prop
  | .nil => True
  | .node left item right => left.All P ∧ P item ∧ right.All P

/-- An entry apart from all those of a tree finds its place in it. -/
theorem insertWidth_apart (hroot : root.All item.Apart) :
    ∃ root', insertWidth item root = pure root' ∧ ∀ P, root.All P → P item → root'.All P := by
  induction root with
  | nil => exact ⟨_, rfl, fun _ _ hitem => ⟨trivial, hitem, trivial⟩⟩
  | node left node right ihl ihr =>
    obtain ⟨hl, hnode, hr⟩ := hroot
    rw [insertWidth]
    by_cases hleft : item.last < node.first
    · obtain ⟨left', hinsert, hall⟩ := ihl hl
      rw [if_pos hleft, hinsert, pure_bind]
      exact ⟨_, rfl, fun P hP hitem => ⟨hall P hP.1 hitem, hP.2⟩⟩
    · obtain ⟨right', hinsert, hall⟩ := ihr hr
      rw [if_neg hleft, if_pos (hnode.resolve_left hleft), hinsert, pure_bind]
      exact ⟨_, rfl, fun P hP hitem => ⟨hP.1, hP.2.1, hall P hP.2.2 hitem⟩⟩

/-- Entries that are apart are inserted one after the other, in any order. -/
theorem insertWidth_foldlM (hroot : ∀ item ∈ table, root.All item.Apart)
    (hpairs : table.Pairwise fun a b => b.Apart a) :
    ∃ root', table.foldlM (fun root item => insertWidth item root) root = pure root' := by
  induction table generalizing root with
  | nil => exact ⟨root, rfl⟩
  | cons item table ih =>
    obtain ⟨hroot', htable⟩ := List.forall_mem_cons.1 hroot
    rw [List.pairwise_cons] at hpairs
    obtain ⟨root₁, hinsert, hall⟩ := insertWidth_apart hroot'
    rw [List.foldlM_cons, hinsert, pure_bind]
    exact ih (fun b hb => hall b.Apart (htable b hb) (hpairs.1 b hb)) hpairs.2

/-- Two entries apart have no value in common. -/
theorem Utf8WidthEntry.apart_iff {a b : Utf8WidthEntry} (ha : a.first ≤ a.last) (hb : b.first ≤ b.last) :
    a.Apart b ↔ ∀ v, ¬(a.has v = true ∧ b.has v = true) := by
  simp only [Apart, has, Bool.and_eq_true, decide_eq_true_eq]
  constructor
  · intro hapart v hv
    omega
  · intro hnone
    have hfirst := hnone (max a.first b.first)
    omega

theorem utf8Build_apart (htable : ∀ item ∈ table, item.first ≤ item.last)
    (hpairs : table.Pairwise Utf8WidthEntry.Apart) : ∃ root, utf8Build table = pure root := by
  have hnil : ∀ item ∈ table, Utf8WidthTree.nil.All item.Apart := fun _ _ => trivial
  rw [utf8Build_eq htable hpairs]
  exact insertWidth_foldlM hnil (hpairs.imp fun hab => hab.symm)

/-- The tree is built of any table of intervals that have no values in common, whatever their order, and a search in it
    finds for every value the width of the interval it is in, or one if it is in none: what a scan of the table
    finds. -/
theorem utf8Build_scans (htable : ∀ item ∈ table, item.first ≤ item.last)
    (hpairs : table.Pairwise fun a b => ∀ v, ¬(a.has v = true ∧ b.has v = true)) :
    ∃ root, utf8Build table = pure root ∧ ∀ v, lookupWidth v root = assignedWidth table v ∧
      (∀ item ∈ table, item.has v = true → lookupWidth v root = item.width) ∧
      ((∀ item ∈ table, item.has v = false) → lookupWidth v root = 1) := by
  have hapart : table.Pairwise Utf8WidthEntry.Apart := hpairs.imp_of_mem fun {a b} ha hb hnone =>
    (Utf8WidthEntry.apart_iff (htable a ha) (htable b hb)).2 hnone
  obtain ⟨root, hroot⟩ := utf8Build_apart htable hapart
  refine ⟨root, hroot, fun v => ?_⟩
  have hlookup := lookupWidth_utf8Build (by rw [hroot, Exec.value?_pure]) htable hapart v
  refine ⟨hlookup, fun item hitem hhas => ?_, fun hnone => ?_⟩
  · obtain ⟨found, hfound⟩ : ∃ found, table.find? (·.has v) = some found :=
      Option.isSome_iff_exists.1 (List.find?_isSome.2 ⟨item, hitem, hhas⟩)
    have hmem := List.mem_of_find?_eq_some hfound
    have hhas' : found.has v = true := by simpa using List.find?_some hfound
    have hsame : found = item := by
      by_contra hne
      have hsymm : Std.Symm fun a b : Utf8WidthEntry => ∀ v, ¬(a.has v = true ∧ b.has v = true) :=
        ⟨fun a b hab w hw => hab w hw.symm⟩
      exact hpairs.forall hmem hitem hne v ⟨hhas', hhas⟩
    rw [hlookup, assignedWidth, hfound, hsame]
    rfl
  · rw [hlookup, assignedWidth, List.find?_eq_none.2 fun item hitem => by simp [hnone item hitem]]
    rfl

/-- A table with its intervals in descending order, one character wide and two apart. -/
theorem utf8Build_scans_two : ∃ root, utf8Build [⟨12, 14, 2⟩, ⟨3, 5, 0⟩] = pure root ∧
    lookupWidth 4 root = 0 ∧ lookupWidth 13 root = 2 ∧ lookupWidth 7 root = 1 := by
  obtain ⟨root, hroot, hlookup⟩ := @utf8Build_scans [⟨12, 14, 2⟩, ⟨3, 5, 0⟩] (by simp)
    (List.pairwise_pair.2 fun v hv => by
      simp only [Utf8WidthEntry.has, Bool.and_eq_true, decide_eq_true_eq] at hv
      omega)
  exact ⟨root, hroot, (hlookup 4).1, (hlookup 13).1, (hlookup 7).1⟩

/-! ## The value of a character -/

/-- The bytes of a string of characters in UTF-8. -/
def utf8Bytes (text : List Char) : List UInt8 := text.flatMap String.utf8EncodeChar

/-- A character put together from its bytes. -/
def utf8Assemble : List UInt8 → Exec Utf8Data
  | [] => .fault .overread
  | ch :: ptr => do
    let (utf8data, _) ← utf8Open ch
    let (utf8data, _) ← utf8Finish utf8data ptr
    pure utf8data

/-- The data of a character in UTF-8. -/
def utf8Character (c : Char) : Utf8Data :=
  let bytes := String.utf8EncodeChar c
  { data := bytes, size := bytes.length, width := utf8Width { data := bytes, size := bytes.length } }

variable {c : Char}

theorem utf8EncodeChar_one (h : c.toNat ≤ 0x7f) : String.utf8EncodeChar c = [UInt8.ofNat c.toNat] := if_pos h

theorem Char.toNat_lt_bound (c : Char) : c.toNat < 0x110000 := by
  have hvalid : c.toNat < 0xd800 ∨ 0xdfff < c.toNat ∧ c.toNat < 0x110000 := c.valid
  omega

/-- The first byte of a character says how many bytes it has. -/
theorem utf8Open_eq {ch : UInt8} {size : ℕ} (hsize : size ≠ 0)
    (h : size = if 0xc2 ≤ ch.toNat ∧ ch.toNat ≤ 0xdf then 2 else if 0xe0 ≤ ch.toNat ∧ ch.toNat ≤ 0xef then 3
      else if 0xf0 ≤ ch.toNat ∧ ch.toNat ≤ 0xf4 then 4 else 0) :
    utf8Open ch = pure ({ data := [ch], size }, 1) := by
  have hbytes : (if 0xc2 ≤ ch && ch ≤ 0xdf then 2 else if 0xe0 ≤ ch && ch ≤ 0xef then 3
      else if 0xf0 ≤ ch && ch ≤ 0xf4 then 4 else 0) = size := by
    rw [h]
    simp only [UInt8.le_iff_toNat_le, UInt8.reduceToNat, Bool.and_eq_true, decide_eq_true_eq]
  have hlist : size = 2 ∨ size = 3 ∨ size = 4 := by
    rw [h] at hsize ⊢
    split_ifs at hsize ⊢ <;> simp_all
  rw [utf8Open, hbytes]
  dsimp only
  rw [if_neg hsize, utf8Append]
  rcases hlist with rfl | rfl | rfl <;> rfl

/-- A character of several bytes starts with one that says how many there are. -/
theorem utf8Open_encode (h : 0x7f < c.toNat) :
    ∃ ch ptr, String.utf8EncodeChar c = ch :: ptr ∧ ch > 0x7f ∧ ptr ≠ [] ∧ ptr.length ≤ 3 ∧
      utf8Open ch = pure ({ data := [ch], size := ptr.length + 1 }, 1) := by
  have hv : c.val.toNat = c.toNat := rfl
  have hbound := Char.toNat_lt_bound c
  have hhigh : ∀ n, 0x7f < n → n < 256 → UInt8.ofNat n > 0x7f := fun n hn hn' => by
    rw [gt_iff_lt, UInt8.lt_iff_toNat_lt, UInt8.toNat_ofNat']
    exact hn.trans_le (Nat.mod_eq_of_lt hn').ge
  rw [String.utf8EncodeChar, hv, if_neg (by omega)]
  by_cases htwo : c.toNat ≤ 0x7ff
  · rw [if_pos htwo]
    refine ⟨_, _, rfl, hhigh _ (by omega) (by omega), by simp, by simp, utf8Open_eq (by simp) ?_⟩
    rw [UInt8.toNat_ofNat', List.length_singleton, if_pos (by omega)]
  · rw [if_neg htwo]
    by_cases hthree : c.toNat ≤ 0xffff
    · rw [if_pos hthree]
      refine ⟨_, _, rfl, hhigh _ (by omega) (by omega), by simp, by simp, utf8Open_eq (by simp) ?_⟩
      rw [UInt8.toNat_ofNat', if_neg (by omega), if_pos (by omega)]
      rfl
    · rw [if_neg hthree]
      refine ⟨_, _, rfl, hhigh _ (by omega) (by omega), by simp, by simp, utf8Open_eq (by simp) ?_⟩
      rw [UInt8.toNat_ofNat', if_neg (by omega), if_neg (by omega), if_pos (by omega)]
      rfl

/-- Appending the bytes left of a character finishes it. -/
theorem utf8Finish_eq {u : Utf8Data} {ptr : List UInt8} (hne : ptr ≠ []) (hsize : u.data.length + ptr.length = u.size)
    (hmax : u.size ≤ utf8Size) (rest : List UInt8) :
    utf8Finish u (ptr ++ rest) = pure ({ u with
      data := u.data ++ ptr
      width := utf8Width { u with data := u.data ++ ptr } }, rest) := by
  induction ptr generalizing u with
  | nil => exact absurd rfl hne
  | cons ch ptr ih =>
    rw [List.length_cons] at hsize
    rw [List.cons_append, utf8Finish, utf8Append, if_neg (by omega), if_neg (by omega)]
    dsimp only
    rw [List.length_append, List.length_singleton]
    cases ptr with
    | nil =>
      rw [List.length_nil] at hsize
      rw [if_neg (by omega), pure_bind]
      dsimp only
      rw [if_neg (by simp)]
      rfl
    | cons ch' ptr =>
      rw [List.length_cons] at hsize
      rw [if_pos (by omega), pure_bind]
      dsimp only
      have hrest : (u.data ++ [ch]).length + (ch' :: ptr).length = u.size := by
        rw [List.length_append, List.length_singleton, List.length_cons]
        omega
      rw [if_pos (by simp), ih (u := { u with data := u.data ++ [ch] }) (by simp) hrest hmax]
      simp only [List.append_assoc, List.singleton_append]

/-- A character in UTF-8 is put together from its bytes. -/
theorem utf8Assemble_encode (h : 0x7f < c.toNat) : utf8Assemble (String.utf8EncodeChar c) = pure (utf8Character c) := by
  obtain ⟨ch, ptr, hencode, -, hne, hlength, hopen⟩ := utf8Open_encode h
  have hfinish := utf8Finish_eq (u := { data := [ch], size := ptr.length + 1 }) hne
    (Nat.add_comm _ _) (by simp only [utf8Size]; omega) []
  rw [List.append_nil] at hfinish
  rw [utf8Character, hencode, utf8Assemble, hopen, pure_bind]
  dsimp only
  rw [hfinish, pure_bind]
  rfl

/-- A string starts with a character of several bytes. -/
theorem readCharacter_encode (h : 0x7f < c.toNat) (rest : List UInt8) :
    ∃ ch ptr, String.utf8EncodeChar c ++ rest = ch :: ptr ∧
      readCharacter true ch ptr = pure (some (some (utf8Character c), rest)) := by
  obtain ⟨ch, ptr, hencode, hhigh, hne, hlength, hopen⟩ := utf8Open_encode h
  have hfinish := utf8Finish_eq (u := { data := [ch], size := ptr.length + 1 }) hne
    (Nat.add_comm _ _) (by simp only [utf8Size]; omega) rest
  refine ⟨ch, ptr ++ rest, by rw [hencode, List.cons_append], ?_⟩
  rw [readCharacter, if_pos (by simpa using hhigh), hopen, pure_bind]
  dsimp only
  rw [if_neg (by simp), if_neg (by rw [List.length_append]; omega), hfinish, pure_bind, utf8Character, hencode]
  rfl

theorem and_mask {n mask : ℕ} (k : ℕ) (hmask : mask = 2 ^ k - 1) : n &&& mask = n % 2 ^ k := by
  rw [hmask, Nat.and_two_pow_sub_one_eq_mod]

theorem or_shift {a i x : ℕ} (hx : x < 2 ^ i) : x ||| a <<< i = x + a * 2 ^ i := by
  rw [Nat.or_comm, ← Nat.shiftLeft_add_eq_or_of_lt hx, Nat.shiftLeft_eq, Nat.add_comm]

/-- The value of a character is the character, unless it has four bytes: all of the bits of the first
    one that mark it as such but two are taken as a part of it. -/
theorem utf8Combine_character (h : 0x7f < c.toNat) :
    utf8Combine (utf8Character c) = if c.toNat ≤ 0xffff then c.toNat else c.toNat + 0xc00000 := by
  have hv : c.val.toNat = c.toNat := rfl
  have hbound := Char.toNat_lt_bound c
  rw [utf8Character, String.utf8EncodeChar, hv, if_neg (by omega)]
  by_cases htwo : c.toNat ≤ 0x7ff
  · rw [if_pos htwo, if_pos (by omega)]
    simp only [utf8Combine, List.length_cons, List.length_nil, List.getD_cons_zero, List.getD_cons_succ,
      UInt8.toNat_ofNat']
    rw [and_mask 6 (by decide), and_mask 5 (by decide), or_shift (by omega)]
    omega
  · rw [if_neg htwo]
    by_cases hthree : c.toNat ≤ 0xffff
    · rw [if_pos hthree, if_pos hthree]
      simp only [utf8Combine, List.length_cons, List.length_nil, List.getD_cons_zero, List.getD_cons_succ,
        UInt8.toNat_ofNat']
      rw [and_mask 6 (by decide), and_mask 6 (by decide), and_mask 4 (by decide)]
      simp (disch := omega) only [or_shift]
      omega
    · rw [if_neg hthree, if_neg hthree]
      simp only [utf8Combine, List.length_cons, List.length_nil, List.getD_cons_zero, List.getD_cons_succ,
        UInt8.toNat_ofNat']
      rw [and_mask 6 (by decide), and_mask 6 (by decide), and_mask 6 (by decide), and_mask 6 (by decide)]
      simp (disch := omega) only [or_shift]
      omega

/-! ## The length of a string -/

/-- The entries of the table are intervals that are not empty, of characters of more than one byte. -/
theorem utf8WidthTable_bounds : ∀ item ∈ utf8WidthTable, 0x7f < item.first ∧ item.first ≤ item.last := by
  have hall : utf8WidthTable.all (fun item => 0x7f < item.first ∧ item.first ≤ item.last) = true := by decide +kernel
  exact fun item hitem => of_decide_eq_true (List.all_eq_true.1 hall item hitem)

theorem utf8WidthTable_apart : utf8WidthTable.Pairwise Utf8WidthEntry.Apart := by decide +kernel

theorem utf8Build_table : (utf8Build utf8WidthTable).value? = some utf8WidthRoot := by
  obtain ⟨root, hroot⟩ :=
    utf8Build_apart (fun item hitem => (utf8WidthTable_bounds item hitem).2) utf8WidthTable_apart
  rw [utf8WidthRoot, hroot]
  rfl

theorem utf8Width_character (h : 0x7f < c.toNat) (hc : c.toNat ≤ 0xffff) :
    (utf8Character c).width = assignedWidth utf8WidthTable c.toNat := by
  have hvalue := utf8Combine_character h
  rw [if_pos hc] at hvalue
  have hwidth : (utf8Character c).width = lookupWidth (utf8Combine (utf8Character c)) utf8WidthRoot := by
    simp only [utf8Character, utf8Width, utf8Combine]
  rw [hwidth, hvalue]
  exact lookupWidth_utf8Build utf8Build_table (fun item hitem => (utf8WidthTable_bounds item hitem).2)
    utf8WidthTable_apart c.toNat

/-- The width assigned to a string. -/
def assignedLength (text : List Char) : ℕ := (text.map fun c => assignedWidth utf8WidthTable c.toNat).sum

/-- Every character of several bytes is put together to the one that was encoded. -/
def Recovered (text : List Char) : Prop :=
  ∀ c ∈ text, 0x7f < c.toNat → ∃ utf8data, utf8Assemble (String.utf8EncodeChar c) = pure utf8data ∧
    utf8Combine utf8data = c.toNat

theorem assignedWidth_ascii {v : ℕ} (h : v ≤ 0x7f) : assignedWidth utf8WidthTable v = 1 := by
  have hnone : utf8WidthTable.find? (·.has v) = none := by
    refine List.find?_eq_none.2 fun item hitem => ?_
    have hfirst := (utf8WidthTable_bounds item hitem).1
    simp only [Utf8WidthEntry.has, Bool.and_eq_true, decide_eq_true_eq]
    omega
  rw [assignedWidth, hnone]
  rfl

/-- The length of a string whose characters all have up to three bytes. -/
theorem strlenFrom_eq {text : List Char} (h : ∀ c ∈ text, c.toNat ≤ 0xffff) {n : ℕ}
    (hn : (utf8Bytes text).length ≤ n) : strlenFrom true n (utf8Bytes text) = pure (assignedLength text) := by
  induction text generalizing n with
  | nil => cases n <;> rfl
  | cons c text ih =>
    have hrest := fun m => ih (fun d hd => h d (List.mem_cons_of_mem _ hd)) (n := m)
    have hsplit : utf8Bytes (c :: text) = String.utf8EncodeChar c ++ utf8Bytes text := rfl
    have hsum : assignedLength (c :: text) = assignedWidth utf8WidthTable c.toNat + assignedLength text := rfl
    rw [hsplit, List.length_append] at hn
    rw [hsplit, hsum]
    rcases le_or_gt c.toNat 0x7f with hone | hmore
    · rw [utf8EncodeChar_one hone, List.length_singleton] at hn
      obtain ⟨m, rfl⟩ := Nat.exists_eq_add_of_lt (by omega : 0 < n)
      have hread : readCharacter true (UInt8.ofNat c.toNat) (utf8Bytes text) = pure (some (none, utf8Bytes text)) := by
        rw [readCharacter, if_neg]
        simp only [Bool.true_and, decide_eq_true_eq, gt_iff_lt, UInt8.lt_iff_toNat_lt, UInt8.toNat_ofNat',
          UInt8.reduceToNat]
        omega
      rw [utf8EncodeChar_one hone, List.singleton_append, Nat.zero_add, strlenFrom, hread, pure_bind]
      dsimp only
      rw [hrest m (by omega), pure_bind, assignedWidth_ascii hone, Nat.add_comm 1]
      rfl
    · obtain ⟨ch, ptr, hbytes, hread⟩ := readCharacter_encode hmore (utf8Bytes text)
      have hlength : 1 ≤ (String.utf8EncodeChar c).length := by
        rw [String.length_utf8EncodeChar]
        exact Char.utf8Size_pos c
      obtain ⟨m, rfl⟩ := Nat.exists_eq_add_of_lt (by omega : 0 < n)
      rw [hbytes, Nat.zero_add, strlenFrom, hread, pure_bind]
      dsimp only
      rw [hrest m (by omega), pure_bind, Option.map_some, Option.getD_some,
        utf8Width_character hmore (h c List.mem_cons_self), Nat.add_comm]

/-- The length of a string is the sum of the widths assigned to its characters, and these are put
    together from their bytes, exactly if none of them has four bytes. -/
theorem screenWriteStrlen_iff (text : List Char) :
    (screenWriteStrlen true (utf8Bytes text) = pure (assignedLength text) ∧ Recovered text) ↔
      ∀ c ∈ text, c.toNat ≤ 0xffff := by
  constructor
  · rintro ⟨-, hrecovered⟩ c hc
    by_contra hlong
    obtain ⟨utf8data, hassemble, hvalue⟩ := hrecovered c hc (by omega)
    obtain rfl := Exec.pure_injective ((utf8Assemble_encode (by omega)).symm.trans hassemble)
    rw [utf8Combine_character (by omega), if_neg hlong] at hvalue
    omega
  · intro hshort
    refine ⟨strlenFrom_eq hshort le_rfl, fun c hc hmore => ⟨_, utf8Assemble_encode hmore, ?_⟩⟩
    rw [utf8Combine_character hmore, if_pos (hshort c hc)]

/-- A wide character of four bytes is put together to something else. -/
theorem screenWriteStrlen_four : ¬ (screenWriteStrlen true (utf8Bytes ['𠀀']) = pure (assignedLength ['𠀀']) ∧
    Recovered ['𠀀']) := by
  rintro ⟨-, hrecovered⟩
  obtain ⟨utf8data, hassemble, hvalue⟩ := hrecovered '𠀀' List.mem_cons_self (by decide)
  obtain rfl := Exec.pure_injective ((utf8Assemble_encode (by decide)).symm.trans hassemble)
  exact absurd hvalue (by decide)

end Tmux
