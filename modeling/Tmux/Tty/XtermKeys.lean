import Tmux.Tty.Recognised

/-!
# Sequences of xterm

The sequences that xterm sends for keys with modifiers are the templates of the table with a digit
from 2 to 8 in the place of the wildcard (`XtermSequence`). What is in the buffer may start with
one (`XtermComplete`), or be the start of one (`XtermPartial`).

`xtermKeysFind` tells them (`XtermCorrect`) where no template agrees with the buffer, a sequence is
complete, or the modifiers come next. In an empty buffer it finds a key; any byte passes for the
modifiers; and in the middle of a template the byte past the buffer decides
(`xtermKeysFind_correct_iff`).
-/

namespace Tmux

open Recogniser

variable {t buf : List UInt8} {d past : UInt8}

/-! ## Sequences -/

/-- A digit that stands for modifiers. -/
def isModifier (d : UInt8) : Bool := 50 ≤ d && d ≤ 56

/-- A template with a byte in the place of the wildcard. -/
def fillTemplate (t : List UInt8) (d : UInt8) : List UInt8 := t.map fun c => if c = wildcard then d else c

/-- A key with modifiers as xterm sends it. -/
def XtermSequence (p : List UInt8) : Prop :=
  ∃ entry ∈ xtermKeysTable, ∃ d, isModifier d = true ∧ p = fillTemplate entry.template d

/-- A sequence is at the start of the buffer. -/
def XtermComplete (buf : List UInt8) : Prop := ∃ p, XtermSequence p ∧ p <+: buf

/-- The buffer is the start of a sequence that goes on. -/
def XtermPartial (buf : List UInt8) : Prop := buf ≠ [] ∧ ∃ p, XtermSequence p ∧ buf <+: p ∧ buf ≠ p

/-- The answer is found, with a size, if a sequence is complete, and that more is needed if it may be; the byte
    past the buffer does not matter. -/
structure XtermCorrect (buf : List UInt8) : Prop where
  found : ∀ past, (∃ size key, xtermKeysFind buf past = .found (size, key) ∧ size ≤ buf.length) ↔ XtermComplete buf
  more : ∀ past, xtermKeysFind buf past = .more ↔ ¬ XtermComplete buf ∧ XtermPartial buf
  no : ∀ past, xtermKeysFind buf past = .no ↔ ¬ XtermComplete buf ∧ ¬ XtermPartial buf
  within : ∀ past past', xtermKeysFind buf past = xtermKeysFind buf past'

theorem length_fillTemplate (t : List UInt8) (d : UInt8) : (fillTemplate t d).length = t.length := List.length_map _

theorem template_fill (t : List UInt8) (d : UInt8) (rest : List UInt8) :
    template t (fillTemplate t d ++ rest) = .found (fillTemplate t d, rest) := by
  induction t with
  | nil => rfl
  | cons c t ih =>
    rw [fillTemplate, List.map_cons, List.cons_append, template_cons (by split_ifs <;> simp_all)]
    exact andThen_found ih

theorem template_of_prefix (h : buf <+: fillTemplate t d) (hne : buf ≠ fillTemplate t d) : template t buf = .more := by
  induction t generalizing buf with
  | nil => exact absurd (List.prefix_nil.1 h) hne
  | cons c t ih =>
    rcases buf with _ | ⟨b, buf⟩
    · rfl
    rw [fillTemplate, List.map_cons, List.cons_prefix_cons] at h
    obtain ⟨rfl, h⟩ := h
    rw [template_cons (by split_ifs <;> simp_all)]
    refine andThen_more (ih h fun heq => hne ?_)
    rw [heq]
    rfl

/-- The buffer up to the wildcard is the start of every sequence of the template. -/
theorem prefix_fill_of_more (h : template t buf = .more) (hwild : t.idxOf wildcard = buf.length) (d : UInt8) :
    buf <+: fillTemplate t d := by
  induction t generalizing buf with
  | nil => cases h
  | cons c t ih =>
    rcases buf with _ | ⟨b, buf⟩
    · exact List.nil_prefix
    have hc : c ≠ wildcard := by
      rintro rfl
      simp at hwild
    have hb : b = c := by
      by_contra hb
      rw [template, andThen, item, if_pos ⟨hc, hb⟩] at h
      cases h
    subst hb
    rw [template_cons (by simp), andThen_unit_eq_more] at h
    rw [List.idxOf_cons_ne _ hc, List.length_cons, Nat.succ_inj] at hwild
    rw [fillTemplate, List.map_cons, if_neg hc, List.cons_prefix_cons]
    exact ⟨rfl, ih h hwild⟩

/-! ## The table -/

theorem template_eq_no_of_xtermKeyIn {table : List XtermKeysEntry} (h : xtermKeyIn table buf = .no) :
    ∀ entry ∈ table, template entry.template buf = .no := by
  induction table with
  | nil => exact nofun
  | cons entry table ih =>
    rw [xtermKeyIn, orElse] at h
    cases hr : andThen (template entry.template)
        (fun bs => unit (entry.key ||| xtermKeysModifiers entry.template bs)) buf with
    | no =>
      rw [hr] at h
      exact List.forall_mem_cons.2 ⟨andThen_unit_eq_no.1 hr, ih h⟩
    | more =>
      rw [hr] at h
      cases h
    | found r =>
      rw [hr] at h
      cases h

theorem exists_found_of_xtermKeyIn {table : List XtermKeysEntry} {r : KeyCode × List UInt8}
    (h : xtermKeyIn table buf = .found r) : ∃ entry ∈ table, ∃ r, template entry.template buf = .found r := by
  induction table with
  | nil => cases h
  | cons entry table ih =>
    rw [xtermKeyIn, orElse] at h
    cases hr : andThen (template entry.template)
        (fun bs => unit (entry.key ||| xtermKeysModifiers entry.template bs)) buf with
    | no =>
      rw [hr] at h
      exact (ih h).imp fun _ hentry => ⟨List.mem_cons_of_mem _ hentry.1, hentry.2⟩
    | more =>
      rw [hr] at h
      cases h
    | found r =>
      obtain ⟨bs, p, hbs, -⟩ := andThen_eq_found.1 hr
      exact ⟨entry, List.mem_cons_self, _, hbs⟩

/-- A key that is found is in the buffer. -/
theorem xtermKeysFindIn_size {table : List XtermKeysEntry} (hbuf : buf ≠ []) {size : ℕ} {key : KeyCode}
    (h : xtermKeysFindIn buf past table = .found (size, key)) : size ≤ buf.length := by
  induction table with
  | nil => cases h
  | cons entry table ih =>
    have hmatch := matchFrom_eq past entry.template buf
    rw [xtermKeysFindIn, xtermKeysMatch, if_neg fun h => hbuf (List.eq_nil_of_length_eq_zero h)] at h
    cases hr : template entry.template buf with
    | no =>
      rw [hr] at hmatch
      rw [hmatch] at h
      exact ih h
    | more =>
      rw [hr] at hmatch
      rw [hmatch] at h
      split_ifs at h
      exact ih h
    | found r =>
      rw [hr] at hmatch
      obtain ⟨hmatch, hcons, hlength⟩ := hmatch
      rw [hmatch] at h
      obtain ⟨rfl, -⟩ := Prod.mk.inj (Answer.found.inj h)
      rw [hcons, List.length_append, hlength]
      exact Nat.le_add_right _ _

theorem XtermComplete.exists_found (h : XtermComplete buf) :
    ∃ entry ∈ xtermKeysTable, ∃ r, template entry.template buf = .found r := by
  obtain ⟨_, ⟨entry, hentry, d, -, rfl⟩, rest, rfl⟩ := h
  exact ⟨entry, hentry, _, template_fill _ d rest⟩

theorem XtermPartial.exists_more (h : XtermPartial buf) :
    ∃ entry ∈ xtermKeysTable, template entry.template buf = .more := by
  obtain ⟨-, _, ⟨entry, hentry, d, -, rfl⟩, hprefix, hne⟩ := h
  exact ⟨entry, hentry, template_of_prefix hprefix hne⟩

theorem length_lt_of_template_more (h : template t buf = .more) : buf.length < t.length := by
  induction t generalizing buf with
  | nil => cases h
  | cons c t ih =>
    rcases buf with _ | ⟨b, buf⟩
    · exact Nat.succ_pos _
    by_cases hb : c ≠ wildcard ∧ b ≠ c
    · rw [template, andThen, item, if_pos hb] at h
      cases h
    · rw [template_cons hb, andThen_unit_eq_more] at h
      exact Nat.succ_lt_succ (ih h)

/-- A sequence is partial where the modifiers come next. -/
theorem xtermPartial_of_awaitsModifiers (hbuf : buf ≠ []) (h : AwaitsModifiers buf) : XtermPartial buf := by
  obtain ⟨entry, hentry, hmore, hwild⟩ := h
  have hidx : ∀ entry ∈ xtermKeysTable, ∀ i < entry.template.length,
      entry.template[i]? = some wildcard → entry.template.idxOf wildcard = i := by
    decide +kernel
  have hlt : buf.length < entry.template.length := (List.getElem?_eq_some_iff.1 hwild).1
  refine ⟨hbuf, _, ⟨entry, hentry, 50, rfl, rfl⟩, prefix_fill_of_more hmore (hidx entry hentry _ hlt hwild) _, fun h => ?_⟩
  have hlen := congrArg List.length h
  rw [length_fillTemplate] at hlen
  omega

/-! ## When sequences are told -/

theorem xtermKeysTable_ne_nil : ∀ entry ∈ xtermKeysTable, entry.template ≠ [] := by decide +kernel

theorem xtermGoesOn_of_awaitsModifiers (h : AwaitsModifiers buf) (past : UInt8) :
    XtermGoesOn xtermKeysTable buf past := by
  obtain ⟨entry, hentry, hmore, hwild⟩ := h
  exact ⟨entry, hentry, hmore, .inl hwild⟩

/-- Sequences are told in a buffer if and only if it is not empty and, where a template agrees with it, starts
    with a sequence or ends before modifiers. -/
theorem xtermKeysFind_correct_iff (buf : List UInt8) : XtermCorrect buf ↔
    buf ≠ [] ∧ ((∃ entry ∈ xtermKeysTable, template entry.template buf ≠ .no) →
      XtermComplete buf ∨ AwaitsModifiers buf) := by
  by_cases hbuf : buf = []
  · -- In an empty buffer a key is found.
    subst hbuf
    refine ⟨fun h => ?_, fun h => absurd rfl h.1⟩
    have hno := (h.no 0).2 ⟨fun hc => ?_, fun hp => hp.1 rfl⟩
    · exact absurd hno (by decide +kernel)
    · obtain ⟨p, ⟨entry, hentry, d, -, rfl⟩, hp⟩ := hc
      have hempty := congrArg List.length (List.prefix_nil.1 hp)
      rw [length_fillTemplate] at hempty
      exact xtermKeysTable_ne_nil entry hentry (List.eq_nil_of_length_eq_zero hempty)
  have hfind := xtermKeysFind_eq hbuf
  cases hkey : xtermKey buf with
  | no =>
    have hno := template_eq_no_of_xtermKeyIn hkey
    have hcomplete : ¬ XtermComplete buf := fun hc => by
      obtain ⟨entry, hentry, r, hr⟩ := hc.exists_found
      rw [hno entry hentry] at hr
      cases hr
    have hpartial : ¬ XtermPartial buf := fun hp => by
      obtain ⟨entry, hentry, hr⟩ := hp.exists_more
      rw [hno entry hentry] at hr
      cases hr
    simp only [hkey] at hfind
    exact ⟨fun _ => ⟨hbuf, fun ⟨entry, hentry, hr⟩ => absurd (hno entry hentry) hr⟩, fun _ =>
      ⟨by simp [hfind, hcomplete], by simp [hfind, hpartial], by simp [hfind, hcomplete, hpartial], by simp [hfind]⟩⟩
  | more =>
    obtain ⟨entry, hentry, hmore⟩ := exists_more_of_xtermKeyIn hkey
    have hcomplete : ¬ XtermComplete buf := fun hc => by
      obtain ⟨entry', hentry', r, hr⟩ := hc.exists_found
      exact xtermKey_not_found hkey entry' hentry' r hr
    simp only [hkey] at hfind
    constructor
    · -- The next byte of a template lets it go on, and a byte of no template does not.
      refine fun h => ⟨hbuf, fun _ => .inr ?_⟩
      by_contra hawaits
      have hlt : buf.length < entry.template.length := length_lt_of_template_more hmore
      have hgoes : XtermGoesOn xtermKeysTable buf entry.template[buf.length] :=
        ⟨entry, hentry, hmore, .inr (List.getElem?_eq_getElem hlt)⟩
      have hends : ¬ XtermGoesOn xtermKeysTable buf 0 := by
        rintro ⟨entry', hentry', hmore', hwild | hzero⟩
        · exact hawaits ⟨entry', hentry', hmore', hwild⟩
        · have hnone : ∀ entry ∈ xtermKeysTable, (0 : UInt8) ∉ entry.template := by decide +kernel
          exact hnone entry' hentry' (List.mem_of_getElem? hzero)
      have hsame := h.within 0 entry.template[buf.length]
      rw [hfind, hfind, if_neg hends, if_pos hgoes] at hsame
      cases hsame
    · rintro ⟨-, hawaits⟩
      have hawaits := (hawaits ⟨entry, hentry, by rw [hmore]; exact nofun⟩).resolve_left hcomplete
      have hpartial := xtermPartial_of_awaitsModifiers hbuf hawaits
      have hgoes := xtermGoesOn_of_awaitsModifiers hawaits
      exact ⟨by simp [hfind, hgoes, hcomplete], by simp [hfind, hgoes, hcomplete, hpartial],
        by simp [hfind, hgoes, hpartial], by simp [hfind, hgoes]⟩
  | found r =>
    obtain ⟨key, rest⟩ := r
    obtain ⟨entry, hentry, r, hr⟩ := exists_found_of_xtermKeyIn hkey
    simp only [hkey] at hfind
    constructor
    · intro h
      obtain ⟨size, hsize, -⟩ := hfind 0
      exact ⟨hbuf, fun _ => .inl ((h.found 0).1 ⟨size, key, hsize, xtermKeysFindIn_size hbuf hsize⟩)⟩
    · rintro ⟨-, hcomplete⟩
      have hcomplete : XtermComplete buf := by
        refine (hcomplete ⟨entry, hentry, by rw [hr]; exact nofun⟩).resolve_right fun hawaits => ?_
        obtain ⟨entry', hentry', hmore, -⟩ := hawaits
        exact template_not_found hentry' hmore entry hentry r hr
      have hsize : ∀ past, xtermKeysFind buf past = .found (buf.length - rest.length, key) := fun past => by
        obtain ⟨size, hsize, hdrop⟩ := hfind past
        have hle := xtermKeysFindIn_size hbuf hsize
        have hlen := congrArg List.length hdrop
        rw [List.length_drop] at hlen
        rw [hsize, show size = buf.length - rest.length by omega]
      exact ⟨by simp [hsize, hcomplete], by simp [hsize, hcomplete], by simp [hsize, hcomplete], by simp [hsize]⟩

/-- The start of a sequence is not told if it ends in the middle of a template. -/
theorem xtermKeysFind_not_correct : ¬ XtermCorrect [27, 91, 49] := fun h => by
  have hsame := h.within 0 59
  revert hsame
  decide +kernel

end Tmux
