import Mathlib.Order.Bounds.Basic
import Tmux.Session.Current
import Tmux.Window.Active
import Tmux.Window.Selection

/-!
# The sizes of sessions and windows

A session has the size of the smallest client attached to it, less a row for its status
line, and a window that of the smallest session it is in (`recalculateAllSizes`). Clients
that are suspended do not count, nor do sessions without any other client; a window may
count only the sessions whose current window it is, and limit its size besides.

Both minima start from the largest word, which stands for no size. As no terminal is as
large, they are minima over what counts exactly, and a session or a window for which
nothing counts keeps its size (`recalculateAllSizes_negotiated`).
-/

namespace Tmux

/-! ## The code -/

/-- The size of a terminal. -/
structure TtySize where
  sx : ℕ
  sy : ℕ
  sx_pos : 1 ≤ sx
  sy_pos : 1 ≤ sy
  sx_lt : sx < uintMax
  sy_lt : sy < uintMax

/-- A number of columns or rows given by the system, unless it is zero. -/
def sizeGiven (n : UInt16) (other : ℕ) : ℕ := if n = 0 then other else n.toNat

theorem sizeGiven_mem (n : UInt16) {other : ℕ} (hpos : 1 ≤ other) (hlt : other < uintMax) :
    1 ≤ sizeGiven n other ∧ sizeGiven n other < uintMax := by
  unfold sizeGiven
  split_ifs with hn
  · exact ⟨hpos, hlt⟩
  · have hne : n.toNat ≠ 0 := fun h => hn (UInt16.toNat_inj.1 h)
    exact ⟨by omega, n.toNat_lt.trans (by decide)⟩

/-- The size of a terminal, from the one the system gives, if any. -/
def ttyResize : Option (UInt16 × UInt16) → TtySize
  | none => { sx := 80, sy := 24, sx_pos := by decide, sy_pos := by decide, sx_lt := by decide, sy_lt := by decide }
  | some (col, row) =>
    { sx := sizeGiven col 80
      sy := sizeGiven row 24
      sx_pos := (sizeGiven_mem col (by decide) (by decide)).1
      sy_pos := (sizeGiven_mem row (by decide) (by decide)).1
      sx_lt := (sizeGiven_mem col (by decide) (by decide)).2
      sy_lt := (sizeGiven_mem row (by decide) (by decide)).2 }

/-- What the size of a session depends on of a client. -/
structure SizedClient where
  session : Option ℕ := none
  tty : TtySize
  suspended : Bool := false

/-- A session with its size. -/
structure SizedSession extends Session where
  /-- The address of the session. -/
  id : ℕ
  sx : ℕ
  sy : ℕ
  unattached : Bool := false
  /-- Whether the session has a status line. -/
  status : Bool := true

/-- The options of a window that its size depends on. -/
structure SizeOptions where
  aggressiveResize : Bool := false
  forceWidth : ℕ := 0
  forceHeight : ℕ := 0

/-- The smaller of two sizes, in each direction. -/
def smaller (size : ℕ × ℕ) (sx sy : ℕ) : ℕ × ℕ :=
  (if sx < size.1 then sx else size.1, if sy < size.2 then sy else size.2)

/-- The smallest size of the clients attached to a session. -/
def sessionSize (clients : List (Option SizedClient)) (id : ℕ) : ℕ × ℕ :=
  clients.foldl (fun size c =>
    match c with
    | none => size
    | some c =>
      if c.suspended then size
      else if c.session = some id then smaller size c.tty.sx c.tty.sy else size) (uintMax, uintMax)

/-- Recalculate the size of a session. -/
def recalculateSession (clients : List (Option SizedClient)) (s : SizedSession) : SizedSession :=
  let (ssx, ssy) := sessionSize clients s.id
  if ssx = uintMax ∨ ssy = uintMax then { s with unattached := true }
  else
    let s := { s with unattached := false }
    let ssy := if s.status then if ssy = 0 then 1 else ssy - 1 else ssy
    if s.sx = ssx ∧ s.sy = ssy then s else { s with sx := ssx, sy := ssy }

/-- Whether a window is in a session, or is its current one if `flag` is set. -/
def SizedSession.has (s : SizedSession) (flag : Bool) (w : ℕ) : Exec Bool :=
  if flag then do
    let curw ← Exec.follow s.curw
    let wl ← Exec.follow (s.windows.find? curw)
    pure (wl.window = some w)
  else pure (sessionHas s.windows (some w)).isSome

/-- The smallest size of the sessions that have a window. -/
def windowSize (sessions : List SizedSession) (flag : Bool) (w : ℕ) : Exec (ℕ × ℕ) :=
  sessions.foldlM (fun size s =>
    if s.unattached then pure size
    else do
      if ← s.has flag w then pure (smaller size s.sx s.sy) else pure size) (uintMax, uintMax)

/-- A size, limited unless the limit is zero. -/
def limitSize (limit n : ℕ) : ℕ := if limit ≠ 0 ∧ n > limit then limit else n

/-- The size a window is to have, if a session limits it. -/
def windowLimits (sessions : List SizedSession) (o : SizeOptions) (w : ℕ) : Exec (Option (ℕ × ℕ)) := do
  let (ssx, ssy) ← windowSize sessions o.aggressiveResize w
  if ssx = uintMax ∨ ssy = uintMax then pure none
  else pure (some (limitSize o.forceWidth ssx, limitSize o.forceHeight ssy))

/-- Recalculate window and session sizes. -/
def recalculateAllSizes (clients : List (Option SizedClient)) (sessions : List SizedSession)
    (options : ℕ → SizeOptions) (s : Server) : Exec (List SizedSession × Server) := do
  let sessions := sessions.map (recalculateSession clients)
  let s ← s.windows.foldlM (fun s w => do
    let size ← windowLimits sessions (options w.id) w.id
    recalculateWindow (size.toList.map fun size => (w.id, size)) s w) s
  pure (sessions, s)

/-! ## What counts -/

/-- A client is attached to a session and not suspended. -/
def Attached (clients : List (Option SizedClient)) (id : ℕ) (c : SizedClient) : Prop :=
  some c ∈ clients ∧ c.suspended = false ∧ c.session = some id

/-- A session has a client that is not suspended, and a window, which is its current one where only
    that one counts. -/
def SizedSession.Limits (clients : List (Option SizedClient)) (o : SizeOptions) (w : ℕ) (s : SizedSession) : Prop :=
  (∃ c, Attached clients s.id c) ∧
    ∃ wl ∈ s.windows.entries, wl.window = some w ∧ (o.aggressiveResize = true → s.curw = some wl.idx)

/-- A session has the size of the smallest client attached to it, less a row for its status line, or
    keeps its size if there is no client. -/
structure SessionSized (clients : List (Option SizedClient)) (s s' : SizedSession) : Prop where
  same : s'.toSession = s.toSession ∧ s'.id = s.id ∧ s'.status = s.status
  attached : (∃ c, Attached clients s.id c) → s'.unattached = false ∧
    IsLeast {n | ∃ c, Attached clients s.id c ∧ c.tty.sx = n} s'.sx ∧
    IsLeast {n | ∃ c, Attached clients s.id c ∧ c.tty.sy = n} (s'.sy + if s.status then 1 else 0)
  unattached : (¬∃ c, Attached clients s.id c) → s'.unattached = true ∧ s'.sx = s.sx ∧ s'.sy = s.sy

/-- A size capped by an option, unless that is zero. -/
def capped (limit n : ℕ) : ℕ := if limit = 0 then n else min n limit

/-- A window has the size of the smallest session that limits it, capped by its options, or is as it
    was if none does. -/
structure WindowSized (clients : List (Option SizedClient)) (sessions : List SizedSession) (o : SizeOptions)
    (w w' : Window) : Prop where
  id : w'.id = w.id
  limited : (∃ s ∈ sessions, s.Limits clients o w.id) → ∃ sx sy,
    IsLeast {n | ∃ s ∈ sessions, s.Limits clients o w.id ∧ s.sx = n} sx ∧
    IsLeast {n | ∃ s ∈ sessions, s.Limits clients o w.id ∧ s.sy = n} sy ∧
    w'.sx = capped o.forceWidth sx ∧ w'.sy = capped o.forceHeight sy
  free : (¬∃ s ∈ sessions, s.Limits clients o w.id) → w' = w

/-! ## Smallest sizes -/

/-- The smallest of a list of sizes, in each direction, or the largest word. -/
def smallestSize (l : List (ℕ × ℕ)) : ℕ × ℕ :=
  l.foldl (fun size p => smaller size p.1 p.2) (uintMax, uintMax)

theorem foldl_smaller (l : List (ℕ × ℕ)) (m : ℕ × ℕ) : l.foldl (fun size p => smaller size p.1 p.2) m =
    ((l.map Prod.fst).foldl (fun minimum available => if available < minimum then available else minimum) m.1,
      (l.map Prod.snd).foldl (fun minimum available => if available < minimum then available else minimum) m.2) := by
  induction l generalizing m with
  | nil => rfl
  | cons p l ih => exact ih _

/-- The minimum taken is one of the list, or what it started from. -/
theorem foldl_min_mem (l : List ℕ) (m : ℕ) :
    l.foldl (fun minimum available => if available < minimum then available else minimum) m = m ∨
      l.foldl (fun minimum available => if available < minimum then available else minimum) m ∈ l := by
  induction l generalizing m with
  | nil => exact .inl rfl
  | cons a l ih =>
    rw [List.foldl_cons]
    split_ifs
    · rcases ih a with h | h
      · exact .inr (List.mem_cons.2 (.inl h))
      · exact .inr (List.mem_cons_of_mem _ h)
    · exact (ih m).imp_right (List.mem_cons_of_mem _)

/-- Among sizes smaller than where it starts from, the minimum is the least of them. -/
theorem foldl_min_isLeast {l : List ℕ} {m : ℕ} (hne : l ≠ []) (hlt : ∀ a ∈ l, a < m) :
    IsLeast {n | n ∈ l} (l.foldl (fun minimum available => if available < minimum then available else minimum) m) := by
  have hle := (le_foldl_min (l := l) (m := m)).1 le_rfl
  refine ⟨(foldl_min_mem l m).resolve_left fun h => ?_, fun a ha => hle.2 a ha⟩
  obtain ⟨a, ha⟩ := List.exists_mem_of_ne_nil l hne
  have := hlt a ha
  have := hle.2 a ha
  omega

theorem smallestSize_isLeast {l : List (ℕ × ℕ)} (hne : l ≠ []) (hlt : ∀ p ∈ l, p.1 < uintMax ∧ p.2 < uintMax) :
    IsLeast {n | ∃ p ∈ l, p.1 = n} (smallestSize l).1 ∧ IsLeast {n | ∃ p ∈ l, p.2 = n} (smallestSize l).2 := by
  rw [smallestSize, foldl_smaller]
  have hfst := foldl_min_isLeast (l := l.map Prod.fst) (m := uintMax) (by simpa using hne)
    (List.forall_mem_map.2 fun p hp => (hlt p hp).1)
  have hsnd := foldl_min_isLeast (l := l.map Prod.snd) (m := uintMax) (by simpa using hne)
    (List.forall_mem_map.2 fun p hp => (hlt p hp).2)
  simp only [List.mem_map] at hfst hsnd
  exact ⟨hfst, hsnd⟩

theorem smallestSize_lt {l : List (ℕ × ℕ)} (hne : l ≠ []) (hlt : ∀ p ∈ l, p.1 < uintMax ∧ p.2 < uintMax) :
    (smallestSize l).1 < uintMax ∧ (smallestSize l).2 < uintMax := by
  obtain ⟨⟨⟨p, hp, hfst⟩, -⟩, ⟨q, hq, hsnd⟩, -⟩ := smallestSize_isLeast hne hlt
  exact ⟨hfst ▸ (hlt p hp).1, hsnd ▸ (hlt q hq).2⟩

/-! ## Sessions -/

/-- The size of a client that counts for a session. -/
def clientSize (id : ℕ) : Option SizedClient → Option (ℕ × ℕ)
  | none => none
  | some c => if c.suspended then none else if c.session = some id then some (c.tty.sx, c.tty.sy) else none

variable {clients : List (Option SizedClient)} {id w : ℕ}

theorem sessionSize_eq (clients : List (Option SizedClient)) (id : ℕ) :
    sessionSize clients id = smallestSize (clients.filterMap (clientSize id)) := by
  rw [sessionSize, smallestSize, List.foldl_filterMap]
  congr 1
  funext size c
  cases c with
  | none => rfl
  | some c =>
    simp only [clientSize]
    split_ifs <;> rfl

theorem mem_clientSize {p : ℕ × ℕ} :
    p ∈ clients.filterMap (clientSize id) ↔ ∃ c, Attached clients id c ∧ (c.tty.sx, c.tty.sy) = p := by
  rw [List.mem_filterMap]
  constructor
  · rintro ⟨c, hc, hsize⟩
    cases c with
    | none => cases hsize
    | some c =>
      simp only [clientSize] at hsize
      split_ifs at hsize with hsuspended hsession
      exact ⟨c, ⟨hc, by simpa using hsuspended, hsession⟩, Option.some.inj hsize⟩
  · rintro ⟨c, ⟨hc, hsuspended, hsession⟩, rfl⟩
    exact ⟨some c, hc, by simp [clientSize, hsuspended, hsession]⟩

theorem recalculateSession_sized (clients : List (Option SizedClient)) (s : SizedSession) :
    SessionSized clients s (recalculateSession clients s) := by
  unfold recalculateSession
  rw [sessionSize_eq]
  by_cases hnone : clients.filterMap (clientSize s.id) = []
  · have hno : ¬∃ c, Attached clients s.id c := fun ⟨c, hc⟩ => by
      have := mem_clientSize.2 ⟨c, hc, rfl⟩
      rw [hnone] at this
      exact absurd this List.not_mem_nil
    rw [hnone]
    exact ⟨⟨rfl, rfl, rfl⟩, fun h => absurd h hno, fun _ => ⟨rfl, rfl, rfl⟩⟩
  · have hbounds : ∀ p ∈ clients.filterMap (clientSize s.id), p.1 < uintMax ∧ p.2 < uintMax := fun p hp => by
      obtain ⟨c, -, rfl⟩ := mem_clientSize.1 hp
      exact ⟨c.tty.sx_lt, c.tty.sy_lt⟩
    have hlt := smallestSize_lt hnone hbounds
    have hleast := smallestSize_isLeast hnone hbounds
    simp only [mem_clientSize, exists_exists_and_eq_and] at hleast
    generalize smallestSize (clients.filterMap (clientSize s.id)) = size at hlt hleast ⊢
    obtain ⟨ssx, ssy⟩ := size
    obtain ⟨hleastX, hleastY⟩ := hleast
    dsimp only at hlt hleastX hleastY ⊢
    have hpos : 1 ≤ ssy := by
      obtain ⟨c, -, rfl⟩ := hleastY.1
      exact c.tty.sy_pos
    have hrows : (if s.status = true then if ssy = 0 then 1 else ssy - 1 else ssy) +
        (if s.status = true then 1 else 0) = ssy := by
      split_ifs <;> omega
    have hyes : ∃ c, Attached clients s.id c := hleastX.1.imp fun c hc => hc.1
    rw [if_neg (by omega)]
    generalize (if s.status = true then if ssy = 0 then 1 else ssy - 1 else ssy) = rows at hrows ⊢
    subst hrows
    by_cases hsame : s.sx = ssx ∧ s.sy = rows
    · rw [if_pos hsame]
      exact ⟨⟨rfl, rfl, rfl⟩, fun _ => ⟨rfl, hsame.1 ▸ hleastX, hsame.2 ▸ hleastY⟩, fun h => absurd hyes h⟩
    · rw [if_neg hsame]
      exact ⟨⟨rfl, rfl, rfl⟩, fun _ => ⟨rfl, hleastX, hleastY⟩, fun h => absurd hyes h⟩

/-- A session whose size is recalculated is attached exactly if a client is attached to it, and its
    size is then one. -/
theorem SessionSized.attached_iff {s s' : SizedSession} (h : SessionSized clients s s') :
    (s'.unattached = false ↔ ∃ c, Attached clients s'.id c) ∧
      (s'.unattached = false → s'.sx < uintMax ∧ s'.sy < uintMax) := by
  rw [h.same.2.1]
  by_cases hc : ∃ c, Attached clients s.id c
  · obtain ⟨hattached, ⟨⟨c, -, hsx⟩, -⟩, ⟨d, -, hsy⟩, -⟩ := h.attached hc
    have := c.tty.sx_lt
    have := d.tty.sy_lt
    exact ⟨iff_of_true hattached hc, fun _ => by omega⟩
  · rw [(h.unattached hc).1]
    exact ⟨iff_of_false (by simp) hc, fun h => by cases h⟩

/-! ## Windows -/

theorem sessionHas_isSome {wwl : Winlinks} : (sessionHas wwl (some w)).isSome ↔ ∃ wl ∈ wwl.entries, wl.window = some w := by
  rw [sessionHas, List.find?_isSome]
  simp

/-- Whether a session counts for a window is known, if it has a current window. -/
theorem SizedSession.has_eq {s : SizedSession} (hs : ∃ curw ∈ s.windows.keys, s.curw = some curw) (flag : Bool)
    (w : ℕ) : ∃ b, s.has flag w = pure b ∧
      (b = true ↔ ∃ wl ∈ s.windows.entries, wl.window = some w ∧ (flag = true → s.curw = some wl.idx)) := by
  obtain ⟨curw, hmem, hcurw⟩ := hs
  unfold SizedSession.has
  cases flag with
  | false =>
    refine ⟨_, if_neg (by simp), ?_⟩
    rw [sessionHas_isSome]
    simp
  | true =>
    obtain ⟨wl, hwl⟩ := Option.isSome_iff_exists.1 (Keyed.find?_isSome.2 hmem)
    rw [if_pos rfl, hcurw, Exec.follow_some, pure_bind, hwl, Exec.follow_some, pure_bind]
    refine ⟨_, rfl, ?_⟩
    obtain ⟨hentry, hidx⟩ := Keyed.find?_eq_some.1 hwl
    rw [decide_eq_true_eq]
    constructor
    · intro hw
      exact ⟨wl, hentry, hw, fun _ => congrArg some hidx.symm⟩
    · rintro ⟨wl', hentry', hw, hcurrent⟩
      have hfound := Keyed.find?_eq_some.2 ⟨hentry', (Option.some.inj (hcurrent rfl)).symm⟩
      rw [hwl] at hfound
      exact Option.some.inj hfound ▸ hw

/-- The size of the sessions that count for a window is the smallest of theirs. -/
theorem windowSize_eq {sessions : List SizedSession} {flag : Bool} {P : SizedSession → Prop}
    (h : ∀ s ∈ sessions, ∃ b, s.has flag w = pure b ∧ (s.unattached = false ∧ b = true ↔ P s)) :
    ∃ l : List (ℕ × ℕ), windowSize sessions flag w = pure (smallestSize l) ∧
      ∀ p, p ∈ l ↔ ∃ s ∈ sessions, P s ∧ (s.sx, s.sy) = p := by
  suffices hloop : ∀ size : ℕ × ℕ, ∃ l : List (ℕ × ℕ), sessions.foldlM (fun size s =>
      if s.unattached then pure size
      else do
        if ← s.has flag w then pure (smaller size s.sx s.sy) else pure size) size =
        (pure (l.foldl (fun size p => smaller size p.1 p.2) size) : Exec (ℕ × ℕ)) ∧
      ∀ p, p ∈ l ↔ ∃ s ∈ sessions, P s ∧ (s.sx, s.sy) = p from hloop (uintMax, uintMax)
  induction sessions with
  | nil => exact fun size => ⟨[], rfl, by simp⟩
  | cons s sessions ih =>
    intro size
    rw [List.forall_mem_cons] at h
    obtain ⟨b, hhas, hP⟩ := h.1
    by_cases hs : P s
    · obtain ⟨hattached, rfl⟩ := hP.2 hs
      obtain ⟨l, hl, hmem⟩ := ih h.2 (smaller size s.sx s.sy)
      refine ⟨(s.sx, s.sy) :: l, ?_, fun p => ?_⟩
      · rw [List.foldlM_cons, hattached, if_neg (by simp), hhas, pure_bind, if_pos rfl, pure_bind]
        exact hl
      · simp [hmem, hs, eq_comm]
    · obtain ⟨l, hl, hmem⟩ := ih h.2 size
      refine ⟨l, ?_, fun p => by simp [hmem, hs]⟩
      have hskip : (if s.unattached then pure size else do
          if ← s.has flag w then pure (smaller size s.sx s.sy) else pure size : Exec (ℕ × ℕ)) = pure size := by
        split_ifs with hattached
        · rfl
        · have hb : b ≠ true := fun hb => hs (hP.1 ⟨by simpa using hattached, hb⟩)
          rw [hhas, pure_bind, if_neg hb]
      rw [List.foldlM_cons, hskip, pure_bind]
      exact hl

theorem limitSize_eq (limit n : ℕ) : limitSize limit n = capped limit n := by
  unfold limitSize capped
  split_ifs <;> omega

/-- The size of a window is the smallest one of the sessions that limit it, capped by its options. -/
theorem windowLimits_eq {sessions : List SizedSession} (o : SizeOptions) (w : ℕ)
    (hcurw : ∀ s ∈ sessions, ∃ curw ∈ s.windows.keys, s.curw = some curw)
    (hsized : ∀ s' ∈ sessions, ∃ s, SessionSized clients s s') :
    ∃ size, windowLimits sessions o w = pure size ∧
      ((∃ s ∈ sessions, s.Limits clients o w) → ∃ sx sy,
        IsLeast {n | ∃ s ∈ sessions, s.Limits clients o w ∧ s.sx = n} sx ∧
        IsLeast {n | ∃ s ∈ sessions, s.Limits clients o w ∧ s.sy = n} sy ∧
        size = some (capped o.forceWidth sx, capped o.forceHeight sy)) ∧
      ((¬∃ s ∈ sessions, s.Limits clients o w) → size = none) := by
  have hlimits : ∀ s' ∈ sessions, ∃ b, s'.has o.aggressiveResize w = pure b ∧
      (s'.unattached = false ∧ b = true ↔ s'.Limits clients o w) := fun s' hs' => by
    obtain ⟨s, hs⟩ := hsized s' hs'
    obtain ⟨b, hhas, hb⟩ := SizedSession.has_eq (hcurw s' hs') o.aggressiveResize w
    exact ⟨b, hhas, by rw [SizedSession.Limits, hb, hs.attached_iff.1]⟩
  obtain ⟨l, hsize, hmem⟩ := windowSize_eq hlimits
  rw [windowLimits, hsize, pure_bind]
  by_cases hnil : l = []
  · have hno : ¬∃ s ∈ sessions, s.Limits clients o w := fun ⟨s, hs, hlimits⟩ => by
      have := (hmem (s.sx, s.sy)).2 ⟨s, hs, hlimits, rfl⟩
      rw [hnil] at this
      exact absurd this List.not_mem_nil
    rw [hnil]
    exact ⟨none, rfl, fun h => absurd h hno, fun _ => rfl⟩
  · have hbounds : ∀ p ∈ l, p.1 < uintMax ∧ p.2 < uintMax := fun p hp => by
      obtain ⟨s', hs', hlimits, rfl⟩ := (hmem p).1 hp
      obtain ⟨s, hs⟩ := hsized s' hs'
      exact hs.attached_iff.2 (hs.attached_iff.1.2 hlimits.1)
    have hsx : {n | ∃ p ∈ l, p.1 = n} = {n | ∃ s ∈ sessions, s.Limits clients o w ∧ s.sx = n} := by
      simp [hmem]
    have hsy : {n | ∃ p ∈ l, p.2 = n} = {n | ∃ s ∈ sessions, s.Limits clients o w ∧ s.sy = n} := by
      simp [hmem]
    have hlt := smallestSize_lt hnil hbounds
    have hleast := smallestSize_isLeast hnil hbounds
    rw [hsx, hsy] at hleast
    generalize smallestSize l = size at hlt hleast ⊢
    obtain ⟨ssx, ssy⟩ := size
    dsimp only at hlt hleast ⊢
    have hyes : ∃ s ∈ sessions, s.Limits clients o w := by
      obtain ⟨s, hs, hlimits, -⟩ := hleast.1.1
      exact ⟨s, hs, hlimits⟩
    rw [if_neg (by omega), limitSize_eq, limitSize_eq]
    exact ⟨_, rfl, fun _ => ⟨ssx, ssy, hleast.1, hleast.2, rfl⟩, fun h => absurd hyes h⟩

/-- A window with a consistent layout and an active pane takes the size it is given. -/
theorem recalculateSize_sized {sizes : List (ℕ × ℕ × ℕ)} {v : Window} {root : LayoutCell} {active sx sy : ℕ}
    (h : HasLayout v root) (hactive : v.active = some active) (hmem : active ∈ v.paneIds)
    (hsize : sizes.lookup v.id = some (sx, sy)) :
    ∃ v', recalculateSize sizes v = pure v' ∧ v'.id = v.id ∧ v'.sx = sx ∧ v'.sy = sy := by
  unfold recalculateSize
  rw [hsize]
  dsimp only
  by_cases hsame : v.sx = sx ∧ v.sy = sy
  · rw [if_pos hsame]
    exact ⟨v, rfl, rfl, hsame⟩
  · obtain ⟨lc₁, lc₂, panes, hlayout, -⟩ := layoutResize_eq h sx sy
    obtain ⟨v₁, hresize, hsx, hsy⟩ : ∃ v₁, resizeWindow v sx sy = pure v₁ ∧ v₁.sx = sx ∧ v₁.sy = sy :=
      ⟨_, by rw [resizeWindow, hlayout, pure_bind], rfl, rfl⟩
    have hselection := resizeWindow_same (by rw [hresize, Exec.value?_pure])
    have hmem₁ : active ∈ v₁.paneIds := hselection.panes ▸ hmem
    obtain ⟨a, -, hwalk⟩ := visibleFrom_mem (hselection.panes ▸ h.panes) hmem₁ hmem₁
    rw [if_neg hsame, hresize, pure_bind, showActive, hselection.active, hactive, Exec.follow_some, pure_bind, hwalk,
      pure_bind]
    exact ⟨_, rfl, hselection.id, hsx, hsy⟩

/-- Replacing a window replaces it in its place. -/
theorem windows_setWindow {s : Server} {A B : List Window} {v v' : Window} (h : s.windows = A ++ v :: B)
    (hid : v'.id = v.id) : (s.setWindow v').windows = A ++ v' :: B := by
  have hnodup := s.nodup
  rw [h, List.map_append, List.map_cons, List.nodup_append, List.nodup_cons] at hnodup
  have hA : ∀ u ∈ A, isWindow v'.id u = false := fun u hu => by
    have hne := hnodup.2.2 u.id (List.mem_map_of_mem hu) v.id List.mem_cons_self
    simp [isWindow, hid, hne]
  have hB : ∀ u ∈ B, isWindow v'.id u = false := fun u hu => by
    have hne : u.id ≠ v.id := fun e => hnodup.2.1.1 (e ▸ List.mem_map_of_mem hu)
    simp [isWindow, hid, hne]
  show (s.windows.map fun u => if isWindow v'.id u then v' else u) = _
  rw [h, List.map_append, List.map_cons, if_pos (by simp [isWindow, hid]),
    List.map_congr_left fun u hu => by rw [if_neg (by simp [hA u hu])],
    List.map_congr_left (l := B) fun u hu => by rw [if_neg (by simp [hB u hu])]]
  simp

/-- A loop over all windows that replaces every one of them. -/
theorem foldlM_setWindow {s : Server} {f : Window → Exec Window} {R : Window → Window → Prop}
    (h : ∀ v ∈ s.windows, ∃ v', f v = pure v' ∧ v'.id = v.id ∧ R v v') :
    ∃ s', s.windows.foldlM (fun t v => do
        let v' ← f v
        pure (t.setWindow v')) s = pure s' ∧ List.Forall₂ R s.windows s'.windows := by
  suffices hloop : ∀ (B A A' : List Window) (t : Server), (∀ v ∈ B, ∃ v', f v = pure v' ∧ v'.id = v.id ∧ R v v') →
      t.windows = A' ++ B → List.Forall₂ R A A' → ∃ s', B.foldlM (fun t v => do
        let v' ← f v
        pure (t.setWindow v')) t = pure s' ∧ List.Forall₂ R (A ++ B) s'.windows from
    hloop s.windows [] [] s h rfl .nil
  intro B
  induction B with
  | nil =>
    intro A A' t _ ht hA
    exact ⟨t, rfl, by simpa [ht] using hA⟩
  | cons v B ih =>
    intro A A' t hB ht hA
    rw [List.forall_mem_cons] at hB
    obtain ⟨v', hv', hid, hR⟩ := hB.1
    obtain ⟨s', hs', hforall⟩ := ih (A ++ [v]) (A' ++ [v']) (t.setWindow v') hB.2
      (by rw [windows_setWindow ht hid]; simp) (List.rel_append hA (.cons hR .nil))
    refine ⟨s', ?_, by simpa using hforall⟩
    rw [List.foldlM_cons, hv', pure_bind, pure_bind]
    exact hs'

/-- A window with a consistent layout and an active pane gets its size from the sessions that limit
    it. -/
theorem recalculateWindow_sized {sessions : List SizedSession} (o : SizeOptions) {v : Window} {root : LayoutCell}
    {active : ℕ} (hcurw : ∀ s ∈ sessions, ∃ curw ∈ s.windows.keys, s.curw = some curw)
    (hsized : ∀ s' ∈ sessions, ∃ s, SessionSized clients s s') (h : HasLayout v root)
    (hactive : v.active = some active) (hmem : active ∈ v.paneIds) :
    ∃ v', (do
        let size ← windowLimits sessions o v.id
        recalculateSize (size.toList.map fun size => (v.id, size)) v) = pure v' ∧ v'.id = v.id ∧
      WindowSized clients sessions o v v' := by
  obtain ⟨size, hlimits, hsome, hnone⟩ := windowLimits_eq o v.id hcurw hsized
  rw [hlimits, pure_bind]
  by_cases hyes : ∃ s ∈ sessions, s.Limits clients o v.id
  · obtain ⟨sx, sy, hsx, hsy, rfl⟩ := hsome hyes
    have hlookup : [(v.id, capped o.forceWidth sx, capped o.forceHeight sy)].lookup v.id =
        some (capped o.forceWidth sx, capped o.forceHeight sy) := List.lookup_cons_self
    obtain ⟨v', hv', hid, hx, hy⟩ := recalculateSize_sized h hactive hmem hlookup
    exact ⟨v', hv', hid, hid, fun _ => ⟨sx, sy, hsx, hsy, hx, hy⟩, fun h => absurd hyes h⟩
  · rw [hnone hyes]
    exact ⟨v, rfl, rfl, rfl, fun h => absurd h hyes, fun _ => rfl⟩

/-! ## Negotiation -/

/-- **Sizes are negotiated**: every session takes the size of its smallest client, less a row for its
    status line, and every window that of the smallest session that counts for it, capped by its
    options. Without a client that is not suspended, a session keeps its size, and counts for no
    window. -/
theorem recalculateAllSizes_negotiated (clients : List (Option SizedClient)) {sessions : List SizedSession}
    (options : ℕ → SizeOptions) {server : Server} (hsessions : ∀ s ∈ sessions, s.toSession.Valid)
    (hwindows : ∀ w ∈ server.windows, ∃ root active, HasLayout w root ∧ w.active = some active ∧
      active ∈ w.paneIds) :
    ∃ sessions' server', recalculateAllSizes clients sessions options server = pure (sessions', server') ∧
      List.Forall₂ (SessionSized clients) sessions sessions' ∧
      List.Forall₂ (fun w w' => WindowSized clients sessions' (options w.id) w w') server.windows
        server'.windows := by
  have hsized : List.Forall₂ (SessionSized clients) sessions (sessions.map (recalculateSession clients)) :=
    List.forall₂_map_right_iff.2 (List.forall₂_same.2 fun s _ => recalculateSession_sized clients s)
  have hmem : ∀ s' ∈ sessions.map (recalculateSession clients), ∃ s ∈ sessions, SessionSized clients s s' :=
    List.forall_mem_map.2 fun s hs => ⟨s, hs, recalculateSession_sized clients s⟩
  have hcurw : ∀ s' ∈ sessions.map (recalculateSession clients), ∃ curw ∈ s'.windows.keys, s'.curw = some curw :=
    fun s' hs' => by
      obtain ⟨s, hs, hsame⟩ := hmem s' hs'
      have hvalid : s'.toSession.Valid := hsame.same.1 ▸ hsessions s hs
      exact hvalid.curw
  obtain ⟨server', hloop, hwindows'⟩ := foldlM_setWindow (s := server) fun v hv => by
    obtain ⟨root, active, hlayout, hactive, hpane⟩ := hwindows v hv
    exact recalculateWindow_sized (options v.id) hcurw (fun s' hs' => (hmem s' hs').imp fun _ h => h.2) hlayout hactive
      hpane
  refine ⟨_, server', ?_, hsized, hwindows'⟩
  rw [recalculateAllSizes]
  simp only [recalculateWindow]
  simp only [bind_assoc] at hloop
  rw [hloop, pure_bind]

/-- Two clients of a session, the smaller one suspended. -/
def suspendedClients : List (Option SizedClient) :=
  [some { session := some 1, tty := ttyResize (some (100, 30)) }, none,
    some { session := some 1, tty := ttyResize (some (70, 20)), suspended := true }]

/-- A session with a window, whose address is zero. -/
def shownSession : SizedSession where
  windows := { entries := [{ idx := 0, window := some 0 }] }
  curw := some 0
  id := 1
  sx := 80
  sy := 24

/-- A session with the same window, and no client. -/
def detachedSession : SizedSession := { shownSession with id := 2 }

/-- A server with a window of one pane. -/
def paneServer : Server where
  windows := [newWindow 0 0 80 24]

theorem recalculateAllSizes_negotiated_shared : ∃ sessions' server',
    recalculateAllSizes suspendedClients [shownSession, detachedSession] (fun _ => {}) paneServer =
      pure (sessions', server') ∧
    List.Forall₂ (SessionSized suspendedClients) [shownSession, detachedSession] sessions' ∧
    List.Forall₂ (fun w w' => WindowSized suspendedClients sessions' {} w w') paneServer.windows server'.windows := by
  have hvalid : shownSession.toSession.Valid := ⟨⟨0, by decide, rfl⟩, by simp [shownSession], by simp [shownSession]⟩
  refine recalculateAllSizes_negotiated suspendedClients (fun _ => {}) ?_ ?_
  · simp only [List.forall_mem_cons]
    exact ⟨hvalid, hvalid, by simp⟩
  · intro w hw
    obtain rfl := List.mem_singleton.1 hw
    exact ⟨_, 0, newWindow_hasLayout 0 0 80 24, rfl, by decide⟩

end Tmux
