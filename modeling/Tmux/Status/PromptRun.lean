import Tmux.Library.Runs
import Tmux.Status.PromptLine

/-!
# Runs of a prompt

What is kept by the keys for a prompt (`PromptState.Ok`): its buffer has a null byte, and the cursor is no
further than the text before it. A run keeps this, and stays within the buffer, exactly if every key does
(`promptRun_iff`, `Prompt.Takes`).
-/

namespace Tmux

open CString Line

variable {ctx : PromptContext} {history : List Text} {p : Prompt} {s : PromptState} {l : Line}

/-- The text of the prompt ends in its buffer, and its cursor and its place in the history are not beyond their
    ends. -/
structure PromptState.Ok (s : PromptState) : Prop where
  buffer : ∀ p ∈ s.prompt, ∃ n, strlen p.buffer 0 = pure n ∧ p.index ≤ n
  hindex : ∀ p ∈ s.prompt, p.hindex ≤ s.history.length

/-- A key stays within the buffer: its command does, and if it is put in, it is not a null byte, unless the prompt is
    for a single key and then goes away. -/
def Prompt.Takes (p : Prompt) (ctx : PromptContext) (key : KeyCode) : Prop :=
  p.Within (modeKeyLookup ctx.tree p.mode key).1 ∧
    ((modeKeyLookup ctx.tree p.mode key).1 = .other → isCharacter key = true → keyByte key = 0 →
      p.single = true ∧
        ctx.callback (some ((textAt p.buffer 0).part ((textAt p.buffer 0).1.take p.index) (List.take_subset _ _))) ≠ .keep)

/-- Every key stays within the buffer. -/
def PromptState.Within (s : PromptState) : PromptEvent → Prop
  | .key ctx key => ∀ p ∈ s.prompt, p.Takes ctx key
  | .history _ => True

theorem length_le_addHistory (history : List Text) (line : Text) :
    history.length ≤ (statusPromptAddHistory history line).length := by
  unfold statusPromptAddHistory
  split_ifs with hlast hfull
  · exact Nat.le_refl _
  · rw [List.length_append, List.length_tail, List.length_singleton]
    omega
  · rw [List.length_append]
    exact Nat.le_add_right _ _

theorem ok_some {p : Prompt} (h : l.Held p.buffer p.index) (hh : p.hindex ≤ history.length) :
    PromptState.Ok ⟨some p, history⟩ where
  buffer := by
    rintro _ ⟨⟩
    exact exists_held_iff.1 ⟨l, h⟩
  hindex := by
    rintro _ ⟨⟩
    exact hh

/-- Whatever the function of a prompt does, the prompt afterwards is as it should be if it is so when it is left. -/
theorem answered_ok_iff (p : Prompt) (history : List Text) (a : PromptAnswer) :
    PromptState.Ok ⟨p.answered a, history⟩ ↔ (a = .keep → PromptState.Ok ⟨some p, history⟩) := by
  cases a with
  | keep => exact ⟨fun h _ => h, fun h => h rfl⟩
  | clear =>
    refine iff_of_true ⟨?_, ?_⟩ fun h => by cases h
    · rintro _ ⟨⟩
    · rintro _ ⟨⟩
  | update input => exact iff_of_true (ok_some (held_atEnd input []) (Nat.zero_le _)) fun h => by cases h
  | set input single => exact iff_of_true (ok_some (held_atEnd input []) (Nat.zero_le _)) fun h => by cases h

/-! ## One step -/

/-- A computation returns a prompt as it should be, without fault and without wrapping. -/
def Lands (x : Exec PromptState) : Prop := ∃ s, x = pure s ∧ s.Ok

theorem lands_pure : Lands (pure s) ↔ s.Ok :=
  ⟨fun ⟨_, h, hs⟩ => Exec.pure_injective h ▸ hs, fun h => ⟨s, rfl, h⟩⟩

theorem not_lands_fault (e : Exec.Fault) : ¬Lands (.fault e) := by
  rintro ⟨s, h, -⟩
  cases h

section Step

variable {size : ℕ} (ctx)

/-- A command that only edits the buffer lands if it stays within the buffer. -/
theorem edit_lands_iff (cmd : EditCmd) (h : l.Held p.buffer p.index)
    (hsize : l.before.1.length + l.after.1.length = size) (hh : p.hindex ≤ history.length) :
    Lands (do
      let p ← promptEdit ctx history p size cmd
      pure { prompt := some p, history }) ↔ p.Within cmd := by
  have htext := h.textAt
  constructor
  · intro hlands
    by_contra hw
    cases cmd with
    | delete =>
      have hlen := h.lt_length
      have hi := h.1
      rw [Prompt.Within, htext, length_text, hsize] at hw
      have hfault : promptEdit ctx history p size .delete = .fault .overread :=
        promptDelete_fault (by omega) (by omega)
      rw [hfault] at hlands
      exact not_lands_fault _ hlands
    | complete =>
      rw [Prompt.Within, htext, not_or] at hw
      have hfault : promptEdit ctx history p size .complete = .fault .overread :=
        promptComplete_fault ctx h hw.1 fun c hc => Bool.not_eq_false _ ▸ fun hcb => hw.2 ⟨c, hc, hcb⟩
      rw [hfault] at hlands
      exact not_lands_fault _ hlands
    | _ => exact hw trivial
  · intro hw
    obtain ⟨n, hn, m, i, hedit, hheld⟩ := promptEdit_edits ctx h hsize hh hw
    rw [hedit, pure_bind, lands_pure]
    exact ok_some hheld hn

/-- A key that is put in lands if it is not a null byte. -/
theorem insertKey_lands_iff (h : l.Held p.buffer p.index) (hsize : l.before.1.length + l.after.1.length = size)
    (hh : p.hindex ≤ history.length) (key : KeyCode) :
    Lands (promptCommand ctx history p size key .other) ↔ (isCharacter key = true → keyByte key = 0 →
      p.single = true ∧
        ctx.callback (some ((textAt p.buffer 0).part ((textAt p.buffer 0).1.take p.index) (List.take_subset _ _))) ≠
          .keep) := by
  by_cases hchar : isCharacter key = true
  swap
  · have hsame : promptCommand ctx history p size key .other = pure ⟨some p, history⟩ := if_neg hchar
    rw [hsame, lands_pure]
    exact iff_of_true (ok_some h hh) fun h => absurd h hchar
  have hgrown := h.grow ctx.fresh (n := size + 2) (by omega)
  obtain ⟨r, hinsert⟩ := promptInsert_eq (p := { p with buffer := Block.resize ctx.fresh p.buffer (size + 2) }) hgrown hsize
    [keyByte key] (by rw [Block.length_resize]; exact Nat.lt_succ_self _)
  have hcommand : promptCommand ctx history p size key .other = (do
      let p ← promptInsert { p with buffer := Block.resize ctx.fresh p.buffer (size + 2) } size [keyByte key]
      let prompt := if p.single then p.answered (ctx.callback (some (textAt p.buffer 0))) else some p
      pure { prompt, history }) := if_pos hchar
  rw [hcommand, hinsert, pure_bind, lands_pure]
  by_cases hk : keyByte key = 0
  · -- The null byte ends the text, and the cursor is after it.
    have hbuffer : l.before.1 ++ [keyByte key] ++ (l.after.1 ++ 0 :: r) = l.before.1 ++ 0 :: (l.after.1 ++ 0 :: r) := by
      rw [hk, List.append_assoc, List.singleton_append]
    have htext : textAt (l.before.1 ++ 0 :: (l.after.1 ++ 0 :: r)) 0 = l.before := textAt_append (p := []) rfl l.before _
    have htake : (textAt p.buffer 0).part ((textAt p.buffer 0).1.take p.index) (List.take_subset _ _) = l.before := by
      apply Subtype.ext
      show (textAt p.buffer 0).1.take p.index = _
      rw [h.textAt, h.1]
      exact List.take_left
    have hnot : ¬PromptState.Ok ⟨some { p with
        buffer := l.before.1 ++ 0 :: (l.after.1 ++ 0 :: r), index := p.index + 1 }, history⟩ := fun hok => by
      obtain ⟨n, hn, hi⟩ := hok.buffer _ rfl
      have hlen := strlen_append (p := []) rfl l.before (l.after.1 ++ 0 :: r)
      have hn' : n = l.before.1.length := Exec.pure_injective (hn.symm.trans hlen)
      rw [hn', ← h.1] at hi
      exact Nat.not_succ_le_self _ hi
    rw [hbuffer, htake]
    dsimp only
    rw [htext]
    by_cases hsingle : p.single = true
    · rw [if_pos hsingle, answered_ok_iff]
      exact ⟨fun h _ _ => ⟨hsingle, fun hkeep => hnot (h hkeep)⟩, fun h hkeep => absurd hkeep (h hchar hk).2⟩
    · rw [if_neg hsingle]
      exact iff_of_false hnot fun h => hsingle (h hchar hk).1
  · -- The character is put into the line.
    have h0 : 0 ∉ [keyByte key] := fun h => hk (List.mem_singleton.1 h).symm
    have hindex : p.index + 1 = (l.before.1 ++ [keyByte key]).length := by
      rw [List.length_append, h.1]
      rfl
    have hheld : (l.insert ⟨[keyByte key], h0⟩).Held (l.before.1 ++ [keyByte key] ++ (l.after.1 ++ 0 :: r)) (p.index + 1) :=
      held_of (l := l.insert ⟨[keyByte key], h0⟩) rfl rfl hindex rfl
    refine iff_of_true ?_ fun _ hk' => absurd hk' hk
    split
    · exact (answered_ok_iff _ _ _).2 fun _ => ok_some hheld hh
    · exact ok_some hheld hh

/-- A command lands if it stays within the buffer, and what is put in is not a null byte. -/
theorem promptCommand_lands_iff (cmd : EditCmd) (h : l.Held p.buffer p.index)
    (hsize : l.before.1.length + l.after.1.length = size) (hh : p.hindex ≤ history.length) (key : KeyCode) :
    Lands (promptCommand ctx history p size key cmd) ↔ p.Within cmd ∧
      (cmd = .other → isCharacter key = true → keyByte key = 0 → p.single = true ∧
        ctx.callback (some ((textAt p.buffer 0).part ((textAt p.buffer 0).1.take p.index) (List.take_subset _ _))) ≠
          .keep) := by
  cases cmd with
  | enter =>
    obtain ⟨c, q, hq⟩ := List.exists_cons_of_length_pos (Nat.zero_lt_of_lt h.lt_length)
    have hload : Block.load p.buffer 0 = pure c := by
      rw [hq]
      exact load_append (p := []) rfl c q
    refine iff_of_true ?_ ⟨trivial, fun hother => by cases hother⟩
    rw [promptCommand, hload, pure_bind, lands_pure, answered_ok_iff]
    refine fun _ => ok_some h (hh.trans ?_)
    split
    · exact length_le_addHistory history _
    · exact Nat.le_refl _
  | cancel =>
    refine iff_of_true ?_ ⟨trivial, fun hother => by cases hother⟩
    rw [promptCommand, lands_pure, answered_ok_iff]
    exact fun _ => ok_some h hh
  | other =>
    rw [insertKey_lands_iff ctx h hsize hh key]
    exact ⟨fun hk => ⟨trivial, fun _ => hk⟩, fun hk => hk.2 rfl⟩
  | _ =>
    refine (edit_lands_iff ctx _ h hsize hh).trans ⟨fun hw => ⟨hw, fun hother => ?_⟩, And.left⟩
    cases hother

end Step

/-- What happens keeps a prompt as it should be exactly if a key stays within the buffer. -/
theorem promptEvent_lands_iff (hs : s.Ok) (e : PromptEvent) : Lands (promptEvent s e) ↔ s.Within e := by
  cases e with
  | history line =>
    refine iff_of_true (lands_pure.2 ⟨hs.buffer, fun p hp => ?_⟩) trivial
    exact (hs.hindex p hp).trans (length_le_addHistory _ line)
  | key ctx key =>
    obtain ⟨prompt, history⟩ := s
    cases prompt with
    | none =>
      refine iff_of_true (lands_pure.2 hs) ?_
      rintro p ⟨⟩
    | some p =>
      obtain ⟨l, h⟩ := exists_held_iff.2 (hs.buffer p rfl)
      have hkey : promptEvent ⟨some p, history⟩ (.key ctx key) = promptCommand ctx history
          { p with mode := (modeKeyLookup ctx.tree p.mode key).2 } (l.before.1.length + l.after.1.length) key
          (modeKeyLookup ctx.tree p.mode key).1 := by
        show statusPromptKey ctx history p key = _
        rw [statusPromptKey, h.strlen, pure_bind]
      have hcommand := promptCommand_lands_iff ctx (modeKeyLookup ctx.tree p.mode key).1
        (p := { p with mode := (modeKeyLookup ctx.tree p.mode key).2 }) h rfl (hs.hindex p rfl) key
      rw [hkey, hcommand]
      exact ⟨by rintro hw _ ⟨⟩; exact hw, fun hw => hw p rfl⟩

/-! ## Runs -/

/-- A run of a prompt stays within its buffer, with the text ended there and the cursor no further than the text after
    every step, exactly if every key does. -/
theorem promptRun_iff {events : List PromptEvent} (hs : s.Ok) :
    (∀ l, l <+: events → ∃ s', l.foldlM promptEvent s = pure s' ∧ s'.Ok) ↔
      Exec.Along promptEvent PromptState.Within s events :=
  Exec.prefixes_iff_along (fun _ e hs => promptEvent_lands_iff hs e) hs

instance (p : Prompt) (ctx : PromptContext) (key : KeyCode) : Decidable (p.Takes ctx key) :=
  inferInstanceAs (Decidable (_ ∧ _))

instance (s : PromptState) (e : PromptEvent) : Decidable (s.Within e) :=
  match e with
  | .key _ _ => inferInstanceAs (Decidable (∀ p ∈ s.prompt, _))
  | .history _ => isTrue trivial

theorem emptyPrompt_ok : emptyPrompt.Ok where
  buffer := by
    rintro _ ⟨⟩
    exact ⟨0, rfl, Nat.le_refl _⟩
  hindex := by
    rintro _ ⟨⟩
    exact Nat.zero_le _

/-- Two characters are put in, and there is none after them to delete. -/
theorem promptRun_iff_small :
    ∃ s', [PromptEvent.key emacsKeys 97, .key emacsKeys 98, .key emacsKeys keycDc].foldlM promptEvent emptyPrompt = pure s' ∧
      s'.Ok :=
  (promptRun_iff emptyPrompt_ok).2 (by decide) _ (List.prefix_refl _)

/-- A character that was just put in is not deleted without reading past the buffer, nor is a blank completed without
    reading before it. -/
theorem promptRun_leaves : emptyPrompt.Ok ∧
    [PromptEvent.key emacsKeys 97, .key emacsKeys keycLeft, .key emacsKeys keycDc].foldlM promptEvent emptyPrompt =
      .fault .overread ∧
    [PromptEvent.key emacsKeys 32, .key emacsKeys 9].foldlM promptEvent emptyPrompt = .fault .overread :=
  ⟨emptyPrompt_ok, by decide, by decide⟩

end Tmux
