import Tmux.Arguments
import Tmux.Library.Runs
import Tmux.Tty.Valid

/-!
# Choosing an item

In choose mode a pane shows some of a list of items (`ChooseData`), from the item `top` on, one of which is
selected. The keys move the selection and what is shown (`windowChooseKey`).

The selected item is shown (`ChooseData.Shown`) after every key, and after the pane is resized. When the mode is made
ready, the last items are shown if the selected one is not among the first (`windowChooseReady`); whether it is shown
then is said in `chooseRun_iff`. Sums do not wrap.
-/

namespace Tmux

open Exec

/-- The commands of keys in choose mode. -/
inductive ChooseCmd
  | backspace
  | cancel
  | choose
  | down
  | pageDown
  | pageUp
  | scrollDown
  | scrollUp
  | startNumberPrefix
  | up
  /-- There is no command for the key. -/
  | other
  deriving DecidableEq, Repr

/-- A pane in choose mode: the number of items, the first one shown and the one selected, and the size of the
    screen. -/
structure ChooseData where
  items : ℕ
  top : ℕ := 0
  selected : ℕ
  sx : ℕ
  sy : ℕ
  /-- Whether the number of an item is being put in. -/
  gotoItem : Bool := false
  inputStr : List UInt8 := []
  deriving DecidableEq, Repr

/-- The mode goes on, or it is left with an item, or with none. -/
inductive ChooseState
  | choosing (data : ChooseData)
  | left (item : Option ℕ)
  deriving DecidableEq, Repr

/-- The item on a row of the screen, if there is one. -/
def windowChooseWriteLine (data : ChooseData) (py : ℕ) : Option ℕ :=
  if data.top + py < data.items then some (data.top + py) else none

def windowChooseReady (data : ChooseData) (cur : ℕ) : Exec ChooseData := do
  let data := { data with selected := cur }
  if data.selected > data.sy - 1 then do
    let top ← usub data.items data.sy
    pure { data with top }
  else pure data

def windowChooseResize (data : ChooseData) (sx sy : ℕ) : Exec ChooseData := do
  let last ← usub sy 1
  let top := if data.selected > last then data.selected - last else 0
  pure { data with top, sx, sy }

/-- Leave the mode with an item of the list. -/
def chooseItem (data : ChooseData) (i : ℕ) : Exec ChooseState :=
  if i < data.items then pure (.left (some i)) else .fault .overread

def windowChooseScrollUp (data : ChooseData) : ChooseData :=
  if data.top = 0 then data else { data with top := data.top - 1 }

def windowChooseScrollDown (data : ChooseData) : ChooseData :=
  if data.top ≥ data.items then data else { data with top := data.top + 1 }

/-- The keys of items: digits and letters. -/
def chooseKeys : List UInt8 :=
  asciiBytes "0123456789" ++ asciiBytes "abcdefghijklmnopqrstuvwxyz" ++ asciiBytes "ABCDEFGHIJKLMNOPQRSTUVWXYZ"

/-- The item of a key: the keys that have a command are left out. -/
def windowChooseIndexKey (lookup : KeyCode → ChooseCmd) (key : KeyCode) : Option ℕ :=
  (chooseKeys.filter fun c => lookup (charKey c) = .other).findIdx? fun c => key = charKey c

def isDigitKey (key : KeyCode) : Bool := 48 ≤ key.toInt && key.toInt ≤ 57

/-- Put in a digit of the number of an item. -/
def windowChoosePromptInput (data : ChooseData) (key : KeyCode) : ChooseData :=
  { data with gotoItem := true, inputStr := data.inputStr ++ [UInt8.ofNat key.toNat] }

/-- The number that was put in, or zero if it is none. -/
def inputNumber (data : ChooseData) : ℕ :=
  match strtonum (String.ofList (data.inputStr.map fun c => Char.ofNat c.toNat)) 0 2147483647 with
  | .ok n => n.toNat
  | .error _ => 0

/-- A key while a number is put in. -/
def chooseGotoKey (lookup : KeyCode → ChooseCmd) (data : ChooseData) (key : KeyCode) : Exec ChooseState :=
  match lookup key with
  | .cancel => pure (.choosing { data with gotoItem := false })
  | .choose => do
    let last ← usub data.items 1
    if inputNumber data > last then pure (.choosing { data with gotoItem := false })
    else chooseItem data (inputNumber data)
  | .backspace => pure (.choosing { data with inputStr := data.inputStr.dropLast })
  | _ => pure (.choosing (if isDigitKey key then windowChoosePromptInput data key else data))

/-- Move the selection up, and to the last item from the first one. -/
def chooseUp (data : ChooseData) : Exec ChooseData :=
  if data.items = 0 then pure data
  else if data.selected = 0 then do
    let data := { data with selected := data.items - 1 }
    if data.selected > data.sy - 1 then do
      let top ← usub data.items data.sy
      pure { data with top }
    else pure data
  else
    let data := { data with selected := data.selected - 1 }
    pure (if data.selected < data.top then windowChooseScrollUp data else data)

/-- Move the selection down, and to the first item from the last one. -/
def chooseDown (data : ChooseData) : Exec ChooseData :=
  if data.items = 0 then pure data
  else if data.selected = data.items - 1 then pure { data with selected := 0, top := 0 }
  else
    let data := { data with selected := data.selected + 1 }
    pure (if data.selected < data.top + data.sy then data else windowChooseScrollDown data)

def chooseScrollUp (data : ChooseData) : Exec ChooseData := do
  if data.items = 0 ∨ data.top = 0 then pure data
  else do
    let last ← usub (data.top + data.sy) 1
    if data.selected = last then do
      let selected ← usub data.selected 1
      pure (windowChooseScrollUp { data with selected })
    else pure (windowChooseScrollUp data)

def chooseScrollDown (data : ChooseData) : Exec ChooseData :=
  if data.items = 0 ∨ data.top + data.sy ≥ data.items then pure data
  else if data.selected = data.top then pure (windowChooseScrollDown { data with selected := data.selected + 1 })
  else pure (windowChooseScrollDown data)

def choosePageUp (data : ChooseData) : Exec ChooseData :=
  if data.selected < data.sy then pure { data with selected := 0, top := 0 }
  else
    pure { data with
      selected := data.selected - data.sy
      top := if data.top < data.sy then 0 else data.top - data.sy }

def choosePageDown (data : ChooseData) : Exec ChooseData := do
  let last ← usub data.items 1
  let selected := if data.selected + data.sy > last then last else data.selected + data.sy
  let top := data.top + data.sy
  let top :=
    if data.sy < data.items then if top + data.sy > data.items then data.items - data.sy else top
    else 0
  pure { data with selected, top := if selected < top then selected else top }

def windowChooseKey (lookup : KeyCode → ChooseCmd) (data : ChooseData) (key : KeyCode) : Exec ChooseState :=
  if data.gotoItem then chooseGotoKey lookup data key
  else
    match lookup key with
    | .cancel => pure (.left none)
    | .choose => chooseItem data data.selected
    | .up => .choosing <$> chooseUp data
    | .down => .choosing <$> chooseDown data
    | .scrollUp => .choosing <$> chooseScrollUp data
    | .scrollDown => .choosing <$> chooseScrollDown data
    | .pageUp => .choosing <$> choosePageUp data
    | .pageDown => .choosing <$> choosePageDown data
    | .backspace => pure (.choosing { data with inputStr := data.inputStr.dropLast })
    | .startNumberPrefix =>
      let key := key &&& ~~~keycMaskMod
      pure (.choosing (if isDigitKey key then windowChoosePromptInput data key else data))
    | .other =>
      match windowChooseIndexKey lookup key with
      | none => pure (.choosing data)
      | some idx => if idx < data.items then chooseItem data idx else pure (.choosing data)

def windowChooseMouse (data : ChooseData) (m : MouseEvent) : Exec ChooseState :=
  if m.b &&& 3 = 3 ∨ m.x ≥ data.sx ∨ m.y ≥ data.sy then pure (.choosing data)
  else if data.top + m.y ≥ data.items then pure (.choosing data)
  else chooseItem data (data.top + m.y)

/-- What happens to a pane in choose mode. A pane has at least one line. -/
inductive ChooseEvent
  | ready (cur : ℕ)
  | key (lookup : KeyCode → ChooseCmd) (key : KeyCode)
  | mouse (m : MouseEvent)
  | resize (sx sy : ℕ) (h : 1 ≤ sy)

def chooseEvent : ChooseState → ChooseEvent → Exec ChooseState
  | .left item, _ => pure (.left item)
  | .choosing data, .ready cur => .choosing <$> windowChooseReady data cur
  | .choosing data, .key lookup key => windowChooseKey lookup data key
  | .choosing data, .mouse m => windowChooseMouse data m
  | .choosing data, .resize sx sy _ => .choosing <$> windowChooseResize data sx sy

/-- A pane that is put into choose mode with a list of items, before it is made ready. -/
def windowChooseInit (items sx sy selected : ℕ) : ChooseData where
  items
  selected
  sx
  sy

/-! ## What is shown -/

/-- The selected item is one of the list, and on a row of the screen. -/
structure ChooseData.Shown (data : ChooseData) : Prop where
  lt : data.selected < data.items
  ge : data.top ≤ data.selected
  row : data.selected < data.top + data.sy

/-- The selected item is shown, unless the mode is left. -/
def ChooseState.Shown : ChooseState → Prop
  | .choosing data => data.Shown
  | .left _ => True

/-- The item that is selected when the mode is made ready is on one of the rows: those that are shown if it is among
    the first ones, and the last ones if not. -/
def ChooseData.Readies (data : ChooseData) (cur : ℕ) : Prop :=
  cur < data.items ∧ if cur < data.sy then data.top ≤ cur else data.items - data.sy ≤ cur

/-- An item that the mode is made ready with is on one of the rows that are shown then. -/
def ChooseState.Readies : ChooseState → ChooseEvent → Prop
  | .choosing data, .ready cur => data.Readies cur
  | _, _ => True

variable {data : ChooseData} {s : ChooseState} {cur n : ℕ}

theorem ChooseData.Shown.line (h : data.Shown) :
    data.selected - data.top < data.sy ∧
      windowChooseWriteLine data (data.selected - data.top) = some data.selected := by
  obtain ⟨hlt, hge, hrow⟩ := h
  have hselected : data.top + (data.selected - data.top) = data.selected := by omega
  rw [windowChooseWriteLine, hselected, if_pos hlt]
  exact ⟨by omega, rfl⟩

/-- A step that returns data, of which the selected item is shown. -/
abbrev Shows (x : Exec ChooseData) : Prop := ∃ data, x = pure data ∧ data.Shown

theorem windowChooseReady_shows_iff (hsy : 1 ≤ data.sy) : Shows (windowChooseReady data cur) ↔ data.Readies cur := by
  rw [windowChooseReady, ChooseData.Readies]
  dsimp only
  by_cases hcur : cur > data.sy - 1
  · rw [if_pos hcur, if_neg (by omega)]
    constructor
    · rintro ⟨d, hd, hlt, hge, hrow⟩
      obtain ⟨top, htop, hd⟩ := bind_eq_pure.1 hd
      obtain rfl := pure_inj.1 hd
      have hitems : data.sy ≤ data.items := by
        by_contra hless
        have hwraps := usub_wraps.2 (not_le.1 hless)
        rw [htop, wraps_pure] at hwraps
        exact Bool.false_ne_true hwraps
      rw [usub_of_le hitems, pure_inj] at htop
      exact ⟨hlt, htop ▸ hge⟩
    · rintro ⟨hlt, hge⟩
      rw [usub_of_le (by omega)]
      exact ⟨_, rfl, hlt, hge, by dsimp only; omega⟩
  · rw [if_neg hcur, if_pos (by omega)]
    constructor
    · rintro ⟨d, hd, hlt, hge, -⟩
      obtain rfl := pure_inj.1 hd
      exact ⟨hlt, hge⟩
    · rintro ⟨hlt, hge⟩
      exact ⟨_, rfl, hlt, hge, by dsimp only; omega⟩

theorem windowChooseResize_shows (h : data.Shown) {sx sy : ℕ} (hsy : 1 ≤ sy) : Shows (windowChooseResize data sx sy) := by
  obtain ⟨hlt, hge, hrow⟩ := h
  rw [windowChooseResize, usub_of_le hsy, pure_bind]
  refine ⟨_, rfl, hlt, ?_, ?_⟩ <;> dsimp only <;> split_ifs <;> omega

theorem chooseUp_shows (h : data.Shown) : Shows (chooseUp data) := by
  obtain ⟨hlt, hge, hrow⟩ := h
  rw [chooseUp, if_neg (by omega)]
  by_cases hfirst : data.selected = 0
  · rw [if_pos hfirst]
    dsimp only
    split_ifs with hlast
    · rw [usub_of_le (by omega)]
      exact ⟨_, rfl, by constructor <;> dsimp only <;> omega⟩
    · exact ⟨_, rfl, by constructor <;> dsimp only <;> omega⟩
  · rw [if_neg hfirst]
    refine ⟨_, rfl, ?_⟩
    dsimp only [windowChooseScrollUp]
    split_ifs <;> constructor <;> first | omega | (dsimp only; omega)

theorem chooseDown_shows (h : data.Shown) : Shows (chooseDown data) := by
  obtain ⟨hlt, hge, hrow⟩ := h
  rw [chooseDown, if_neg (by omega)]
  split_ifs with hlast
  · exact ⟨_, rfl, by constructor <;> dsimp only <;> omega⟩
  · refine ⟨_, rfl, ?_⟩
    dsimp only [windowChooseScrollDown]
    split_ifs <;> constructor <;> first | omega | (dsimp only; omega)

theorem chooseScrollUp_shows (h : data.Shown) : Shows (chooseScrollUp data) := by
  have hshown := h
  obtain ⟨hlt, hge, hrow⟩ := h
  rw [chooseScrollUp]
  split_ifs with htop
  · exact ⟨data, rfl, hshown⟩
  · rw [usub_of_le (by omega), pure_bind]
    split_ifs with hselected
    · rw [usub_of_le (by omega), pure_bind]
      refine ⟨_, rfl, ?_⟩
      dsimp only [windowChooseScrollUp]
      split_ifs <;> constructor <;> first | omega | (dsimp only; omega)
    · refine ⟨_, rfl, ?_⟩
      dsimp only [windowChooseScrollUp]
      split_ifs <;> constructor <;> first | omega | (dsimp only; omega)

theorem chooseScrollDown_shows (h : data.Shown) : Shows (chooseScrollDown data) := by
  have hshown := h
  obtain ⟨hlt, hge, hrow⟩ := h
  rw [chooseScrollDown]
  split_ifs with hend hselected
  · exact ⟨data, rfl, hshown⟩
  · refine ⟨_, rfl, ?_⟩
    dsimp only [windowChooseScrollDown]
    split_ifs <;> constructor <;> first | omega | (dsimp only; omega)
  · refine ⟨_, rfl, ?_⟩
    dsimp only [windowChooseScrollDown]
    split_ifs <;> constructor <;> first | omega | (dsimp only; omega)

theorem choosePageUp_shows (h : data.Shown) : Shows (choosePageUp data) := by
  obtain ⟨hlt, hge, hrow⟩ := h
  rw [choosePageUp]
  split_ifs <;> exact ⟨_, rfl, by constructor <;> dsimp only <;> omega⟩

theorem choosePageDown_shows (h : data.Shown) : Shows (choosePageDown data) := by
  obtain ⟨hlt, hge, hrow⟩ := h
  rw [choosePageDown, usub_of_le (by omega), pure_bind]
  refine ⟨_, rfl, ?_, ?_, ?_⟩ <;> dsimp only <;> split_ifs <;> omega

/-! ## Steps -/

/-- A step that returns, and shows the selected item unless the mode is left. -/
abbrev Keeps (x : Exec ChooseState) : Prop := ∃ s, x = pure s ∧ s.Shown

theorem Keeps.choosing {x : Exec ChooseData} (h : Shows x) : Keeps (.choosing <$> x) := by
  obtain ⟨data, rfl, hshown⟩ := h
  exact ⟨_, map_pure _ _, hshown⟩

theorem chooseItem_keeps {i : ℕ} (hi : i < data.items) : Keeps (chooseItem data i) := ⟨_, if_pos hi, trivial⟩

/-- A digit that is put in, or not, leaves what is shown as it is. -/
theorem promptInput_shown (h : data.Shown) (key : KeyCode) :
    (if isDigitKey key then windowChoosePromptInput data key else data).Shown := by
  split_ifs
  · exact ⟨h.lt, h.ge, h.row⟩
  · exact h

theorem chooseGotoKey_keeps (h : data.Shown) (lookup : KeyCode → ChooseCmd) (key : KeyCode) :
    Keeps (chooseGotoKey lookup data key) := by
  have hdigit : Keeps (pure (.choosing (if isDigitKey key then windowChoosePromptInput data key else data))) :=
    ⟨_, rfl, promptInput_shown h key⟩
  have hitems := h.lt
  rw [chooseGotoKey]
  cases lookup key with
  | cancel => exact ⟨_, rfl, h.lt, h.ge, h.row⟩
  | choose =>
    dsimp only
    rw [usub_of_le (by omega), pure_bind]
    split_ifs with hlast
    · exact ⟨_, rfl, h.lt, h.ge, h.row⟩
    · exact chooseItem_keeps (by omega)
  | backspace => exact ⟨_, rfl, h.lt, h.ge, h.row⟩
  | down | pageDown | pageUp | scrollDown | scrollUp | startNumberPrefix | up | other => exact hdigit

theorem windowChooseKey_keeps (h : data.Shown) (lookup : KeyCode → ChooseCmd) (key : KeyCode) :
    Keeps (windowChooseKey lookup data key) := by
  rw [windowChooseKey]
  split_ifs
  · exact chooseGotoKey_keeps h lookup key
  · cases lookup key with
    | cancel => exact ⟨_, rfl, trivial⟩
    | choose => exact chooseItem_keeps h.lt
    | up => exact .choosing (chooseUp_shows h)
    | down => exact .choosing (chooseDown_shows h)
    | scrollUp => exact .choosing (chooseScrollUp_shows h)
    | scrollDown => exact .choosing (chooseScrollDown_shows h)
    | pageUp => exact .choosing (choosePageUp_shows h)
    | pageDown => exact .choosing (choosePageDown_shows h)
    | backspace => exact ⟨_, rfl, h.lt, h.ge, h.row⟩
    | startNumberPrefix => exact ⟨_, rfl, promptInput_shown h _⟩
    | other =>
      dsimp only
      cases windowChooseIndexKey lookup key with
      | none => exact ⟨_, rfl, h⟩
      | some idx =>
        dsimp only
        split_ifs with hidx
        · exact chooseItem_keeps hidx
        · exact ⟨_, rfl, h⟩

theorem windowChooseMouse_keeps (h : data.Shown) (m : MouseEvent) : Keeps (windowChooseMouse data m) := by
  rw [windowChooseMouse]
  split_ifs with hmouse hpast
  · exact ⟨_, rfl, h⟩
  · exact ⟨_, rfl, h⟩
  · exact chooseItem_keeps (not_le.1 hpast)

theorem keeps_choosing_iff {x : Exec ChooseData} : Keeps (.choosing <$> x) ↔ Shows x := by
  refine ⟨?_, Keeps.choosing⟩
  rintro ⟨s, hs, hshown⟩
  obtain ⟨data, rfl, rfl⟩ := map_eq_pure.1 hs
  exact ⟨data, rfl, hshown⟩

/-- A step keeps the selected item on the screen exactly if the mode is not made ready with an item that is not. -/
theorem chooseEvent_keeps_iff (h : s.Shown) (e : ChooseEvent) : Keeps (chooseEvent s e) ↔ s.Readies e := by
  cases s with
  | left item => exact iff_of_true ⟨_, rfl, trivial⟩ trivial
  | choosing data =>
    have hsy : 1 ≤ data.sy := by
      have := h.ge
      have := h.row
      omega
    cases e with
    | ready cur => exact keeps_choosing_iff.trans (windowChooseReady_shows_iff hsy)
    | key lookup key => exact iff_of_true (windowChooseKey_keeps h lookup key) trivial
    | mouse m => exact iff_of_true (windowChooseMouse_keeps h m) trivial
    | resize sx sy hsy => exact iff_of_true (.choosing (windowChooseResize_shows h hsy)) trivial

/-! ## Runs -/

/-- In a run of a pane that is put into choose mode and made ready, the selected item is one of the list and on the
    screen after every step, exactly if it is each time the mode is made ready. -/
theorem chooseRun_iff (items sx selected cur : ℕ) {sy : ℕ} (hsy : 1 ≤ sy) (events : List ChooseEvent) :
    (∀ p, p <+: events → ∃ s,
      (ChooseEvent.ready cur :: p).foldlM chooseEvent (.choosing (windowChooseInit items sx sy selected)) = pure s ∧ s.Shown) ↔
      Exec.Along chooseEvent ChooseState.Readies (.choosing (windowChooseInit items sx sy selected))
        (.ready cur :: events) := by
  have hready : Keeps (chooseEvent (.choosing (windowChooseInit items sx sy selected)) (.ready cur)) ↔
      (windowChooseInit items sx sy selected).Readies cur := keeps_choosing_iff.trans (windowChooseReady_shows_iff hsy)
  have hrest : ∀ s, chooseEvent (.choosing (windowChooseInit items sx sy selected)) (.ready cur) = pure s → s.Shown →
      ((∀ p, p <+: events → ∃ s', p.foldlM chooseEvent s = pure s' ∧ s'.Shown) ↔
        Exec.Along chooseEvent ChooseState.Readies s events) := fun s _ hs =>
    Exec.prefixes_iff_along (fun _ e hs => chooseEvent_keeps_iff hs e) hs
  constructor
  · intro hrun
    have hkeeps : Keeps (chooseEvent (.choosing (windowChooseInit items sx sy selected)) (.ready cur)) := by
      obtain ⟨s, hs, hshown⟩ := hrun [] List.nil_prefix
      rw [List.foldlM_cons] at hs
      obtain ⟨s', hstep, hnil⟩ := bind_eq_pure.1 hs
      obtain rfl := pure_inj.1 hnil
      exact ⟨_, hstep, hshown⟩
    refine ⟨hready.1 hkeeps, fun s₁ hs₁ => ?_⟩
    obtain ⟨s, hstep, hshown⟩ := hkeeps
    rw [hstep, value?_pure] at hs₁
    obtain rfl := Option.some.inj hs₁
    refine (hrest s hstep hshown).1 fun p hp => ?_
    obtain ⟨s', hs', hshown'⟩ := hrun p hp
    rw [List.foldlM_cons, hstep, pure_bind] at hs'
    exact ⟨s', hs', hshown'⟩
  · rintro ⟨hcur, halong⟩ p hp
    obtain ⟨s, hstep, hshown⟩ := hready.2 hcur
    obtain ⟨s', hs', hshown'⟩ := (hrest s hstep hshown).2 (halong s (by rw [hstep, value?_pure])) p hp
    exact ⟨s', by rw [List.foldlM_cons, hstep, pure_bind, hs'], hshown'⟩

instance (s : ChooseState) (e : ChooseEvent) : Decidable (s.Readies e) :=
  match s, e with
  | .choosing _, .ready _ => inferInstanceAs (Decidable (_ ∧ _))
  | .choosing _, .key _ _ | .choosing _, .mouse _ | .choosing _, .resize _ _ _ | .left _, _ => isTrue trivial

/-- The last of ten items is chosen on three lines, and the first after it. -/
theorem chooseRun_iff_down : ∃ s, [ChooseEvent.ready 9, .key (fun _ => .down) keycDown].foldlM chooseEvent
    (.choosing (windowChooseInit 10 80 3 0)) = pure s ∧ s.Shown :=
  (chooseRun_iff 10 80 0 9 (by decide) [.key (fun _ => .down) keycDown]).2 (by decide) _ (List.prefix_refl _)

/-- The fourth of ten items is chosen on three lines, which then are the last ones. -/
theorem chooseRun_hidden :
    [ChooseEvent.ready 3].foldlM chooseEvent (.choosing (windowChooseInit 10 80 3 0)) =
      pure (.choosing { items := 10, top := 7, selected := 3, sx := 80, sy := 3 }) ∧
    ¬ ChooseData.Shown { items := 10, top := 7, selected := 3, sx := 80, sy := 3 } :=
  ⟨rfl, fun h => absurd h.ge (by decide)⟩

end Tmux
