import Tmux.Tty.Attributes

/-!
# The rendition of a terminal

The sequences for attributes and colours change the *rendition* of the terminal (`Rendition`). A cell is `shown`
with those of its attributes and colours that the terminal has capabilities for.

On a terminal that can set its colours to the default ones and reset its attributes (`TtyKind.Resets`), the
rendition stays that of the tracked cell, and changing it by the difference of two cells has the same effect as
resetting it and setting it anew (`ttyAttributes_eq_reset`).
-/

namespace Tmux

open Device

/-- Whether a capability turns an attribute on. -/
def TtyCode.isAttribute : TtyCode → Bool
  | bold | dim | sitm | smso | smul | blink | rev | invis | smacs => true
  | _ => false

/-- The attributes of a terminal that are on, by their capabilities, and the colours of its palette that are set;
    none is the default one. -/
structure Rendition where
  on : TtyCode → Bool
  colour : Ground → Option ℕ

namespace Rendition

def paint (r : Rendition) (g : Ground) (c : Option ℕ) : Rendition := { r with colour := Function.update r.colour g c }

/-- What a terminal does with a sequence. A reset does not change the character set. -/
def apply (r : Rendition) : TtySequence → Rendition
  | .code .sgr0 => ⟨fun d => d = .smacs && r.on d, fun _ => none⟩
  | .code .rmacs => { r with on := fun d => d ≠ .smacs && r.on d }
  | .code c => if c.isAttribute then { r with on := fun d => r.on d || c = d } else r
  | .code1 .setaf a => r.paint .fg (some a.toNat)
  | .code1 .setab a => r.paint .bg (some a.toNat)
  | .sgr [n] =>
    if n = 39 then r.paint .fg none
    else if n = 49 then r.paint .bg none
    else if 90 ≤ n ∧ n ≤ 97 then r.paint .fg (some (n - 82))
    else if 100 ≤ n ∧ n ≤ 107 then r.paint .bg (some (n - 92))
    else r
  | .sgr [n, 5, c] => if n = 38 then r.paint .fg (some c) else if n = 48 then r.paint .bg (some c) else r
  | _ => r

end Rendition

section

variable (tty : TtyKind)

/-- The colour that a terminal shows for the colour of a cell. -/
def shownColour (gc : GridCell) (g : Ground) : Option ℕ :=
  if g.is256 gc then
    if tty.has256 then some (g.colour gc).toNat
    else if tty.has88 then some (colour256to88 (g.colour gc)).toNat
    else none
  else if g.colour gc = 8 then none
  else if isBright (g.colour gc) then if tty.term.colours < 16 then none else some ((g.colour gc).toNat - 82)
  else if tty.has g.code then some (g.colour gc).toNat
  else none

/-- Whether a terminal has an attribute on for some attributes of a cell. -/
def shownAttr (attr : UInt8) (c : TtyCode) : Bool :=
  (attributeCodes tty).any fun entry => attr &&& entry.1 ≠ 0 && tty.has entry.2 && entry.2 = c

/-- How a terminal shows a cell, as far as it can. -/
def shown (gc : GridCell) : Rendition := ⟨shownAttr tty gc.attr, shownColour tty gc⟩

/-- A terminal that can reset what it can set: it can set the default colours, reset all attributes, and go back
    from the alternate character set; and if it has more colours than the basic ones, it can set these as well. -/
structure TtyKind.Resets : Prop where
  default : tty.has .ax = true ∨ tty.has .op = true
  attributes : tty.has .sgr0 = true
  charset : tty.useAcs = true → tty.has .smacs = true → tty.has .rmacs = true
  basic : ∀ g : Ground, tty.has g.code = true ∨ tty.has256 = false ∧ tty.has88 = false ∧ tty.term.colours < 16

end

variable {tty : TtyKind} {gc tc tc' : GridCell} {g : Ground}

/-! ## Cells that differ in a colour -/

theorem flags_save (flag a b : UInt8) : (a &&& ~~~flag ||| b &&& flag) &&& flag = b &&& flag := by
  rw [flags_or, UInt8.and_assoc, UInt8.not_and_self, UInt8.and_zero, UInt8.zero_or, UInt8.and_assoc, UInt8.and_self]

theorem flags_save_other {flag other : UInt8} (h : flag &&& other = 0) (a b : UInt8) :
    (a &&& ~~~flag ||| b &&& flag) &&& other = a &&& other := by
  rw [flags_or, flags_clear h, UInt8.and_assoc, h, UInt8.and_zero, UInt8.or_zero]

namespace Ground

/-- Two cells with the same colour of a ground. -/
structure Same (g : Ground) (gc tc : GridCell) : Prop where
  colour : g.colour tc = g.colour gc
  flag : tc.flags &&& g.flag = gc.flags &&& g.flag

theorem Same.refl (g : Ground) (gc : GridCell) : g.Same gc gc := ⟨rfl, rfl⟩

theorem Same.is256 (h : g.Same gc tc) : g.is256 tc = g.is256 gc := by
  rw [Ground.is256, Ground.is256, h.flag]

theorem Same.isDefault (h : g.Same gc tc) : g.isDefault tc = g.isDefault gc := by
  rw [Ground.isDefault, Ground.isDefault, h.colour, h.is256]

theorem Same.trans (h : g.Same gc tc) (h' : g.Same tc tc') : g.Same gc tc' where
  colour := h'.colour.trans h.colour
  flag := h'.flag.trans h.flag

/-- Two cells with the same attributes, and the same colour but for one ground. -/
structure Recoloured (g : Ground) (tc tc' : GridCell) : Prop where
  attr : tc'.attr = tc.attr
  same : ∀ h, h ≠ g → h.Same tc tc'

theorem Recoloured.refl (g : Ground) (tc : GridCell) : g.Recoloured tc tc := ⟨rfl, fun h _ => .refl h tc⟩

@[simp] theorem colour_withColour (g : Ground) (c : UInt8) (gc : GridCell) : g.colour (g.withColour c gc) = c := by
  cases g <;> rfl

theorem colour_withColour_of_ne {h : Ground} (hne : h ≠ g) (c : UInt8) (gc : GridCell) :
    h.colour (g.withColour c gc) = h.colour gc := by
  cases g <;> cases h <;> first | rfl | exact absurd rfl hne

@[simp] theorem attr_withColour (g : Ground) (c : UInt8) (gc : GridCell) : (g.withColour c gc).attr = gc.attr := by
  cases g <;> rfl

@[simp] theorem flags_withColour (g : Ground) (c : UInt8) (gc : GridCell) : (g.withColour c gc).flags = gc.flags := by
  cases g <;> rfl

theorem flag_and_of_ne {h : Ground} (hne : h ≠ g) : g.flag &&& h.flag = 0 := by
  cases g <;> cases h <;> first | rfl | exact absurd rfl hne

theorem recoloured_withColour {flags : UInt8} (g : Ground) (c : UInt8) (tc : GridCell)
    (hflags : ∀ h : Ground, h ≠ g → flags &&& h.flag = tc.flags &&& h.flag) :
    g.Recoloured tc (g.withColour c { tc with flags }) where
  attr := attr_withColour g c _
  same h hne := ⟨by rw [colour_withColour_of_ne hne]; cases h <;> rfl, by rw [flags_withColour, hflags h hne]⟩

theorem recoloured_save (g : Ground) (c : UInt8) (gc tc : GridCell) : g.Recoloured tc (g.save c gc tc) :=
  g.recoloured_withColour c tc fun _ hne => flags_save_other (flag_and_of_ne hne) _ _

theorem recoloured_saveDefault (g : Ground) (tc : GridCell) : g.Recoloured tc (g.saveDefault tc) :=
  g.recoloured_withColour 8 tc fun _ hne => flags_clear (flag_and_of_ne hne) _

theorem same_save (g : Ground) (gc tc : GridCell) : g.Same gc (g.save (g.colour gc) gc tc) where
  colour := colour_withColour g _ _
  flag := by rw [save, flags_withColour, flags_save]

theorem isDefault_saveDefault (g : Ground) (tc : GridCell) : g.isDefault (g.saveDefault tc) = true := by
  rw [isDefault, saveDefault, colour_withColour, is256, flags_withColour, UInt8.and_assoc, UInt8.not_and_self,
    UInt8.and_zero]
  rfl

end Ground

/-- A colour is shown as one that is the same. -/
theorem shownColour_of_same (h : g.Same gc tc) : shownColour tty tc g = shownColour tty gc g := by
  rw [shownColour, shownColour, h.colour, h.is256]

theorem shown_recoloured (h : g.Recoloured tc tc') :
    shown tty tc' = (shown tty tc).paint g (shownColour tty tc' g) := by
  rw [shown, shown, Rendition.paint, h.attr]
  congr 1
  funext k
  by_cases hk : k = g
  · rw [hk, Function.update_self]
  · rw [Function.update_of_ne hk]
    exact shownColour_of_same (h.same k hk)

theorem shownColour_of_isDefault (h : g.isDefault tc = true) : shownColour tty tc g = none := by
  rw [Ground.isDefault, Bool.and_eq_true, decide_eq_true_eq, Bool.not_eq_true'] at h
  rw [shownColour, h.2, if_neg Bool.false_ne_true, if_pos h.1]

/-- A default colour is the same as another one. -/
theorem Ground.same_of_isDefault (h : g.isDefault gc = true) (h' : g.isDefault tc = true) : g.Same gc tc := by
  rw [Ground.isDefault, Bool.and_eq_true, decide_eq_true_eq, Bool.not_eq_true', Ground.is256, decide_eq_false_iff_not,
    not_not] at h h'
  exact ⟨h'.1.trans h.1.symm, h'.2.trans h.2.symm⟩

/-- Without the capability, and without more colours than the basic ones, every colour is shown as the default one. -/
theorem shownColour_basic (h : tty.has256 = false ∧ tty.has88 = false ∧ tty.term.colours < 16)
    (hcode : tty.has g.code = false) : shownColour tty gc g = none := by
  rw [shownColour, h.1, h.2.1, if_pos h.2.2, hcode]
  simp

/-! ## Steps -/

open Rendition

theorem ttyPutcode_leads {c : TtyCode} {R : Rendition} :
    Leads apply (· = R) (ttyPutcode tty c) fun _ r => r = if tty.has c then R.apply (.code c) else R := by
  rw [ttyPutcode]
  rintro r rfl
  split <;> rfl

/-- Nothing but the alternate character set needs a sequence of its own to be reset. -/
theorem shownAttr_smacs (attr : UInt8) :
    shownAttr tty attr .smacs = (tty.useAcs && (attr &&& gridAttrCharset ≠ 0 && tty.has .smacs)) := by
  rw [shownAttr, attributeCodes]
  cases tty.has .sitm <;> cases tty.has .rev <;> cases tty.useAcs <;> simp

theorem shown_default : shown tty gridDefaultCell = ⟨fun _ => false, fun _ => none⟩ := by
  rw [shown]
  congr 1
  · funext c
    rw [shownAttr, List.any_eq_false]
    intro entry _
    show ¬(decide (0 &&& entry.1 ≠ 0) && _ && _) = true
    simp
  · funext g
    exact shownColour_of_isDefault (by cases g <;> rfl)

/-- The terminal goes back from the alternate character set if it is on. -/
theorem rmacs_leads (h : tty.Resets) (tc : GridCell) :
    Leads apply (· = shown tty tc)
      (if tc.attr &&& gridAttrCharset ≠ 0 ∧ tty.useAcs then ttyPutcode tty .rmacs else pure ⟨⟩)
      fun _ r => r.on .smacs = false := by
  split
  · next hon =>
    refine ttyPutcode_leads.mono fun _ r hr => ?_
    rw [hr]
    cases hsmacs : tty.has .smacs with
    | true =>
      rw [if_pos (h.charset hon.2 hsmacs)]
      rfl
    | false =>
      have hoff : (shown tty tc).on .smacs = false := by
        show shownAttr tty tc.attr .smacs = false
        rw [shownAttr_smacs, hsmacs, Bool.and_false, Bool.and_false]
      split
      · rfl
      · exact hoff
  · next hoff =>
    refine .pure fun r hr => ?_
    rw [hr]
    show shownAttr tty tc.attr .smacs = false
    rw [shownAttr_smacs]
    cases hacs : tty.useAcs with
    | false => rfl
    | true =>
      have hattr : tc.attr &&& gridAttrCharset = 0 := not_not.1 fun hne => hoff ⟨hne, hacs⟩
      rw [hattr]
      rfl

theorem ttyReset_leads (h : tty.Resets) (tc : GridCell) :
    Leads apply (· = shown tty tc) (ttyReset tty tc) fun tc' r =>
      tc' = gridDefaultCell ∧ r = shown tty gridDefaultCell := by
  rw [ttyReset]
  split
  · next heq =>
    rw [heq]
    exact .pure fun r hr => ⟨rfl, hr⟩
  · refine (rmacs_leads h tc).bind fun _ => ?_
    rw [ttyPutcode, if_pos h.attributes]
    refine Leads.bind (.write fun r hr => ?_) fun _ => .pure fun r hr => ⟨rfl, hr⟩
    rw [shown_default, apply]
    congr 1
    funext d
    by_cases hd : d = .smacs
    · rw [hd, hr, Bool.and_false]
    · rw [decide_eq_false hd, Bool.false_and]

/-- The colour of a ground is changed, and shown as that. -/
def Changes (tty : TtyKind) (g : Ground) (tc : GridCell) (x : TtyWriter GridCell) (P : GridCell → Prop) : Prop :=
  Leads apply (· = shown tty tc) x fun tc' r => r = shown tty tc' ∧ g.Recoloured tc tc' ∧ P tc'

theorem ttyDefault_changes (hax : tty.has .ax = true) (g : Ground) (gc tc : GridCell) :
    Changes tty g tc (ttyDefault tty g gc tc) fun tc' =>
      (g.isDefault gc = true → g.isDefault tc' = true) ∧ (g.isDefault gc = false → tc' = tc) := by
  rw [Changes, ttyDefault]
  split
  · next hdefault =>
    rw [Bool.and_eq_true] at hdefault
    refine Leads.bind (.write fun r hr => ?_) fun _ => .pure fun r hr =>
      ⟨hr, g.recoloured_saveDefault tc, fun _ => g.isDefault_saveDefault tc, fun h => ?_⟩
    · rw [shown_recoloured (g.recoloured_saveDefault tc), shownColour_of_isDefault (g.isDefault_saveDefault tc), hr]
      cases g <;> rfl
    · exact absurd (h.symm.trans hdefault.1) Bool.false_ne_true
  · next hdefault =>
    refine .pure fun r hr => ⟨hr, .refl g tc, fun h => ?_, fun _ => rfl⟩
    rwa [h, Bool.true_and, Bool.not_eq_true', Bool.not_eq_false] at hdefault

/-- The colour of a cell that is set is shown. -/
theorem shown_save (g : Ground) (gc tc : GridCell) :
    shown tty (g.save (g.colour gc) gc tc) = (shown tty tc).paint g (shownColour tty gc g) := by
  rw [shown_recoloured (g.recoloured_save _ gc tc), shownColour_of_same (g.same_save gc tc)]

/-- A terminal that has the colour of a cell, or a sequence for it. -/
structure Paintable (tty : TtyKind) (g : Ground) (gc : GridCell) : Prop where
  extended : g.is256 gc = true → tty.has256 = true ∨ tty.has88 = true
  bright : g.is256 gc = false → isBright (g.colour gc) = true → 16 ≤ tty.term.colours

variable {R : Rendition}

theorem ttyTry_leads (hpaint : Paintable tty g gc) (h256 : g.is256 gc = true) :
    Leads apply (· = R) (ttyTry tty g (g.colour gc)) fun set r => set = true ∧ r = R.paint g (shownColour tty gc g) := by
  rw [ttyTry, shownColour, if_pos h256]
  cases hmany : tty.has256 with
  | true =>
    rw [if_pos rfl, if_pos rfl]
    refine Leads.bind (.write fun r hr => ?_) fun _ => .pure fun r hr => ⟨rfl, hr⟩
    rw [hr]
    cases g <;> rfl
  | false =>
    have hfew : tty.has88 = true := (hpaint.extended h256).resolve_left fun h => Bool.false_ne_true (hmany.symm.trans h)
    rw [if_neg Bool.false_ne_true, if_neg Bool.false_ne_true, if_pos hfew, if_pos hfew]
    refine Leads.bind (.write fun r hr => ?_) fun _ => .pure fun r hr => ⟨rfl, hr⟩
    rw [hr]
    cases g <;> rfl

/-- A basic colour is set, or all are shown as the default one. -/
theorem ttyPutcode1_leads (h : tty.Resets) (tc : GridCell) (h256 : g.is256 gc = false) (h8 : g.colour gc ≠ 8)
    (hbright : isBright (g.colour gc) = false) :
    Leads apply (· = shown tty tc) (ttyPutcode1 tty g.code (g.colour gc).toNat) fun _ r =>
      r = (shown tty tc).paint g (shownColour tty gc g) := by
  have hcolour : shownColour tty gc g = if tty.has g.code then some (g.colour gc).toNat else none := by
    rw [shownColour, h256, if_neg Bool.false_ne_true, if_neg h8, hbright, if_neg Bool.false_ne_true]
  rw [ttyPutcode1]
  split
  · next hcode =>
    rw [hcolour, if_pos hcode]
    refine .write fun r hr => ?_
    rw [hr]
    cases g <;> rfl
  · next hcode =>
    have hcode' : tty.has g.code = false := Bool.eq_false_iff.2 hcode
    have hnone : (shown tty tc).colour g = none :=
      shownColour_basic ((h.basic g).resolve_left hcode) hcode'
    refine .pure fun r hr => ?_
    rw [hr, hcolour, if_neg hcode, paint, ← hnone, Function.update_eq_self]

/-- What sets the colour of a cell, before that is saved, changes to it. -/
theorem save_changes {α : Type} {x : TtyWriter α} (hx : Leads apply (· = shown tty tc) x fun _ r =>
      r = (shown tty tc).paint g (shownColour tty gc g)) :
    Changes tty g tc (do let _ ← x; pure (g.save (g.colour gc) gc tc)) (g.Same gc) :=
  hx.bind fun _ => .pure fun _ hr => ⟨by rw [hr, shown_save], g.recoloured_save _ gc tc, g.same_save gc tc⟩

theorem not_isDefault (h256 : g.is256 gc = false) (hdefault : g.isDefault gc = false) : g.colour gc ≠ 8 := fun h8 => by
  rw [Ground.isDefault, h256, h8] at hdefault
  exact Bool.false_ne_true hdefault.symm

theorem ttyTry_changes (hpaint : Paintable tty g gc) (h256 : g.is256 gc = true) (tc : GridCell) :
    Changes tty g tc (do
      let set ← ttyTry tty g (g.colour gc)
      pure (if set then g.save (g.colour gc) gc tc else tc)) (g.Same gc) := by
  refine (ttyTry_leads hpaint h256).bind fun set => .pure fun r hr => ?_
  rw [hr.1, if_pos rfl]
  exact ⟨by rw [hr.2, shown_save], g.recoloured_save _ gc tc, g.same_save gc tc⟩

theorem isBright_iff {c : UInt8} : isBright c = true ↔ 90 ≤ c.toNat ∧ c.toNat ≤ 97 := by
  rw [isBright, Bool.and_eq_true, decide_eq_true_eq, decide_eq_true_eq, UInt8.le_iff_toNat_le, UInt8.le_iff_toNat_le]
  rfl

/-- The colours of a terminal that has them are set by the numbers they have for aixterm. -/
theorem bright_leads (hpaint : Paintable tty g gc) (h256 : g.is256 gc = false) (hbright : isBright (g.colour gc) = true) (n : ℕ)
    (hn : n = if g = .fg then (g.colour gc).toNat else (g.colour gc).toNat + 10) :
    Leads apply (· = R) (ttyPuts [n]) fun _ r => r = R.paint g (shownColour tty gc g) := by
  have hcolours : ¬tty.term.colours < 16 := Nat.not_lt.2 (hpaint.bright h256 hbright)
  obtain ⟨hle, hge⟩ := isBright_iff.1 hbright
  have h8 : g.colour gc ≠ 8 := fun h8 => by
    rw [h8] at hle
    exact absurd hle (by decide)
  have hcolour : shownColour tty gc g = some ((g.colour gc).toNat - 82) := by
    rw [shownColour, h256, if_neg Bool.false_ne_true, if_neg h8, if_pos hbright, if_neg hcolours]
  rw [hcolour]
  refine .write fun r hr => ?_
  rw [hr, apply]
  cases g with
  | fg =>
    rw [if_pos rfl] at hn
    rw [if_neg (by omega), if_neg (by omega), if_pos (by omega), hn]
  | bg =>
    rw [if_neg (by decide)] at hn
    rw [if_neg (by omega), if_neg (by omega), if_neg (by omega), if_pos (by omega), hn]
    rfl

theorem ttyColoursFg_changes (h : tty.Resets) (hpaint : Paintable tty .fg gc) (hdefault : Ground.fg.isDefault gc = false)
    (tc : GridCell) : Changes tty .fg tc (ttyColoursFg tty gc tc) (Ground.fg.Same gc) := by
  rw [ttyColoursFg]
  split
  · next h256 => exact ttyTry_changes hpaint h256 tc
  · next h256 =>
    rw [Bool.not_eq_true] at h256
    refine save_changes ?_
    split
    · next hbright => exact bright_leads hpaint h256 hbright _ rfl
    · next hbright => exact ttyPutcode1_leads h tc h256 (not_isDefault h256 hdefault) (Bool.eq_false_iff.2 hbright)

theorem ttyColoursBg_changes (h : tty.Resets) (hpaint : Paintable tty .bg gc) (hdefault : Ground.bg.isDefault gc = false)
    (tc : GridCell) : Changes tty .bg tc (ttyColoursBg tty gc tc) (Ground.bg.Same gc) := by
  rw [ttyColoursBg]
  split
  · next h256 => exact ttyTry_changes hpaint h256 tc
  · next h256 =>
    rw [Bool.not_eq_true] at h256
    split
    · next hbright => exact save_changes (bright_leads hpaint h256 hbright.1 _ rfl)
    · next hfew =>
      have hbright : isBright gc.bg = false := Bool.eq_false_iff.2 fun hb => hfew ⟨hb, hpaint.bright h256 hb⟩
      rw [hbright, if_neg Bool.false_ne_true]
      exact save_changes (ttyPutcode1_leads h tc h256 (not_isDefault h256 hdefault) hbright)

/-- A colour that is not to be set is that of the cell already, or is to be the default one. -/
theorem same_of_toSet (h : toSet g gc tc = false) (hdefault : g.isDefault gc = false) : g.Same gc tc := by
  rw [toSet, hdefault, Bool.not_false, Bool.true_and, Bool.or_eq_false_iff, decide_eq_false_iff_not, not_not,
    decide_eq_false_iff_not, not_not] at h
  exact ⟨h.1.symm, h.2.symm⟩

/-- The defaults are set, by a reset or one after the other. -/
theorem ttyDefaults_leads (h : tty.Resets) (gc tc : GridCell) :
    Leads apply (· = shown tty tc) (ttyDefaults tty gc tc) fun tc' r =>
      r = shown tty tc' ∧ (tc'.attr = tc.attr ∨ tc'.attr = 0) ∧
        ∀ g : Ground, g.isDefault gc = true → g.isDefault tc' = true := by
  rw [ttyDefaults]
  split
  · split
    · refine (ttyReset_leads h tc).mono fun tc' r hr => ⟨by rw [hr.1, hr.2], .inr (by rw [hr.1]; rfl), fun g _ => ?_⟩
      rw [hr.1]
      cases g <;> rfl
    · next hax =>
      have hax : tty.has .ax = true := by
        rcases h.default with hax' | hop
        · exact hax'
        · rw [hop, Bool.and_true, Bool.not_eq_true', Bool.not_eq_false] at hax
          exact hax
      refine Leads.bind (ttyDefault_changes hax .fg gc tc) fun tc₁ r hr => ?_
      obtain ⟨hr, hre, hdefault, -⟩ := hr
      obtain ⟨hr', hre', hdefault', -⟩ := ttyDefault_changes hax .bg gc tc₁ r hr
      refine ⟨hr', .inl (hre'.attr.trans hre.attr), fun g hg => ?_⟩
      cases g with
      | fg => rw [(hre'.same .fg (by decide)).isDefault, hdefault hg]
      | bg => exact hdefault' hg
  · next hnone =>
    rw [Bool.not_eq_true, Bool.or_eq_false_iff] at hnone
    refine .pure fun r hr => ⟨hr, .inl rfl, fun g hg => ?_⟩
    cases g with
    | fg => exact absurd (hnone.1.symm.trans hg) Bool.false_ne_true
    | bg => exact absurd (hnone.2.symm.trans hg) Bool.false_ne_true

/-- A colour is set, where it is not that of the cell yet. -/
theorem toSet_changes {x : TtyWriter GridCell}
    (hx : g.isDefault gc = false → Changes tty g tc x (g.Same gc))
    (hdefault : g.isDefault gc = true → g.isDefault tc = true) :
    Changes tty g tc (if toSet g gc tc then x else pure tc) (g.Same gc) := by
  cases hd : g.isDefault gc with
  | true =>
    have hkeep : toSet g gc tc = false := by rw [toSet, hd]; rfl
    rw [hkeep, if_neg Bool.false_ne_true]
    exact Leads.pure fun r hr => ⟨hr, .refl g tc, g.same_of_isDefault hd (hdefault hd)⟩
  | false =>
    cases hset : toSet g gc tc with
    | true =>
      rw [if_pos rfl]
      exact hx hd
    | false =>
      rw [if_neg Bool.false_ne_true]
      exact Leads.pure fun r hr => ⟨hr, .refl g tc, same_of_toSet hset hd⟩

theorem flags_xor {a b flag : UInt8} (h : (a ^^^ b) &&& flag = 0) : a &&& flag = b &&& flag := by
  have hxor : (a ^^^ b) &&& flag = (a &&& flag) ^^^ (b &&& flag) := by
    rw [← UInt8.toBitVec_inj]
    ext i
    simp [Bool.and_xor_distrib_right]
  rwa [hxor, UInt8.xor_eq_zero_iff] at h

/-- The colours become those of the cell, and the attributes stay as they are or are reset. -/
theorem ttyColours_leads (h : tty.Resets) (hpaint : ∀ g, Paintable tty g gc) (tc : GridCell) :
    Leads apply (· = shown tty tc) (ttyColours tty gc tc) fun tc' r =>
      r = shown tty tc' ∧ (tc'.attr = tc.attr ∨ tc'.attr = 0) ∧ ∀ g : Ground, g.Same gc tc' := by
  rw [ttyColours]
  split
  · next hsame =>
    obtain ⟨hfg, hbg, hflags⟩ := hsame
    rw [UInt8.and_comm, flags_or, UInt8.or_eq_zero_iff, UInt8.and_comm, UInt8.and_comm gridFlagBg256] at hflags
    have hflag : ∀ g : Ground, tc.flags &&& g.flag = gc.flags &&& g.flag := by
      intro g
      cases g with
      | fg => exact (flags_xor hflags.1).symm
      | bg => exact (flags_xor hflags.2).symm
    refine .pure fun r hr => ⟨hr, .inl rfl, fun g => ⟨?_, hflag g⟩⟩
    cases g with
    | fg => exact hfg.symm
    | bg => exact hbg.symm
  · refine Leads.bind (ttyDefaults_leads h gc tc) fun tc₁ r hr => ?_
    obtain ⟨hr, hattr, hdefault⟩ := hr
    rw [value_bind, after_bind]
    obtain ⟨hr₂, hre₂, hsame₂⟩ := toSet_changes (fun hd => ttyColoursFg_changes h (hpaint .fg) hd tc₁) (hdefault .fg) r hr
    have hdefault₂ := fun hd => ((hre₂.same .bg (by decide)).isDefault).trans (hdefault .bg hd)
    obtain ⟨hr₃, hre₃, hsame₃⟩ :=
      toSet_changes (fun hd => ttyColoursBg_changes h (hpaint .bg) hd _) hdefault₂ _ hr₂
    refine ⟨hr₃, ?_, fun g => ?_⟩
    · rwa [hre₃.attr, hre₂.attr]
    · cases g with
      | fg => exact hsame₂.trans (hre₃.same .fg (by decide))
      | bg => exact hsame₃

/-! ## Attributes -/

theorem apply_attribute {c : TtyCode} (h : c.isAttribute = true) (r : Rendition) :
    r.apply (.code c) = { r with on := fun d => r.on d || c = d } := by
  cases c <;> first | rfl | exact absurd h Bool.false_ne_true

theorem attributeCodes_isAttribute (tty : TtyKind) : ∀ entry ∈ attributeCodes tty, entry.2.isAttribute = true := by
  rw [attributeCodes]
  cases tty.has .sitm <;> cases tty.has .rev <;> cases tty.useAcs <;> decide

/-- The attributes of the capabilities that are written are on, besides those that are on already. -/
theorem putAttributes_leads (tty : TtyKind) (changed : UInt8) :
    Leads apply (· = R) (putAttributes tty changed) fun _ r =>
      r = { R with on := fun c => R.on c || shownAttr tty changed c } := by
  have hall := attributeCodes_isAttribute tty
  rw [putAttributes]
  unfold shownAttr
  generalize attributeCodes tty = codes at hall
  induction codes generalizing R with
  | nil =>
    refine Leads.pure fun r hr => ?_
    rw [hr]
    simp
  | cons entry codes ih =>
    have hentry : Leads apply (· = R) (if changed &&& entry.1 ≠ 0 then ttyPutcode tty entry.2 else pure ⟨⟩) fun _ r =>
        r = { R with on := fun c => R.on c || (changed &&& entry.1 ≠ 0 && tty.has entry.2 && entry.2 = c) } := by
      split
      · next hbit =>
        refine ttyPutcode_leads.mono fun _ r hr => ?_
        rw [hr, decide_eq_true hbit]
        cases tty.has entry.2 with
        | true =>
          rw [if_pos rfl, apply_attribute (hall entry List.mem_cons_self)]
          rfl
        | false => simp
      · next hbit =>
        refine .pure fun r hr => ?_
        rw [hr, decide_eq_false hbit]
        simp
    refine hentry.bind fun _ => ?_
    refine (ih fun entry' h => hall entry' (List.mem_cons_of_mem _ h)).mono fun _ r hr => ?_
    rw [hr]
    simp only [List.any_cons, Bool.or_assoc]

theorem and_of_and_not {a b : UInt8} (h : a &&& ~~~b = 0) : a &&& b = a := by
  have hall : (b ||| ~~~b) &&& a = a := by rw [UInt8.or_not_self, UInt8.neg_one_and]
  rwa [flags_or, UInt8.and_comm (~~~b), h, UInt8.or_zero, UInt8.and_comm] at hall

/-- Attributes that contain others are those and the rest. -/
theorem or_and_not {a b : UInt8} (h : a &&& ~~~b = 0) : a ||| (b &&& ~~~a) = b := by
  have hall : (a ||| ~~~a) &&& b = b := by rw [UInt8.or_not_self, UInt8.neg_one_and]
  rwa [flags_or, and_of_and_not h, UInt8.and_comm] at hall

/-- An attribute is shown if it is there already or is changed. -/
theorem shownAttr_or {a b : UInt8} (h : a &&& ~~~b = 0) (c : TtyCode) :
    (shownAttr tty a c || shownAttr tty (b &&& ~~~a) c) = shownAttr tty b c := by
  rw [Bool.eq_iff_iff, Bool.or_eq_true, shownAttr, shownAttr, shownAttr, List.any_eq_true, List.any_eq_true,
    List.any_eq_true, ← exists_or]
  refine exists_congr fun entry => ?_
  have hbit : b &&& entry.1 ≠ 0 ↔ a &&& entry.1 ≠ 0 ∨ b &&& ~~~a &&& entry.1 ≠ 0 := by
    conv_lhs => rw [← or_and_not h, flags_or, Ne, UInt8.or_eq_zero_iff, not_and_or]
  simp only [Bool.and_eq_true, decide_eq_true_eq, hbit]
  tauto

/-! ## Colours that the terminal has -/

theorem colour256to16_lt (c : UInt8) : colour256to16 c < 16 := by
  have hall : ∀ x ∈ colour256to16.table, x < 16 := by decide +kernel
  rw [colour256to16, List.getD_eq_getElem?_getD]
  cases hx : colour256to16.table[c.toNat]? with
  | none => decide
  | some x => exact hall x (List.mem_of_getElem? hx)

theorem isBright_of_lt {c : UInt8} (h : c < 16) : isBright c = false := by
  rw [UInt8.lt_iff_toNat_lt] at h
  exact Bool.eq_false_iff.2 fun hb => absurd (isBright_iff.1 hb).1 (Nat.not_le.2 (Nat.lt_trans h (by decide)))

theorem Paintable.of_same (h : g.Same gc tc) (hpaint : Paintable tty g gc) : Paintable tty g tc where
  extended h256 := hpaint.extended (h.is256 ▸ h256)
  bright h256 hbright := hpaint.bright (h.is256 ▸ h256) (h.colour ▸ hbright)

theorem Paintable.basic (h256 : g.is256 gc = false) (hbright : isBright (g.colour gc) = false) : Paintable tty g gc where
  extended h := absurd (h256.symm.trans h) Bool.false_ne_true
  bright _ h := absurd (hbright.symm.trans h) Bool.false_ne_true

/-- A colour is one of the basic ones without its bright bit. -/
theorem isBright_and_seven (c : UInt8) : isBright (c &&& 7) = false := by
  refine isBright_of_lt ?_
  rw [UInt8.lt_iff_toNat_lt, UInt8.toNat_and]
  exact Nat.lt_of_le_of_lt Nat.and_le_right (by decide)

theorem isBright_sub {c : UInt8} (h : isBright c = true) : isBright (c - 90) = false := by
  obtain ⟨hle, hge⟩ := isBright_iff.1 h
  have hsub : (90 : UInt8) ≤ c := UInt8.le_iff_toNat_le.2 hle
  refine isBright_of_lt ?_
  rw [UInt8.lt_iff_toNat_lt, UInt8.toNat_sub_of_le _ _ hsub]
  show c.toNat - 90 < 16
  omega

/-- A colour that is not one of 256 and is not bright where there are too few colours fits. -/
theorem Paintable.of_few (h256 : g.is256 gc = false) (hfew : ¬(isBright (g.colour gc) = true ∧ tty.term.colours < 16)) :
    Paintable tty g gc where
  extended h := absurd (h256.symm.trans h) Bool.false_ne_true
  bright _ h := Nat.not_lt.1 fun hlt => hfew ⟨h, hlt⟩

/-- A terminal that does not have too few colours for a cell fits. -/
theorem Paintable.of_many (h256 : g.is256 gc = true) (hmany : ¬(!tty.has88 && !tty.has256) = true) : Paintable tty g gc where
  extended _ := by
    rw [Bool.and_eq_true, not_and_or, Bool.not_eq_true', Bool.not_eq_true', Bool.not_eq_false, Bool.not_eq_false] at hmany
    exact hmany.symm
  bright h := absurd (h.symm.trans h256) Bool.false_ne_true

theorem ttyCheckFg_paintable (tty : TtyKind) (gc : GridCell) : Paintable tty .fg (ttyCheckFg tty gc) := by
  rw [ttyCheckFg]
  split
  · next h256 =>
    split
    · have hclear : gc.flags &&& ~~~gridFlagFg256 &&& gridFlagFg256 = 0 := by
        rw [UInt8.and_assoc, UInt8.not_and_self, UInt8.and_zero]
      dsimp only
      split
      · exact .basic (decide_eq_false (not_not.2 hclear)) (isBright_and_seven _)
      · exact .basic (decide_eq_false (not_not.2 hclear)) (isBright_of_lt (colour256to16_lt _))
    · next hmany => exact .of_many h256 hmany
  · next h256 =>
    have h256 : Ground.fg.is256 gc = false := Bool.eq_false_iff.2 h256
    split
    · next hbright => exact .basic h256 (isBright_sub hbright.1)
    · next hfew => exact .of_few h256 hfew

theorem ttyCheckBg_paintable (tty : TtyKind) (gc : GridCell) : Paintable tty .bg (ttyCheckBg tty gc) := by
  rw [ttyCheckBg]
  split
  · next h256 =>
    split
    · have hclear : gc.flags &&& ~~~gridFlagBg256 &&& gridFlagBg256 = 0 := by
        rw [UInt8.and_assoc, UInt8.not_and_self, UInt8.and_zero]
      refine .basic (decide_eq_false (not_not.2 hclear)) ?_
      show isBright (if colour256to16 gc.bg &&& 8 ≠ 0 then colour256to16 gc.bg &&& 7 else colour256to16 gc.bg) = false
      split
      · exact isBright_and_seven _
      · exact isBright_of_lt (colour256to16_lt _)
    · next hmany => exact .of_many h256 hmany
  · next h256 =>
    have h256 : Ground.bg.is256 gc = false := Bool.eq_false_iff.2 h256
    split
    · next hbright => exact .basic h256 (isBright_sub hbright.1)
    · next hfew => exact .of_few h256 hfew

theorem ttyCheckBg_same (tty : TtyKind) (gc : GridCell) : Ground.fg.Same gc (ttyCheckBg tty gc) := by
  rw [ttyCheckBg]
  split
  · split
    · exact ⟨rfl, flags_clear (Ground.flag_and_of_ne (show Ground.fg ≠ .bg by decide)) gc.flags⟩
    · exact .refl _ gc
  · split
    · exact ⟨rfl, rfl⟩
    · exact .refl _ gc

theorem fixCell_paintable (tty : TtyKind) (gc : GridCell) : ∀ g, Paintable tty g (fixCell tty gc)
  | .fg => (ttyCheckFg_paintable tty _).of_same (ttyCheckBg_same tty _)
  | .bg => ttyCheckBg_paintable tty _

/-! ## By difference or after a reset -/

theorem shown_congr (hattr : tc.attr = gc.attr) (hsame : ∀ g : Ground, g.Same gc tc) : shown tty tc = shown tty gc := by
  rw [shown, shown, hattr]
  congr 1
  funext g
  exact shownColour_of_same (hsame g)

/-- Changing attributes and colours shows the cell, as far as the terminal can, whatever is shown before. -/
theorem ttyAttributes_leads (h : tty.Resets) (gc tc : GridCell) :
    Leads apply (· = shown tty tc) (ttyAttributes tty gc tc) fun tc' r =>
      r = shown tty tc' ∧ r = shown tty (fixCell tty gc) := by
  rw [ttyAttributes]
  have hclear : Leads apply (· = shown tty tc)
      (if tc.attr &&& ~~~(fixCell tty gc).attr ≠ 0 then ttyReset tty tc else pure tc) fun tc' r =>
        r = shown tty tc' ∧ tc'.attr &&& ~~~(fixCell tty gc).attr = 0 := by
    split
    · refine (ttyReset_leads h tc).mono fun tc' r hr => ⟨by rw [hr.1, hr.2], ?_⟩
      rw [hr.1]
      exact UInt8.zero_and
    · next hkept => exact .pure fun r hr => ⟨hr, not_not.1 hkept⟩
  refine hclear.bind fun tc₁ r hr => ?_
  obtain ⟨hr, hsub⟩ := hr
  obtain ⟨hr₂, hattr, hsame⟩ := ttyColours_leads h (fixCell_paintable tty gc) tc₁ r hr
  rw [value_bind, after_bind]
  generalize value (ttyColours tty (fixCell tty gc) tc₁) = tc₂ at hr₂ hattr hsame
  have hsub₂ : tc₂.attr &&& ~~~(fixCell tty gc).attr = 0 := by
    rcases hattr with hattr | hattr
    · rw [hattr, hsub]
    · rw [hattr, UInt8.zero_and]
  have hput := putAttributes_leads tty ((fixCell tty gc).attr &&& ~~~tc₂.attr) _ hr₂
  have hkeep : ∀ g : Ground, g.Same tc₂ { tc₂ with attr := (fixCell tty gc).attr } :=
    fun g => ⟨by cases g <;> rfl, rfl⟩
  have hshown : shown tty { tc₂ with attr := (fixCell tty gc).attr } = shown tty (fixCell tty gc) :=
    shown_congr rfl fun g => (hsame g).trans (hkeep g)
  have hon : after apply (putAttributes tty ((fixCell tty gc).attr &&& ~~~tc₂.attr))
      (after apply (ttyColours tty (fixCell tty gc) tc₁) r) = shown tty { tc₂ with attr := (fixCell tty gc).attr } := by
    rw [hput, shown, shown]
    congr 1
    · funext c
      exact shownAttr_or hsub₂ c
    · funext g
      exact (shownColour_of_same (hkeep g)).symm
  rw [value_bind, after_bind, after_pure, value_pure]
  exact ⟨hon, hon.trans hshown⟩

/-- Where a terminal shows the tracked cell, as far as it can, changing the attributes and colours to those of a
    cell makes it show the cell that is then tracked, and leads to the same as resetting them before. -/
theorem ttyAttributes_eq_reset (h : tty.Resets) (gc tc : GridCell) (r : Rendition) (hr : r = shown tty tc) :
    after apply (ttyAttributes tty gc tc) r = shown tty (value (ttyAttributes tty gc tc)) ∧
    after apply (ttyAttributes tty gc tc) r =
      after apply (do let tc ← ttyReset tty tc; ttyAttributes tty gc tc) r := by
  obtain ⟨hshown, hfixed⟩ := ttyAttributes_leads h gc tc r hr
  refine ⟨hshown, hfixed.trans ?_⟩
  obtain ⟨hreset, hr'⟩ := ttyReset_leads h tc r hr
  rw [after_bind, hreset]
  exact (ttyAttributes_leads h gc gridDefaultCell _ hr').2.symm

/-- A terminal of 256 colours with all capabilities: from bright on colour 5 of the palette to red on the default
    background, which resets it. -/
theorem ttyAttributes_eq_reset_red :
    let tty : TtyKind := { term := { has := fun _ => true, colours := 256, flags := { colours256 := true } } }
    let tc : GridCell := { attr := gridAttrBright, fg := 5, flags := gridFlagFg256 }
    after apply (ttyAttributes tty { fg := 1 } tc) (shown tty tc) =
      after apply (do let tc ← ttyReset tty tc; ttyAttributes tty { fg := 1 } tc) (shown tty tc) :=
  (ttyAttributes_eq_reset
    { default := .inl rfl, attributes := rfl, charset := fun _ _ => rfl, basic := fun g => .inl (by cases g <;> rfl) }
    { fg := 1 } { attr := gridAttrBright, fg := 5, flags := gridFlagFg256 } _ rfl).2

/-- Without the capability for dim, a dim cell is tracked and not shown. And with 256 colours but without the
    capability for the basic ones, one of the former stays where one of the latter is to be set, unless it is
    reset. -/
theorem ttyAttributes_missing :
    (let tty : TtyKind := { term := { has := fun c => c ≠ .dim } }
    let x := ttyAttributes tty { attr := gridAttrDim } gridDefaultCell
    (value x).attr = gridAttrDim ∧ (after apply x (shown tty gridDefaultCell)).on .dim = false) ∧
    (let tty : TtyKind := { term := { has := fun c => c ≠ .setaf, flags := { colours256 := true } } }
    let tc : GridCell := { fg := 5, flags := gridFlagFg256 }
    (after apply (ttyAttributes tty { fg := 3 } tc) (shown tty tc)).colour .fg = some 5 ∧
      (after apply (do let tc ← ttyReset tty tc; ttyAttributes tty { fg := 3 } tc) (shown tty tc)).colour .fg = none) := by
  decide +kernel

end Tmux
