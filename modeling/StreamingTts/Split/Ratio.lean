import Mathlib.Order.Lattice
import Mathlib.Algebra.Order.Field.Basic
import Mathlib.Algebra.Order.Field.Rat
import Mathlib.Data.Rat.Floor
import StreamingTts.Split.Driver

/-!
# Ratios and thresholds

`SplitRatioController` of `engine/frontend/spliter/ratio.py` and `compute_thresholds` of
`engine/frontend/spliter/driver.py`. Both compute with floating-point numbers; `RatioArith` is the
arithmetic they use, and `LawfulRatioArith` the two facts about it that the splitter rests on: a
quotient that is at least one stays so when the divisor shrinks, and a number between two finite ones
is finite. A value of `F` that is not `finite` stands for an infinity or a NaN argument.
-/

namespace StreamingTts.Split

/-- The arithmetic of the ratios. -/
class RatioArith (F : Type) extends LinearOrder F, Zero F, One F, Add F, Sub F, Mul F, Div F where
  /-- `float(i)` -/
  ofInt : Int → F
  /-- `i / j` of two integers -/
  trueDiv : Int → Int → F
  /-- `math.floor` -/
  floor : F → Int
  /-- `math.ceil` -/
  ceil : F → Int
  /-- `math.isfinite` -/
  finite : F → Bool

/-- What the splitter relies on in that arithmetic. -/
class LawfulRatioArith (F : Type) [RatioArith F] : Prop where
  floor_div : ∀ (k : Int) (r r' : F), 1 ≤ r → r ≤ r' →
    1 ≤ RatioArith.floor (RatioArith.ofInt k / r') → 1 ≤ RatioArith.floor (RatioArith.ofInt k / r)
  finite_between : ∀ a b x : F, RatioArith.finite a = true → RatioArith.finite b = true →
    a ≤ x → x ≤ b → RatioArith.finite x = true

/-- Exact arithmetic. -/
instance : RatioArith Rat where
  ofInt i := i
  trueDiv i j := i / j
  floor q := q.floor
  ceil q := q.ceil
  finite _ := true

instance : LawfulRatioArith Rat where
  floor_div := by
    intro k r r' hr hle h
    have hr₀ : (0 : Rat) < r := lt_of_lt_of_le one_pos hr
    have hr₀' : (0 : Rat) < r' := lt_of_lt_of_le hr₀ hle
    have h' : ((1 : Int) : Rat) ≤ (k : Rat) / r' := Rat.le_floor_iff.1 h
    refine Rat.le_floor_iff.2 ?_
    have hk : r' ≤ (k : Rat) := by
      rw [Int.cast_one, one_le_div hr₀'] at h'
      exact h'
    show ((1 : Int) : Rat) ≤ (k : Rat) / r
    rw [Int.cast_one, one_le_div hr₀]
    exact hle.trans hk
  finite_between := by
    intro a b x _ _ _ _
    rfl

/-! ## The ratio controller -/

/-- `RatioOutcome`. -/
inductive RatioOutcome
  | codecEos
  | kvOverflow
  | loopAbort
  | lengthAbort
  | ignoredFailure
  deriving DecidableEq, Repr

/-- `RatioObservation`. -/
structure RatioObservation (F : Type) where
  outcome : RatioOutcome
  observedRatio : F
  durationBefore : F
  durationAfter : F
  safetyBefore : F
  safetyAfter : F
  durationSampleAccepted : Bool
  safetyTightened : Bool
  textTokens : Int
  audioSteps : Int

/-- The arguments of the controller. -/
structure RatioSettings (F : Type) where
  durationInitial : F
  safetyInitial : F
  durationAlpha : F
  failureAlpha : F
  minRatio : F
  maxRatio : F
  minDurationTokens : Int
  failureMultiplier : F

/-- `SplitRatioController`. -/
structure SplitRatioController (F : Type) where
  settings : RatioSettings F
  durationRatio : F
  safetyRatio : F

namespace SplitRatioController
section
variable {F : Type} [RatioArith F]

open RatioArith

/-- `_clamp_static`. -/
def clampStatic (value lower upper : F) : F := max lower (min upper value)

/-- `_clamp`. -/
def clamp (c : SplitRatioController F) (value : F) : F :=
  clampStatic value c.settings.minRatio c.settings.maxRatio

/-- The checks of `__init__`, in their order. -/
def checkSettings (a : RatioSettings F) : Except String Unit :=
  if !([a.durationInitial, a.safetyInitial, a.durationAlpha, a.failureAlpha, a.minRatio, a.maxRatio,
      a.failureMultiplier].all finite) then
    .error "ratio controller values must be finite"
  else if a.minRatio < 1 ∨ a.maxRatio < a.minRatio then
    .error "ratio bounds must satisfy 1 <= min_ratio <= max_ratio"
  else if ¬ (0 ≤ a.durationAlpha ∧ a.durationAlpha ≤ 1) then
    .error "duration_alpha must be between 0 and 1"
  else if ¬ (0 ≤ a.failureAlpha ∧ a.failureAlpha ≤ 1) then
    .error "failure_alpha must be between 0 and 1"
  else if a.minDurationTokens < 1 then .error "min_duration_tokens must be positive"
  else if a.failureMultiplier < 1 then .error "failure_multiplier must be at least 1"
  else if a.maxRatio < a.durationInitial then .error "duration_initial must not exceed max_ratio"
  else if a.maxRatio < a.safetyInitial then .error "safety_initial must not exceed max_ratio"
  else .ok ()

/-- The two ratios a controller starts with and `reset` restores. -/
def start (a : RatioSettings F) : SplitRatioController F :=
  let durationInitial := clampStatic a.durationInitial a.minRatio a.maxRatio
  { settings := a
    durationRatio := durationInitial
    safetyRatio := clampStatic (max a.safetyInitial durationInitial) a.minRatio a.maxRatio }

/-- `__init__`. -/
def new (a : RatioSettings F) : Except String (SplitRatioController F) :=
  match checkSettings a with
  | .error e => .error e
  | .ok () => .ok (start a)

/-- `set_duration_ratio`. -/
def setDurationRatio (c : SplitRatioController F) (ratio : F) :
    Except String (SplitRatioController F) :=
  if !finite ratio ∨ ratio ≤ 0 then .error "duration ratio must be finite and positive"
  else
    .ok { c with durationRatio := c.clamp ratio, safetyRatio := max c.safetyRatio (c.clamp ratio) }

/-- The controller after a natural end of a segment. -/
def observeNatural (c : SplitRatioController F) (observed : F) : SplitRatioController F :=
  { c with
    durationRatio := c.clamp
      ((1 - c.settings.durationAlpha) * c.durationRatio + c.settings.durationAlpha * observed)
    safetyRatio := max c.safetyRatio (c.clamp observed) }

/-- The controller after a failure, whose ratio is at least `lowerBound`. -/
def observeFailure (c : SplitRatioController F) (lowerBound : F) (segmentSafetyRatio : Option F) :
    SplitRatioController F :=
  let given := segmentSafetyRatio.getD c.safetyRatio
  let base := if !finite given ∨ given ≤ 0 then c.safetyRatio else given
  let target := max (base * c.settings.failureMultiplier) lowerBound
  let backedOff := (1 - c.settings.failureAlpha) * base + c.settings.failureAlpha * target
  { c with safetyRatio := max (max c.safetyRatio (c.clamp lowerBound)) (c.clamp backedOff) }

/-- The controller after one outcome, and whether the duration sample was accepted. -/
def observed (c : SplitRatioController F) (steps tokens : Int) (outcome : RatioOutcome)
    (segmentSafetyRatio : Option F) : SplitRatioController F × Bool :=
  let ratio := if 0 < steps ∧ 0 < tokens then trueDiv steps tokens else 0
  match outcome with
  | .codecEos =>
      if 0 < steps ∧ c.settings.minDurationTokens ≤ tokens then (c.observeNatural ratio, true)
      else (c, false)
  | .kvOverflow => (c.observeFailure ratio segmentSafetyRatio, false)
  | .loopAbort => (c.observeFailure 0 segmentSafetyRatio, false)
  | .lengthAbort => (c.observeFailure 0 segmentSafetyRatio, false)
  | .ignoredFailure => (c, false)

/-- `observe`. -/
def observe (c : SplitRatioController F) (audioSteps textTokens : Int) (outcome : RatioOutcome)
    (segmentSafetyRatio : Option F) : RatioObservation F × SplitRatioController F :=
  let steps := max 0 audioSteps
  let tokens := max 0 textTokens
  let after := c.observed steps tokens outcome segmentSafetyRatio
  ({ outcome := outcome
     observedRatio := if 0 < steps ∧ 0 < tokens then trueDiv steps tokens else 0
     durationBefore := c.durationRatio
     durationAfter := after.1.durationRatio
     safetyBefore := c.safetyRatio
     safetyAfter := after.1.safetyRatio
     durationSampleAccepted := after.2
     safetyTightened := decide (c.safetyRatio < after.1.safetyRatio)
     textTokens := tokens
     audioSteps := steps }, after.1)

/-! ### The safety ratio stays in its bounds -/

/-- The safety ratio is between the two bounds of the settings, which were checked. -/
structure InBounds (c : SplitRatioController F) : Prop where
  checked : checkSettings c.settings = .ok ()
  lower : c.settings.minRatio ≤ c.safetyRatio
  upper : c.safetyRatio ≤ c.settings.maxRatio

/-- What the checks of the settings leave. -/
theorem checkSettings_ok {a : RatioSettings F} (h : checkSettings a = .ok ()) :
    1 ≤ a.minRatio ∧ a.minRatio ≤ a.maxRatio ∧ finite a.minRatio = true ∧
      finite a.maxRatio = true := by
  unfold checkSettings at h
  split at h
  · cases h
  · next hfinite =>
    split at h
    · cases h
    · next hbounds =>
      simp only [List.all_cons, List.all_nil, Bool.and_true, Bool.not_eq_true', Bool.not_eq_false,
        Bool.and_eq_true] at hfinite
      rw [not_or, not_lt, not_lt] at hbounds
      exact ⟨hbounds.1, hbounds.2, hfinite.2.2.2.2.1, hfinite.2.2.2.2.2.1⟩

theorem clampStatic_mem (value : F) {lower upper : F} (h : lower ≤ upper) :
    lower ≤ clampStatic value lower upper ∧ clampStatic value lower upper ≤ upper :=
  ⟨le_max_left _ _, max_le h (min_le_left _ _)⟩

theorem InBounds.bounds {c : SplitRatioController F} (h : c.InBounds) :
    c.settings.minRatio ≤ c.settings.maxRatio := (checkSettings_ok h.checked).2.1

/-- A controller starts in its bounds. -/
theorem inBounds_start {a : RatioSettings F} (h : checkSettings a = .ok ()) : (start a).InBounds := by
  have hmem := clampStatic_mem
    (max a.safetyInitial (clampStatic a.durationInitial a.minRatio a.maxRatio))
    (checkSettings_ok h).2.1
  exact ⟨h, hmem.1, hmem.2⟩

/-- Raising the safety ratio to a clamped value keeps it in its bounds. -/
theorem InBounds.raise {c c' : SplitRatioController F} (h : c.InBounds) {value : F}
    (hsettings : c'.settings = c.settings)
    (hsafety : c'.safetyRatio = max c.safetyRatio (c.clamp value)) : c'.InBounds := by
  have hmem := clampStatic_mem value h.bounds
  refine ⟨by rw [hsettings]; exact h.checked, ?_, ?_⟩
  · rw [hsettings, hsafety]
    exact h.lower.trans (le_max_left _ _)
  · rw [hsettings, hsafety]
    exact max_le h.upper hmem.2

/-- What `set_duration_ratio` accepts. -/
theorem setDurationRatio_cases (c : SplitRatioController F) (ratio : F) :
    ((finite ratio = false ∨ ratio ≤ 0) ∧ ∃ e, c.setDurationRatio ratio = .error e) ∨
      ∃ c', c.setDurationRatio ratio = .ok c' ∧ c'.settings = c.settings := by
  unfold SplitRatioController.setDurationRatio
  split
  · next hbad =>
    rw [Bool.not_eq_true'] at hbad
    exact .inl ⟨hbad, _, rfl⟩
  · exact .inr ⟨_, rfl, rfl⟩

theorem InBounds.setDurationRatio {c c' : SplitRatioController F} (h : c.InBounds) {ratio : F}
    (hset : c.setDurationRatio ratio = .ok c') : c'.InBounds := by
  unfold SplitRatioController.setDurationRatio at hset
  split at hset
  · cases hset
  · cases hset
    exact h.raise rfl rfl

theorem InBounds.observeFailure {c : SplitRatioController F} (h : c.InBounds) (lowerBound : F)
    (segmentSafetyRatio : Option F) : (c.observeFailure lowerBound segmentSafetyRatio).InBounds := by
  have hraised : InBounds { c with safetyRatio := max c.safetyRatio (c.clamp lowerBound) } :=
    h.raise rfl rfl
  exact hraised.raise rfl rfl

/-- Observations leave the settings as they are. -/
theorem observe_settings (c : SplitRatioController F) (audioSteps textTokens : Int)
    (outcome : RatioOutcome) (segmentSafetyRatio : Option F) :
    (c.observe audioSteps textTokens outcome segmentSafetyRatio).2.settings = c.settings := by
  unfold SplitRatioController.observe observed
  cases outcome with
  | codecEos =>
      dsimp only
      split <;> rfl
  | kvOverflow => rfl
  | loopAbort => rfl
  | lengthAbort => rfl
  | ignoredFailure => rfl

theorem InBounds.observe {c : SplitRatioController F} (h : c.InBounds) (audioSteps textTokens : Int)
    (outcome : RatioOutcome) (segmentSafetyRatio : Option F) :
    (c.observe audioSteps textTokens outcome segmentSafetyRatio).2.InBounds := by
  unfold SplitRatioController.observe observed
  cases outcome with
  | codecEos =>
      dsimp only
      split
      · exact h.raise rfl rfl
      · exact h
  | kvOverflow => exact h.observeFailure _ _
  | loopAbort => exact h.observeFailure _ _
  | lengthAbort => exact h.observeFailure _ _
  | ignoredFailure => exact h

end
end SplitRatioController

/-! ## Thresholds -/

section
variable {F : Type} [RatioArith F]

open RatioArith

/-- The configured capacity ratios of the three punctuation tiers. -/
structure TierRatios (F : Type) where
  l1 : F
  l2 : F
  l3 : F

/-- `compute_thresholds`. -/
def computeThresholds (remainingKv : Int) (emaRatio : F) (safetyMargin : Int) (t : TierRatios F) :
    Except String SplitThresholds :=
  if !([t.l1, t.l2, t.l3].all finite) then .error "split capacity ratios must be finite"
  else if ¬ (0 < t.l1 ∧ t.l1 ≤ t.l2 ∧ t.l2 ≤ t.l3 ∧ t.l3 ≤ 1) then
    .error "split capacity ratios must satisfy 0 < L1 <= L2 <= L3 <= 1"
  else if safetyMargin < 0 then .error "safety_margin must be nonnegative"
  else if !finite emaRatio ∨ emaRatio < 1 then .error "ema_ratio must be finite and at least 1.0"
  else
    let usableKv := remainingKv - safetyMargin
    let cap := floor (ofInt usableKv / emaRatio)
    if cap < 1 then
      .error ("remaining KV budget cannot accommodate one predicted text token "
        ++ "after the safety margin")
    else
      .ok
        { minTokensL1 := ceil (ofInt cap * t.l1)
          minTokensL2 := ceil (ofInt cap * t.l2)
          minTokensL3 := ceil (ofInt cap * t.l3)
          forceSplitAt := cap }

variable {remainingKv safetyMargin : Int} {t : TierRatios F} {th : SplitThresholds} {r r' : F}

/-- A segment has room for a token. -/
theorem computeThresholds_pos (h : computeThresholds remainingKv r safetyMargin t = .ok th) :
    1 ≤ th.forceSplitAt := by
  unfold computeThresholds at h
  split at h
  · cases h
  · split at h
    · cases h
    · split at h
      · cases h
      · split at h
        · cases h
        · simp only at h
          split at h
          · cases h
          · next hcap =>
            cases h
            exact not_lt.1 hcap

/-- A budget that admits a token at some ratio admits one at every smaller ratio. -/
theorem computeThresholds_anti [LawfulRatioArith F]
    (h : computeThresholds remainingKv r' safetyMargin t = .ok th) (hr : 1 ≤ r) (hle : r ≤ r')
    (hfinite : finite r = true) : ∃ th', computeThresholds remainingKv r safetyMargin t = .ok th' := by
  unfold computeThresholds at h ⊢
  split at h
  · cases h
  · next hall =>
    split at h
    · cases h
    · next htiers =>
      split at h
      · cases h
      · next hmargin =>
        split at h
        · cases h
        · simp only at h
          split at h
          · cases h
          · next hcap =>
            have hpos := LawfulRatioArith.floor_div (remainingKv - safetyMargin) r r' hr hle
              (not_lt.1 hcap)
            rw [if_neg hall, if_neg htiers, if_neg hmargin,
              if_neg (by simp [hfinite, not_lt.2 hr])]
            simp only
            rw [if_neg (not_lt.2 hpos)]
            exact ⟨_, rfl⟩

end

end StreamingTts.Split
