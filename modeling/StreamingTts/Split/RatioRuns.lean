import Mathlib.Data.List.Perm.Basic
import Mathlib.Algebra.Order.Ring.Rat
import StreamingTts.Split.Ratio

/-!
# Runs of the ratio controller

The two ratios of a `SplitRatioController` over any sequence of `observe` and `set_duration_ratio`
calls, in exact arithmetic. The duration ratio is a smoothed mean and the safety ratio a maximum of
what the observations prove, so the first never passes the second (`Sound`). A failure backs off from
the safety ratio its segment was planned under; with that snapshot given, what an observation proves
does not depend on the state it meets (`evidence`), and a maximum forgets the order of its terms.
-/

namespace StreamingTts.Split
namespace SplitRatioController

/-! ## Calls -/

/-- A call of the controller. -/
inductive Call (F : Type)
  | observe (audioSteps textTokens : Int) (outcome : RatioOutcome) (segmentSafetyRatio : Option F)
  | setDurationRatio (ratio : F)

section
variable {F : Type} [RatioArith F]

/-- The controller after a call; a refused ratio raises and leaves it as it is. -/
def call (c : SplitRatioController F) : Call F → SplitRatioController F
  | .observe audioSteps textTokens outcome segmentSafetyRatio =>
      (c.observe audioSteps textTokens outcome segmentSafetyRatio).2
  | .setDurationRatio ratio =>
      match c.setDurationRatio ratio with
      | .ok c' => c'
      | .error _ => c

/-- A ratio is refused, or it becomes the duration ratio and the safety ratio makes room for it. -/
theorem call_setDurationRatio (c : SplitRatioController F) (ratio : F) :
    c.call (.setDurationRatio ratio) = c ∨
      c.call (.setDurationRatio ratio) =
        { c with durationRatio := c.clamp ratio
                 safetyRatio := max c.safetyRatio (c.clamp ratio) } := by
  unfold call SplitRatioController.setDurationRatio
  dsimp only
  by_cases hbad : (!RatioArith.finite ratio) = true ∨ ratio ≤ 0
  · rw [if_pos hbad]
    exact .inl rfl
  · rw [if_neg hbad]
    exact .inr rfl

/-- The controller after a sequence of calls. -/
def calls (c : SplitRatioController F) (cs : List (Call F)) : SplitRatioController F :=
  cs.foldl call c

/-- The outcome of a segment, with the safety ratio that was frozen when the segment opened. -/
structure SegmentOutcome (F : Type) where
  audioSteps : Int
  textTokens : Int
  outcome : RatioOutcome
  safetySnapshot : F

/-- The observation of a segment's outcome. -/
def SegmentOutcome.call (o : SegmentOutcome F) : Call F :=
  .observe o.audioSteps o.textTokens o.outcome (some o.safetySnapshot)

end

/-! ## Clamping -/

section
variable {F : Type} [RatioArith F] {lower upper v w : F}

theorem clampStatic_mono (h : v ≤ w) : clampStatic v lower upper ≤ clampStatic w lower upper :=
  max_le_max_left _ (min_le_min_left _ h)

/-- A value in the bounds is its own clamp. -/
theorem clampStatic_of_mem (hlower : lower ≤ v) (hupper : v ≤ upper) :
    clampStatic v lower upper = v := by
  unfold clampStatic
  rw [min_eq_right hupper, max_eq_right hlower]

theorem clampStatic_max (v w : F) :
    clampStatic (max v w) lower upper = max (clampStatic v lower upper) (clampStatic w lower upper) := by
  unfold clampStatic
  rw [min_max_distrib_left]
  exact sup_sup_distrib_left _ _ _

end

/-! ## The ratios stay in order -/

/-- The safety ratio is in its bounds, and the duration ratio between the lower bound and it. -/
structure Sound (c : SplitRatioController Rat) : Prop where
  inBounds : c.InBounds
  lower : c.settings.minRatio ≤ c.durationRatio
  ordered : c.durationRatio ≤ c.safetyRatio

/-- A mean is at most the larger of the two. -/
theorem mean_le_max {alpha d x : Rat} (h₀ : 0 ≤ alpha) (h₁ : alpha ≤ 1) :
    (1 - alpha) * d + alpha * x ≤ max d x := by
  have hd : (1 - alpha) * d ≤ (1 - alpha) * max d x :=
    mul_le_mul_of_nonneg_left (le_max_left d x) (sub_nonneg.2 h₁)
  have hx : alpha * x ≤ alpha * max d x := mul_le_mul_of_nonneg_left (le_max_right d x) h₀
  calc (1 - alpha) * d + alpha * x
      ≤ (1 - alpha) * max d x + alpha * max d x := add_le_add hd hx
    _ = max d x := by ring

/-- What the checks of the settings say of the smoothing factor. -/
theorem durationAlpha_mem {a : RatioSettings Rat} (h : checkSettings a = .ok ()) :
    0 ≤ a.durationAlpha ∧ a.durationAlpha ≤ 1 := by
  unfold checkSettings at h
  split at h
  · cases h
  · split at h
    · cases h
    · split at h
      · cases h
      · next halpha => exact not_not.1 halpha

/-- A controller starts with its ratios in order. -/
theorem sound_start {a : RatioSettings Rat} (h : checkSettings a = .ok ()) : (start a).Sound := by
  have hbounds := (checkSettings_ok h).2.1
  have hduration := clampStatic_mem a.durationInitial hbounds
  refine ⟨inBounds_start h, hduration.1, ?_⟩
  calc (start a).durationRatio
      = clampStatic (start a).durationRatio a.minRatio a.maxRatio :=
        (clampStatic_of_mem hduration.1 hduration.2).symm
    _ ≤ (start a).safetyRatio := clampStatic_mono (le_max_right _ _)

/-- The mean of a natural end is covered by the safety ratio that takes the observation in. -/
theorem Sound.observeNatural {c : SplitRatioController Rat} (h : c.Sound) (observed : Rat) :
    (c.observeNatural observed).Sound := by
  obtain ⟨h₀, h₁⟩ := durationAlpha_mem h.inBounds.checked
  have hbounds := h.inBounds.bounds
  refine ⟨h.inBounds.raise rfl rfl, (clampStatic_mem _ hbounds).1, ?_⟩
  have hmean : c.clamp
      ((1 - c.settings.durationAlpha) * c.durationRatio + c.settings.durationAlpha * observed) ≤
      c.clamp (max c.durationRatio observed) := clampStatic_mono (mean_le_max h₀ h₁)
  have hself : c.clamp c.durationRatio = c.durationRatio :=
    clampStatic_of_mem h.lower (h.ordered.trans h.inBounds.upper)
  have hmax : c.clamp (max c.durationRatio observed) = max c.durationRatio (c.clamp observed) := by
    calc c.clamp (max c.durationRatio observed)
        = max (c.clamp c.durationRatio) (c.clamp observed) := clampStatic_max _ _
      _ = max c.durationRatio (c.clamp observed) := by rw [hself]
  exact (hmean.trans_eq hmax).trans (max_le_max_right _ h.ordered)

/-- A failure leaves the duration ratio and raises the safety ratio. -/
theorem Sound.observeFailure {c : SplitRatioController Rat} (h : c.Sound) (lowerBound : Rat)
    (segmentSafetyRatio : Option Rat) : (c.observeFailure lowerBound segmentSafetyRatio).Sound :=
  ⟨h.inBounds.observeFailure _ _, h.lower,
    h.ordered.trans ((le_max_left _ _).trans (le_max_left _ _))⟩

/-- A call keeps the ratios in order. -/
theorem Sound.call {c : SplitRatioController Rat} (h : c.Sound) (x : Call Rat) : (c.call x).Sound := by
  cases x with
  | observe audioSteps textTokens outcome segmentSafetyRatio =>
      unfold SplitRatioController.call observe observed
      cases outcome with
      | codecEos =>
          dsimp only
          split
          · exact h.observeNatural _
          · exact h
      | kvOverflow => exact h.observeFailure _ _
      | loopAbort => exact h.observeFailure _ _
      | lengthAbort => exact h.observeFailure _ _
      | ignoredFailure => exact h
  | setDurationRatio ratio =>
      rcases c.call_setDurationRatio ratio with hkept | hset
      · rw [hkept]
        exact h
      · rw [hset]
        exact ⟨h.inBounds.raise rfl rfl, (clampStatic_mem ratio h.inBounds.bounds).1,
          le_max_right _ _⟩

/-- A sequence of calls keeps the ratios in order. -/
theorem Sound.calls {c : SplitRatioController Rat} (h : c.Sound) (cs : List (Call Rat)) :
    (c.calls cs).Sound := by
  induction cs generalizing c with
  | nil => exact h
  | cons x cs ih => exact ih (h.call x)

/-- A call leaves the settings as they are. -/
theorem call_settings (c : SplitRatioController Rat) (x : Call Rat) :
    (c.call x).settings = c.settings := by
  cases x with
  | observe audioSteps textTokens outcome segmentSafetyRatio => exact observe_settings c _ _ _ _
  | setDurationRatio ratio =>
      rcases c.call_setDurationRatio ratio with hkept | hset
      · rw [hkept]
      · rw [hset]

theorem calls_settings (c : SplitRatioController Rat) (cs : List (Call Rat)) :
    (c.calls cs).settings = c.settings := by
  induction cs generalizing c with
  | nil => rfl
  | cons x cs ih => exact (ih (c.call x)).trans (call_settings c x)

/-- No call lowers the safety ratio. -/
theorem le_call (c : SplitRatioController Rat) (x : Call Rat) :
    c.safetyRatio ≤ (c.call x).safetyRatio := by
  cases x with
  | observe audioSteps textTokens outcome segmentSafetyRatio =>
      unfold SplitRatioController.call observe observed
      cases outcome with
      | codecEos =>
          dsimp only
          split
          · exact le_max_left _ _
          · exact le_rfl
      | kvOverflow => exact (le_max_left _ _).trans (le_max_left _ _)
      | loopAbort => exact (le_max_left _ _).trans (le_max_left _ _)
      | lengthAbort => exact (le_max_left _ _).trans (le_max_left _ _)
      | ignoredFailure => exact le_rfl
  | setDurationRatio ratio =>
      rcases c.call_setDurationRatio ratio with hkept | hset
      · rw [hkept]
      · rw [hset]
        exact le_max_left _ _

/-- No sequence of calls lowers the safety ratio. -/
theorem le_calls (c : SplitRatioController Rat) (cs : List (Call Rat)) :
    c.safetyRatio ≤ (c.calls cs).safetyRatio := by
  induction cs generalizing c with
  | nil => exact le_rfl
  | cons x cs ih => exact (le_call c x).trans (ih (c.call x))

/-! ## What an observation proves -/

/-- The controller with these settings whose ratios are the lowest. -/
def lowest (a : RatioSettings Rat) : SplitRatioController Rat :=
  { settings := a, durationRatio := a.minRatio, safetyRatio := a.minRatio }

/-- What an observation proves: the safety ratio it leads to from the lowest. -/
def evidence (a : RatioSettings Rat) (o : SegmentOutcome Rat) : Rat :=
  ((lowest a).call o.call).safetyRatio

/-- A natural end raises the safety ratio to the observed one, in whatever state it is observed. -/
theorem observeNatural_safety {c : SplitRatioController Rat} (h : c.InBounds) (observed : Rat) :
    (c.observeNatural observed).safetyRatio =
      max c.safetyRatio ((lowest c.settings).observeNatural observed).safetyRatio := by
  show max c.safetyRatio (c.clamp observed) =
    max c.safetyRatio (max c.settings.minRatio (c.clamp observed))
  rw [← max_assoc, max_eq_left h.lower]

/-- A failure that is given the ratio of its segment backs off from that ratio, in whatever state it
is observed. -/
theorem observeFailure_safety {c : SplitRatioController Rat} (h : c.InBounds) (lowerBound : Rat)
    {snapshot : Rat} (hsnapshot : 0 < snapshot) :
    (c.observeFailure lowerBound (some snapshot)).safetyRatio =
      max c.safetyRatio
        ((lowest c.settings).observeFailure lowerBound (some snapshot)).safetyRatio := by
  have hbase : ¬ ((!RatioArith.finite snapshot) = true ∨ snapshot ≤ 0) := by
    rintro (hfinite | hle)
    · cases hfinite
    · exact absurd hsnapshot (not_lt.2 hle)
  have hlower : max c.safetyRatio c.settings.minRatio = c.safetyRatio := max_eq_left h.lower
  unfold SplitRatioController.observeFailure
  simp only [Option.getD_some, if_neg hbase]
  rw [← max_assoc, ← max_assoc]
  show _ = max (max (max c.safetyRatio c.settings.minRatio) _) _
  rw [hlower]
  rfl

/-- An observation that carries the ratio of its segment raises the safety ratio to what it proves. -/
theorem call_safety {c : SplitRatioController Rat} (h : c.InBounds) {o : SegmentOutcome Rat}
    (hsnapshot : 0 < o.safetySnapshot) :
    (c.call o.call).safetyRatio = max c.safetyRatio (evidence c.settings o) := by
  have hlower : max c.safetyRatio c.settings.minRatio = c.safetyRatio := max_eq_left h.lower
  obtain ⟨audioSteps, textTokens, outcome, snapshot⟩ := o
  unfold evidence SegmentOutcome.call SplitRatioController.call observe observed
  cases outcome with
  | codecEos =>
      by_cases haccepted : 0 < max 0 audioSteps ∧ c.settings.minDurationTokens ≤ max 0 textTokens
      · have haccepted' : 0 < max 0 audioSteps ∧
            (lowest c.settings).settings.minDurationTokens ≤ max 0 textTokens := haccepted
        dsimp only
        rw [if_pos haccepted, if_pos haccepted']
        exact observeNatural_safety h _
      · have haccepted' : ¬ (0 < max 0 audioSteps ∧
            (lowest c.settings).settings.minDurationTokens ≤ max 0 textTokens) := haccepted
        dsimp only
        rw [if_neg haccepted, if_neg haccepted']
        exact hlower.symm
  | kvOverflow => exact observeFailure_safety h _ hsnapshot
  | loopAbort => exact observeFailure_safety h _ hsnapshot
  | lengthAbort => exact observeFailure_safety h _ hsnapshot
  | ignoredFailure => exact hlower.symm

/-- The safety ratio after a sequence of such observations. -/
theorem calls_safety {c : SplitRatioController Rat} (h : c.Sound) {os : List (SegmentOutcome Rat)}
    (hsnapshots : ∀ o ∈ os, 0 < o.safetySnapshot) :
    (c.calls (os.map SegmentOutcome.call)).safetyRatio =
      os.foldl (fun r o => max r (evidence c.settings o)) c.safetyRatio := by
  induction os generalizing c with
  | nil => rfl
  | cons o os ih =>
      have hrest := ih (h.call o.call) fun o' ho' => hsnapshots o' (List.mem_cons_of_mem _ ho')
      rw [call_settings, call_safety h.inBounds (hsnapshots o List.mem_cons_self)] at hrest
      exact hrest

/-- Each of the observations counts for what it would lead to on its own. -/
theorem foldl_evidence {c : SplitRatioController Rat} (h : c.InBounds)
    {os : List (SegmentOutcome Rat)} (hsnapshots : ∀ o ∈ os, 0 < o.safetySnapshot) {r : Rat}
    (hr : c.safetyRatio ≤ r) :
    os.foldl (fun r o => max r (evidence c.settings o)) r =
      os.foldl (fun r o => max r (c.call o.call).safetyRatio) r := by
  induction os generalizing r with
  | nil => rfl
  | cons o os ih =>
      have halone : max r (c.call o.call).safetyRatio = max r (evidence c.settings o) := by
        rw [call_safety h (hsnapshots o List.mem_cons_self), ← max_assoc, max_eq_left hr]
      rw [List.foldl_cons, List.foldl_cons, halone]
      exact ih (fun o' ho' => hsnapshots o' (List.mem_cons_of_mem _ ho'))
        (hr.trans (le_max_left _ _))

/-- A maximum forgets the order of its terms. -/
theorem foldl_evidence_perm (a : RatioSettings Rat) {os os' : List (SegmentOutcome Rat)}
    (hperm : os.Perm os') (r : Rat) :
    os.foldl (fun r o => max r (evidence a o)) r =
      os'.foldl (fun r o => max r (evidence a o)) r := by
  have : RightCommutative fun (r : Rat) o => max r (evidence a o) :=
    ⟨fun r o o' => max_right_comm r _ _⟩
  exact hperm.foldl_eq r

/-- In every run the ratios stay in order and within their bounds, and the safety ratio never falls.
Observations that carry the safety ratio of their segment (which was positive, as every ratio of a run
is) lead to the same safety ratio in every order: to the largest of those each of them leads to on its
own, so that failures of one planning epoch do not compound. -/
theorem ratios_of_runs {a : RatioSettings Rat} {c : SplitRatioController Rat} (h : new a = .ok c)
    (cs : List (Call Rat)) :
    (a.minRatio ≤ (c.calls cs).durationRatio ∧
      (c.calls cs).durationRatio ≤ (c.calls cs).safetyRatio ∧
      (c.calls cs).safetyRatio ≤ a.maxRatio ∧ 0 < (c.calls cs).safetyRatio) ∧
    (∀ more, (c.calls cs).safetyRatio ≤ (c.calls (cs ++ more)).safetyRatio) ∧
    ∀ os : List (SegmentOutcome Rat), (∀ o ∈ os, 0 < o.safetySnapshot) →
      (∀ os', os.Perm os' →
        (c.calls (cs ++ os.map SegmentOutcome.call)).safetyRatio =
          (c.calls (cs ++ os'.map SegmentOutcome.call)).safetyRatio) ∧
      (c.calls (cs ++ os.map SegmentOutcome.call)).safetyRatio =
        os.foldl (fun r o => max r ((c.calls cs).call o.call).safetyRatio)
          (c.calls cs).safetyRatio := by
  have happend : ∀ more, c.calls (cs ++ more) = (c.calls cs).calls more := fun more =>
    List.foldl_append
  obtain ⟨hchecked, hstart⟩ : checkSettings a = .ok () ∧ c = start a := by
    unfold SplitRatioController.new at h
    split at h
    · cases h
    · next hchecked => exact ⟨hchecked, (Except.ok.inj h).symm⟩
  have hsound : (c.calls cs).Sound := by
    rw [hstart]
    exact (sound_start hchecked).calls cs
  have hsettings : (c.calls cs).settings = a := by
    rw [calls_settings, hstart]
    rfl
  have hlower := hsound.inBounds.lower
  have hupper := hsound.inBounds.upper
  have hduration := hsound.lower
  rw [hsettings] at hlower hupper hduration
  have hpos : 0 < (c.calls cs).safetyRatio :=
    zero_lt_one.trans_le ((checkSettings_ok hchecked).1.trans hlower)
  refine ⟨⟨hduration, hsound.ordered, hupper, hpos⟩, ?_, ?_⟩
  · intro more
    rw [happend]
    exact le_calls _ more
  · intro os hsnapshots
    refine ⟨?_, ?_⟩
    · intro os' hperm
      have hsnapshots' : ∀ o ∈ os', 0 < o.safetySnapshot := fun o ho =>
        hsnapshots o (hperm.mem_iff.2 ho)
      rw [happend, happend, calls_safety hsound hsnapshots, calls_safety hsound hsnapshots']
      exact foldl_evidence_perm _ hperm _
    · rw [happend, calls_safety hsound hsnapshots]
      exact foldl_evidence hsound.inBounds hsnapshots le_rfl

/-- Two failures of one planning epoch lead to one ratio in both orders. -/
theorem ratios_of_runs_two :
    ((start (F := Rat) ⟨4, 5, 1 / 2, 1 / 2, 1, 20, 4, 2⟩).calls
        [.observe 60 10 .kvOverflow (some 5), .observe 30 2 .loopAbort (some 5)]).safetyRatio =
      ((start (F := Rat) ⟨4, 5, 1 / 2, 1 / 2, 1, 20, 4, 2⟩).calls
        [.observe 30 2 .loopAbort (some 5), .observe 60 10 .kvOverflow (some 5)]).safetyRatio := by
  have hchecked : checkSettings (F := Rat) ⟨4, 5, 1 / 2, 1 / 2, 1, 20, 4, 2⟩ = .ok () := by
    decide +kernel
  have h : new (F := Rat) ⟨4, 5, 1 / 2, 1 / 2, 1, 20, 4, 2⟩ =
      .ok (start ⟨4, 5, 1 / 2, 1 / 2, 1, 20, 4, 2⟩) := by
    unfold SplitRatioController.new
    rw [hchecked]
  have hsnapshots : ∀ o ∈ [(⟨60, 10, .kvOverflow, 5⟩ : SegmentOutcome Rat), ⟨30, 2, .loopAbort, 5⟩],
      0 < o.safetySnapshot := by decide
  exact ((ratios_of_runs h []).2.2 _ hsnapshots).1 _ (.swap _ _ _)

end SplitRatioController
end StreamingTts.Split
