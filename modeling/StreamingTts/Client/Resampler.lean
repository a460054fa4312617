import Mathlib.Algebra.Order.Floor.Semifield
import Mathlib.Data.Rat.Floor
import StreamingTts.Lib.Transition

/-!
# The resampler of the browser player

`ContinuousResampler` of `browser-sdk/src/audio/resampler.ts`, in exact arithmetic: it interpolates
between the samples of a source at one rate, at the times of the samples of a destination at another. The
samples come in chunks, and the resampler keeps the last one, with the next position counted from it.
`interpolant` is what it computes, on the whole source at once. `Settled` says which position is next after
some samples: the first one that does not lie before the last sample. `resampler_phase` is about every way
to cut the source into chunks.
-/

namespace StreamingTts.Client.Resampler

open Lib

/-! ## The resampler -/

/-- The rates that the constructor accepts. -/
structure Rates where
  sourceRate : Nat
  destinationRate : Nat
  source_pos : 0 < sourceRate
  destination_pos : 0 < destinationRate

/-- `new ContinuousResampler(…)`: the checks of the constructor. -/
def Rates.new (sourceRate destinationRate : Int) : Except String Rates :=
  if hsource : sourceRate ≤ 0 then .error "sourceRate must be a positive integer"
  else if hdestination : destinationRate ≤ 0 then
    .error "destinationRate must be a positive integer"
  else .ok ⟨sourceRate.toNat, destinationRate.toNat, by omega, by omega⟩

/-- The fields of a `ContinuousResampler` that change. -/
structure ContinuousResampler where
  pending : List ℚ := []
  positionNumerator : Nat := 0
  consumedFrames : Nat := 0
  deriving DecidableEq

section
variable (rates : Rates)

/-- The sample at a position of the input, counted in ticks of the destination. -/
def sampleAt (input : List ℚ) (position : Nat) : ℚ :=
  let left := position / rates.destinationRate
  let fraction : ℚ := (position % rates.destinationRate : Nat) / rates.destinationRate
  let first := (input[left]?).getD 0
  let second := (input[left + 1]?).getD first
  first + (second - first) * fraction

/-- The loop of `process`: its output, and the position it leaves. -/
def produce (input : List ℚ) (position : Nat) : List ℚ × Nat :=
  if position < (input.length - 1) * rates.destinationRate then
    let rest := produce input (position + rates.sourceRate)
    (sampleAt rates input position :: rest.1, rest.2)
  else ([], position)
termination_by (input.length - 1) * rates.destinationRate - position
decreasing_by
  have := rates.source_pos
  omega

/-- `process`. -/
def process (r : ContinuousResampler) (chunk : List ℚ) : ContinuousResampler × List ℚ :=
  if chunk = [] then (r, [])
  else
    let input := r.pending ++ chunk
    let (output, position) := produce rates input r.positionNumerator
    let consumed := min (position / rates.destinationRate) (input.length - 1)
    ({ pending := input.drop consumed
       positionNumerator := position - consumed * rates.destinationRate
       consumedFrames := r.consumedFrames + consumed }, output)

end

/-- `flush`. -/
def ContinuousResampler.flush (r : ContinuousResampler) : ContinuousResampler × List ℚ :=
  match r.pending.getLast? with
  | none => (r, [])
  | some finalSample =>
      ({ pending := [], positionNumerator := 0
         consumedFrames := r.consumedFrames + r.pending.length }, [finalSample])

/-! ## The interpolant -/

/-- The source between its samples: on a straight line from each to the next one. -/
def interpolant (source : List ℚ) (t : ℚ) : ℚ :=
  let left := ⌊t⌋₊
  (source[left]?).getD 0
    + ((source[left + 1]?).getD 0 - (source[left]?).getD 0) * (t - left)

/-- The time of a sample of the destination, counted in samples of the source. -/
def Rates.time (rates : Rates) (j : Nat) : ℚ := (j * rates.sourceRate : Nat) / rates.destinationRate

section
variable {rates : Rates} {source : List ℚ}

/-- What the loop computes is the interpolant of the whole source. -/
theorem sampleAt_eq {dropped position : Nat}
    (h : position < (source.length - dropped - 1) * rates.destinationRate) :
    sampleAt rates (source.drop dropped) position
      = interpolant source ((position + dropped * rates.destinationRate : Nat)
          / rates.destinationRate) := by
  have hpos : (rates.destinationRate : ℚ) ≠ 0 :=
    Nat.cast_ne_zero.2 (Nat.pos_iff_ne_zero.1 rates.destination_pos)
  have hleft : position / rates.destinationRate < source.length - dropped - 1 :=
    Nat.div_lt_of_lt_mul (by rwa [Nat.mul_comm])
  have hfloor : ⌊(((position + dropped * rates.destinationRate : Nat) : ℚ)
      / rates.destinationRate)⌋₊ = dropped + position / rates.destinationRate := by
    rw [Nat.floor_div_natCast, Nat.floor_natCast, Nat.add_mul_div_right _ _ rates.destination_pos,
      Nat.add_comm]
  have hfraction : ((position % rates.destinationRate : Nat) : ℚ) / rates.destinationRate
      = ((position + dropped * rates.destinationRate : Nat) : ℚ) / rates.destinationRate
        - ((dropped + position / rates.destinationRate : Nat) : ℚ) := by
    have hsplit : ((rates.destinationRate * (position / rates.destinationRate)
        + position % rates.destinationRate : Nat) : ℚ) = position :=
      congrArg Nat.cast (Nat.div_add_mod position rates.destinationRate)
    push_cast at hsplit ⊢
    field_simp
    linarith
  have hplace : dropped + position / rates.destinationRate + 1 < source.length := by
    generalize position / rates.destinationRate = left at hleft ⊢
    omega
  have hsecond := List.getElem?_eq_getElem hplace
  unfold sampleAt interpolant
  dsimp only
  rw [hfloor, hfraction, List.getElem?_drop, List.getElem?_drop, ← Nat.add_assoc, hsecond,
    Option.getD_some, Option.getD_some]

/-- The interpolant of a longer source is the same up to the last sample of the shorter one. -/
theorem interpolant_append {t : ℚ} (h : ⌊t⌋₊ + 1 < source.length) (more : List ℚ) :
    interpolant (source ++ more) t = interpolant source t := by
  unfold interpolant
  dsimp only
  rw [List.getElem?_append_left h, List.getElem?_append_left (Nat.lt_of_succ_lt h)]

/-- A sample of the destination lies before the last one of the source. -/
theorem time_lt_iff {j : Nat} (h : source ≠ []) :
    rates.time j < (source.length : ℚ) - 1
      ↔ j * rates.sourceRate < (source.length - 1) * rates.destinationRate := by
  have hpos : (0 : ℚ) < rates.destinationRate := Nat.cast_pos.2 rates.destination_pos
  have hlength := List.length_pos_of_ne_nil h
  rw [Rates.time, div_lt_iff₀ hpos, ← Nat.cast_lt (α := ℚ), Nat.cast_mul (source.length - 1),
    Nat.cast_sub hlength, Nat.cast_one]

/-! ## Chunks -/

/-- What the loop adds to the output, and where it stops. -/
structure Produced (rates : Rates) (input : List ℚ) (position : Nat) (answer : List ℚ × Nat) :
    Prop where
  next : answer.2 = position + answer.1.length * rates.sourceRate
  stops : (input.length - 1) * rates.destinationRate ≤ answer.2
  samples : ∀ i, i < answer.1.length →
    position + i * rates.sourceRate < (input.length - 1) * rates.destinationRate ∧
      answer.1[i]? = some (sampleAt rates input (position + i * rates.sourceRate))

theorem produce_spec (input : List ℚ) (position : Nat) :
    Produced rates input position (produce rates input position) := by
  induction position using produce.induct rates input with
  | case1 position hlt ih =>
      unfold produce
      rw [if_pos hlt]
      refine ⟨?_, ih.stops, fun i hi => ?_⟩
      · have hnext := ih.next
        show (produce rates input (position + rates.sourceRate)).2
          = position + ((produce rates input (position + rates.sourceRate)).1.length + 1)
            * rates.sourceRate
        rw [Nat.succ_mul]
        omega
      · cases i with
        | zero =>
            rw [Nat.zero_mul, Nat.add_zero]
            exact ⟨hlt, rfl⟩
        | succ i =>
            have hplace : position + (i + 1) * rates.sourceRate
                = position + rates.sourceRate + i * rates.sourceRate := by
              rw [Nat.succ_mul]
              omega
            rw [hplace]
            exact ih.samples i (Nat.lt_of_succ_lt_succ hi)
  | case2 position hge =>
      unfold produce
      rw [if_neg hge]
      refine ⟨?_, Nat.le_of_not_lt hge, fun i hi => absurd hi (Nat.not_lt_zero i)⟩
      show position = position + 0 * rates.sourceRate
      omega

/-- The resampler after the samples of `source`, with `out` as its output: it has made the samples of the
destination that lie before the last one of the source. -/
structure Settled (rates : Rates) (source : List ℚ) (r : ContinuousResampler) (out : List ℚ) : Prop where
  samples : ∀ j, j < out.length → out[j]? = some (interpolant source (rates.time j))
  made : ∀ j, j < out.length ↔ rates.time j < (source.length : ℚ) - 1
  pending : r.pending = source.drop r.consumedFrames
  consumed : r.consumedFrames = source.length - 1
  position : r.positionNumerator + r.consumedFrames * rates.destinationRate
    = out.length * rates.sourceRate

/-- One chunk more. -/
theorem Settled.process {r : ContinuousResampler} {out : List ℚ} (h : Settled rates source r out)
    {chunk : List ℚ} (hchunk : chunk ≠ []) :
    Settled rates (source ++ chunk) (Resampler.process rates r chunk).1
      (out ++ (Resampler.process rates r chunk).2) := by
  have hinput : r.pending ++ chunk = (source ++ chunk).drop r.consumedFrames := by
    rw [h.pending, List.drop_append_of_le_length (h.consumed ▸ Nat.sub_le _ _)]
  have hne : source ++ chunk ≠ [] := fun hnil => hchunk (List.append_eq_nil_iff.1 hnil).2
  have hpos := List.length_pos_of_ne_nil hne
  have hchunkpos := List.length_pos_of_ne_nil hchunk
  have hlength : (source ++ chunk).length = source.length + chunk.length := List.length_append
  have hconsumed := h.consumed
  have hposition := h.position
  have hspec := @produce_spec rates (r.pending ++ chunk) r.positionNumerator
  have hlimit : (r.pending ++ chunk).length - 1 = (source ++ chunk).length - 1 - r.consumedFrames := by
    rw [hinput, List.length_drop]
    omega
  unfold Resampler.process
  rw [if_neg hchunk]
  dsimp only
  generalize produce rates (r.pending ++ chunk) r.positionNumerator = answer at hspec ⊢
  obtain ⟨more, position⟩ := answer
  obtain ⟨hnext, hstops, hsamples⟩ := hspec
  dsimp only at hnext hstops hsamples ⊢
  rw [hlimit] at hstops hsamples
  -- all of the input but its last sample is consumed
  have hall : min (position / rates.destinationRate) ((r.pending ++ chunk).length - 1)
      = (source ++ chunk).length - 1 - r.consumedFrames := by
    rw [hlimit]
    exact Nat.min_eq_right ((Nat.le_div_iff_mul_le rates.destination_pos).2 hstops)
  have hscale : ((source ++ chunk).length - 1 - r.consumedFrames) * rates.destinationRate
      + r.consumedFrames * rates.destinationRate
      = ((source ++ chunk).length - 1) * rates.destinationRate := by
    rw [← Nat.add_mul, Nat.sub_add_cancel (by omega)]
  have hnew : ∀ i, i < more.length →
      rates.time (out.length + i) < ((source ++ chunk).length : ℚ) - 1 ∧
        more[i]? = some (interpolant (source ++ chunk) (rates.time (out.length + i))) := by
    intro i hi
    obtain ⟨hlt, hsample⟩ := hsamples i hi
    have hplace : r.positionNumerator + i * rates.sourceRate + r.consumedFrames * rates.destinationRate
        = (out.length + i) * rates.sourceRate := by
      rw [Nat.add_mul, ← hposition]
      omega
    constructor
    · rw [time_lt_iff hne, ← hplace, ← hscale]
      exact Nat.add_lt_add_right hlt _
    · rw [hsample, hinput, sampleAt_eq, hplace, Rates.time]
      rwa [Nat.sub_right_comm]
  refine ⟨fun j hj => ?_, fun j => ?_, ?_, ?_, ?_⟩
  · by_cases hold : j < out.length
    · rw [List.getElem?_append_left hold, h.samples j hold]
      have htime := (h.made j).1 hold
      have hsource : source ≠ [] := by
        rintro rfl
        have hnonneg : 0 ≤ rates.time j := by
          unfold Rates.time
          positivity
        rw [List.length_nil, Nat.cast_zero] at htime
        linarith
      rw [time_lt_iff hsource] at htime
      rw [interpolant_append]
      have hfloor : ⌊rates.time j⌋₊ = j * rates.sourceRate / rates.destinationRate := by
        unfold Rates.time
        rw [Nat.floor_div_natCast, Nat.floor_natCast]
      have hleft := Nat.div_lt_of_lt_mul (Nat.mul_comm _ rates.destinationRate ▸ htime)
      rw [hfloor]
      omega
    · rw [List.getElem?_append_right (Nat.le_of_not_lt hold)]
      rw [List.length_append] at hj
      have hj' : j - out.length < more.length := by omega
      have hsample := (hnew _ hj').2
      rwa [Nat.add_sub_cancel' (Nat.le_of_not_lt hold)] at hsample
  · rw [List.length_append]
    constructor
    · intro hj
      by_cases hold : j < out.length
      · have htime := (h.made j).1 hold
        refine lt_of_lt_of_le htime (sub_le_sub_right (Nat.cast_le.2 ?_) 1)
        omega
      · have hj' : j - out.length < more.length := by omega
        have htime := (hnew _ hj').1
        rwa [Nat.add_sub_cancel' (Nat.le_of_not_lt hold)] at htime
    · intro htime
      rw [time_lt_iff hne, ← hscale] at htime
      by_contra hge
      have hlast : (out.length + more.length) * rates.sourceRate ≤ j * rates.sourceRate :=
        Nat.mul_le_mul_right _ (Nat.le_of_not_lt hge)
      rw [Nat.add_mul, ← hposition] at hlast
      omega
  · rw [hall, hinput, List.drop_drop]
  · rw [hall]
    dsimp only
    omega
  · have hle : ((source ++ chunk).length - 1 - r.consumedFrames) * rates.destinationRate ≤ position :=
      hstops
    have hmade : (out ++ more).length * rates.sourceRate
        = out.length * rates.sourceRate + more.length * rates.sourceRate := by
      rw [List.length_append, Nat.add_mul]
    rw [hall, hmade]
    dsimp only
    rw [Nat.add_mul r.consumedFrames]
    omega

end

/-- The resampler after some chunks. -/
theorem settled_run (rates : Rates) (chunks : List (List ℚ)) :
    Settled rates chunks.flatten
      (run (fun r chunk => (process rates r chunk).1) {} chunks) (outputs (process rates) {} chunks) := by
  have hstart : Settled rates [] {} [] := by
    refine ⟨fun _ h => absurd h (Nat.not_lt_zero _), fun j => iff_of_false (Nat.not_lt_zero j) ?_, rfl,
      rfl, by simp⟩
    have hnonneg : 0 ≤ rates.time j := by
      unfold Rates.time
      positivity
    rw [List.length_nil, Nat.cast_zero]
    linarith
  have hrun : ∀ (source : List ℚ) (r : ContinuousResampler) (out : List ℚ),
      Settled rates source r out → Settled rates (source ++ chunks.flatten)
        (run (fun r chunk => (process rates r chunk).1) r chunks)
        (out ++ outputs (process rates) r chunks) := by
    induction chunks with
    | nil =>
        intro source r out h
        rw [List.flatten_nil, List.append_nil, outputs_nil, List.append_nil]
        exact h
    | cons chunk chunks ih =>
        intro source r out h
        rw [List.flatten_cons, run_cons, outputs_cons, ← List.append_assoc, ← List.append_assoc]
        by_cases hchunk : chunk = []
        · have hsame : process rates r chunk = (r, []) := if_pos hchunk
          rw [hsame, hchunk, List.append_nil, List.append_nil]
          exact ih source r out h
        · exact ih _ _ _ (h.process hchunk)
  exact hrun [] {} [] hstart

/-- For every two rates and every source, cut into chunks in any way: the outputs are the interpolant at the
times of the destination that lie before the last sample, all of them and no others; the resampler keeps one
sample at most, and has consumed the others; and once it is flushed it has consumed all of them. -/
theorem resampler_phase (rates : Rates) (chunks : List (List ℚ)) :
    let r := run (fun r chunk => (process rates r chunk).1) {} chunks
    let out := outputs (process rates) {} chunks
    (∀ j, j < out.length ↔ rates.time j < (chunks.flatten.length : ℚ) - 1) ∧
    (∀ j, j < out.length → out[j]? = some (interpolant chunks.flatten (rates.time j))) ∧
    r.pending.length ≤ 1 ∧
    r.consumedFrames + r.pending.length = chunks.flatten.length ∧
    r.flush.1.consumedFrames = chunks.flatten.length ∧ r.flush.1.pending = [] := by
  intro r out
  have h := settled_run rates chunks
  have hconsumed : r.consumedFrames = chunks.flatten.length - 1 := h.consumed
  have hpending : r.pending.length = chunks.flatten.length - r.consumedFrames := by
    rw [h.pending, List.length_drop]
  refine ⟨h.made, h.samples, by omega, by omega, ?_⟩
  unfold ContinuousResampler.flush
  cases hlast : r.pending.getLast? with
  | none =>
      have hnil := List.getLast?_eq_none_iff.1 hlast
      rw [hnil, List.length_nil] at hpending
      refine ⟨?_, hnil⟩
      dsimp only
      omega
  | some finalSample => exact ⟨by dsimp only; omega, rfl⟩

end StreamingTts.Client.Resampler
