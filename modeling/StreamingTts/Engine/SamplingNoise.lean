import StreamingTts.Engine.MigrationAtomic
import StreamingTts.Engine.PrefixReuse

/-!
# The noise of a segment

The sampling noise of `engine/backend/executor.py`: each slot owns a generator, seeded by what names the
attempt it decodes, and every input that is built for a slot draws one row from it. In a run of the engine
loop the steps of an attempt see the rows of one stream, one after the other, whatever is decoded beside
it and however often it is moved (`noise_of_stream`), unless the replay of a CUDA graph fails behind the
inputs: the fallback builds them again and a row is lost.
-/

namespace StreamingTts.Engine.Pooled

open Lib
open Frontend (Text)

variable {κ : Type} {ξ : Type} {ν : Type}

/-! ## Generators -/

/-- What the noise of an executor depends on. The hash of a seed and the generator are parameters:
`manualSeed` is the state a seed gives, and `rand` the draw of a shape from a state with the next one. -/
structure Sampler (κ ν : Type) where
  randomSeed : Int
  device : Nat
  /-- `_do_sample` -/
  doSample : Bool
  logitsTopk : Nat
  cpNumStages : Nat
  /-- `torch.zeros` of a shape -/
  zeros : List Nat → ν
  /-- `_stable_sampling_seed` -/
  stableSamplingSeed : Int → List Text → Int
  manualSeed : Int → Tensor κ
  rand : List Nat → Tensor κ → ν × Tensor κ

/-- The rows `gumbel_noise` and `cp_gumbel_noise` of one lane. -/
abbrev Noise (ν : Type) := ν × ν

/-- What `_slot_sampling_generator` calls the identity of a slot. -/
def SlotKVState.identity (slot : SlotKVState κ ξ) : Text :=
  match slot.samplingIdentity, slot.sessionId with
  | some identity, _ => identity ++ ':' :: (toString slot.segmentIdx).toList
  | none, some sessionId => sessionId
  | none, none => "slot:".toList ++ (toString slot.slotId).toList

/-- The parts a seed is derived from. -/
def seedParts (identity : Text) (segmentIdx retryIdx : Int) : List Text :=
  [identity, (toString segmentIdx).toList] ++
    if 0 < retryIdx then ["retry:".toList ++ (toString retryIdx).toList] else []

namespace Sampler

variable (s : Sampler κ ν)

/-- `_slot_sampling_generator`: the generator of a slot, and the slot that owns it. -/
def slotSamplingGenerator (slot : SlotKVState κ ξ) : Generator κ × SlotKVState κ ξ :=
  match slot.samplingGenerator with
  | some gen => (gen, slot)
  | none =>
      let seed := s.stableSamplingSeed s.randomSeed
        (seedParts slot.identity slot.segmentIdx slot.retryIdx)
      let gen : Generator κ := { device := s.device, state := s.manualSeed seed }
      (gen, { slot with samplingSeed := some seed, samplingGenerator := some gen })

/-- The two draws of a lane from the state of its generator. -/
def draw (state : Tensor κ) : Noise ν × Tensor κ :=
  let gumbel := s.rand [1, s.logitsTopk] state
  let cpGumbel := s.rand [1, s.cpNumStages, s.logitsTopk] gumbel.2
  ((gumbel.1, cpGumbel.1), cpGumbel.2)

/-- One turn of the loop of `_build_sampling_noise`, and the rows of zeros when nothing is sampled. -/
def laneNoise (slot : SlotKVState κ ξ) : Noise ν × SlotKVState κ ξ :=
  if s.doSample then
    let owned := s.slotSamplingGenerator slot
    let drawn := s.draw owned.1.state
    (drawn.1, { owned.2 with samplingGenerator := some { owned.1 with state := drawn.2 } })
  else ((s.zeros [1, s.logitsTopk], s.zeros [1, s.cpNumStages, s.logitsTopk]), slot)

end Sampler

namespace EngineLoop

variable (eng : EngineLoop κ ξ)

/-- The slot of a segment. -/
def slotOf (key : SegKey) : Option Nat := (eng.segments key).bind (·.slot)

/-- The row of noise that is built for a segment with a slot. -/
def buildRow (s : Sampler κ ν) (key : SegKey) : Option (Noise ν) × EngineLoop κ ξ :=
  match eng.slotOf key, eng.executor.kvPool with
  | some k, some pool =>
      let built := s.laneNoise (pool.slots k)
      (some built.1, eng.setPool (pool.setSlot k built.2))
  | _, _ => (none, eng)

/-- The noise of inputs that are built and not used. -/
def buildUnused (s : Sampler κ ν) (keys : List SegKey) : EngineLoop κ ξ :=
  keys.foldl (fun eng key => (eng.buildRow s key).2) eng

end EngineLoop

/-! ## Runs -/

/-- How a segment is admitted: from a cached prefix, in a batch or alone, or by a prefill of its plan. -/
inductive AdmissionPath
  | batchHit
  | serialHit
  | miss (taskType : TaskType) (plan : PrefillPlan)

/-- Whether `prefill` runs, which builds inputs with noise; `prefill_prefix_only` disables sampling. -/
def AdmissionPath.prefills : AdmissionPath → Bool
  | .batchHit => false
  | .serialHit => false
  | .miss taskType plan => !plan.splitPrefixPrefill taskType

/-- What becomes of the CUDA graph of a launch. -/
inductive GraphLaunch
  /-- there is none for the batch -/
  | unused
  | replayed
  /-- it fails before `_build_fused_inputs`, and the eager path is taken -/
  | failsBefore
  /-- it fails behind `_build_fused_inputs`, and the eager path builds the inputs again -/
  | failsBehind
  deriving DecidableEq, Repr

/-- What names an attempt to decode a segment, and whether its admission ran `prefill`. -/
structure Attempt where
  sessionId : Text
  samplingIdentity : Option Text
  segmentIdx : Int
  retryIdx : Int
  prefilled : Bool
  deriving DecidableEq, Repr

/-- The engine loop, with the attempt of the latest admission of each segment, the rows that the decode
steps of that attempt were given, and whether a graph has failed behind the inputs of one of them. -/
structure SamplingRun (κ ξ ν : Type) where
  eng : EngineLoop κ ξ
  attempts : SegKey → Option Attempt := fun _ => none
  noise : SegKey → List (Noise ν) := fun _ => []
  failedBehind : SegKey → Bool := fun _ => false

/-- What happens in the engine loop, as far as the noise is concerned. -/
inductive SamplingEvent (κ ξ : Type)
  | opens (key : SegKey)
  | updates (key : SegKey) (active countersValid : Bool) (retryIdx : Int)
  | admits (key : SegKey) (samplingIdentity : Option Text) (now : Int) (path : AdmissionPath)
  /-- what prefill and decode write of a slot besides its sampling fields -/
  | writes (key : SegKey) (left : Partial κ ξ)
  /-- `launch_decode_step` -/
  | launches (keys : List SegKey) (graph : GraphLaunch)
  | releases (key : SegKey)
  | drops (key : SegKey)
  | migrates (request : MigrationRequest) (env : MigrationEnv κ ξ)

/-- The fields of a slot that its noise depends on, as they are in another slot. -/
def SlotKVState.withSampling (slot owner : SlotKVState κ ξ) : SlotKVState κ ξ :=
  { slot with
    sessionId := owner.sessionId
    segmentIdx := owner.segmentIdx
    retryIdx := owner.retryIdx
    samplingIdentity := owner.samplingIdentity
    samplingSeed := owner.samplingSeed
    samplingGenerator := owner.samplingGenerator }

namespace SamplingRun

variable (s : Sampler κ ν) (r : SamplingRun κ ξ ν)

/-- An admission. -/
def startAttempt (key : SegKey) (samplingIdentity : Option Text) (now : Int) (path : AdmissionPath) :
    SamplingRun κ ξ ν :=
  let admitted := r.eng.admitSegment key samplingIdentity now
  match r.eng.segments key, r.eng.slotOf key, admitted.slotOf key with
  | some seg, none, some _ =>
      { eng := if path.prefills then (admitted.buildRow s key).2 else admitted
        attempts := Function.update r.attempts key (some
          { sessionId := segKey key
            samplingIdentity := samplingIdentity
            segmentIdx := key.2
            retryIdx := seg.retryIdx
            prefilled := path.prefills })
        noise := Function.update r.noise key []
        failedBehind := Function.update r.failedBehind key false }
  | _, _, _ => r

/-- The step of one lane. -/
def stepLane (key : SegKey) : SamplingRun κ ξ ν :=
  let built := r.eng.buildRow s key
  { r with
    eng := built.2
    noise := Function.update r.noise key (r.noise key ++ built.1.toList) }

/-- `launch_decode_step`, as far as the noise is concerned. -/
def launch (keys : List SegKey) (graph : GraphLaunch) : SamplingRun κ ξ ν :=
  let started :=
    if graph = .failsBehind then
      { r with
        eng := r.eng.buildUnused s keys
        failedBehind := fun key => r.failedBehind key || (s.doSample && keys.contains key) }
    else r
  keys.foldl (fun r key => r.stepLane s key) started

/-- What prefill and decode write of the slot of a segment. -/
def write (key : SegKey) (left : Partial κ ξ) : EngineLoop κ ξ :=
  match r.eng.slotOf key, r.eng.executor.kvPool with
  | some k, some pool =>
      r.eng.decode key { left with slot := left.slot.withSampling (pool.slots k) }
  | _, _ => r.eng

/-- A step of the run. -/
def step : SamplingEvent κ ξ → SamplingRun κ ξ ν
  | .opens key => { r with eng := r.eng.step (.opens key) }
  | .updates key active countersValid retryIdx =>
      { r with eng := r.eng.step (.updates key active countersValid retryIdx) }
  | .admits key samplingIdentity now path => r.startAttempt s key samplingIdentity now path
  | .writes key left => { r with eng := r.write key left }
  | .launches keys graph => r.launch s keys graph
  | .releases key => { r with eng := r.eng.step (.releases key) }
  | .drops key => { r with eng := r.eng.step (.drops key) }
  | .migrates request env => { r with eng := r.eng.step (.migrates request env) }

end SamplingRun

/-! ## Streams -/

namespace Sampler

variable (s : Sampler κ ν)

/-- The state of a generator behind `n` rows. -/
def stateAt (seed : Int) (n : Nat) : Tensor κ := (fun state => (s.draw state).2)^[n] (s.manualSeed seed)

/-- The seed of an attempt. -/
def seedOf (a : Attempt) : Int :=
  let identity := match a.samplingIdentity with
    | some identity => identity ++ ':' :: (toString a.segmentIdx).toList
    | none => a.sessionId
  s.stableSamplingSeed s.randomSeed (seedParts identity a.segmentIdx a.retryIdx)

/-- The row `n` of the stream of an attempt. -/
def rowAt (a : Attempt) (n : Nat) : Noise ν :=
  if s.doSample then (s.draw (s.stateAt (s.seedOf a) n)).1
  else (s.zeros [1, s.logitsTopk], s.zeros [1, s.cpNumStages, s.logitsTopk])

end Sampler

/-- The rows that the admission of an attempt has drawn. -/
def Attempt.offset (a : Attempt) : Nat := if a.prefilled then 1 else 0

/-- A slot decodes an attempt, and its generator is behind `n` rows of the stream. -/
structure OnStream (s : Sampler κ ν) (a : Attempt) (slot : SlotKVState κ ξ) (n : Nat) : Prop where
  sessionId : slot.sessionId = some a.sessionId
  identity : slot.samplingIdentity = a.samplingIdentity
  segmentIdx : slot.segmentIdx = a.segmentIdx
  retryIdx : slot.retryIdx = a.retryIdx
  state : s.doSample = true →
    (slot.samplingGenerator.map (·.state)).getD (s.manualSeed (s.seedOf a)) = s.stateAt (s.seedOf a) n

/-- Two slots agree in what their noise depends on. -/
structure SameSampling (slot slot' : SlotKVState κ ξ) : Prop where
  sessionId : slot'.sessionId = slot.sessionId
  identity : slot'.samplingIdentity = slot.samplingIdentity
  segmentIdx : slot'.segmentIdx = slot.segmentIdx
  retryIdx : slot'.retryIdx = slot.retryIdx
  generator : slot'.samplingGenerator = slot.samplingGenerator

theorem SameSampling.refl (slot : SlotKVState κ ξ) : SameSampling slot slot := ⟨rfl, rfl, rfl, rfl, rfl⟩

theorem SameSampling.of_eq {slot slot' : SlotKVState κ ξ} (h : slot' = slot) : SameSampling slot slot' :=
  h ▸ .refl slot

theorem OnStream.of_same {s : Sampler κ ν} {a : Attempt} {slot slot' : SlotKVState κ ξ} {n : Nat}
    (h : OnStream s a slot n) (hsame : SameSampling slot slot') : OnStream s a slot' n where
  sessionId := hsame.sessionId.trans h.sessionId
  identity := hsame.identity.trans h.identity
  segmentIdx := hsame.segmentIdx.trans h.segmentIdx
  retryIdx := hsame.retryIdx.trans h.retryIdx
  state := by
    rw [hsame.generator]
    exact h.state

/-- The generator of a slot on its stream. -/
theorem OnStream.generator {s : Sampler κ ν} {a : Attempt} {slot : SlotKVState κ ξ} {n : Nat}
    (h : OnStream s a slot n) (hsample : s.doSample = true) :
    (s.slotSamplingGenerator slot).1.state = s.stateAt (s.seedOf a) n := by
  have hstate := h.state hsample
  have hidentity : slot.identity = match a.samplingIdentity with
      | some identity => identity ++ ':' :: (toString a.segmentIdx).toList
      | none => a.sessionId := by
    unfold SlotKVState.identity
    rw [h.identity, h.sessionId, h.segmentIdx]
    cases a.samplingIdentity with
    | none => rfl
    | some identity => rfl
  unfold Sampler.slotSamplingGenerator
  cases hgen : slot.samplingGenerator with
  | some gen =>
      rw [hgen] at hstate
      exact hstate
  | none =>
      rw [hgen] at hstate
      dsimp only
      rw [hidentity, h.segmentIdx, h.retryIdx]
      exact hstate

/-- What building a row writes of a slot. -/
theorem Sampler.laneNoise_slot (s : Sampler κ ν) (slot : SlotKVState κ ξ) :
    ∃ seed gen, (s.laneNoise slot).2 =
      { slot with samplingSeed := seed, samplingGenerator := gen } := by
  unfold laneNoise
  split
  · unfold slotSamplingGenerator
    cases slot.samplingGenerator with
    | some gen => exact ⟨slot.samplingSeed, _, rfl⟩
    | none => exact ⟨_, _, rfl⟩
  · exact ⟨slot.samplingSeed, slot.samplingGenerator, rfl⟩

/-- The row that is built for a slot is the next one of its stream. -/
theorem OnStream.laneNoise {s : Sampler κ ν} {a : Attempt} {slot : SlotKVState κ ξ} {n : Nat}
    (h : OnStream s a slot n) :
    (s.laneNoise slot).1 = s.rowAt a n ∧ OnStream s a (s.laneNoise slot).2 (n + 1) := by
  obtain ⟨seed, gen, hslot⟩ := s.laneNoise_slot slot
  refine ⟨?_, ?_, ?_, ?_, ?_, ?_⟩
  · unfold Sampler.laneNoise Sampler.rowAt
    split
    · next hsample =>
      dsimp only
      rw [h.generator hsample]
    · rfl
  · rw [hslot]
    exact h.sessionId
  · rw [hslot]
    exact h.identity
  · rw [hslot]
    exact h.segmentIdx
  · rw [hslot]
    exact h.retryIdx
  · intro hsample
    unfold Sampler.laneNoise
    rw [if_pos hsample]
    dsimp only [Option.map_some, Option.getD_some]
    rw [h.generator hsample]
    unfold Sampler.stateAt
    rw [Function.iterate_succ_apply']

/-! ## One segment through the steps of the engine loop -/

namespace EngineLoop

/-- The slot of a segment, if it has one afterwards, carries on what its slot was before. -/
def Carried (key : SegKey) (eng eng' : EngineLoop κ ξ) : Prop :=
  ∀ k q, eng'.slotOf key = some k → eng'.executor.kvPool = some q →
    ∃ j p, eng.slotOf key = some j ∧ eng.executor.kvPool = some p ∧
      SameSampling (p.slots j) (q.slots k)

section
variable {eng eng' : EngineLoop κ ξ} {key key' : SegKey}

theorem Carried.refl (key : SegKey) (eng : EngineLoop κ ξ) : Carried key eng eng :=
  fun k q hk hq => ⟨k, q, hk, hq, .refl _⟩

/-- A step that leaves the executor, and gives the segment no slot. -/
theorem carried_of_executor (hexecutor : eng'.executor = eng.executor)
    (hslot : ∀ k, eng'.slotOf key = some k → eng.slotOf key = some k) : Carried key eng eng' := by
  intro k q hk hq
  rw [hexecutor] at hq
  exact ⟨k, q, hslot k hk, hq, .refl _⟩

/-- The slot of a segment is in the slot table. -/
theorem Sound.slotOf (hs : Sound eng) {k : Nat} (h : eng.slotOf key = some k) :
    eng.segBySlot k = some key ∧
      ∃ p, eng.executor.kvPool = some p ∧ (p.slots k).isFree = false := by
  obtain ⟨seg, hseg, hk⟩ := Option.bind_eq_some_iff.1 h
  exact hs.holds key seg k hseg hk

/-- Two segments are on two slots. -/
theorem Sound.slots_ne (hs : Sound eng) (hne : key ≠ key') {j k : Nat} (hj : eng.slotOf key = some j)
    (hk : eng.slotOf key' = some k) : j ≠ k := by
  rintro rfl
  have h := (hs.slotOf hj).1.symm.trans (hs.slotOf hk).1
  exact hne (Option.some.inj h)

/-- A step that leaves a segment its slot, and the slot as it was. -/
theorem carried_of_slot {k : Nat} (hslot : ∀ j, eng'.slotOf key = some j → eng.slotOf key = some j)
    {p q : KVCachePool κ ξ} (hp : eng.executor.kvPool = some p) (hq : eng'.executor.kvPool = some q)
    (hothers : ∀ j, j ≠ k → q.slots j = p.slots j) (hne : eng.slotOf key ≠ some k) :
    Carried key eng eng' := by
  intro j q' hj hq'
  rw [hq] at hq'
  cases hq'
  have hj' := hslot j hj
  have hjk : j ≠ k := by
    rintro rfl
    exact hne hj'
  exact ⟨j, p, hj', hp, .of_eq (hothers j hjk)⟩

theorem carried_opens (key key' : SegKey) : Carried key eng (eng.step (.opens key')) := by
  unfold step
  dsimp only
  split
  · exact .refl key eng
  · refine carried_of_executor rfl fun k hk => ?_
    by_cases hkey : key = key'
    · subst hkey
      obtain ⟨seg, hseg, hk⟩ := Option.bind_eq_some_iff.1 hk
      dsimp only at hseg
      rw [Function.update_self] at hseg
      cases hseg
      cases hk
    · unfold slotOf at hk ⊢
      dsimp only at hk
      rwa [Function.update_of_ne hkey] at hk

theorem carried_updates (key key' : SegKey) (active countersValid : Bool) (retryIdx : Int) :
    Carried key eng (eng.step (.updates key' active countersValid retryIdx)) := by
  refine carried_of_executor rfl fun k hk => ?_
  by_cases hkey : key = key'
  · subst hkey
    obtain ⟨seg, hseg, hk⟩ := Option.bind_eq_some_iff.1 hk
    unfold step at hseg
    dsimp only at hseg
    rw [Function.update_self] at hseg
    obtain ⟨seg', hseg', rfl⟩ := Option.map_eq_some_iff.1 hseg
    exact Option.bind_eq_some_iff.2 ⟨seg', hseg', hk⟩
  · unfold slotOf step at hk
    dsimp only at hk
    rwa [Function.update_of_ne hkey] at hk

theorem carried_drops (key key' : SegKey) : Carried key eng (eng.step (.drops key')) := by
  unfold step
  dsimp only
  split
  · refine carried_of_executor rfl fun k hk => ?_
    by_cases hkey : key = key'
    · subst hkey
      unfold slotOf at hk
      dsimp only at hk
      rw [Function.update_self] at hk
      cases hk
    · unfold slotOf at hk ⊢
      dsimp only at hk
      rwa [Function.update_of_ne hkey] at hk
  · exact .refl key eng

/-- A release takes a segment off its slot, and leaves the slots of the others. -/
theorem carried_releases (hs : Sound eng) (key key' : SegKey) :
    Carried key eng (eng.step (.releases key')) := by
  show Carried key eng (eng.releaseSegmentSlot key')
  unfold releaseSegmentSlot
  split
  · rename_i seg p hseg hp
    split
    · exact .refl key eng
    · rename_i k hk
      split
      · exact .refl key eng
      · rename_i q hrelease
        have hslot' : eng.slotOf key' = some k := Option.bind_eq_some_iff.2 ⟨seg, hseg, hk⟩
        by_cases hkey : key = key'
        · subst hkey
          intro j q' hj
          unfold slotOf at hj
          dsimp only at hj
          rw [Function.update_self] at hj
          cases hj
        · refine carried_of_slot (fun j hj => ?_) hp rfl
            (KVCachePool.beside_release hrelease).slots (k := k) ?_
          · unfold slotOf at hj ⊢
            dsimp only at hj
            rwa [Function.update_of_ne hkey] at hj
          · intro hj
            exact hs.slots_ne hkey hj hslot' rfl
  · exact .refl key eng

/-- A migration keeps the slot of a segment or moves what its noise depends on to another one. -/
theorem carried_migrates (hs : Sound eng) (key : SegKey) (request : MigrationRequest)
    (env : MigrationEnv κ ξ) : Carried key eng (eng.step (.migrates request env)) := by
  show Carried key eng (eng.migrateSpeechState request env).1
  obtain ⟨-, ⟨-, -, hkept⟩ | ⟨-, seg, source, target, p, q, hmoved⟩⟩ := migrate_cases hs request env
  · intro k q hk hq
    have hslot : eng.slotOf key = some k := by
      unfold slotOf at hk ⊢
      rwa [hkept.segments] at hk
    obtain ⟨-, p, hp, howned⟩ := hs.slotOf hslot
    obtain ⟨q', hq', -, -, hsame⟩ := hkept.pool p hp
    rw [hq] at hq'
    cases hq'
    exact ⟨k, p, hslot, hp, .of_eq (hsame k howned).slot⟩
  · intro k q' hk hq'
    rw [hmoved.pools.2] at hq'
    cases hq'
    have hsource : eng.slotOf (request.sessionId, request.segmentIdx) = some source :=
      Option.bind_eq_some_iff.2 ⟨seg, hmoved.segment.1, hmoved.segment.2⟩
    by_cases hkey : key = (request.sessionId, request.segmentIdx)
    · subst hkey
      unfold slotOf at hk
      rw [hmoved.segments, Function.update_self] at hk
      cases hk
      have hstate := congrArg (·.1) hmoved.state
      exact ⟨source, p, hsource, hmoved.pools.1,
        congrArg (·.sessionId) hstate, congrArg (·.samplingIdentity) hstate,
        congrArg (·.segmentIdx) hstate, congrArg (·.retryIdx) hstate,
        congrArg (·.samplingGenerator) hstate⟩
    · have hslot : eng.slotOf key = some k := by
        unfold slotOf at hk ⊢
        rwa [hmoved.segments, Function.update_of_ne hkey] at hk
      have hks : k ≠ source := hs.slots_ne hkey hslot hsource
      have hkt : k ≠ target := by
        rintro rfl
        obtain ⟨-, p', hp', howned⟩ := hs.slotOf hslot
        rw [hmoved.pools.1] at hp'
        cases hp'
        rw [hmoved.before.2] at howned
        cases howned
      exact ⟨k, p, hslot, hmoved.pools.1, .of_eq (hmoved.others k hks hkt).2.slot⟩

/-- An admission leaves the slots of the other segments. -/
theorem carried_admitSegment (hs : Sound eng) (hne : key ≠ key') (samplingIdentity : Option Text)
    (now : Int) : Carried key eng (eng.admitSegment key' samplingIdentity now) := by
  unfold admitSegment
  split
  · rename_i seg p hseg hp
    split
    · rename_i k allocated hslot hallocate
      obtain ⟨hbeside, hspare, -⟩ := prepared_spec eng (hs.pool p hp) hallocate
        { allocated.slots k with
          segmentIdx := key'.2
          samplingIdentity := samplingIdentity
          retryIdx := seg.retryIdx } rfl rfl rfl rfl rfl rfl rfl
      refine carried_of_slot (fun j hj => ?_) hp rfl hbeside.slots ?_
      · unfold slotOf at hj ⊢
        dsimp only at hj
        rwa [Function.update_of_ne hne] at hj
      · intro hk
        obtain ⟨-, p', hp', howned⟩ := hs.slotOf hk
        rw [hp] at hp'
        cases hp'
        rw [hspare] at howned
        cases howned
    · exact .refl key eng
  · exact .refl key eng

/-- A segment that an admission puts on a slot is at the start of the stream of its attempt. -/
theorem onStream_admitSegment {s : Sampler κ ν} {samplingIdentity : Option Text} {now : Int}
    {seg : Segment} {k : Nat} {q : KVCachePool κ ξ} (hseg : eng.segments key = some seg)
    (hslot : eng.slotOf key = none)
    (hk : (eng.admitSegment key samplingIdentity now).slotOf key = some k)
    (hq : (eng.admitSegment key samplingIdentity now).executor.kvPool = some q) (prefilled : Bool) :
    OnStream s ⟨segKey key, samplingIdentity, key.2, seg.retryIdx, prefilled⟩ (q.slots k) 0 := by
  unfold admitSegment at hk hq
  split at hk
  · rename_i seg' p hseg' hp
    rw [hseg] at hseg'
    cases hseg'
    split at hk
    · rename_i j allocated hnone hallocate
      rw [hseg, hp] at hq
      dsimp only at hq
      rw [hnone, hallocate] at hq
      cases hq
      unfold slotOf at hk
      dsimp only at hk
      rw [Function.update_self] at hk
      cases hk
      obtain ⟨-, -, hfresh, -⟩ := KVCachePool.allocate_spec hallocate
      rw [KVCachePool.setSlot_self, hfresh]
      exact ⟨rfl, rfl, rfl, rfl, fun _ => rfl⟩
    · rw [hslot] at hk
      cases hk
  · rw [hslot] at hk
    cases hk

/-- What prefill and decode write leaves what the noise of a slot depends on. -/
theorem carried_write (hs : Sound eng) (r : SamplingRun κ ξ ν) (hr : r.eng = eng) (key key' : SegKey)
    (left : Partial κ ξ) : Carried key eng (r.write key' left) := by
  subst hr
  unfold SamplingRun.write
  split
  · rename_i k p hslot hp
    unfold decode
    split
    · rename_i k' _ _ _ p' hseg' hp'
      rw [hp] at hp'
      cases hp'
      have hk : k' = k := by
        have hslot' : r.eng.slotOf key' = some k' := Option.bind_eq_some_iff.2 ⟨_, hseg', rfl⟩
        rw [hslot] at hslot'
        exact (Option.some.inj hslot').symm
      subst hk
      split
      · intro j q hj hq
        obtain ⟨q', hq', helsewhere⟩ := (Executor.elsewhere_apply
          { left with slot := left.slot.withSampling (p.slots k') } hp (k := k')).pool p hp
        have hqq : q = q' := by
          have hq'' : some q' = some q := hq'.symm.trans hq
          exact (Option.some.inj hq'').symm
        subst hqq
        refine ⟨j, p, hj, hp, ?_⟩
        by_cases hjk : j = k'
        · subst hjk
          have hself : some ((Partial.applyPool { left with slot := left.slot.withSampling (p.slots j) }
              p j)) = some q := by
            rw [← hq]
            show _ = r.eng.executor.kvPool.map _
            rw [hp, Option.map_some]
          cases hself
          unfold Partial.applyPool
          rw [KVCachePool.setSlot_self]
          exact ⟨rfl, rfl, rfl, rfl, rfl⟩
        · exact .of_eq (helsewhere.slots j hjk)
      · exact .refl key r.eng
    · exact .refl key r.eng
  · exact .refl key r.eng

/-! ### Building a row -/

/-- The engine loop with sampling fields of a slot changed is sound. -/
theorem sound_setSampling (hs : Sound eng) {p : KVCachePool κ ξ} (hp : eng.executor.kvPool = some p)
    (k : Nat) (seed : Option Int) (gen : Option (Generator κ)) :
    Sound (eng.setPool (p.setSlot k
      { p.slots k with samplingSeed := seed, samplingGenerator := gen })) := by
  have helsewhere : p.Elsewhere (p.setSlot k
      { p.slots k with samplingSeed := seed, samplingGenerator := gen }) k :=
    KVCachePool.elsewhere_setSlot rfl rfl rfl
  have hisFree : ∀ j, ((p.setSlot k
      { p.slots k with samplingSeed := seed, samplingGenerator := gen }).slots j).isFree =
      (p.slots j).isFree := by
    intro j
    by_cases hj : j = k
    · rw [hj, helsewhere.isFree]
    · rw [helsewhere.slots j hj]
  refine ⟨fun q hq => ?_, fun key seg j hseg hj => ?_, hs.held, hs.handles⟩
  · cases hq
    refine ⟨helsewhere.ownership (hs.pool p hp).ownership, fun j => ?_, fun j hj => ?_⟩
    · by_cases hjk : j = k
      · rw [hjk, helsewhere.slotId, (hs.pool p hp).slotId]
      · rw [helsewhere.slots j hjk, (hs.pool p hp).slotId]
    · rw [hisFree] at hj
      have hexclusive := exclusive_of_beside ((hs.pool p hp).exclusive j hj) helsewhere.beside
      by_cases hjk : j = k
      · subst hjk
        rw [KVCachePool.setSlot_self]
        exact hexclusive
      · rw [helsewhere.slots j hjk]
        exact hexclusive
  · obtain ⟨htable, p', hp', howned⟩ := hs.holds key seg j hseg hj
    rw [hp] at hp'
    cases hp'
    exact ⟨htable, _, rfl, by rw [hisFree, howned]⟩

theorem sound_buildRow (hs : Sound eng) (s : Sampler κ ν) (key : SegKey) :
    Sound (eng.buildRow s key).2 := by
  unfold buildRow
  split
  · rename_i k p hslot hp
    obtain ⟨seed, gen, hbuilt⟩ := s.laneNoise_slot (p.slots k)
    dsimp only
    rw [hbuilt]
    exact sound_setSampling hs hp k seed gen
  · exact hs

/-- Building a row leaves the slots of the segments. -/
theorem slotOf_buildRow (s : Sampler κ ν) (key key' : SegKey) :
    (eng.buildRow s key).2.slotOf key' = eng.slotOf key' := by
  unfold buildRow
  split <;> rfl

/-- The row of another segment leaves the slot of a segment. -/
theorem carried_buildRow (hs : Sound eng) (s : Sampler κ ν) (hne : key ≠ key') :
    Carried key eng (eng.buildRow s key').2 := by
  unfold buildRow
  split
  · rename_i k p hslot hp
    refine carried_of_slot (fun j hj => hj) hp rfl (fun j hj => KVCachePool.setSlot_of_ne p _ hj) ?_
    intro hk
    exact hs.slots_ne hne hk hslot rfl
  · exact .refl key eng

/-- Where nothing is sampled, a row leaves every slot. -/
theorem buildRow_unsampled (s : Sampler κ ν) (hsample : s.doSample = false) (key key' : SegKey) :
    Carried key eng (eng.buildRow s key').2 := by
  unfold buildRow
  split
  · rename_i k p hslot hp
    have hkept : (s.laneNoise (p.slots k)).2 = p.slots k := by
      unfold Sampler.laneNoise
      rw [if_neg (by rw [hsample]; exact Bool.false_ne_true)]
    intro j q hj hq
    cases hq
    refine ⟨j, p, hj, hp, .of_eq ?_⟩
    rw [hkept]
    exact congrFun (Function.update_eq_self k p.slots) j
  · exact .refl key eng

theorem Carried.trans {eng'' : EngineLoop κ ξ} (h : Carried key eng eng') (h' : Carried key eng' eng'') :
    Carried key eng eng'' := by
  intro k q hk hq
  obtain ⟨j, p, hj, hp, hsame⟩ := h' k q hk hq
  obtain ⟨i, p', hi, hp', hsame'⟩ := h j p hj hp
  exact ⟨i, p', hi, hp', hsame.sessionId.trans hsame'.sessionId, hsame.identity.trans hsame'.identity,
    hsame.segmentIdx.trans hsame'.segmentIdx, hsame.retryIdx.trans hsame'.retryIdx,
    hsame.generator.trans hsame'.generator⟩

theorem sound_buildUnused (hs : Sound eng) (s : Sampler κ ν) (keys : List SegKey) :
    Sound (eng.buildUnused s keys) := by
  induction keys generalizing eng with
  | nil => exact hs
  | cons key keys ih => exact ih (sound_buildRow hs s key)

/-- Inputs that are built and not used leave a segment that has no lane in them, and every segment
where nothing is sampled. -/
theorem carried_buildUnused (hs : Sound eng) (s : Sampler κ ν) (keys : List SegKey)
    (hclean : key ∉ keys ∨ s.doSample = false) : Carried key eng (eng.buildUnused s keys) := by
  induction keys generalizing eng with
  | nil => exact .refl key eng
  | cons key' keys ih =>
      have hfirst : Carried key eng (eng.buildRow s key').2 := by
        rcases hclean with hkey | hsample
        · exact carried_buildRow hs s (List.ne_of_not_mem_cons hkey)
        · exact buildRow_unsampled s hsample key key'
      have hrest := ih (sound_buildRow hs s key')
        (hclean.imp (fun hkey hmem => hkey (List.mem_cons_of_mem _ hmem)) id)
      exact hfirst.trans hrest

/-- The row of a segment on its stream, and where it leaves the segment. -/
theorem buildRow_onStream {s : Sampler κ ν} {a : Attempt} {k n : Nat} {p : KVCachePool κ ξ}
    (hslot : eng.slotOf key = some k) (hp : eng.executor.kvPool = some p)
    (h : OnStream s a (p.slots k) n) :
    (eng.buildRow s key).1 = some (s.rowAt a n) ∧
      ∃ q, (eng.buildRow s key).2.executor.kvPool = some q ∧ OnStream s a (q.slots k) (n + 1) := by
  obtain ⟨hrow, hnext⟩ := h.laneNoise
  unfold buildRow
  rw [hslot, hp]
  refine ⟨congrArg some hrow, _, rfl, ?_⟩
  rw [KVCachePool.setSlot_self]
  exact hnext

end

end EngineLoop

/-! ## The noise of a run -/

namespace SamplingRun

open EngineLoop

/-- What holds of a segment in every run, as long as no graph fails behind the inputs of its attempt: its
steps have seen the rows of the stream of the attempt behind those of the admission, and its slot is where
the next row is. -/
structure Streams (s : Sampler κ ν) (key : SegKey) (r : SamplingRun κ ξ ν) : Prop where
  sound : r.eng.Sound
  noise : r.failedBehind key = false → ∀ a, r.attempts key = some a →
    r.noise key = (List.range (r.noise key).length).map fun i => s.rowAt a (a.offset + i)
  onStream : r.failedBehind key = false → ∀ k p, r.eng.slotOf key = some k →
    r.eng.executor.kvPool = some p →
    ∃ a, r.attempts key = some a ∧ OnStream s a (p.slots k) (a.offset + (r.noise key).length)

section
variable {s : Sampler κ ν} {r : SamplingRun κ ξ ν} {key key' : SegKey}

/-- A step of the engine loop that draws nothing from the generator of a segment. -/
theorem Streams.carried (h : Streams s key r) {eng' : EngineLoop κ ξ} (hs : eng'.Sound)
    (hcarried : Carried key r.eng eng') : Streams s key { r with eng := eng' } := by
  refine ⟨hs, h.noise, ?_⟩
  intro hclean k q hk hq
  obtain ⟨j, p, hj, hp, hsame⟩ := hcarried k q hk hq
  obtain ⟨a, ha, hon⟩ := h.onStream hclean j p hj hp
  exact ⟨a, ha, hon.of_same hsame⟩

/-- The step of a lane. -/
theorem Streams.stepLane (h : Streams s key r) (key' : SegKey) :
    Streams s key (r.stepLane s key') := by
  have hsound := sound_buildRow h.sound s key'
  unfold SamplingRun.stepLane
  dsimp only
  by_cases hkey : key = key'
  · subst hkey
    cases hslot : r.eng.slotOf key with
    | none =>
        have hnone : r.eng.buildRow s key = (none, r.eng) := by
          unfold EngineLoop.buildRow
          rw [hslot]
        rw [hnone]
        refine ⟨h.sound, ?_, ?_⟩
        · intro hclean a ha
          dsimp only
          rw [Function.update_self, Option.toList_none, List.append_nil]
          exact h.noise hclean a ha
        · intro _ k p hk
          rw [hslot] at hk
          cases hk
    | some k =>
        obtain ⟨-, p, hp, -⟩ := h.sound.slotOf hslot
        refine ⟨hsound, ?_, ?_⟩
        · intro hclean a' ha'
          obtain ⟨a, ha, hon⟩ := h.onStream hclean k p hslot hp
          obtain ⟨hrow, -⟩ := buildRow_onStream hslot hp hon
          cases ha.symm.trans ha'
          dsimp only
          rw [hrow, Function.update_self, Option.toList_some, List.length_append,
            List.length_singleton, List.range_succ, List.map_append, ← h.noise hclean _ ha]
          rfl
        · intro hclean k' q' hk' hq'
          obtain ⟨a, ha, hon⟩ := h.onStream hclean k p hslot hp
          obtain ⟨hrow, q, hq, hnext⟩ := buildRow_onStream hslot hp hon
          have hk'' : r.eng.slotOf key = some k' := (slotOf_buildRow s key key).symm.trans hk'
          cases hslot.symm.trans hk''
          cases hq.symm.trans hq'
          refine ⟨a, ha, ?_⟩
          dsimp only
          rw [hrow, Function.update_self, Option.toList_some, List.length_append,
            List.length_singleton, ← Nat.add_assoc]
          exact hnext
  · have hcarried := h.carried hsound (carried_buildRow h.sound s hkey)
    refine ⟨hsound, ?_, ?_⟩
    · intro hclean a ha
      dsimp only
      rw [Function.update_of_ne hkey]
      exact h.noise hclean a ha
    · intro hclean k p hk hp
      dsimp only
      rw [Function.update_of_ne hkey]
      exact hcarried.onStream hclean k p hk hp

/-- A launch. -/
theorem Streams.launch (h : Streams s key r) (keys : List SegKey) (graph : GraphLaunch) :
    Streams s key (r.launch s keys graph) := by
  have hlanes : ∀ (keys : List SegKey) {r : SamplingRun κ ξ ν}, Streams s key r →
      Streams s key (keys.foldl (fun r key => r.stepLane s key) r) := by
    intro keys
    induction keys with
    | nil => exact fun h => h
    | cons key' keys ih => exact fun h => ih (h.stepLane key')
  unfold SamplingRun.launch
  dsimp only
  refine hlanes keys ?_
  split
  · have hkept : (r.failedBehind key || (s.doSample && keys.contains key)) = false →
        r.failedBehind key = false ∧
          Streams s key { r with eng := r.eng.buildUnused s keys } := by
      intro hclean
      rw [Bool.or_eq_false_iff, Bool.and_eq_false_iff] at hclean
      refine ⟨hclean.1, h.carried (sound_buildUnused h.sound s keys)
        (carried_buildUnused h.sound s keys ?_)⟩
      rcases hclean.2 with hsample | hkey
      · exact .inr hsample
      · exact .inl fun hmem => by
          rw [List.contains_iff_mem.2 hmem] at hkey
          cases hkey
    refine ⟨sound_buildUnused h.sound s keys, ?_, ?_⟩
    · intro hclean
      exact (hkept hclean).2.noise (hkept hclean).1
    · intro hclean
      exact (hkept hclean).2.onStream (hkept hclean).1
  · exact h

/-- An admission puts a segment at the start of the stream of its attempt. -/
theorem Streams.startAttempt (h : Streams s key r) (key' : SegKey) (samplingIdentity : Option Text) (now : Int)
    (path : AdmissionPath) : Streams s key (r.startAttempt s key' samplingIdentity now path) := by
  have hsound := sound_admit h.sound key' samplingIdentity now
  unfold SamplingRun.startAttempt
  dsimp only
  split
  · rename_i seg k hseg hslot hk
    have hbuilt : Sound (if path.prefills then
        ((r.eng.admitSegment key' samplingIdentity now).buildRow s key').2
        else r.eng.admitSegment key' samplingIdentity now) := by
      split
      · exact sound_buildRow hsound s key'
      · exact hsound
    by_cases hkey : key = key'
    · subst hkey
      refine ⟨hbuilt, ?_, ?_⟩
      · intro _ a _
        dsimp only
        rw [Function.update_self]
        rfl
      · intro _ k' q hk' hq
        refine ⟨_, Function.update_self .., ?_⟩
        dsimp only
        rw [Function.update_self, List.length_nil, Nat.add_zero]
        unfold Attempt.offset
        dsimp only at hk' hq ⊢
        obtain ⟨-, p, hp, -⟩ := hsound.slotOf hk
        have hstart := onStream_admitSegment (s := s) hseg hslot hk hp path.prefills
        split at hk'
        · next hprefills =>
          rw [if_pos hprefills] at hq ⊢
          obtain ⟨-, q', hq', hnext⟩ := buildRow_onStream hk hp hstart
          have hk'' := (slotOf_buildRow s key key).symm.trans hk'
          cases hk.symm.trans hk''
          cases hq'.symm.trans hq
          exact hnext
        · next hprefills =>
          rw [if_neg hprefills] at hq ⊢
          cases hk.symm.trans hk'
          cases hp.symm.trans hq
          exact hstart
    · have hcarried : Carried key r.eng (if path.prefills then
          ((r.eng.admitSegment key' samplingIdentity now).buildRow s key').2
          else r.eng.admitSegment key' samplingIdentity now) := by
        split
        · exact (carried_admitSegment h.sound hkey samplingIdentity now).trans
            (carried_buildRow hsound s hkey)
        · exact carried_admitSegment h.sound hkey samplingIdentity now
      have hkept := h.carried hbuilt hcarried
      refine ⟨hbuilt, ?_, ?_⟩
      · intro hclean a ha
        dsimp only at hclean ha ⊢
        rw [Function.update_of_ne hkey] at hclean ha ⊢
        exact h.noise hclean a ha
      · intro hclean k' q hk' hq
        dsimp only at hclean ⊢
        rw [Function.update_of_ne hkey] at hclean
        rw [Function.update_of_ne hkey, Function.update_of_ne hkey]
        exact hkept.onStream hclean k' q hk' hq
  · exact h

/-- Every step keeps a segment on its stream. -/
theorem Streams.step (h : Streams s key r) (event : SamplingEvent κ ξ) :
    Streams s key (r.step s event) := by
  cases event with
  | opens key' => exact h.carried (sound_step h.sound (.opens key')) (carried_opens key key')
  | updates key' active countersValid retryIdx =>
      exact h.carried (sound_step h.sound (.updates key' active countersValid retryIdx))
        (carried_updates key key' active countersValid retryIdx)
  | admits key' samplingIdentity now path => exact h.startAttempt key' samplingIdentity now path
  | writes key' left =>
      refine h.carried ?_ (carried_write h.sound r rfl key key' left)
      unfold SamplingRun.write
      split
      · exact sound_decode h.sound key' _
      · exact h.sound
  | launches keys graph => exact h.launch keys graph
  | releases key' =>
      exact h.carried (sound_step h.sound (.releases key')) (carried_releases h.sound key key')
  | drops key' => exact h.carried (sound_step h.sound (.drops key')) (carried_drops key key')
  | migrates request env =>
      exact h.carried (sound_step h.sound (.migrates request env))
        (carried_migrates h.sound key request env)

end

/-- The run of an engine loop that starts. -/
structure Starts (r : SamplingRun κ ξ ν) : Prop where
  eng : ∃ e pool supportsPauseResume transfer modelFingerprint runtimeFingerprint,
    r.eng = EngineLoop.start e pool supportsPauseResume transfer modelFingerprint runtimeFingerprint
  attempts : ∀ key, r.attempts key = none

theorem Starts.streams {r : SamplingRun κ ξ ν} (h : r.Starts) (s : Sampler κ ν) (key : SegKey) :
    Streams s key r := by
  obtain ⟨e, pool, supportsPauseResume, transfer, modelFingerprint, runtimeFingerprint, heng⟩ := h.eng
  refine ⟨?_, ?_, ?_⟩
  · rw [heng]
    exact sound_start ..
  · intro _ a ha
    rw [h.attempts key] at ha
    cases ha
  · intro _ k p hk
    rw [heng] at hk
    cases hk

/-- **Every step of an attempt is given the next row of its stream.** In every run, as long as no graph
fails behind the inputs of the attempt, the rows of its decode steps are those of the stream its seed
gives, behind the one its admission has drawn if it ran `prefill`. -/
theorem noise_of_stream {r : SamplingRun κ ξ ν} (h : r.Starts) (s : Sampler κ ν)
    (events : List (SamplingEvent κ ξ)) (key : SegKey) : Streams s key (run (step s) r events) :=
  run_invariant (h.streams s key) (fun _ event hstreams => hstreams.step event) events

end SamplingRun

/-! ## Two runs -/

/-- What names an attempt is the same, and so is whether its admission ran `prefill`. -/
structure SameAttempt (a a' : Attempt) : Prop where
  samplingIdentity : a'.samplingIdentity = a.samplingIdentity
  sessionId : a.samplingIdentity = none → a'.sessionId = a.sessionId
  segmentIdx : a'.segmentIdx = a.segmentIdx
  retryIdx : a'.retryIdx = a.retryIdx
  prefilled : a'.prefilled = a.prefilled

/-- One stream. -/
theorem SameAttempt.rowAt {a a' : Attempt} (h : SameAttempt a a') (s : Sampler κ ν) (n : Nat) :
    s.rowAt a' n = s.rowAt a n := by
  have hseed : s.seedOf a' = s.seedOf a := by
    unfold Sampler.seedOf
    rw [h.samplingIdentity, h.segmentIdx, h.retryIdx]
    cases hidentity : a.samplingIdentity with
    | some identity => rfl
    | none => rw [h.sessionId hidentity]
  unfold Sampler.rowAt
  rw [hseed]

/-- **The noise of an attempt does not depend on what is around it.** In two runs that decode the same
attempt, admitted with `prefill` in both or in neither, its steps of the same number are given the same
rows, if in neither run a graph has failed behind the inputs of the attempt. -/
theorem noise_independent (s : Sampler κ ν) {r r' : SamplingRun κ ξ ν} (h : r.Starts) (h' : r'.Starts)
    (events events' : List (SamplingEvent κ ξ)) (key key' : SegKey) {a a' : Attempt}
    (ha : (run (SamplingRun.step s) r events).attempts key = some a)
    (ha' : (run (SamplingRun.step s) r' events').attempts key' = some a') (hsame : SameAttempt a a')
    (hclean : (run (SamplingRun.step s) r events).failedBehind key = false)
    (hclean' : (run (SamplingRun.step s) r' events').failedBehind key' = false) (n : Nat)
    {row row' : Noise ν} (hrow : ((run (SamplingRun.step s) r events).noise key)[n]? = some row)
    (hrow' : ((run (SamplingRun.step s) r' events').noise key')[n]? = some row') : row' = row := by
  have hstream := (SamplingRun.noise_of_stream h s events key).noise hclean a ha
  have hstream' := (SamplingRun.noise_of_stream h' s events' key').noise hclean' a' ha'
  have hoffset : a'.offset = a.offset := by
    unfold Attempt.offset
    rw [hsame.prefilled]
  rw [hstream, List.getElem?_map, Option.map_eq_some_iff] at hrow
  rw [hstream', List.getElem?_map, Option.map_eq_some_iff] at hrow'
  obtain ⟨i, hi, rfl⟩ := hrow
  obtain ⟨i', hi', rfl⟩ := hrow'
  obtain ⟨-, rfl⟩ := List.getElem?_eq_some_iff.1 hi
  obtain ⟨-, rfl⟩ := List.getElem?_eq_some_iff.1 hi'
  rw [List.getElem_range, List.getElem_range, hoffset]
  exact hsame.rowAt s _

/-! ## A row that is lost -/

/-- A generator that counts its draws. -/
def countingSampler : Sampler Nat Nat where
  randomSeed := 0
  device := 0
  doSample := true
  logitsTopk := 1
  cpNumStages := 1
  zeros _ := 0
  stableSamplingSeed _ _ := 0
  manualSeed _ := ⟨[], float32, 0⟩
  rand _ state := (state.values, { state with values := state.values + 1 })

/-- An engine loop with a pool of one slot. -/
def oneSlotRun : SamplingRun Nat Unit Nat where
  eng := EngineLoop.start (oneFrameExecutor 1)
    (some (1, ⟨⟨1, 1, 1, float32⟩, 8, ⟨1, 1, 1, float32⟩, 8, 0⟩, false)) false .exact [] []

/-- A segment is admitted from a cached prefix, and decoded once. -/
def oneStep (graph : GraphLaunch) : List (SamplingEvent Nat Unit) :=
  [.opens (['s'], 0), .admits (['s'], 0) (some ['r']) 0 .serialHit, .launches [(['s'], 0)] graph]

theorem oneSlotRun_starts : oneSlotRun.Starts :=
  ⟨⟨_, _, _, _, _, _, rfl⟩, fun _ => rfl⟩

/-- Without a graph and with one that is replayed, the step is given the same row. -/
theorem noise_independent_one : ∃ row row',
    ((run (SamplingRun.step countingSampler) oneSlotRun (oneStep .unused)).noise (['s'], 0))[0]? =
        some row ∧
      ((run (SamplingRun.step countingSampler) oneSlotRun (oneStep .replayed)).noise (['s'], 0))[0]? =
        some row' ∧ row' = row :=
  ⟨(0, 1), (0, 1), rfl, rfl, noise_independent countingSampler oneSlotRun_starts oneSlotRun_starts
    (oneStep .unused) (oneStep .replayed) (['s'], 0) (['s'], 0) rfl rfl
    ⟨rfl, fun _ => rfl, rfl, rfl, rfl⟩ rfl rfl 0 rfl rfl⟩

/-- A graph that fails behind the inputs of the first step takes the row of the attempt away. -/
theorem graph_failure_shifts :
    (run (SamplingRun.step countingSampler) oneSlotRun (oneStep .failsBehind)).attempts (['s'], 0) =
        (run (SamplingRun.step countingSampler) oneSlotRun (oneStep .replayed)).attempts (['s'], 0) ∧
      ((run (SamplingRun.step countingSampler) oneSlotRun (oneStep .replayed)).noise (['s'], 0))[0]? =
        some (0, 1) ∧
      ((run (SamplingRun.step countingSampler) oneSlotRun (oneStep .failsBehind)).noise
        (['s'], 0))[0]? = some (2, 3) :=
  ⟨rfl, rfl, rfl⟩

end StreamingTts.Engine.Pooled
