import Mathlib.Data.List.Sort
import StreamingTts.Engine.Loop

/-!
# Admission

`_try_prefill_pending` of `engine/backend/engine_loop.py`: the pending segments get a slot and become
active, first in one batch those with an entry in the prefix cache, then one by one the others. A call
of the builder or of the executor may raise, and the state stays as it is at that point;
`_cleanup_failed_prefills` then clears up. What those calls do is given by the environment.
-/

namespace StreamingTts.Engine

open Frontend (Text UnicodeData)

/-- Where the batch admission raises. -/
inductive BatchFault
  /-- in `build_suffix_batch`, or while the zero states are taken -/
  | suffix
  /-- while the cached prefixes are copied into the slots -/
  | restore
  /-- while the segment of that number is primed -/
  | prime (i : Nat)
  deriving DecidableEq, Repr

/-- What the calls of one serial admission do. -/
structure PrefillEnv where
  /-- the builder raises -/
  buildFault : Bool := false
  /-- the executor raises -/
  executeFault : Bool := false
  /-- `adopt_c2w_states` raises -/
  adoptFault : Bool := false
  /-- the frame index that `apply_c2w_warm_state` sets -/
  warmFrameIdx : Option Int := none
  /-- the codec sum, the audio and the EOS flag that `prefill` returns -/
  codecSum : Option Nat := none
  audio : Option Audio := none
  eos : Bool := false

/-- What happens during one admission pass. -/
structure AdmissionEnv where
  now : Time
  batchFault : Option BatchFault := none
  serial : List PrefillEnv := []

/-- How `_try_prefill_one` ends. -/
inductive PrefillStatus
  | stopped
  | admitted
  | raised
  deriving DecidableEq, Repr

namespace EngineLoop

variable {u : UnicodeData} (cfg : EngineConfig u) (s : EngineLoop)

/-- A slot for a segment: the allocation, and the two tables that say whose it is. -/
def takeSlot (r : Nat) (now : Time) : Option (Nat × EngineLoop) :=
  match s.pool.allocate (segKey (s.segAt r).sessionId (s.segAt r).segmentIdx) now with
  | none => none
  | some (k, pool) =>
      some (k,
        { s with
          pool := pool.modify k fun slot =>
            { slot with segmentIdx := (s.segAt r).segmentIdx, retryIdx := (s.segAt r).retryIdx }
          segBySlot := Function.update s.segBySlot k (some r)
          segAt := Function.update s.segAt r
            { s.segAt r with
              slot := some k
              mlfqMeta :=
                { (s.segAt r).mlfqMeta with level := 0, decodeSteps := 0, stepsSinceSchedule := 0 } } })

/-- `_record_audio_health`, as far as the segment goes. -/
def recordAudioHealth (r : Nat) (audio : Audio) : EngineLoop :=
  s.modifySeg r fun seg =>
    { seg with
      audioFramesSeen := seg.audioFramesSeen + 1
      audibleFrameSeen := seg.audibleFrameSeen || cfg.classifyAudioChunk audio = .audible }

/-- `_prime_decode_after_prefix_prefill`. -/
def primeDecode (k : Nat) (request trailing : List Embed) (source : PrefillSource) : EngineLoop :=
  s.modifySlot k fun slot =>
    { slot with
      prefillSource := source
      frameIdx := 0
      padStartFrame := -1
      padConsecutiveSilence := 0
      nextEmbed := request.head?
      lastCodecSum := none
      trailing := trailing
      textIdx := 0 }

/-- The activation of a segment at the head of `_complete_prefill`, up to the `PREFILL_DONE`. -/
def activateSegment (g r k : Nat) : EngineLoop :=
  (s.modifySeg r fun seg =>
    { seg with
      state := .active
      decodeStartFrame := (s.slotAt k).frameIdx
      cacheHit := (s.slotAt k).prefillSource = .prefixCachePrefixOnly }).sendSegment g r .prefillDone

/-- `_complete_prefill`. -/
def completePrefill (g r k : Nat) (audio : Option Audio) (eos : Bool) : EngineLoop :=
  let s := s.activateSegment g r k
  match audio with
  | some (byte :: bytes) =>
      let s := s.recordAudioHealth cfg r (byte :: bytes)
      if cfg.classifyAudioChunk (byte :: bytes) = .invalid then
        s.retryOrEnd cfg g r .invalidAudio
          { eosReason := some .invalidAudioAbort
            discardAllAudio := (s.segAt r).audibleFrameSeen = false }
      else
        let s := s.sendSegment g r (.audioChunk (byte :: bytes))
        if eos then s.handleNaturalEos cfg g r else s
  | _ => if eos then s.handleNaturalEos cfg g r else s

/-! ## Cache hits in one batch -/

/-- `_prefix_cache_admittable`: the answer, and the loop with the probe remembered. -/
def prefixCacheAdmittable (b : PrefillBuilder u) (g r : Nat) : Bool × EngineLoop :=
  if (s.segAt r).prefixProbeDone then (s.prefixCache.contains (s.segAt r).prefixProbeKey, s)
  else
    let probed := s.modifySeg r fun seg => { seg with prefixProbeDone := true }
    match (s.groupAt g).setup.parsedTaskType with
    | none | some .voiceCloneIcl => (false, probed)
    | some taskType =>
        let key := b.computeCacheKey ((s.groupAt g).setup.promptConfig taskType)
        (s.prefixCache.contains key, probed.modifySeg r fun seg => { seg with prefixProbeKey := key })

/-- A segment that admission may look at. -/
def admissible (r : Nat) : Bool :=
  (s.segAt r).state = .pendingPrefill && !(s.segAt r).pendingTokenIds.isEmpty

/-- The pending segments of the sessions with a slot to spare. -/
def candidates : List (Nat × Nat) :=
  (s.groups.values.filter fun g => s.activeSlotCount g < cfg.maxSlotsPerSession).flatMap fun g =>
    ((s.segmentsOf g).filter s.admissible).map fun r => (r, g)

/-- The walk over the candidates in priority order. A miss uses the budget up as well, so that a slot
stays free for the serial pass. -/
def pickHits (b : PrefillBuilder u) :
    List (Nat × Nat) → Nat → List (Nat × Nat) → EngineLoop → List (Nat × Nat) × EngineLoop
  | [], _, picked, s => (picked, s)
  | _ :: _, 0, picked, s => (picked, s)
  | (r, g) :: rest, budget + 1, picked, s =>
      if cfg.maxSlotsPerSession ≤ s.activeSlotCount g + picked.countP (fun pair => pair.2 = g) then
        pickHits b rest (budget + 1) picked s
      else
        let (hit, s) := s.prefixCacheAdmittable b g r
        pickHits b rest budget (if hit then picked ++ [(r, g)] else picked) s

/-- The allocation loop of `_admit_picked`: it ends where the pool is full. -/
def takeSlots (now : Time) : List (Nat × Nat) → EngineLoop → List (Nat × Nat) × EngineLoop
  | [], s => ([], s)
  | (r, g) :: rest, s =>
      match s.takeSlot r now with
      | none => ([], s)
      | some (_, s) =>
          let (admitted, s) := takeSlots now rest s
          ((r, g) :: admitted, s)

/-- The copy of a cached prefix into the slot of a segment; a segment whose entry is gone goes back to
the serial pass. -/
def restoreHit (r : Nat) : EngineLoop :=
  match s.prefixCache.get (s.segAt r).prefixProbeKey with
  | (none, cache) => { s with prefixCache := cache }.releaseSegmentSlot r
  | (some rows, cache) =>
      let s := { s with prefixCache := cache }
      match (s.segAt r).slot with
      | none => s
      | some k =>
          (s.modifySlot k fun slot => { slot with pastLen := rows.length }).modifySeg r fun seg =>
            { seg with cacheTokensReused := rows.length }

/-- The assembly of one admitted hit. -/
def completeHit (g r : Nat) (suffix : List Embed × List Embed) : EngineLoop :=
  match (s.segAt r).slot with
  | none => s
  | some k =>
      ((s.primeDecode k suffix.1 suffix.2 .prefixCachePrefixOnly).modifySeg r fun seg =>
        { seg with eosTrailingAdded := seg.inputComplete }).completePrefill cfg g r k none false

/-- The assembly loop of `_admit_picked`, and whether it was cut short by an error. -/
def completeHits (fault : Option BatchFault) :
    Nat → List ((Nat × Nat) × (List Embed × List Embed)) → EngineLoop → EngineLoop × Bool
  | _, [], s => (s, false)
  | i, ((r, g), suffix) :: rest, s =>
      if fault = some (.prime i) then (s, true)
      else completeHits fault (i + 1) rest (s.completeHit cfg g r suffix)

/-- `_admit_picked`. -/
def admitPicked (b : PrefillBuilder u) (env : AdmissionEnv) (picked : List (Nat × Nat)) :
    EngineLoop × Bool :=
  let (admitted, s) := takeSlots env.now picked s
  if admitted = [] then (s, false)
  else if env.batchFault = some .suffix then (s, true)
  else
    let suffixes := b.buildSuffixBatch (admitted.map fun pair => (s.segAt pair.1).pendingTokenIds)
      (admitted.map fun pair => (s.segAt pair.1).inputComplete)
    let s := (admitted.map Prod.fst).foldl restoreHit s
    if env.batchFault = some .restore then (s, true)
    else completeHits cfg env.batchFault 0 (admitted.zip suffixes) s

/-- `_admit_cache_hit_batch`. -/
def admitCacheHitBatch (env : AdmissionEnv) : EngineLoop × Bool :=
  match cfg.prefillBuilder with
  | none => (s, false)
  | some b =>
      let byPriority := (s.candidates cfg).insertionSort fun x y =>
        (s.segAt x.1).priority.value ≤ (s.segAt y.1).priority.value
      let (picked, s) := pickHits cfg b byPriority (min s.pool.freeCount cfg.maxBatch) [] s
      if picked = [] then (s, false) else s.admitPicked cfg b env picked

/-! ## One at a time -/

/-- The choice of `_try_prefill_one`: the first of the most urgent pending segments. -/
def bestPending : Option (Nat × Nat) :=
  (s.candidates cfg).foldl
    (fun best pair =>
      match best with
      | none => some pair
      | some old =>
          if (s.segAt pair.1).priority.value < (s.segAt old.1).priority.value then some pair else best)
    none

/-- `executor.prefill` on the slot. -/
def executorPrefill (k : Nat) (rows : Nat) (env : PrefillEnv) : EngineLoop :=
  s.modifySlot k fun slot =>
    { slot with
      pastLen := rows
      frameIdx := slot.frameIdx + 1
      nextEmbed := (env.codecSum.map Embed.codecSum).or slot.nextEmbed
      lastCodecSum := if env.codecSum.isSome then none else slot.lastCodecSum }

/-- `_attach_trailing_after_prefill`. -/
def attachTrailing (k : Nat) (trailing : List Embed) : EngineLoop :=
  s.modifySlot k fun slot =>
    match slot.nextEmbed, trailing with
    | some embed, first :: _ =>
        { slot with trailing := trailing, nextEmbed := some (embed + first), textIdx := 1 }
    | _, _ => { slot with trailing := trailing }

/-- The `WARNING`s of an admission. -/
def sendWarnings (g r : Nat) (messages : List Text) : EngineLoop :=
  messages.foldl (fun s message => s.sendSegment g r (.warning message)) s

/-- A segment whose text, with the end marker if the text is complete, is on its slot. -/
def markEosAdded (r : Nat) : EngineLoop :=
  s.modifySeg r fun seg => { seg with eosTrailingAdded := seg.inputComplete }

/-- A serial cache hit, up to `_complete_prefill`. -/
def serialHit (b : PrefillBuilder u) (r k : Nat) (rows : List Embed) : EngineLoop :=
  let suffix := b.buildSuffixFromIds (s.segAt r).pendingTokenIds (s.segAt r).inputComplete
  (((s.modifySeg r fun seg => { seg with cacheTokensReused := rows.length }).modifySlot k fun slot =>
    { slot with pastLen := rows.length }).primeDecode k suffix.1 suffix.2
      .prefixCachePrefixOnly).markEosAdded r

/-- The executor's part of a cache miss, the entry it leaves in the cache and the text on the slot. -/
def executeMiss (r k : Nat) (taskType : TaskType) (plan : PrefillPlan) (cacheKey : Option Text)
    (env : PrefillEnv) : EngineLoop :=
  let split := plan.splitPrefixPrefill taskType
  let prefilled :=
    if split then
      s.modifySlot k fun slot => { slot with pastLen := (plan.cacheablePrefixEmbeds.getD []).length }
    else
      (if taskType = .voiceCloneIcl then
        s.modifySlot k fun slot => { slot with frameIdx := env.warmFrameIdx.getD slot.frameIdx }
      else s).executorPrefill k plan.prefillEmbeds.length env
  let stored :=
    match decide (taskType ≠ .voiceCloneIcl), plan.cacheablePrefixEmbeds with
    | true, some rows =>
        { prefilled with
          prefixCache := prefilled.prefixCache.put (plan.prefixCacheKey.or cacheKey) rows }
    | _, _ => prefilled
  (if split then
    stored.primeDecode k (plan.requestPrefillEmbeds.getD []) plan.trailing .fullPrefillPrefixOnly
  else stored.attachTrailing k plan.trailing).markEosAdded r

/-- The end of a serial admission: `adopt_c2w_states` and `_complete_prefill`. -/
def finishAdmission (g r k : Nat) (audio : Option Audio) (eos : Bool) (env : PrefillEnv) :
    EngineLoop × PrefillStatus :=
  if env.adoptFault then (s, .raised) else (s.completePrefill cfg g r k audio eos, .admitted)

/-- A session with an unknown task type: its segment gives the slot back, and it ends with an error. -/
def rejectTaskType (g r k : Nat) : EngineLoop :=
  let s := s.modifySeg r fun seg => { seg with state := .error }
  let s :=
    { s with
      segBySlot := Function.update s.segBySlot k none
      pool := s.pool.releaseOwn k }
  let s := s.modifySeg r fun seg => { seg with slot := none }
  (s.sendSegment g r
    (.error ("Unknown task_type: ".toList ++ (s.groupAt g).setup.taskType))).removeSession
      (s.segAt r).sessionId

/-- The part of `_try_prefill_one` that follows the allocation, with a builder. -/
def admitSerial (b : PrefillBuilder u) (g r k : Nat) (env : PrefillEnv) :
    EngineLoop × PrefillStatus :=
  match (s.groupAt g).setup.parsedTaskType with
  | none => (s.rejectTaskType g r k, .stopped)
  | some taskType =>
      let setup := (s.groupAt g).setup
      let config := setup.promptConfig taskType
      let (cacheKey, cached, cache) :=
        if taskType = .voiceCloneIcl then (none, none, s.prefixCache)
        else
          let key := b.computeCacheKey config
          (key, s.prefixCache.get key)
      let s := { s with prefixCache := cache }
      match cached with
      | some rows =>
          if env.buildFault then (s, .raised)
          else (s.serialHit b r k rows).finishAdmission cfg g r k none false env
      | none =>
          match env.buildFault,
              b.buildPlanFromIds config (s.segAt r).pendingTokenIds (s.segAt r).inputComplete with
          | false, .ok plan =>
              let s := (s.modifySlot k fun slot =>
                { slot with prefillSource := .fullPrefill }).sendWarnings g r
                  (setup.refWarnings ++ plan.warnings)
              if env.executeFault then (s, .raised)
              else
                let s := s.executeMiss r k taskType plan cacheKey env
                if plan.splitPrefixPrefill taskType then s.finishAdmission cfg g r k none false env
                else s.finishAdmission cfg g r k env.audio env.eos env
          | _, _ => (s, .raised)

/-- `_try_prefill_one`. -/
def tryPrefillOne (now : Time) (env : PrefillEnv) : EngineLoop × PrefillStatus :=
  if s.pool.freeCount = 0 then (s, .stopped)
  else match s.bestPending cfg with
    | none => (s, .stopped)
    | some (r, g) =>
        match s.takeSlot r now with
        | none => (s, .stopped)
        | some (k, s) =>
            match cfg.prefillBuilder with
            | some b => s.admitSerial cfg b g r k env
            | none =>
                if env.executeFault then (s, .raised)
                else (s.executorPrefill k 1 env).finishAdmission cfg g r k env.audio env.eos env

/-- The serial loop of `_try_prefill_pending`, and whether an error ended it. -/
def prefillSerial (now : Time) : Nat → List PrefillEnv → EngineLoop → EngineLoop × Bool
  | 0, _, s => (s, false)
  | _, [], s => (s, false)
  | n + 1, env :: rest, s =>
      match s.tryPrefillOne cfg now env with
      | (s, .stopped) => (s, false)
      | (s, .admitted) => prefillSerial now n rest s
      | (s, .raised) => (s, true)

/-- `_try_prefill_pending`, and whether it raised. -/
def tryPrefillPending (env : AdmissionEnv) : EngineLoop × Bool :=
  match s.admitCacheHitBatch cfg env with
  | (s, true) => (s, true)
  | (s, false) => prefillSerial cfg env.now cfg.maxBatch env.serial s

/-- The sessions that hold a slot for a segment that is still pending. -/
def failedPrefills : List (Nat × Nat) :=
  s.groups.values.filterMap fun g =>
    ((s.segmentsOf g).find? fun r =>
      (s.segAt r).state = .pendingPrefill && (s.segAt r).slot.isSome).map fun r => (g, r)

/-- `_cleanup_failed_prefills`. -/
def cleanupFailedPrefills : EngineLoop :=
  let failed := s.failedPrefills
  let s := failed.foldl
    (fun s pair => s.sendSegment pair.1 pair.2 (.error "Prefill failed unexpectedly".toList)) s
  failed.foldl (fun s pair => s.removeSession (s.groupAt pair.1).sessionId) s

/-- Phase 2 of the loop. -/
def prefillPhase (env : AdmissionEnv) : EngineLoop :=
  match s.tryPrefillPending cfg env with
  | (s, true) => s.cleanupFailedPrefills
  | (s, false) => s

end EngineLoop

end StreamingTts.Engine
