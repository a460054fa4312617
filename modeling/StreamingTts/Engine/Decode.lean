import StreamingTts.Engine.Admission

/-!
# Decode steps

`_get_active_slots_mlfq`, the launch of a decode step, and `_process_step_output` of
`engine/backend/engine_loop.py`, with the scheduler of `engine/core/mlfq.py`. Between the launch and
the output only requests, evictions and timeouts are handled.
-/

namespace StreamingTts.Engine

open Frontend (Text UnicodeData)

/-! ## The scheduler -/

namespace MLFQMeta

/-- `MLFQScheduler.on_step_done`. -/
def onStepDone {u : UnicodeData} (cfg : EngineConfig u) (m : MLFQMeta) : MLFQMeta :=
  let steps := m.decodeSteps + 1
  { m with
    decodeSteps := steps
    level :=
      if m.level = 0 ∧ cfg.q1Threshold ≤ steps then 1
      else if m.level = 1 ∧ cfg.q2Threshold ≤ steps then 2
      else m.level }

/-- `MLFQScheduler.on_scheduled`, as far as the segment goes. -/
def onScheduled (globalStep : Nat) (m : MLFQMeta) : MLFQMeta :=
  { m with lastScheduledAt := globalStep, stepsSinceSchedule := 0 }

end MLFQMeta

namespace EngineLoop

variable {u : UnicodeData} (cfg : EngineConfig u) (s : EngineLoop)

/-- The order and the limit of `MLFQScheduler.select_batch`. -/
def batchOf (candidates : List Nat) : List Nat :=
  let level r := min 2 (s.segAt r).mlfqMeta.level
  ((candidates.filter fun r => level r = 0) ++ (candidates.filter fun r => level r = 1)
    ++ candidates.filter fun r => level r = 2).take cfg.maxBatch

/-- `MLFQScheduler.select_batch`: the batch, and the loop with its members marked. -/
def selectBatch (candidates : List Nat) : List Nat × EngineLoop :=
  let batch := s.batchOf cfg candidates
  (batch,
    { batch.foldl (fun s r => s.modifySeg r fun seg =>
        { seg with mlfqMeta := seg.mlfqMeta.onScheduled s.globalStep }) s with
      scheduledThisStep := s.scheduledThisStep ++ batch })

/-- The active segments. -/
def activeSegments : List Nat := s.allSegments.filter fun r => (s.segAt r).state = .active

/-- `MLFQScheduler.tick`. -/
def tick : EngineLoop :=
  let aged := s.activeSegments.foldl
    (fun t r =>
      if s.scheduledThisStep.contains r then t
      else t.modifySeg r fun seg =>
        { seg with mlfqMeta :=
          { seg.mlfqMeta with stepsSinceSchedule := seg.mlfqMeta.stepsSinceSchedule + 1 } }) s
  let next := { aged with scheduledThisStep := [], globalStep := s.globalStep + 1 }
  if 0 < cfg.agingInterval ∧ next.globalStep % cfg.agingInterval = 0 then
    s.activeSegments.foldl
      (fun t r =>
        if 2 ≤ (t.segAt r).mlfqMeta.level
            ∧ cfg.starvationLimit ≤ (t.segAt r).mlfqMeta.stepsSinceSchedule then
          t.modifySeg r fun seg =>
            { seg with mlfqMeta := { seg.mlfqMeta with level := 0, stepsSinceSchedule := 0 } }
        else t) next
  else next

/-! ## The launch of a step -/

/-- The slot of a segment that was left without an input although text is there: the text alone is its
next input. -/
def directInput (slot : SlotKVState) : SlotKVState :=
  match slot.nextEmbed, slot.trailing[slot.textIdx]? with
  | none, some text => { slot with nextEmbed := some text, textIdx := slot.textIdx + 1 }
  | _, _ => slot

/-- Where a segment stands when the next batch is collected. -/
inductive Readiness
  /-- not active -/
  | idle
  /-- at the end of its KV budget -/
  | full
  /-- active, with the slot it decodes in -/
  | live (k : Nat)

/-- The cases of the loop of `_get_active_slots_mlfq`. -/
def readiness (r : Nat) : Readiness :=
  match (s.segAt r).state, (s.segAt r).slot with
  | .active, some k => if cfg.maxSeqLen ≤ (s.slotAt k).pastLen then .full else .live k
  | _, _ => .idle

/-- The segments at the end of their KV budget, with their groups. -/
def fullSegments : List (Nat × Nat) :=
  s.groups.values.flatMap fun g =>
    ((s.segmentsOf g).filter fun r => match s.readiness cfg r with
      | .full => true
      | _ => false).map fun r => (g, r)

/-- The input of one segment of the loop of `_get_active_slots_mlfq`. -/
def readySegment (r : Nat) : EngineLoop :=
  match s.readiness cfg r with
  | .live k => s.modifySlot k directInput
  | _ => s

/-- The segments that have an input and may join the batch. -/
def readySegments : List Nat :=
  s.allSegments.filter fun r => match s.readiness cfg r with
    | .live k => (s.slotAt k).nextEmbed.isSome
    | _ => false

/-- A segment at the end of its KV budget: a runaway is run again or aborted, another one ends. -/
def endFullSegment (g r : Nat) : EngineLoop :=
  let audioSteps := s.audioSteps r
  let textTokens := max 1 (s.segAt r).textTokensConsumed
  if cfg.lengthRunaway audioSteps textTokens then
    s.retryOrEnd cfg g r .length
      { eosReason := some .lengthAbort
        abortTailFrames := max 1 (audioSteps - cfg.expectedFrames textTokens)
        discardAllAudio := (s.segAt r).audibleFrameSeen = false }
  else s.handleSegmentEos g r { overflow := true }

/-- The row of a decode step for a segment. -/
def launchRow (r : Nat) : Option Launch := do
  let k ← (s.segAt r).slot
  let input ← (s.slotAt k).nextEmbed
  pure ⟨r, (s.segAt r).retryIdx, input⟩

/-- Phase 3 of the loop: `_get_active_slots_mlfq` and `launch_decode_step`. -/
def launchStep : EngineLoop :=
  let ready := s.allSegments.foldl (fun s r => s.readySegment cfg r) s
  let candidates := ready.readySegments cfg
  let ended := (s.fullSegments cfg).foldl (fun s pair => s.endFullSegment cfg pair.1 pair.2) ready
  let (batch, chosen) := ended.selectBatch cfg candidates
  if batch = [] then chosen
  else
    { chosen with
      launched := chosen.launched ++ batch.filterMap chosen.launchRow
      inFlight := batch.filterMap fun r => (chosen.segAt r).slot }

/-! ## The output of a step -/

/-- The text half of the next input of a slot, after a step that returned a codec sum. -/
def advanceText (slot : SlotKVState) (codecSum : Nat) (inputComplete : Bool) : SlotKVState :=
  match slot.trailing[slot.textIdx]? with
  | some text =>
      { slot with
        textIdx := slot.textIdx + 1
        padStartFrame := -1
        padConsecutiveSilence := 0
        lastCodecSum := none
        nextEmbed := some (.codecSum codecSum + text) }
  | none =>
      if inputComplete then
        { slot with
          lastCodecSum := none
          padStartFrame := if slot.padStartFrame < 0 then slot.frameIdx else slot.padStartFrame
          nextEmbed := some (.codecSum codecSum + .ttsPad) }
      else
        { slot with
          lastCodecSum := some codecSum
          nextEmbed := none
          padStartFrame := -1
          padConsecutiveSilence := 0 }

/-- The slot after its row of a step. -/
def advanceSlot (slot : SlotKVState) (row : StepRow) (inputComplete : Bool) (now : Time) :
    SlotKVState :=
  let slot :=
    { slot with
      pastLen := slot.pastLen + 1
      frameIdx := if row.eosFlag then slot.frameIdx else slot.frameIdx + 1
      lastActiveTime := now }
  if row.eosFlag then { slot with nextEmbed := none, lastCodecSum := none }
  else match row.codecSum with
    | some codecSum => advanceText slot codecSum inputComplete
    | none => { slot with nextEmbed := none }

/-- `in_pad`: the step's next text is a pad. -/
def inPad (slot : SlotKVState) (row : StepRow) (inputComplete : Bool) : Bool :=
  !row.eosFlag && row.codecSum.isSome && slot.trailing.length ≤ slot.textIdx && inputComplete

/-- The token-loop counters of a segment after a token. -/
def countToken (seg : EngineSegment) (token : Int) : EngineSegment :=
  let seg :=
    if token = seg.loopToken then { seg with loopRun := seg.loopRun + 1 }
    else
      { seg with
        loopRecoveryCount :=
          if 0 < cfg.tokenLoopSuspectFrames ∧ cfg.tokenLoopSuspectFrames ≤ seg.loopRun then
            seg.loopRecoveryCount + 1
          else seg.loopRecoveryCount
        loopToken := token
        loopRun := 1 }
  { seg with
    loopMaxRun := max seg.loopMaxRun seg.loopRun
    loopSuspectCount :=
      if 0 < cfg.tokenLoopSuspectFrames ∧ seg.loopRun = cfg.tokenLoopSuspectFrames then
        seg.loopSuspectCount + 1
      else seg.loopSuspectCount }

/-- `confirmed or emergency` of the token-loop guard. -/
def loopDetected (r : Nat) : Bool :=
  let seg := s.segAt r
  let audioSteps := max 0 (s.audioSteps r)
  let progressReady :=
    cfg.loopRatioOff || (seg.inputComplete
      && (seg.textTokensConsumed = 0 || cfg.loopRatioReached audioSteps seg.textTokensConsumed))
  (cfg.tokenLoopAbortFrames ≤ seg.loopRun && progressReady)
    || (0 < cfg.tokenLoopEmergencyAbortFrames && cfg.tokenLoopEmergencyAbortFrames ≤ seg.loopRun)

/-- The `AUDIO_CHUNK` of a step, if there is audio. -/
def sendAudio (g r : Nat) (audio : Audio) : EngineLoop :=
  if audio = [] then s else s.sendSegment g r (.audioChunk audio)

/-- A confirmed token loop: the segment is run again, or ends with its last chunk faded out. -/
def endLoop (g r : Nat) (audio : Audio) : EngineLoop :=
  if s.retryAllowed cfg g r then s.retrySegment g r .loop
  else
    (if audio = [] then s
      else s.sendSegment g r (.audioChunk (cfg.fadeOutChunk audio))).handleSegmentEos g r
      { eosReason := some .loopAbort
        abortTailFrames := (s.segAt r).loopRun
        discardAllAudio := (s.segAt r).audibleFrameSeen = false }

/-- The run of silent pads on a slot after a chunk. -/
def countSilence (k : Nat) (audio : Audio) : EngineLoop :=
  if audio = [] then s
  else s.modifySlot k fun slot =>
    { slot with
      padConsecutiveSilence :=
        if cfg.classifyAudioChunk audio = .silence then slot.padConsecutiveSilence + 1 else 0 }

/-- The silence guard of the pad phase. -/
def tooSilent (k : Nat) : Bool :=
  let slot := s.slotAt k
  let padSteps := if 0 ≤ slot.padStartFrame then slot.frameIdx - slot.padStartFrame else 0
  cfg.minPadSteps ≤ padSteps
    && EngineConfig.dynamicSilenceLimit (cfg.maxSeqLen - slot.pastLen) < slot.padConsecutiveSilence

/-- A pad phase that stays silent: an attempt that was never heard is run again, another one is cut. -/
def endSilence (g r k : Nat) : EngineLoop :=
  if (s.segAt r).audibleFrameSeen then
    s.handleSegmentEos g r
      { eosReason := some .silenceAbort
        abortTailFrames := max 0 (((s.slotAt k).padConsecutiveSilence : Int) - 1) }
  else
    s.retryOrEnd cfg g r .silence { eosReason := some .silentAudioAbort, discardAllAudio := true }

/-- The last checks of a row: the silent pads, and then the chunk is sent. -/
def finishRow (g r k : Nat) (padding : Bool) (audio : Audio) : EngineLoop :=
  if padding then
    let s := s.countSilence cfg k audio
    if s.tooSilent cfg k then s.endSilence cfg g r k else s.sendAudio g r audio
  else s.sendAudio g r audio

/-- The token-loop guard and what follows it. -/
def guardRow (g r k : Nat) (row : StepRow) (padding : Bool) (audio : Audio) : EngineLoop :=
  match decide (0 < cfg.tokenLoopAbortFrames), row.token with
  | true, some token =>
      let s := s.modifySeg r fun seg => countToken cfg seg token
      if s.loopDetected cfg r then s.endLoop cfg g r audio else s.finishRow cfg g r k padding audio
  | _, _ => s.finishRow cfg g r k padding audio

/-- The audio of a row without an EOS. -/
def hearRow (g r k : Nat) (row : StepRow) (padding : Bool) : EngineLoop :=
  let audio := row.audio.getD []
  if audio = [] then s.guardRow cfg g r k row padding []
  else
    let s := s.recordAudioHealth cfg r audio
    if cfg.classifyAudioChunk audio = .invalid then
      s.retryOrEnd cfg g r .invalidAudio
        { eosReason := some .invalidAudioAbort
          discardAllAudio := (s.segAt r).audibleFrameSeen = false }
    else s.guardRow cfg g r k row padding audio

/-- The bookkeeping of a row: the slot moves on, and the segment has taken a step. -/
def stepRow (r : Nat) (row : StepRow) (now : Time) : EngineLoop :=
  (s.modifySlot row.slotId fun slot => advanceSlot slot row (s.segAt r).inputComplete now).modifySeg r
    fun seg => { seg with mlfqMeta := seg.mlfqMeta.onStepDone cfg }

/-- One turn of the loop of `_process_step_output_inner`. -/
def processRow (batchSize : Nat) (now : Time) (row : StepRow) : EngineLoop :=
  let s := { s with inFlight := s.inFlight.filter fun k => k ≠ row.slotId }
  match s.segBySlot row.slotId with
  | none => s
  | some r =>
      let s := s.modifySeg r fun seg => { seg with maxDecodeBatch := max seg.maxDecodeBatch batchSize }
      match s.groups.get? (s.segAt r).sessionId with
      | none => s
      | some g =>
          let padding := inPad (s.slotAt row.slotId) row (s.segAt r).inputComplete
          let s := s.stepRow cfg r row now
          if row.eosFlag then s.handleNaturalEos cfg g r else s.hearRow cfg g r row.slotId row padding

/-- `_process_step_output`. -/
def processStepOutput (rows : List StepRow) (now : Time) : EngineLoop :=
  { rows.foldl (fun s row => s.processRow cfg rows.length now row) s with inFlight := [] }

end EngineLoop

end StreamingTts.Engine
