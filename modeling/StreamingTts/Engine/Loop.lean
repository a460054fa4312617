import StreamingTts.Engine.KVCachePool

/-!
# The engine loop: its state and its requests

`EngineLoop` of `engine/backend/engine_loop.py`: the segments and session groups of the engine thread,
what happens to one segment (a release, a retry, an end), and `_handle_request`. Segments and groups
are objects that several tables point to, so they live in the heaps `segAt` and `groupAt` and the
tables hold references. `sent` is the log of `_send_result`, with the group the result was for, and
`launched` the log of the inputs that `launch_decode_step` was called with.

Left out are the optional continuity extension (no factory is configured by default), the cursor plan,
timings, counters of the health report and log lines.
-/

namespace StreamingTts.Engine

open Frontend (Text UnicodeData)
open Lib (OrderedDict)

/-- `seg.state`. -/
inductive SegState
  | pendingPrefill
  | active
  | done
  | evicted
  | error
  deriving DecidableEq, Repr

/-- `MLFQMeta`. -/
structure MLFQMeta where
  level : Nat := 0
  decodeSteps : Nat := 0
  lastScheduledAt : Nat := 0
  stepsSinceSchedule : Nat := 0

/-- `EngineSegment`. -/
structure EngineSegment where
  sessionId : Text
  segmentIdx : Int
  priority : RequestPriority := .firstSegment
  slot : Option Nat := none
  state : SegState := .pendingPrefill
  inputComplete : Bool := false
  textTokensConsumed : Nat := 0
  decodeStartFrame : Int := 0
  mlfqMeta : MLFQMeta := {}
  pendingTokenIds : List Nat := []
  deferredTokenIds : List Nat := []
  eosTrailingAdded : Bool := false
  loopToken : Int := -1
  loopRun : Nat := 0
  loopMaxRun : Nat := 0
  loopSuspectCount : Nat := 0
  loopRecoveryCount : Nat := 0
  retryIdx : Nat := 0
  audioFramesSeen : Nat := 0
  audibleFrameSeen : Bool := false
  cacheHit : Bool := false
  cacheTokensReused : Nat := 0
  maxDecodeBatch : Nat := 0
  prefixProbeKey : Option Text := none
  prefixProbeDone : Bool := false

/-- `EngineSessionGroup`. -/
structure EngineSessionGroup where
  sessionId : Text
  setup : SessionSetup
  resultQueue : Option Nat
  segments : OrderedDict Int Nat := .empty
  inputCompleteAll : Bool := false
  createdAt : Time
  overflowTokenIds : List Nat := []

/-- One result that was sent. A session that was turned away has no group. -/
structure Sent where
  group : Option Nat
  queue : Nat
  result : EngineResult
  deriving DecidableEq

/-- One row of a decode step: the segment, its attempt and the input it was given. -/
structure Launch where
  seg : Nat
  attempt : Nat
  input : Embed
  deriving DecidableEq

/-- `EngineLoop`. -/
structure EngineLoop where
  groupAt : Nat → EngineSessionGroup
  nextGroup : Nat
  segAt : Nat → EngineSegment
  nextSeg : Nat
  groups : OrderedDict Text Nat
  segBySlot : Nat → Option Nat
  pool : KVCachePool
  prefixCache : PrefixKVCache
  deferActiveAppends : Bool := false
  /-- the slots of the decode step that was launched, less those whose output has been processed -/
  inFlight : List Nat := []
  sent : List Sent := []
  launched : List Launch := []
  globalStep : Nat := 0
  scheduledThisStep : List Nat := []
  lastEvictionCheck : Time := 0

/-- `_seg_key`. -/
def segKey (sessionId : Text) (segmentIdx : Int) : Text :=
  sessionId ++ ":".toList ++ (toString segmentIdx).toList

namespace EngineLoop

variable {u : UnicodeData} (cfg : EngineConfig u) (s : EngineLoop)

/-- `EngineLoop(...)`. -/
def new (maxSlots prefixCacheMaxEntries prefixCacheMaxLen : Nat) : EngineLoop where
  groupAt _ := { sessionId := [], setup := { taskType := [] }, resultQueue := none, createdAt := 0 }
  nextGroup := 0
  segAt _ := { sessionId := [], segmentIdx := 0 }
  nextSeg := 0
  groups := .empty
  segBySlot _ := none
  pool := .new maxSlots
  prefixCache := ⟨prefixCacheMaxEntries, prefixCacheMaxLen, .empty⟩

/-- The slot with the given id. -/
def slotAt (k : Nat) : SlotKVState := s.pool.slots k

/-- The loop with one segment changed. -/
def modifySeg (r : Nat) (f : EngineSegment → EngineSegment) : EngineLoop :=
  { s with segAt := Function.update s.segAt r (f (s.segAt r)) }

/-- The loop with one group changed. -/
def modifyGroup (g : Nat) (f : EngineSessionGroup → EngineSessionGroup) : EngineLoop :=
  { s with groupAt := Function.update s.groupAt g (f (s.groupAt g)) }

/-- The loop with one slot changed. -/
def modifySlot (k : Nat) (f : SlotKVState → SlotKVState) : EngineLoop :=
  { s with pool := s.pool.modify k f }

/-- The segments of a group, in the order of their insertion. -/
def segmentsOf (g : Nat) : List Nat := (s.groupAt g).segments.values

/-- The segments of all groups, group by group. -/
def allSegments : List Nat := s.groups.values.flatMap s.segmentsOf

/-- `active_slot_count`. -/
def activeSlotCount (g : Nat) : Nat :=
  (s.segmentsOf g).countP fun r =>
    ((s.segAt r).state = .pendingPrefill || (s.segAt r).state = .active) && (s.segAt r).slot.isSome

/-! ## Results and the end of a session -/

/-- `_send_result`. -/
def sendResult (g : Nat) (result : EngineResult) : EngineLoop :=
  match (s.groupAt g).resultQueue with
  | none => s
  | some q => { s with sent := s.sent ++ [⟨some g, q, result⟩] }

/-- A result about a segment. -/
def sendSegment (g r : Nat) (body : ResultBody) : EngineLoop :=
  s.sendResult g ⟨(s.segAt r).sessionId, (s.segAt r).segmentIdx, body⟩

/-- `_release_segment_slot`. The epoch is read from the slot that is released, so the pool never
refuses. -/
def releaseSegmentSlot (r : Nat) : EngineLoop :=
  match (s.segAt r).slot with
  | none => s
  | some k =>
      { s with
        pool := s.pool.releaseOwn k
        segBySlot := Function.update s.segBySlot k none
        segAt := Function.update s.segAt r { s.segAt r with slot := none } }

/-- `_remove_session`. -/
def removeSession (sid : Text) : EngineLoop :=
  match s.groups.get? sid with
  | none => s
  | some g => (s.segmentsOf g).foldl releaseSegmentSlot { s with groups := s.groups.erase sid }

/-- Whether every segment of a group has ended. -/
def allDone (g : Nat) : Bool := (s.segmentsOf g).all fun r => (s.segAt r).state = .done

/-- `_check_session_done`. -/
def checkSessionDone (g : Nat) : EngineLoop :=
  if (s.groupAt g).inputCompleteAll = false then s
  else if (s.groupAt g).overflowTokenIds ≠ [] then s
  else if s.allDone g = false then s
  else
    (s.sendResult g ⟨(s.groupAt g).sessionId, 0, .sessionDone false none⟩).removeSession
      (s.groupAt g).sessionId

/-! ## The end of a segment and its retry -/

/-- The keyword arguments of `_handle_segment_eos`. -/
structure EosArgs where
  overflow : Bool := false
  eosReason : Option EosReason := none
  abortTailFrames : Int := 0
  discardAllAudio : Bool := false

/-- `audio_steps` of a segment. -/
def audioSteps (r : Nat) : Int :=
  match (s.segAt r).slot with
  | none => 0
  | some k => (s.slotAt k).frameIdx - (s.segAt r).decodeStartFrame

/-- The metrics of a `SEGMENT_END`. -/
def segmentEndMetrics (r : Nat) (args : EosArgs) : SegmentEndMetrics where
  audioSteps := s.audioSteps r
  textTokens := (s.segAt r).textTokensConsumed
  overflow := args.overflow
  eosReason := args.eosReason.getD (if args.overflow then .kvOverflow else .codecEos)
  retryIdx := (s.segAt r).retryIdx
  audioFramesSeen := (s.segAt r).audioFramesSeen
  audibleFrameSeen := (s.segAt r).audibleFrameSeen
  abortTailFrames := args.abortTailFrames
  discardAllAudio := args.discardAllAudio

/-- `_handle_segment_eos`. -/
def handleSegmentEos (g r : Nat) (args : EosArgs) : EngineLoop :=
  (((s.modifySeg r fun seg => { seg with state := .done }).releaseSegmentSlot r).sendSegment g r
    (.segmentEnd (s.segmentEndMetrics r args))).checkSessionDone g

/-- Whether a segment may be run again: it has a retry left, and an earlier segment of its session is
still under way. -/
def retryAllowed (g r : Nat) : Bool :=
  (s.segAt r).retryIdx < cfg.tokenLoopMaxRetries
    && (s.segmentsOf g).any fun other =>
      (s.segAt other).segmentIdx < (s.segAt r).segmentIdx && (s.segAt other).state ≠ .done

/-- A segment as a retry leaves it. -/
def resetSegment (seg : EngineSegment) : EngineSegment :=
  { seg with
    state := .pendingPrefill
    loopToken := -1
    loopRun := 0
    loopMaxRun := 0
    loopSuspectCount := 0
    loopRecoveryCount := 0
    eosTrailingAdded := false
    decodeStartFrame := 0
    audioFramesSeen := 0
    audibleFrameSeen := false
    cacheHit := false
    cacheTokensReused := 0
    mlfqMeta := {} }

/-- The part of `_try_segment_retry` behind its checks. -/
def retrySegment (g r : Nat) (reason : RetryReason) : EngineLoop :=
  let audioSteps :=
    match (s.segAt r).slot with
    | none => ((s.segAt r).audioFramesSeen : Int)
    | some _ => s.audioSteps r
  let s' := s.modifySeg r fun seg => { seg with retryIdx := seg.retryIdx + 1 }
  ((s'.releaseSegmentSlot r).modifySeg r resetSegment).sendSegment g r
    (.segmentRetry (s'.segAt r).retryIdx reason (max 0 audioSteps) (s.segAt r).textTokensConsumed)

/-- A guard that gives up on a segment: `_try_segment_retry`, and where that is refused
`_handle_segment_eos`. -/
def retryOrEnd (g r : Nat) (reason : RetryReason) (args : EosArgs) : EngineLoop :=
  if s.retryAllowed cfg g r then s.retrySegment g r reason else s.handleSegmentEos g r args

/-- `_handle_natural_eos`. -/
def handleNaturalEos (g r : Nat) : EngineLoop :=
  if 0 < (s.segAt r).textTokensConsumed ∧ (s.segAt r).audibleFrameSeen = false then
    s.retryOrEnd cfg g r .silence { eosReason := some .silentAudioAbort, discardAllAudio := true }
  else s.handleSegmentEos g r {}

/-! ## The text of a segment -/

/-- `_append_trailing_tokens`. -/
def appendTrailingTokens (k : Nat) (tokenIds : List Nat) : EngineLoop :=
  s.modifySlot k fun slot => { slot with trailing := slot.trailing ++ tokenIds.map .text }

/-- The step of `_resume_streaming_segment_if_ready` on the slot. -/
def resumeSlot (slot : SlotKVState) : SlotKVState :=
  match slot.lastCodecSum, slot.nextEmbed, slot.trailing[slot.textIdx]? with
  | some codecSum, none, some text =>
      { slot with
        textIdx := slot.textIdx + 1
        nextEmbed := some (.codecSum codecSum + text)
        lastCodecSum := none
        padStartFrame := -1
        padConsecutiveSilence := 0 }
  | _, _, _ => slot

/-- `_resume_streaming_segment_if_ready`. -/
def resumeStreamingSegmentIfReady (r : Nat) : EngineLoop :=
  match (s.segAt r).slot with
  | none => s
  | some k => s.modifySlot k resumeSlot

/-- `_flush_deferred_appends_for_segment`. -/
def flushDeferredAppendsForSegment (r : Nat) : EngineLoop :=
  match (s.segAt r).slot with
  | none => s
  | some k =>
      if (s.segAt r).deferredTokenIds = [] then s
      else
        ((s.modifySeg r fun seg => { seg with deferredTokenIds := [] }).appendTrailingTokens k
          (s.segAt r).deferredTokenIds).resumeStreamingSegmentIfReady r

/-- `_flush_deferred_appends`. -/
def flushDeferredAppends : EngineLoop := s.allSegments.foldl flushDeferredAppendsForSegment s

/-- `_append_eos_trailing`, for a segment with the given slot. -/
def appendEosTrailing (r k : Nat) : EngineLoop :=
  (s.modifySlot k fun slot => { slot with trailing := slot.trailing ++ [.ttsEos] }).modifySeg r
    fun seg => { seg with eosTrailingAdded := true }

/-! ## Requests -/

/-- The rejection of a session over the queue limit. -/
def rejectSession (sid : Text) (queue : Option Nat) : EngineLoop :=
  match queue with
  | none => s
  | some q =>
      { s with
        sent := s.sent ++
          [⟨none, q, ⟨sid, 0, .error "Server overloaded, please retry later".toList⟩⟩] }

/-- The registration of a group. -/
def registerSession (sid : Text) (setup : SessionSetup) (queue : Option Nat) (now : Time) :
    EngineLoop :=
  { s with
    groupAt := Function.update s.groupAt s.nextGroup
      { sessionId := sid, setup := setup, resultQueue := queue, createdAt := now }
    nextGroup := s.nextGroup + 1
    groups := s.groups.set sid s.nextGroup }

/-- `NEW_SESSION`. -/
def handleNewSession (sid : Text) (setup : SessionSetup) (queue : Option Nat) (now : Time) :
    EngineLoop :=
  match s.groups.get? sid with
  | none =>
      if cfg.maxQueueSize ≤ s.groups.size then s.rejectSession sid queue
      else s.registerSession sid setup queue now
  | some _ => (s.removeSession sid).registerSession sid setup queue now

/-- The new segment of a `START_TOKENS`: the overflow of earlier segments comes first. -/
def startedSegment (sid : Text) (g : Nat) (idx : Int) (priority : RequestPriority)
    (tokenIds : List Nat) : EngineSegment where
  sessionId := sid
  segmentIdx := idx
  priority := priority
  pendingTokenIds := (s.groupAt g).overflowTokenIds ++ tokenIds
  textTokensConsumed := (s.groupAt g).overflowTokenIds.length + tokenIds.length

/-- `START_TOKENS` of a registered session. -/
def startSegment (sid : Text) (g : Nat) (idx : Int) (priority : RequestPriority)
    (tokenIds : List Nat) (queue : Option Nat) : EngineLoop :=
  let r := s.nextSeg
  let seg := s.startedSegment sid g idx priority tokenIds
  let released :=
    match (s.groupAt g).segments.get? idx with
    | none => s
    | some old => s.releaseSegmentSlot old
  { released with
    segAt := Function.update released.segAt r seg
    nextSeg := r + 1
    groupAt := Function.update released.groupAt g
      { released.groupAt g with
        overflowTokenIds := []
        segments := (released.groupAt g).segments.set idx r
        resultQueue := queue.or (released.groupAt g).resultQueue } }

/-- `APPEND_TOKENS` of a registered session. -/
def appendToSegment (g : Nat) (idx : Int) (tokenIds : List Nat) : EngineLoop :=
  if tokenIds = [] then s
  else match (s.groupAt g).segments.get? idx with
    | none => s.modifyGroup g fun grp => { grp with overflowTokenIds := grp.overflowTokenIds ++ tokenIds }
    | some r =>
        if (s.segAt r).state = .done then
          s.modifyGroup g fun grp => { grp with overflowTokenIds := grp.overflowTokenIds ++ tokenIds }
        else
          let s' := s.modifySeg r fun seg =>
            { seg with
              pendingTokenIds := seg.pendingTokenIds ++ tokenIds
              textTokensConsumed := seg.textTokensConsumed + tokenIds.length }
          match (s.segAt r).state, (s.segAt r).slot, cfg.prefillBuilder with
          | .active, some k, some _ =>
              if s.deferActiveAppends then
                s'.modifySeg r fun seg =>
                  { seg with deferredTokenIds := seg.deferredTokenIds ++ tokenIds }
              else (s'.appendTrailingTokens k tokenIds).resumeStreamingSegmentIfReady r
          | _, _, _ => s'

/-- The text part of `SEGMENT_TOKENS_DONE`. -/
def completeSegment (r : Nat) (appendEos : Bool) : EngineLoop :=
  let s' := (s.flushDeferredAppendsForSegment r).modifySeg r fun seg => { seg with inputComplete := true }
  let seg := s'.segAt r
  match appendEos, seg.state, seg.slot, seg.eosTrailingAdded, cfg.prefillBuilder with
  | true, .active, some k, false, some _ =>
      (s'.appendEosTrailing r k).resumeStreamingSegmentIfReady r
  | true, _, _, _, _ => s'.modifySeg r fun seg => { seg with eosTrailingAdded := false }
  | false, _, _, _, _ => s'

/-- `_handle_request`. -/
def handleRequest (request : EngineRequest) (now : Time) : EngineLoop :=
  match request with
  | .newSession sid setup queue => s.handleNewSession cfg sid setup queue now
  | .startTokens sid idx priority tokenIds queue =>
      match s.groups.get? sid with
      | none => s
      | some g => s.startSegment sid g idx priority tokenIds queue
  | .updateCursorPlan _ _ => s
  | .appendTokens sid idx tokenIds =>
      match s.groups.get? sid with
      | none => s
      | some g => s.appendToSegment cfg g idx tokenIds
  | .segmentTokensDone sid idx appendEos =>
      match s.groups.get? sid with
      | none => s
      | some g =>
          match (s.groupAt g).segments.get? idx with
          | none => s
          | some r =>
              let s' := s.completeSegment cfg r appendEos
              if (s'.segAt r).state = .done then s'.checkSessionDone g else s'
  | .sessionTokensDone sid =>
      match s.groups.get? sid with
      | none => s
      | some g => (s.modifyGroup g fun grp => { grp with inputCompleteAll := true }).checkSessionDone g
  | .cancelSession sid reason =>
      match s.groups.get? sid with
      | none => s
      | some g => (s.sendResult g ⟨sid, 0, .sessionDone true reason⟩).removeSession sid

end EngineLoop

end StreamingTts.Engine
