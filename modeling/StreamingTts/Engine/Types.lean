import StreamingTts.Engine.Prefill
import StreamingTts.Lib.OrderedDict

/-!
# Requests, results and settings of the engine loop

The messages between the frontend and the engine thread (`EngineRequest` and `EngineResult` of
`engine/core/types.py`), the settings of `EngineLoop`, and the outputs of the executor that the loop
reads. Times are microseconds of the monotonic clock. PCM is a list of bytes; what the floating-point
code makes of it (the peak and the mean of a chunk, the faded chunk) and of a ratio of two counts are
parameters of the settings.
-/

namespace StreamingTts.Engine

open Frontend (Text UnicodeData)

/-- Microseconds of `time.monotonic()`. -/
abbrev Time := Int

/-- `RequestPriority`. -/
inductive RequestPriority
  | firstSegment
  | continuation
  | prefetched
  deriving DecidableEq, Repr

/-- `RequestPriority.value`: a lower number is more urgent. -/
def RequestPriority.value : RequestPriority → Nat
  | firstSegment => 0
  | continuation => 1
  | prefetched => 2

/-- What a `NEW_SESSION` request says about the prompt: its `session_config`, or what stands in for
one. -/
structure SessionSetup where
  taskType : Text
  xVectorOnly : Bool := false
  language : Text := "auto".toList
  speaker : Option Text := none
  instruct : Option Text := none
  instructTokenIds : Option (List Nat) := none
  spkEmbedding : Option (List UInt8) := none
  refText : Option Text := none
  refTextTokenIds : Option (List Nat) := none
  refCodecSumVec : Option (List Embed) := none
  refWarnings : List Text := []

namespace SessionSetup

/-- `parse_task_type` of a session. -/
def parsedTaskType (setup : SessionSetup) : Option TaskType :=
  parseTaskType setup.taskType setup.xVectorOnly

/-- The arguments of the builder. -/
def promptConfig (setup : SessionSetup) (taskType : TaskType) : PromptConfig where
  taskType := taskType
  language := setup.language
  speaker := setup.speaker
  instruct := setup.instruct
  instructTokenIds := setup.instructTokenIds
  spkEmbedding := setup.spkEmbedding
  refText := setup.refText
  refTextTokenIds := setup.refTextTokenIds
  refCodecSumVec := setup.refCodecSumVec

end SessionSetup

/-- `EngineRequest`, by its type. A result queue is a number; a cursor plan is not followed. -/
inductive EngineRequest
  | newSession (sessionId : Text) (setup : SessionSetup) (resultQueue : Option Nat)
  | startTokens (sessionId : Text) (segmentIdx : Int) (priority : RequestPriority)
      (tokenIds : List Nat) (resultQueue : Option Nat)
  | appendTokens (sessionId : Text) (segmentIdx : Int) (tokenIds : List Nat)
  | segmentTokensDone (sessionId : Text) (segmentIdx : Int) (appendEos : Bool)
  | sessionTokensDone (sessionId : Text)
  | updateCursorPlan (sessionId : Text) (segmentIdx : Int)
  | cancelSession (sessionId : Text) (cancelReason : Option Text)

/-- `EngineRequest.session_id`. -/
def EngineRequest.sessionId : EngineRequest → Text
  | .newSession sid .. | .startTokens sid .. | .appendTokens sid .. | .segmentTokensDone sid ..
  | .sessionTokensDone sid | .updateCursorPlan sid _ | .cancelSession sid _ => sid

/-- PCM bytes. -/
abbrev Audio := List UInt8

/-- `_classify_audio_chunk`. -/
inductive AudioHealth
  | audible
  | silence
  | invalid
  deriving DecidableEq, Repr

/-- `eos_reason`. -/
inductive EosReason
  | codecEos
  | kvOverflow
  | silenceAbort
  | silentAudioAbort
  | invalidAudioAbort
  | loopAbort
  | lengthAbort
  deriving DecidableEq, Repr

/-- The `reason` of a retry. -/
inductive RetryReason
  | invalidAudio
  | silence
  | loop
  | length
  deriving DecidableEq, Repr

/-- The metrics of a `SEGMENT_END` that the frontend reads. -/
structure SegmentEndMetrics where
  audioSteps : Int
  textTokens : Nat
  overflow : Bool
  eosReason : EosReason
  retryIdx : Nat
  audioFramesSeen : Nat
  audibleFrameSeen : Bool
  abortTailFrames : Int
  discardAllAudio : Bool
  deriving DecidableEq

/-- What an `EngineResult` says, by its type. -/
inductive ResultBody
  | prefillDone
  | audioChunk (audio : Audio)
  | warning (message : Text)
  | segmentEnd (metrics : SegmentEndMetrics)
  | segmentRetry (retryIdx : Nat) (reason : RetryReason) (audioSteps : Int) (textTokens : Nat)
  | sessionDone (cancelled : Bool) (cancelReason : Option Text)
  | error (message : Text)
  deriving DecidableEq

/-- `EngineResult`. -/
structure EngineResult where
  sessionId : Text
  segmentIdx : Int := 0
  body : ResultBody
  deriving DecidableEq

/-- One slot's row of a `StepOutput`. -/
structure StepRow where
  slotId : Nat
  eosFlag : Bool
  audio : Option Audio
  token : Option Int
  /-- the row of `codec_sum`, if the step returned one -/
  codecSum : Option Nat

/-- The settings of the loop, as its constructor has clipped them, and the parts of the executor that
are fixed. -/
structure EngineConfig (u : UnicodeData) where
  prefillBuilder : Option (PrefillBuilder u)
  maxSlots : Nat
  maxSeqLen : Nat
  maxBatch : Nat
  maxIdle : Time
  /-- `max_idle_sec` and `session_timeout_sec` as their messages show them -/
  maxIdleText : Text
  sessionTimeoutText : Text
  maxQueueSize : Nat
  sessionTimeout : Time
  minPadSteps : Int
  tokenLoopSuspectFrames : Nat
  tokenLoopAbortFrames : Nat
  tokenLoopEmergencyAbortFrames : Nat
  tokenLoopMaxRetries : Nat
  maxSlotsPerSession : Nat
  maxSlotsPerSession_pos : 1 ≤ maxSlotsPerSession
  supportsPauseResume : Bool
  /-- `_classify_audio_chunk` of a non-empty chunk of whole samples -/
  classifySamples : Audio → AudioHealth
  /-- `_fade_out_chunk` -/
  fadeOutChunk : Audio → Audio
  /-- `token_loop_min_audio_text_ratio <= 0.0` -/
  loopRatioOff : Bool
  /-- `audio_steps / text_tokens >= token_loop_min_audio_text_ratio` -/
  loopRatioReached : Int → Nat → Bool
  /-- `audio_steps / text_tokens >= length_runaway_ratio` -/
  lengthRunaway : Int → Nat → Bool
  /-- `int(length_runaway_ratio * text_tokens)` -/
  expectedFrames : Nat → Int
  /-- `MLFQConfig` -/
  q1Threshold : Nat := 50
  q2Threshold : Nat := 200
  agingInterval : Nat := 100
  starvationLimit : Nat := 50

namespace EngineConfig

variable {u : UnicodeData} (cfg : EngineConfig u)

/-- `_classify_audio_chunk`. -/
def classifyAudioChunk (audio : Audio) : AudioHealth :=
  if audio = [] ∨ audio.length % 4 ≠ 0 then .invalid else cfg.classifySamples audio

/-- `_dynamic_silence_limit`. -/
def dynamicSilenceLimit (remainingKv : Nat) : Nat :=
  if 100 < remainingKv then 12 else if 50 < remainingKv then 6 else if 20 < remainingKv then 3 else 1

end EngineConfig

end StreamingTts.Engine
