import StreamingTts.Engine.SpeechRestore

/-!
# Migration of a segment

`_migrate_speech_state` of `engine/backend/engine_loop.py` over the slots of the pool: the segment's slot
is captured, restored into a spare slot through a handle, and given back. Around it, the steps of the loop
that hand slots out, decode on them and give them back.
-/

namespace StreamingTts.Engine.Pooled

open Frontend (Text)

variable {κ : Type} {ξ : Type}

/-! ## The engine -/

/-- Session and segment index: what names a segment. -/
abbrev SegKey := Text × Int

/-- `_seg_key`. -/
def segKey (key : SegKey) : Text := key.1 ++ ':' :: (toString key.2).toList

/-- What a migration reads of an `EngineSegment`. -/
structure Segment where
  slot : Option Nat := none
  /-- `state == "active"` -/
  active : Bool := false
  retryIdx : Int := 0
  /-- the other fields pass `validate_segment_runtime_metadata` -/
  countersValid : Bool := true

/-- `MigrationRequest`. -/
structure MigrationRequest where
  sessionId : Text
  segmentIdx : Int
  expectedAttemptId : Int
  expectedAllocationEpoch : Int
  maxTensorBytes : Int

/-- What is read of the `EngineLoop`. -/
structure EngineLoop (κ ξ : Type) where
  executor : Executor κ ξ
  segments : SegKey → Option Segment := fun _ => none
  segBySlot : Nat → Option SegKey := fun _ => none
  handles : HandleStore κ ξ := []
  generation : Int := 0
  /-- `_speech_state_capability.supports_pause_resume` and `.transfer` -/
  supportsPauseResume : Bool
  transfer : SpeechStateTransfer
  /-- `speech_state_fingerprints` -/
  modelFingerprint : Text
  runtimeFingerprint : Text

/-- What a restore that is interrupted leaves in the target. -/
structure Partial (κ ξ : Type) where
  slot : SlotKVState κ ξ
  talkerRow : Nat → κ
  c2wRow : Nat → κ
  arenaA : List (Tensor κ)
  arenaB : List (Tensor κ)

/-- What the environment decides in a migration: the clock, the new handle id, and which of the copies
and fences fail. -/
structure MigrationEnv (κ ξ : Type) where
  now : Int
  handleId : Text
  fenceFails : Bool := false
  captureFails : Bool := false
  restoreFails : Option (Partial κ ξ) := none
  lastFenceFails : Bool := false

/-- An error of the environment. -/
def StateError.fault : StateError := .value "device error"

/-- The pool with the target written as far as the restore came. -/
def Partial.applyPool (left : Partial κ ξ) (pool : KVCachePool κ ξ) (k : Nat) : KVCachePool κ ξ :=
  ((pool.writeRow .talker k left.talkerRow).writeRow .c2w k left.c2wRow).setSlot k { left.slot with
    slotId := (pool.slots k).slotId
    allocationEpoch := (pool.slots k).allocationEpoch
    isFree := (pool.slots k).isFree }

/-- The executor with the target written as far as the restore came. -/
def Partial.apply (left : Partial κ ξ) (e : Executor κ ξ) (k : Nat) : Executor κ ξ :=
  let written := (e.writeArena true k left.arenaA).writeArena false k left.arenaB
  { written with kvPool := e.kvPool.map fun pool => left.applyPool pool k }

/-- Histories that are pooled are nowhere else. -/
def Exclusive (pool : KVCachePool κ ξ) (slot : SlotKVState κ ξ) : Prop :=
  (pool.talkerPool.isSome → slot.talkerKv = none) ∧ (slot.c2wPooled → slot.c2wKv = none)

instance (pool : KVCachePool κ ξ) (slot : SlotKVState κ ξ) : Decidable (Exclusive pool slot) :=
  decidable_of_iff ((pool.talkerPool.isSome → slot.talkerKv.isNone)
    ∧ (slot.c2wPooled → slot.c2wKv.isNone))
    (by simp only [Exclusive, Option.isNone_iff_eq_none])

namespace EngineLoop

variable (eng : EngineLoop κ ξ)

/-- The engine loop with another pool. -/
def setPool (pool : KVCachePool κ ξ) : EngineLoop κ ξ :=
  { eng with executor := eng.executor.setPool pool }

/-- `capture_segment_runtime_metadata`. -/
def captureMetadata (key : SegKey) (seg : Segment) : Except StateError SegmentMetadata := do
  if strip key.1 = [] ∨ key.2 < 0 then throw (.contract "invalid segment runtime identity")
  if ¬ seg.countersValid ∨ seg.retryIdx < 0 then throw (.contract "invalid segment runtime metadata")
  return { sessionId := key.1, segmentIdx := key.2, retryIdx := seg.retryIdx }

/-- The segment of a request, its slot and the pool, with everything that is checked of them. -/
def migrationSource (request : MigrationRequest) :
    Except StateError (Segment × Nat × KVCachePool κ ξ) := do
  let key : SegKey := (request.sessionId, request.segmentIdx)
  if ¬ eng.supportsPauseResume then throw (.contract "pause/resume capability is disabled")
  let some seg := eng.segments key | throw (.contract "migration segment is not active")
  let some k := seg.slot | throw (.contract "migration segment is not active")
  if ¬ seg.active then throw (.contract "migration segment is not active")
  let some pool := eng.executor.kvPool
    | throw (.contract "migration source allocation/attempt mismatch")
  let source := pool.slots k
  if source.isFree ∨ eng.segBySlot source.slotId ≠ some key ∨ source.sessionId ≠ some (segKey key)
      ∨ (source.allocationEpoch : Int) ≠ request.expectedAllocationEpoch
      ∨ seg.retryIdx ≠ request.expectedAttemptId ∨ source.retryIdx ≠ request.expectedAttemptId then
    throw (.contract "migration source allocation/attempt mismatch")
  if pool.freeSlots = [] then throw (.contract "migration requires a clean spare slot")
  return (seg, k, pool)

/-- The bundle of a request. -/
def captureSource (request : MigrationRequest) (seg : Segment) (k : Nat) (env : MigrationEnv κ ξ) :
    Except StateError (Bundle κ ξ) := do
  if env.fenceFails then throw .fault
  let metadata ← captureMetadata (request.sessionId, request.segmentIdx) seg
  if strip eng.modelFingerprint = [] ∨ strip eng.runtimeFingerprint = [] then
    throw (.contract "speech-state runtime fingerprints are not configured")
  if env.captureFails then throw .fault
  eng.executor.captureSpeechStateBundle k metadata request.maxTensorBytes
    (some (segKey (request.sessionId, request.segmentIdx)))

/-- The handle of a migration. -/
def handleOf (request : MigrationRequest) (env : MigrationEnv κ ξ) : SpeechStateHandle where
  handleId := env.handleId
  generation := eng.generation
  attemptId := request.expectedAttemptId
  slotAllocationEpoch := request.expectedAllocationEpoch
  ownerSessionId := request.sessionId
  sourceSegmentIdx := request.segmentIdx
  transfer := eng.transfer
  modelFingerprint := eng.modelFingerprint
  runtimeFingerprint := eng.runtimeFingerprint

/-- The context of a migration. -/
def contextOf (request : MigrationRequest) (targetEpoch : Nat) : SpeechStateContext where
  sessionId := request.sessionId
  segmentIdx := request.segmentIdx
  attemptId := request.expectedAttemptId
  slotAllocationEpoch := targetEpoch
  sourceSegmentIdx := request.segmentIdx
  sourceAttemptId := request.expectedAttemptId
  sourceSlotAllocationEpoch := request.expectedAllocationEpoch
  modelFingerprint := eng.modelFingerprint
  runtimeFingerprint := eng.runtimeFingerprint
  sourceGeneration := some eng.generation

/-- The payload of the handle, taken out of the store. -/
def consumeHandle (request : MigrationRequest) (targetEpoch : Nat) (handle : SpeechStateHandle) :
    Except StateError (Bundle κ ξ × HandleStore κ ξ) := do
  let context ← (eng.contextOf request targetEpoch).checked
  HandleStore.consume eng.handles handle context

/-- The restore into the target, and what the environment makes of it. -/
def restoreTarget (target : Nat) (targetEpoch : Nat) (payload : Bundle κ ξ) (env : MigrationEnv κ ξ) :
    EngineLoop κ ξ × Except StateError Unit :=
  match env.restoreFails with
  | some left => ({ eng with executor := left.apply eng.executor target }, .error .fault)
  | none =>
      let (executor, outcome) :=
        eng.executor.restoreSpeechStateBundle target payload targetEpoch env.now
      ({ eng with executor := executor }, outcome)

/-- The fence after the restore, and the release of the source. -/
def releaseSource (request : MigrationRequest) (source : Nat) (env : MigrationEnv κ ξ) :
    Except StateError (EngineLoop κ ξ) := do
  if env.lastFenceFails then throw .fault
  let some pool := eng.executor.kvPool
    | throw (.contract "speech-state restore requires an initialized KV pool")
  let released ← ofPool (pool.release source (some request.expectedAllocationEpoch))
  return eng.setPool released

/-- The transfer into the target, with what it leaves when it raises, and its handle. -/
def transferState (request : MigrationRequest) (source target targetEpoch : Nat) (bundle : Bundle κ ξ)
    (env : MigrationEnv κ ξ) : EngineLoop κ ξ × Option SpeechStateHandle × Except StateError Unit :=
  match HandleStore.create eng.handles (eng.handleOf request env) bundle with
  | .error error => (eng, none, .error error)
  | .ok (handle, handles) =>
      let stored := { eng with handles := handles }
      match stored.consumeHandle request targetEpoch handle with
      | .error error => (stored, some handle, .error error)
      | .ok (payload, consumed) =>
          match restoreTarget { stored with handles := consumed } target targetEpoch payload env with
          | (left, .error error) => (left, some handle, .error error)
          | (restored, .ok ()) =>
              match restored.releaseSource request source env with
              | .error error => (restored, some handle, .error error)
              | .ok released => (released, some handle, .ok ())

/-- The `except` of a migration: the target is given back, and the handle is released. -/
def discardTarget (target targetEpoch : Nat) (handle : Option SpeechStateHandle) : EngineLoop κ ξ :=
  let handles := match handle with
    | none => eng.handles
    | some handle => (HandleStore.release eng.handles handle).toOption.getD eng.handles
  let executor := match eng.executor.kvPool with
    | none => eng.executor
    | some pool => match pool.release target (some targetEpoch) with
        | .ok released => eng.executor.setPool released
        | .error _ => eng.executor
  { eng with executor := executor, handles := handles }

/-- The segment is on another slot. -/
def moveSegment (key : SegKey) (seg : Segment) (source target : Nat) : EngineLoop κ ξ :=
  { eng with
    segBySlot := Function.update (Function.update eng.segBySlot source none) target (some key)
    segments := Function.update eng.segments key (some { seg with slot := some target }) }

/-- `_migrate_speech_state`: the engine loop that it leaves, and what it raises. -/
def migrateSpeechState (request : MigrationRequest) (env : MigrationEnv κ ξ) :
    EngineLoop κ ξ × Except StateError Unit :=
  match eng.migrationSource request with
  | .error error => (eng, .error error)
  | .ok (seg, source, pool) =>
      match eng.captureSource request seg source env with
      | .error error => (eng, .error error)
      | .ok bundle =>
          match pool.allocate ((pool.slots source).sessionId.getD []) env.now with
          | none => (eng, .error (.contract "migration target allocation failed"))
          | some (target, allocated) =>
              let epoch := (allocated.slots target).allocationEpoch
              let prepared := allocated.setSlot target { allocated.slots target with
                segmentIdx := request.segmentIdx
                retryIdx := seg.retryIdx }
              let started := { eng.setPool prepared with generation := eng.generation + 1 }
              match started.transferState request source target epoch bundle env with
              | (left, handle, .error error) => (left.discardTarget target epoch handle, .error error)
              | (moved, _, .ok ()) =>
                  (moved.moveSegment (request.sessionId, request.segmentIdx) seg source target,
                    .ok ())

/-! ## The other steps -/

/-- A step of the engine loop. -/
inductive Event (κ ξ : Type)
  /-- a new segment -/
  | opens (key : SegKey)
  /-- fields of a segment other than its slot -/
  | updates (key : SegKey) (active countersValid : Bool) (retryIdx : Int)
  /-- the admission of a segment -/
  | admits (key : SegKey) (samplingIdentity : Option Text) (now : Int)
  /-- prefill or decode, on the slot and the rows of a segment -/
  | decodes (key : SegKey) (left : Partial κ ξ)
  /-- `_release_segment_slot` -/
  | releases (key : SegKey)
  /-- the end of a segment that has no slot -/
  | drops (key : SegKey)
  /-- `_migrate_speech_state` -/
  | migrates (request : MigrationRequest) (env : MigrationEnv κ ξ)

/-- The admission of a segment. -/
def admitSegment (key : SegKey) (samplingIdentity : Option Text) (now : Int) : EngineLoop κ ξ :=
  match eng.segments key, eng.executor.kvPool with
  | some seg, some pool =>
      match seg.slot, pool.allocate (segKey key) now with
      | none, some (k, allocated) =>
          let admitted := eng.setPool (allocated.setSlot k { allocated.slots k with
            segmentIdx := key.2
            samplingIdentity := samplingIdentity
            retryIdx := seg.retryIdx })
          { admitted with
            segments := Function.update eng.segments key (some { seg with slot := some k })
            segBySlot := Function.update eng.segBySlot k (some key) }
      | _, _ => eng
  | _, _ => eng

/-- Prefill or decode. -/
def decode (key : SegKey) (left : Partial κ ξ) : EngineLoop κ ξ :=
  match eng.segments key, eng.executor.kvPool with
  | some { slot := some k, .. }, some pool =>
      if Exclusive pool left.slot then { eng with executor := left.apply eng.executor k } else eng
  | _, _ => eng

/-- `_release_segment_slot`. -/
def releaseSegmentSlot (key : SegKey) : EngineLoop κ ξ :=
  match eng.segments key, eng.executor.kvPool with
  | some seg, some pool =>
      match seg.slot with
      | none => eng
      | some k =>
          match pool.release k (some (pool.slots k).allocationEpoch) with
          | .error _ => eng
          | .ok released =>
              { eng.setPool released with
                segBySlot := Function.update eng.segBySlot k none
                segments := Function.update eng.segments key (some { seg with slot := none }) }
  | _, _ => eng

/-- The engine loop after a step. -/
def step (eng : EngineLoop κ ξ) : Event κ ξ → EngineLoop κ ξ
  | .opens key =>
      if (eng.segments key).isSome then eng
      else { eng with segments := Function.update eng.segments key (some {}) }
  | .updates key active countersValid retryIdx =>
      { eng with segments := Function.update eng.segments key ((eng.segments key).map fun seg =>
          { seg with active := active, countersValid := countersValid, retryIdx := retryIdx }) }
  | .admits key samplingIdentity now => eng.admitSegment key samplingIdentity now
  | .decodes key left => eng.decode key left
  | .releases key => eng.releaseSegmentSlot key
  | .drops key =>
      match eng.segments key with
      | some { slot := none, .. } => { eng with segments := Function.update eng.segments key none }
      | _ => eng
  | .migrates request env => (eng.migrateSpeechState request env).1

end EngineLoop

end StreamingTts.Engine.Pooled
