import StreamingTts.Engine.SpeechCapture

/-!
# Restore of a slot

`restore_speech_state_bundle` of `engine/backend/executor.py`, and the handle store of
`engine/backend/speech_state.py`. A restore checks the representation of every payload before its first
write; its writes are the fields of the target slot, its rows of the pooled histories and its rows of the
two arenas, in that order, and what it has written stays when a later one raises.
-/

namespace StreamingTts.Engine.Pooled

open Frontend (Text)

variable {κ : Type} {ξ : Type}

/-! ## The fields of the target -/

/-- `restore_into` of a payload. -/
def SlotPayload.restoreInto (payload : SlotPayload κ ξ) (slot : SlotKVState κ ξ) (now : Int) :
    Except StateError (SlotKVState κ ξ) :=
  match payload with
  | .standalone values _ => do
      if slot.isFree then throw (.contract "cannot restore into a free slot")
      if slot.c2wPooled ∨ slot.c2wArenaBacked then
        throw (.contract "standalone payload requires a non-pooled, non-arena target")
      return { values with
        slotId := slot.slotId
        allocationEpoch := slot.allocationEpoch
        isFree := false
        lastActiveTime := now
        extensionState := slot.extensionState }
  | .owned values external _ => do
      if slot.isFree then throw (.contract "cannot restore into a free slot")
      return { values with
        slotId := slot.slotId
        allocationEpoch := slot.allocationEpoch
        isFree := slot.isFree
        lastActiveTime := slot.lastActiveTime
        c2wPooled := slot.c2wPooled
        c2wArenaBacked := slot.c2wArenaBacked
        extensionState := slot.extensionState
        talkerKv := if external.pooledTalker then slot.talkerKv else values.talkerKv
        c2wKv := if external.pooledC2w then slot.c2wKv else values.c2wKv
        c2wStates := if external.arenaBacked then slot.c2wStates else values.c2wStates }

namespace Executor

variable (e : Executor κ ξ)

/-! ## Writes -/

/-- The executor with another pool. -/
def setPool (pool : KVCachePool κ ξ) : Executor κ ξ := { e with kvPool := some pool }

/-- The rows of a slot, written with the values of the tensors. -/
def writeStates (k : Nat) : List (ArenaState κ) → List (Tensor κ) → List (ArenaState κ)
  | state :: states, tensor :: tensors =>
      { state with rows := Function.update state.rows k tensor.values } :: writeStates k states tensors
  | states, _ => states

/-- The rows of a slot in one arena, written. -/
def writeArena (inA : Bool) (k : Nat) (tensors : List (Tensor κ)) : Executor κ ξ :=
  if inA then { e with arenaA := e.arenaA.map fun states => writeStates k states tensors }
  else { e with arenaB := e.arenaB.map fun states => writeStates k states tensors }

/-- The write of the fields. -/
def restoreSlot (k : Nat) (payload : SlotPayload κ ξ) (now : Int) :
    Except StateError (Executor κ ξ) := do
  let some pool := e.kvPool | throw (.contract "speech-state restore requires an initialized KV pool")
  let slot ← payload.restoreInto (pool.slots k) now
  return e.setPool (pool.setSlot k slot)

/-- `restore_pooled_talker_kv` of the pool. -/
def restoreTalker (k : Nat) (kv : KV κ) (epoch : Int) : Except StateError (Executor κ ξ) := do
  let some pool := e.kvPool | throw (.contract "speech-state restore requires an initialized KV pool")
  let (_, restored) ← ofPool (pool.restorePooledTalkerKv k kv epoch)
  return e.setPool restored

/-- `restore_pooled_c2w_kv` of the pool. -/
def restoreC2w (k : Nat) (kv : KV κ) (epoch : Int) : Except StateError (Executor κ ξ) := do
  let some pool := e.kvPool | throw (.contract "speech-state restore requires an initialized KV pool")
  let (_, restored) ← ofPool (pool.restorePooledC2wKv k kv epoch)
  return e.setPool restored

/-- The groups of an arena payload against the rows of a slot. -/
def arenaGroups (k : Nat) (arena : C2WArenaSnapshot κ) :
    List (Option (List (Buffer κ)) × List (Buffer κ)) :=
  let readRows := e.arenaRowViews (!arena.writeInA) k
  let writeRows := e.arenaRowViews arena.writeInA k
  [(some (arena.readConv.map .own), readRows.1), (some (arena.readTransconv.map .own), readRows.2),
    (some (arena.writeConv.map .own), writeRows.1),
    (some (arena.writeTransconv.map .own), writeRows.2)]

/-- `restore_c2w_arena`. -/
def restoreC2wArena (k : Nat) (arena : C2WArenaSnapshot κ) (epoch : Int) (sourceSlotId : Nat)
    (sourceEpoch : Nat) : Except StateError (Executor κ ξ) := do
  let some pool := e.kvPool | throw (.contract "speech-state restore requires an initialized KV pool")
  e.validateC2wSnapshotTarget pool k epoch
  if arena.sourceSlotId ≠ sourceSlotId ∨ arena.sourceAllocationEpoch ≠ sourceEpoch then
    throw (.value "C2W arena snapshot source ownership mismatch")
  e.validateC2wSnapshotTensors false (e.arenaGroups k arena)
  let readRows := e.arenaRowViews (!arena.writeInA) k
  let writeRows := e.arenaRowViews arena.writeInA k
  let written := (e.writeArena (!arena.writeInA) k (arena.readConv ++ arena.readTransconv)).writeArena
    arena.writeInA k (arena.writeConv ++ arena.writeTransconv)
  return written.setPool (pool.setSlot k { pool.slots k with
    c2wStates :=
      { conv := some readRows.1
        transconv := some readRows.2
        convWrite := some writeRows.1
        transconvWrite := some writeRows.2
        writeInA := arena.writeInA }
    c2wArenaBacked := true })

/-! ## Restore -/

/-- The identity of the target. -/
def validateTargetIdentity (k : Nat) (bundle : Bundle κ ξ) (epoch : Int) :
    Except StateError (KVCachePool κ ξ) := do
  let some pool := e.kvPool | throw (.contract "speech-state restore requires an initialized KV pool")
  let slot := pool.slots k
  if slot.isFree then throw (.contract "speech-state restore target owner mismatch")
  if pool.maxSlots ≤ slot.slotId then throw (.pool .index)
  if slot.slotId ≠ k ∨ epoch ≤ 0 ∨ (slot.allocationEpoch : Int) ≠ epoch then
    throw (.contract "speech-state restore target owner mismatch")
  if slot.sessionId ≠ some bundle.sourceSlotSessionId ∨ slot.segmentIdx ≠ bundle.sourceSegmentIdx then
    throw (.contract "same-segment restore requires matching slot identity")
  return pool

/-- The pooled Talker payload against the pool. -/
def validateTalkerPayload (pool : KVCachePool κ ξ) (payload : Option (KV κ)) :
    Except StateError Unit :=
  match pool.talkerPool, payload with
  | none, none => .ok ()
  | none, some _ => .error (.contract "unexpected pooled Talker payload")
  | some _, none => .error (.contract "pooled Talker payload is missing")
  | some tensor, some kv => (fun _ => ()) <$> ofPool (KVCachePool.validatePooledPayload kv tensor .talker)

/-- The pooled Code2Wav payload against the pool. -/
def validateC2wPayload (pool : KVCachePool κ ξ) (payload : Option (KV κ)) : Except StateError Unit :=
  match payload, pool.c2wPool with
  | none, _ => .ok ()
  | some _, none => .error (.contract "pooled C2W payload is incompatible")
  | some kv, some tensor => (fun _ => ()) <$> ofPool (KVCachePool.validatePooledPayload kv tensor .c2w)

/-- The arena payload against the rows of the target. -/
def validateArenaPayload (pool : KVCachePool κ ξ) (k : Nat) (bundle : Bundle κ ξ) (epoch : Int) :
    Except StateError Unit :=
  match bundle.arenaPayload with
  | none => .ok ()
  | some arena => do
      e.validateC2wSnapshotTarget pool k epoch
      if arena.sourceSlotId ≠ bundle.sourceSlotId
          ∨ arena.sourceAllocationEpoch ≠ bundle.sourceAllocationEpoch then
        throw (.contract "C2W arena source identity mismatch")
      e.validateC2wSnapshotTensors false (e.arenaGroups k arena)

/-- What is checked of a payload before the first write. -/
def validatePayloads (pool : KVCachePool κ ξ) (k : Nat) (bundle : Bundle κ ξ) (epoch : Int) :
    Except StateError Unit :=
  match bundle.slotPayload with
  | .standalone _ _ => do
      if bundle.pooledTalkerPayload.isSome ∨ bundle.pooledC2wPayload.isSome
          ∨ bundle.arenaPayload.isSome then
        throw (.contract "standalone bundle contains external storage payloads")
  | .owned _ _ _ => do
      let slot := pool.slots k
      if bundle.pooledC2wPayload.isNone ∧ slot.c2wPooled then
        throw (.contract "non-pooled C2W bundle cannot overwrite a pooled target")
      if bundle.arenaPayload.isNone ∧ slot.c2wArenaBacked then
        throw (.contract "bundle without arena state cannot overwrite an arena target")
      validateTalkerPayload pool bundle.pooledTalkerPayload
      validateC2wPayload pool bundle.pooledC2wPayload
      e.validateArenaPayload pool k bundle epoch

/-- Writes one after the other: what has been written stays when one raises. -/
def runWrites (e : Executor κ ξ) :
    List (Executor κ ξ → Except StateError (Executor κ ξ)) → Executor κ ξ × Except StateError Unit
  | [] => (e, .ok ())
  | write :: writes =>
      match write e with
      | .error error => (e, .error error)
      | .ok written => runWrites written writes

/-- A write of a payload that there may be. -/
def writeIfSome {α : Type} (payload : Option α)
    (write : α → Executor κ ξ → Except StateError (Executor κ ξ)) (e : Executor κ ξ) :
    Except StateError (Executor κ ξ) :=
  match payload with
  | none => .ok e
  | some value => write value e

/-- The writes of a bundle. -/
def restoreWrites (k : Nat) (bundle : Bundle κ ξ) (epoch : Int) (now : Int) :
    List (Executor κ ξ → Except StateError (Executor κ ξ)) :=
  [fun e => e.restoreSlot k bundle.slotPayload now,
    writeIfSome bundle.pooledTalkerPayload fun kv e => e.restoreTalker k kv epoch,
    writeIfSome bundle.pooledC2wPayload fun kv e => e.restoreC2w k kv epoch,
    writeIfSome bundle.arenaPayload fun arena e =>
      e.restoreC2wArena k arena epoch bundle.sourceSlotId bundle.sourceAllocationEpoch]

/-- `restore_speech_state_bundle` into the slot `k`: the executor that it leaves, and what it raises. -/
def restoreSpeechStateBundle (k : Nat) (bundle : Bundle κ ξ) (epoch : Int) (now : Int) :
    Executor κ ξ × Except StateError Unit :=
  match (e.validateTargetIdentity k bundle epoch >>= fun pool =>
      e.validatePayloads pool k bundle epoch) with
  | .error error => (e, .error error)
  | .ok () => e.runWrites (restoreWrites k bundle epoch now)

end Executor

/-! ## Handles -/

/-- `SpeechStateTransfer`. -/
inductive SpeechStateTransfer
  | none
  | exact
  | trainedApproximate
  | reconstructionApproximate
  deriving DecidableEq, Repr

/-- `SpeechStateHandle`. -/
structure SpeechStateHandle where
  handleId : Text
  generation : Int
  attemptId : Int
  slotAllocationEpoch : Int
  ownerSessionId : Text
  sourceSegmentIdx : Int
  transfer : SpeechStateTransfer
  modelFingerprint : Text
  runtimeFingerprint : Text
  deriving DecidableEq

/-- The constructor of a handle. -/
def SpeechStateHandle.checked (h : SpeechStateHandle) : Except StateError SpeechStateHandle := do
  let handleId := strip h.handleId
  if handleId = [] then throw (.value "handle_id must not be empty")
  if h.generation < 0 then throw (.value "generation must be non-negative")
  if h.attemptId < 0 then throw (.value "attempt_id must be non-negative")
  if h.slotAllocationEpoch < 0 then throw (.value "slot_allocation_epoch must be non-negative")
  if h.sourceSegmentIdx < -1 then throw (.value "source_segment_idx must be >= -1")
  return { h with handleId := handleId }

/-- `SpeechStateContext` of a `PAUSE_RESUME` in the `RESTORE` phase. -/
structure SpeechStateContext where
  sessionId : Text
  segmentIdx : Int
  attemptId : Int
  slotAllocationEpoch : Int
  sourceSegmentIdx : Int
  sourceAttemptId : Int
  sourceSlotAllocationEpoch : Int
  modelFingerprint : Text
  runtimeFingerprint : Text
  sourceGeneration : Option Int

/-- The constructor of a context. -/
def SpeechStateContext.checked (c : SpeechStateContext) : Except StateError SpeechStateContext := do
  if c.segmentIdx < 0 then throw (.contract "invalid segment_idx")
  if c.attemptId < 0 then throw (.contract "invalid attempt_id")
  if c.slotAllocationEpoch < 0 then throw (.contract "invalid slot_allocation_epoch")
  if c.sourceSegmentIdx < -1 then throw (.contract "invalid source_segment_idx")
  if c.sourceAttemptId < 0 then throw (.contract "invalid source_attempt_id")
  if c.sourceSlotAllocationEpoch < 0 then throw (.contract "invalid source_slot_allocation_epoch")
  if c.sourceGeneration.any (· < 0) then throw (.contract "invalid source_generation")
  let sessionId := strip c.sessionId
  if sessionId = [] then throw (.contract "session_id must not be empty")
  return { c with sessionId := sessionId }

/-- `validate_restore_context`. -/
def validateRestoreContext (h : SpeechStateHandle) (c : SpeechStateContext) :
    Except StateError Unit := do
  if h.ownerSessionId ≠ c.sessionId then throw (.contract "speech state belongs to another session")
  if c.sourceSegmentIdx < 0 then throw (.contract "restore requires a source segment")
  if h.sourceSegmentIdx ≠ c.sourceSegmentIdx then
    throw (.contract "speech state source segment mismatch")
  if h.attemptId ≠ c.sourceAttemptId then throw (.contract "speech state source attempt mismatch")
  if h.slotAllocationEpoch ≠ c.sourceSlotAllocationEpoch then
    throw (.contract "speech state source slot epoch mismatch")
  if h.transfer = .none then throw (.contract "speech state handle has no transfer class")
  if c.sourceGeneration = none then throw (.contract "restore requires a source generation")
  if some h.generation ≠ c.sourceGeneration then
    throw (.contract "speech state source generation mismatch")
  if strip c.modelFingerprint = [] ∨ strip h.modelFingerprint = []
      ∨ c.modelFingerprint ≠ h.modelFingerprint then
    throw (.contract "speech state model fingerprint mismatch")
  if strip c.runtimeFingerprint = [] ∨ strip h.runtimeFingerprint = []
      ∨ c.runtimeFingerprint ≠ h.runtimeFingerprint then
    throw (.contract "speech state runtime fingerprint mismatch")

/-- The entries of a `SpeechStateHandleStore`, at most one for each handle id. -/
abbrev HandleStore (κ ξ : Type) := List (SpeechStateHandle × Bundle κ ξ)

namespace HandleStore

variable (store : HandleStore κ ξ)

/-- `_entries.get(handle_id)`. -/
def get (handleId : Text) : Option (SpeechStateHandle × Bundle κ ξ) :=
  store.find? fun entry => entry.1.handleId = handleId

/-- The store without the entry of a handle id. -/
def delete (handleId : Text) : HandleStore κ ξ := store.filter fun entry => entry.1.handleId ≠ handleId

/-- `create`: the handle, and the store with it. -/
def create (handle : SpeechStateHandle) (payload : Bundle κ ξ) :
    Except StateError (SpeechStateHandle × HandleStore κ ξ) := do
  let handle ← handle.checked
  if (get store handle.handleId).isSome then throw (.contract "duplicate speech state handle")
  return (handle, store ++ [(handle, payload)])

/-- `consume`. -/
def consume (handle : SpeechStateHandle) (context : SpeechStateContext) :
    Except StateError (Bundle κ ξ × HandleStore κ ξ) := do
  let some entry := get store handle.handleId
    | throw (.contract "unknown or already consumed speech state handle")
  if entry.1 ≠ handle then throw (.contract "speech state handle metadata changed")
  validateRestoreContext handle context
  return (entry.2, delete store handle.handleId)

/-- `release`. -/
def release (handle : SpeechStateHandle) : Except StateError (HandleStore κ ξ) := do
  let some entry := get store handle.handleId | return store
  if entry.1 ≠ handle then throw (.contract "speech state handle metadata changed")
  return delete store handle.handleId

end HandleStore

end StreamingTts.Engine.Pooled
