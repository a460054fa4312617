import StreamingTts.Engine.SlotState
import StreamingTts.Frontend.TtsText

/-!
# Capture and restore of a slot

`capture_speech_state_bundle` and `restore_speech_state_bundle` of `engine/backend/executor.py`, with the
snapshots of `engine/backend/slot_snapshot.py` and the state arenas. A slot of the pool is named by its
index, which is where the pool keeps the object. A snapshot holds a copy of the slot, and says which fields
of it are excluded.
-/

namespace StreamingTts.Engine.Pooled

open Frontend (Text lstrip rstrip)

variable {κ : Type} {ξ : Type}

/-! ## The executor -/

/-- One state of an arena: a row of values for each slot. -/
structure ArenaState (κ : Type) where
  shape : List Nat
  medium : Medium
  rows : Nat → κ

/-- The row of a slot (`t[slot_id : slot_id + 1]`). -/
def ArenaState.row (a : ArenaState κ) (k : Nat) : Tensor κ := ⟨1 :: a.shape.tail, a.medium, a.rows k⟩

/-- What the functions below read of the executor. -/
structure Executor (κ ξ : Type) where
  kvPool : Option (KVCachePool κ ξ)
  arenaA : Option (List (ArenaState κ)) := none
  arenaB : Option (List (ArenaState κ)) := none
  convShapes : List (List Nat) := []
  transconvShapes : List (List Nat) := []
  /-- `_config.dtype`, `_device` and `torch.strided` -/
  medium : Medium

/-- What a capture or a restore raises. -/
inductive StateError
  /-- a `SpeechStateContractError` -/
  | contract (message : String)
  /-- a `ValueError` -/
  | value (message : String)
  /-- an error of the pool -/
  | pool (error : PoolError)
  /-- `speech-state capture exceeds tensor byte budget: ... > ...` -/
  | exceedsBudget (total budget : Int)
  deriving DecidableEq, Repr

/-- An error of the pool that is passed on. -/
def ofPool {α : Type} : Except PoolError α → Except StateError α
  | .ok a => .ok a
  | .error e => .error (.pool e)

namespace Executor

variable (e : Executor κ ξ)

/-- One of the two arenas. -/
def arena (inA : Bool) : Option (List (ArenaState κ)) := if inA then e.arenaA else e.arenaB

/-- What a buffer holds. -/
def read : Buffer κ → Option (Tensor κ)
  | .own tensor => some tensor
  | .row inA k j => do
      let states ← e.arena inA
      let state ← states[j]?
      return state.row k

/-- The bytes of a buffer. -/
def bufferBytes (b : Buffer κ) : Nat := ((e.read b).map Tensor.bytes).getD 0

/-- `_clone` of a buffer: a tensor of its own. -/
def cloneBuffer (b : Buffer κ) : Buffer κ :=
  match e.read b with
  | some tensor => .own tensor
  | none => b

/-- `_arena_row_views`. -/
def arenaRowViews (inA : Bool) (k : Nat) : List (Buffer κ) × List (Buffer κ) :=
  let rows := (List.range ((e.arena inA).getD []).length).map fun j => Buffer.row inA k j
  (rows.take e.convShapes.length, rows.drop e.convShapes.length)

/-! ## Sizes and copies -/

/-- `_size` of a list of buffers that may be absent. -/
def buffersBytes (buffers : Option (List (Buffer κ))) : Nat :=
  ((buffers.getD []).map e.bufferBytes).sum

/-- The bytes of the state buffers of a slot. -/
def statesBytes (s : C2WStates κ) : Nat :=
  e.buffersBytes s.conv + e.buffersBytes s.transconv + e.buffersBytes s.convWrite
    + e.buffersBytes s.transconvWrite

/-- `_clone` of the state buffers of a slot. -/
def cloneStates (s : C2WStates κ) : C2WStates κ :=
  { s with
    conv := s.conv.map (·.map e.cloneBuffer)
    transconv := s.transconv.map (·.map e.cloneBuffer)
    convWrite := s.convWrite.map (·.map e.cloneBuffer)
    transconvWrite := s.transconvWrite.map (·.map e.cloneBuffer) }

end Executor

/-- The bytes of a tensor that may be absent. -/
def optionBytes (t : Option (Tensor κ)) : Nat := (t.map Tensor.bytes).getD 0

/-- The bytes of a history that may be absent. -/
def kvBytes (kv : Option (KV κ)) : Nat := (kv.map KV.bytes).getD 0

/-- The bytes of the cursor fields. -/
def CursorState.bytes (c : CursorState κ) : Nat :=
  ([c.labelIds, c.labelCount, c.active, c.mu, c.framesSinceAdvance, c.deltaHistory, c.convHistory,
    c.lastTrunkInput, c.seenFrames, c.textStartFrame, c.overrideValid, c.overrideMu].map
      optionBytes).sum

/-- The bytes of the fields that every snapshot has. -/
def SlotKVState.auxiliaryBytes (slot : SlotKVState κ ξ) : Nat :=
  optionBytes slot.nextEmbed + optionBytes slot.lastCodecSum + optionBytes slot.tokenCounts
    + slot.cursor.bytes + (slot.trailing.map Tensor.bytes).sum
    + ((slot.samplingGenerator.map fun g => g.state.bytes).getD 0)

/-- Which storage of a slot is not its own. -/
structure External where
  pooledTalker : Bool := false
  pooledC2w : Bool := false
  arenaBacked : Bool := false
  deriving DecidableEq

/-- The bytes of the fields of a slot that a snapshot copies. -/
def ownedBytes (e : Executor κ ξ) (slot : SlotKVState κ ξ) (external : External) : Nat :=
  slot.auxiliaryBytes + (if external.pooledTalker then 0 else kvBytes slot.talkerKv)
    + (if external.pooledC2w then 0 else kvBytes slot.c2wKv)
    + (if external.arenaBacked then 0 else e.statesBytes slot.c2wStates)

/-! ## Payloads -/

/-- A `StandaloneSlotSnapshot` or a `SlotOwnedSnapshot`: the copied slot, and its size. -/
inductive SlotPayload (κ ξ : Type)
  | standalone (values : SlotKVState κ ξ) (tensorBytes : Nat)
  | owned (values : SlotKVState κ ξ) (external : External) (tensorBytes : Nat)

/-- `tensor_bytes`. -/
def SlotPayload.bytes : SlotPayload κ ξ → Nat
  | .standalone _ n | .owned _ _ n => n

/-- `C2WArenaSnapshot`. -/
structure C2WArenaSnapshot (κ : Type) where
  readConv : List (Tensor κ)
  readTransconv : List (Tensor κ)
  writeConv : List (Tensor κ)
  writeTransconv : List (Tensor κ)
  writeInA : Bool
  sourceSlotId : Nat
  sourceAllocationEpoch : Nat

/-- `tensor_bytes`. -/
def C2WArenaSnapshot.bytes (a : C2WArenaSnapshot κ) : Nat :=
  ((a.readConv ++ a.readTransconv ++ a.writeConv ++ a.writeTransconv).map Tensor.bytes).sum

/-- What is read of a `SegmentRuntimeMetadata`. -/
structure SegmentMetadata where
  sessionId : Text
  segmentIdx : Int
  retryIdx : Int
  deriving DecidableEq

/-- `SpeechStateSnapshotBundle`. -/
structure Bundle (κ ξ : Type) where
  sourceSessionId : Text
  sourceSegmentIdx : Int
  sourceSlotId : Nat
  sourceAllocationEpoch : Nat
  metadata : SegmentMetadata
  slotPayload : SlotPayload κ ξ
  pooledTalkerPayload : Option (KV κ)
  pooledC2wPayload : Option (KV κ)
  arenaPayload : Option (C2WArenaSnapshot κ)
  sourceSlotSessionId : Text

/-- The bytes of the four payloads. -/
def Bundle.bytes (b : Bundle κ ξ) : Nat :=
  b.slotPayload.bytes + kvBytes b.pooledTalkerPayload + kvBytes b.pooledC2wPayload
    + (b.arenaPayload.map C2WArenaSnapshot.bytes).getD 0

/-- `str.strip`. -/
def strip (text : Text) : Text := rstrip (lstrip text)

/-- The constructor of a bundle. -/
def Bundle.checked (b : Bundle κ ξ) : Except StateError (Bundle κ ξ) := do
  let sourceSessionId := strip b.sourceSessionId
  if sourceSessionId = [] then throw (.contract "snapshot source session is empty")
  let slotSessionId := strip b.sourceSlotSessionId
  let slotSessionId := if slotSessionId = [] then sourceSessionId else slotSessionId
  if b.sourceSegmentIdx < 0 then throw (.contract "invalid snapshot source_segment_idx")
  if b.sourceAllocationEpoch < 1 then throw (.contract "invalid snapshot source_allocation_epoch")
  if b.metadata.sessionId ≠ sourceSessionId then throw (.contract "snapshot session metadata mismatch")
  if b.metadata.segmentIdx ≠ b.sourceSegmentIdx then
    throw (.contract "snapshot segment metadata mismatch")
  return { b with sourceSessionId := sourceSessionId, sourceSlotSessionId := slotSessionId }

/-! ## Capture -/

namespace Executor

variable (e : Executor κ ξ)

/-- A history of the given length is where the slot says it is. -/
def historyMissing (kv : Option (KV κ)) (length : Int) : Bool :=
  length ≠ 0 && (kv.all fun kv => (kv.frames.length : Int) ≠ length)

/-- `StandaloneSlotSnapshot(slot, max_tensor_bytes=...)`. -/
def standaloneSnapshot (slot : SlotKVState κ ξ) (budget : Int) : Except StateError (SlotPayload κ ξ) := do
  if slot.isFree then throw (.contract "cannot snapshot a free slot")
  if slot.c2wPooled ∨ slot.c2wArenaBacked then
    throw (.contract "pooled/arena slot requires pool-aware capture")
  if slot.c2wLen < 0 ∨ (0 < slot.c2wLen ∧ slot.c2wKv.isNone) then
    throw (.contract "C2W KV does not contain the valid history")
  if slot.pastLen < 0 then throw (.contract "invalid Talker past length")
  if historyMissing slot.talkerKv slot.pastLen then
    throw (.contract "Talker KV does not contain the valid history")
  if budget < ownedBytes e slot {} then throw (.contract "slot snapshot exceeds tensor byte budget")
  return .standalone { slot with c2wStates := e.cloneStates slot.c2wStates } (ownedBytes e slot {})

/-- `SlotOwnedSnapshot(slot, ..., max_tensor_bytes=...)`. -/
def ownedSnapshot (slot : SlotKVState κ ξ) (external : External) (budget : Int) :
    Except StateError (SlotPayload κ ξ) := do
  if slot.isFree then throw (.contract "cannot snapshot a free slot")
  if slot.pastLen < 0 ∨ slot.c2wLen < 0 then throw (.contract "invalid KV history length")
  if external.pooledTalker = false ∧ historyMissing slot.talkerKv slot.pastLen then
    throw (.contract "Talker KV does not contain the valid history")
  if external.pooledC2w = false ∧ historyMissing slot.c2wKv slot.c2wLen then
    throw (.contract "C2W KV does not contain the valid history")
  if budget < ownedBytes e slot external then
    throw (.contract "slot-owned snapshot exceeds tensor byte budget")
  return .owned { slot with c2wStates := e.cloneStates slot.c2wStates } external
    (ownedBytes e slot external)

/-- The storage of one arena (`_validate_c2w_snapshot_target`). -/
def validateArena (maxSlots : Nat) (arena : Option (List (ArenaState κ))) :
    Except StateError Unit := do
  let shapes := e.convShapes ++ e.transconvShapes
  let some states := arena | throw (.value "C2W arena storage unavailable or incomplete")
  if shapes = [] ∨ states.length ≠ shapes.length then
    throw (.value "C2W arena storage unavailable or incomplete")
  if (states.map fun s => (s.shape, s.medium))
      ≠ shapes.map fun shape => (maxSlots :: shape.tail, e.medium) then
    throw (.value "C2W arena storage ABI mismatch")

/-- `_validate_c2w_snapshot_target`. -/
def validateC2wSnapshotTarget (pool : KVCachePool κ ξ) (k : Nat) (epoch : Int) :
    Except StateError Unit := do
  let slot := pool.slots k
  if epoch ≤ 0 ∨ pool.maxSlots ≤ slot.slotId ∨ slot.slotId ≠ k ∨ slot.isFree
      ∨ (slot.allocationEpoch : Int) ≠ epoch then throw (.value "C2W arena owner mismatch")
  e.validateArena pool.maxSlots e.arenaA
  e.validateArena pool.maxSlots e.arenaB

/-- A buffer has the shape and the medium of a row. -/
def sameAbi (b row : Buffer κ) : Bool :=
  match e.read b, e.read row with
  | some t, some r => t.shape = r.shape && t.medium = r.medium
  | _, _ => false

/-- The buffers of a group against its rows. -/
def checkBuffers (requireViews : Bool) : List (Buffer κ × Buffer κ) → Except StateError Unit
  | [] => return ()
  | (b, row) :: rest => do
      if !e.sameAbi b row then throw (.value "C2W arena snapshot tensor ABI mismatch")
      if requireViews ∧ b.place ≠ row.place then
        throw (.value "C2W arena slot views are not bound to their owner row")
      checkBuffers requireViews rest

/-- `_validate_c2w_snapshot_tensors`. -/
def validateC2wSnapshotTensors (requireViews : Bool) :
    List (Option (List (Buffer κ)) × List (Buffer κ)) → Except StateError Unit
  | [] => return ()
  | (group, rows) :: rest => do
      let some buffers := group | throw (.value "C2W arena snapshot state count mismatch")
      if buffers.length ≠ rows.length then
        throw (.value "C2W arena snapshot state count mismatch")
      e.checkBuffers requireViews (buffers.zip rows)
      validateC2wSnapshotTensors requireViews rest

/-- The tensors that buffers hold. -/
def detach (buffers : Option (List (Buffer κ))) : List (Tensor κ) := (buffers.getD []).filterMap e.read

/-- `snapshot_c2w_arena`. -/
def snapshotC2wArena (pool : KVCachePool κ ξ) (k : Nat) (epoch : Int) (budget : Int) :
    Except StateError (C2WArenaSnapshot κ) := do
  e.validateC2wSnapshotTarget pool k epoch
  let slot := pool.slots k
  let states := slot.c2wStates
  if !slot.c2wArenaBacked then throw (.value "C2W arena snapshot requires an arena-backed slot")
  let readRows := e.arenaRowViews (!states.writeInA) k
  let writeRows := e.arenaRowViews states.writeInA k
  e.validateC2wSnapshotTensors true
    [(states.conv, readRows.1), (states.transconv, readRows.2),
      (states.convWrite, writeRows.1), (states.transconvWrite, writeRows.2)]
  if budget < 0 then throw (.contract "max_tensor_bytes must be nonnegative")
  if budget < e.statesBytes states then
    throw (.contract "C2W arena snapshot exceeds tensor byte budget")
  return {
    readConv := e.detach states.conv
    readTransconv := e.detach states.transconv
    writeConv := e.detach states.convWrite
    writeTransconv := e.detach states.transconvWrite
    writeInA := states.writeInA
    sourceSlotId := slot.slotId
    sourceAllocationEpoch := slot.allocationEpoch }

/-- The pooled Talker history, if there is a pool. -/
def takeTalker (pool : KVCachePool κ ξ) (k : Nat) (budget : Int) : Except StateError (Option (KV κ)) :=
  if pool.talkerPool.isSome then
    ofPool (pool.snapshotPooledTalkerKv k (pool.slots k).allocationEpoch (some budget))
  else .ok none

/-- The pooled Code2Wav history of a slot that has one. -/
def takeC2w (pool : KVCachePool κ ξ) (k : Nat) (budget : Int) : Except StateError (Option (KV κ)) :=
  if (pool.slots k).c2wPooled then
    ofPool (pool.snapshotPooledC2wKv k (pool.slots k).allocationEpoch (some budget))
  else .ok none

/-- The arena rows of a slot that has some. -/
def takeArena (pool : KVCachePool κ ξ) (k : Nat) (budget : Int) :
    Except StateError (Option (C2WArenaSnapshot κ)) :=
  if (pool.slots k).c2wArenaBacked then
    some <$> e.snapshotC2wArena pool k (pool.slots k).allocationEpoch budget
  else .ok none

/-- The payloads of a slot that has storage outside of it. -/
def externalPayloads (pool : KVCachePool κ ξ) (k : Nat) (budget : Int) :
    Except StateError
      (SlotPayload κ ξ × Option (KV κ) × Option (KV κ) × Option (C2WArenaSnapshot κ)) := do
  let slot := pool.slots k
  let slotPayload ← e.ownedSnapshot slot
    ⟨pool.talkerPool.isSome, slot.c2wPooled, slot.c2wArenaBacked⟩ budget
  let talker ← takeTalker pool k (budget - slotPayload.bytes)
  let used : Int := slotPayload.bytes + kvBytes talker
  if pool.talkerPool.isSome ∧ slot.pastLen ≠ 0 ∧ talker.isNone then
    throw (.contract "Talker state is missing for capture")
  let c2w ← takeC2w pool k (budget - used)
  if slot.c2wPooled ∧ slot.c2wLen ≠ 0 ∧ c2w.isNone then
    throw (.contract "pooled C2W state is missing for capture")
  if ¬ slot.c2wPooled ∧ slot.c2wLen ≠ 0 ∧ slot.c2wKv.isNone then
    throw (.contract "C2W state is missing for capture")
  let arena ← e.takeArena pool k (budget - used - kvBytes c2w)
  return (slotPayload, talker, c2w, arena)

/-- The four payloads of a slot. -/
def payloads (pool : KVCachePool κ ξ) (k : Nat) (budget : Int) :
    Except StateError
      (SlotPayload κ ξ × Option (KV κ) × Option (KV κ) × Option (C2WArenaSnapshot κ)) :=
  let slot := pool.slots k
  if pool.talkerPool.isSome ∨ slot.c2wPooled ∨ slot.c2wArenaBacked then
    e.externalPayloads pool k budget
  else (fun payload => (payload, none, none, none)) <$> e.standaloneSnapshot slot budget

/-- `capture_speech_state_bundle` of the slot `k`. -/
def captureSpeechStateBundle (k : Nat) (metadata : SegmentMetadata) (maxTensorBytes : Int)
    (expectedSlotSessionId : Option Text) : Except StateError (Bundle κ ξ) := do
  if maxTensorBytes < 0 then throw (.contract "max_tensor_bytes must be nonnegative")
  let some pool := e.kvPool
    | throw (.contract "speech-state capture requires an initialized KV pool")
  let slot := pool.slots k
  if slot.isFree then throw (.contract "cannot capture a free slot")
  if pool.maxSlots ≤ slot.slotId then throw (.pool .index)
  if slot.slotId ≠ k ∨ slot.allocationEpoch = 0 then
    throw (.contract "speech-state slot ownership mismatch")
  let expected := if (expectedSlotSessionId.getD []) = [] then metadata.sessionId
    else expectedSlotSessionId.getD []
  if some expected ≠ slot.sessionId ∨ metadata.segmentIdx ≠ slot.segmentIdx
      ∨ metadata.retryIdx ≠ slot.retryIdx then
    throw (.contract "speech-state segment ownership mismatch")
  if pool.talkerPool.isSome ∧ slot.talkerKv.isSome ∧ slot.pastLen ≠ 0 then
    throw (.contract "pooled Talker slot unexpectedly owns detached talker_kv")
  let (slotPayload, talker, c2w, arena) ← e.payloads pool k maxTensorBytes
  let bundle : Bundle κ ξ :=
    { sourceSessionId := metadata.sessionId
      sourceSegmentIdx := metadata.segmentIdx
      sourceSlotId := slot.slotId
      sourceAllocationEpoch := slot.allocationEpoch
      metadata := metadata
      slotPayload := slotPayload
      pooledTalkerPayload := talker
      pooledC2wPayload := c2w
      arenaPayload := arena
      sourceSlotSessionId := slot.sessionId.getD [] }
  if maxTensorBytes < bundle.bytes then throw (.exceedsBudget bundle.bytes maxTensorBytes)
  bundle.checked

end Executor

end StreamingTts.Engine.Pooled
