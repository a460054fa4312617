import Mathlib
import StreamingTts.Frontend.Text

/-!
# The rows of the pool

`SlotKVState` and `KVCachePool` of `engine/backend/kv_cache_pool.py` with what the tensors hold: the row of
a slot in the pooled Talker and Code2Wav histories, the state buffers that a slot owns or that are views of
its arena rows, and the fields that its decode step reads. A history is a list of columns, one for each
frame. The bookkeeping of the engine loop works on the records of `Engine.KVCachePool`, which leave the
tensors out.
-/

namespace StreamingTts.Engine.Pooled

open Frontend (Text)

variable {κ : Type} {ξ : Type}

/-! ## Tensors -/

/-- A `torch.dtype`, with the size of an element. -/
structure DType where
  name : Nat
  elementSize : Nat
  deriving DecidableEq

/-- The type of the values, the device and the layout of a tensor. -/
structure Medium where
  dtype : DType
  device : Nat
  layout : Nat
  deriving DecidableEq

/-- A tensor: what is compared of it, and its values. -/
structure Tensor (κ : Type) where
  shape : List Nat
  medium : Medium
  values : κ
  deriving DecidableEq

/-- `numel() * element_size()`. -/
def Tensor.bytes (t : Tensor κ) : Nat := t.shape.prod * t.medium.dtype.elementSize

/-- A column of a history: the layers, heads and dimensions of one frame. -/
structure Column where
  layers : Nat
  heads : Nat
  dim : Nat
  medium : Medium
  deriving DecidableEq

/-- The bytes of one column. -/
def Column.bytes (c : Column) : Nat := c.layers * c.heads * c.dim * c.medium.dtype.elementSize

/-- A history of shape `[batch, layers, heads, frames, dim]`. -/
structure KV (κ : Type) where
  batch : Nat := 1
  column : Column
  frames : List κ
  deriving DecidableEq

/-- `numel() * element_size()`. -/
def KV.bytes (kv : KV κ) : Nat := kv.batch * kv.frames.length * kv.column.bytes

/-- A pooled history: a row of `capacity` columns for each slot. -/
structure PoolTensor (κ : Type) where
  slots : Nat
  column : Column
  capacity : Nat
  /-- a column of zeros -/
  zero : κ
  rows : Nat → Nat → κ

/-- The pool with one row written. -/
def PoolTensor.write (t : PoolTensor κ) (slot : Nat) (row : Nat → κ) : PoolTensor κ :=
  { t with rows := Function.update t.rows slot row }

/-- `n` columns of a row from `start` on. -/
def PoolTensor.read (t : PoolTensor κ) (slot start n : Nat) : List κ :=
  (List.range n).map fun j => t.rows slot (start + j)

/-! ## Slots -/

/-- A state buffer: a tensor of its own, or a view of a row of an arena. -/
inductive Buffer (κ : Type)
  | own (tensor : Tensor κ)
  /-- the state `index` of the row `slot` of the arena A or B -/
  | row (inA : Bool) (slot index : Nat)
  deriving DecidableEq

/-- Where a buffer is, if it is a row (`data_ptr()` and `stride()`). -/
def Buffer.place : Buffer κ → Option (Bool × Nat × Nat)
  | .own _ => none
  | .row inA slot index => some (inA, slot, index)

/-- A `torch.Generator`. -/
structure Generator (κ : Type) where
  device : Nat
  state : Tensor κ
  deriving DecidableEq

/-- The native-cursor fields of a slot. -/
structure CursorState (κ : Type) where
  labelIds : Option (Tensor κ) := none
  labelCount : Option (Tensor κ) := none
  active : Option (Tensor κ) := none
  mu : Option (Tensor κ) := none
  framesSinceAdvance : Option (Tensor κ) := none
  deltaHistory : Option (Tensor κ) := none
  convHistory : Option (Tensor κ) := none
  lastTrunkInput : Option (Tensor κ) := none
  seenFrames : Option (Tensor κ) := none
  textStartFrame : Option (Tensor κ) := none
  overrideValid : Option (Tensor κ) := none
  overrideMu : Option (Tensor κ) := none
  deriving DecidableEq

/-- The Code2Wav state buffers of a slot, and which side is written. -/
structure C2WStates (κ : Type) where
  conv : Option (List (Buffer κ)) := none
  transconv : Option (List (Buffer κ)) := none
  convWrite : Option (List (Buffer κ)) := none
  transconvWrite : Option (List (Buffer κ)) := none
  /-- `c2w_write_in_a` -/
  writeInA : Bool := false
  deriving DecidableEq

/-- `SlotKVState`. -/
structure SlotKVState (κ ξ : Type) where
  slotId : Nat
  allocationEpoch : Nat := 0
  sessionId : Option Text := none
  segmentIdx : Int := -1
  retryIdx : Int := 0
  isFree : Bool := true
  prefillSource : Text := []
  talkerKv : Option (KV κ) := none
  pastLen : Int := 0
  c2wKv : Option (KV κ) := none
  c2wLen : Int := 0
  c2wPooled : Bool := false
  c2wStates : C2WStates κ := {}
  c2wArenaBacked : Bool := false
  frameIdx : Int := 0
  nextEmbed : Option (Tensor κ) := none
  lastCodecSum : Option (Tensor κ) := none
  tokenCounts : Option (Tensor κ) := none
  cursor : CursorState κ := {}
  trailing : List (Tensor κ) := []
  textIdx : Int := 0
  tokenQueue : List Int := []
  extensionState : List (Text × ξ) := []
  padStartFrame : Int := -1
  padConsecutiveSilence : Int := 0
  samplingIdentity : Option Text := none
  samplingSeed : Option Int := none
  samplingGenerator : Option (Generator κ) := none
  lastActiveTime : Int := 0

/-! ## The pool -/

/-- The pooled history an operation is about. -/
inductive Kind
  | talker
  | c2w
  deriving DecidableEq, Repr

/-- What the operations of the pool raise. -/
inductive PoolError
  /-- the `IndexError` of the list of slots -/
  | index
  /-- `slot ... allocation epoch mismatch` -/
  | epochMismatch (slot : Nat) (expected : Int) (actual : Nat)
  /-- `pooled ... slot_id must be an in-range integer` -/
  | slotId (kind : Kind)
  /-- `pooled ... allocation epoch must be a non-negative integer` -/
  | epoch (kind : Kind)
  /-- `pooled ... owner mismatch` -/
  | owner (kind : Kind)
  /-- `pooled ... storage is unavailable` -/
  | storage (kind : Kind)
  /-- `pooled ... history length is out of range` -/
  | length (kind : Kind)
  /-- `pooled ... payload must have shape [1,L,H,T,D]` -/
  | payloadRank (kind : Kind)
  /-- `pooled ... payload shape is incompatible` -/
  | payloadShape (kind : Kind)
  /-- `pooled ... payload exceeds capacity` -/
  | payloadCapacity (kind : Kind)
  /-- `pooled ... payload representation is incompatible` -/
  | payloadMedium (kind : Kind)
  /-- `pooled ... snapshot byte budget must be a non-negative integer` -/
  | budget (kind : Kind)
  /-- `pooled ... snapshot exceeds byte budget` -/
  | exceedsBudget (kind : Kind)
  deriving DecidableEq, Repr

/-- `KVCachePool`. -/
structure KVCachePool (κ ξ : Type) where
  maxSlots : Nat
  preallocate : Bool
  slots : Nat → SlotKVState κ ξ
  freeSlots : List Nat
  talkerPool : Option (PoolTensor κ) := none
  c2wPool : Option (PoolTensor κ) := none

/-- What `_init_pool_tensors` reads of the `ModelConfig`. -/
structure ModelConfig (κ : Type) where
  talkerColumn : Column
  maxSeqLen : Nat
  c2wColumn : Column
  c2wSlidingWindow : Nat
  zero : κ

namespace KVCachePool

variable (p : KVCachePool κ ξ)

/-- `KVCachePool(max_slots, config, device, preallocate=...)`. -/
def new (maxSlots : Nat) (config : ModelConfig κ) (preallocate : Bool) : KVCachePool κ ξ where
  maxSlots := maxSlots
  preallocate := preallocate
  slots k := { slotId := k }
  freeSlots := List.range maxSlots
  talkerPool := if preallocate then
      some ⟨maxSlots, config.talkerColumn, config.maxSeqLen, config.zero, fun _ _ => config.zero⟩
    else none
  c2wPool := if preallocate then
      some ⟨maxSlots, config.c2wColumn, config.c2wSlidingWindow, config.zero, fun _ _ => config.zero⟩
    else none

/-- `used_count`. -/
def usedCount : Nat := p.maxSlots - p.freeSlots.length

/-- `active_slots`. -/
def activeSlots : List (SlotKVState κ ξ) :=
  ((List.range p.maxSlots).map p.slots).filter fun slot => !slot.isFree

/-- The pool with one slot changed. -/
def setSlot (k : Nat) (slot : SlotKVState κ ξ) : KVCachePool κ ξ :=
  { p with slots := Function.update p.slots k slot }

/-- The pooled history of a kind. -/
def tensor : Kind → Option (PoolTensor κ)
  | .talker => p.talkerPool
  | .c2w => p.c2wPool

/-- The pool with one row of a history written. -/
def writeRow (kind : Kind) (k : Nat) (row : Nat → κ) : KVCachePool κ ξ :=
  match kind with
  | .talker => { p with talkerPool := p.talkerPool.map fun t => t.write k row }
  | .c2w => { p with c2wPool := p.c2wPool.map fun t => t.write k row }

/-- Both rows of a slot are zeroed, where there are pools. -/
def zeroRows (k : Nat) : KVCachePool κ ξ :=
  if p.preallocate ∧ p.talkerPool.isSome then
    { p with
      talkerPool := p.talkerPool.map fun t => t.write k fun _ => t.zero
      c2wPool := p.c2wPool.map fun t => t.write k fun _ => t.zero }
  else p

/-- A slot as `allocate` hands it out. -/
def freshSlot (slot : SlotKVState κ ξ) (sessionId : Text) (now : Int) : SlotKVState κ ξ :=
  { slotId := slot.slotId
    allocationEpoch := slot.allocationEpoch + 1
    sessionId := some sessionId
    isFree := false
    lastActiveTime := now }

/-- `allocate`: the slot that is handed out. -/
def allocate (sessionId : Text) (now : Int) : Option (Nat × KVCachePool κ ξ) :=
  match p.freeSlots.getLast? with
  | none => none
  | some k =>
      let popped := { p with freeSlots := p.freeSlots.dropLast }
      some (k, (popped.setSlot k (freshSlot (p.slots k) sessionId now)).zeroRows k)

/-- A slot as `release` leaves it. -/
def releasedSlot (slot : SlotKVState κ ξ) : SlotKVState κ ξ :=
  { slotId := slot.slotId
    allocationEpoch := slot.allocationEpoch
    lastActiveTime := slot.lastActiveTime }

/-- `release`. -/
def release (k : Nat) (expectedAllocationEpoch : Option Int) : Except PoolError (KVCachePool κ ξ) := do
  if p.maxSlots ≤ k then throw .index
  let slot := p.slots k
  if let some expected := expectedAllocationEpoch then
    if expected ≠ slot.allocationEpoch then
      throw (.epochMismatch k expected slot.allocationEpoch)
  if slot.isFree then return p
  return { p.setSlot k (releasedSlot slot) with freeSlots := p.freeSlots ++ [k] }

/-- `force_evict`: the session of the slot. -/
def forceEvict (k : Nat) : Except PoolError (Option Text × KVCachePool κ ξ) := do
  if p.maxSlots ≤ k then throw .index
  if (p.slots k).isFree then return (none, p)
  let released ← p.release k (some (p.slots k).allocationEpoch)
  return ((p.slots k).sessionId, released)

/-! ### Snapshots -/

/-- `_validate_pooled_state_contract`. -/
def validatePooledStateContract (k : Nat) (expectedAllocationEpoch : Int) (kind : Kind)
    (requirePool : Bool) : Except PoolError (SlotKVState κ ξ) := do
  if p.maxSlots ≤ k then throw (.slotId kind)
  if expectedAllocationEpoch < 0 then throw (.epoch kind)
  let slot := p.slots k
  if slot.isFree ∨ (slot.allocationEpoch : Int) ≠ expectedAllocationEpoch then throw (.owner kind)
  if requirePool ∧ (p.tensor kind).isNone then throw (.storage kind)
  return slot

/-- `_validate_pooled_length`. -/
def validatePooledLength (length : Int) (capacity : Nat) (kind : Kind) : Except PoolError Nat := do
  if ¬ (0 ≤ length ∧ length ≤ capacity) then throw (.length kind)
  return length.toNat

/-- `_validate_pooled_payload`. -/
def validatePooledPayload (kv : KV κ) (pool : PoolTensor κ) (kind : Kind) : Except PoolError Nat := do
  if kv.batch ≠ 1 then throw (.payloadRank kind)
  if (kv.column.layers, kv.column.heads, kv.column.dim)
      ≠ (pool.column.layers, pool.column.heads, pool.column.dim) then throw (.payloadShape kind)
  if pool.capacity < kv.frames.length then throw (.payloadCapacity kind)
  if kv.column.medium ≠ pool.column.medium then throw (.payloadMedium kind)
  return kv.frames.length

/-- `_validate_snapshot_budget`: the window is counted over all the rows of the pool. -/
def validateSnapshotBudget (maxTensorBytes : Option Int) (pool : Option (PoolTensor κ)) (valid : Nat)
    (kind : Kind) : Except PoolError Unit := do
  let some budget := maxTensorBytes | return ()
  if budget < 0 then throw (.budget kind)
  let some pool := pool | return ()
  let required := pool.slots * pool.column.layers * pool.column.heads * valid * pool.column.dim
    * pool.column.medium.dtype.elementSize
  if budget < required then throw (.exceedsBudget kind)

/-- `snapshot_pooled_talker_kv`. -/
def snapshotPooledTalkerKv (k : Nat) (expectedAllocationEpoch : Int) (maxTensorBytes : Option Int) :
    Except PoolError (Option (KV κ)) := do
  let slot ← p.validatePooledStateContract k expectedAllocationEpoch .talker false
  let some pool := p.talkerPool
    | do validateSnapshotBudget maxTensorBytes (none : Option (PoolTensor κ)) 0 .talker
         return none
  let valid ← validatePooledLength slot.pastLen pool.capacity .talker
  validateSnapshotBudget maxTensorBytes (some pool) valid .talker
  return some { column := pool.column, frames := pool.read k 0 valid }

/-- `snapshot_pooled_c2w_kv`: the history is at the right of its row. -/
def snapshotPooledC2wKv (k : Nat) (expectedAllocationEpoch : Int) (maxTensorBytes : Option Int) :
    Except PoolError (Option (KV κ)) := do
  let slot ← p.validatePooledStateContract k expectedAllocationEpoch .c2w false
  if !slot.c2wPooled then
    validateSnapshotBudget maxTensorBytes p.c2wPool 0 .c2w
    return none
  let some pool := p.c2wPool | throw (.storage .c2w)
  let valid ← validatePooledLength slot.c2wLen pool.capacity .c2w
  validateSnapshotBudget maxTensorBytes (some pool) valid .c2w
  return some { column := pool.column, frames := pool.read k (pool.capacity - valid) valid }

/-- A row with the columns from `start` on, and zeros around them. -/
def stagedRow (zero : κ) (start : Nat) (frames : List κ) (j : Nat) : κ :=
  if start ≤ j then frames.getD (j - start) zero else zero

/-- `restore_pooled_talker_kv`. -/
def restorePooledTalkerKv (k : Nat) (kv : KV κ) (expectedAllocationEpoch : Int) :
    Except PoolError (Nat × KVCachePool κ ξ) := do
  let slot ← p.validatePooledStateContract k expectedAllocationEpoch .talker true
  let some pool := p.talkerPool | throw (.storage .talker)
  let valid ← validatePooledPayload kv pool .talker
  let written := p.writeRow .talker k (stagedRow pool.zero 0 kv.frames)
  return (valid, written.setSlot k { slot with pastLen := valid, talkerKv := none })

/-- `restore_pooled_c2w_kv`. -/
def restorePooledC2wKv (k : Nat) (kv : KV κ) (expectedAllocationEpoch : Int) :
    Except PoolError (Nat × KVCachePool κ ξ) := do
  let slot ← p.validatePooledStateContract k expectedAllocationEpoch .c2w true
  let some pool := p.c2wPool | throw (.storage .c2w)
  let valid ← validatePooledPayload kv pool .c2w
  let written := p.writeRow .c2w k (stagedRow pool.zero (pool.capacity - valid) kv.frames)
  return (valid, written.setSlot k { slot with c2wLen := valid, c2wPooled := true, c2wKv := none })

end KVCachePool

end StreamingTts.Engine.Pooled
