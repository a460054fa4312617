import Mathlib.Data.List.Nodup
import StreamingTts.Engine.Types

/-!
# The pool of KV slots and the prefix cache

The bookkeeping of `KVCachePool` in `engine/backend/kv_cache_pool.py`: which slots are free, whom an
occupied slot belongs to, and the decode state a slot carries for its segment. The KV tensors and the
cursor fields are left out. A slot object lives as long as the pool, so it is named by its `slot_id`.
The KV of a prefix is a function of its embeddings, so an entry of `PrefixKVCache`
(`engine/backend/prefix_cache.py`) keeps those.
-/

namespace StreamingTts.Engine

open Frontend (Text UnicodeData)

/-- `slot.prefill_source`. -/
inductive PrefillSource
  | unset
  | fullPrefill
  | fullPrefillPrefixOnly
  | prefixCachePrefixOnly
  deriving DecidableEq, Repr

/-- `SlotKVState`. -/
structure SlotKVState where
  /-- `slot.session_id`, which holds the segment's key -/
  sessionId : Option Text := none
  segmentIdx : Int := -1
  retryIdx : Nat := 0
  allocationEpoch : Nat := 0
  isFree : Bool := true
  prefillSource : PrefillSource := .unset
  pastLen : Nat := 0
  frameIdx : Int := 0
  textIdx : Nat := 0
  trailing : List Embed := []
  nextEmbed : Option Embed := none
  lastCodecSum : Option Nat := none
  padStartFrame : Int := -1
  padConsecutiveSilence : Nat := 0
  lastActiveTime : Time := 0

/-- `KVCachePool`. -/
structure KVCachePool where
  maxSlots : Nat
  slots : Nat → SlotKVState
  freeSlots : List Nat

namespace KVCachePool

variable (p : KVCachePool)

/-- `KVCachePool(max_slots, ...)`. -/
def new (maxSlots : Nat) : KVCachePool := ⟨maxSlots, fun _ => {}, List.range maxSlots⟩

/-- `free_count`. -/
def freeCount : Nat := p.freeSlots.length

/-- The pool with one slot changed. -/
def modify (k : Nat) (f : SlotKVState → SlotKVState) : KVCachePool :=
  { p with slots := Function.update p.slots k (f (p.slots k)) }

/-- A slot as `allocate` hands it out. -/
def freshSlot (slot : SlotKVState) (key : Text) (now : Time) : SlotKVState :=
  { sessionId := some key
    allocationEpoch := slot.allocationEpoch + 1
    isFree := false
    lastActiveTime := now }

/-- `allocate`. -/
def allocate (key : Text) (now : Time) : Option (Nat × KVCachePool) :=
  match p.freeSlots.getLast? with
  | none => none
  | some k =>
      some (k, { p.modify k fun slot => freshSlot slot key now with freeSlots := p.freeSlots.dropLast })

/-- A slot as `release` leaves it. -/
def releasedSlot (slot : SlotKVState) : SlotKVState :=
  { allocationEpoch := slot.allocationEpoch, lastActiveTime := slot.lastActiveTime }

/-- `release`; `none` is the error of an epoch that does not match. -/
def release (k : Nat) (expectedEpoch : Option Nat) : Option KVCachePool :=
  if expectedEpoch.any fun epoch => epoch ≠ (p.slots k).allocationEpoch then none
  else if (p.slots k).isFree then some p
  else some { p.modify k releasedSlot with freeSlots := p.freeSlots ++ [k] }

/-- A release with the epoch the slot has. -/
def releaseOwn (k : Nat) : KVCachePool :=
  (p.release k (some (p.slots k).allocationEpoch)).getD p

/-- `force_evict`: the key of the evicted slot. -/
def forceEvict (k : Nat) : Option Text × KVCachePool :=
  if (p.slots k).isFree then (none, p) else ((p.slots k).sessionId, p.releaseOwn k)

/-- One turn of the loop of `find_eviction_candidate`: a slot that is idle for longer takes over. -/
def idlest (maxIdle now : Time) (best : Option Nat) (k : Nat) : Option Nat :=
  if (p.slots k).isFree then best
  else if now - (p.slots k).lastActiveTime < maxIdle then best
  else match best with
    | none => some k
    | some j =>
        if now - (p.slots k).lastActiveTime > now - (p.slots j).lastActiveTime then some k else some j

/-- `find_eviction_candidate`: the occupied slot that has been idle longest, if it reaches the limit. -/
def findEvictionCandidate (maxIdle now : Time) : Option Nat :=
  (List.range p.maxSlots).foldl (p.idlest maxIdle now) none

/-! ## Facts -/

@[simp] theorem modify_slots_self (k : Nat) (f : SlotKVState → SlotKVState) :
    (p.modify k f).slots k = f (p.slots k) := by simp [modify]

@[simp] theorem modify_freeSlots (k : Nat) (f : SlotKVState → SlotKVState) :
    (p.modify k f).freeSlots = p.freeSlots := rfl

@[simp] theorem modify_maxSlots (k : Nat) (f : SlotKVState → SlotKVState) :
    (p.modify k f).maxSlots = p.maxSlots := rfl

end KVCachePool

/-! ## The prefix cache -/

/-- `PrefixKVCache`, oldest entry first. -/
structure PrefixKVCache where
  maxEntries : Nat
  maxPrefixLen : Nat
  cache : Lib.OrderedDict Text (List Embed)

namespace PrefixKVCache

/-- `contains`. -/
def contains (c : PrefixKVCache) (key : Option Text) : Bool :=
  key.any fun key => (c.cache.get? key).isSome

/-- `move_to_end`. -/
def moveToEnd (c : PrefixKVCache) (key : Text) (rows : List Embed) : PrefixKVCache :=
  { c with cache := (c.cache.erase key).set key rows }

/-- `get`. -/
def get (c : PrefixKVCache) (key : Option Text) : Option (List Embed) × PrefixKVCache :=
  match key with
  | none => (none, c)
  | some key =>
      match c.cache.get? key with
      | none => (none, c)
      | some rows => (some rows, c.moveToEnd key rows)

/-- The cache without its oldest entry (`popitem(last=False)`). -/
def popOldest (c : PrefixKVCache) : PrefixKVCache :=
  match c.cache.entries with
  | [] => c
  | (key, _) :: _ => { c with cache := c.cache.erase key }

/-- The loop of `put` that makes room for an entry. -/
def makeRoom : Nat → PrefixKVCache → PrefixKVCache
  | 0, c => c
  | n + 1, c => if c.maxEntries ≤ c.cache.size then makeRoom n c.popOldest else c

/-- `put`. -/
def put (c : PrefixKVCache) (key : Option Text) (rows : List Embed) : PrefixKVCache :=
  match key with
  | none => c
  | some key =>
      if c.maxEntries = 0 then c
      else if c.maxPrefixLen < rows.length then c
      else match c.cache.get? key with
        | some old => c.moveToEnd key old
        | none =>
            let c := makeRoom c.cache.size c
            { c with cache := c.cache.set key rows }

end PrefixKVCache

end StreamingTts.Engine
