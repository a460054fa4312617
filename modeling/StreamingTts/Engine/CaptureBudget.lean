import Mathlib.Tactic.Ring
import StreamingTts.Engine.SpeechCapture
import StreamingTts.Lib.Transition

/-!
# The byte budget of a capture

A capture of an owned and fenced slot has the size of its four payloads (`payloadBytes`). Its own count of a
pooled history is over all the rows of the pool, so that the capture returns exactly if the payloads fit
and these windows do (`capture_ok_iff`); it is exact when the windows fit whenever the payloads do
(`capture_exact_iff`).
-/

namespace StreamingTts.Engine.Pooled

open Lib
open Frontend (Text)

variable {κ : Type} {ξ : Type}

namespace Executor

/-! ## Sizes -/

/-- The storage of a slot that is not its own. -/
def externalOf (pool : KVCachePool κ ξ) (k : Nat) : External :=
  ⟨pool.talkerPool.isSome, (pool.slots k).c2wPooled, (pool.slots k).c2wArenaBacked⟩

/-- The bytes of the Talker history in the pool. -/
def talkerBytes (pool : KVCachePool κ ξ) (k : Nat) : Nat :=
  match pool.talkerPool with
  | none => 0
  | some t => (pool.slots k).pastLen.toNat * t.column.bytes

/-- The bytes of the Code2Wav history in the pool. -/
def c2wBytes (pool : KVCachePool κ ξ) (k : Nat) : Nat :=
  match (pool.slots k).c2wPooled, pool.c2wPool with
  | true, some t => (pool.slots k).c2wLen.toNat * t.column.bytes
  | _, _ => 0

/-- The bytes of the arena rows. -/
def arenaBytes (e : Executor κ ξ) (pool : KVCachePool κ ξ) (k : Nat) : Nat :=
  if (pool.slots k).c2wArenaBacked then e.statesBytes (pool.slots k).c2wStates else 0

/-- The bytes of the fields of the slot. -/
def slotBytes (e : Executor κ ξ) (pool : KVCachePool κ ξ) (k : Nat) : Nat :=
  ownedBytes e (pool.slots k) (externalOf pool k)

/-- The bytes of the four payloads. -/
def payloadBytes (e : Executor κ ξ) (pool : KVCachePool κ ξ) (k : Nat) : Nat :=
  e.slotBytes pool k + talkerBytes pool k + c2wBytes pool k + e.arenaBytes pool k

/-- The rows of a pooled history. -/
def rowCount (t : Option (PoolTensor κ)) : Nat := (t.map PoolTensor.slots).getD 0

/-- The windows of the pooled histories, counted over all rows, fit in what is left of the budget. -/
def WindowsFit (e : Executor κ ξ) (pool : KVCachePool κ ξ) (k : Nat) (budget : Int) : Prop :=
  (rowCount pool.talkerPool * talkerBytes pool k : Nat) ≤ budget - e.slotBytes pool k ∧
    (rowCount pool.c2wPool * c2wBytes pool k : Nat)
      ≤ budget - e.slotBytes pool k - talkerBytes pool k

/-! ## Fenced slots -/

/-- The slot `k` is owned by the segment, and its storage is where its fields say. -/
structure Fenced (e : Executor κ ξ) (pool : KVCachePool κ ξ) (k : Nat) (metadata : SegmentMetadata)
    (expectedSlotSessionId : Option Text) : Prop where
  kvPool : e.kvPool = some pool
  range : k < pool.maxSlots
  slotId : (pool.slots k).slotId = k
  owned : (pool.slots k).isFree = false
  epoch : 0 < (pool.slots k).allocationEpoch
  session : (pool.slots k).sessionId = some (if expectedSlotSessionId.getD [] = [] then
    metadata.sessionId else expectedSlotSessionId.getD [])
  segmentIdx : metadata.segmentIdx = (pool.slots k).segmentIdx
  retryIdx : metadata.retryIdx = (pool.slots k).retryIdx
  /-- the names that a bundle accepts -/
  named : strip metadata.sessionId = metadata.sessionId ∧ metadata.sessionId ≠ [] ∧
    0 ≤ metadata.segmentIdx
  pastLen : 0 ≤ (pool.slots k).pastLen
  c2wLen : 0 ≤ (pool.slots k).c2wLen
  talker : match pool.talkerPool with
    | some t => (pool.slots k).pastLen ≤ t.capacity ∧
        ((pool.slots k).talkerKv = none ∨ (pool.slots k).pastLen = 0)
    | none => historyMissing (pool.slots k).talkerKv (pool.slots k).pastLen = false
  c2w : if (pool.slots k).c2wPooled then
      ∃ t, pool.c2wPool = some t ∧ (pool.slots k).c2wLen ≤ t.capacity
    else historyMissing (pool.slots k).c2wKv (pool.slots k).c2wLen = false
  arena : (pool.slots k).c2wArenaBacked = true →
    e.validateC2wSnapshotTarget pool k (pool.slots k).allocationEpoch = .ok () ∧
      e.validateC2wSnapshotTensors true
        [((pool.slots k).c2wStates.conv, (e.arenaRowViews (!(pool.slots k).c2wStates.writeInA) k).1),
          ((pool.slots k).c2wStates.transconv,
            (e.arenaRowViews (!(pool.slots k).c2wStates.writeInA) k).2),
          ((pool.slots k).c2wStates.convWrite,
            (e.arenaRowViews (pool.slots k).c2wStates.writeInA k).1),
          ((pool.slots k).c2wStates.transconvWrite,
            (e.arenaRowViews (pool.slots k).c2wStates.writeInA k).2)] = .ok ()

section
variable {e : Executor κ ξ} {pool : KVCachePool κ ξ} {k : Nat} {metadata : SegmentMetadata}
  {expected : Option Text} {budget : Int}

/-- The snapshot of the fields: they fit. -/
theorem ownedSnapshot_ok_iff (h : Fenced e pool k metadata expected) {payload : SlotPayload κ ξ} :
    e.ownedSnapshot (pool.slots k) (externalOf pool k) budget = .ok payload ↔
      (e.slotBytes pool k : Int) ≤ budget ∧
        payload = .owned { pool.slots k with c2wStates := e.cloneStates (pool.slots k).c2wStates }
          (externalOf pool k) (e.slotBytes pool k) := by
  have hlen : ¬ ((pool.slots k).pastLen < 0 ∨ (pool.slots k).c2wLen < 0) := by
    have := h.pastLen
    have := h.c2wLen
    omega
  have htalker : ¬ ((externalOf pool k).pooledTalker = false ∧
      historyMissing (pool.slots k).talkerKv (pool.slots k).pastLen = true) := by
    rintro ⟨hpooled, hmissing⟩
    have htalker := h.talker
    have hnone : pool.talkerPool = none :=
      Option.isNone_iff_eq_none.1 (Option.isSome_eq_false_iff.1 hpooled)
    rw [hnone] at htalker
    rw [show _ = false from htalker] at hmissing
    cases hmissing
  have hc2w : ¬ ((externalOf pool k).pooledC2w = false ∧
      historyMissing (pool.slots k).c2wKv (pool.slots k).c2wLen = true) := by
    rintro ⟨hpooled, hmissing⟩
    have hc2w := h.c2w
    rw [if_neg (by rw [show (pool.slots k).c2wPooled = false from hpooled]; exact Bool.false_ne_true)]
      at hc2w
    rw [hc2w] at hmissing
    cases hmissing
  have howned : ¬ (pool.slots k).isFree = true := by
    rw [h.owned]
    exact Bool.false_ne_true
  unfold ownedSnapshot
  rw [check_eq_ok, check_eq_ok, check_eq_ok, check_eq_ok, check_eq_ok]
  refine ⟨fun ⟨_, _, _, _, hfits, hok⟩ => ?_, fun ⟨hfits, hpayload⟩ => ?_⟩
  · cases hok
    exact ⟨Int.le_of_not_gt hfits, rfl⟩
  · subst hpayload
    exact ⟨howned, hlen, htalker, hc2w, Int.not_lt.2 hfits, rfl⟩

/-- The owner of the slot passes the contract of the pool. -/
theorem contract_of_fenced (h : Fenced e pool k metadata expected) (kind : Kind) :
    pool.validatePooledStateContract k (pool.slots k).allocationEpoch kind false
      = .ok (pool.slots k) := by
  unfold KVCachePool.validatePooledStateContract
  rw [check_eq_ok, check_eq_ok, check_eq_ok, check_eq_ok]
  refine ⟨Nat.not_le_of_lt h.range, by omega, ?_, fun hpool => Bool.false_ne_true hpool.1, rfl⟩
  rw [not_or, h.owned]
  exact ⟨Bool.false_ne_true, fun hne => hne rfl⟩

/-- The window of a history over all rows fits. -/
theorem snapshotBudget_ok_iff {t : PoolTensor κ} {valid : Nat} {kind : Kind} :
    KVCachePool.validateSnapshotBudget (some budget) (some t) valid kind = .ok () ↔
      ((t.slots * (valid * t.column.bytes) : Nat) : Int) ≤ budget := by
  have hwindow : t.slots * t.column.layers * t.column.heads * valid * t.column.dim
      * t.column.medium.dtype.elementSize = t.slots * (valid * t.column.bytes) := by
    unfold Column.bytes
    ring
  unfold KVCachePool.validateSnapshotBudget
  simp only
  rw [check_eq_ok, hwindow]
  by_cases hfits : budget < ((t.slots * (valid * t.column.bytes) : Nat) : Int)
  · refine ⟨fun ⟨_, hok⟩ => ?_, fun hle => absurd hfits (Int.not_lt.2 hle)⟩
    rw [if_pos hfits] at hok
    cases hok
  · rw [if_neg hfits]
    refine ⟨fun _ => Int.not_lt.1 hfits, fun hle => ⟨?_, rfl⟩⟩
    omega

/-- What a capture takes of the Talker history. -/
def talkerHistory (pool : KVCachePool κ ξ) (k : Nat) : Option (KV κ) :=
  pool.talkerPool.map fun t =>
    { column := t.column, frames := t.read k 0 (pool.slots k).pastLen.toNat }

/-- What a capture takes of the Code2Wav history. -/
def c2wHistory (pool : KVCachePool κ ξ) (k : Nat) : Option (KV κ) :=
  if (pool.slots k).c2wPooled then
    pool.c2wPool.map fun t =>
      { column := t.column
        frames := t.read k (t.capacity - (pool.slots k).c2wLen.toNat) (pool.slots k).c2wLen.toNat }
  else none

theorem validatePooledLength_ok {length : Int} {capacity : Nat} {kind : Kind} (h : 0 ≤ length)
    (hcap : length ≤ capacity) :
    KVCachePool.validatePooledLength length capacity kind = .ok length.toNat := by
  unfold KVCachePool.validatePooledLength
  rw [check_eq_ok]
  exact ⟨fun hnot => hnot ⟨h, hcap⟩, rfl⟩

theorem snapshotTalker_ok_iff (h : Fenced e pool k metadata expected) {t : PoolTensor κ}
    (ht : pool.talkerPool = some t) {talker : Option (KV κ)} :
    pool.snapshotPooledTalkerKv k (pool.slots k).allocationEpoch (some budget) = .ok talker ↔
      ((rowCount pool.talkerPool * talkerBytes pool k : Nat) : Int) ≤ budget ∧
        talker = talkerHistory pool k := by
  have hcap := h.talker
  rw [ht] at hcap
  have hbytes : rowCount pool.talkerPool * talkerBytes pool k
      = t.slots * ((pool.slots k).pastLen.toNat * t.column.bytes) := by
    unfold rowCount talkerBytes
    rw [ht]
    rfl
  unfold KVCachePool.snapshotPooledTalkerKv talkerHistory
  rw [contract_of_fenced h, hbytes, ht, Option.map_some]
  show (KVCachePool.validatePooledLength (pool.slots k).pastLen t.capacity .talker >>= _) = _ ↔ _
  rw [validatePooledLength_ok h.pastLen hcap.1, ← @snapshotBudget_ok_iff κ _ _ _ .talker]
  refine ⟨fun hok => ?_, fun ⟨hfits, htalker⟩ => ?_⟩
  · obtain ⟨valid, hvalid, hok⟩ := bind_eq_ok.1 hok
    cases hvalid
    obtain ⟨_, hfits, hok⟩ := bind_eq_ok.1 hok
    cases hok
    exact ⟨hfits, rfl⟩
  · subst htalker
    exact bind_eq_ok.2 ⟨_, rfl, bind_eq_ok.2 ⟨(), hfits, rfl⟩⟩

theorem snapshotC2w_ok_iff (h : Fenced e pool k metadata expected)
    (hpooled : (pool.slots k).c2wPooled = true) {history : Option (KV κ)} :
    pool.snapshotPooledC2wKv k (pool.slots k).allocationEpoch (some budget) = .ok history ↔
      ((rowCount pool.c2wPool * c2wBytes pool k : Nat) : Int) ≤ budget ∧
        history = c2wHistory pool k := by
  have hc2w := h.c2w
  rw [if_pos hpooled] at hc2w
  obtain ⟨t, ht, hcap⟩ := hc2w
  have hbytes : rowCount pool.c2wPool * c2wBytes pool k
      = t.slots * ((pool.slots k).c2wLen.toNat * t.column.bytes) := by
    unfold rowCount c2wBytes
    rw [ht, hpooled]
    rfl
  unfold KVCachePool.snapshotPooledC2wKv c2wHistory
  rw [contract_of_fenced h, hbytes, ht, Option.map_some, if_pos hpooled]
  show ((if !(pool.slots k).c2wPooled then _ else
    KVCachePool.validatePooledLength (pool.slots k).c2wLen t.capacity .c2w >>= _) = _) ↔ _
  rw [hpooled, if_neg (by decide), validatePooledLength_ok h.c2wLen hcap,
    ← @snapshotBudget_ok_iff κ _ _ _ .c2w]
  refine ⟨fun hok => ?_, fun ⟨hfits, htalker⟩ => ?_⟩
  · obtain ⟨valid, hvalid, hok⟩ := bind_eq_ok.1 hok
    cases hvalid
    obtain ⟨_, hfits, hok⟩ := bind_eq_ok.1 hok
    cases hok
    exact ⟨hfits, rfl⟩
  · subst htalker
    exact bind_eq_ok.2 ⟨_, rfl, bind_eq_ok.2 ⟨(), hfits, rfl⟩⟩

@[simp] theorem length_poolRead (t : PoolTensor κ) (slot start n : Nat) :
    (t.read slot start n).length = n := by
  unfold PoolTensor.read
  rw [List.length_map, List.length_range]

theorem kvBytes_talkerHistory (pool : KVCachePool κ ξ) (k : Nat) :
    kvBytes (talkerHistory pool k) = talkerBytes pool k := by
  unfold kvBytes talkerHistory talkerBytes KV.bytes
  cases pool.talkerPool with
  | none => rfl
  | some t => simp

theorem kvBytes_c2wHistory (pool : KVCachePool κ ξ) (k : Nat) :
    kvBytes (c2wHistory pool k) = c2wBytes pool k := by
  unfold kvBytes c2wHistory c2wBytes KV.bytes
  cases (pool.slots k).c2wPooled with
  | false => rfl
  | true =>
      cases pool.c2wPool with
      | none => rfl
      | some t => simp

/-- What a capture takes of the arenas. -/
def arenaRows (e : Executor κ ξ) (pool : KVCachePool κ ξ) (k : Nat) : Option (C2WArenaSnapshot κ) :=
  if (pool.slots k).c2wArenaBacked then
    some {
      readConv := e.detach (pool.slots k).c2wStates.conv
      readTransconv := e.detach (pool.slots k).c2wStates.transconv
      writeConv := e.detach (pool.slots k).c2wStates.convWrite
      writeTransconv := e.detach (pool.slots k).c2wStates.transconvWrite
      writeInA := (pool.slots k).c2wStates.writeInA
      sourceSlotId := (pool.slots k).slotId
      sourceAllocationEpoch := (pool.slots k).allocationEpoch }
  else none

theorem bytes_detach (e : Executor κ ξ) (buffers : Option (List (Buffer κ))) :
    ((e.detach buffers).map Tensor.bytes).sum = e.buffersBytes buffers := by
  unfold detach buffersBytes
  induction buffers.getD [] with
  | nil => rfl
  | cons b rest ih =>
      unfold bufferBytes at ih ⊢
      cases hb : e.read b with
      | none =>
          rw [List.filterMap_cons_none hb, ih, List.map_cons, List.sum_cons, hb]
          exact (Nat.zero_add _).symm
      | some t =>
          rw [List.filterMap_cons_some hb, List.map_cons, List.sum_cons, ih, List.map_cons,
            List.sum_cons, hb]
          rfl

theorem bytes_arenaRows (e : Executor κ ξ) (pool : KVCachePool κ ξ) (k : Nat) :
    ((arenaRows e pool k).map C2WArenaSnapshot.bytes).getD 0 = e.arenaBytes pool k := by
  unfold arenaRows arenaBytes
  cases (pool.slots k).c2wArenaBacked with
  | false => rfl
  | true =>
      simp only [if_true, Option.map_some, Option.getD_some, C2WArenaSnapshot.bytes, List.map_append,
        List.sum_append, bytes_detach]
      rfl

theorem snapshotArena_ok_iff (h : Fenced e pool k metadata expected)
    (hbacked : (pool.slots k).c2wArenaBacked = true) {arena : C2WArenaSnapshot κ} :
    e.snapshotC2wArena pool k (pool.slots k).allocationEpoch budget = .ok arena ↔
      (e.arenaBytes pool k : Int) ≤ budget ∧ some arena = arenaRows e pool k := by
  obtain ⟨htarget, hviews⟩ := h.arena hbacked
  have hbytes : e.arenaBytes pool k = e.statesBytes (pool.slots k).c2wStates := if_pos hbacked
  unfold snapshotC2wArena arenaRows
  rw [htarget, if_pos hbacked, hbytes]
  refine ⟨fun hok => ?_, fun ⟨hfits, harena⟩ => ?_⟩
  · obtain ⟨_, -, hok⟩ := bind_eq_ok.1 hok
    obtain ⟨-, hok⟩ := check_eq_ok.1 hok
    obtain ⟨_, -, hok⟩ := bind_eq_ok.1 hok
    obtain ⟨-, hok⟩ := check_eq_ok.1 hok
    obtain ⟨hfits, hok⟩ := check_eq_ok.1 hok
    cases hok
    exact ⟨Int.not_lt.1 hfits, rfl⟩
  · cases harena
    refine bind_eq_ok.2 ⟨(), rfl, check_eq_ok.2 ⟨?_, bind_eq_ok.2 ⟨(), hviews, ?_⟩⟩⟩
    · rw [hbacked]
      exact Bool.false_ne_true
    · exact check_eq_ok.2 ⟨by omega, check_eq_ok.2 ⟨Int.not_lt.2 hfits, rfl⟩⟩

theorem ofPool_ok_iff {α : Type} {x : Except PoolError α} {a : α} :
    ofPool x = .ok a ↔ x = .ok a := by
  cases x with
  | error error => exact iff_of_false (fun h => by cases h) fun h => by cases h
  | ok b => exact ⟨fun h => by cases h; rfl, fun h => by cases h; rfl⟩

/-- The Talker history, if it is pooled. -/
theorem takeTalker_ok_iff (h : Fenced e pool k metadata expected) {talker : Option (KV κ)} :
    takeTalker pool k budget = .ok talker ↔
      (pool.talkerPool.isSome = true →
        ((rowCount pool.talkerPool * talkerBytes pool k : Nat) : Int) ≤ budget) ∧
        talker = talkerHistory pool k := by
  unfold takeTalker
  cases ht : pool.talkerPool with
  | none =>
      have hnone : talkerHistory pool k = none := by
        unfold talkerHistory
        rw [ht, Option.map_none]
      rw [hnone]
      refine ⟨fun hok => ?_, fun ⟨_, htalker⟩ => htalker ▸ rfl⟩
      cases hok
      exact ⟨(fun hsome => by cases hsome), rfl⟩
  | some t =>
      rw [if_pos (by rfl), ofPool_ok_iff, snapshotTalker_ok_iff h ht, ht]
      exact and_congr_left' ⟨fun hfits _ => hfits, fun hfits => hfits rfl⟩

/-- The Code2Wav history, if it is pooled. -/
theorem takeC2w_ok_iff (h : Fenced e pool k metadata expected) {history : Option (KV κ)} :
    takeC2w pool k budget = .ok history ↔
      ((pool.slots k).c2wPooled = true →
        ((rowCount pool.c2wPool * c2wBytes pool k : Nat) : Int) ≤ budget) ∧
        history = c2wHistory pool k := by
  unfold takeC2w
  cases hpooled : (pool.slots k).c2wPooled with
  | false =>
      have hnone : c2wHistory pool k = none := if_neg (by rw [hpooled]; exact Bool.false_ne_true)
      rw [hnone]
      refine ⟨fun hok => ?_, fun ⟨_, hhistory⟩ => hhistory ▸ rfl⟩
      cases hok
      exact ⟨(fun hsome => by cases hsome), rfl⟩
  | true =>
      rw [if_pos rfl, ofPool_ok_iff, snapshotC2w_ok_iff h hpooled]
      exact and_congr_left' ⟨fun hfits _ => hfits, fun hfits => hfits rfl⟩

/-- The arena rows, if there are some. -/
theorem takeArena_ok_iff (h : Fenced e pool k metadata expected)
    {arena : Option (C2WArenaSnapshot κ)} :
    e.takeArena pool k budget = .ok arena ↔
      ((pool.slots k).c2wArenaBacked = true → (e.arenaBytes pool k : Int) ≤ budget) ∧
        arena = arenaRows e pool k := by
  unfold takeArena
  cases hbacked : (pool.slots k).c2wArenaBacked with
  | false =>
      have hnone : arenaRows e pool k = none := if_neg (by rw [hbacked]; exact Bool.false_ne_true)
      rw [hnone]
      refine ⟨fun hok => ?_, fun ⟨_, harena⟩ => harena ▸ rfl⟩
      cases hok
      exact ⟨(fun hsome => by cases hsome), rfl⟩
  | true =>
      rw [if_pos rfl, map_eq_ok]
      refine ⟨fun ⟨rows, hrows, hsome⟩ => ?_, fun ⟨hfits, harena⟩ => ?_⟩
      · obtain ⟨hfits, hrows⟩ := (snapshotArena_ok_iff h hbacked).1 hrows
        exact ⟨fun _ => hfits, hsome ▸ hrows⟩
      · obtain ⟨rows, hrows⟩ : ∃ rows, arenaRows e pool k = some rows := by
          unfold arenaRows
          rw [hbacked]
          exact ⟨_, rfl⟩
        exact ⟨rows, (snapshotArena_ok_iff h hbacked).2 ⟨hfits rfl, hrows.symm⟩,
          (harena.trans hrows).symm⟩

/-- The copy of the fields that a capture of the slot holds. -/
def copied (e : Executor κ ξ) (pool : KVCachePool κ ξ) (k : Nat) : SlotKVState κ ξ :=
  { pool.slots k with c2wStates := e.cloneStates (pool.slots k).c2wStates }

/-- The payloads of a slot that has storage outside of it. -/
theorem externalPayloads_ok_iff (h : Fenced e pool k metadata expected)
    {payloads : SlotPayload κ ξ × Option (KV κ) × Option (KV κ) × Option (C2WArenaSnapshot κ)} :
    e.externalPayloads pool k budget = .ok payloads ↔
      ((e.slotBytes pool k : Int) ≤ budget ∧
        (pool.talkerPool.isSome = true → ((rowCount pool.talkerPool * talkerBytes pool k : Nat) : Int)
          ≤ budget - e.slotBytes pool k) ∧
        ((pool.slots k).c2wPooled = true → ((rowCount pool.c2wPool * c2wBytes pool k : Nat) : Int)
          ≤ budget - (e.slotBytes pool k + talkerBytes pool k)) ∧
        ((pool.slots k).c2wArenaBacked = true → (e.arenaBytes pool k : Int)
          ≤ budget - (e.slotBytes pool k + talkerBytes pool k) - c2wBytes pool k)) ∧
      payloads = (.owned (copied e pool k) (externalOf pool k) (e.slotBytes pool k),
        talkerHistory pool k, c2wHistory pool k, arenaRows e pool k) := by
  unfold externalPayloads
  refine ⟨fun hok => ?_, fun ⟨⟨hslot, htalker, hc2w, harena⟩, hpayloads⟩ => ?_⟩
  · obtain ⟨slotPayload, hslotPayload, hok⟩ := bind_eq_ok.1 hok
    obtain ⟨hslot, rfl⟩ := (ownedSnapshot_ok_iff h).1 hslotPayload
    obtain ⟨talker, htalkerOk, hok⟩ := bind_eq_ok.1 hok
    obtain ⟨htalker, rfl⟩ := (takeTalker_ok_iff h).1 htalkerOk
    obtain ⟨-, hok⟩ := check_eq_ok.1 hok
    obtain ⟨c2w, hc2wOk, hok⟩ := bind_eq_ok.1 hok
    obtain ⟨hc2w, rfl⟩ := (takeC2w_ok_iff h).1 hc2wOk
    obtain ⟨-, hok⟩ := check_eq_ok.1 hok
    obtain ⟨-, hok⟩ := check_eq_ok.1 hok
    obtain ⟨arena, harenaOk, hok⟩ := bind_eq_ok.1 hok
    obtain ⟨harena, rfl⟩ := (takeArena_ok_iff h).1 harenaOk
    cases hok
    rw [kvBytes_talkerHistory] at hc2w harena
    rw [kvBytes_c2wHistory] at harena
    exact ⟨⟨hslot, htalker, hc2w, harena⟩, rfl⟩
  · subst hpayloads
    have htalkerHere : ¬ (pool.talkerPool.isSome = true ∧ (pool.slots k).pastLen ≠ 0 ∧
        (talkerHistory pool k).isNone = true) := by
      rintro ⟨hsome, -, hnone⟩
      rw [talkerHistory, Option.isNone_map, Option.isNone_eq_false_iff.2 hsome] at hnone
      cases hnone
    have hc2wHere : ¬ ((pool.slots k).c2wPooled = true ∧ (pool.slots k).c2wLen ≠ 0 ∧
        (c2wHistory pool k).isNone = true) := by
      rintro ⟨hpooled, -, hnone⟩
      have hstored := h.c2w
      rw [if_pos hpooled] at hstored
      obtain ⟨t, ht, -⟩ := hstored
      rw [c2wHistory, if_pos hpooled, ht] at hnone
      cases hnone
    have hown : ¬ (¬ (pool.slots k).c2wPooled = true ∧ (pool.slots k).c2wLen ≠ 0 ∧
        (pool.slots k).c2wKv.isNone = true) := by
      rintro ⟨hpooled, hlen, hnone⟩
      have hstored := h.c2w
      rw [if_neg hpooled, Option.isNone_iff_eq_none.1 hnone] at hstored
      simp [historyMissing, hlen] at hstored
    refine bind_eq_ok.2 ⟨_, (ownedSnapshot_ok_iff h).2 ⟨hslot, rfl⟩, ?_⟩
    refine bind_eq_ok.2 ⟨_, (takeTalker_ok_iff h).2 ⟨htalker, rfl⟩, ?_⟩
    refine check_eq_ok.2 ⟨htalkerHere, ?_⟩
    rw [kvBytes_talkerHistory]
    refine bind_eq_ok.2 ⟨_, (takeC2w_ok_iff h).2 ⟨hc2w, rfl⟩, ?_⟩
    refine check_eq_ok.2 ⟨hc2wHere, check_eq_ok.2 ⟨hown, ?_⟩⟩
    rw [← kvBytes_c2wHistory] at harena
    exact bind_eq_ok.2 ⟨_, (takeArena_ok_iff h).2 ⟨harena, rfl⟩, rfl⟩

/-- The snapshot of a slot that owns all its storage. -/
theorem standaloneSnapshot_ok_iff (h : Fenced e pool k metadata expected)
    (hexternal : externalOf pool k = {}) {payload : SlotPayload κ ξ} :
    e.standaloneSnapshot (pool.slots k) budget = .ok payload ↔
      (e.slotBytes pool k : Int) ≤ budget ∧
        payload = .standalone (copied e pool k) (e.slotBytes pool k) := by
  obtain ⟨htalker, hpooled, hbacked⟩ := External.mk.inj hexternal
  have hstored := h.c2w
  rw [if_neg (by rw [hpooled]; exact Bool.false_ne_true)] at hstored
  have hbytes : ownedBytes e (pool.slots k) {} = e.slotBytes pool k := by
    rw [slotBytes, hexternal]
  have hown : ¬ (pool.slots k).isFree = true := by
    rw [h.owned]
    exact Bool.false_ne_true
  have hplain : ¬ ((pool.slots k).c2wPooled = true ∨ (pool.slots k).c2wArenaBacked = true) := by
    rw [hpooled, hbacked]
    decide
  have hc2w : ¬ ((pool.slots k).c2wLen < 0 ∨
      (0 < (pool.slots k).c2wLen ∧ (pool.slots k).c2wKv.isNone = true)) := by
    rintro (hneg | ⟨hpos, hnone⟩)
    · exact absurd h.c2wLen (Int.not_le.2 hneg)
    · rw [Option.isNone_iff_eq_none.1 hnone] at hstored
      simp [historyMissing, Int.ne_of_gt hpos] at hstored
  have hhistory : ¬ historyMissing (pool.slots k).talkerKv (pool.slots k).pastLen = true := by
    have hstored := h.talker
    rw [Option.isNone_iff_eq_none.1 (Option.isSome_eq_false_iff.1 htalker)] at hstored
    rw [show historyMissing _ _ = false from hstored]
    exact Bool.false_ne_true
  unfold standaloneSnapshot
  rw [check_eq_ok, check_eq_ok, check_eq_ok, check_eq_ok, check_eq_ok, check_eq_ok, hbytes]
  refine ⟨fun ⟨_, _, _, _, _, hfits, hok⟩ => ?_, fun ⟨hfits, hpayload⟩ => ?_⟩
  · cases hok
    exact ⟨Int.le_of_not_gt hfits, rfl⟩
  · subst hpayload
    exact ⟨hown, hplain, hc2w, Int.not_lt.2 h.pastLen, hhistory, Int.not_lt.2 hfits, rfl⟩

/-- What a capture takes of the slot. -/
def payloadsOf (e : Executor κ ξ) (pool : KVCachePool κ ξ) (k : Nat) :
    SlotPayload κ ξ × Option (KV κ) × Option (KV κ) × Option (C2WArenaSnapshot κ) :=
  (if externalOf pool k = {} then .standalone (copied e pool k) (e.slotBytes pool k)
    else .owned (copied e pool k) (externalOf pool k) (e.slotBytes pool k),
    talkerHistory pool k, c2wHistory pool k, arenaRows e pool k)

/-- Every payload passes the check made when it is taken. -/
structure EachFits (e : Executor κ ξ) (pool : KVCachePool κ ξ) (k : Nat) (budget : Int) : Prop where
  slot : (e.slotBytes pool k : Int) ≤ budget
  talker : pool.talkerPool.isSome = true →
    ((rowCount pool.talkerPool * talkerBytes pool k : Nat) : Int) ≤ budget - e.slotBytes pool k
  c2w : (pool.slots k).c2wPooled = true → ((rowCount pool.c2wPool * c2wBytes pool k : Nat) : Int)
    ≤ budget - (e.slotBytes pool k + talkerBytes pool k)
  arena : (pool.slots k).c2wArenaBacked = true → (e.arenaBytes pool k : Int)
    ≤ budget - (e.slotBytes pool k + talkerBytes pool k) - c2wBytes pool k

/-- The four payloads are taken exactly if each passes its check. -/
theorem payloads_ok_iff (h : Fenced e pool k metadata expected)
    {payloads : SlotPayload κ ξ × Option (KV κ) × Option (KV κ) × Option (C2WArenaSnapshot κ)} :
    e.payloads pool k budget = .ok payloads ↔
      EachFits e pool k budget ∧ payloads = payloadsOf e pool k := by
  unfold Executor.payloads payloadsOf
  by_cases hexternal : externalOf pool k = {}
  · obtain ⟨htalker, hpooled, hbacked⟩ := External.mk.inj hexternal
    have hnone := Option.isNone_iff_eq_none.1 (Option.isSome_eq_false_iff.1 htalker)
    have htaken : talkerHistory pool k = none := by rw [talkerHistory, hnone, Option.map_none]
    have hc2w : c2wHistory pool k = none := by simp [c2wHistory, hpooled]
    have harena : arenaRows e pool k = none := by simp [arenaRows, hbacked]
    rw [if_neg (by rw [htalker, hpooled, hbacked]; decide), if_pos hexternal, map_eq_ok, htaken, hc2w,
      harena]
    refine ⟨fun ⟨payload, hpayload, hok⟩ => ?_, fun ⟨hfits, hok⟩ => ?_⟩
    · obtain ⟨hslot, rfl⟩ := (standaloneSnapshot_ok_iff h hexternal).1 hpayload
      refine ⟨⟨hslot, fun hsome => ?_, fun hsome => ?_, fun hsome => ?_⟩, hok.symm⟩
      · rw [htalker] at hsome
        cases hsome
      · rw [hpooled] at hsome
        cases hsome
      · rw [hbacked] at hsome
        cases hsome
    · exact ⟨_, (standaloneSnapshot_ok_iff h hexternal).2 ⟨hfits.slot, rfl⟩, hok.symm⟩
  · have hsome : pool.talkerPool.isSome = true ∨ (pool.slots k).c2wPooled = true ∨
        (pool.slots k).c2wArenaBacked = true := by
      by_contra hnot
      rw [not_or, not_or, Bool.not_eq_true, Bool.not_eq_true, Bool.not_eq_true] at hnot
      exact hexternal (by rw [externalOf, hnot.1, hnot.2.1, hnot.2.2])
    rw [if_pos hsome, if_neg hexternal, externalPayloads_ok_iff h]
    exact and_congr_left' ⟨fun ⟨hslot, htalker, hc2w, harena⟩ => ⟨hslot, htalker, hc2w, harena⟩,
      fun ⟨hslot, htalker, hc2w, harena⟩ => ⟨hslot, htalker, hc2w, harena⟩⟩

/-- The windows of a capture whose payloads fit decide. -/
theorem eachFits_iff (hfits : (e.payloadBytes pool k : Int) ≤ budget) :
    EachFits e pool k budget ↔ WindowsFit e pool k budget := by
  unfold payloadBytes at hfits
  refine ⟨fun h => ⟨?_, ?_⟩, fun h => ⟨by omega, fun _ => h.1, fun _ => ?_, fun _ => by omega⟩⟩
  · cases htalker : pool.talkerPool with
    | none =>
        rw [show rowCount (none : Option (PoolTensor κ)) = 0 from rfl, Nat.zero_mul]
        omega
    | some t => exact htalker ▸ h.talker (by rw [htalker]; rfl)
  · cases hpooled : (pool.slots k).c2wPooled with
    | false =>
        rw [show c2wBytes pool k = 0 by simp [c2wBytes, hpooled], Nat.mul_zero]
        omega
    | true =>
        have := h.c2w hpooled
        omega
  · have := h.2
    omega

/-- The bundle of the payloads. -/
def bundleOf (e : Executor κ ξ) (pool : KVCachePool κ ξ) (k : Nat) (metadata : SegmentMetadata) :
    Bundle κ ξ where
  sourceSessionId := metadata.sessionId
  sourceSegmentIdx := metadata.segmentIdx
  sourceSlotId := (pool.slots k).slotId
  sourceAllocationEpoch := (pool.slots k).allocationEpoch
  metadata := metadata
  slotPayload := (payloadsOf e pool k).1
  pooledTalkerPayload := (payloadsOf e pool k).2.1
  pooledC2wPayload := (payloadsOf e pool k).2.2.1
  arenaPayload := (payloadsOf e pool k).2.2.2
  sourceSlotSessionId := (pool.slots k).sessionId.getD []

/-- The bundle has the size of the payloads. -/
theorem bytes_bundleOf (e : Executor κ ξ) (pool : KVCachePool κ ξ) (k : Nat)
    (metadata : SegmentMetadata) : (bundleOf e pool k metadata).bytes = e.payloadBytes pool k := by
  have hslot : (payloadsOf e pool k).1.bytes = e.slotBytes pool k := by
    unfold payloadsOf
    by_cases hexternal : externalOf pool k = {}
    · rw [if_pos hexternal]
      rfl
    · rw [if_neg hexternal]
      rfl
  show (payloadsOf e pool k).1.bytes + kvBytes (talkerHistory pool k) + kvBytes (c2wHistory pool k)
    + ((arenaRows e pool k).map C2WArenaSnapshot.bytes).getD 0 = _
  rw [hslot, kvBytes_talkerHistory, kvBytes_c2wHistory, bytes_arenaRows]
  rfl

/-- A bundle of a fenced slot is accepted. -/
theorem checked_bundleOf (h : Fenced e pool k metadata expected) :
    ∃ bundle, (bundleOf e pool k metadata).checked = .ok bundle := by
  obtain ⟨hstrip, hnamed, hsegment⟩ := h.named
  have hsession : ¬ strip metadata.sessionId = [] := by rwa [hstrip]
  exact ⟨_, check_eq_ok.2 ⟨hsession, check_eq_ok.2 ⟨Int.not_lt.2 hsegment,
    check_eq_ok.2 ⟨Nat.not_lt.2 h.epoch, check_eq_ok.2 ⟨(fun hne => hne hstrip.symm),
      check_eq_ok.2 ⟨(fun hne => hne rfl), rfl⟩⟩⟩⟩⟩⟩

/-- **A capture of a fenced slot returns exactly if the payloads fit and the windows do.** -/
theorem capture_ok_iff (h : Fenced e pool k metadata expected) (budget : Int) :
    (∃ bundle, e.captureSpeechStateBundle k metadata budget expected = .ok bundle) ↔
      (e.payloadBytes pool k : Int) ≤ budget ∧ WindowsFit e pool k budget := by
  have hsession : ¬ (some (if expected.getD [] = [] then metadata.sessionId else expected.getD [])
      ≠ (pool.slots k).sessionId ∨ metadata.segmentIdx ≠ (pool.slots k).segmentIdx ∨
        metadata.retryIdx ≠ (pool.slots k).retryIdx) := by
    rintro (hne | hne | hne)
    · exact hne h.session.symm
    · exact hne h.segmentIdx
    · exact hne h.retryIdx
  have hdetached : ¬ (pool.talkerPool.isSome = true ∧ (pool.slots k).talkerKv.isSome = true ∧
      (pool.slots k).pastLen ≠ 0) := by
    rintro ⟨hsome, hown, hlen⟩
    obtain ⟨t, ht⟩ := Option.isSome_iff_exists.1 hsome
    have htalker := h.talker
    rw [ht] at htalker
    rcases htalker.2 with hnone | hzero
    · rw [hnone] at hown
      cases hown
    · exact hlen hzero
  unfold captureSpeechStateBundle
  rw [h.kvPool]
  refine ⟨fun ⟨bundle, hok⟩ => ?_, fun ⟨hfits, hwindows⟩ => ?_⟩
  · obtain ⟨-, hok⟩ := check_eq_ok.1 hok
    obtain ⟨-, hok⟩ := check_eq_ok.1 hok
    obtain ⟨-, hok⟩ := check_eq_ok.1 hok
    obtain ⟨-, hok⟩ := check_eq_ok.1 hok
    obtain ⟨-, hok⟩ := check_eq_ok.1 hok
    obtain ⟨-, hok⟩ := check_eq_ok.1 hok
    obtain ⟨payloads, hpayloads, hok⟩ := bind_eq_ok.1 hok
    obtain ⟨heach, rfl⟩ := (payloads_ok_iff h).1 hpayloads
    obtain ⟨hfits, -⟩ := check_eq_ok.1 hok
    have htotal : (e.payloadBytes pool k : Int) ≤ budget := by
      rw [← bytes_bundleOf e pool k metadata]
      exact Int.not_lt.1 hfits
    exact ⟨htotal, (eachFits_iff htotal).1 heach⟩
  · obtain ⟨bundle, hbundle⟩ := checked_bundleOf h
    have hnonneg : ¬ budget < 0 := by omega
    have hown : ¬ (pool.slots k).isFree = true := by
      rw [h.owned]
      exact Bool.false_ne_true
    have hslot : ¬ ((pool.slots k).slotId ≠ k ∨ (pool.slots k).allocationEpoch = 0) := by
      rintro (hne | hzero)
      · exact hne h.slotId
      · exact Nat.ne_of_gt h.epoch hzero
    refine ⟨bundle, check_eq_ok.2 ⟨hnonneg, check_eq_ok.2 ⟨hown, check_eq_ok.2 ⟨?_,
      check_eq_ok.2 ⟨hslot, check_eq_ok.2 ⟨hsession, check_eq_ok.2 ⟨hdetached, ?_⟩⟩⟩⟩⟩⟩⟩
    · rw [h.slotId]
      exact Nat.not_le_of_lt h.range
    · refine bind_eq_ok.2 ⟨_, (payloads_ok_iff h).2 ⟨(eachFits_iff hfits).2 hwindows, rfl⟩,
        check_eq_ok.2 ⟨?_, hbundle⟩⟩
      show ¬ budget < ((bundleOf e pool k metadata).bytes : Int)
      rw [bytes_bundleOf]
      exact Int.not_lt.2 hfits

end

end Executor

/-! ## The budget of a capture -/

open Executor

/-- The budget is exact for a capture when the payloads do not fit or the windows do. -/
theorem capture_exact_iff (e : Executor κ ξ) (pool : KVCachePool κ ξ) (k : Nat)
    (metadata : SegmentMetadata) (expected : Option Text) (budget : Int)
    (h : Fenced e pool k metadata expected) :
    ((∃ bundle, e.captureSpeechStateBundle k metadata budget expected = .ok bundle) ↔
        (e.payloadBytes pool k : Int) ≤ budget) ↔
      budget < e.payloadBytes pool k ∨ WindowsFit e pool k budget := by
  rw [capture_ok_iff h]
  by_cases hfits : (e.payloadBytes pool k : Int) ≤ budget
  · exact ⟨fun hexact => .inr (hexact.2 hfits).2, fun hcase =>
      ⟨fun hok => hok.1, fun _ => ⟨hfits, hcase.resolve_left (Int.not_lt.2 hfits)⟩⟩⟩
  · exact ⟨fun _ => .inl (Int.not_le.1 hfits), fun _ => ⟨fun hok => hok.1, fun hle => absurd hle hfits⟩⟩

/-- A `float32` element on the CPU. -/
def float32 : Medium := ⟨⟨0, 4⟩, 0, 0⟩

/-- A slot that has decoded one frame. -/
def oneFrameSlot (k : Nat) : SlotKVState Nat Unit where
  slotId := k
  allocationEpoch := 1
  sessionId := some ['s']
  segmentIdx := 0
  isFree := false
  pastLen := 1

/-- A pool of the given number of slots with one frame in the first. -/
def oneFramePool (slots : Nat) : KVCachePool Nat Unit where
  maxSlots := slots
  preallocate := true
  slots k := if k = 0 then oneFrameSlot 0 else { slotId := k }
  freeSlots := (List.range slots).tail
  talkerPool := some ⟨slots, ⟨1, 1, 1, float32⟩, 8, 0, fun _ _ => 0⟩

/-- The executor of the pool. -/
def oneFrameExecutor (slots : Nat) : Executor Nat Unit where
  kvPool := some (oneFramePool slots)
  medium := float32

/-- The first slot is fenced. -/
theorem oneFrame_fenced (slots : Nat) (h : 0 < slots) :
    Fenced (oneFrameExecutor slots) (oneFramePool slots) 0 ⟨['s'], 0, 0⟩ none where
  kvPool := rfl
  range := h
  slotId := rfl
  owned := rfl
  epoch := Nat.zero_lt_one
  session := rfl
  segmentIdx := rfl
  retryIdx := rfl
  named := ⟨rfl, (by decide), Int.le_refl 0⟩
  pastLen := Int.one_nonneg
  c2wLen := Int.le_refl 0
  talker := ⟨show (1 : Int) ≤ 8 by decide, .inl rfl⟩
  c2w := rfl
  arena := fun hbacked => by cases hbacked

/-- A pool of one slot is captured with the exact budget. -/
theorem capture_exact_one :
    (∃ bundle, (oneFrameExecutor 1).captureSpeechStateBundle 0 ⟨['s'], 0, 0⟩ 4 none = .ok bundle) ↔
      ((oneFrameExecutor 1).payloadBytes (oneFramePool 1) 0 : Int) ≤ 4 :=
  (capture_exact_iff (oneFrameExecutor 1) (oneFramePool 1) 0 ⟨['s'], 0, 0⟩ none 4
    (oneFrame_fenced 1 Nat.zero_lt_one)).2 (.inr (by unfold WindowsFit; decide))

/-- In a pool of two slots the exact budget is refused. -/
theorem capture_refuses_exact_budget :
    ¬ ∀ (e : Executor Nat Unit) (pool : KVCachePool Nat Unit) (k : Nat) (metadata : SegmentMetadata)
      (expected : Option Text) (budget : Int), Fenced e pool k metadata expected →
        ((∃ bundle, e.captureSpeechStateBundle k metadata budget expected = .ok bundle) ↔
          (e.payloadBytes pool k : Int) ≤ budget) := by
  intro hexact
  have hfits : ((oneFrameExecutor 2).payloadBytes (oneFramePool 2) 0 : Int) ≤ 4 := by decide
  obtain ⟨bundle, hbundle⟩ := (hexact (oneFrameExecutor 2) (oneFramePool 2) 0 ⟨['s'], 0, 0⟩ none 4
    (oneFrame_fenced 2 (by decide))).2 hfits
  have hrefused : (oneFrameExecutor 2).captureSpeechStateBundle 0 ⟨['s'], 0, 0⟩ 4 none
      = .error (.pool (.exceedsBudget .talker)) := rfl
  rw [hrefused] at hbundle
  cases hbundle

end StreamingTts.Engine.Pooled
