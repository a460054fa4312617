import StreamingTts.Engine.SlotOwnership
import StreamingTts.Engine.SpeechMigration

/-!
# What a restore leaves alone

Every write of a restore, and what an interrupted one leaves, is in the target slot: its fields, its row of
the pooled histories and its rows of the arenas. The other slots keep theirs, and the target stays
allocated with its epoch (`Executor.Elsewhere`).
-/

namespace StreamingTts.Engine.Pooled

open Lib
open Frontend (Text)

variable {κ : Type} {ξ : Type}

/-! ## The pool -/

namespace KVCachePool

variable {p q r : KVCachePool κ ξ} {k : Nat}

/-- `q` is `p` but for the contents of the slot `k`. -/
structure Elsewhere (p q : KVCachePool κ ξ) (k : Nat) : Prop where
  slots : ∀ j, j ≠ k → q.slots j = p.slots j
  slotId : (q.slots k).slotId = (p.slots k).slotId
  epoch : (q.slots k).allocationEpoch = (p.slots k).allocationEpoch
  isFree : (q.slots k).isFree = (p.slots k).isFree
  freeSlots : q.freeSlots = p.freeSlots
  maxSlots : q.maxSlots = p.maxSlots
  tensor : ∀ kind t, p.tensor kind = some t → ∃ row, q.tensor kind = some (t.write k row)
  noTensor : ∀ kind, p.tensor kind = none → q.tensor kind = none

theorem write_rows_self (t : PoolTensor κ) (k : Nat) : t.write k (t.rows k) = t := by
  unfold PoolTensor.write
  rw [Function.update_eq_self]

theorem write_write (t : PoolTensor κ) (k : Nat) (row row' : Nat → κ) :
    (t.write k row).write k row' = t.write k row' := by
  unfold PoolTensor.write
  simp only [Function.update_idem]

theorem Elsewhere.refl (p : KVCachePool κ ξ) (k : Nat) : p.Elsewhere p k where
  slots _ _ := rfl
  slotId := rfl
  epoch := rfl
  isFree := rfl
  freeSlots := rfl
  maxSlots := rfl
  tensor _ t ht := ⟨t.rows k, by rw [write_rows_self, ht]⟩
  noTensor _ ht := ht

theorem Elsewhere.trans (h : p.Elsewhere q k) (h' : q.Elsewhere r k) : p.Elsewhere r k where
  slots j hj := (h'.slots j hj).trans (h.slots j hj)
  slotId := h'.slotId.trans h.slotId
  epoch := h'.epoch.trans h.epoch
  isFree := h'.isFree.trans h.isFree
  freeSlots := h'.freeSlots.trans h.freeSlots
  maxSlots := h'.maxSlots.trans h.maxSlots
  tensor kind t ht := by
    obtain ⟨row, hrow⟩ := h.tensor kind t ht
    obtain ⟨row', hrow'⟩ := h'.tensor kind _ hrow
    exact ⟨row', by rw [hrow', write_write]⟩
  noTensor kind ht := h'.noTensor kind (h.noTensor kind ht)

@[simp] theorem setSlot_self (p : KVCachePool κ ξ) (k : Nat) (slot : SlotKVState κ ξ) :
    (p.setSlot k slot).slots k = slot := Function.update_self ..

theorem setSlot_of_ne (p : KVCachePool κ ξ) {k j : Nat} (slot : SlotKVState κ ξ) (h : j ≠ k) :
    (p.setSlot k slot).slots j = p.slots j := Function.update_of_ne h ..

@[simp] theorem tensor_setSlot (p : KVCachePool κ ξ) (k : Nat) (slot : SlotKVState κ ξ) (kind : Kind) :
    (p.setSlot k slot).tensor kind = p.tensor kind := by
  cases kind <;> rfl

theorem tensor_writeRow (p : KVCachePool κ ξ) (kind kind' : Kind) (k : Nat) (row : Nat → κ) :
    (p.writeRow kind k row).tensor kind'
      = if kind' = kind then (p.tensor kind').map fun t => t.write k row else p.tensor kind' := by
  cases kind <;> cases kind' <;> rfl

/-- Fields of the slot other than the ones of its owner. -/
theorem elsewhere_setSlot {slot : SlotKVState κ ξ} (hslotId : slot.slotId = (p.slots k).slotId)
    (hepoch : slot.allocationEpoch = (p.slots k).allocationEpoch)
    (hfree : slot.isFree = (p.slots k).isFree) : p.Elsewhere (p.setSlot k slot) k where
  slots j hj := Function.update_of_ne hj _ _
  slotId := by rw [setSlot_self, hslotId]
  epoch := by rw [setSlot_self, hepoch]
  isFree := by rw [setSlot_self, hfree]
  freeSlots := rfl
  maxSlots := rfl
  tensor kind t ht := (Elsewhere.refl p k).tensor kind t ht
  noTensor _ ht := ht

/-- A row of the slot. -/
theorem elsewhere_writeRow (p : KVCachePool κ ξ) (kind : Kind) (k : Nat) (row : Nat → κ) :
    p.Elsewhere (p.writeRow kind k row) k := by
  obtain ⟨hslots, hfreeSlots, hmax⟩ := writeRow_fields p kind k row
  refine ⟨fun j _ => by rw [hslots], by rw [hslots], by rw [hslots], by rw [hslots], hfreeSlots, hmax,
    fun kind' t ht => ?_, fun kind' ht => ?_⟩
  · rw [tensor_writeRow]
    by_cases hkind : kind' = kind
    · exact ⟨row, by rw [if_pos hkind, ht]; rfl⟩
    · exact ⟨t.rows k, by rw [if_neg hkind, ht, write_rows_self]⟩
  · rw [tensor_writeRow, ht]
    exact ite_self _

/-- The written row of a pooled history reads back. -/
theorem read_write_self (t : PoolTensor κ) (k : Nat) (row : Nat → κ) (start n : Nat) :
    (t.write k row).read k start n = (List.range n).map fun j => row (start + j) := by
  have hrow : (t.write k row).rows k = row := Function.update_self _ _ _
  unfold PoolTensor.read
  rw [hrow]

/-- The columns of a staged row. -/
theorem map_stagedRow (zero : κ) (start : Nat) (frames : List κ) :
    ((List.range frames.length).map fun j => stagedRow zero start frames (start + j)) = frames := by
  refine List.ext_getElem (by rw [List.length_map, List.length_range]) fun j _ hj => ?_
  rw [List.getElem_map, List.getElem_range, stagedRow, if_pos (Nat.le_add_right start j),
    Nat.add_sub_cancel_left]
  exact (List.getElem_eq_getD zero).symm

end KVCachePool

/-! ## The arenas -/

namespace Executor

variable {e e' e'' : Executor κ ξ} {k : Nat}

theorem getElem?_writeStates (k : Nat) (states : List (ArenaState κ)) (tensors : List (Tensor κ))
    (i : Nat) : (writeStates k states tensors)[i]? = states[i]?.map fun state =>
      match tensors[i]? with
      | some tensor => { state with rows := Function.update state.rows k tensor.values }
      | none => state := by
  induction states generalizing tensors i with
  | nil => cases tensors <;> rfl
  | cons state states ih =>
      cases tensors with
      | nil => cases h : (state :: states)[i]? <;> simp [writeStates, h]
      | cons tensor tensors =>
          cases i with
          | zero => rfl
          | succ i => exact ih tensors i

theorem arena_writeArena (e : Executor κ ξ) (inA inB : Bool) (k : Nat) (tensors : List (Tensor κ)) :
    (e.writeArena inA k tensors).arena inB = if inB = inA then
      (e.arena inB).map fun states => writeStates k states tensors else e.arena inB := by
  cases inA <;> cases inB <;> rfl

@[simp] theorem kvPool_writeArena (e : Executor κ ξ) (inA : Bool) (k : Nat)
    (tensors : List (Tensor κ)) : (e.writeArena inA k tensors).kvPool = e.kvPool := by
  cases inA <;> rfl

@[simp] theorem convShapes_writeArena (e : Executor κ ξ) (inA : Bool) (k : Nat)
    (tensors : List (Tensor κ)) : (e.writeArena inA k tensors).convShapes = e.convShapes := by
  cases inA <;> rfl

theorem read_row (e : Executor κ ξ) (inA : Bool) (k i : Nat) :
    e.read (.row inA k i) = (e.arena inA).bind fun states => states[i]?.map (·.row k) := by
  show ((e.arena inA) >>= fun states => states[i]? >>= fun state => some (state.row k)) = _
  cases e.arena inA with
  | none => rfl
  | some states =>
      show (states[i]? >>= fun state => some (state.row k)) = states[i]?.map (·.row k)
      cases states[i]? <;> rfl

/-- The rows of another slot, or of the other arena. -/
theorem read_writeArena_of_ne (e : Executor κ ξ) {inA inB : Bool} {k j : Nat}
    (tensors : List (Tensor κ)) (h : inB ≠ inA ∨ j ≠ k) (i : Nat) :
    (e.writeArena inA k tensors).read (.row inB j i) = e.read (.row inB j i) := by
  rw [read_row, read_row, arena_writeArena]
  by_cases hside : inB = inA
  · rw [if_pos hside]
    have hj : j ≠ k := h.resolve_left fun hne => hne hside
    cases e.arena inB with
    | none => rfl
    | some states =>
        rw [Option.map_some, Option.bind_some, Option.bind_some, getElem?_writeStates]
        cases states[i]? with
        | none => rfl
        | some state =>
            cases tensors[i]? with
            | none => rfl
            | some tensor =>
                simp only [Option.map_some, ArenaState.row, Function.update_of_ne hj]
  · rw [if_neg hside]

/-- A row that is written reads back. -/
theorem read_writeArena_self (e : Executor κ ξ) (inA : Bool) (k : Nat) {tensors : List (Tensor κ)}
    {i : Nat} {tensor old : Tensor κ} (htensor : tensors[i]? = some tensor)
    (hold : e.read (.row inA k i) = some old) (hshape : tensor.shape = old.shape)
    (hmedium : tensor.medium = old.medium) :
    (e.writeArena inA k tensors).read (.row inA k i) = some tensor := by
  rw [read_row] at hold ⊢
  rw [arena_writeArena, if_pos rfl]
  cases hstates : e.arena inA with
  | none =>
      rw [hstates] at hold
      cases hold
  | some states =>
      rw [hstates, Option.bind_some] at hold
      rw [Option.map_some, Option.bind_some, getElem?_writeStates, htensor]
      cases hstate : states[i]? with
      | none =>
          rw [hstate] at hold
          cases hold
      | some state =>
          rw [hstate] at hold
          cases hold
          cases tensor with
          | mk shape medium values =>
              cases hshape
              cases hmedium
              simp [ArenaState.row]

/-! ## The executor -/

/-- `e'` is `e` but for the contents of the slot `k`. -/
structure Elsewhere (e e' : Executor κ ξ) (k : Nat) : Prop where
  pool : ∀ p, e.kvPool = some p → ∃ q, e'.kvPool = some q ∧ p.Elsewhere q k
  rows : ∀ inA j i, j ≠ k → e'.read (.row inA j i) = e.read (.row inA j i)

theorem Elsewhere.refl (e : Executor κ ξ) (k : Nat) : e.Elsewhere e k :=
  ⟨fun p hp => ⟨p, hp, .refl p k⟩, fun _ _ _ _ => rfl⟩

theorem Elsewhere.trans (h : e.Elsewhere e' k) (h' : e'.Elsewhere e'' k) : e.Elsewhere e'' k where
  pool p hp := by
    obtain ⟨q, hq, hpq⟩ := h.pool p hp
    obtain ⟨r, hr, hqr⟩ := h'.pool q hq
    exact ⟨r, hr, hpq.trans hqr⟩
  rows inA j i hj := (h'.rows inA j i hj).trans (h.rows inA j i hj)

/-- A write of the pool. -/
theorem elsewhere_setPool {p q : KVCachePool κ ξ} (hp : e.kvPool = some p) (h : p.Elsewhere q k) :
    e.Elsewhere (e.setPool q) k := by
  refine ⟨fun p' hp' => ⟨q, rfl, ?_⟩, fun _ _ _ _ => rfl⟩
  rw [hp] at hp'
  cases hp'
  exact h

/-- A write of an arena. -/
theorem elsewhere_writeArena (e : Executor κ ξ) (inA : Bool) (k : Nat) (tensors : List (Tensor κ)) :
    e.Elsewhere (e.writeArena inA k tensors) k :=
  ⟨fun p hp => ⟨p, by rw [kvPool_writeArena, hp], .refl p k⟩,
    fun _ _ i hj => e.read_writeArena_of_ne tensors (.inr hj) i⟩

/-- What a payload sets keeps the slot allocated. -/
theorem restoreInto_owner {payload : SlotPayload κ ξ} {slot restored : SlotKVState κ ξ} {now : Int}
    (h : payload.restoreInto slot now = .ok restored) : restored.slotId = slot.slotId ∧
      restored.allocationEpoch = slot.allocationEpoch ∧ restored.isFree = slot.isFree := by
  cases payload with
  | standalone values n =>
      obtain ⟨hfree, h⟩ := check_eq_ok.1 h
      obtain ⟨-, h⟩ := check_eq_ok.1 h
      cases h
      exact ⟨rfl, rfl, (Bool.eq_false_iff.2 hfree).symm⟩
  | owned values external n =>
      obtain ⟨-, h⟩ := check_eq_ok.1 h
      cases h
      exact ⟨rfl, rfl, rfl⟩

/-- The length of a payload that fits. -/
theorem validatePooledPayload_ok {kv : KV κ} {t : PoolTensor κ} {kind : Kind} {valid : Nat}
    (h : KVCachePool.validatePooledPayload kv t kind = .ok valid) : kv.frames.length = valid := by
  unfold KVCachePool.validatePooledPayload at h
  obtain ⟨-, h⟩ := check_eq_ok.1 h
  obtain ⟨-, h⟩ := check_eq_ok.1 h
  obtain ⟨-, h⟩ := check_eq_ok.1 h
  obtain ⟨-, h⟩ := check_eq_ok.1 h
  cases h
  rfl

section
variable {pool : KVCachePool κ ξ}

theorem restoreSlot_ok (hp : e.kvPool = some pool) {payload : SlotPayload κ ξ} {now : Int}
    (h : e.restoreSlot k payload now = .ok e') :
    ∃ slot, payload.restoreInto (pool.slots k) now = .ok slot ∧ e' = e.setPool (pool.setSlot k slot) := by
  unfold restoreSlot at h
  rw [hp] at h
  obtain ⟨slot, hslot, h⟩ := bind_eq_ok.1 h
  cases h
  exact ⟨slot, hslot, rfl⟩

/-- A call of the pool that returns. -/
theorem ofPool_ok {α : Type} {x : Except PoolError α} {a : α} (h : ofPool x = .ok a) : x = .ok a := by
  cases x with
  | error error => cases h
  | ok b => cases h; rfl

/-- What a restored Talker history writes. -/
theorem restoreTalker_written (hp : e.kvPool = some pool) {kv : KV κ} {epoch : Int}
    (h : e.restoreTalker k kv epoch = .ok e') : ∃ t, pool.talkerPool = some t ∧
      e' = e.setPool ((pool.writeRow .talker k (KVCachePool.stagedRow t.zero 0 kv.frames)).setSlot k
        { pool.slots k with pastLen := kv.frames.length, talkerKv := none }) := by
  unfold restoreTalker at h
  rw [hp] at h
  obtain ⟨⟨valid, restored⟩, hrestored, h⟩ := bind_eq_ok.1 h
  cases h
  replace hrestored := ofPool_ok hrestored
  unfold KVCachePool.restorePooledTalkerKv at hrestored
  obtain ⟨slot, hslot, h⟩ := bind_eq_ok.1 hrestored
  obtain ⟨-, -, -, rfl⟩ := KVCachePool.contract_ok hslot
  cases ht : pool.talkerPool with
  | none =>
      rw [ht] at h
      cases h
  | some t =>
      rw [ht] at h
      obtain ⟨valid', hvalid, h⟩ := bind_eq_ok.1 h
      cases validatePooledPayload_ok hvalid
      cases h
      exact ⟨t, rfl, rfl⟩

/-- What a restored Code2Wav history writes. -/
theorem restoreC2w_written (hp : e.kvPool = some pool) {kv : KV κ} {epoch : Int}
    (h : e.restoreC2w k kv epoch = .ok e') : ∃ t, pool.c2wPool = some t ∧
      e' = e.setPool ((pool.writeRow .c2w k
        (KVCachePool.stagedRow t.zero (t.capacity - kv.frames.length) kv.frames)).setSlot k
        { pool.slots k with c2wLen := kv.frames.length, c2wPooled := true, c2wKv := none }) := by
  unfold restoreC2w at h
  rw [hp] at h
  obtain ⟨⟨valid, restored⟩, hrestored, h⟩ := bind_eq_ok.1 h
  cases h
  replace hrestored := ofPool_ok hrestored
  unfold KVCachePool.restorePooledC2wKv at hrestored
  obtain ⟨slot, hslot, h⟩ := bind_eq_ok.1 hrestored
  obtain ⟨-, -, -, rfl⟩ := KVCachePool.contract_ok hslot
  cases ht : pool.c2wPool with
  | none =>
      rw [ht] at h
      cases h
  | some t =>
      rw [ht] at h
      obtain ⟨valid', hvalid, h⟩ := bind_eq_ok.1 h
      cases validatePooledPayload_ok hvalid
      cases h
      exact ⟨t, rfl, rfl⟩

/-- What a restored arena payload writes. -/
theorem restoreC2wArena_written (hp : e.kvPool = some pool) {arena : C2WArenaSnapshot κ} {epoch : Int}
    {sourceSlotId sourceEpoch : Nat}
    (h : e.restoreC2wArena k arena epoch sourceSlotId sourceEpoch = .ok e') :
    e.validateC2wSnapshotTensors false (e.arenaGroups k arena) = .ok () ∧
      e' = ((e.writeArena (!arena.writeInA) k (arena.readConv ++ arena.readTransconv)).writeArena
        arena.writeInA k (arena.writeConv ++ arena.writeTransconv)).setPool
          (pool.setSlot k { pool.slots k with
            c2wStates :=
              { conv := some (e.arenaRowViews (!arena.writeInA) k).1
                transconv := some (e.arenaRowViews (!arena.writeInA) k).2
                convWrite := some (e.arenaRowViews arena.writeInA k).1
                transconvWrite := some (e.arenaRowViews arena.writeInA k).2
                writeInA := arena.writeInA }
            c2wArenaBacked := true }) := by
  unfold restoreC2wArena at h
  rw [hp] at h
  obtain ⟨_, -, h⟩ := bind_eq_ok.1 h
  obtain ⟨-, h⟩ := check_eq_ok.1 h
  obtain ⟨_, htensors, h⟩ := bind_eq_ok.1 h
  cases h
  exact ⟨htensors, rfl⟩

/-! ## Restores -/

/-- Writes that stay in the slot. -/
theorem elsewhere_runWrites {writes : List (Executor κ ξ → Except StateError (Executor κ ξ))}
    (h : ∀ write ∈ writes, ∀ e e' : Executor κ ξ, e.kvPool.isSome → write e = .ok e' →
      e.Elsewhere e' k) (hp : e.kvPool = some pool) :
    e.Elsewhere (e.runWrites writes).1 k := by
  induction writes generalizing e pool with
  | nil => exact .refl e k
  | cons write writes ih =>
      unfold runWrites
      cases hwrite : write e with
      | error error => exact .refl e k
      | ok written =>
          have hfirst := h write List.mem_cons_self e written (by rw [hp]; rfl) hwrite
          obtain ⟨q, hq, -⟩ := hfirst.pool pool hp
          exact hfirst.trans (ih (fun w hw => h w (List.mem_cons_of_mem _ hw)) hq)

/-- Every write of a bundle stays in the slot. -/
theorem elsewhere_restoreWrites {bundle : Bundle κ ξ} {epoch now : Int}
    {write : Executor κ ξ → Except StateError (Executor κ ξ)}
    (hmem : write ∈ restoreWrites k bundle epoch now) {e e' : Executor κ ξ} (hsome : e.kvPool.isSome)
    (h : write e = .ok e') : e.Elsewhere e' k := by
  obtain ⟨pool, hp⟩ := Option.isSome_iff_exists.1 hsome
  simp only [restoreWrites, List.mem_cons, List.not_mem_nil, or_false] at hmem
  rcases hmem with rfl | rfl | rfl | rfl
  · obtain ⟨slot, hslot, rfl⟩ := restoreSlot_ok hp h
    obtain ⟨hslotId, hepoch, hfree⟩ := restoreInto_owner hslot
    exact elsewhere_setPool hp (KVCachePool.elsewhere_setSlot hslotId hepoch hfree)
  · cases hpayload : bundle.pooledTalkerPayload with
    | none =>
        rw [hpayload] at h
        cases h
        exact .refl e k
    | some kv =>
        rw [hpayload] at h
        obtain ⟨t, -, rfl⟩ := restoreTalker_written hp h
        exact elsewhere_setPool hp ((KVCachePool.elsewhere_writeRow pool .talker k _).trans
          (KVCachePool.elsewhere_setSlot rfl rfl rfl))
  · cases hpayload : bundle.pooledC2wPayload with
    | none =>
        rw [hpayload] at h
        cases h
        exact .refl e k
    | some kv =>
        rw [hpayload] at h
        obtain ⟨t, -, rfl⟩ := restoreC2w_written hp h
        exact elsewhere_setPool hp ((KVCachePool.elsewhere_writeRow pool .c2w k _).trans
          (KVCachePool.elsewhere_setSlot rfl rfl rfl))
  · cases hpayload : bundle.arenaPayload with
    | none =>
        rw [hpayload] at h
        cases h
        exact .refl e k
    | some arena =>
        rw [hpayload] at h
        obtain ⟨-, rfl⟩ := restoreC2wArena_written hp h
        exact (elsewhere_writeArena e _ k _).trans ((elsewhere_writeArena _ _ k _).trans
          (elsewhere_setPool (by rw [kvPool_writeArena, kvPool_writeArena, hp])
            (KVCachePool.elsewhere_setSlot rfl rfl rfl)))

/-- A restore stays in the slot, whatever it raises. -/
theorem elsewhere_restore (hp : e.kvPool = some pool) (bundle : Bundle κ ξ) (epoch now : Int) :
    e.Elsewhere (e.restoreSpeechStateBundle k bundle epoch now).1 k := by
  unfold restoreSpeechStateBundle
  split
  · exact .refl e k
  · exact elsewhere_runWrites (fun _ hmem _ _ hsome h => elsewhere_restoreWrites hmem hsome h) hp

/-- What is left of an interrupted restore is in the slot. -/
theorem elsewhere_apply (left : Partial κ ξ) (hp : e.kvPool = some pool) :
    e.Elsewhere (left.apply e k) k := by
  have hpool : pool.Elsewhere (left.applyPool pool k) k :=
    (KVCachePool.elsewhere_writeRow pool .talker k _).trans
      ((KVCachePool.elsewhere_writeRow _ .c2w k _).trans (KVCachePool.elsewhere_setSlot rfl rfl rfl))
  have harena : e.Elsewhere ((e.writeArena true k left.arenaA).writeArena false k left.arenaB) k :=
    (elsewhere_writeArena e _ k _).trans (elsewhere_writeArena _ _ k _)
  refine ⟨fun p hp' => ⟨left.applyPool pool k, ?_, ?_⟩, harena.rows⟩
  · show e.kvPool.map _ = _
    rw [hp, Option.map_some]
  · rw [hp] at hp'
    cases hp'
    exact hpool

end

end Executor

end StreamingTts.Engine.Pooled
