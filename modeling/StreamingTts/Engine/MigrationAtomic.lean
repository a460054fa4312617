import StreamingTts.Engine.TransferRoundTrip

/-!
# A migration is atomic

In every run of the engine loop a migration that raises leaves the segment on its source slot, with the
occupied slots, the slot table and the handle store as they were, and one that returns has moved the
segment to one other slot that has the decode state of the source (`migration_atomic`).
-/

namespace StreamingTts.Engine.Pooled

open Lib
open Frontend (Text)

variable {κ : Type} {ξ : Type}

/-! ## Handles -/

namespace HandleStore

variable {store : HandleStore κ ξ} {handle : SpeechStateHandle} {payload : Bundle κ ξ}

theorem create_ok {h : SpeechStateHandle} {store' : HandleStore κ ξ}
    (hcreate : create store h payload = .ok (handle, store')) :
    get store handle.handleId = none ∧ store' = store ++ [(handle, payload)] := by
  unfold create at hcreate
  obtain ⟨checked, -, hcreate⟩ := bind_eq_ok.1 hcreate
  obtain ⟨hnew, hcreate⟩ := check_eq_ok.1 hcreate
  cases hcreate
  exact ⟨Option.isNone_iff_eq_none.1 (by simpa using hnew), rfl⟩

theorem get_created (h : get store handle.handleId = none) :
    get (store ++ [(handle, payload)]) handle.handleId = some (handle, payload) := by
  unfold get at h ⊢
  rw [List.find?_append, h]
  simp

theorem delete_created (h : get store handle.handleId = none) :
    delete (store ++ [(handle, payload)]) handle.handleId = store := by
  unfold get at h
  unfold delete
  rw [List.filter_append, List.filter_eq_self.2 fun entry hentry => by
    simpa using List.find?_eq_none.1 h entry hentry]
  simp

/-- The handle that was created is the one that is consumed. -/
theorem consume_created (h : get store handle.handleId = none) {context : SpeechStateContext}
    {taken : Bundle κ ξ} {store' : HandleStore κ ξ}
    (hconsume : consume (store ++ [(handle, payload)]) handle context = .ok (taken, store')) :
    taken = payload ∧ store' = store := by
  unfold consume at hconsume
  rw [get_created h, delete_created h] at hconsume
  obtain ⟨-, hconsume⟩ := check_eq_ok.1 hconsume
  obtain ⟨_, -, hconsume⟩ := bind_eq_ok.1 hconsume
  cases hconsume
  exact ⟨rfl, rfl⟩

/-- A handle that is left over is released. -/
theorem release_created (h : get store handle.handleId = none) :
    release (store ++ [(handle, payload)]) handle = .ok store := by
  unfold release
  rw [get_created h, delete_created h]
  exact check_eq_ok.2 ⟨fun hne => hne rfl, rfl⟩

theorem release_consumed (h : get store handle.handleId = none) :
    release store handle = .ok store := by
  unfold release
  rw [h]
  rfl

end HandleStore

/-! ## Slots beside the target -/

namespace KVCachePool

variable {p q r : KVCachePool κ ξ} {t : Nat}

/-- `q` is `p` but for the slot `t`, and perhaps who owns it. -/
structure Beside (p q : KVCachePool κ ξ) (t : Nat) : Prop where
  slots : ∀ j, j ≠ t → q.slots j = p.slots j
  slotId : (q.slots t).slotId = (p.slots t).slotId
  maxSlots : q.maxSlots = p.maxSlots
  tensors : Executor.SameTensors p q t

theorem Elsewhere.beside (h : p.Elsewhere q t) : p.Beside q t :=
  ⟨h.slots, h.slotId, h.maxSlots, h.tensor, h.noTensor⟩

theorem Beside.trans (h : p.Beside q t) (h' : q.Beside r t) : p.Beside r t where
  slots j hj := (h'.slots j hj).trans (h.slots j hj)
  slotId := h'.slotId.trans h.slotId
  maxSlots := h'.maxSlots.trans h.maxSlots
  tensors := {
    tensor := fun kind T hT => by
      obtain ⟨row, hrow⟩ := h.tensors.tensor kind T hT
      obtain ⟨row', hrow'⟩ := h'.tensors.tensor kind _ hrow
      exact ⟨row', by rw [hrow', write_write]⟩
    noTensor := fun kind hT => h'.tensors.noTensor kind (h.tensors.noTensor kind hT) }

/-- A slot that is given back keeps its rows. -/
theorem beside_release {epoch : Option Int} (h : p.release t epoch = .ok q) : p.Beside q t := by
  obtain ⟨-, -, ⟨-, rfl⟩ | ⟨-, rfl⟩⟩ := release_ok h
  · exact (Elsewhere.refl _ t).beside
  · refine ⟨fun j hj => Function.update_of_ne hj _ _, ?_, rfl,
      (Elsewhere.refl p t).tensor, (Elsewhere.refl p t).noTensor⟩
    show (Function.update p.slots t _ t).slotId = _
    rw [Function.update_self]
    rfl

/-- A slot that is handed out. -/
theorem allocate_spec {sessionId : Text} {now : Int} (h : p.allocate sessionId now = some (t, q)) :
    p.freeSlots.getLast? = some t ∧ q.freeSlots = p.freeSlots.dropLast ∧
      q.slots t = freshSlot (p.slots t) sessionId now ∧ p.Beside q t := by
  unfold allocate at h
  cases hlast : p.freeSlots.getLast? with
  | none =>
      rw [hlast] at h
      cases h
  | some k =>
      rw [hlast] at h
      cases h
      obtain ⟨hslots, hfree, hmax⟩ := zeroRows_fields
        (setSlot { p with freeSlots := p.freeSlots.dropLast } t
          (freshSlot (p.slots t) sessionId now)) t
      have hself : ∀ j, (zeroRows (setSlot { p with freeSlots := p.freeSlots.dropLast } t
          (freshSlot (p.slots t) sessionId now)) t).slots j
          = Function.update p.slots t (freshSlot (p.slots t) sessionId now) j := by
        intro j
        rw [hslots]
        rfl
      refine ⟨rfl, hfree, by rw [hself, Function.update_self],
        fun j hj => by rw [hself, Function.update_of_ne hj],
        by rw [hself, Function.update_self]; rfl, hmax, ?_⟩
      unfold zeroRows
      split
      · refine ⟨fun kind T hT => ⟨fun _ => T.zero, ?_⟩, fun kind hT => ?_⟩
        · cases kind with
          | talker =>
              show p.talkerPool.map _ = _
              rw [show p.talkerPool = some T from hT, Option.map_some]
          | c2w =>
              show p.c2wPool.map _ = _
              rw [show p.c2wPool = some T from hT, Option.map_some]
        · cases kind with
          | talker =>
              show p.talkerPool.map _ = none
              rw [show p.talkerPool = none from hT, Option.map_none]
          | c2w =>
              show p.c2wPool.map _ = none
              rw [show p.c2wPool = none from hT, Option.map_none]
      · exact ⟨(Elsewhere.refl p t).tensor, (Elsewhere.refl p t).noTensor⟩

/-- The free list of a pool that keeps its owners. -/
theorem Ownership.of_isFree (h : p.Ownership) (hfree : q.freeSlots = p.freeSlots)
    (hmax : q.maxSlots = p.maxSlots) (hslots : ∀ k, (q.slots k).isFree = (p.slots k).isFree) :
    q.Ownership :=
  ⟨by rw [hfree]; exact h.nodup, fun k => by rw [hfree, hmax, hslots]; exact h.mem_iff k⟩

theorem Elsewhere.ownership (h : p.Elsewhere q t) (hp : p.Ownership) : q.Ownership := by
  refine hp.of_isFree h.freeSlots h.maxSlots fun k => ?_
  by_cases hk : k = t
  · rw [hk, h.isFree]
  · rw [h.slots k hk]

end KVCachePool

/-! ## The transfer -/

namespace EngineLoop

section
variable {eng left : EngineLoop κ ξ} {request : MigrationRequest} {source target epoch : Nat}
  {bundle : Bundle κ ξ} {env : MigrationEnv κ ξ} {handle : Option SpeechStateHandle}
  {pool : KVCachePool κ ξ}

/-- The handles that a transfer leaves are the ones there were, once its own is released. -/
def HandlesKept (eng left : EngineLoop κ ξ) (handle : Option SpeechStateHandle) : Prop :=
  match handle with
  | none => left.handles = eng.handles
  | some handle => HandleStore.release left.handles handle = .ok eng.handles

/-- What a transfer has done when it raises: it has written the target, at most. -/
structure Interrupted (eng left : EngineLoop κ ξ) (target : Nat) (handle : Option SpeechStateHandle) :
    Prop where
  executor : eng.executor.Elsewhere left.executor target
  segments : left.segments = eng.segments
  segBySlot : left.segBySlot = eng.segBySlot
  handles : HandlesKept eng left handle

/-- What a transfer has done when it returns: the bundle is restored, and the source is given back. -/
structure Transferred (eng moved : EngineLoop κ ξ) (request : MigrationRequest)
    (source target epoch : Nat) (bundle : Bundle κ ξ) (now : Int) : Prop where
  segments : moved.segments = eng.segments
  segBySlot : moved.segBySlot = eng.segBySlot
  handles : moved.handles = eng.handles
  executor : ∃ restored pool released,
    eng.executor.restoreSpeechStateBundle target bundle epoch now = (restored, .ok ()) ∧
    restored.kvPool = some pool ∧
    pool.release source (some request.expectedAllocationEpoch) = .ok released ∧
    moved.executor = restored.setPool released

theorem consumeHandle_ok {handle : SpeechStateHandle} {result : Bundle κ ξ × HandleStore κ ξ}
    (h : eng.consumeHandle request epoch handle = .ok result) :
    ∃ context, HandleStore.consume eng.handles handle context = .ok result := by
  unfold consumeHandle at h
  obtain ⟨context, -, h⟩ := bind_eq_ok.1 h
  exact ⟨context, h⟩

theorem restoreTarget_cases (hp : eng.executor.kvPool = some pool) {outcome : Except StateError Unit}
    (h : eng.restoreTarget target epoch bundle env = (left, outcome)) :
    (left = { eng with executor := left.executor } ∧
      eng.executor.Elsewhere left.executor target) ∧
      (outcome = .ok () → eng.executor.restoreSpeechStateBundle target bundle epoch env.now
        = (left.executor, .ok ())) := by
  unfold restoreTarget at h
  cases hfault : env.restoreFails with
  | some fault =>
      rw [hfault] at h
      cases h
      exact ⟨⟨rfl, Executor.elsewhere_apply fault hp⟩, fun h => by cases h⟩
  | none =>
      rw [hfault] at h
      have hframe := Executor.elsewhere_restore hp bundle epoch env.now (k := target)
      cases hrestore : eng.executor.restoreSpeechStateBundle target bundle epoch env.now with
      | mk executor result =>
          rw [hrestore] at h hframe
          cases h
          exact ⟨⟨rfl, hframe⟩, fun h => by rw [h]⟩

theorem releaseSource_ok {released : EngineLoop κ ξ}
    (h : eng.releaseSource request source env = .ok released) :
    ∃ pool pool', eng.executor.kvPool = some pool ∧
      pool.release source (some request.expectedAllocationEpoch) = .ok pool' ∧
      released = eng.setPool pool' := by
  unfold releaseSource at h
  obtain ⟨-, h⟩ := check_eq_ok.1 h
  cases hp : eng.executor.kvPool with
  | none =>
      rw [hp] at h
      cases h
  | some pool =>
      rw [hp] at h
      obtain ⟨pool', hpool', h⟩ := bind_eq_ok.1 h
      cases h
      exact ⟨pool, pool', rfl, Executor.ofPool_ok hpool', rfl⟩

/-- A transfer raises with the target written at most, or moves the state. -/
theorem transferState_cases (hp : eng.executor.kvPool = some pool)
    {outcome : Except StateError Unit}
    (h : eng.transferState request source target epoch bundle env = (left, handle, outcome)) :
    (∀ error, outcome = .error error → Interrupted eng left target handle) ∧
      (outcome = .ok () → Transferred eng left request source target epoch bundle env.now) := by
  unfold transferState at h
  cases hcreate : HandleStore.create eng.handles (eng.handleOf request env) bundle with
  | error error =>
      rw [hcreate] at h
      cases h
      exact ⟨fun _ _ => ⟨.refl _ _, rfl, rfl, rfl⟩, fun h => by cases h⟩
  | ok created =>
      obtain ⟨own, handles⟩ := created
      obtain ⟨hnew, rfl⟩ := HandleStore.create_ok hcreate
      rw [hcreate] at h
      dsimp only at h
      split at h
      · cases h
        exact ⟨fun _ _ => ⟨.refl _ _, rfl, rfl, HandleStore.release_created hnew⟩,
          fun h => by cases h⟩
      · rename_i payload consumed hconsume
        obtain ⟨context, hconsume⟩ := consumeHandle_ok hconsume
        obtain ⟨rfl, rfl⟩ := HandleStore.consume_created hnew hconsume
        split at h
        · rename_i interrupted error hrestore
          obtain ⟨⟨hleft, hframe⟩, -⟩ := restoreTarget_cases hp hrestore
          cases h
          rw [hleft]
          exact ⟨fun _ _ => ⟨hframe, rfl, rfl, HandleStore.release_consumed hnew⟩,
            fun h => by cases h⟩
        · rename_i restored hrestore
          obtain ⟨⟨hleft, hframe⟩, hreturns⟩ := restoreTarget_cases hp hrestore
          split at h
          · cases h
            rw [hleft]
            exact ⟨fun _ _ => ⟨hframe, rfl, rfl, HandleStore.release_consumed hnew⟩,
              fun h => by cases h⟩
          · rename_i released hrelease
            obtain ⟨pool₂, pool₃, hpool₂, hpool₃, rfl⟩ := releaseSource_ok hrelease
            cases h
            refine ⟨(fun _ h => by cases h), fun _ => ⟨?_, ?_, ?_, ?_⟩⟩
            · rw [hleft]
              rfl
            · rw [hleft]
              rfl
            · rw [hleft]
              rfl
            · exact ⟨restored.executor, pool₂, pool₃, hreturns rfl, hpool₂, hpool₃, rfl⟩

end

/-! ## What holds in every run -/

/-- What holds of the pool: its free list, the index of every slot, and where histories are. -/
structure PoolSound (pool : KVCachePool κ ξ) : Prop where
  ownership : pool.Ownership
  slotId : ∀ k, (pool.slots k).slotId = k
  exclusive : ∀ k, (pool.slots k).isFree = false → Exclusive pool (pool.slots k)

/-- What holds of the engine loop: a segment has a slot exactly if the slot table says so, the slot is
allocated, and no handle is left over. -/
structure Sound (eng : EngineLoop κ ξ) : Prop where
  pool : ∀ p, eng.executor.kvPool = some p → PoolSound p
  holds : ∀ key seg k, eng.segments key = some seg → seg.slot = some k →
    eng.segBySlot k = some key ∧ ∃ p, eng.executor.kvPool = some p ∧ (p.slots k).isFree = false
  held : ∀ k key, eng.segBySlot k = some key → ∃ seg, eng.segments key = some seg ∧ seg.slot = some k
  handles : eng.handles = []

/-- The slot `k` has the same fields and the same rows. -/
structure SameSlot (e e' : Executor κ ξ) (p q : KVCachePool κ ξ) (k : Nat) : Prop where
  slot : q.slots k = p.slots k
  rows : ∀ kind, (q.tensor kind).map (·.rows k) = (p.tensor kind).map (·.rows k)
  arenas : ∀ inA i, e'.read (.row inA k i) = e.read (.row inA k i)

/-- Nothing has happened to the segments, the slot table, the handles or an allocated slot. -/
structure Kept (eng eng' : EngineLoop κ ξ) : Prop where
  segments : eng'.segments = eng.segments
  segBySlot : eng'.segBySlot = eng.segBySlot
  handles : eng'.handles = []
  noPool : eng.executor.kvPool = none → eng'.executor.kvPool = none
  pool : ∀ p, eng.executor.kvPool = some p → ∃ q, eng'.executor.kvPool = some q ∧
    q.freeSlots = p.freeSlots ∧ (∀ k, (q.slots k).isFree = (p.slots k).isFree) ∧
    ∀ k, (p.slots k).isFree = false → SameSlot eng.executor eng'.executor p q k

/-- The segment has been moved from its slot to another one, with its decode state. -/
structure Moved (eng eng' : EngineLoop κ ξ) (key : SegKey) (seg : Segment) (source target : Nat)
    (p q : KVCachePool κ ξ) : Prop where
  segment : eng.segments key = some seg ∧ seg.slot = some source
  pools : eng.executor.kvPool = some p ∧ eng'.executor.kvPool = some q
  before : (p.slots source).isFree = false ∧ (p.slots target).isFree = true
  after : (q.slots source).isFree = true ∧ (q.slots target).isFree = false
  segments : eng'.segments = Function.update eng.segments key (some { seg with slot := some target })
  owns : ∀ k, eng'.segBySlot k = some key ↔ k = target
  cleared : eng'.segBySlot source = none
  others : ∀ k, k ≠ source → k ≠ target →
    eng'.segBySlot k = eng.segBySlot k ∧ SameSlot eng.executor eng'.executor p q k
  handles : eng'.handles = []
  state : eng'.executor.decodeState q target = eng.executor.decodeState p source

section
variable {eng eng' : EngineLoop κ ξ} {p q r : KVCachePool κ ξ} {t : Nat}

theorem isSome_of_beside (h : p.Beside q t) (kind : Kind) :
    (q.tensor kind).isSome = (p.tensor kind).isSome := by
  cases hT : p.tensor kind with
  | none => rw [h.tensors.noTensor kind hT]
  | some T =>
      obtain ⟨row, hrow⟩ := h.tensors.tensor kind T hT
      rw [hrow]
      rfl

theorem exclusive_of_beside {slot : SlotKVState κ ξ} (hx : Exclusive p slot) (h : p.Beside q t) :
    Exclusive q slot := by
  exact ⟨fun hsome => hx.1 ((isSome_of_beside h .talker).symm.trans hsome), hx.2⟩

theorem sameSlot_of_beside (e e' : Executor κ ξ) (h : p.Beside q t)
    (hrows : ∀ inA j i, j ≠ t → e'.read (.row inA j i) = e.read (.row inA j i)) {k : Nat}
    (hk : k ≠ t) : SameSlot e e' p q k := by
  refine ⟨h.slots k hk, fun kind => ?_, fun inA i => hrows inA k i hk⟩
  cases hT : p.tensor kind with
  | none => rw [h.tensors.noTensor kind hT]
  | some T =>
      obtain ⟨row, hrow⟩ := h.tensors.tensor kind T hT
      rw [hrow, Option.map_some, Option.map_some]
      exact congrArg some (Function.update_of_ne hk _ _)

/-- A pool in which only a free slot has been written. -/
theorem PoolSound.of_beside (hs : PoolSound p) (h : p.Beside q t)
    (hfree : q.freeSlots = p.freeSlots) (hspare : (p.slots t).isFree = true)
    (hstill : (q.slots t).isFree = true) : PoolSound q := by
  have hisFree : ∀ k, (q.slots k).isFree = (p.slots k).isFree := by
    intro k
    by_cases hk : k = t
    · rw [hk, hspare, hstill]
    · rw [h.slots k hk]
  refine ⟨hs.ownership.of_isFree hfree h.maxSlots hisFree, fun k => ?_, fun k hk => ?_⟩
  · by_cases hkt : k = t
    · rw [hkt, h.slotId, hs.slotId]
    · rw [h.slots k hkt, hs.slotId]
  · have hkt : k ≠ t := by
      rintro rfl
      rw [hstill] at hk
      cases hk
    rw [h.slots k hkt] at hk ⊢
    exact exclusive_of_beside (hs.exclusive k hk) h

theorem freed_of_release {k : Nat} {epoch : Option Int} (h : p.release k epoch = .ok q) :
    (q.slots k).isFree = true := by
  obtain ⟨-, -, ⟨hfree, rfl⟩ | ⟨-, rfl⟩⟩ := KVCachePool.release_ok h
  · exact hfree
  · show (Function.update p.slots k _ k).isFree = true
    rw [Function.update_self]
    rfl

/-- A pool in which a slot has been given back. -/
theorem PoolSound.release (hs : PoolSound p) {k : Nat} {epoch : Option Int}
    (h : p.release k epoch = .ok q) : PoolSound q := by
  have hback := KVCachePool.beside_release h
  refine ⟨(KVCachePool.effect_of_call (show p.call (.release k epoch) = .ok q from h)).ownership
    hs.ownership, fun j => ?_, fun j hj => ?_⟩
  · by_cases hjk : j = k
    · rw [hjk, hback.slotId, hs.slotId]
    · rw [hback.slots j hjk, hs.slotId]
  · have hjk : j ≠ k := by
      rintro rfl
      rw [freed_of_release h] at hj
      cases hj
    rw [hback.slots j hjk] at hj ⊢
    exact exclusive_of_beside (hs.exclusive j hj) hback

/-- A pool in which an allocated slot has been written. -/
theorem PoolSound.of_allocated (hs : PoolSound p) (h : p.Beside q t) (hownership : q.Ownership)
    (hx : Exclusive q (q.slots t)) : PoolSound q := by
  refine ⟨hownership, fun k => ?_, fun k hk => ?_⟩
  · by_cases hkt : k = t
    · rw [hkt, h.slotId, hs.slotId]
    · rw [h.slots k hkt, hs.slotId]
  · by_cases hkt : k = t
    · rw [hkt]
      exact hx
    · rw [h.slots k hkt] at hk ⊢
      exact exclusive_of_beside (hs.exclusive k hk) h

/-- What is kept is sound. -/
theorem Sound.of_kept (hs : Sound eng) (h : Kept eng eng')
    (hpool : ∀ q, eng'.executor.kvPool = some q → PoolSound q) : Sound eng' := by
  refine ⟨hpool, fun key seg k hseg hk => ?_, fun k key hk => ?_, h.handles⟩
  · rw [h.segments] at hseg
    obtain ⟨htable, p, hp, howned⟩ := hs.holds key seg k hseg hk
    obtain ⟨q, hq, -, hfree, -⟩ := h.pool p hp
    exact ⟨by rw [h.segBySlot, htable], q, hq, by rw [hfree, howned]⟩
  · rw [h.segBySlot] at hk
    rw [h.segments]
    exact hs.held k key hk

theorem Kept.refl (hs : Sound eng) : Kept eng eng :=
  ⟨rfl, rfl, hs.handles, id, fun p hp => ⟨p, hp, rfl, fun _ => rfl, fun _ _ => ⟨rfl, fun _ => rfl,
    fun _ _ => rfl⟩⟩⟩

/-- What the checks of a migration say of its source. -/
theorem migrationSource_ok {request : MigrationRequest} {seg : Segment} {k : Nat}
    (h : eng.migrationSource request = .ok (seg, k, p)) :
    eng.segments (request.sessionId, request.segmentIdx) = some seg ∧ seg.slot = some k ∧
      eng.executor.kvPool = some p ∧ (p.slots k).isFree = false ∧
      ((p.slots k).allocationEpoch : Int) = request.expectedAllocationEpoch := by
  unfold migrationSource at h
  obtain ⟨-, h⟩ := check_eq_ok.1 h
  cases hseg : eng.segments (request.sessionId, request.segmentIdx) with
  | none =>
      rw [hseg] at h
      cases h
  | some seg' =>
      rw [hseg] at h
      cases hk : seg'.slot with
      | none =>
          simp only [hk] at h
          cases h
      | some k' =>
          simp only [hk] at h
          obtain ⟨-, h⟩ := check_eq_ok.1 h
          cases hp : eng.executor.kvPool with
          | none =>
              rw [hp] at h
              cases h
          | some p' =>
              rw [hp] at h
              obtain ⟨howner, h⟩ := check_eq_ok.1 h
              obtain ⟨-, h⟩ := check_eq_ok.1 h
              cases h
              simp only [not_or, Bool.not_eq_true, Decidable.not_not] at howner
              exact ⟨rfl, hk, rfl, howner.1, howner.2.2.2.1⟩

/-- The bundle of a migration. -/
theorem captureSource_ok {request : MigrationRequest} {seg : Segment} {k : Nat}
    {env : MigrationEnv κ ξ} {bundle : Bundle κ ξ} (hp : eng.executor.kvPool = some p)
    (h : eng.captureSource request seg k env = .ok bundle) :
    Executor.Captured eng.executor p k bundle := by
  unfold captureSource at h
  obtain ⟨-, h⟩ := check_eq_ok.1 h
  obtain ⟨metadata, -, h⟩ := bind_eq_ok.1 h
  obtain ⟨-, h⟩ := check_eq_ok.1 h
  obtain ⟨-, h⟩ := check_eq_ok.1 h
  exact Executor.captured_of_ok hp h

variable (eng) in
/-- A slot that has been handed out, with other fields of its segment. -/
theorem prepared_spec {sessionId : Text} {now : Int} (hs : PoolSound p)
    (h : p.allocate sessionId now = some (t, q)) (slot : SlotKVState κ ξ)
    (hslotId : slot.slotId = (q.slots t).slotId)
    (hepoch : slot.allocationEpoch = (q.slots t).allocationEpoch)
    (hisFree : slot.isFree = (q.slots t).isFree) (htalker : slot.talkerKv = (q.slots t).talkerKv)
    (hc2w : slot.c2wKv = (q.slots t).c2wKv) (hpooled : slot.c2wPooled = (q.slots t).c2wPooled)
    (hbacked : slot.c2wArenaBacked = (q.slots t).c2wArenaBacked) :
    p.Beside (q.setSlot t slot) t ∧ (p.slots t).isFree = true ∧
      (q.setSlot t slot).freeSlots ++ [t] = p.freeSlots ∧ (q.setSlot t slot).Ownership ∧
      Executor.Spare eng.executor (eng.executor.setPool (q.setSlot t slot)) p (q.setSlot t slot) t := by
  obtain ⟨hlast, hfree, hfresh, hbeside⟩ := KVCachePool.allocate_spec h
  have helsewhere : q.Elsewhere (q.setSlot t slot) t :=
    KVCachePool.elsewhere_setSlot hslotId hepoch hisFree
  have hownership : q.Ownership := by
    refine (KVCachePool.effect_of_call (c := .allocate sessionId now) ?_).ownership hs.ownership
    unfold KVCachePool.call
    dsimp only
    rw [h]
  have hprepared := hbeside.trans helsewhere.beside
  refine ⟨hprepared, ?_, ?_, helsewhere.ownership hownership, ⟨rfl, rfl, rfl,
    hprepared.tensors, ?_, ?_, ?_, ?_, ?_⟩⟩
  · exact ((hs.ownership.mem_iff t).1 (List.mem_of_getLast? hlast)).2
  · show q.freeSlots ++ [t] = _
    rw [hfree]
    exact List.dropLast_append_getLast? t hlast
  · rw [KVCachePool.setSlot_self, hisFree, hfresh]
    rfl
  · rw [KVCachePool.setSlot_self, htalker, hfresh]
    rfl
  · rw [KVCachePool.setSlot_self, hc2w, hfresh]
    rfl
  · rw [KVCachePool.setSlot_self, hpooled, hfresh]
    rfl
  · rw [KVCachePool.setSlot_self, hbacked, hfresh]
    rfl

/-- The target is given back after a transfer that has raised. -/
theorem discardTarget_kept {started left : EngineLoop κ ξ} {handle : Option SpeechStateHandle}
    {prepared : KVCachePool κ ξ} {epoch : Nat} (hs : Sound eng) (hp : eng.executor.kvPool = some p)
    (hstarted : started.executor = eng.executor.setPool prepared)
    (hsegments : started.segments = eng.segments) (htable : started.segBySlot = eng.segBySlot)
    (hhandles : started.handles = eng.handles) (hbeside : p.Beside prepared t)
    (hspare : (p.slots t).isFree = true) (hfree : prepared.freeSlots ++ [t] = p.freeSlots)
    (htaken : (prepared.slots t).isFree = false)
    (hepoch : (prepared.slots t).allocationEpoch = epoch)
    (h : Interrupted started left t handle) :
    Kept eng (left.discardTarget t epoch handle) ∧ Sound (left.discardTarget t epoch handle) := by
  obtain ⟨q, hq, helsewhere⟩ := h.executor.pool prepared (by rw [hstarted]; rfl)
  have hrange : t < p.maxSlots := by
    refine ((hs.pool p hp).ownership.mem_iff t).1 ?_ |>.1
    rw [← hfree]
    exact List.mem_append_right _ List.mem_cons_self
  have hrelease : q.release t (some epoch) = .ok
      { q.setSlot t (KVCachePool.releasedSlot (q.slots t)) with freeSlots := q.freeSlots ++ [t] } := by
    unfold KVCachePool.release
    refine check_eq_ok.2 ⟨?_, check_eq_ok.2 ⟨?_, ?_⟩⟩
    · rw [helsewhere.maxSlots, hbeside.maxSlots]
      exact Nat.not_le_of_lt hrange
    · rw [helsewhere.epoch, hepoch]
      exact fun hne => hne rfl
    · rw [if_neg (by rw [helsewhere.isFree, htaken]; exact Bool.false_ne_true)]
      rfl
  set released := { q.setSlot t (KVCachePool.releasedSlot (q.slots t)) with
    freeSlots := q.freeSlots ++ [t] } with hreleased
  have hexecutor : (left.discardTarget t epoch handle).executor = left.executor.setPool released := by
    unfold discardTarget
    simp only [hq, hrelease]
  have hdone : p.Beside released t :=
    (hbeside.trans helsewhere.beside).trans (KVCachePool.beside_release hrelease)
  have hfreeSlots : released.freeSlots = p.freeSlots := by
    rw [← hfree, ← helsewhere.freeSlots]
  have hgiven : (released.slots t).isFree = true := by
    rw [hreleased]
    show (Function.update q.slots t _ t).isFree = true
    rw [Function.update_self]
    rfl
  have hrows : ∀ inA j i, j ≠ t → (left.discardTarget t epoch handle).executor.read (.row inA j i)
      = eng.executor.read (.row inA j i) := by
    intro inA j i hj
    rw [hexecutor]
    refine (h.executor.rows inA j i hj).trans ?_
    rw [hstarted]
    rfl
  have hkept : Kept eng (left.discardTarget t epoch handle) := by
    refine ⟨?_, ?_, ?_, (fun hnone => by rw [hp] at hnone; cases hnone), fun p' hp' => ?_⟩
    · exact h.segments.trans hsegments
    · exact h.segBySlot.trans htable
    · have hreturned := h.handles
      show (match handle with
        | none => left.handles
        | some handle => (HandleStore.release left.handles handle).toOption.getD left.handles) = []
      rw [← hs.handles, ← hhandles]
      cases handle with
      | none => exact hreturned
      | some handle =>
          have hreturned' : HandleStore.release left.handles handle = .ok started.handles := hreturned
          simp only [hreturned']
          rfl
    · rw [hp] at hp'
      cases hp'
      refine ⟨released, by rw [hexecutor]; rfl, hfreeSlots, fun k => ?_, fun k hk => ?_⟩
      · by_cases hkt : k = t
        · rw [hkt, hgiven, hspare]
        · rw [hdone.slots k hkt]
      · refine sameSlot_of_beside _ _ hdone hrows ?_
        rintro rfl
        rw [hspare] at hk
        cases hk
  refine ⟨hkept, hs.of_kept hkept fun q' hq' => ?_⟩
  rw [hexecutor] at hq'
  cases hq'
  exact (hs.pool p hp).of_beside hdone hfreeSlots hspare hgiven

/-- The decode state of a slot after another one has been given back. -/
theorem decodeState_release {e : Executor κ ξ} {source : Nat} {epoch : Option Int} (hne : t ≠ source)
    (h : q.release source epoch = .ok r) :
    (e.setPool r).decodeState r t = e.decodeState q t := by
  obtain ⟨-, -, ⟨-, rfl⟩ | ⟨-, rfl⟩⟩ := KVCachePool.release_ok h
  · rfl
  · have hslot : (q.setSlot source (KVCachePool.releasedSlot (q.slots source))).slots t = q.slots t :=
      KVCachePool.setSlot_of_ne q _ hne
    unfold Executor.decodeState Executor.talkerHistory Executor.c2wHistory
    dsimp only
    rw [hslot]
    rfl

/-- What a transfer that has returned has done to the pool. -/
structure PoolMoved (e e' : Executor κ ξ) (p q : KVCachePool κ ξ) (source target : Nat) : Prop where
  sound : PoolSound q
  freed : (q.slots source).isFree = true
  taken : (q.slots target).isFree = false
  others : ∀ k, k ≠ source → k ≠ target → SameSlot e e' p q k
  state : e'.decodeState q target = e.decodeState p source

/-- The decode state of an allocated slot has its histories where they are in the source. -/
theorem exclusive_of_decodeState {e e' : Executor κ ξ} {source : Nat}
    (hx : Exclusive p (p.slots source)) (hpool : q.talkerPool.isSome = p.talkerPool.isSome)
    (h : e'.decodeState q t = e.decodeState p source) : Exclusive q (q.slots t) := by
  have htalker : (q.slots t).talkerKv = (p.slots source).talkerKv :=
    congrArg (fun state : SlotKVState κ ξ × Option (KV κ) × Option (KV κ) => state.1.talkerKv) h
  have hc2w : (q.slots t).c2wKv = (p.slots source).c2wKv :=
    congrArg (fun state : SlotKVState κ ξ × Option (KV κ) × Option (KV κ) => state.1.c2wKv) h
  have hpooled : (q.slots t).c2wPooled = (p.slots source).c2wPooled :=
    congrArg (fun state : SlotKVState κ ξ × Option (KV κ) × Option (KV κ) => state.1.c2wPooled) h
  exact ⟨fun hsome => htalker.trans (hx.1 (hpool ▸ hsome)),
    fun hsome => hc2w.trans (hx.2 (hpooled ▸ hsome))⟩

/-- A restore that returns, and the release of the source after it. -/
theorem poolMoved_of_restored {e restored : Executor κ ξ} {prepared pool released : KVCachePool κ ξ}
    {source : Nat} {bundle : Bundle κ ξ} {epoch now : Int} {expected : Option Int} (hs : PoolSound p)
    (howned : (p.slots source).isFree = false) (hspare : (p.slots t).isFree = true)
    (hbeside : p.Beside prepared t) (hownership : prepared.Ownership)
    (hready : Executor.Spare e (e.setPool prepared) p prepared t)
    (hcaptured : Executor.Captured e p source bundle)
    (hrestore : (e.setPool prepared).restoreSpeechStateBundle t bundle epoch now = (restored, .ok ()))
    (hpool : restored.kvPool = some pool) (hrelease : pool.release source expected = .ok released) :
    PoolMoved e (restored.setPool released) p released source t := by
  have hne : t ≠ source := by
    rintro rfl
    rw [hspare] at howned
    cases howned
  have hframe := Executor.elsewhere_restore (e := e.setPool prepared) (k := t) rfl bundle epoch now
  rw [hrestore] at hframe
  obtain ⟨pool', hpool', helsewhere⟩ := hframe.pool prepared rfl
  obtain ⟨pool'', hpool'', hstate⟩ := Executor.decodeState_restored hcaptured
    (hs.exclusive source howned) hready hrestore
  rw [hpool] at hpool' hpool''
  cases hpool'
  cases hpool''
  have hdone : p.Beside pool t := hbeside.trans helsewhere.beside
  have hback := KVCachePool.beside_release hrelease
  have hdecode : (restored.setPool released).decodeState released t = e.decodeState p source := by
    rw [decodeState_release hne hrelease, hstate]
  have hx : Exclusive pool (pool.slots t) :=
    exclusive_of_decodeState (hs.exclusive source howned) (isSome_of_beside hdone .talker) hstate
  have hpoolSound := hs.of_allocated hdone (helsewhere.ownership hownership) hx
  refine ⟨hpoolSound.release hrelease, freed_of_release hrelease, ?_, fun k hks hkt => ?_, hdecode⟩
  · rw [hback.slots t hne, helsewhere.isFree, hready.isFree]
  · have hsame := sameSlot_of_beside e restored hdone
      (fun inA j i hj => hframe.rows inA j i hj) hkt
    have hsame' := sameSlot_of_beside restored (restored.setPool released) hback
      (fun _ _ _ _ => rfl) hks
    exact ⟨hsame'.slot.trans hsame.slot, fun kind => (hsame'.rows kind).trans (hsame.rows kind),
      fun inA i => (hsame'.arenas inA i).trans (hsame.arenas inA i)⟩

/-- The engine loop with the segment on its new slot. -/
theorem moved_of_poolMoved {moved : EngineLoop κ ξ} {key : SegKey} {seg : Segment} {source : Nat}
    (hs : Sound eng) (hp : eng.executor.kvPool = some p) (hq : moved.executor.kvPool = some q)
    (hseg : eng.segments key = some seg) (hsource : seg.slot = some source)
    (hspare : (p.slots t).isFree = true) (hsegments : moved.segments = eng.segments)
    (htable : moved.segBySlot = eng.segBySlot) (hhandles : moved.handles = eng.handles)
    (h : PoolMoved eng.executor moved.executor p q source t) :
    Moved eng (moved.moveSegment key seg source t) key seg source t p q := by
  obtain ⟨-, p', hp', howned⟩ := hs.holds _ _ _ hseg hsource
  rw [hp] at hp'
  cases hp'
  have htable' : (moved.moveSegment key seg source t).segBySlot
      = Function.update (Function.update eng.segBySlot source none) t (some key) := by
    show Function.update (Function.update moved.segBySlot source none) t _ = _
    rw [htable]
  refine ⟨⟨hseg, hsource⟩, ⟨hp, hq⟩, ⟨howned, hspare⟩, ⟨h.freed, h.taken⟩, ?_, fun k => ?_, ?_,
    fun k hks hkt => ⟨?_, h.others k hks hkt⟩, hhandles.trans hs.handles, h.state⟩
  · show Function.update moved.segments _ _ = _
    rw [hsegments]
  · rw [htable']
    by_cases hkt : k = t
    · rw [hkt, Function.update_self]
      exact iff_of_true rfl rfl
    · rw [Function.update_of_ne hkt, iff_false_right hkt]
      by_cases hks : k = source
      · rw [hks, Function.update_self]
        exact fun h => by cases h
      · rw [Function.update_of_ne hks]
        intro hk
        obtain ⟨seg', hseg', hk'⟩ := hs.held k _ hk
        rw [hseg] at hseg'
        cases hseg'
        rw [hsource] at hk'
        cases hk'
        exact hks rfl
  · have hne : source ≠ t := by
      rintro rfl
      rw [hspare] at howned
      cases howned
    rw [htable', Function.update_of_ne hne, Function.update_self]
  · rw [htable', Function.update_of_ne hkt, Function.update_of_ne hks]

/-- What is moved is sound. -/
theorem Sound.of_moved {key : SegKey} {seg : Segment} {source : Nat} (hs : Sound eng)
    (h : Moved eng eng' key seg source t p q) (hq : PoolSound q) : Sound eng' := by
  obtain ⟨hseg, hsource⟩ := h.segment
  obtain ⟨hp, hq'⟩ := h.pools
  refine ⟨fun q' hq'' => ?_, fun key' seg' k hseg' hk => ?_, fun k key' hk => ?_, h.handles⟩
  · rw [hq'] at hq''
    cases hq''
    exact hq
  · rw [h.segments] at hseg'
    by_cases hkey : key' = key
    · rw [hkey, Function.update_self] at hseg'
      cases hseg'
      cases hk
      exact ⟨by rw [hkey]; exact (h.owns t).2 rfl, q, hq', h.after.2⟩
    · rw [Function.update_of_ne hkey] at hseg'
      obtain ⟨htable, p', hp', howned⟩ := hs.holds key' seg' k hseg' hk
      rw [hp] at hp'
      cases hp'
      have hkt : k ≠ t := by
        rintro rfl
        rw [h.before.2] at howned
        cases howned
      have hks : k ≠ source := by
        rintro rfl
        obtain ⟨htable', -⟩ := hs.holds key seg k hseg hsource
        rw [htable] at htable'
        cases htable'
        exact hkey rfl
      obtain ⟨hsame, hslot⟩ := h.others k hks hkt
      exact ⟨by rw [hsame, htable], q, hq', by rw [hslot.slot, howned]⟩
  · rw [h.segments]
    by_cases hkt : k = t
    · have hkey := (h.owns k).2 hkt
      rw [hk] at hkey
      cases hkey
      exact ⟨_, Function.update_self .., by rw [hkt]⟩
    · have hkey : key' ≠ key := by
        rintro rfl
        exact hkt ((h.owns k).1 hk)
      have hks : k ≠ source := by
        rintro rfl
        rw [h.cleared] at hk
        cases hk
      rw [Function.update_of_ne hkey]
      rw [(h.others k hks hkt).1] at hk
      exact hs.held k key' hk

/-- A migration keeps everything or moves the segment. -/
theorem migrate_cases (hs : Sound eng) (request : MigrationRequest) (env : MigrationEnv κ ξ) :
    Sound (eng.migrateSpeechState request env).1 ∧
      ((∃ error, (eng.migrateSpeechState request env).2 = .error error ∧
        Kept eng (eng.migrateSpeechState request env).1) ∨
      ((eng.migrateSpeechState request env).2 = .ok () ∧ ∃ seg source target p q,
        Moved eng (eng.migrateSpeechState request env).1 (request.sessionId, request.segmentIdx) seg
          source target p q)) := by
  unfold migrateSpeechState
  cases hchecks : eng.migrationSource request with
  | error error => exact ⟨hs, .inl ⟨error, rfl, .refl hs⟩⟩
  | ok found =>
      obtain ⟨seg, source, p⟩ := found
      obtain ⟨hseg, hsource, hp, howned, -⟩ := migrationSource_ok hchecks
      dsimp only
      cases hcapture : eng.captureSource request seg source env with
      | error error => exact ⟨hs, .inl ⟨error, rfl, .refl hs⟩⟩
      | ok bundle =>
          dsimp only
          cases hallocate : p.allocate ((p.slots source).sessionId.getD []) env.now with
          | none => exact ⟨hs, .inl ⟨_, rfl, .refl hs⟩⟩
          | some handed =>
              obtain ⟨target, allocated⟩ := handed
              dsimp only
              obtain ⟨hbeside, hspare, hfree, hownership, hready⟩ := prepared_spec eng
                (hs.pool p hp) hallocate
                { allocated.slots target with
                  segmentIdx := request.segmentIdx
                  retryIdx := seg.retryIdx } rfl rfl rfl rfl rfl rfl rfl
              split
              · rename_i left handle error htransfer
                obtain ⟨hinterrupted, -⟩ := transferState_cases rfl htransfer
                have hdiscarded : Kept eng (left.discardTarget target
                    (allocated.slots target).allocationEpoch handle) ∧ Sound (left.discardTarget target
                    (allocated.slots target).allocationEpoch handle) := by
                  refine discardTarget_kept hs hp ?_ ?_ ?_ ?_ hbeside hspare hfree hready.isFree ?_
                    (hinterrupted error rfl)
                  · rfl
                  · rfl
                  · rfl
                  · rfl
                  · rw [KVCachePool.setSlot_self]
                exact ⟨hdiscarded.2, .inl ⟨error, rfl, hdiscarded.1⟩⟩
              · rename_i moved handle htransfer
                obtain ⟨-, htransferred⟩ := transferState_cases rfl htransfer
                obtain ⟨hsegments, htable, hhandles, restored, pool, released, hrestore, hpool,
                  hrelease, hexecutor⟩ := htransferred rfl
                have hmovedPool := poolMoved_of_restored (hs.pool p hp) howned hspare hbeside
                  hownership hready (captureSource_ok hp hcapture) hrestore hpool hrelease
                rw [← hexecutor] at hmovedPool
                have hmoved := moved_of_poolMoved hs hp (by rw [hexecutor]; rfl) hseg hsource hspare
                  hsegments htable hhandles hmovedPool
                exact ⟨hs.of_moved hmoved hmovedPool.sound,
                  .inr ⟨rfl, seg, source, target, p, released, hmoved⟩⟩

/-- An admission puts the segment on a slot that was free. -/
theorem sound_admit (hs : Sound eng) (key : SegKey) (samplingIdentity : Option Text) (now : Int) :
    Sound (eng.admitSegment key samplingIdentity now) := by
  unfold admitSegment
  split
  · rename_i seg p hseg hp
    split
    · rename_i k allocated hslot hallocate
      obtain ⟨hbeside, hspare, -, hownership, hready⟩ := prepared_spec eng (hs.pool p hp)
        hallocate
        { allocated.slots k with
          segmentIdx := key.2
          samplingIdentity := samplingIdentity
          retryIdx := seg.retryIdx } rfl rfl rfl rfl rfl rfl rfl
      refine ⟨fun q hq => ?_, fun key' seg' j hseg' hj => ?_, fun j key' hj => ?_, hs.handles⟩
      · cases hq
        exact (hs.pool p hp).of_allocated hbeside hownership
          ⟨fun _ => hready.talkerKv, fun _ => hready.c2wKv⟩
      · by_cases hkey : key' = key
        · dsimp only at hseg'
          rw [hkey, Function.update_self] at hseg'
          cases hseg'
          cases hj
          exact ⟨by rw [hkey]; exact Function.update_self .., _, rfl, hready.isFree⟩
        · dsimp only at hseg'
          rw [Function.update_of_ne hkey] at hseg'
          obtain ⟨htable, p', hp', howned⟩ := hs.holds key' seg' j hseg' hj
          rw [hp] at hp'
          cases hp'
          have hjk : j ≠ k := by
            rintro rfl
            rw [hspare] at howned
            cases howned
          exact ⟨(Function.update_of_ne hjk _ _).trans htable, _, rfl, by rw [hbeside.slots j hjk, howned]⟩
      · by_cases hjk : j = k
        · dsimp only at hj
          rw [hjk, Function.update_self] at hj
          cases hj
          exact ⟨_, Function.update_self .., by rw [hjk]⟩
        · dsimp only at hj
          rw [Function.update_of_ne hjk] at hj
          obtain ⟨seg', hseg', hj'⟩ := hs.held j key' hj
          have hkey : key' ≠ key := by
            rintro rfl
            rw [hseg] at hseg'
            cases hseg'
            rw [hslot] at hj'
            cases hj'
          exact ⟨seg', (Function.update_of_ne hkey _ _).trans hseg', hj'⟩
    · exact hs
  · exact hs

/-- A decode step writes the slot of its segment. -/
theorem sound_decode (hs : Sound eng) (key : SegKey) (left : Partial κ ξ) :
    Sound (eng.decode key left) := by
  unfold decode
  split
  · rename_i k _ _ _ p hseg hp
    split
    · rename_i hx
      have helsewhere := Executor.elsewhere_apply left hp (k := k)
      obtain ⟨q, hq, hpq⟩ := helsewhere.pool p hp
      have hqx : q = left.applyPool p k := by
        have hself : (left.apply eng.executor k).kvPool = some (left.applyPool p k) := by
          show eng.executor.kvPool.map _ = _
          rw [hp, Option.map_some]
        rw [hq] at hself
        exact Option.some.inj hself
      have hslot : Exclusive q (q.slots k) := by
        rw [hqx, Partial.applyPool, KVCachePool.setSlot_self, ← Partial.applyPool, ← hqx]
        exact exclusive_of_beside hx hpq.beside
      refine ⟨fun q' hq' => ?_, fun key' seg' j hseg' hj => ?_, hs.held, hs.handles⟩
      · rw [show (left.apply eng.executor k).kvPool = some q from hq] at hq'
        cases hq'
        exact (hs.pool p hp).of_allocated hpq.beside (hpq.ownership (hs.pool p hp).ownership) hslot
      · obtain ⟨htable, p', hp', howned⟩ := hs.holds key' seg' j hseg' hj
        rw [hp] at hp'
        cases hp'
        refine ⟨htable, q, hq, ?_⟩
        by_cases hjk : j = k
        · rw [hjk, hpq.isFree, ← hjk, howned]
        · rw [hpq.slots j hjk, howned]
    · exact hs
  · exact hs

/-- A release takes the segment off its slot. -/
theorem sound_releaseSegmentSlot (hs : Sound eng) (key : SegKey) :
    Sound (eng.releaseSegmentSlot key) := by
  unfold releaseSegmentSlot
  split
  · rename_i seg p hseg hp
    split
    · exact hs
    · rename_i k hk
      split
      · exact hs
      · rename_i q hrelease
        obtain ⟨htable, -⟩ := hs.holds key seg k hseg hk
        have hback := KVCachePool.beside_release hrelease
        refine ⟨fun q' hq' => ?_, fun key' seg' j hseg' hj => ?_, fun j key' hj => ?_, hs.handles⟩
        · cases hq'
          exact (hs.pool p hp).release hrelease
        · by_cases hkey : key' = key
          · dsimp only at hseg'
            rw [hkey, Function.update_self] at hseg'
            cases hseg'
            cases hj
          · dsimp only at hseg'
            rw [Function.update_of_ne hkey] at hseg'
            obtain ⟨htable', p', hp', howned⟩ := hs.holds key' seg' j hseg' hj
            rw [hp] at hp'
            cases hp'
            have hjk : j ≠ k := by
              rintro rfl
              rw [htable] at htable'
              cases htable'
              exact hkey rfl
            exact ⟨(Function.update_of_ne hjk _ _).trans htable', q, rfl,
              by rw [hback.slots j hjk, howned]⟩
        · have hjk : j ≠ k := by
            rintro rfl
            dsimp only at hj
            rw [Function.update_self] at hj
            cases hj
          dsimp only at hj
          rw [Function.update_of_ne hjk] at hj
          obtain ⟨seg', hseg', hj'⟩ := hs.held j key' hj
          have hkey : key' ≠ key := by
            rintro rfl
            rw [hseg] at hseg'
            cases hseg'
            rw [hk] at hj'
            cases hj'
            exact hjk rfl
          exact ⟨seg', (Function.update_of_ne hkey _ _).trans hseg', hj'⟩
  · exact hs

/-- Changes of a segment that leave its slot. -/
theorem sound_segments (hs : Sound eng) {segments : SegKey → Option Segment}
    (h : ∀ key k, (∃ seg, segments key = some seg ∧ seg.slot = some k) ↔
      ∃ seg, eng.segments key = some seg ∧ seg.slot = some k) :
    Sound { eng with segments := segments } := by
  refine ⟨hs.pool, fun key seg k hseg hk => ?_, fun k key hk => ?_, hs.handles⟩
  · obtain ⟨seg', hseg', hk'⟩ := (h key k).1 ⟨seg, hseg, hk⟩
    exact hs.holds key seg' k hseg' hk'
  · exact (h key k).2 (hs.held k key hk)

/-- The steps of the engine loop keep what holds of it. -/
theorem sound_step (hs : Sound eng) (event : Event κ ξ) : Sound (eng.step event) := by
  cases event with
  | opens key =>
      unfold step
      dsimp only
      split
      · exact hs
      · rename_i hnew
        refine sound_segments hs fun key' k => ?_
        by_cases hkey : key' = key
        · rw [hkey, Function.update_self]
          refine iff_of_false ?_ ?_
          · rintro ⟨seg, hseg, hk⟩
            cases hseg
            cases hk
          · rintro ⟨seg, hseg, -⟩
            rw [hseg] at hnew
            exact hnew rfl
        · rw [Function.update_of_ne hkey]
  | updates key active countersValid retryIdx =>
      refine sound_segments hs fun key' k => ?_
      by_cases hkey : key' = key
      · rw [hkey, Function.update_self]
        cases eng.segments key with
        | none => exact iff_of_false (fun ⟨_, h, _⟩ => by cases h) fun ⟨_, h, _⟩ => by cases h
        | some seg =>
            refine ⟨?_, ?_⟩
            · rintro ⟨seg', hseg', hk⟩
              cases hseg'
              exact ⟨seg, rfl, hk⟩
            · rintro ⟨seg', hseg', hk⟩
              cases hseg'
              exact ⟨_, rfl, hk⟩
      · rw [Function.update_of_ne hkey]
  | admits key samplingIdentity now => exact sound_admit hs key samplingIdentity now
  | decodes key left => exact sound_decode hs key left
  | releases key => exact sound_releaseSegmentSlot hs key
  | drops key =>
      unfold step
      dsimp only
      split
      · rename_i _ _ _ hseg
        refine sound_segments hs fun key' k => ?_
        by_cases hkey : key' = key
        · rw [hkey, Function.update_self, hseg]
          refine iff_of_false (fun ⟨_, h, _⟩ => by cases h) ?_
          rintro ⟨seg, hseg', hk⟩
          cases hseg'
          cases hk
        · rw [Function.update_of_ne hkey]
      · exact hs
  | migrates request env => exact (migrate_cases hs request env).1

/-- The engine loop as it starts, with a pool or without. -/
def start (e : Executor κ ξ) (pool : Option (Nat × ModelConfig κ × Bool)) (supportsPauseResume : Bool)
    (transfer : SpeechStateTransfer) (modelFingerprint runtimeFingerprint : Text) :
    EngineLoop κ ξ where
  executor := { e with kvPool := pool.map fun c => KVCachePool.new c.1 c.2.1 c.2.2 }
  supportsPauseResume := supportsPauseResume
  transfer := transfer
  modelFingerprint := modelFingerprint
  runtimeFingerprint := runtimeFingerprint

theorem sound_start (e : Executor κ ξ) (pool : Option (Nat × ModelConfig κ × Bool))
    (supportsPauseResume : Bool) (transfer : SpeechStateTransfer) (modelFingerprint
    runtimeFingerprint : Text) :
    Sound (start e pool supportsPauseResume transfer modelFingerprint runtimeFingerprint) := by
  refine ⟨fun p hp => ?_, fun _ _ _ h => (by cases h), fun _ _ h => (by cases h), rfl⟩
  cases pool with
  | none => cases hp
  | some pool =>
      cases hp
      exact ⟨KVCachePool.ownership_new .., fun _ => rfl, fun _ h => (by cases h)⟩

/-- **A migration is atomic and keeps the decode state.** In every run of the engine loop, a migration
that raises leaves the segments, the slot table and every allocated slot as they were, and no handle; one
that returns has moved the segment to exactly one other slot with the decode state of the source. -/
theorem migration_atomic (e : Executor κ ξ) (pool : Option (Nat × ModelConfig κ × Bool))
    (supportsPauseResume : Bool) (transfer : SpeechStateTransfer)
    (modelFingerprint runtimeFingerprint : Text) (events : List (Event κ ξ))
    (request : MigrationRequest) (env : MigrationEnv κ ξ) :
    let eng := run step (start e pool supportsPauseResume transfer modelFingerprint
      runtimeFingerprint) events
    let migrated := eng.migrateSpeechState request env
    (∃ error, migrated.2 = .error error ∧ Kept eng migrated.1) ∨
      (migrated.2 = .ok () ∧ ∃ seg source target p q,
        Moved eng migrated.1 (request.sessionId, request.segmentIdx) seg source target p q) :=
  (migrate_cases (run_invariant (sound_start e pool supportsPauseResume transfer modelFingerprint
    runtimeFingerprint) (fun _ event hs => sound_step hs event) events) request env).2

end

end EngineLoop

end StreamingTts.Engine.Pooled
