import StreamingTts.Engine.Decode

/-!
# Evictions, timeouts, migrations, and the loop as a transition system

The remaining handlers of `engine/backend/engine_loop.py`, and `Event`: one call of a handler, with
what the clock, the executor and the builder do during it. A drain of the inbox is a begin, some
requests and an end, so that the states between two requests are states of a run too.
-/

namespace StreamingTts.Engine

open Frontend (Text UnicodeData)

/-- `MigrationRequest`. -/
structure MigrationRequest where
  sessionId : Text
  segmentIdx : Int
  expectedAttemptId : Nat
  expectedAllocationEpoch : Nat

/-- What the executor does during a migration. -/
structure MigrationEnv where
  now : Time
  /-- the fingerprints are missing, or `capture_speech_state_bundle` raises -/
  captureFault : Bool := false
  /-- the handle, or `restore_speech_state_bundle`, raises -/
  restoreFault : Bool := false

/-- One call of a handler. -/
inductive Event
  | drainBegin
  | request (request : EngineRequest) (now : Time)
  | drainEnd
  | stepOutput (rows : List StepRow) (now : Time)
  | migrate (request : MigrationRequest) (env : MigrationEnv)
  | prefill (env : AdmissionEnv)
  | launch
  /-- the readings of the clock: the rate limit's, and one for each search -/
  | evict (now : Time) (readings : List Time)
  | timeout (now : Time)
  | tick

namespace EngineLoop

variable {u : UnicodeData} (cfg : EngineConfig u) (s : EngineLoop)

/-! ## Idle slots -/

/-- `_is_waiting_for_text`. -/
def isWaitingForText (seg : Option Nat) : Bool :=
  match seg with
  | none => false
  | some r =>
      match (s.segAt r).state, (s.segAt r).inputComplete, (s.segAt r).slot with
      | .active, false, some k =>
          (s.slotAt k).lastCodecSum.isSome && (s.slotAt k).nextEmbed.isNone
            && (s.slotAt k).trailing.length ≤ (s.slotAt k).textIdx
      | _, _, _ => false

/-- The message of an eviction. -/
def evictionMessage : Text := "Slot evicted: idle > ".toList ++ cfg.maxIdleText ++ "s".toList

/-- The removal of the session whose slot was evicted. -/
def evictSegment (k : Nat) : EngineLoop :=
  match s.segBySlot k with
  | none => s
  | some r =>
      let s := { s with segBySlot := Function.update s.segBySlot k none }
      match s.groups.get? (s.segAt r).sessionId with
      | none => s
      | some g =>
          let s := s.modifySeg r fun seg => { seg with state := .evicted, slot := none }
          (s.sendSegment g r (.error (evictionMessage cfg))).removeSession
            (s.segAt r).sessionId

/-- The loop of `_try_evict_idle_slots`, one search for each reading of the clock. -/
def evictLoop : List Time → EngineLoop → EngineLoop
  | [], s => s
  | now :: rest, s =>
      match s.pool.findEvictionCandidate cfg.maxIdle now with
      | none => s
      | some k =>
          if s.isWaitingForText (s.segBySlot k) then
            evictLoop rest (s.modifySlot k fun slot => { slot with lastActiveTime := now })
          else
            match s.pool.forceEvict k with
            | (none, pool) => { s with pool := pool }
            | (some _, pool) => evictLoop rest ({ s with pool := pool }.evictSegment cfg k)

/-- `_try_evict_idle_slots`. -/
def tryEvictIdleSlots (now : Time) (readings : List Time) : EngineLoop :=
  if now - s.lastEvictionCheck < 1000000 then s
  else evictLoop cfg readings { s with lastEvictionCheck := now }

/-! ## Timeouts -/

/-- The message of a timeout. -/
def timeoutMessage : Text := "Session timeout (".toList ++ cfg.sessionTimeoutText ++ "s exceeded)".toList

/-- The end of a session that takes too long. -/
def timeoutSession (sid : Text) : EngineLoop :=
  match s.groups.get? sid with
  | none => s
  | some g => (s.sendResult g ⟨sid, 0, .error (timeoutMessage cfg)⟩).removeSession sid

/-- `_try_timeout_sessions`. -/
def tryTimeoutSessions (now : Time) : EngineLoop :=
  if cfg.sessionTimeout ≤ 0 then s
  else
    ((s.groups.entries.filter fun entry =>
      cfg.sessionTimeout < now - (s.groupAt entry.2).createdAt).map Prod.fst).foldl
        (timeoutSession cfg) s

/-! ## Migration -/

/-- The checks of `_migrate_speech_state`: the segment and its slot, if they pass. -/
def migrationSource (request : MigrationRequest) : Option (Nat × Nat) := do
  guard cfg.supportsPauseResume
  let g ← s.groups.get? request.sessionId
  let r ← (s.groupAt g).segments.get? request.segmentIdx
  let k ← (s.segAt r).slot
  guard ((s.segAt r).state = .active)
  guard ((s.slotAt k).isFree = false ∧ s.segBySlot k = some r
    ∧ (s.slotAt k).sessionId = some (segKey (s.segAt r).sessionId (s.segAt r).segmentIdx)
    ∧ (s.slotAt k).allocationEpoch = request.expectedAllocationEpoch
    ∧ (s.segAt r).retryIdx = request.expectedAttemptId
    ∧ (s.slotAt k).retryIdx = request.expectedAttemptId)
  guard (s.pool.freeCount ≠ 0)
  pure (r, k)

/-- The slot that a bundle was restored into. -/
def restoredSlot (source target : SlotKVState) (now : Time) : SlotKVState :=
  { source with
    sessionId := target.sessionId
    allocationEpoch := target.allocationEpoch
    isFree := false
    lastActiveTime := now }

/-- The move of a segment from slot `k` to slot `k'` of the given pool. -/
def moveSegment (r k k' : Nat) (pool : KVCachePool) : EngineLoop :=
  { s with
    pool := pool
    segBySlot := Function.update (Function.update s.segBySlot k none) k' (some r)
    segAt := Function.update s.segAt r { s.segAt r with slot := some k' } }

/-- `_migrate_speech_state`. An error leaves the source in place and gives the target back. -/
def migrateSpeechState (request : MigrationRequest) (env : MigrationEnv) : EngineLoop :=
  match s.migrationSource cfg request with
  | none => s
  | some (r, k) =>
      if env.captureFault then s
      else match s.pool.allocate ((s.slotAt k).sessionId.getD []) env.now with
        | none => s
        | some (k', pool) =>
            let restored := pool.modify k' fun target => restoredSlot (s.slotAt k) target env.now
            if env.restoreFault then { s with pool := pool.releaseOwn k' }
            else match restored.release k (some request.expectedAllocationEpoch) with
              | none => { s with pool := restored.releaseOwn k' }
              | some pool => s.moveSegment r k k' pool

/-! ## The transition system -/

/-- One handler call. -/
def step : EngineLoop → Event → EngineLoop
  | s, .drainBegin => { s with deferActiveAppends := true }
  | s, .request request now => s.handleRequest cfg request now
  | s, .drainEnd => { s with deferActiveAppends := false }.flushDeferredAppends
  | s, .stepOutput rows now => s.processStepOutput cfg rows now
  | s, .migrate request env => s.migrateSpeechState cfg request env
  | s, .prefill env => s.prefillPhase cfg env
  | s, .launch => s.launchStep cfg
  | s, .evict now readings => s.tryEvictIdleSlots cfg now readings
  | s, .timeout now => s.tryTimeoutSessions cfg now
  | s, .tick => s.tick cfg

end EngineLoop

end StreamingTts.Engine
