import StreamingTts.Client.Pool
import StreamingTts.Lib.Tally
import StreamingTts.Lib.Transition

/-!
# The connection pool of the Realtime adapter

`OpenAIRealtimeAdapter` of `client/src/qwen3tts/_adapters/openai_realtime.py`, as far as its pool goes:
`prewarm`, `_open_session`, `_checkout_connection`, `_release_connection`, `_discard_connection`,
`_retire`, `_acquire_slot`, `close`, and `_finish_transport` of a session. Every event is a section of
one thread under one lock, or the outcome of a connect or of a handshake.

With `max_idle_connections > 0` the adapter counts its sockets in `_physical_connections`; without
idle connections it takes a slot of `_slot_semaphore` for each open. `_open_session` reserves once and
gives back once for every failed attempt, so a retry dials a socket that nobody counts. The accounts
are right in every run that retries no failed attempt. The slots are right in every run in which the
adapter is not closed on an open that is about to be registered or has not handed its slot over yet.
-/

namespace StreamingTts.Client

open Lib

namespace Realtime

/-- The settings of the adapter that its pool reads, as its constructor has checked them. -/
structure PoolConfig where
  maxConnections : Nat
  maxIdleConnections : Nat
  maxPendingAcquires : Nat
  reconnectAttempts : Nat
  maxConnections_pos : 0 < maxConnections
  maxIdleConnections_le : maxIdleConnections ≤ maxConnections

/-- `max_idle_connections > 0`: sockets are pooled. -/
def PoolConfig.pooled (cfg : PoolConfig) : Bool := 0 < cfg.maxIdleConnections

/-- Where `_finish_transport` of a session is. -/
inductive Transport
  | live
  /-- `_transport_closed` is set; `reusable` is `reusable_terminal` -/
  | closing (reusable : Bool)
  /-- the connection was released or discarded, `_retire` is to come -/
  | givenBack
  | retired
  deriving DecidableEq, Repr

/-- A call of `_open_session` with the session it makes, or a call of `prewarm`. -/
inductive Task
  /-- `_open_session` is about to look into the pool -/
  | checkout
  /-- it is counted in `_pending_acquires` and waits -/
  | parked
  /-- in attempt `n`: `conn` is a connection to shake hands on, or is still to be dialled -/
  | attempt (n : Nat) (conn : Option Conn)
  /-- the session object is made and is to be registered -/
  | opened (conn : Conn)
  /-- the session is in `_sessions`; `slotHeld` is its `_slot_held`, and `returned` says whether
  `_open_session` has handed the slot over and started the reader -/
  | session (conn : Conn) (transport : Transport) (slotHeld : Bool) (returned : Bool)
  /-- `_open_session` or `prewarm` raised -/
  | raised
  /-- the thread waits for `_sessions_lock`, which it holds itself -/
  | stuck
  /-- `prewarm` is about to look into the pool -/
  | prewarming (target : Nat)
  /-- `prewarm` has reserved and dials -/
  | dialling (target : Nat)
  /-- `prewarm` returned -/
  | warmed
  deriving DecidableEq, Repr

/-- The thread that runs `close` of the adapter. -/
inductive Closer
  | idle
  /-- it still has to close these sessions -/
  | closing (sessions : List Nat)
  /-- it is in `close` of session `i` -/
  | within (i : Nat) (sessions : List Nat)
  | done
  deriving DecidableEq, Repr

/-- The adapter and the threads that use it. `acquires` and `releases` are histories that no operation
reads: for each `acquire` and each `release` of the semaphore, the open it was for. -/
structure Adapter where
  physicalConnections : Int
  idleConnections : List Conn
  pendingAcquires : Nat
  /-- the value of `_slot_semaphore` -/
  slots : Nat
  sessions : List Nat
  closed : Bool
  /-- a thread holds `_sessions_lock` and never gives it back -/
  sessionsLocked : Bool
  closer : Closer
  tasks : List Task
  acquires : List Nat
  releases : List Nat
  deriving DecidableEq, Repr

/-- `OpenAIRealtimeAdapter.__init__`. -/
def Adapter.init (cfg : PoolConfig) : Adapter where
  physicalConnections := 0
  idleConnections := []
  pendingAcquires := 0
  slots := cfg.maxConnections
  sessions := []
  closed := false
  sessionsLocked := false
  closer := .idle
  tasks := []
  acquires := []
  releases := []

/-- What happens next. -/
inductive PoolEvent
  /-- a caller enters `_open_session` -/
  | openSession
  /-- a caller enters `prewarm` -/
  | prewarm (connections : Nat)
  /-- open `i` looks into the pool; `expired` says that its deadline has passed -/
  | checkout (i : Nat) (expired : Bool)
  /-- open `i` wakes from its wait -/
  | wake (i : Nat) (expired : Bool)
  /-- `_connect_websocket` of open `i` ends; `retryable` is about the exception it raised -/
  | connect (i : Nat) (conn : Option Conn) (retryable : Bool)
  /-- the handshake of open `i` ends -/
  | handshake (i : Nat) (ok : Bool) (retryable : Bool)
  | register (i : Nat)
  /-- `session._slot_held = …; slot_held = False; session._start_reader()` -/
  | handOver (i : Nat)
  /-- the reader or the user of session `i` enters `_finish_transport` -/
  | finish (i : Nat) (reusable : Bool)
  /-- `_finish_transport` of session `i` releases or discards the connection -/
  | giveBack (i : Nat)
  | retire (i : Nat)
  /-- `prewarm` `i` looks into the pool -/
  | reserve (i : Nat)
  /-- `prewarm` `i` has dialled; `expired` says that its deadline has passed -/
  | dialled (i : Nat) (conn : Option Conn) (expired : Bool)
  | close
  /-- `close` of the adapter comes to its next session -/
  | closeNext (reusable : Bool)
  | clearIdle
  deriving DecidableEq, Repr

/-! ## What the accounts read of a task -/

/-- The sockets a task has: the one it dials or shakes hands on, or the one its session leases. -/
def Task.sockets : Task → Nat
  | .attempt _ _ | .opened _ | .dialling _ => 1
  | .session _ .live _ _ | .session _ (.closing _) _ _ => 1
  | _ => 0

/-- The open has ended for good, and its session, if it has one. -/
def Task.over : Task → Bool
  | .raised | .stuck | .warmed | .session _ .retired _ true => true
  | _ => false

/-- The task is in an attempt that is not its last one, with a connection to shake hands on or with one
still to be dialled. -/
def Task.hasRetry (cfg : PoolConfig) (dialled : Bool) : Task → Bool
  | .attempt n conn => conn.isSome == dialled && n < cfg.reconnectAttempts
  | _ => false

/-- The task is about to register its session. -/
def Task.isOpened : Task → Bool
  | .opened _ => true
  | _ => false

/-- The session of the task is live and its slot was not handed over yet. -/
def Task.isUnreturned : Task → Bool
  | .session _ .live _ false => true
  | _ => false

/-- The next session that `close` of the adapter comes to. -/
def Closer.next : Closer → Option Nat
  | .closing (i :: _) => some i
  | _ => none

/-! ## The operations of the adapter -/

namespace Adapter

variable (cfg : PoolConfig) (s : Adapter)

/-- The next state of task `i`. -/
def setTask (i : Nat) (t : Task) : Adapter := { s with tasks := s.tasks.set i t }

/-- `_discard_physical_slot`. -/
def discardPhysicalSlot : Adapter :=
  { s with physicalConnections := max 0 (s.physicalConnections - 1) }

/-- `_discard_connection`. -/
def discardConnection : Adapter :=
  if cfg.maxIdleConnections = 0 then s else s.discardPhysicalSlot

/-- `_release_connection` of a pooled connection. -/
def releaseConnection (conn : Conn) : Adapter :=
  if s.closed ∨ s.idleConnections.length ≥ cfg.maxIdleConnections then
    { s with physicalConnections := s.physicalConnections - 1 }
  else { s with idleConnections := s.idleConnections ++ [conn] }

/-- `_release_slot`, for open `i`; a `BoundedSemaphore` that is full raises instead. -/
def releaseSlot (i : Nat) : Adapter :=
  if s.slots < cfg.maxConnections then
    { s with slots := s.slots + 1, releases := s.releases ++ [i] }
  else s

/-- One turn of the loop in `_checkout_connection`. -/
def checkoutTurn (i : Nat) (expired : Bool) : Adapter :=
  match s.idleConnections.getLast? with
  | some conn =>
      { s with idleConnections := s.idleConnections.dropLast }.setTask i (.attempt 0 (some conn))
  | none =>
      if s.physicalConnections < cfg.maxConnections then
        { s with physicalConnections := s.physicalConnections + 1 }.setTask i (.attempt 0 none)
      else if s.pendingAcquires ≥ cfg.maxPendingAcquires then s.setTask i .raised
      else if expired then s.setTask i .raised
      else { s with pendingAcquires := s.pendingAcquires + 1 }.setTask i .parked

/-- `_checkout_connection` from its start; without pooling it is the first half of `_acquire_slot`. -/
def checkoutConnection (i : Nat) (expired : Bool) : Adapter :=
  if cfg.pooled then s.checkoutTurn cfg i expired
  else if s.pendingAcquires ≥ cfg.maxPendingAcquires then s.setTask i .raised
  else { s with pendingAcquires := s.pendingAcquires + 1 }.setTask i .parked

/-- A waiting open wakes: the next turn of the loop, or the second half of `_acquire_slot`. -/
def wake (i : Nat) (expired : Bool) : Adapter :=
  if cfg.pooled then
    { s with pendingAcquires := s.pendingAcquires - 1 }.checkoutTurn cfg i expired
  else if 0 < s.slots then
    { s with
      slots := s.slots - 1
      pendingAcquires := s.pendingAcquires - 1
      acquires := s.acquires ++ [i] }.setTask i (.attempt 0 none)
  else if expired then
    { s with pendingAcquires := s.pendingAcquires - 1 }.setTask i .raised
  else s

/-- `_open_session` raises: its `finally` gives back the slot that it still holds. -/
def raiseOpen (i : Nat) : Adapter :=
  if cfg.pooled then s.setTask i .raised else (s.releaseSlot cfg i).setTask i .raised

/-- The handler of `_open_session` discards the connection, or the place in the pool if there is no
connection yet. -/
def discardAttempt (conn : Option Conn) : Adapter :=
  match conn with
  | some _ => s.discardConnection cfg
  | none => if cfg.pooled then s.discardPhysicalSlot else s

/-- The handler of `_open_session` in attempt `n`. -/
def failAttempt (i n : Nat) (conn : Option Conn) (retryable : Bool) : Adapter :=
  let s := s.discardAttempt cfg conn
  if !retryable ∨ n ≥ cfg.reconnectAttempts then s.raiseOpen cfg i
  else s.setTask i (.attempt (n + 1) none)

/-- A made session is registered. On a closed adapter the thread closes the session while it holds
`_sessions_lock`, and `_retire` waits for that lock. -/
def registerSession (i : Nat) (conn : Conn) : Adapter :=
  if s.closed then { s.discardConnection cfg with sessionsLocked := true }.setTask i .stuck
  else { s with sessions := s.sessions ++ [i] }.setTask i (.session conn .live false false)

/-- `_finish_transport` between its two locks. -/
def giveBackConnection (i : Nat) (conn : Conn) (reusable slotHeld returned : Bool) : Adapter :=
  let s := if reusable && cfg.pooled then s.releaseConnection cfg conn else s.discardConnection cfg
  s.setTask i (.session conn .givenBack slotHeld returned)

/-- `_retire`. -/
def retireSession (i : Nat) (conn : Conn) (slotHeld returned : Bool) : Adapter :=
  let s := { s with sessions := s.sessions.erase i }
  if slotHeld then (s.releaseSlot cfg i).setTask i (.session conn .retired false returned)
  else s.setTask i (.session conn .retired false returned)

/-- `prewarm` under the pool lock. -/
def reserveTurn (i target : Nat) : Adapter :=
  if s.idleConnections.length ≥ target then s.setTask i .warmed
  else if s.physicalConnections ≥ cfg.maxConnections then s.setTask i .warmed
  else { s with physicalConnections := s.physicalConnections + 1 }.setTask i (.dialling target)

/-- `prewarm` has dialled. -/
def dialledTurn (i target : Nat) (conn : Option Conn) (expired : Bool) : Adapter :=
  match conn with
  | some conn =>
      { s with idleConnections := s.idleConnections ++ [conn] }.setTask i
        (if expired then .warmed else .prewarming target)
  | none => s.discardPhysicalSlot.setTask i .raised

/-- `close` of the adapter enters `close` of its next session. -/
def closeSession (i : Nat) (rest : List Nat) (reusable : Bool) : Adapter :=
  match s.tasks[i]? with
  | some (.session conn .live slotHeld returned) =>
      { s with closer := .within i rest }.setTask i
        (.session conn (.closing reusable) slotHeld returned)
  | _ => { s with closer := .closing rest }

/-- One event. An event whose thread is not there does nothing. -/
def step (s : Adapter) : PoolEvent → Adapter
  | .openSession =>
      if s.sessionsLocked then s
      else { s with tasks := s.tasks ++ [if s.closed then .raised else .checkout] }
  | .prewarm connections =>
      if cfg.pooled then
        { s with tasks := s.tasks ++ [.prewarming (min connections cfg.maxIdleConnections)] }
      else s
  | .checkout i expired =>
      match s.tasks[i]? with
      | some .checkout => s.checkoutConnection cfg i expired
      | _ => s
  | .wake i expired =>
      match s.tasks[i]? with
      | some .parked => s.wake cfg i expired
      | _ => s
  | .connect i conn retryable =>
      match s.tasks[i]? with
      | some (.attempt n none) =>
          match conn with
          | some conn => s.setTask i (.attempt n (some conn))
          | none => s.failAttempt cfg i n none retryable
      | _ => s
  | .handshake i ok retryable =>
      match s.tasks[i]? with
      | some (.attempt n (some conn)) =>
          if ok then s.setTask i (.opened conn) else s.failAttempt cfg i n (some conn) retryable
      | _ => s
  | .register i =>
      match s.tasks[i]? with
      | some (.opened conn) => if s.sessionsLocked then s else s.registerSession cfg i conn
      | _ => s
  | .handOver i =>
      match s.tasks[i]? with
      | some (.session conn transport _ false) =>
          s.setTask i (.session conn transport (!cfg.pooled) true)
      | _ => s
  | .finish i reusable =>
      match s.tasks[i]? with
      | some (.session conn .live slotHeld true) =>
          s.setTask i (.session conn (.closing reusable) slotHeld true)
      | _ => s
  | .giveBack i =>
      match s.tasks[i]? with
      | some (.session conn (.closing reusable) slotHeld returned) =>
          s.giveBackConnection cfg i conn reusable slotHeld returned
      | _ => s
  | .retire i =>
      match s.tasks[i]? with
      | some (.session conn .givenBack slotHeld returned) =>
          if s.sessionsLocked then s else s.retireSession cfg i conn slotHeld returned
      | _ => s
  | .reserve i =>
      match s.tasks[i]? with
      | some (.prewarming target) => s.reserveTurn cfg i target
      | _ => s
  | .dialled i conn expired =>
      match s.tasks[i]? with
      | some (.dialling target) => s.dialledTurn i target conn expired
      | _ => s
  | .close =>
      if s.sessionsLocked ∨ s.closed then s
      else { s with closed := true, closer := .closing s.sessions }
  | .closeNext reusable =>
      match s.closer with
      | .closing (i :: rest) => s.closeSession i rest reusable
      | .within i rest =>
          match s.tasks[i]? with
          | some (.session _ .retired _ _) => { s with closer := .closing rest }
          | _ => s
      | _ => s
  | .clearIdle =>
      match s.closer with
      | .closing [] =>
          { s with
            idleConnections := []
            physicalConnections := s.physicalConnections - s.idleConnections.length
            closer := .done }
      | _ => s

/-! ## What the accounts say -/

/-- The sockets that are idle, leased or being opened. -/
def sockets : Nat := s.idleConnections.length + tally Task.sockets s.tasks

/-- `_physical_connections` counts the sockets and stays within its bound. -/
structure Accounted : Prop where
  counted : s.physicalConnections = s.sockets
  bounded : s.physicalConnections ≤ cfg.maxConnections

/-- The value of the semaphore is what was not acquired or was released; an open acquires at most
once and releases nothing else, and when it is over it has released what it acquired. -/
structure SlotsOnce : Prop where
  value : s.slots + s.acquires.length = cfg.maxConnections + s.releases.length
  once : ∀ i, s.acquires.count i ≤ 1 ∧ s.releases.count i ≤ s.acquires.count i
  settled : ∀ i t, s.tasks[i]? = some t → t.over → s.releases.count i = s.acquires.count i

/-- The event keeps the accounts. With pooling, it is not the failure of an attempt that another
attempt follows. Without pooling, it is not the registration of a session on a closed adapter, and
`close` of the adapter does not come to a session whose slot was not handed over yet. -/
def Clean (s : Adapter) : PoolEvent → Prop
  | .connect i none true => cfg.pooled → ¬ s.tasks[i]?.any (Task.hasRetry cfg false)
  | .handshake i false true => cfg.pooled → ¬ s.tasks[i]?.any (Task.hasRetry cfg true)
  | .register i => ¬ cfg.pooled → s.closed → ¬ s.tasks[i]?.any Task.isOpened
  | .closeNext _ =>
      ¬ cfg.pooled → ¬ s.closer.next.any fun i => s.tasks[i]?.any Task.isUnreturned
  | _ => True

instance (e : PoolEvent) : Decidable (s.Clean cfg e) := by
  unfold Clean
  split <;> infer_instance

/-! ## With pooling: the count of sockets -/

section
variable {cfg : PoolConfig} {s q : Adapter} {i : Nat} {t u : Task}

/-- A step that changes task `i` keeps the count if the counter moves as much as the sockets do. -/
theorem Accounted.move (h : s.Accounted cfg) (before after : Nat) (hu : s.tasks[i]? = some u)
    (hbefore : u.sockets = before) (hafter : t.sockets = after) (htasks : q.tasks = s.tasks.set i t)
    (hbalance : q.physicalConnections + s.idleConnections.length + before
      = s.physicalConnections + q.idleConnections.length + after)
    (hbound : q.physicalConnections ≤ cfg.maxConnections) : q.Accounted cfg := by
  have htally := tally_set Task.sockets t hu
  have hcounted := h.counted
  refine ⟨?_, hbound⟩
  simp only [sockets, htasks] at hcounted ⊢
  omega

/-- A task that has a socket is counted. -/
theorem Accounted.one_le (h : s.Accounted cfg) (hu : s.tasks[i]? = some u) (hone : u.sockets = 1) :
    1 ≤ s.physicalConnections := by
  have hle := le_tally Task.sockets hu
  have hcounted := h.counted
  unfold sockets at hcounted
  omega

/-- A task that goes on with as many sockets as before. -/
theorem Accounted.setTask (h : s.Accounted cfg) (hu : s.tasks[i]? = some u)
    (hsame : t.sockets = u.sockets) : (s.setTask i t).Accounted cfg :=
  h.move _ _ hu rfl hsame rfl rfl h.bounded

/-- A task that joins has no socket yet. -/
theorem Accounted.join (h : s.Accounted cfg) (hnone : t.sockets = 0) :
    ({ s with tasks := s.tasks ++ [t] } : Adapter).Accounted cfg := by
  have hcounted := h.counted
  refine ⟨?_, h.bounded⟩
  simp only [sockets, tally_concat] at hcounted ⊢
  omega

/-- A task that had a socket gives its place back. -/
theorem Accounted.discard (h : s.Accounted cfg) (hu : s.tasks[i]? = some u) (hone : u.sockets = 1)
    (hnone : t.sockets = 0) : (s.discardPhysicalSlot.setTask i t).Accounted cfg := by
  have hle := h.one_le hu hone
  have hbound := h.bounded
  refine h.move 1 0 hu hone hnone rfl ?_ ?_
  · simp only [Adapter.setTask, discardPhysicalSlot]
    omega
  · simp only [Adapter.setTask, discardPhysicalSlot]
    omega

/-- `_checkout_connection` takes an idle socket or reserves one more. -/
theorem Accounted.checkoutTurn {expired : Bool} (h : s.Accounted cfg) (hu : s.tasks[i]? = some u)
    (hnone : u.sockets = 0) : (s.checkoutTurn cfg i expired).Accounted cfg := by
  have hbound := h.bounded
  unfold Adapter.checkoutTurn
  split
  · next conn hlast =>
    have hpos : s.idleConnections ≠ [] := by
      intro hnil
      rw [hnil] at hlast
      cases hlast
    have hlen := List.length_pos_iff.2 hpos
    refine h.move 0 1 hu hnone (t := .attempt 0 (some conn)) rfl rfl ?_ hbound
    simp only [Adapter.setTask, List.length_dropLast]
    omega
  · split
    · next hroom =>
      refine h.move 0 1 hu hnone (t := .attempt 0 none) rfl rfl ?_ ?_
      · simp only [Adapter.setTask]
        omega
      · simp only [Adapter.setTask]
        omega
    · split
      · exact h.setTask hu hnone.symm
      · split
        · exact h.setTask hu hnone.symm
        · exact h.move 0 0 hu hnone (t := .parked) rfl rfl rfl hbound

/-- With pooling `_discard_connection` gives a place back. -/
theorem discardConnection_of_pooled (hpooled : cfg.pooled) :
    s.discardConnection cfg = s.discardPhysicalSlot := by
  have hidle : cfg.maxIdleConnections ≠ 0 := by
    simp only [PoolConfig.pooled, decide_eq_true_eq] at hpooled
    omega
  exact if_neg hidle

/-- A failed attempt gives its socket back; when no other attempt follows, nothing is left open. -/
theorem Accounted.failAttempt {n : Nat} {conn : Option Conn} {retryable : Bool}
    (hpooled : cfg.pooled) (h : s.Accounted cfg) (hu : s.tasks[i]? = some (.attempt n conn))
    (hlast : retryable → ¬ n < cfg.reconnectAttempts) :
    (s.failAttempt cfg i n conn retryable).Accounted cfg := by
  have hraise : !retryable ∨ n ≥ cfg.reconnectAttempts := by
    cases retryable with
    | false => exact .inl rfl
    | true => exact .inr (Nat.le_of_not_lt (hlast rfl))
  have hgive : s.discardAttempt cfg conn = s.discardPhysicalSlot := by
    cases conn with
    | none => exact if_pos hpooled
    | some _ => exact discardConnection_of_pooled hpooled
  simp only [Adapter.failAttempt, hgive, if_pos hraise, raiseOpen, if_pos hpooled]
  exact h.discard hu rfl rfl

/-- `_finish_transport` releases or discards the socket of its session. -/
theorem Accounted.giveBack {conn : Conn} {reusable slotHeld returned : Bool} (hpooled : cfg.pooled)
    (h : s.Accounted cfg) (hu : s.tasks[i]? = some (.session conn (.closing reusable) slotHeld returned)) :
    (s.giveBackConnection cfg i conn reusable slotHeld returned).Accounted cfg := by
  have hbound := h.bounded
  unfold giveBackConnection
  split
  · unfold releaseConnection
    split
    · refine h.move 1 0 hu rfl (t := .session conn .givenBack slotHeld returned) rfl rfl ?_ ?_
      · simp only [Adapter.setTask]
        omega
      · simp only [Adapter.setTask]
        omega
    · refine h.move 1 0 hu rfl (t := .session conn .givenBack slotHeld returned) rfl rfl ?_ hbound
      simp only [Adapter.setTask, List.length_append, List.length_singleton]
      omega
  · simp only [discardConnection_of_pooled hpooled]
    exact h.discard hu rfl rfl

/-- `_retire` touches no socket. -/
theorem Accounted.retire {conn : Conn} {slotHeld returned : Bool} (h : s.Accounted cfg)
    (hu : s.tasks[i]? = some (.session conn .givenBack slotHeld returned)) :
    (s.retireSession cfg i conn slotHeld returned).Accounted cfg := by
  unfold retireSession
  split
  · unfold releaseSlot
    dsimp only
    split
    · exact h.move 0 0 hu rfl (t := .session conn .retired false returned) rfl rfl rfl h.bounded
    · exact h.move 0 0 hu rfl (t := .session conn .retired false returned) rfl rfl rfl h.bounded
  · exact h.move 0 0 hu rfl (t := .session conn .retired false returned) rfl rfl rfl h.bounded

/-- `prewarm` reserves before it dials. -/
theorem Accounted.reserve {target : Nat} (h : s.Accounted cfg)
    (hu : s.tasks[i]? = some (.prewarming target)) : (s.reserveTurn cfg i target).Accounted cfg := by
  unfold reserveTurn
  split
  · exact h.setTask hu rfl
  · split
    · exact h.setTask hu rfl
    · next hroom =>
      refine h.move 0 1 hu rfl (t := .dialling target) rfl rfl ?_ ?_
      · simp only [Adapter.setTask]
        omega
      · simp only [Adapter.setTask]
        omega

/-- `prewarm` leaves its socket idle, or gives its place back. -/
theorem Accounted.dialled {target : Nat} {conn : Option Conn} {expired : Bool} (h : s.Accounted cfg)
    (hu : s.tasks[i]? = some (.dialling target)) :
    (s.dialledTurn i target conn expired).Accounted cfg := by
  cases conn with
  | none => exact h.discard hu rfl rfl
  | some conn =>
      have hnone : (if expired then Task.warmed else .prewarming target).sockets = 0 := by
        cases expired <;> rfl
      refine h.move 1 0 hu rfl hnone rfl ?_ h.bounded
      simp only [dialledTurn, Adapter.setTask, List.length_append, List.length_singleton]
      omega

/-- With pooling a clean event keeps the count. -/
theorem Accounted.step (hpooled : cfg.pooled) (h : s.Accounted cfg) (e : PoolEvent)
    (hclean : s.Clean cfg e) : (s.step cfg e).Accounted cfg := by
  cases e with
  | openSession =>
      simp only [Adapter.step]
      split
      · exact h
      · exact h.join (by cases s.closed <;> rfl)
  | prewarm connections =>
      simp only [Adapter.step, if_pos hpooled]
      exact h.join rfl
  | checkout i expired =>
      simp only [Adapter.step]
      split
      · next hu =>
        rw [checkoutConnection, if_pos hpooled]
        exact h.checkoutTurn hu rfl
      · exact h
  | wake i expired =>
      simp only [Adapter.step]
      split
      · next hu =>
        rw [Adapter.wake, if_pos hpooled]
        have h' : ({ s with pendingAcquires := s.pendingAcquires - 1 } : Adapter).Accounted cfg :=
          ⟨h.counted, h.bounded⟩
        exact h'.checkoutTurn hu rfl
      · exact h
  | connect i conn retryable =>
      simp only [Adapter.step]
      split
      · next n hu =>
        cases conn with
        | some conn => exact h.setTask hu rfl
        | none =>
            refine h.failAttempt hpooled hu ?_
            rintro rfl hlt
            exact hclean hpooled (by simp [hu, Task.hasRetry, hlt])
      · exact h
  | handshake i ok retryable =>
      simp only [Adapter.step]
      split
      · next n conn hu =>
        cases ok with
        | true => exact h.setTask hu rfl
        | false =>
            refine h.failAttempt hpooled hu ?_
            rintro rfl hlt
            exact hclean hpooled (by simp [hu, Task.hasRetry, hlt])
      · exact h
  | register i =>
      simp only [Adapter.step]
      split
      · next conn hu =>
        split
        · exact h
        · unfold registerSession
          split
          · rw [discardConnection_of_pooled hpooled]
            have h' := h.discard hu rfl (t := .stuck) rfl
            exact ⟨h'.counted, h'.bounded⟩
          · exact h.move 1 1 hu rfl (t := .session conn .live false false) rfl rfl rfl h.bounded
      · exact h
  | handOver i =>
      simp only [Adapter.step]
      split
      · next conn transport slotHeld hu =>
        exact h.setTask hu (by cases transport <;> rfl)
      · exact h
  | finish i reusable =>
      simp only [Adapter.step]
      split
      · next hu => exact h.setTask hu rfl
      · exact h
  | giveBack i =>
      simp only [Adapter.step]
      split
      · next hu => exact h.giveBack hpooled hu
      · exact h
  | retire i =>
      simp only [Adapter.step]
      split
      · next hu =>
        split
        · exact h
        · exact h.retire hu
      · exact h
  | reserve i =>
      simp only [Adapter.step]
      split
      · next hu => exact h.reserve hu
      · exact h
  | dialled i conn expired =>
      simp only [Adapter.step]
      split
      · next hu => exact h.dialled hu
      · exact h
  | close =>
      simp only [Adapter.step]
      split
      · exact h
      · exact ⟨h.counted, h.bounded⟩
  | closeNext reusable =>
      simp only [Adapter.step]
      split
      · unfold closeSession
        split
        · next conn slotHeld returned hu =>
          exact h.move 1 1 hu rfl (t := .session conn (.closing reusable) slotHeld returned) rfl rfl rfl
            h.bounded
        · exact ⟨h.counted, h.bounded⟩
      · split
        · exact ⟨h.counted, h.bounded⟩
        · exact h
      · exact h
  | clearIdle =>
      simp only [Adapter.step]
      split
      · have hcounted := h.counted
        have hbound := h.bounded
        refine ⟨?_, ?_⟩
        · simp only [sockets, List.length_nil] at hcounted ⊢
          omega
        · show s.physicalConnections - s.idleConnections.length ≤ cfg.maxConnections
          omega
      · exact h

end

/-! ## Without pooling: the slots of the semaphore -/

/-- The slots that are acquired for a task and not given back yet. -/
def slotsOf : Task → Nat
  | .attempt _ _ | .opened _ => 1
  | .session _ transport _ _ => if transport = .retired then 0 else 1
  | _ => 0

/-- The task has not acquired yet. -/
def unacquired : Task → Bool
  | .checkout | .parked | .prewarming _ | .dialling _ | .warmed => true
  | _ => false

/-- The task goes on to give its slot back: a session that was not handed over is still live, and one
that was holds the slot until it is retired. -/
def WillRelease : Task → Prop
  | .stuck => False
  | .session _ transport slotHeld returned =>
      if returned then transport ≠ .retired → slotHeld = true
      else transport = .live
  | _ => True

/-- What the histories say of open `i` when it is in state `t`. -/
structure SlotOf (s : Adapter) (i : Nat) (t : Task) : Prop where
  balance : s.acquires.count i = s.releases.count i + slotsOf t
  once : s.acquires.count i ≤ 1
  fresh : unacquired t → s.acquires.count i = 0
  release : WillRelease t

/-- The invariant without pooling. -/
structure Slots (cfg : PoolConfig) (s : Adapter) : Prop where
  value : s.slots + s.acquires.length = cfg.maxConnections + s.releases.length
  held : s.acquires.length = s.releases.length + tally slotsOf s.tasks
  known : ∀ i, s.tasks.length ≤ i → s.acquires.count i = 0 ∧ s.releases.count i = 0
  each : ∀ i t, s.tasks[i]? = some t → SlotOf s i t

section
variable {cfg : PoolConfig} {s q : Adapter} {i : Nat} {t u : Task}

/-- The invariant gives what the claim about the slots says. -/
theorem Slots.slotsOnce (h : Slots cfg s) : s.SlotsOnce cfg where
  value := h.value
  once i := by
    by_cases hi : i < s.tasks.length
    · obtain ⟨t, ht⟩ : ∃ t, s.tasks[i]? = some t := ⟨_, List.getElem?_eq_getElem hi⟩
      have hslot := h.each i t ht
      have hbalance := hslot.balance
      exact ⟨hslot.once, by omega⟩
    · obtain ⟨hacquires, hreleases⟩ := h.known i (Nat.le_of_not_lt hi)
      omega
  settled i t ht hover := by
    have hslot := h.each i t ht
    have hnone : slotsOf t = 0 := by
      cases t with
      | session _ transport _ returned =>
          cases transport with
          | retired => rfl
          | _ => cases hover
      | attempt => cases hover
      | opened => cases hover
      | _ => rfl
    have hbalance := hslot.balance
    omega

/-- A task that goes on without touching the semaphore. -/
theorem Slots.move (h : Slots cfg s) (hu : s.tasks[i]? = some u) (htasks : q.tasks = s.tasks.set i t)
    (hslots : q.slots = s.slots) (hacquires : q.acquires = s.acquires)
    (hreleases : q.releases = s.releases) (hsame : slotsOf t = slotsOf u)
    (hfresh : unacquired t → unacquired u) (hrelease : WillRelease t) : Slots cfg q where
  value := by rw [hslots, hacquires, hreleases, h.value]
  held := by rw [hacquires, hreleases, htasks, tally_set_eq t hu hsame, h.held]
  known j hj := by
    rw [hacquires, hreleases]
    exact h.known j (by rwa [htasks, List.length_set] at hj)
  each := by
    rw [htasks]
    have hslot := h.each i u hu
    refine forall_set h.each ?_ ?_
    · refine ⟨?_, ?_, ?_, hrelease⟩
      · rw [hacquires, hreleases, hsame, hslot.balance]
      · rw [hacquires]
        exact hslot.once
      · rw [hacquires]
        exact fun ht => hslot.fresh (hfresh ht)
    · intro j x _ hx
      refine ⟨?_, ?_, ?_, hx.release⟩
      · rw [hacquires, hreleases, hx.balance]
      · rw [hacquires]
        exact hx.once
      · rw [hacquires]
        exact hx.fresh

/-- A state that only differs outside the tasks and the semaphore. -/
theorem Slots.frame (h : Slots cfg s) (htasks : q.tasks = s.tasks) (hslots : q.slots = s.slots)
    (hacquires : q.acquires = s.acquires) (hreleases : q.releases = s.releases) : Slots cfg q where
  value := by rw [hslots, hacquires, hreleases, h.value]
  held := by rw [hacquires, hreleases, htasks, h.held]
  known j hj := by
    rw [hacquires, hreleases]
    exact h.known j (by rwa [htasks] at hj)
  each j x hx := by
    have hslot := h.each j x (by rwa [htasks] at hx)
    refine ⟨?_, ?_, ?_, hslot.release⟩
    · rw [hacquires, hreleases, hslot.balance]
    · rw [hacquires]
      exact hslot.once
    · rw [hacquires]
      exact hslot.fresh

/-- A task that joins has acquired nothing. -/
theorem Slots.join (h : Slots cfg s) (hnone : slotsOf t = 0) (hrelease : WillRelease t) :
    Slots cfg { s with tasks := s.tasks ++ [t] } where
  value := h.value
  held := by
    have hheld := h.held
    show s.acquires.length = s.releases.length + tally slotsOf (s.tasks ++ [t])
    rw [tally_concat]
    omega
  known j hj := h.known j (by simp at hj; omega)
  each := by
    obtain ⟨hacquires, hreleases⟩ := h.known s.tasks.length le_rfl
    refine forall_concat h.each ?_ ?_
    · refine ⟨?_, ?_, fun _ => hacquires, hrelease⟩
      · show s.acquires.count s.tasks.length = s.releases.count s.tasks.length + slotsOf t
        omega
      · show s.acquires.count s.tasks.length ≤ 1
        omega
    · exact fun j x _ hx => ⟨hx.balance, hx.once, hx.fresh, hx.release⟩

/-- `_slot_semaphore.acquire` for open `i`. -/
theorem Slots.acquire {pending : Nat} (h : Slots cfg s) (hu : s.tasks[i]? = some .parked)
    (hpos : 0 < s.slots) :
    Slots cfg ({ s with
      slots := s.slots - 1
      pendingAcquires := pending
      acquires := s.acquires ++ [i] }.setTask i (.attempt 0 none)) where
  value := by
    have hvalue := h.value
    simp only [Adapter.setTask, List.length_append, List.length_singleton]
    omega
  held := by
    have hheld := h.held
    have htally := tally_set slotsOf (.attempt 0 none) hu
    have hbefore : slotsOf .parked = 0 := rfl
    have hafter : slotsOf (.attempt 0 none) = 1 := rfl
    simp only [Adapter.setTask, List.length_append, List.length_singleton]
    omega
  known j hj := by
    simp only [Adapter.setTask, List.length_set] at hj
    have hlt : i < s.tasks.length := (List.getElem?_eq_some_iff.1 hu).1
    have hne : i ≠ j := by omega
    obtain ⟨hacquires, hreleases⟩ := h.known j hj
    exact ⟨by simp [Adapter.setTask, List.count_append, hacquires, hne], hreleases⟩
  each := by
    have hslot := h.each i _ hu
    have hzero := hslot.fresh rfl
    have hbalance := hslot.balance
    have hbefore : slotsOf .parked = 0 := rfl
    refine forall_set h.each ?_ ?_
    · refine ⟨?_, ?_, (fun hfresh => nomatch hfresh), trivial⟩
      · have hafter : slotsOf (.attempt 0 none) = 1 := rfl
        simp only [Adapter.setTask, List.count_append, List.count_singleton_self]
        omega
      · simp only [Adapter.setTask, List.count_append, List.count_singleton_self]
        omega
    · intro j x hj hx
      have hsame : (s.acquires ++ [i]).count j = s.acquires.count j := by
        simp [List.count_append, Ne.symm hj]
      refine ⟨?_, ?_, ?_, hx.release⟩
      · simp only [Adapter.setTask, hsame, hx.balance]
      · simp only [Adapter.setTask, hsame, hx.once]
      · simp only [Adapter.setTask, hsame]
        exact hx.fresh

/-- `_release_slot` for open `i`, which goes on to `t`. -/
theorem Slots.release (h : Slots cfg s) (hu : s.tasks[i]? = some u) (hone : slotsOf u = 1)
    (hnone : slotsOf t = 0) (hfresh : ¬ unacquired t) (hrelease : WillRelease t)
    (hq : q = { s with slots := s.slots + 1, releases := s.releases ++ [i] }.setTask i t) :
    Slots cfg q := by
  subst hq
  have htally := tally_set slotsOf t hu
  have hheld := h.held
  have hvalue := h.value
  have hslot := h.each i u hu
  have hbalance := hslot.balance
  refine ⟨?_, ?_, ?_, ?_⟩
  · simp only [Adapter.setTask, List.length_append, List.length_singleton]
    omega
  · simp only [Adapter.setTask, List.length_append, List.length_singleton]
    omega
  · intro j hj
    simp only [Adapter.setTask, List.length_set] at hj
    have hlt : i < s.tasks.length := (List.getElem?_eq_some_iff.1 hu).1
    have hne : i ≠ j := by omega
    obtain ⟨hacquires, hreleases⟩ := h.known j hj
    exact ⟨hacquires, by simp [Adapter.setTask, List.count_append, hreleases, hne]⟩
  · refine forall_set h.each ?_ ?_
    · refine ⟨?_, hslot.once, fun ht => absurd ht hfresh, hrelease⟩
      simp only [Adapter.setTask, List.count_append, List.count_singleton_self]
      omega
    · intro j x hj hx
      refine ⟨?_, hx.once, hx.fresh, hx.release⟩
      simp only [Adapter.setTask, List.count_append, hx.balance]
      simp [Ne.symm hj]

/-- While a task holds a slot the semaphore is not full. -/
theorem Slots.not_full (h : Slots cfg s) (hu : s.tasks[i]? = some u) (hone : slotsOf u = 1) :
    s.slots < cfg.maxConnections := by
  have hle := le_tally slotsOf hu
  have hheld := h.held
  have hvalue := h.value
  omega

/-- Without pooling `_discard_connection` does nothing. -/
theorem discardConnection_of_not_pooled (hpooled : ¬ cfg.pooled) : s.discardConnection cfg = s := by
  have hidle : cfg.maxIdleConnections = 0 := by
    simp only [PoolConfig.pooled, decide_eq_true_eq] at hpooled
    omega
  exact if_pos hidle

/-- A failed attempt keeps the slot for the next one, or gives it back. -/
theorem Slots.failAttempt {n : Nat} {conn : Option Conn} {retryable : Bool} (hpooled : ¬ cfg.pooled)
    (h : Slots cfg s) (hu : s.tasks[i]? = some (.attempt n conn)) :
    Slots cfg (s.failAttempt cfg i n conn retryable) := by
  have hkeep : s.discardAttempt cfg conn = s := by
    cases conn with
    | none => exact if_neg hpooled
    | some _ => exact discardConnection_of_not_pooled hpooled
  simp only [Adapter.failAttempt, hkeep]
  split
  · rw [raiseOpen, if_neg hpooled, releaseSlot, if_pos (h.not_full hu rfl)]
    exact h.release (t := .raised) hu rfl rfl (by simp [unacquired]) trivial rfl
  · exact h.move hu rfl rfl rfl rfl rfl (fun ht => ht) trivial

/-- Without pooling a clean event keeps the slots. -/
theorem Slots.step (hpooled : ¬ cfg.pooled) (h : Slots cfg s) (e : PoolEvent)
    (hclean : s.Clean cfg e) : Slots cfg (s.step cfg e) := by
  cases e with
  | openSession =>
      simp only [Adapter.step]
      split
      · exact h
      · have hnone : slotsOf (if s.closed then .raised else .checkout) = 0 := by
          cases s.closed <;> rfl
        have hrelease : WillRelease (if s.closed then .raised else .checkout) := by
          cases s.closed <;> trivial
        exact h.join hnone hrelease
  | prewarm connections =>
      simp only [Adapter.step, if_neg hpooled]
      exact h
  | checkout i expired =>
      simp only [Adapter.step]
      split
      · next hu =>
        rw [checkoutConnection, if_neg hpooled]
        split
        · exact h.move hu rfl rfl rfl rfl rfl (fun ht => nomatch ht) trivial
        · exact h.move hu rfl rfl rfl rfl rfl (fun _ => rfl) trivial
      · exact h
  | wake i expired =>
      simp only [Adapter.step]
      split
      · next hu =>
        rw [Adapter.wake, if_neg hpooled]
        split
        · next hpos => exact h.acquire hu hpos
        · split
          · exact h.move hu rfl rfl rfl rfl rfl (fun ht => nomatch ht) trivial
          · exact h
      · exact h
  | connect i conn retryable =>
      simp only [Adapter.step]
      split
      · next n hu =>
        cases conn with
        | some conn => exact h.move hu rfl rfl rfl rfl rfl (fun ht => ht) trivial
        | none => exact h.failAttempt hpooled hu
      · exact h
  | handshake i ok retryable =>
      simp only [Adapter.step]
      split
      · next n conn hu =>
        cases ok with
        | true => exact h.move hu rfl rfl rfl rfl rfl (fun ht => nomatch ht) trivial
        | false => exact h.failAttempt hpooled hu
      · exact h
  | register i =>
      simp only [Adapter.step]
      split
      · next conn hu =>
        split
        · exact h
        · have hopen : ¬ s.closed := by
            intro hclosed
            exact hclean hpooled hclosed (by simp [hu, Task.isOpened])
          rw [registerSession, if_neg hopen]
          exact h.move hu rfl rfl rfl rfl rfl (fun ht => nomatch ht) rfl
      · exact h
  | handOver i =>
      simp only [Adapter.step]
      split
      · next conn transport slotHeld hu =>
        refine h.move hu rfl rfl rfl rfl rfl (fun ht => nomatch ht) ?_
        simp [WillRelease, hpooled]
      · exact h
  | finish i reusable =>
      simp only [Adapter.step]
      split
      · next conn slotHeld hu =>
        have hheld : slotHeld = true := (h.each i _ hu).release (by simp)
        refine h.move hu rfl rfl rfl rfl rfl (fun ht => nomatch ht) ?_
        simp [WillRelease, hheld]
      · exact h
  | giveBack i =>
      simp only [Adapter.step]
      split
      · next conn reusable slotHeld returned hu =>
        have hrelease := (h.each i _ hu).release
        have hreturned : returned = true := by
          cases returned with
          | true => rfl
          | false => cases hrelease
        subst hreturned
        have hheld : slotHeld = true := hrelease (by simp)
        rw [giveBackConnection]
        simp only [hpooled, Bool.and_false, Bool.false_eq_true, if_false,
          discardConnection_of_not_pooled hpooled]
        refine h.move hu rfl rfl rfl rfl rfl (fun ht => nomatch ht) ?_
        simp [WillRelease, hheld]
      · exact h
  | retire i =>
      simp only [Adapter.step]
      split
      · next conn slotHeld returned hu =>
        split
        · exact h
        · have hrelease := (h.each i _ hu).release
          have hreturned : returned = true := by
            cases returned with
            | true => rfl
            | false => cases hrelease
          subst hreturned
          have hheld : slotHeld = true := hrelease (by simp)
          have h' : Slots cfg { s with sessions := s.sessions.erase i } := h.frame rfl rfl rfl rfl
          have hfull : s.slots < cfg.maxConnections := h.not_full hu rfl
          simp only [retireSession, hheld, if_true, releaseSlot, if_pos hfull]
          exact h'.release hu rfl rfl (by simp [unacquired]) (by simp [WillRelease]) rfl
      · exact h
  | reserve i =>
      simp only [Adapter.step]
      split
      · next target hu =>
        unfold reserveTurn
        split
        · exact h.move hu rfl rfl rfl rfl rfl (fun _ => rfl) trivial
        · split
          · exact h.move hu rfl rfl rfl rfl rfl (fun _ => rfl) trivial
          · exact h.move hu rfl rfl rfl rfl rfl (fun _ => rfl) trivial
      · exact h
  | dialled i conn expired =>
      simp only [Adapter.step]
      split
      · next target hu =>
        cases conn with
        | none => exact h.move hu rfl rfl rfl rfl rfl (fun _ => rfl) trivial
        | some conn =>
            cases expired with
            | true => exact h.move hu (t := .warmed) rfl rfl rfl rfl rfl (fun _ => rfl) trivial
            | false =>
                exact h.move hu (t := .prewarming target) rfl rfl rfl rfl rfl (fun _ => rfl) trivial
      · exact h
  | close =>
      simp only [Adapter.step]
      split
      · exact h
      · exact h.frame rfl rfl rfl rfl
  | closeNext reusable =>
      simp only [Adapter.step]
      split
      · next i rest hcloser =>
        unfold closeSession
        split
        · next conn slotHeld returned hu =>
          have hreturned : returned = true := by
            cases returned with
            | true => rfl
            | false =>
                exact absurd (by simp [hcloser, Closer.next, hu, Task.isUnreturned])
                  (hclean hpooled)
          subst hreturned
          have hheld : slotHeld = true := (h.each i _ hu).release (by simp)
          refine h.move hu rfl rfl rfl rfl rfl (fun ht => nomatch ht) ?_
          simp [WillRelease, hheld]
        · exact h.frame rfl rfl rfl rfl
      · split
        · exact h.frame rfl rfl rfl rfl
        · exact h
      · exact h
  | clearIdle =>
      simp only [Adapter.step]
      split
      · exact h.frame rfl rfl rfl rfl
      · exact h

/-- The adapter starts with right accounts. -/
theorem init_accounted (cfg : PoolConfig) : (Adapter.init cfg).Accounted cfg where
  counted := rfl
  bounded := Int.natCast_nonneg cfg.maxConnections

theorem init_slots (cfg : PoolConfig) : Slots cfg (Adapter.init cfg) where
  value := rfl
  held := rfl
  known _ _ := ⟨rfl, rfl⟩
  each i t ht := by simp [Adapter.init] at ht

/-- Whatever the threads of the adapter do, one clean event after another: with pooling
`_physical_connections` is the number of sockets that are idle, leased or being opened, and stays
within `max_connections`; without pooling every acquired slot is released exactly once. -/
theorem pool_accounts (cfg : PoolConfig) (events : List PoolEvent)
    (h : Along (step cfg) (Clean cfg) (Adapter.init cfg) events) :
    let s := run (step cfg) (Adapter.init cfg) events
    (0 < cfg.maxIdleConnections → s.Accounted cfg)
      ∧ (cfg.maxIdleConnections = 0 → s.SlotsOnce cfg) := by
  refine ⟨?_, ?_⟩
  · intro hidle
    have hpooled : cfg.pooled := decide_eq_true hidle
    exact run_induct (init_accounted cfg) (fun s e hs he => hs.step hpooled e he) h
  · intro hidle
    have hpooled : ¬ cfg.pooled := by simp [PoolConfig.pooled, hidle]
    exact (run_induct (init_slots cfg) (fun s e hs he => hs.step hpooled e he) h).slotsOnce

/-- One connection, kept idle, and one retry. -/
def onePooled : PoolConfig := ⟨1, 1, 256, 1, by decide, by decide⟩

/-- One connection, and none is kept. -/
def oneUnpooled : PoolConfig := ⟨1, 0, 256, 1, by decide, by decide⟩

/-- A session opens and ends, a second open fails in its last attempt, a prewarm dials, and the adapter
is closed: the accounts are right with pooling and without. -/
theorem pool_accounts_open_and_close :
    let events : List PoolEvent :=
      [.openSession, .checkout 0 false, .wake 0 false, .connect 0 (some 7) true,
        .handshake 0 true true, .register 0, .handOver 0, .finish 0 true, .giveBack 0, .retire 0,
        .openSession, .checkout 1 false, .wake 1 false, .connect 1 none false,
        .handshake 1 false false, .prewarm 1, .reserve 2, .dialled 2 (some 9) false, .close,
        .closeNext false, .clearIdle]
    (run (step onePooled) (Adapter.init onePooled) events).Accounted onePooled
      ∧ (run (step oneUnpooled) (Adapter.init oneUnpooled) events).SlotsOnce oneUnpooled := by
  intro events
  exact ⟨(pool_accounts onePooled events (by decide)).1 (by decide),
    (pool_accounts oneUnpooled events (by decide)).2 rfl⟩

/-- An open whose first connect fails dials again, and a second open takes the place it gave back. -/
def retriedOpen : List PoolEvent :=
  [.openSession, .checkout 0 false, .connect 0 none true, .connect 0 (some 7) true,
    .openSession, .checkout 1 false, .connect 1 (some 8) true]

/-- `close` of the adapter comes to a session just before its slot is handed over. -/
def closedBeforeHandOver : List PoolEvent :=
  [.openSession, .checkout 0 false, .wake 0 false, .connect 0 (some 7) true, .handshake 0 true true,
    .register 0, .close, .closeNext false, .giveBack 0, .retire 0, .handOver 0]

/-- An open finds the adapter closed and waits for the lock it holds. -/
def closedBeforeRegister : List PoolEvent :=
  [.openSession, .checkout 0 false, .wake 0 false, .connect 0 (some 7) true, .handshake 0 true true,
    .close, .register 0]

/-- A retry leaves two sockets open where one is counted and one is allowed; and a slot that was
acquired is never released when `close` comes between the registration of a session and the handover
of its slot, or before the registration. -/
theorem retry_uncounted :
    ¬ (run (step onePooled) (Adapter.init onePooled) retriedOpen).Accounted onePooled
      ∧ (run (step onePooled) (Adapter.init onePooled) retriedOpen).physicalConnections = 1
      ∧ (run (step onePooled) (Adapter.init onePooled) retriedOpen).sockets = 2
      ∧ ¬ (run (step oneUnpooled) (Adapter.init oneUnpooled) closedBeforeHandOver).SlotsOnce oneUnpooled
      ∧ ¬ (run (step oneUnpooled) (Adapter.init oneUnpooled) closedBeforeRegister).SlotsOnce
        oneUnpooled := by
  refine ⟨?_, by decide, by decide, ?_, ?_⟩
  · intro h
    exact absurd h.counted (by decide)
  · intro h
    exact absurd (h.settled 0 (.session 7 .retired true true) (by decide) rfl) (by decide)
  · intro h
    exact absurd (h.settled 0 .stuck (by decide) rfl) (by decide)

end

end Adapter

end Realtime

end StreamingTts.Client
