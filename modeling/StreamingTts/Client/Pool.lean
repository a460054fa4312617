import Mathlib.Data.Finset.Card

/-!
# The connection pool of the websocket adapter

`EngineWebSocketAdapter` of `client/src/qwen3tts/_adapters/engine_websocket.py`, as far as its pool
goes: each definition below is one critical section of `_pool_lock`. Connections and the tokens of
blocked callers are numbers, since only their identity matters. `_pool_condition` is `asleep`: the
tokens whose thread is in `wait` and has not been woken; `notify_all` wakes all of them.

`queuedLog` and `servedLog` are histories that no operation reads: the tokens in the order they joined
`_acquire_waiters`, and in the order they were served. Times are microseconds.
-/

namespace StreamingTts.Client

/-- A physical websocket (`RawWebSocketConnection`), by its identity. -/
abbrev Conn := Nat

/-- The token of one blocked caller. -/
abbrev Token := Nat

/-- The settings of the adapter that the pool and the recovery of a stream read, as its constructor
has checked them. -/
structure AdapterConfig where
  maxConnections : Nat
  maxIdleConnections : Nat
  maxPendingAcquires : Nat
  idleTtl : Option Int
  maxLifetime : Option Int
  streamResumeAttempts : Nat
  activeStreamResume : Bool
  maxConnections_pos : 0 < maxConnections
  maxIdleConnections_le : maxIdleConnections ≤ maxConnections

/-- The fields of `EngineWebSocketAdapter` that `_pool_lock` guards. -/
structure ConnectionPool where
  idleConnections : List Conn
  connections : Finset Conn
  connectionCreatedAt : Conn → Option Int
  connectionIdleSince : Conn → Option Int
  connecting : Int
  acquireWaiters : List Token
  waiterHandoffs : Token → Option Conn
  newConnectionWaiters : Finset Token
  closed : Bool
  asleep : Token → Bool
  queuedLog : List Token
  servedLog : List Token

/-- How `_checkout_connection` leaves one turn of its loop. -/
inductive CheckoutOutcome
  /-- `StreamClosedError` -/
  | closed
  /-- an idle connection, or one that was handed over -/
  | leased (conn : Conn)
  /-- a slot for a new connection -/
  | reserved
  /-- `PoolSaturatedError` -/
  | saturated
  /-- `PoolAcquireTimeoutError` -/
  | timedOut
  /-- blocked in `wait` -/
  | waits (waiter : Token)
  deriving DecidableEq

/-- How `_reserve_new_connection` leaves one turn of its loop. -/
inductive ReserveOutcome
  | closed
  /-- the idle target has been met -/
  | unneeded
  | reserved
  | saturated
  | timedOut
  | waits (waiter : Token)
  deriving DecidableEq

/-- What `ws_connect` raises. -/
inductive DialError
  /-- `OSError` (also a timeout) or `RawWebSocketError` -/
  | dialFailure
  /-- any other `Exception` -/
  | other
  /-- a `BaseException` that is no `Exception` -/
  | interrupt
  deriving DecidableEq

namespace ConnectionPool

variable (cfg : AdapterConfig) (p : ConnectionPool)

/-- The pool of a new adapter. -/
def new : ConnectionPool where
  idleConnections := []
  connections := ∅
  connectionCreatedAt _ := none
  connectionIdleSince _ := none
  connecting := 0
  acquireWaiters := []
  waiterHandoffs _ := none
  newConnectionWaiters := ∅
  closed := false
  asleep _ := false
  queuedLog := []
  servedLog := []

/-- `notify_all`. -/
def notifyAll : ConnectionPool := { p with asleep := fun _ => false }

/-- A thread's `wait` times out. -/
def wake (w : Token) : ConnectionPool := { p with asleep := Function.update p.asleep w false }

/-- `len(self._connections) + self._connecting`. -/
def load : Int := p.connections.card + p.connecting

/-- A connection leaves the tables. -/
def forget (c : Conn) : ConnectionPool :=
  { p with
    connections := p.connections.erase c
    connectionCreatedAt := Function.update p.connectionCreatedAt c none
    connectionIdleSince := Function.update p.connectionIdleSince c none }

/-- `_discard_connection`. -/
def discardConnection (c : Conn) : ConnectionPool :=
  { p.forget c with idleConnections := p.idleConnections.erase c }.notifyAll

/-- `_remove_waiter_locked`. -/
def removeWaiter (w : Token) : ConnectionPool :=
  { p with
    acquireWaiters := p.acquireWaiters.erase w
    waiterHandoffs := Function.update p.waiterHandoffs w none
    newConnectionWaiters := p.newConnectionWaiters.erase w }

/-- `_remove_waiter_locked` of a caller that may not have queued. -/
def removeWaiter? : Option Token → ConnectionPool
  | none => p
  | some w => p.removeWaiter w

/-! ## New connections -/

/-- A reserved slot is given up. -/
def dropReservation : ConnectionPool := { p with connecting := p.connecting - 1 }.notifyAll

/-- A reserved slot becomes a tracked connection. -/
def fillReservation (c : Conn) (createdAt : Int) : ConnectionPool :=
  { p with
    connecting := p.connecting - 1
    connections := insert c p.connections
    connectionCreatedAt := Function.update p.connectionCreatedAt c (some createdAt) }.notifyAll

/-- `_new_connection` after a handshake. The second component says whether the adapter was closed
meanwhile, so that the socket is closed again and `StreamClosedError` raised. -/
def newConnectionOk (c : Conn) (createdAt : Int) : ConnectionPool × Bool :=
  if p.closed then (p.dropReservation, true) else (p.fillReservation c createdAt, false)

/-- `retain_for_retry`. -/
def retainForRetry (releaseReservationOnFailure : Bool) (exc : DialError) : Bool :=
  !releaseReservationOnFailure && !p.closed && exc = .dialFailure

/-- `_new_connection` when no attempt succeeded. -/
def newConnectionFailed (releaseReservationOnFailure : Bool) (exc : DialError) : ConnectionPool :=
  if p.retainForRetry releaseReservationOnFailure exc then p.notifyAll
  else p.dropReservation

/-- The errors of `_replace_connection` before it dials. -/
inductive ReplaceError
  /-- `StreamClosedError` -/
  | closed
  /-- `StreamRecoveryError` -/
  | notOwned
  deriving DecidableEq

/-- `_replace_connection` up to the dial. -/
def replaceConnection (c : Conn) : Except ReplaceError ConnectionPool :=
  if p.closed then .error .closed
  else if c ∉ p.connections then .error .notOwned
  else
    .ok { p.forget c with
      idleConnections := p.idleConnections.erase c
      connecting := p.connecting + 1 }.notifyAll

/-- `_release_reserved_replacement`. -/
def releaseReservedReplacement : ConnectionPool := p.dropReservation

/-! ## Admission -/

/-- The loop over `_idle_connections.pop()`: the list from its end, and the connection found. -/
def popIdle (connections : Finset Conn) : List Conn → Option Conn × List Conn
  | [] => (none, [])
  | c :: rest => if c ∈ connections then (some c, rest) else popIdle connections rest

/-- The connections that the loop takes out of `_idle_connections`. -/
def poppedIdle (connections : Finset Conn) : List Conn → List Conn
  | [] => []
  | c :: rest => if c ∈ connections then [c] else c :: poppedIdle connections rest

/-- The idle connection for the caller whose turn it is. -/
def takeIdle : Option Conn × ConnectionPool :=
  let popped := popIdle p.connections p.idleConnections.reverse
  (popped.1,
    { p with
      idleConnections := popped.2.reverse
      connectionIdleSince := (poppedIdle p.connections p.idleConnections.reverse).foldl
        (fun t c => Function.update t c none) p.connectionIdleSince })

/-- `is_turn`. -/
def isTurn : Option Token → Bool
  | none => p.acquireWaiters = []
  | some w => p.acquireWaiters.head? = some w

/-- A caller that is served leaves the queue and wakes the others. -/
def serve (waiter : Option Token) : ConnectionPool :=
  { (p.removeWaiter? waiter).notifyAll with servedLog := p.servedLog ++ waiter.toList }

/-- A caller that cannot be served: it queues unless it has, and waits unless its time is up. The
tokens are fresh, and `prewarm` marks those of `_new_connection_waiters`. -/
def block (waiter : Option Token) (fresh : Token) (prewarm expired : Bool) :
    ConnectionPool × Option Token :=
  let w := waiter.getD fresh
  let p :=
    if waiter.isSome then p
    else
      { p with
        acquireWaiters := p.acquireWaiters ++ [w]
        newConnectionWaiters := if prewarm then insert w p.newConnectionWaiters
          else p.newConnectionWaiters
        queuedLog := p.queuedLog ++ [w] }
  if expired then ((p.removeWaiter w).notifyAll, none)
  else ({ p with asleep := Function.update p.asleep w true }, some w)

/-- A caller that did not find a connection: it may wait, unless too many do. -/
def checkoutBlock (waiter : Option Token) (fresh : Token) (expired : Bool) :
    ConnectionPool × CheckoutOutcome :=
  if waiter = none ∧ cfg.maxPendingAcquires ≤ p.acquireWaiters.length then (p, .saturated)
  else match p.block waiter fresh false expired with
    | (p, some w) => (p, .waits w)
    | (p, none) => (p, .timedOut)

/-- The turn of a caller at the head: an idle connection, else a slot for a new one. -/
def checkoutServe (waiter : Option Token) (fresh : Token) (expired : Bool) :
    ConnectionPool × CheckoutOutcome :=
  match p.takeIdle with
  | (some c, p) => (p.serve waiter, .leased c)
  | (none, p) =>
      if p.load < cfg.maxConnections then
        ({ p with connecting := p.connecting + 1 }.serve waiter, .reserved)
      else p.checkoutBlock cfg waiter fresh expired

/-- The critical section of one turn of the loop of `_checkout_connection`; `expired` says that
`remaining == 0`. -/
def checkoutTurn (waiter : Option Token) (fresh : Token) (expired : Bool) :
    ConnectionPool × CheckoutOutcome :=
  if p.closed then (p.removeWaiter? waiter, .closed)
  else match waiter.bind p.waiterHandoffs with
    | some c =>
        ({ p with
            waiterHandoffs := (waiter.elim p.waiterHandoffs fun w =>
              Function.update p.waiterHandoffs w none)
            connectionIdleSince := Function.update p.connectionIdleSince c none },
          .leased c)
    | none =>
        if p.isTurn waiter then p.checkoutServe cfg waiter fresh expired
        else p.checkoutBlock cfg waiter fresh expired

/-- The critical section of one turn of the loop of `_reserve_new_connection`. -/
def reserveTurn (idleTarget : Nat) (waiter : Option Token) (fresh : Token) (expired : Bool) :
    ConnectionPool × ReserveOutcome :=
  if p.closed then (p.removeWaiter? waiter, .closed)
  else if idleTarget ≤ p.idleConnections.length then
    (if waiter.isSome then (p.removeWaiter? waiter).notifyAll else p, .unneeded)
  else if p.isTurn waiter ∧ p.load < cfg.maxConnections then
    ({ p with connecting := p.connecting + 1 }.serve waiter, .reserved)
  else if waiter = none ∧ cfg.maxPendingAcquires ≤ p.acquireWaiters.length then (p, .saturated)
  else match p.block waiter fresh true expired with
    | (p, some w) => (p, .waits w)
    | (p, none) => (p, .timedOut)

/-! ## Release, maintenance and close -/

/-- `lifetime_expired`. -/
def lifetimeExpired (createdAt now : Int) : Bool :=
  cfg.maxLifetime.any fun lifetime => lifetime ≤ now - createdAt

/-- Whether `_release_connection` keeps a connection from the pool. -/
def releaseCloses (c : Conn) (now : Int) : Bool :=
  p.closed || c ∉ p.connections || lifetimeExpired cfg ((p.connectionCreatedAt c).getD now) now

/-- `_release_connection` of a connection that nobody waits for: it is closed if enough are idle, and
idle otherwise. -/
def releaseIdle (c : Conn) (idleSince : Option Int) (now : Int) : ConnectionPool :=
  if cfg.maxIdleConnections ≤ p.idleConnections.length then (p.forget c).notifyAll
  else if c ∈ p.idleConnections then p.notifyAll
  else
    { p with
      idleConnections := p.idleConnections ++ [c]
      connectionIdleSince :=
        Function.update p.connectionIdleSince c (some (idleSince.getD now)) }.notifyAll

/-- `_release_connection` of a live connection: the first waiter gets it, unless that one is a prewarm
reservation. -/
def releaseLive (c : Conn) (idleSince : Option Int) (now : Int) : ConnectionPool :=
  match p.acquireWaiters with
  | [] => p.releaseIdle cfg c idleSince now
  | w :: rest =>
      if w ∈ p.newConnectionWaiters then p.releaseIdle cfg c idleSince now
      else
        { p with
          acquireWaiters := rest
          waiterHandoffs := Function.update p.waiterHandoffs w (some c)
          servedLog := p.servedLog ++ [w] }.notifyAll

/-- The critical section of `_release_connection`. -/
def releaseConnection (c : Conn) (idleSince : Option Int) (now : Int) : ConnectionPool :=
  if p.releaseCloses cfg c now then p.discardConnection c
  else
    { p with
      connectionCreatedAt :=
        Function.update p.connectionCreatedAt c
          (some ((p.connectionCreatedAt c).getD now)) }.releaseLive cfg c idleSince now

/-- The critical section of `_keepalive_once` for one connection. -/
def keepaliveTake (c : Conn) : Option ConnectionPool :=
  if p.acquireWaiters ≠ [] then none
  else if c ∉ p.connections ∨ c ∉ p.idleConnections then none
  else some
    { p with
      idleConnections := p.idleConnections.erase c
      connectionIdleSince := Function.update p.connectionIdleSince c none }

/-- Whether `_expire_idle_connections` closes an idle connection. -/
def idleExpired (c : Conn) (now : Int) : Bool :=
  lifetimeExpired cfg ((p.connectionCreatedAt c).getD now) now
    || cfg.idleTtl.any fun ttl => ttl ≤ now - (p.connectionIdleSince c).getD now

/-- The idle connections that `_expire_idle_connections` keeps. -/
def retained (now : Int) : List Conn :=
  p.idleConnections.filter fun c => c ∈ p.connections && !p.idleExpired cfg c now

/-- A table of times after `_expire_idle_connections`: a connection that is kept has an entry, and one
that is not has none. -/
def expireTimes (now : Int) (times : Conn → Option Int) (c : Conn) : Option Int :=
  if c ∉ p.idleConnections then times c
  else if c ∈ p.retained cfg now then some ((times c).getD now)
  else none

/-- `_expire_idle_connections`. The turns of its loop are about different connections. -/
def expireIdleConnections (now : Int) : ConnectionPool :=
  if cfg.idleTtl = none ∧ cfg.maxLifetime = none then p
  else
    let q :=
      { p with
        idleConnections := p.retained cfg now
        connections := p.connections.filter fun c => c ∈ p.idleConnections → c ∈ p.retained cfg now
        connectionCreatedAt := p.expireTimes cfg now p.connectionCreatedAt
        connectionIdleSince := p.expireTimes cfg now p.connectionIdleSince }
    if (p.retained cfg now).length ≠ p.idleConnections.length then q.notifyAll else q

/-- `close`. -/
def close : ConnectionPool :=
  if p.closed then p
  else
    { p with
      closed := true
      connections := ∅
      idleConnections := []
      connectionCreatedAt := fun _ => none
      connectionIdleSince := fun _ => none
      acquireWaiters := []
      waiterHandoffs := fun _ => none
      newConnectionWaiters := ∅ }.notifyAll

end ConnectionPool

end StreamingTts.Client
