import StreamingTts.Client.Pool

/-!
# Streams and callers of one adapter

The threads that share an `EngineWebSocketAdapter`: callers that check connections out and give them
back (`_checkout_connection`, `_reserve_new_connection`, `_prewarm_one`, the keepalive thread,
`get_capabilities`, `synthesize_bytes`, `open_stream`), and the `EngineWebSocketStreamSession`s with
their readers, senders, recoveries and calls of `cancel` and `close`. One event is one critical
section: of `_pool_lock` for a caller, and of `_transport_lock` for a session, with the pool operation
that the section makes. What the network does (the outcome of a dial, the frame a reader gets, whether
a write fails) is part of the event.

A thread that acts on an old `(conn, generation)` pair finds the generation changed and does nothing, so
only the threads of the current generation appear. `lessee` says who holds the lease of a connection:
it is taken when a checkout or a dial returns, and ends when `_release_connection` gives the connection
back to the pool. A connection that the pool does not take back is closed and never leased again.
-/

namespace StreamingTts.Client

/-- Where a caller stands. -/
inductive CallerPhase
  | idle
  /-- in `_checkout_connection`, blocked or at the top of its loop -/
  | checkout (waiter : Option Token)
  /-- in `_reserve_new_connection` -/
  | reserve (idleTarget : Nat) (waiter : Option Token)
  /-- in `_new_connection` with a reserved slot -/
  | dialing
  /-- with a connection of its own -/
  | leased (conn : Conn)

/-- The number of reserved slots a caller holds. -/
def CallerPhase.reserved : CallerPhase → Nat
  | dialing => 1
  | _ => 0

/-- Where the leader of a recovery stands in `_recover_connection`. -/
inductive RecoveryPc
  /-- at the top of the loop body -/
  | check
  /-- about to call `_replace_connection` or `_connect_reserved_replacement` -/
  | dial
  /-- in `_new_connection` -/
  | dialing
  /-- with a new socket, before the flags are looked at again -/
  | dialed (newConn : Conn)
  /-- in `_resume_on_connection` or `_replay_unacked_input` -/
  | resuming (newConn : Conn)
  /-- behind the loop -/
  | cleanup
  /-- about to give the reservation or the connection back -/
  | giveBack
  /-- about to clear `_recovering` and publish the failure -/
  | failing
  deriving DecidableEq

/-- The local variables of the leader of a recovery. -/
structure Recovery where
  attempt : Nat
  current : Option Conn
  replacementReservationHeld : Bool
  pc : RecoveryPc

/-- The number of reserved slots a recovery holds: the one it dials with, or the one it believes to
have kept. -/
def Recovery.reserved (r : Recovery) : Nat :=
  if r.pc = .dialing ∨ r.replacementReservationHeld then 1 else 0

/-- The fields of `EngineWebSocketStreamSession` that the life of its connection depends on. -/
structure StreamTransport where
  opened : Bool
  conn : Conn
  generation : Nat
  transportFinished : Bool
  hardClosed : Bool
  recovering : Bool
  recoveryConn : Option Conn
  recoveryError : Bool
  terminalFailurePublished : Bool
  activeStreamResume : Bool
  resumeSupported : Option Bool
  /-- the leader of a recovery, if one is at work -/
  recovery : Option Recovery
  /-- the recovery sockets that calls of `close` have yet to discard -/
  closing : List Conn

namespace StreamTransport

/-- A session that was not opened. -/
def unopened : StreamTransport where
  opened := false
  conn := 0
  generation := 0
  transportFinished := false
  hardClosed := false
  recovering := false
  recoveryConn := none
  recoveryError := false
  terminalFailurePublished := false
  activeStreamResume := false
  resumeSupported := none
  recovery := none
  closing := []

variable (t : StreamTransport)

/-- A new session on the given connection. -/
def start (conn : Conn) (activeStreamResume : Bool) : StreamTransport :=
  { unopened with
    opened := true
    conn := conn
    activeStreamResume := activeStreamResume
    resumeSupported := if activeStreamResume then none else some false }

/-- The number of reserved slots of a session's recovery. -/
def reserved : Nat := t.recovery.elim 0 Recovery.reserved

/-- Whether the recovery loop and the attachment have to stop. -/
def stopped : Bool := t.hardClosed || t.transportFinished

/-- `_wait_until_sendable_locked` returns. -/
def sendable : Bool := t.opened && !t.recovering && !t.recoveryError && !t.stopped

/-- Whether a lost connection can be resumed. -/
def resumable (cfg : AdapterConfig) : Bool :=
  t.activeStreamResume && 0 < cfg.streamResumeAttempts && t.resumeSupported ≠ some false

/-- The local variables of the leader move on. -/
def setRecovery (r : Recovery) : StreamTransport := { t with recovery := some r }

/-- The flags that `_finish_transport_locked` sets. -/
def finish : StreamTransport := { t with transportFinished := true, recovering := false }

/-- The leader returns. -/
def endRecovery : StreamTransport := { t with recovering := false, recovery := none }

/-- `_conn` is replaced. -/
def attach (newConn : Conn) : StreamTransport :=
  { t.endRecovery with
    conn := newConn
    recoveryConn := none
    generation := t.generation + 1
    resumeSupported := some true
    recoveryError := false }

end StreamTransport

/-- Who can hold a lease. -/
inductive Owner (ι κ : Type)
  | caller (i : ι)
  | session (j : κ)
  deriving DecidableEq

/-- The adapter with its callers and sessions. -/
structure Adapter (ι κ : Type) where
  pool : ConnectionPool
  callers : ι → CallerPhase
  sessions : κ → StreamTransport
  lessee : Conn → Option (Owner ι κ)
  /-- the identity of the next socket and of the next token -/
  nextConn : Conn
  nextToken : Token

/-- What the network does to the part of a recovery behind the dial. -/
inductive ResumeError
  /-- `OSError`, `RawWebSocketError` or `TimeoutError` -/
  | lost
  /-- `StreamRecoveryError` or any other exception -/
  | definitive
  deriving DecidableEq

/-- What a caller does. -/
inductive CallerEvent
  | checkout
  | reserve (idleTarget : Nat)
  /-- one turn of the loop, run by a thread that is not asleep -/
  | turn (expired : Bool)
  /-- the `wait` times out -/
  | timeout
  | dialOk (createdAt : Int)
  | dialFailed (exc : DialError)
  /-- `_keepalive_once` takes an idle connection out for a probe -/
  | keepalive (conn : Conn)
  | release (settimeoutOk : Bool) (idleSince : Option Int) (now : Int)
  | discard

/-- What the threads of a session do. -/
inductive SessionEvent
  /-- `send_text`, `end`, `cancel` or another send of a caller -/
  | send
  /-- a delivery ack of the reader -/
  | ack
  /-- `update_playback_progress` -/
  | progress
  /-- a frame that settles whether the server supports resuming -/
  | frame (resumeSupported : Bool)
  /-- the reader handles the terminal event -/
  | terminal (reusable settimeoutOk : Bool) (now : Int)
  | recoverBegin
  | recoverCheck (deadlinePassed : Bool)
  | recoverDial
  | recoverDialOk (createdAt : Int)
  | recoverDialFailed (exc : DialError)
  | recoverAdopt
  /-- the resume request and the replayed input -/
  | resumeWrite
  | resumeOk
  | resumeFailed (err : ResumeError)
  | recoverCleanup
  | recoverGiveBack
  | recoverEnd
  | failTerminal
  /-- `_finish_transport(reusable=False)`, of `close` or of a `cancel` that could not be sent -/
  | hardStop
  /-- the first section of `close` -/
  | closeBegin
  /-- `close` discards the socket of the recovery -/
  | closeDiscard

/-- One critical section of some thread. -/
inductive AdapterEvent (ι κ : Type)
  | caller (i : ι) (e : CallerEvent)
  | session (j : κ) (e : SessionEvent)
  /-- `open_stream` hands the caller's connection to a new session -/
  | openStream (i : ι) (j : κ)
  | expire (now : Int)
  | close

namespace Adapter

variable {ι κ : Type} [DecidableEq ι] [DecidableEq κ] (cfg : AdapterConfig) (s : Adapter ι κ)

/-- A new adapter. -/
def new : Adapter ι κ where
  pool := .new
  callers _ := .idle
  sessions _ := .unopened
  lessee _ := none
  nextConn := 0
  nextToken := 0

/-- A caller moves on. -/
def setCaller (i : ι) (phase : CallerPhase) : Adapter ι κ :=
  { s with callers := Function.update s.callers i phase }

/-- A session moves on. -/
def setSession (j : κ) (t : StreamTransport) : Adapter ι κ :=
  { s with sessions := Function.update s.sessions j t }

/-- The pool moves on. -/
def setPool (p : ConnectionPool) : Adapter ι κ := { s with pool := p }

/-- A lease begins. -/
def lease (c : Conn) (o : Owner ι κ) : Adapter ι κ :=
  { s with lessee := Function.update s.lessee c (some o) }

/-- A lease ends. -/
def unlease (c : Conn) : Adapter ι κ := { s with lessee := Function.update s.lessee c none }

/-- `_release_connection`, with what `conn.settimeout` does. The lease ends if the pool keeps the
connection. -/
def releaseConnection (c : Conn) (settimeoutOk : Bool) (idleSince : Option Int) (now : Int) :
    Adapter ι κ :=
  if settimeoutOk then
    let p := s.pool.releaseConnection cfg c idleSince now
    if c ∈ p.connections then (s.setPool p).unlease c else s.setPool p
  else s.setPool (s.pool.discardConnection c)

/-! ## Callers -/

/-- A caller's thread is not blocked. -/
def awake (waiter : Option Token) : Bool := waiter.all fun w => !s.pool.asleep w

/-- What follows a turn of `_checkout_connection`. -/
def afterCheckout (i : ι) : CheckoutOutcome → Adapter ι κ
  | .leased c => (s.setCaller i (.leased c)).lease c (.caller i)
  | .reserved => s.setCaller i .dialing
  | .waits w => s.setCaller i (.checkout (some w))
  | .closed | .saturated | .timedOut => s.setCaller i .idle

/-- What follows a turn of `_reserve_new_connection`. -/
def afterReserve (i : ι) (idleTarget : Nat) : ReserveOutcome → Adapter ι κ
  | .reserved => s.setCaller i .dialing
  | .waits w => s.setCaller i (.reserve idleTarget (some w))
  | .closed | .unneeded | .saturated | .timedOut => s.setCaller i .idle

/-- The token that a turn may use up. -/
def useToken : Adapter ι κ := { s with nextToken := s.nextToken + 1 }

/-- One turn of a caller's loop. -/
def turn (i : ι) (expired : Bool) : Adapter ι κ :=
  match s.callers i with
  | .checkout waiter =>
      if s.awake waiter then
        let (p, outcome) := s.pool.checkoutTurn cfg waiter s.nextToken expired
        (s.useToken.setPool p).afterCheckout i outcome
      else s
  | .reserve target waiter =>
      if s.awake waiter then
        let (p, outcome) := s.pool.reserveTurn cfg target waiter s.nextToken expired
        (s.useToken.setPool p).afterReserve i target outcome
      else s
  | _ => s

/-- The `wait` of a caller times out. -/
def timeout (i : ι) : Adapter ι κ :=
  match s.callers i with
  | .checkout (some w) | .reserve _ (some w) => s.setPool (s.pool.wake w)
  | _ => s

/-- A handshake of a caller succeeds. -/
def callerDialOk (i : ι) (createdAt : Int) : Adapter ι κ :=
  let c := s.nextConn
  let (p, closed) := s.pool.newConnectionOk c createdAt
  let s := { s.setPool p with nextConn := c + 1 }
  if closed then s.setCaller i .idle else (s.setCaller i (.leased c)).lease c (.caller i)

/-- One event of a caller. -/
def callerStep (i : ι) : CallerEvent → Adapter ι κ
  | .checkout =>
      match s.callers i with
      | .idle => s.setCaller i (.checkout none)
      | _ => s
  | .reserve target =>
      match s.callers i with
      | .idle => s.setCaller i (.reserve target none)
      | _ => s
  | .turn expired => s.turn cfg i expired
  | .timeout => s.timeout i
  | .dialOk createdAt =>
      match s.callers i with
      | .dialing => s.callerDialOk i createdAt
      | _ => s
  | .dialFailed exc =>
      match s.callers i with
      | .dialing => (s.setPool (s.pool.newConnectionFailed true exc)).setCaller i .idle
      | _ => s
  | .keepalive c =>
      match s.callers i, s.pool.keepaliveTake c with
      | .idle, some p => ((s.setPool p).setCaller i (.leased c)).lease c (.caller i)
      | _, _ => s
  | .release settimeoutOk idleSince now =>
      match s.callers i with
      | .leased c => (s.releaseConnection cfg c settimeoutOk idleSince now).setCaller i .idle
      | _ => s
  | .discard =>
      match s.callers i with
      | .leased c => (s.setPool (s.pool.discardConnection c)).setCaller i .idle
      | _ => s

/-! ## Sessions -/

/-- `_finish_transport_locked`. -/
def finishTransport (j : κ) (reusable settimeoutOk : Bool) (now : Int) : Adapter ι κ :=
  let t := s.sessions j
  if t.transportFinished then s
  else
    let s := s.setSession j t.finish
    if reusable then s.releaseConnection cfg t.conn settimeoutOk none now
    else s.setPool (s.pool.discardConnection t.conn)

/-- `_fail_terminal`. -/
def failTerminal (j : κ) : Adapter ι κ :=
  let t := s.sessions j
  if t.opened = false ∨ t.terminalFailurePublished then s
  else
    (s.setSession j { t with terminalFailurePublished := true, recoveryError := true }).finishTransport
      cfg j false true 0

/-- The first section of `_recover_connection`. -/
def recoverBegin (j : κ) : Adapter ι κ :=
  let t := s.sessions j
  if t.opened = false ∨ t.stopped then s
  else if t.resumable cfg = false then s.setSession j { t with recoveryError := true }
  else if t.recovering then s
  else
    s.setSession j
      { t with
        recovering := true
        recovery := some ⟨0, some t.conn, false, .check⟩ }

/-- The check at the top of the loop body. -/
def recoverCheck (j : κ) (r : Recovery) (deadlinePassed : Bool) : Adapter ι κ :=
  let t := s.sessions j
  if cfg.streamResumeAttempts ≤ r.attempt ∨ t.stopped ∨ deadlinePassed then
    s.setSession j (t.setRecovery { r with pc := .cleanup })
  else s.setSession j (t.setRecovery { r with pc := .dial })

/-- `_replace_connection` or `_connect_reserved_replacement`, up to the dial. -/
def recoverDial (j : κ) (r : Recovery) : Adapter ι κ :=
  let t := s.sessions j
  match r.current with
  | some c =>
      match s.pool.replaceConnection c with
      | .error _ => s.setSession j (t.setRecovery { r with pc := .cleanup })
      | .ok p => (s.setPool p).setSession j (t.setRecovery { r with pc := .dialing })
  | none =>
      if r.replacementReservationHeld then
        s.setSession j (t.setRecovery { r with pc := .dialing })
      else s.setSession j (t.setRecovery { r with pc := .cleanup })

/-- `attempt + 1 < attempts`. -/
def moreAttempts (r : Recovery) : Bool := r.attempt + 1 < cfg.streamResumeAttempts

/-- The dial of a recovery succeeds. -/
def recoverDialOk (j : κ) (r : Recovery) (createdAt : Int) : Adapter ι κ :=
  let t := s.sessions j
  let c := s.nextConn
  let (p, closed) := s.pool.newConnectionOk c createdAt
  let s := { s.setPool p with nextConn := c + 1 }
  if closed then s.setSession j (t.setRecovery { r with pc := .cleanup })
  else
    (s.setSession j (t.setRecovery
      { r with current := some c, replacementReservationHeld := false, pc := .dialed c })).lease c
      (.session j)

/-- The dial of a recovery fails. What `_new_connection` does with the slot and what the handlers of
`_recover_connection` believe are decided separately. -/
def recoverDialFailed (j : κ) (r : Recovery) (exc : DialError) : Adapter ι κ :=
  let t := s.sessions j
  let s := s.setPool (s.pool.newConnectionFailed (!moreAttempts cfg r) exc)
  match exc with
  | .dialFailure =>
      s.setSession j (t.setRecovery
        ⟨r.attempt + 1, none, moreAttempts cfg r, .check⟩)
  | .other => s.setSession j (t.setRecovery { r with pc := .cleanup })
  -- no handler of `_recover_connection` catches it: the flags stay as they are
  | .interrupt => s.setSession j { t with recovery := none }

/-- The section behind the dial. -/
def recoverAdopt (j : κ) (r : Recovery) (newConn : Conn) : Adapter ι κ :=
  let t := s.sessions j
  if t.stopped then
    (s.setPool (s.pool.discardConnection newConn)).setSession j t.endRecovery
  else
    s.setSession j
      { t.setRecovery { r with pc := .resuming newConn } with recoveryConn := some newConn }

/-- The attachment of the resumed connection. -/
def resumeOk (j : κ) (newConn : Conn) : Adapter ι κ :=
  let t := s.sessions j
  if t.stopped then
    (s.setPool (s.pool.discardConnection newConn)).setSession j t.endRecovery
  else s.setSession j (t.attach newConn)

/-- A failure behind the dial. -/
def resumeFailed (j : κ) (r : Recovery) : ResumeError → Adapter ι κ
  | .lost =>
      s.setSession j ((s.sessions j).setRecovery { r with attempt := r.attempt + 1, pc := .check })
  | .definitive => s.setSession j ((s.sessions j).setRecovery { r with pc := .cleanup })

/-- The reservation or the connection is given back. -/
def recoverGiveBack (j : κ) (r : Recovery) : Adapter ι κ :=
  let t := s.sessions j
  let next := t.setRecovery { r with replacementReservationHeld := false, pc := .failing }
  if r.replacementReservationHeld then
    (s.setPool s.pool.releaseReservedReplacement).setSession j next
  else match r.current with
    | some c => (s.setPool (s.pool.discardConnection c)).setSession j next
    | none => s.setSession j next

/-- One event of a recovery. -/
def recoveryStep (j : κ) (r : Recovery) : SessionEvent → Adapter ι κ
  | .recoverCheck deadlinePassed =>
      if r.pc = .check then s.recoverCheck cfg j r deadlinePassed else s
  | .recoverDial => if r.pc = .dial then s.recoverDial j r else s
  | .recoverDialOk createdAt => if r.pc = .dialing then s.recoverDialOk j r createdAt else s
  | .recoverDialFailed exc => if r.pc = .dialing then s.recoverDialFailed cfg j r exc else s
  | .recoverAdopt =>
      match r.pc with
      | .dialed newConn => s.recoverAdopt j r newConn
      | _ => s
  | .resumeOk =>
      match r.pc with
      | .resuming newConn => s.resumeOk j newConn
      | _ => s
  | .resumeFailed err =>
      match r.pc with
      | .resuming _ => s.resumeFailed j r err
      | _ => s
  | .recoverCleanup =>
      if r.pc = .cleanup then
        s.setSession j
          { (s.sessions j).setRecovery { r with pc := .giveBack } with recoveryConn := none }
      else s
  | .recoverGiveBack => if r.pc = .giveBack then s.recoverGiveBack j r else s
  | .recoverEnd =>
      if r.pc = .failing then
        s.setSession j { (s.sessions j).endRecovery with recoveryError := true }
      else s
  | _ => s

/-- One event of a session. -/
def sessionStep (j : κ) (e : SessionEvent) : Adapter ι κ :=
  let t := s.sessions j
  match e with
  | .send | .ack | .progress | .resumeWrite => s
  | .frame supported =>
      if t.opened && !t.transportFinished && (supported || t.resumeSupported ≠ some true) then
        s.setSession j { t with resumeSupported := some supported }
      else s
  | .terminal reusable settimeoutOk now =>
      if t.opened then s.finishTransport cfg j reusable settimeoutOk now else s
  | .recoverBegin => s.recoverBegin cfg j
  | .failTerminal => s.failTerminal cfg j
  | .hardStop => if t.opened then s.finishTransport cfg j false true 0 else s
  | .closeBegin =>
      if t.opened && t.recovering then
        s.setSession j { t with hardClosed := true, closing := t.closing ++ t.recoveryConn.toList }
      else s
  | .closeDiscard =>
      match t.closing with
      | [] => s
      | c :: rest =>
          (s.setPool (s.pool.discardConnection c)).setSession j { t with closing := rest }
  | e =>
      match t.recovery with
      | none => s
      | some r => s.recoveryStep cfg j r e

/-- `open_stream`: the session is made on the caller's connection. -/
def openStream (i : ι) (j : κ) : Adapter ι κ :=
  match s.callers i, (s.sessions j).opened with
  | .leased c, false =>
      ((s.setCaller i .idle).setSession j (.start c cfg.activeStreamResume)).lease c (.session j)
  | _, _ => s

/-- One event. -/
def step : Adapter ι κ → AdapterEvent ι κ → Adapter ι κ
  | s, .caller i e => s.callerStep cfg i e
  | s, .session j e => s.sessionStep cfg j e
  | s, .openStream i j => s.openStream cfg i j
  | s, .expire now => s.setPool (s.pool.expireIdleConnections cfg now)
  | s, .close => s.setPool s.pool.close

/-- The connections that a session's event writes to, replaces, discards or closes. -/
def touches (j : κ) (e : SessionEvent) : List Conn :=
  let t := s.sessions j
  match e with
  | .send => if t.sendable then [t.conn] else []
  | .ack => if t.opened && !t.transportFinished then [t.conn] else []
  | .progress => if t.opened && !t.stopped then [t.conn] else []
  | .terminal .. | .hardStop => if t.opened && !t.transportFinished then [t.conn] else []
  | .failTerminal =>
      if t.opened && !t.terminalFailurePublished && !t.transportFinished then [t.conn] else []
  | .closeDiscard => t.closing.head?.toList
  | .recoverDial =>
      match t.recovery with
      | some r =>
          if r.pc = .dial ∧ s.pool.closed = false then
            (r.current.filter fun c => c ∈ s.pool.connections).toList
          else []
      | none => []
  | .recoverAdopt =>
      match t.recovery with
      | some ⟨_, _, _, .dialed c⟩ => if t.stopped then [c] else []
      | _ => []
  | .resumeWrite =>
      match t.recovery with
      | some ⟨_, _, _, .resuming c⟩ => [c]
      | _ => []
  | .resumeOk =>
      match t.recovery with
      | some ⟨_, _, _, .resuming c⟩ => if t.stopped then [c] else []
      | _ => []
  | .recoverGiveBack =>
      match t.recovery with
      | some r => if r.pc = .giveBack ∧ r.replacementReservationHeld = false then r.current.toList else []
      | none => []
  | .frame _ | .recoverBegin | .recoverCheck _ | .recoverDialOk _ | .recoverDialFailed _
  | .resumeFailed _ | .recoverCleanup | .recoverEnd | .closeBegin => []

end Adapter

end StreamingTts.Client
