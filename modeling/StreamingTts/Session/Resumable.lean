import StreamingTts.Lib.Transition
import StreamingTts.Session.Reliability

/-!
# Resumable logical sessions and their registry

`ResumableLogicalSession` and `ResumableSessionRegistry` of `engine/session/resumable.py`. No lock of
these classes is held over a suspension, so the locked part of every method is one step. What waits
in between is a step of its own: the pump taking the next output of the execution, the two expiry
tasks waking up, and the rest of `close` after the registration is gone.

A registry hands session objects to gateways. `SessionSlot` keeps with each object what the gateways
have of it: the start call that created it, the calls that found it, and the attachments they were
given and still hold.
-/

namespace StreamingTts.Session

open Lib (run)

/-- `ResumableSessionError`. -/
structure ResumableSessionError where
  code : String
  message : String
  deriving DecidableEq, Repr

/-- The error a `LedgerError` is re-raised as. -/
def ResumableSessionError.ofLedger (e : LedgerError) : ResumableSessionError :=
  ⟨e.code.text, e.message⟩

/-- The output pump of a session: reading outputs, done with the terminal one, stopped by an error
of the ledger, or cancelled when its session closed. -/
inductive PumpState
  | running
  | finished
  | stopped (e : LedgerError)
  | cancelled
  deriving DecidableEq, Repr

/-- `ResumableLogicalSession`: what a start binds to its token, the ledger, whether `ready` is set
and with which outcome, the pump, and which of its tasks are pending. -/
structure LogicalSession where
  token : String
  configFingerprint : String
  protocol : String
  ledger : DeliveryLedger
  ready : Bool
  initializationFailed : Bool
  pump : PumpState
  graceTask : Bool
  terminalTask : Bool
  closed : Bool

namespace LogicalSession

/-- A session object before its execution is started (`__init__`). -/
def init (limits : LedgerLimits) (token configFingerprint protocol : String) : LogicalSession where
  token := token
  configFingerprint := configFingerprint
  protocol := protocol
  ledger := .init limits
  ready := false
  initializationFailed := false
  pump := .running
  graceTask := false
  terminalTask := false
  closed := false

/-- `initialize`: the execution was started, or starting it raised. -/
def initializeWith (s : LogicalSession) (ok : Bool) : LogicalSession :=
  { s with ready := true, initializationFailed := !ok }

/-- `attach` behind `wait_ready`. The grace task is cancelled before the ledger is asked. -/
def attach (s : LogicalSession) (lastDeliverySeq audioThroughSample : Int) :
    Except ResumableSessionError Nat × LogicalSession :=
  if s.closed then
    (.error ⟨"resume_session_not_found", "resumable stream is no longer available"⟩, s)
  else
    match s.ledger.attach lastDeliverySeq audioThroughSample with
    | (.error e, ledger) => (.error (.ofLedger e), { s with graceTask := false, ledger })
    | (.ok generation, ledger) => (.ok generation, { s with graceTask := false, ledger })

/-- `detach`: the grace task of a session that is not terminal is armed anew. -/
def detach (s : LogicalSession) (generation : Nat) : Bool × LogicalSession :=
  match s.ledger.detach generation with
  | (detached, ledger) =>
      (detached, { s with
        ledger
        graceTask := if detached && ledger.terminal.isNone then true else s.graceTask })

/-- `acknowledge`. -/
def acknowledge (s : LogicalSession) (generation : Nat) (seq sample : Int) :
    Except ResumableSessionError Unit × LogicalSession :=
  match s.ledger.acknowledge generation seq sample with
  | (.error e, ledger) => (.error (.ofLedger e), { s with ledger })
  | (.ok (), ledger) => (.ok (), { s with ledger })

/-- `terminal_ack` up to the removal of the session, which follows if it returns. -/
def terminalAck (s : LogicalSession) (generation : Nat) (seq sample : Int) :
    Except ResumableSessionError Unit × LogicalSession :=
  match s.acknowledge generation seq sample with
  | (.error e, s') => (.error e, s')
  | (.ok (), s') =>
      match s'.ledger.terminalAck generation with
      | (.error e, ledger) => (.error (.ofLedger e), { s' with ledger })
      | (.ok (), ledger) => (.ok (), { s' with ledger })

/-- One turn of `_pump_outputs`: the next output of the execution is published. A ledger error stops
the pump; the terminal output is the last one and arms the terminal expiry. -/
def pumpOutput (jsonLen : SessionOutput → Nat) (s : LogicalSession) (output : SessionOutput) :
    LogicalSession :=
  match s.ledger.publish jsonLen output with
  | (.error e, ledger) => { s with ledger, pump := .stopped e }
  | (.ok _, ledger) =>
      { s with
        ledger
        pump := if (DeliveryLedger.terminalOf output).isSome then .finished else .running
        terminalTask := if ledger.terminal.isSome then true else s.terminalTask }

/-- The locked part of `close`. -/
def beginClose (s : LogicalSession) : LogicalSession :=
  { s with closed := true, graceTask := false, terminalTask := false }

/-- The rest of `close`, once the execution was cancelled: the ledger and the pump are released. -/
def finishClose (s : LogicalSession) (fence : Bool) : LogicalSession :=
  { s with
    ledger := (s.ledger.close fence).2
    pump := if s.pump = .running then .cancelled else s.pump }

end LogicalSession

/-- A session object with what the gateways hold of it: whether the start call that created it has
not attached yet, how many other calls have found it and not attached yet, and the generations
handed to handlers that have not given them back. -/
structure SessionSlot where
  session : LogicalSession
  starting : Bool
  visitors : Nat
  holders : List Nat

/-- Whether a call is in progress: the creating one (`first`) or one that found the session. -/
def SessionSlot.hasCall (slot : SessionSlot) (first : Bool) : Bool :=
  if first then slot.starting else 0 < slot.visitors

/-- The slot after such a call got to its attach. -/
def SessionSlot.endCall (slot : SessionSlot) (first : Bool) : SessionSlot :=
  if first then { slot with starting := false } else { slot with visitors := slot.visitors - 1 }

/-- The slot after the attach of such a call, whose generation the caller then holds. -/
def SessionSlot.attach (slot : SessionSlot) (first : Bool) (seq sample : Int) : SessionSlot :=
  match slot.session.attach seq sample with
  | (.error _, session) => { slot.endCall first with session }
  | (.ok generation, session) =>
      { slot.endCall first with session, holders := generation :: slot.holders }

/-- `ResumableSessionRegistry`: every session object ever created, and the registered one of each
token. -/
structure Registry where
  limits : LedgerLimits
  slots : Nat → SessionSlot
  created : Nat
  registered : String → Option Nat

namespace Registry

/-- An empty registry. -/
def init (limits : LedgerLimits) : Registry where
  limits := limits
  slots := fun _ => ⟨.init limits "" "" "", false, 0, []⟩
  created := 0
  registered := fun _ => none

/-- The registry with another slot for the session `id`. -/
@[simps -fullyApplied]
def setSlot (r : Registry) (id : Nat) (slot : SessionSlot) : Registry :=
  { r with slots := Function.update r.slots id slot }

/-- The registry with another state of the session `id`. -/
def setSession (r : Registry) (id : Nat) (session : LogicalSession) : Registry :=
  r.setSlot id { r.slots id with session }

/-- `claim_start` up to the initialization of a session it creates. -/
def claimStart (r : Registry) (token configFingerprint protocol : String) :
    Except ResumableSessionError (Nat × Bool) × Registry :=
  if token = "" then (.error ⟨"invalid_resume_token", "resume token is required"⟩, r)
  else
    match r.registered token with
    | some id =>
        let current := r.slots id
        if current.session.configFingerprint ≠ configFingerprint ∨
            current.session.protocol ≠ protocol then
          (.error ⟨"resume_token_conflict",
            "resume token is already bound to another logical session"⟩, r)
        else (.ok (id, false), r.setSlot id { current with visitors := current.visitors + 1 })
    | none =>
        let session := LogicalSession.init r.limits token configFingerprint protocol
        (.ok (r.created, true),
          { r with
            slots := Function.update r.slots r.created ⟨session, true, 0, []⟩
            created := r.created + 1
            registered := Function.update r.registered token (some r.created) })

/-- `find`. -/
def find (r : Registry) (token protocol : String) :
    Except ResumableSessionError Nat × Registry :=
  let notFound : ResumableSessionError :=
    ⟨"resume_session_not_found", "resumable stream is no longer available"⟩
  match r.registered token with
  | none => (.error notFound, r)
  | some id =>
      let current := r.slots id
      if current.session.protocol ≠ protocol then (.error notFound, r)
      else (.ok id, r.setSlot id { current with visitors := current.visitors + 1 })

/-- `remove` with the locked part of the `close` it runs. -/
def remove (r : Registry) (id : Nat) : Registry :=
  let session := (r.slots id).session
  if r.registered session.token = some id then
    { r.setSession id session.beginClose with
      registered := Function.update r.registered session.token none }
  else r

/-- What happens to a registry: calls of the gateways, turns of the pumps, and the expiry tasks. -/
inductive Op
  /-- A start call reaches `claim_start`. -/
  | claimStart (token configFingerprint protocol : String)
  /-- A resume call reaches `find`. -/
  | find (token protocol : String)
  /-- The initialization of a created session returns or raises. -/
  | initialized (id : Nat) (ok : Bool)
  /-- A call attaches: the creating one (`first`) or one that found the session. -/
  | attach (id : Nat) (first : Bool) (lastDeliverySeq audioThroughSample : Int)
  /-- A call that found the session ends without an attach. -/
  | giveUp (id : Nat)
  /-- A handler gives its attachment back. -/
  | detach (id generation : Nat)
  /-- A handler drops its attachment and never detaches it. -/
  | abandon (id generation : Nat)
  /-- The pump takes an output of the execution: progress, or the terminal of its end, of a
  cancellation or of a failure. -/
  | output (id : Nat) (payload : SessionOutput)
  | acknowledge (id generation : Nat) (seq sample : Int)
  | terminalAck (id generation : Nat) (seq sample : Int)
  | read (id generation : Nat)
  /-- The grace task wakes up (`expire_detached`). -/
  | graceExpires (id : Nat)
  /-- The terminal task wakes up (`schedule_terminal_expiry`). -/
  | terminalExpires (id : Nat)
  /-- A removed session's `close` gets to its ledger. -/
  | closeFinishes (id : Nat) (fence : Bool)
  deriving DecidableEq, Repr

/-- `initialize` in `claim_start`: a session that could not be started is removed again. -/
def initialized (r : Registry) (id : Nat) (ok : Bool) : Registry :=
  let slot := r.slots id
  if slot.starting ∧ slot.session.ready = false then
    let r' := r.setSlot id
      { slot with session := slot.session.initializeWith ok, starting := ok }
    if ok then r' else r'.remove id
  else r

/-- The attach of a call that is in progress on a session that is ready. -/
def attach (r : Registry) (id : Nat) (first : Bool) (seq sample : Int) : Registry :=
  let slot := r.slots id
  if slot.session.ready = true ∧ slot.session.initializationFailed = false ∧
      slot.hasCall first = true then
    r.setSlot id (slot.attach first seq sample)
  else r

/-- `expire_detached` after its sleep. -/
def graceExpires (r : Registry) (id : Nat) : Registry :=
  let session := (r.slots id).session
  if session.graceTask then
    let r' := r.setSession id { session with graceTask := false }
    if session.ledger.hasAttachment then r' else r'.remove id
  else r

/-- The task of `schedule_terminal_expiry` after its sleep. -/
def terminalExpires (r : Registry) (id : Nat) : Registry :=
  let session := (r.slots id).session
  if session.terminalTask then
    (r.setSession id { session with terminalTask := false }).remove id
  else r

/-- The state after one operation. -/
def step (jsonLen : SessionOutput → Nat) (r : Registry) : Op → Registry
  | .claimStart token configFingerprint protocol =>
      (r.claimStart token configFingerprint protocol).2
  | .find token protocol => (r.find token protocol).2
  | .initialized id ok => r.initialized id ok
  | .attach id first seq sample => r.attach id first seq sample
  | .giveUp id => r.setSlot id { r.slots id with visitors := (r.slots id).visitors - 1 }
  | .detach id generation =>
      r.setSlot id { r.slots id with
        session := ((r.slots id).session.detach generation).2
        holders := (r.slots id).holders.erase generation }
  | .abandon id generation =>
      r.setSlot id { r.slots id with holders := (r.slots id).holders.erase generation }
  | .output id payload =>
      let session := (r.slots id).session
      if session.ready = true ∧ session.initializationFailed = false ∧ session.pump = .running then
        r.setSession id (session.pumpOutput jsonLen payload)
      else r
  | .acknowledge id generation seq sample =>
      r.setSession id ((r.slots id).session.acknowledge generation seq sample).2
  | .terminalAck id generation seq sample =>
      match (r.slots id).session.terminalAck generation seq sample with
      | (.error _, session) => r.setSession id session
      | (.ok (), session) => (r.setSession id session).remove id
  | .read id generation =>
      let session := (r.slots id).session
      r.setSession id { session with
        ledger := session.ledger.step jsonLen (.read generation) }
  | .graceExpires id => r.graceExpires id
  | .terminalExpires id => r.terminalExpires id
  | .closeFinishes id fence =>
      let session := (r.slots id).session
      if session.closed then r.setSession id (session.finishClose fence) else r

end Registry

end StreamingTts.Session
