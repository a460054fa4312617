import StreamingTts.Client.RealtimeDelivery
import StreamingTts.Session.ReplayWindow

/-!
# The Realtime gateway projects a ledger for its client

`_run_reliable_response`, `_observe_reliable_output` and `_finish_response` of
`engine/gateway/openai_realtime.py`, with the pump of the logical session that fills the ledger
(`_pump_outputs` of `engine/session/resumable.py`) and the reader of the Python client. A message of the
ledger becomes events of the wire, and only the event of a numbered output carries the number of its
delivery; `response.done` takes it from `terminal_delivery_seq`, which only a projected terminal sets.

The observer of the pump runs before the projection can take the output, since nothing is awaited
between the two; a publication and its observation are one event here. The usage of a response and its
diagnostic metadata are parameters.
-/

namespace StreamingTts.Gateway

open Session Session.DeliveryLedger Lib Client.Realtime

namespace Realtime

/-- The fields of `_ResponseState` that the projection of a resumable response works on. -/
structure ResponseState where
  responseId : String
  sampleRate : Int
  audioSamples : Int
  finished : Bool
  /-- `terminal_status`, `none` for the empty text -/
  terminalStatus : Option TerminalStatus
  terminalFailureMessage : String
  terminalCancellationReason : String
  terminalUsage : List (String × String)
  terminalDeliverySeq : Int
  deriving DecidableEq, Repr

/-- A new `_ResponseState`. -/
def ResponseState.init (responseId : String) (sampleRate : Int) : ResponseState where
  responseId := responseId
  sampleRate := sampleRate
  audioSamples := 0
  finished := false
  terminalStatus := none
  terminalFailureMessage := ""
  terminalCancellationReason := ""
  terminalUsage := []
  terminalDeliverySeq := 0

section
variable (usage : ResponseState → List (String × String))
  (diagnostics : ResponseState → List (String × String))

namespace ResponseState

/-- `_observe_reliable_output`. -/
def observeReliableOutput (st : ResponseState) : SessionOutput → ResponseState
  | .audio o => { st with audioSamples := max st.audioSamples o.outputSampleEnd }
  | .terminal o =>
      { st with
        terminalStatus := some o.status
        terminalFailureMessage :=
          if o.status = .failed then o.message else st.terminalFailureMessage
        terminalCancellationReason :=
          if o.status = .cancelled then (if o.message = "" then "client_cancelled" else o.message)
          else st.terminalCancellationReason
        terminalUsage := usage st }
  | _ => st

/-- `_response_payload` of a response that has ended. -/
def responsePayload (st : ResponseState) (status : TerminalStatus) (failureMessage : String) :
    ResponseObject where
  id := st.responseId
  status := status
  failure :=
    if status = .failed then
      (if failureMessage = "" then "engine synthesis failed" else failureMessage)
    else ""
  usage := if st.terminalUsage = [] then usage st else st.terminalUsage
  metadata :=
    [("qwen_final_output_sample", toString st.audioSamples),
      ("qwen_output_sample_rate", toString st.sampleRate)] ++ diagnostics st

/-- `_finish_response`: the events it sends, and the state it leaves. -/
def finishResponse (st : ResponseState) (status : TerminalStatus) (failureMessage : String) :
    List ServerEvent × ResponseState :=
  if st.finished then ([], st)
  else
    ([.other "response.output_audio.done", .other "response.content_part.done",
      .other "response.output_item.done",
      .responseDone (st.responsePayload usage diagnostics status failureMessage)
        (some st.terminalDeliverySeq) (some st.audioSamples)],
      { st with finished := true })

/-- The kind of a text event that the protocol has a type for. -/
def textEventKind (eventType : String) : Option TextEventKind :=
  if eventType = "text_token" then some .textToken
  else if eventType = "text_boundary_commit" then some .textBoundaryCommit
  else if eventType = "text_progress" then some .textProgress
  else none

/-- The branch of `_run_reliable_response` for a terminal output. -/
def projectTerminal (st : ResponseState) (r : ReliableDelivery) (o : TerminalOutput) :
    List ServerEvent × ResponseState :=
  let status := st.terminalStatus.getD o.status
  let message :=
    if st.terminalFailureMessage ≠ "" then st.terminalFailureMessage
    else if o.message ≠ "" then o.message
    else "engine synthesis failed"
  let warning := if status = .failed then [ServerEvent.error "synthesis_failed" message] else []
  let (events, st) := { st with terminalDeliverySeq := r.deliverySeq }.finishResponse usage
    diagnostics status st.terminalFailureMessage
  (warning ++ events, st)

/-- The body of the loop in `_run_reliable_response`: the events a message becomes, the state it
leaves, and whether the loop goes on. -/
def project (st : ResponseState) : LedgerMessage → List ServerEvent × ResponseState × Bool
  | .fence _ => ([], st, false)
  | .failure e =>
      let (events, st) := st.finishResponse usage diagnostics .failed e.message
      (.error e.code.text e.message :: events, st, false)
  | .delivery r =>
      match r.payload with
      | .started _ => ([.delivery (some r.deliverySeq) (some r.endSample)], st, true)
      | .audio o =>
          ([.audioDelta (some o.pcmBytes) (some r.deliverySeq) (some r.startSample)
            (some r.endSample)], st, true)
      | .event o =>
          match textEventKind o.eventType with
          | some kind =>
              ([.text kind o.segmentId o.text o.metaMap (some r.deliverySeq) (some r.endSample)],
                st, true)
          | none => ([.sessionEvent (some r.deliverySeq) (some r.endSample)], st, true)
      | .terminal o =>
          let (events, st) := st.projectTerminal usage diagnostics r o
          (events, st, false)

end ResponseState

/-! ## The client at the other end -/

/-- How the reader of the client comes out of a number of events. -/
inductive ReaderOutcome
  | reading
  | ended
  | raised (e : ProtocolError)
  deriving DecidableEq, Repr

/-- The reader handles events until one of them ends it. -/
def receive (client : StreamReader) : List ServerEvent → StreamReader × ReaderOutcome
  | [] => (client, .reading)
  | e :: es =>
      match client.handleEvent e with
      | .error err => (client, .raised err)
      | .ok (true, client) => (client, .ended)
      | .ok (false, client) => receive client es

/-- How many of the events are `response.done`. -/
def doneEvents (events : List ServerEvent) : Nat :=
  events.countP fun
    | .responseDone .. => true
    | _ => false

/-- A resumable response between the ledger and the client. `handled` and `dones` are histories:
the deliveries whose events reached the client, each with the client's cursor behind them, and the
number of `response.done` that reached it. -/
structure Exchange where
  ledger : DeliveryLedger
  /-- the generation of the attachment that the gateway projects -/
  generation : Nat
  /-- `_pump_outputs` is running -/
  pumping : Bool
  state : ResponseState
  /-- `_run_reliable_response` is running -/
  projecting : Bool
  /-- the connection is there -/
  connected : Bool
  client : StreamReader
  outcome : ReaderOutcome
  handled : List (ReliableDelivery × (Int × Int))
  dones : Nat

/-- What happens next. -/
inductive ExchangeEvent
  /-- the pump publishes the next output of the session -/
  | publish (payload : SessionOutput)
  /-- an acknowledgement reaches the gateway -/
  | acknowledge (seq sample : Int)
  /-- the gateway projects the next message, and the client reads its events -/
  | project
  /-- the connection is lost -/
  | lose
  /-- the gateway projects the next message into a lost connection -/
  | projectLost
  /-- the client resumes from its cursor -/
  | resume
  deriving DecidableEq, Repr

variable (jsonLen : SessionOutput → Nat)

namespace Exchange

/-- A response that was just created, with its first attachment. -/
def init (limits : LedgerLimits) (ackInterval : Nat) (responseId : String) (sampleRate : Int) :
    Exchange where
  ledger := ((DeliveryLedger.init limits).attach 0 0).2
  generation := 1
  pumping := true
  state := .init responseId sampleRate
  projecting := true
  connected := true
  client := .init true ackInterval
  outcome := .reading
  handled := []
  dones := 0

/-- The messages that wait in the queue of the attachment. -/
def pending (x : Exchange) : List LedgerMessage := (x.ledger.queues x.generation).waiting

/-- Whether an output is the last one. -/
def isTerminal : SessionOutput → Bool
  | .terminal _ => true
  | _ => false

/-- `_pump_outputs` with one output. -/
def publishNext (x : Exchange) (payload : SessionOutput) : Exchange :=
  match x.ledger.publish jsonLen payload with
  | (.error _, ledger) => { x with ledger := ledger, pumping := false }
  | (.ok _, ledger) =>
      { x with
        ledger := ledger
        pumping := !isTerminal payload
        state := x.state.observeReliableOutput usage payload }

/-- The next message of the queue was taken. -/
def take (x : Exchange) : Exchange :=
  { x with
    ledger := x.ledger.setQueues
      (Function.update x.ledger.queues x.generation (x.ledger.queues x.generation).take) }

/-- The deliveries that the client has handled, with one more message. -/
def handledWith (x : Exchange) (m : LedgerMessage) (cursor : Int × Int) :
    List (ReliableDelivery × (Int × Int)) :=
  match m with
  | .delivery r => x.handled ++ [(r, cursor)]
  | _ => x.handled

/-- The gateway projects a message and the client reads its events. -/
def projectNext (x : Exchange) (m : LedgerMessage) : Exchange :=
  let (events, state, running) := x.state.project usage diagnostics m
  let (client, outcome) := receive x.client events
  { x.take with
    state := state
    projecting := running
    client := client
    outcome := outcome
    handled := x.handledWith m client.cursor
    dones := x.dones + doneEvents events }

/-- `_resume_response`, from the cursor of the client. -/
def resumeFrom (x : Exchange) : Exchange :=
  match x.ledger.attach x.client.lastDeliverySeq x.client.audioThroughSample with
  | (.error _, ledger) => { x with ledger := ledger }
  | (.ok generation, ledger) =>
      { x with
        ledger := ledger
        generation := generation
        state := { x.state with finished := false }
        projecting := true
        connected := true }

/-- One event. -/
def step (x : Exchange) : ExchangeEvent → Exchange
  | .publish payload => if x.pumping then x.publishNext usage jsonLen payload else x
  | .acknowledge seq sample =>
      { x with ledger := (x.ledger.acknowledge x.generation seq sample).2 }
  | .project =>
      if x.connected ∧ x.projecting ∧ x.outcome = .reading then
        match x.pending with
        | [] => x
        | m :: _ => x.projectNext usage diagnostics m
      else x
  | .lose => { x with connected := false }
  | .projectLost =>
      if ¬ x.connected ∧ x.projecting then
        match x.pending with
        | [] => x
        | m :: _ =>
            let (_, state, running) := x.state.project usage diagnostics m
            { x.take with state := state, projecting := running }
      else x
  | .resume => if ¬ x.connected ∧ x.outcome = .reading then x.resumeFrom else x

/-- The client's cursor followed every delivery to its number and its end, one by one; the reader
raised nothing; and every `response.done` ended it with exactly one terminal message. -/
structure Agrees (x : Exchange) : Prop where
  followed : ∀ p ∈ x.handled, p.2 = (p.1.deliverySeq, p.1.endSample)
  consecutive : x.handled.map (·.1.deliverySeq)
    = (List.range x.handled.length).map fun i : Nat => 1 + (i : Int)
  no_error : ∀ e, x.outcome ≠ .raised e
  done : x.dones = x.client.terminals ∧ x.dones ≤ 1 ∧ (0 < x.dones → x.outcome = .ended)

/-- An audio output has bytes, and they are 16-bit samples of one channel. -/
def PlainAudio : SessionOutput → Prop
  | .audio o => o.pcmBytes ≠ [] ∧ sampleWidth o.audio.encoding = some 2 ∧ o.audio.channels ≤ 1
  | _ => True

/-- The event keeps the agreement: a published audio output has bytes of the response's format, and
no publication runs out of the replay window while the attachment is read. -/
def Clean (x : Exchange) : ExchangeEvent → Prop
  | .publish payload =>
      x.pumping → PlainAudio payload ∧ (x.connected → ¬ x.ledger.Exceeds jsonLen payload)
  | _ => True

instance (payload : SessionOutput) : Decidable (PlainAudio payload) := by
  cases payload <;> unfold PlainAudio <;> infer_instance

instance (x : Exchange) (e : ExchangeEvent) : Decidable (x.Clean jsonLen e) := by
  cases e <;> unfold Clean <;> infer_instance

end Exchange

end

end Realtime

end StreamingTts.Gateway
