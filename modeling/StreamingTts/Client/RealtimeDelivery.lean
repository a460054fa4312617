import Mathlib.Data.List.Basic
import StreamingTts.Session.Types

/-!
# How a Realtime stream session takes the events of its server

`OpenAIRealtimeStreamSession` of `client/src/qwen3tts/_adapters/openai_realtime.py`, as far as its
reader goes: `_handle_event`, `_begin_delivery`, `_commit_delivery`, `_send_delivery_ack` and
`_handle_text_ack`. A missing field of an event is `none`, and the Base64 text of an audio delta is
the bytes it decodes to, or `none` if it does not decode. Every handler checks before it changes
anything, so one that raises returns its error alone. `acks` are the acknowledgements that were
written, and `messages` what was put into the queue of the application.
-/

namespace StreamingTts.Client

open Session (TerminalStatus)

namespace Realtime

/-- The text events of the protocol that carry a delivery number. -/
inductive TextEventKind
  | textToken
  | textBoundaryCommit
  | textProgress
  deriving DecidableEq, Repr

/-- The `type` of the message a text event becomes. -/
def TextEventKind.name : TextEventKind → String
  | .textToken => "text_token"
  | .textBoundaryCommit => "text_boundary_commit"
  | .textProgress => "text_progress"

/-- The object `response` of a `response.done`. -/
structure ResponseObject where
  id : String
  status : TerminalStatus
  /-- `status_details.error.message` -/
  failure : String
  usage : List (String × String)
  metadata : List (String × String)
  deriving DecidableEq, Repr

/-- An event of the server, with the fields that the session reads. -/
inductive ServerEvent
  | responseCreated (responseId : String)
  | textAck (sequence : Int)
  /-- `qwen.response.delivery` -/
  | delivery (seq sampleEnd : Option Int)
  /-- `qwen.session.event` -/
  | sessionEvent (seq sampleEnd : Option Int)
  | audioDelta (delta : Option (List UInt8)) (seq sampleStart sampleEnd : Option Int)
  | error (code message : String)
  | text (kind : TextEventKind) (segmentId : Int) (text : String) (metaMap : List (String × String))
      (seq sampleEnd : Option Int)
  | responseDone (response : ResponseObject) (seq sampleEnd : Option Int)
  /-- any other `type` -/
  | other (type : String)
  deriving DecidableEq, Repr

/-- A message of the session to its application. -/
inductive StreamMessage
  | audio (pcmBytes : List UInt8) (chunkIndex : Nat) (sampleStart sampleEnd : Int) (responseId : String)
  | start (responseId : String)
  | warning (code message responseId : String)
  | text (kind : TextEventKind) (segmentId : Int) (text : String) (metaMap : List (String × String))
      (responseId : String)
  /-- `done`, or `error` if `failed` is set -/
  | terminal (failed : Bool) (message : String) (response : ResponseObject) (finalOutputSample : Int)
  deriving DecidableEq, Repr

/-- Whether a message is the last one of its session. -/
def StreamMessage.isTerminal : StreamMessage → Bool
  | .terminal .. => true
  | _ => false

/-- An acknowledgement that the session writes (`qwen.response.ack` or `qwen.response.terminal_ack`). -/
structure DeliveryAck where
  terminal : Bool
  throughDeliverySeq : Int
  audioThroughSample : Int
  deriving DecidableEq, Repr

/-- The `ProtocolError`s of the reader. -/
inductive ProtocolError
  | missingDeliverySequence
  | deliveryGap (expected got : Int)
  | invalidBase64
  | notContiguous
  | textAckOutOfRange
  deriving DecidableEq, Repr

/-- The text of a `ProtocolError`. -/
def ProtocolError.message : ProtocolError → String
  | .missingDeliverySequence => "resumable Realtime event is missing delivery sequence"
  | .deliveryGap expected got =>
      "Realtime delivery gap: expected " ++ toString expected ++ ", got " ++ toString got
  | .invalidBase64 => "invalid Base64 Realtime audio delta"
  | .notContiguous => "Realtime audio sample cursor is not contiguous"
  | .textAckOutOfRange => "Realtime text ACK is outside the sent sequence range"

/-- The fields of a session that its reader works on. -/
structure StreamReader where
  resumeSupported : Bool
  streamResumeAckInterval : Nat
  lastDeliverySeq : Int
  audioThroughSample : Int
  audioSampleCursor : Int
  deliveriesSinceAck : Nat
  chunkIndex : Nat
  responseId : String
  responseStatus : Option TerminalStatus
  responseTerminal : Bool
  terminalAckSent : Bool
  lastError : String
  usage : List (String × String)
  nextSequence : Int
  ackedTextSeq : Int
  textJournal : List (Int × String)
  messages : List StreamMessage
  acks : List DeliveryAck
  deriving DecidableEq, Repr

namespace StreamReader

/-- The reader of a new session. -/
def init (resumeSupported : Bool) (streamResumeAckInterval : Nat) : StreamReader where
  resumeSupported := resumeSupported
  streamResumeAckInterval := streamResumeAckInterval
  lastDeliverySeq := 0
  audioThroughSample := 0
  audioSampleCursor := 0
  deliveriesSinceAck := 0
  chunkIndex := 0
  responseId := ""
  responseStatus := none
  responseTerminal := false
  terminalAckSent := false
  lastError := ""
  usage := []
  nextSequence := 1
  ackedTextSeq := 0
  textJournal := []
  messages := []
  acks := []

variable (s : StreamReader)

/-- `_put_message`. -/
def putMessage (m : StreamMessage) : StreamReader := { s with messages := s.messages ++ [m] }

/-- `_begin_delivery`: the number of a delivery that is next, `none` for one that was taken before. -/
def beginDelivery (seq : Option Int) : Except ProtocolError (Option Int) :=
  match seq with
  | none => if s.resumeSupported then .error .missingDeliverySequence else .ok none
  | some seq =>
      if seq ≤ s.lastDeliverySeq then .ok none
      else if seq ≠ s.lastDeliverySeq + 1 then .error (.deliveryGap (s.lastDeliverySeq + 1) seq)
      else .ok (some seq)

/-- `_send_delivery_ack`. -/
def sendDeliveryAck (terminal : Bool) : StreamReader :=
  if s.resumeSupported then
    { s with
      acks := s.acks ++ [⟨terminal, s.lastDeliverySeq, s.audioThroughSample⟩]
      terminalAckSent := terminal || s.terminalAckSent
      deliveriesSinceAck := 0 }
  else s

/-- The cursor moves to a delivery. -/
def advance (seq audioSample : Int) : StreamReader :=
  { s with lastDeliverySeq := seq, audioThroughSample := audioSample }

/-- One more delivery waits for its acknowledgement. -/
def countDelivery : StreamReader := { s with deliveriesSinceAck := s.deliveriesSinceAck + 1 }

/-- `_commit_delivery`. -/
def commitDelivery (seq audioSample : Int) (terminal : Bool) : StreamReader :=
  if terminal then (s.advance seq audioSample).sendDeliveryAck true
  else if s.deliveriesSinceAck + 1 ≥ s.streamResumeAckInterval then
    (s.advance seq audioSample).countDelivery.sendDeliveryAck false
  else (s.advance seq audioSample).countDelivery

/-- `_commit_delivery` of a delivery that `_begin_delivery` has let through. -/
def commitNext (seq : Option Int) (audioSample : Int) (terminal : Bool) : StreamReader :=
  match seq with
  | none => s
  | some seq => s.commitDelivery seq audioSample terminal

/-- Whether the handler of a delivery that carries a message gives up: the delivery is an old one. -/
def skips (seq : Option Int) : Bool := s.resumeSupported && seq.isNone

/-- The branches of `_handle_event` for a delivery without a message. -/
def handleDelivery (seq sampleEnd : Option Int) : Except ProtocolError StreamReader :=
  match s.beginDelivery seq with
  | .error e => .error e
  | .ok next => .ok (s.commitNext next (sampleEnd.getD s.audioThroughSample) false)

/-- The branch for `response.output_audio.delta`. -/
def handleAudioDelta (delta : Option (List UInt8)) (seq sampleStart sampleEnd : Option Int) :
    Except ProtocolError StreamReader :=
  match s.beginDelivery seq with
  | .error e => .error e
  | .ok next =>
      if s.skips next then .ok s
      else
        match delta with
        | none => .error .invalidBase64
        | some [] => .ok s
        | some pcm =>
            let start := sampleStart.getD s.audioSampleCursor
            let expectedEnd := start + (pcm.length / 2 : Nat)
            let stop := sampleEnd.getD expectedEnd
            if start ≠ s.audioSampleCursor ∨ stop ≠ expectedEnd then .error .notContiguous
            else
              let taken := { s with audioSampleCursor := stop, chunkIndex := s.chunkIndex + 1 }
              let queued := taken.putMessage (.audio pcm taken.chunkIndex start stop s.responseId)
              .ok (queued.commitNext next stop false)

/-- The branch for the text events. -/
def handleText (kind : TextEventKind) (segmentId : Int) (text : String)
    (metaMap : List (String × String)) (seq sampleEnd : Option Int) :
    Except ProtocolError StreamReader :=
  match s.beginDelivery seq with
  | .error e => .error e
  | .ok next =>
      if s.skips next then .ok s
      else
        let queued := s.putMessage (.text kind segmentId text metaMap s.responseId)
        .ok (queued.commitNext next (sampleEnd.getD s.audioThroughSample) false)

/-- The branch for `response.done`: whether the reader ends. -/
def handleDone (response : ResponseObject) (seq sampleEnd : Option Int) :
    Except ProtocolError (Bool × StreamReader) :=
  match s.beginDelivery seq with
  | .error e => .error e
  | .ok next =>
      if s.skips next then .ok (false, s)
      else
        let message := if response.failure = "" then s.lastError else response.failure
        let done :=
          { s with
            responseId := if response.id = "" then s.responseId else response.id
            responseStatus := some response.status
            responseTerminal := true
            usage := response.usage }
        let queued := done.putMessage
          (.terminal (response.status = .failed) message response s.audioSampleCursor)
        .ok (true, queued.commitNext next (sampleEnd.getD s.audioSampleCursor) true)

/-- `_handle_text_ack`. -/
def handleTextAck (sequence : Int) : Except ProtocolError StreamReader :=
  if sequence < s.ackedTextSeq ∨ sequence ≥ s.nextSequence then .error .textAckOutOfRange
  else
    .ok
      { s with
        ackedTextSeq := sequence
        textJournal := s.textJournal.dropWhile fun entry => entry.1 ≤ sequence }

/-- A branch after which the reader goes on. -/
def goOn : Except ProtocolError StreamReader → Except ProtocolError (Bool × StreamReader)
  | .error e => .error e
  | .ok s => .ok (false, s)

/-- `_handle_event`: whether the reader ends. -/
def handleEvent : ServerEvent → Except ProtocolError (Bool × StreamReader)
  | .responseCreated id =>
      if s.responseId ≠ "" ∧ id = s.responseId then .ok (false, s)
      else .ok (false, { s with responseId := id }.putMessage (.start id))
  | .textAck sequence => goOn (s.handleTextAck sequence)
  | .delivery seq sampleEnd => goOn (s.handleDelivery seq sampleEnd)
  | .sessionEvent seq sampleEnd => goOn (s.handleDelivery seq sampleEnd)
  | .audioDelta delta seq sampleStart sampleEnd =>
      goOn (s.handleAudioDelta delta seq sampleStart sampleEnd)
  | .error code message =>
      .ok (false, { s with lastError := message }.putMessage (.warning code message s.responseId))
  | .text kind segmentId text metaMap seq sampleEnd =>
      goOn (s.handleText kind segmentId text metaMap seq sampleEnd)
  | .responseDone response seq sampleEnd => s.handleDone response seq sampleEnd
  | .other _ => .ok (false, s)

/-! ## What a delivery does to the cursor -/

/-- The cursor from which the session would resume. -/
def cursor : Int × Int := (s.lastDeliverySeq, s.audioThroughSample)

/-- How many messages that end a session were put into the queue. -/
def terminals : Nat := s.messages.countP StreamMessage.isTerminal

section
variable {s}

/-- `q` is `s` with its cursor at `c`, and some acknowledgements may have been written. -/
structure MovedTo (s : StreamReader) (c : Int × Int) (q : StreamReader) : Prop where
  cursor : q.cursor = c
  audio : q.audioSampleCursor = s.audioSampleCursor
  messages : q.messages = s.messages
  resumeSupported : q.resumeSupported = s.resumeSupported

theorem sendDeliveryAck_moved (terminal : Bool) : s.MovedTo s.cursor (s.sendDeliveryAck terminal) := by
  unfold sendDeliveryAck
  split
  · exact ⟨rfl, rfl, rfl, rfl⟩
  · exact ⟨rfl, rfl, rfl, rfl⟩

/-- A committed delivery is where the session resumes from. -/
theorem commitDelivery_moved (seq sample : Int) (terminal : Bool) :
    s.MovedTo (seq, sample) (s.commitDelivery seq sample terminal) := by
  unfold commitDelivery
  split
  · obtain ⟨hcursor, haudio, hmessages, hresume⟩ :=
      sendDeliveryAck_moved (s := s.advance seq sample) true
    exact ⟨hcursor, haudio, hmessages, hresume⟩
  · split
    · obtain ⟨hcursor, haudio, hmessages, hresume⟩ :=
        sendDeliveryAck_moved (s := (s.advance seq sample).countDelivery) false
      exact ⟨hcursor, haudio, hmessages, hresume⟩
    · exact ⟨rfl, rfl, rfl, rfl⟩

/-- The delivery that is next is let through. -/
theorem beginDelivery_next {seq : Int} (hseq : seq = s.lastDeliverySeq + 1) :
    s.beginDelivery (some seq) = .ok (some seq) := by
  have hle : ¬ seq ≤ s.lastDeliverySeq := by omega
  unfold beginDelivery
  dsimp only
  rw [if_neg hle, if_neg (fun hne => hne hseq)]

end

end StreamReader

end Realtime

end StreamingTts.Client
