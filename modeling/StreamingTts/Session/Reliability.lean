import Mathlib.Logic.Function.Basic
import Mathlib.Tactic.Simps.Basic
import StreamingTts.Lib.Mailbox
import StreamingTts.Session.Types

/-!
# The delivery ledger

`DeliveryLedger` of `engine/session/reliability.py`: the bounded, cumulative-acknowledgement log of
one logical execution. Every operation runs under the ledger's lock and awaits nothing while it
holds it, so an operation is one function of the state; an operation that raises returns its error
*with* the state it leaves behind, since the source mutates before it may raise.

The queues handed to physical attachments are shared with their readers. They are kept in `queues`,
keyed by the generation of the attachment that owns them, and `attachment` is the generation of the
current one. `jsonLen` is the length of the JSON text of a payload that carries no audio.
-/

namespace StreamingTts.Session

open Lib (Mailbox)

/-- The machine-readable codes a `LedgerError` carries. -/
inductive LedgerCode
  | invalidCursor
  | sessionTerminal
  | sampleGap
  | sampleRangeMismatch
  | resumeBufferExceeded
  | invalidAck
  | ackRegression
  | terminalNotReady
  | cursorAhead
  | cursorExpired
  | cursorMismatch
  | staleAttachment
  | attachmentOverflow
  | unsupportedAudioEncoding
  | audioPayloadAlignment
  deriving DecidableEq, Repr

/-- The spelling of a code on the wire. -/
def LedgerCode.text : LedgerCode → String
  | .invalidCursor => "invalid_cursor"
  | .sessionTerminal => "session_terminal"
  | .sampleGap => "sample_gap"
  | .sampleRangeMismatch => "sample_range_mismatch"
  | .resumeBufferExceeded => "resume_buffer_exceeded"
  | .invalidAck => "invalid_ack"
  | .ackRegression => "ack_regression"
  | .terminalNotReady => "terminal_not_ready"
  | .cursorAhead => "cursor_ahead"
  | .cursorExpired => "cursor_expired"
  | .cursorMismatch => "cursor_mismatch"
  | .staleAttachment => "stale_attachment"
  | .attachmentOverflow => "attachment_overflow"
  | .unsupportedAudioEncoding => "unsupported_audio_encoding"
  | .audioPayloadAlignment => "audio_payload_alignment"

/-- `LedgerError`. -/
structure LedgerError where
  code : LedgerCode
  message : String
  deriving DecidableEq, Repr

/-- One numbered output with its sample range (`ReliableDelivery`). -/
structure ReliableDelivery where
  deliverySeq : Int
  payload : SessionOutput
  startSample : Int
  endSample : Int
  retainedBytes : Int
  deriving DecidableEq, Repr

/-- What a reader finds in its queue: a delivery, the fence of a superseding attachment, or the
failure of the ledger (`LedgerMessage`). -/
inductive LedgerMessage
  | delivery (r : ReliableDelivery)
  | fence (generation : Nat)
  | failure (e : LedgerError)
  deriving DecidableEq, Repr

/-- The limits of a ledger, which the constructor requires to be positive. -/
structure LedgerLimits where
  maxBufferBytes : Nat
  attachmentQueueMaxsize : Nat
  maxBufferBytes_pos : 0 < maxBufferBytes
  attachmentQueueMaxsize_pos : 0 < attachmentQueueMaxsize

/-- The state of a `DeliveryLedger`. -/
structure DeliveryLedger where
  limits : LedgerLimits
  records : List ReliableDelivery
  retainedBytes : Int
  nextDeliverySeq : Int
  nextAudioSample : Int
  trimmedThroughSeq : Int
  trimmedAudioSample : Int
  ackedDeliverySeq : Int
  ackedAudioSample : Int
  generation : Nat
  attachment : Option Nat
  queues : Nat → Mailbox LedgerMessage
  terminal : Option TerminalOutput
  terminalAcked : Bool
  failure : Option LedgerError

namespace DeliveryLedger

/-- A new ledger (`__init__`). -/
def init (limits : LedgerLimits) : DeliveryLedger where
  limits := limits
  records := []
  retainedBytes := 0
  nextDeliverySeq := 1
  nextAudioSample := 0
  trimmedThroughSeq := 0
  trimmedAudioSample := 0
  ackedDeliverySeq := 0
  ackedAudioSample := 0
  generation := 0
  attachment := none
  queues := fun _ => .empty
  terminal := none
  terminalAcked := false
  failure := none

/-- The number of the newest delivery (`last_delivery_seq`). -/
def lastDeliverySeq (s : DeliveryLedger) : Int := s.nextDeliverySeq - 1

/-! ## Payloads -/

/-- The bytes per sample of an encoding, read case-insensitively. -/
def sampleWidth (encoding : String) : Option Nat :=
  let lower := encoding.toList.map Char.toLower
  if lower = "pcm_f32".toList then some 4
  else if lower = "pcm_s16le".toList then some 2
  else if lower = "pcm_s16".toList then some 2
  else if lower = "pcm_u8".toList then some 1
  else none

/-- The number of samples in an audio payload (`_audio_sample_count`). -/
def audioSampleCount (payload : AudioOutput) : Except LedgerError Int :=
  match sampleWidth payload.audio.encoding with
  | none =>
      .error ⟨.unsupportedAudioEncoding,
        "unsupported audio encoding '" ++ payload.audio.encoding ++ "'"⟩
  | some width =>
      let channels := (max 1 payload.audio.channels).toNat
      let divisor := width * channels
      if payload.pcmBytes.length % divisor ≠ 0 then
        .error ⟨.audioPayloadAlignment,
          "audio payload is not aligned to encoding and channel count"⟩
      else .ok (payload.pcmBytes.length / divisor : Nat)

section
variable (jsonLen : SessionOutput → Nat)

/-- The bytes a payload occupies in the replay window (`_payload_size`). -/
def payloadSize : SessionOutput → Int
  | .audio o => o.pcmBytes.length
  | payload => jsonLen payload

/-! ## Cursors and generations -/

/-- The end of the delivery numbered `seq`, if it is retained. -/
def findEnd (seq : Int) : List ReliableDelivery → Option Int
  | [] => none
  | r :: rs => if r.deliverySeq = seq then some r.endSample else findEnd seq rs

/-- `_validate_cursor`. -/
def validateCursor (s : DeliveryLedger) (deliverySeq audioSample : Int) : Except LedgerError Unit :=
  if deliverySeq > s.nextDeliverySeq - 1 then
    .error ⟨.cursorAhead, "delivery cursor is ahead of output"⟩
  else if audioSample > s.nextAudioSample then
    .error ⟨.cursorAhead, "audio cursor is ahead of output"⟩
  else if deliverySeq < s.trimmedThroughSeq then
    .error ⟨.cursorExpired, "delivery cursor is outside replay window"⟩
  else if audioSample < s.trimmedAudioSample then
    .error ⟨.cursorExpired, "audio cursor is outside replay window"⟩
  else
    let expected :=
      if deliverySeq = s.trimmedThroughSeq then some s.trimmedAudioSample
      else findEnd deliverySeq s.records
    match expected with
    | none => .error ⟨.cursorExpired, "delivery cursor is no longer retained"⟩
    | some expectedSample =>
        if audioSample ≠ expectedSample then
          .error ⟨.cursorMismatch, "audio cursor does not match the delivery cursor"⟩
        else .ok ()

/-- `_require_generation`. -/
def requireGeneration (s : DeliveryLedger) (generation : Nat) : Except LedgerError Unit :=
  if s.attachment = some generation then .ok ()
  else .error ⟨.staleAttachment, "attachment has been fenced"⟩

/-- The state with other contents of the queues. -/
@[simps -fullyApplied]
def setQueues (s : DeliveryLedger) (queues : Nat → Mailbox LedgerMessage) : DeliveryLedger :=
  { s with queues := queues }

@[simp] theorem setQueues_setQueues (s : DeliveryLedger) (queues queues' : Nat → Mailbox LedgerMessage) :
    (s.setQueues queues).setQueues queues' = s.setQueues queues' := rfl

/-- `_put_control`: a put that a full queue turns into a ledger error. -/
def putControl (s : DeliveryLedger) (generation : Nat) (message : LedgerMessage) :
    Except LedgerError Unit × DeliveryLedger :=
  match (s.queues generation).put s.limits.attachmentQueueMaxsize message with
  | none => (.error ⟨.attachmentOverflow, "attachment queue is full"⟩, s)
  | some q => (.ok (), s.setQueues (Function.update s.queues generation q))

/-! ## Attaching -/

/-- The fence put into the queue of the attachment that is being superseded. -/
def fenceOld (s : DeliveryLedger) : Option Nat → Except LedgerError Unit × DeliveryLedger
  | none => (.ok (), s)
  | some old => s.putControl old (.fence s.generation)

/-- The replay loop of `attach`: the retained deliveries behind the cursor, in order, until the
queue is full. -/
def replay (generation : Nat) (lastDeliverySeq : Int) :
    List ReliableDelivery → DeliveryLedger → Except LedgerError Unit × DeliveryLedger
  | [], s => (.ok (), s)
  | r :: rs, s =>
      if r.deliverySeq ≤ lastDeliverySeq then replay generation lastDeliverySeq rs s
      else
        match s.putControl generation (.delivery r) with
        | (.error e, s') => (.error e, s')
        | (.ok (), s') => replay generation lastDeliverySeq rs s'

/-- The state in which `attach` installs the new attachment, before it fences the old one. -/
@[simps -fullyApplied]
def install (s : DeliveryLedger) : DeliveryLedger :=
  { s with
    generation := s.generation + 1
    attachment := some (s.generation + 1)
    queues := Function.update s.queues (s.generation + 1) .empty }

/-- The checks `attach` makes before it changes anything. -/
def checkAttach (s : DeliveryLedger) (lastDeliverySeq audioThroughSample : Int) :
    Except LedgerError Unit :=
  if lastDeliverySeq < 0 ∨ audioThroughSample < 0 then
    .error ⟨.invalidCursor, "resume cursors must be non-negative"⟩
  else
    match s.failure with
    | some failure => .error failure
    | none => s.validateCursor lastDeliverySeq audioThroughSample

/-- `attach`: the generation of the new attachment. -/
def attach (s : DeliveryLedger) (lastDeliverySeq audioThroughSample : Int) :
    Except LedgerError Nat × DeliveryLedger :=
  match s.checkAttach lastDeliverySeq audioThroughSample with
  | .error e => (.error e, s)
  | .ok () =>
      match s.install.fenceOld s.attachment with
      | (.error e, s₁) => (.error e, s₁)
      | (.ok (), s₁) =>
          match replay s₁.generation lastDeliverySeq s₁.records s₁ with
          | (.error e, s₂) => (.error e, s₂)
          | (.ok (), s₂) => (.ok s₂.generation, s₂)

/-- `detach`: whether `generation` was the current attachment. -/
def detach (s : DeliveryLedger) (generation : Nat) : Bool × DeliveryLedger :=
  if s.attachment = some generation then (true, { s with attachment := none }) else (false, s)

/-- `has_attachment`. -/
def hasAttachment (s : DeliveryLedger) : Bool := s.attachment.isSome

/-! ## Publishing -/

/-- The sample range of a payload: an audio payload must continue the canonical cursor with as many
samples as its bytes hold, and any other payload is a point on it. -/
def sampleRange (s : DeliveryLedger) : SessionOutput → Except LedgerError (Int × Int)
  | .audio o =>
      let start := o.outputSampleStart
      let stop := o.outputSampleEnd
      if start < 0 ∨ stop < start ∨ start ≠ s.nextAudioSample then
        .error ⟨.sampleGap, "audio output samples must continue the canonical cursor"⟩
      else
        match audioSampleCount o with
        | .error e => .error e
        | .ok expected =>
            if stop - start ≠ expected then
              .error ⟨.sampleRangeMismatch,
                "audio output sample range does not match PCM payload"⟩
            else .ok (start, stop)
  | _ => .ok (s.nextAudioSample, s.nextAudioSample)

/-- The failure recorded when the replay window overflows. -/
def bufferExceeded : LedgerError :=
  ⟨.resumeBufferExceeded, "logical output exceeded the replay window"⟩

/-- The message `publish` puts into the current attachment's queue, if there is one. -/
def notify (s : DeliveryLedger) (message : LedgerMessage) :
    Except LedgerError Unit × DeliveryLedger :=
  match s.attachment with
  | none => (.ok (), s)
  | some generation => s.putControl generation message

/-- The terminal output a payload is, if it is one. -/
def terminalOf : SessionOutput → Option TerminalOutput
  | .terminal o => some o
  | _ => none

/-- The state in which a new record has entered the ledger. -/
def append (s : DeliveryLedger) (r : ReliableDelivery) : DeliveryLedger :=
  { s with
    records := s.records ++ [r]
    retainedBytes := s.retainedBytes + r.retainedBytes
    nextDeliverySeq := s.nextDeliverySeq + 1
    nextAudioSample := max s.nextAudioSample r.endSample
    terminal := (terminalOf r.payload).or s.terminal }

/-- The record `publish` makes of a payload with the sample range `range`. -/
def recordOf (s : DeliveryLedger) (payload : SessionOutput) (range : Int × Int) :
    ReliableDelivery where
  deliverySeq := s.nextDeliverySeq
  payload := payload
  startSample := range.1
  endSample := range.2
  retainedBytes := payloadSize jsonLen payload

/-- `publish`. -/
def publish (s : DeliveryLedger) (payload : SessionOutput) :
    Except LedgerError ReliableDelivery × DeliveryLedger :=
  if s.terminal.isSome then
    (.error ⟨.sessionTerminal, "cannot publish after terminal"⟩, s)
  else
    match s.sampleRange payload with
    | .error e => (.error e, s)
    | .ok range =>
        if s.retainedBytes + payloadSize jsonLen payload > s.limits.maxBufferBytes then
          match { s with failure := some bufferExceeded }.notify (.failure bufferExceeded) with
          | (.error e, s') => (.error e, s')
          | (.ok (), s') => (.error bufferExceeded, s')
        else
          let r := s.recordOf jsonLen payload range
          match (s.append r).notify (.delivery r) with
          | (.error e, s') => (.error e, s')
          | (.ok (), s') => (.ok r, s')

/-! ## Acknowledging -/

/-- The trimming loop of `acknowledge`, over the records that are still retained. -/
def trim (throughSeq audioSample : Int) : List ReliableDelivery → DeliveryLedger → DeliveryLedger
  | [], s => { s with records := [] }
  | r :: rs, s =>
      if r.deliverySeq > throughSeq then { s with records := r :: rs }
      else if r.endSample > audioSample then { s with records := r :: rs }
      else
        trim throughSeq audioSample rs
          { s with
            retainedBytes := s.retainedBytes - r.retainedBytes
            trimmedThroughSeq := r.deliverySeq
            trimmedAudioSample := max s.trimmedAudioSample r.endSample }

/-- `acknowledge`. -/
def acknowledge (s : DeliveryLedger) (generation : Nat)
    (throughDeliverySeq audioThroughSample : Int) : Except LedgerError Unit × DeliveryLedger :=
  if throughDeliverySeq < 0 ∨ audioThroughSample < 0 then
    (.error ⟨.invalidAck, "ACK values must be non-negative"⟩, s)
  else
    match s.requireGeneration generation with
    | .error e => (.error e, s)
    | .ok () =>
        if throughDeliverySeq ≤ s.ackedDeliverySeq ∧ audioThroughSample ≤ s.ackedAudioSample then
          (.ok (), s)
        else
          match s.validateCursor throughDeliverySeq audioThroughSample with
          | .error e => (.error e, s)
          | .ok () =>
              if throughDeliverySeq < s.ackedDeliverySeq then
                (.error ⟨.ackRegression, "delivery ACK moved backwards"⟩, s)
              else if audioThroughSample < s.ackedAudioSample then
                (.error ⟨.ackRegression, "audio ACK moved backwards"⟩, s)
              else
                (.ok (), trim throughDeliverySeq audioThroughSample s.records
                  { s with
                    ackedDeliverySeq := throughDeliverySeq
                    ackedAudioSample := audioThroughSample })

/-- `terminal_ack`. -/
def terminalAck (s : DeliveryLedger) (generation : Nat) :
    Except LedgerError Unit × DeliveryLedger :=
  match s.requireGeneration generation with
  | .error e => (.error e, s)
  | .ok () =>
      if s.terminal.isNone then
        (.error ⟨.terminalNotReady, "terminal output is not ready"⟩, s)
      else (.ok (), { s with terminalAcked := true })

/-- `close`: the retained output is released and the current attachment woken if `fence` is set. -/
def close (s : DeliveryLedger) (fence : Bool) : Except LedgerError Unit × DeliveryLedger :=
  let s' := { s with attachment := none, records := [], retainedBytes := 0 }
  match s.attachment with
  | none => (.ok (), s')
  | some generation =>
      if fence then s'.putControl generation (.fence (s.generation + 1)) else (.ok (), s')

/-- `audio_end_through_delivery`. -/
def audioEndThroughDelivery (s : DeliveryLedger) (deliverySeq : Int) : Except LedgerError Int :=
  if deliverySeq < 0 ∨ deliverySeq > s.nextDeliverySeq - 1 then
    .error ⟨.cursorAhead, "delivery cursor is ahead of output"⟩
  else if deliverySeq = s.trimmedThroughSeq then .ok s.trimmedAudioSample
  else if deliverySeq < s.trimmedThroughSeq then
    .error ⟨.cursorExpired, "delivery cursor is outside replay window"⟩
  else if deliverySeq = s.nextDeliverySeq - 1 then .ok s.nextAudioSample
  else
    match findEnd deliverySeq s.records with
    | some sample => .ok sample
    | none => .error ⟨.cursorExpired, "delivery cursor is no longer retained"⟩

/-! ## Histories -/

/-- The operations on a ledger before it is closed, and the reads of the queues it filled. -/
inductive Op
  | attach (lastDeliverySeq audioThroughSample : Int)
  | publish (payload : SessionOutput)
  | acknowledge (generation : Nat) (throughDeliverySeq audioThroughSample : Int)
  | detach (generation : Nat)
  | terminalAck (generation : Nat)
  | read (generation : Nat)
  deriving DecidableEq, Repr

/-- The state an operation leaves, whether it returned or raised. -/
def step (s : DeliveryLedger) : Op → DeliveryLedger
  | .attach seq sample => (s.attach seq sample).2
  | .publish payload => (s.publish jsonLen payload).2
  | .acknowledge generation seq sample => (s.acknowledge generation seq sample).2
  | .detach generation => (s.detach generation).2
  | .terminalAck generation => (s.terminalAck generation).2
  | .read generation =>
      s.setQueues (Function.update s.queues generation (s.queues generation).take)

end

end DeliveryLedger

end StreamingTts.Session
