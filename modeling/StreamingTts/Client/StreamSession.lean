import StreamingTts.Client.Pool
import StreamingTts.Lib.Transition

/-!
# A resumable stream session of the client

`EngineWebSocketStreamSession` of a session that asked for active resume: its reader, the callers of
`send_text` and of `end` and `stop`, and the recoveries that any of them begins. One event is one
critical section of `_transport_lock`, with the frames that it writes; what the network does (the frame
that the reader gets, whether a write fails and whether it arrived all the same, the outcome of a dial)
is part of the event. A caller whose write failed has released the lock before it enters
`_recover_connection`, and a reader that got a frame may find the connection replaced when it has the
lock: both are states of a `Task` of their own.

`written` and `received` are the histories of the frames of each connection, and `ackedAt` is the
acknowledged text number that a replacement was replayed from. `cancel` and `close`, the telemetry of
the playback and the settings of timeouts are left out; the life of the connections in the pool is in
`Client.Streams`.
-/

namespace StreamingTts.Client

/-! ## Messages and frames -/

/-- The fields of `AudioFormat` that the session reads. -/
structure AudioFormat where
  encoding : String
  channels : Nat
  deriving DecidableEq

/-- The format of a session that was told none. -/
def AudioFormat.default : AudioFormat := ⟨"pcm_f32", 1⟩

/-- The bytes of a sample in the encodings that are known. -/
def AudioFormat.knownBytes (f : AudioFormat) : Option Nat :=
  match f.encoding.toLower with
  | "pcm_f32" => some 4
  | "pcm_s16le" => some 2
  | "pcm_s16" => some 2
  | "pcm_u8" => some 1
  | _ => none

/-- The type of a `StreamEvent`. -/
inductive EventType
  | done
  | error
  | other (name : String)
  deriving DecidableEq

/-- A `StreamEvent`. -/
structure StreamEvent where
  type : EventType
  message : String
  audio : Option AudioFormat
  deriving DecidableEq

/-- `_is_terminal_message`. -/
def StreamEvent.isTerminal (e : StreamEvent) : Bool := e.type = .done || e.type = .error

/-- An `audio_header`. -/
structure AudioHeader where
  deliverySeq : Option Nat
  startSample : Option Nat
  endSample : Option Nat
  audio : AudioFormat
  deriving DecidableEq

namespace AudioHeader

/-- `int(header.get("start_sample", 0) or 0)`. -/
def first (h : AudioHeader) : Nat := h.startSample.getD 0

/-- `int(header.get("end_sample", start_sample) or start_sample)`. -/
def last (h : AudioHeader) : Nat :=
  match h.endSample with
  | some sample => if sample = 0 then h.first else sample
  | none => h.first

end AudioHeader

/-- An `AudioChunk`. -/
structure AudioChunk where
  pcmBytes : List UInt8
  audio : AudioFormat
  outputSampleStart : Option Nat
  outputSampleEnd : Option Nat
  deriving DecidableEq

/-- `decode_audio_chunk`. -/
def decodeAudioChunk (h : AudioHeader) (pcmBytes : List UInt8) : AudioChunk :=
  ⟨pcmBytes, h.audio, h.startSample, h.endSample⟩

/-- `_trim_audio_overlap`. -/
def trimAudioOverlap (chunk : AudioChunk) (samples outputSampleStart : Nat) :
    Except String AudioChunk :=
  match chunk.audio.knownBytes with
  | none => .error "cannot trim overlapping resumed audio with this encoding"
  | some bytesPerSample =>
      let byteOffset := samples * max 1 chunk.audio.channels * bytesPerSample
      let trimmedStart := chunk.outputSampleStart.getD outputSampleStart + samples
      if chunk.pcmBytes.length < byteOffset then
        .error "resumed audio overlap exceeds binary frame length"
      else if chunk.outputSampleEnd.any fun sample => sample < trimmedStart then
        .error "resumed audio sample metadata is inconsistent"
      else
        .ok { chunk with
          pcmBytes := chunk.pcmBytes.drop byteOffset
          outputSampleStart := some trimmedStart }

/-- What `iter_messages` yields. -/
inductive Message
  | event (e : StreamEvent)
  | audio (chunk : AudioChunk)
  deriving DecidableEq

/-- A frame of the server. -/
inductive ServerFrame
  | audioHeader (h : AudioHeader)
  | audio (pcmBytes : List UInt8)
  | event (deliverySeq : Option Nat) (e : StreamEvent)
  | textAck (throughSeq : Nat)
  | inputAck
  | resumeError (message : String)
  | playbackProgressError (message : String)
  /-- a frame of another type or opcode -/
  | other
  deriving DecidableEq

/-- How the input was closed. -/
inductive StopType
  | «end»
  | stop
  deriving DecidableEq

/-- A frame of the client. -/
inductive ClientFrame
  | resume (lastDeliverySeq audioThroughSample : Nat)
  | ack (throughDeliverySeq audioThroughSample : Nat)
  | terminalAck (throughDeliverySeq audioThroughSample : Nat)
  | text (seqNo : Nat) (text : String)
  | stop (type : StopType) (finalSeqNo : Nat)
  deriving DecidableEq

/-- Whether a frame is a text, or the end of the input. -/
def ClientFrame.isInput : ClientFrame → Bool
  | .text .. | .stop .. => true
  | .resume .. | .ack .. | .terminalAck .. => false

/-- The frames of the input among those written. -/
def inputFrames (fs : List ClientFrame) : List ClientFrame := fs.filter ClientFrame.isInput

/-! ## The state -/

/-- Where the leader of a recovery stands in an attempt. -/
inductive ResumePhase
  /-- at the top of the loop body -/
  | check
  /-- in `_replace_connection` or `_connect_reserved_replacement` -/
  | dialing
  /-- with a new socket, before the flags are looked at again -/
  | dialed (newConn : Conn)
  /-- at the top of `_resume_on_connection` -/
  | adopted (newConn : Conn)
  /-- the `resume` request is written -/
  | resuming (newConn : Conn)
  /-- at the top of `_replay_unacked_input` -/
  | resumed (newConn : Conn) (ackedTextSeq : Nat) (inputClosed : Bool)
  /-- the frames that are to be replayed; behind them the connection is attached -/
  | replaying (newConn : Conn) (frames : List ClientFrame)
  /-- behind the loop -/
  | gaveUp (error : String)

/-- Where a thread stands. -/
inductive Task
  /-- the reader at the top of its loop; a caller outside of its calls -/
  | idle
  /-- the reader waits for a frame, or for the lock with one -/
  | receiving (conn : Conn) (generation : Nat)
  /-- about to enter `_recover_connection` -/
  | broken (conn : Conn) (generation : Nat)
  /-- waits for the recovery of another thread -/
  | waiting (generation : Nat)
  /-- leads a recovery -/
  | leading (attempt : Nat) (phase : ResumePhase)
  /-- about to call `_fail_terminal` -/
  | failing (error : String)
  /-- the reader has returned -/
  | exited

/-- The threads of a session. -/
inductive Thread
  | reader
  | caller (i : Nat)
  deriving DecidableEq

/-- The settings of the adapter that the session reads. -/
structure ResumeConfig where
  sessionId : String
  streamResumeAckInterval : Nat
  streamResumeAttempts : Nat

/-- The fields of `EngineWebSocketStreamSession`, its threads, and what was written and read. -/
structure StreamSession where
  conn : Conn
  transportFinished : Bool
  generation : Nat
  recovering : Bool
  recoveryError : Option String
  terminalFailurePublished : Bool
  sendClosed : Bool
  resumeSupported : Option Bool
  nextTextSeq : Nat
  textJournal : List (Nat × String)
  ackedTextSeq : Nat
  inputClosed : Bool
  inputAcked : Bool
  stopPayload : Option ClientFrame
  lastDeliverySeq : Nat
  audioThroughSample : Nat
  deliveriesSinceAck : Nat
  currentAudio : AudioFormat
  pendingAudioHeader : Option AudioHeader
  messages : List Message
  task : Thread → Task
  /-- the number of connections dialed so far, which are the numbers below it -/
  dialed : Nat
  written : Conn → List ClientFrame
  received : Conn → List ServerFrame
  ackedAt : Conn → Nat

/-- Whether a write raises, and if so whether the frame arrived all the same. -/
inductive WriteOutcome
  | ok
  | failed (reached : Bool)
  deriving DecidableEq

/-- What an attempt of a recovery meets. -/
inductive ResumeOutcome
  /-- the dial or the write succeeds, or a section has nothing to wait for -/
  | ok
  /-- the deadline has passed at the top of the loop -/
  | expired
  /-- the control frame that answers `resume` -/
  | resumed (ackedTextSeq : Nat) (inputClosed : Bool)
  /-- `OSError`, `RawWebSocketError` or `TimeoutError`; `reached` if a frame arrived all the same -/
  | transport (reached : Bool) (error : String)
  /-- a `StreamRecoveryError` -/
  | rejected (error : String)
  /-- any other exception -/
  | invalid (error : String)

/-- One critical section of a thread. -/
inductive StreamStep
  /-- the reader looks at the flags at the top of its loop -/
  | pick
  /-- the reader handles a frame; `ackOk` if the write of an acknowledgement succeeds -/
  | frame (f : ServerFrame) (ackOk : Bool)
  /-- the connection of the reader breaks -/
  | breaks
  /-- `send_text` -/
  | sendText (i : Nat) (text : String) (seqNo : Option Nat) (outcome : WriteOutcome)
  /-- `end` or `stop` -/
  | finishInput (i : Nat) (type : StopType) (outcome : WriteOutcome)
  /-- a thread enters `_recover_connection` -/
  | recover (t : Thread)
  /-- a thread that waits for a recovery looks at the flags -/
  | wake (t : Thread)
  /-- the leader goes on -/
  | lead (t : Thread) (outcome : ResumeOutcome)
  /-- `_fail_terminal` -/
  | fail (t : Thread)

namespace StreamSession

variable (cfg : ResumeConfig) (s : StreamSession)

/-- A new session on the connection `0`. -/
def new : StreamSession where
  conn := 0
  transportFinished := false
  generation := 0
  recovering := false
  recoveryError := none
  terminalFailurePublished := false
  sendClosed := false
  resumeSupported := none
  nextTextSeq := 1
  textJournal := []
  ackedTextSeq := 0
  inputClosed := false
  inputAcked := false
  stopPayload := none
  lastDeliverySeq := 0
  audioThroughSample := 0
  deliveriesSinceAck := 0
  currentAudio := .default
  pendingAudioHeader := none
  messages := []
  task _ := .idle
  dialed := 1
  written _ := []
  received _ := []
  ackedAt _ := 0

/-- A thread moves on. -/
def setTask (t : Thread) (task : Task) : StreamSession :=
  { s with task := Function.update s.task t task }

theorem setTask_task_self (t : Thread) (task : Task) : (s.setTask t task).task t = task := by
  simp [setTask]

theorem setTask_task_ne {t t' : Thread} (h : t' ≠ t) (task : Task) :
    (s.setTask t task).task t' = s.task t' := by
  simp [setTask, h]

/-- A frame is written to a connection. -/
def write (c : Conn) (f : ClientFrame) : StreamSession :=
  { s with written := Function.update s.written c (s.written c ++ [f]) }

theorem write_written_self (c : Conn) (f : ClientFrame) :
    (s.write c f).written c = s.written c ++ [f] := by
  simp [write]

theorem write_written_ne {c c' : Conn} (h : c' ≠ c) (f : ClientFrame) :
    (s.write c f).written c' = s.written c' := by
  simp [write, h]

/-- A frame whose write may have failed. -/
def tryWrite (c : Conn) (f : ClientFrame) (reached : Bool) : StreamSession :=
  if reached then s.write c f else s

/-- `_put_message`. -/
def putMessage (m : Message) : StreamSession := { s with messages := s.messages ++ [m] }

/-- `_finish_transport_locked`. -/
def finishTransport : StreamSession :=
  if s.transportFinished then s else { s with transportFinished := true, recovering := false }

/-- What `_recover_connection` returns to its caller: the reader goes on or returns, and a call returns
or raises. -/
def recovered (t : Thread) (ok : Bool) : StreamSession :=
  match t with
  | .reader => s.setTask .reader (if ok then .idle else .exited)
  | .caller i => s.setTask (.caller i) .idle

/-- Only the task of the thread changes. -/
theorem recovered_eq (t : Thread) (ok : Bool) :
    s.recovered t ok = { s with task := (s.recovered t ok).task } := by
  cases t <;> rfl

theorem recovered_task_self (t : Thread) (ok : Bool) :
    (s.recovered t ok).task t = .idle ∨ (s.recovered t ok).task t = .exited := by
  cases t with
  | reader =>
      cases ok with
      | true => exact .inl (s.setTask_task_self _ _)
      | false => exact .inr (s.setTask_task_self _ _)
  | caller i => exact .inl (s.setTask_task_self _ _)

theorem recovered_task_ne {t t' : Thread} (h : t' ≠ t) (ok : Bool) :
    (s.recovered t ok).task t' = s.task t' := by
  cases t with
  | reader => exact s.setTask_task_ne h _
  | caller i => exact s.setTask_task_ne h _

/-! ## The output -/

/-- What the reader does behind a frame. -/
inductive Handled
  | next
  | terminal
  | raised (error : String)

/-- `_send_delivery_ack_locked`. The frame is written even if the write raises. -/
def sendDeliveryAck (c : Conn) (generation : Nat) (ackOk : Bool) : StreamSession :=
  if s.resumeSupported = some true ∧ generation = s.generation then
    let acked := s.write c (.ack s.lastDeliverySeq s.audioThroughSample)
    if ackOk then { acked with deliveriesSinceAck := 0 } else acked
  else s

/-- `_maybe_ack_locked`. -/
def maybeAck (c : Conn) (generation : Nat) (ackOk : Bool) : StreamSession :=
  let counted := { s with deliveriesSinceAck := s.deliveriesSinceAck + 1 }
  if counted.deliveriesSinceAck < cfg.streamResumeAckInterval then counted
  else counted.sendDeliveryAck c generation ackOk

/-- `_send_terminal_ack_locked`. -/
def sendTerminalAck (c : Conn) (generation : Nat) : StreamSession :=
  if s.resumeSupported = some true ∧ generation = s.generation then
    s.write c (.terminalAck s.lastDeliverySeq s.audioThroughSample)
  else s

/-- `_handle_audio_header`. -/
def handleAudioHeader (generation : Nat) (h : AudioHeader) : Handled × StreamSession :=
  if generation ≠ s.generation ∨ s.transportFinished = true then (.next, s)
  else if s.pendingAudioHeader.isSome then
    (.raised "audio_header was not followed by binary audio", s)
  else
    match h.deliverySeq with
    | none =>
        if s.resumeSupported = some true then
          (.raised "resumable audio header is missing delivery_seq", s)
        else (.next, { s with resumeSupported := some false, pendingAudioHeader := some h })
    | some deliverySeq =>
        let supported := { s with resumeSupported := some true }
        let expected := s.lastDeliverySeq + 1
        if deliverySeq = 0 then (.raised "delivery_seq must be greater than zero", s)
        else if expected < deliverySeq then
          (.raised s!"websocket delivery gap: expected {expected}, got {deliverySeq}", supported)
        else (.next, { supported with pendingAudioHeader := some h })

/-- The payload of an audio delivery without a header, as a legacy gateway sends it. -/
def handleLegacyPayload (pcmBytes : List UInt8) : StreamSession :=
  let sampleCount :=
    pcmBytes.length / (s.currentAudio.knownBytes.getD 4 * max 1 s.currentAudio.channels)
  let endSample := s.audioThroughSample + sampleCount
  let chunk : AudioChunk :=
    ⟨pcmBytes, s.currentAudio, some s.audioThroughSample, some endSample⟩
  { s.putMessage (.audio chunk) with
    resumeSupported := some false
    audioThroughSample := endSample }

/-- The payload of an audio delivery whose header has no number. -/
def handleUnnumberedPayload (h : AudioHeader) (pcmBytes : List UInt8) : Handled × StreamSession :=
  if h.first ≠ s.audioThroughSample ∨ h.last < h.first then
    (.raised "websocket audio sample range is invalid", s)
  else
    (.next, { s.putMessage (.audio (decodeAudioChunk h pcmBytes)) with audioThroughSample := h.last })

/-- The payload of the audio delivery `deliverySeq`, which is the next one. -/
def handleNextPayload (c : Conn) (generation : Nat) (h : AudioHeader) (deliverySeq : Nat)
    (pcmBytes : List UInt8) (ackOk : Bool) : Handled × StreamSession :=
  let through := s.audioThroughSample
  let decoded := decodeAudioChunk h pcmBytes
  let trimmed :=
    if h.first < through ∧ through < h.last then
      (trimAudioOverlap decoded (through - h.first) h.first).map fun chunk => (chunk, through)
    else .ok (decoded, h.first)
  match trimmed with
  | .error e => (.raised e, s)
  | .ok (chunk, startSample) =>
      if h.last ≤ through then
        (.next, { s with lastDeliverySeq := deliverySeq }.maybeAck cfg c generation ackOk)
      else if startSample ≠ through then
        (.raised s!"websocket audio sample gap: expected sample {through}, got {startSample}", s)
      else
        let queued :=
          { s.putMessage (.audio chunk) with
            lastDeliverySeq := deliverySeq
            audioThroughSample := h.last }
        (.next, queued.maybeAck cfg c generation ackOk)

/-- `_handle_audio_payload`. -/
def handleAudioPayload (c : Conn) (generation : Nat) (pcmBytes : List UInt8) (ackOk : Bool) :
    Handled × StreamSession :=
  if generation ≠ s.generation ∨ s.transportFinished = true then (.next, s)
  else
    let taken := { s with pendingAudioHeader := none }
    match s.pendingAudioHeader with
    | none =>
        if s.resumeSupported = some true then
          (.raised "resumable audio binary frame is missing audio_header", taken)
        else (.next, taken.handleLegacyPayload pcmBytes)
    | some h =>
        match h.deliverySeq with
        | none => taken.handleUnnumberedPayload h pcmBytes
        | some deliverySeq =>
            let expected := s.lastDeliverySeq + 1
            if deliverySeq ≤ s.lastDeliverySeq then (.next, taken)
            else if deliverySeq ≠ expected then
              (.raised s!"websocket audio delivery gap: expected {expected}, got {deliverySeq}", taken)
            else taken.handleNextPayload cfg c generation h deliverySeq pcmBytes ackOk

/-- An event that is to be queued, with its number if it has one. -/
def acceptEvent (c : Conn) (generation : Nat) (deliverySeq : Option Nat) (e : StreamEvent)
    (ackOk : Bool) : Handled × StreamSession :=
  let told := { s with currentAudio := e.audio.getD s.currentAudio }
  if e.isTerminal then
    let closed := { told with sendClosed := true }
    let acked :=
      match deliverySeq with
      | some seq => { closed with lastDeliverySeq := seq }.sendTerminalAck c generation
      | none => closed
    (.terminal, acked.finishTransport.putMessage (.event e))
  else
    let queued := told.putMessage (.event e)
    match deliverySeq with
    | some seq => (.next, { queued with lastDeliverySeq := seq }.maybeAck cfg c generation ackOk)
    | none => (.next, queued)

/-- `_handle_event`. -/
def handleEvent (c : Conn) (generation : Nat) (deliverySeq : Option Nat) (e : StreamEvent)
    (ackOk : Bool) : Handled × StreamSession :=
  if generation ≠ s.generation ∨ s.transportFinished = true then (.next, s)
  else
    match deliverySeq with
    | none =>
        if s.resumeSupported = some true then (.raised "resumable event is missing delivery_seq", s)
        else { s with resumeSupported := some false }.acceptEvent cfg c generation none e ackOk
    | some seq =>
        let supported := { s with resumeSupported := some true }
        let expected := s.lastDeliverySeq + 1
        if seq = 0 then (.raised "delivery_seq must be greater than zero", supported)
        else if seq ≤ s.lastDeliverySeq then (.next, supported)
        else if seq ≠ expected then
          (.raised s!"websocket event delivery gap: expected {expected}, got {seq}", supported)
        else supported.acceptEvent cfg c generation (some seq) e ackOk

/-- What an acknowledgement of texts leaves in the journal. -/
def ackTexts (throughSeq : Nat) : StreamSession :=
  { s with
    ackedTextSeq := throughSeq
    textJournal := s.textJournal.dropWhile fun entry => entry.1 ≤ throughSeq }

/-- Whether the texts through `throughSeq` may be acknowledged now. -/
def AckValid (throughSeq : Nat) : Prop := s.ackedTextSeq ≤ throughSeq ∧ throughSeq ≤ s.nextTextSeq - 1

instance (throughSeq : Nat) : Decidable (s.AckValid throughSeq) :=
  inferInstanceAs (Decidable (_ ∧ _))

/-- `_handle_text_ack`. -/
def handleTextAck (throughSeq : Nat) : Handled × StreamSession :=
  if s.AckValid throughSeq then (.next, s.ackTexts throughSeq)
  else
    let highestSent := s.nextTextSeq - 1
    (.raised s!"invalid text_ack through_seq={throughSeq}, sent_through={highestSent}", s)

/-- `_handle_incoming_frame`. -/
def handleIncomingFrame (c : Conn) (generation : Nat) (f : ServerFrame) (ackOk : Bool) :
    Handled × StreamSession :=
  match f with
  | .audio pcmBytes => s.handleAudioPayload cfg c generation pcmBytes ackOk
  | .audioHeader h => s.handleAudioHeader generation h
  | .textAck throughSeq => s.handleTextAck throughSeq
  | .inputAck => (.next, { s with inputAcked := true })
  | .resumeError message => (.raised message, s)
  | .playbackProgressError message =>
      (.next, s.putMessage (.event ⟨.other "warning", message, none⟩))
  | .event deliverySeq e => s.handleEvent cfg c generation deliverySeq e ackOk
  | .other => (.next, s)

/-- The reader with a frame. -/
def frame (f : ServerFrame) (ackOk : Bool) : StreamSession :=
  match s.task .reader with
  | .receiving c generation =>
      let got := { s with received := Function.update s.received c (s.received c ++ [f]) }
      match got.handleIncomingFrame cfg c generation f ackOk with
      | (.next, s') => s'.setTask .reader .idle
      | (.terminal, s') => s'.setTask .reader .exited
      | (.raised e, s') => s'.setTask .reader (.failing e)
  | _ => s

/-- The top of `_reader_loop`. -/
def pick : StreamSession :=
  match s.task .reader with
  | .idle =>
      if s.transportFinished then s.setTask .reader .exited
      else if s.recovering then s
      else s.setTask .reader (.receiving s.conn s.generation)
  | _ => s

/-- `_recv_next_frame` raises. -/
def breaks : StreamSession :=
  match s.task .reader with
  | .receiving c generation => s.setTask .reader (.broken c generation)
  | _ => s

/-- `_fail_terminal`. -/
def failTerminal (error : String) : StreamSession :=
  if s.terminalFailurePublished then s
  else
    ({ s with
      terminalFailurePublished := true
      sendClosed := true
      recoveryError := some error }.finishTransport).putMessage (.event ⟨.error, error, none⟩)

/-- A thread that is about to call it, which then returns or raises. -/
def fail (t : Thread) : StreamSession :=
  match s.task t with
  | .failing error => (s.failTerminal error).recovered t false
  | _ => s

/-! ## The input -/

/-- Whether `_wait_until_sendable_locked` and `_check_send_open` let a call pass. -/
def sendable : Bool :=
  !s.recovering && s.recoveryError.isNone && !s.transportFinished && !s.sendClosed

/-- A write of a caller; if it raises, the caller is about to recover the connection. -/
def callerWrite (i : Nat) (f : ClientFrame) : WriteOutcome → StreamSession
  | .ok => s.write s.conn f
  | .failed reached =>
      (s.tryWrite s.conn f reached).setTask (.caller i) (.broken s.conn s.generation)

/-- `send_text`. A call that waits for a recovery, or that raises, does nothing. -/
def sendText (i : Nat) (text : String) (seqNo : Option Nat) (outcome : WriteOutcome) :
    StreamSession :=
  match s.task (.caller i) with
  | .idle =>
      if s.sendable = true ∧ seqNo.getD s.nextTextSeq = s.nextTextSeq then
        { s with
          nextTextSeq := s.nextTextSeq + 1
          textJournal := s.textJournal ++ [(s.nextTextSeq, text)] }.callerWrite i
            (.text s.nextTextSeq text) outcome
      else s
  | _ => s

/-- `_finish_input`. -/
def finishInput (i : Nat) (type : StopType) (outcome : WriteOutcome) : StreamSession :=
  match s.task (.caller i) with
  | .idle =>
      if s.sendable then
        let payload := ClientFrame.stop type (s.nextTextSeq - 1)
        { s with
          inputClosed := true
          stopPayload := some payload
          sendClosed := true }.callerWrite i payload outcome
      else s
  | _ => s

/-! ## Recovery -/

/-- The first section of `_recover_connection`. -/
def recover (t : Thread) : StreamSession :=
  match s.task t with
  | .broken c generation =>
      if s.transportFinished then s.recovered t false
      else if s.generation ≠ generation ∨ s.conn ≠ c then s.recovered t true
      else if cfg.streamResumeAttempts = 0 ∨ s.resumeSupported = some false then
        let id := cfg.sessionId
        let error :=
          s!"stream session {id} connection closed; active stream resume was not negotiated"
        { s with recoveryError := some error }.setTask t (.failing error)
      else if s.recovering then s.setTask t (.waiting generation)
      else
        -- a header without its payload has not crossed the local delivery boundary
        { s with recovering := true, pendingAudioHeader := none }.setTask t (.leading 0 .check)
  | _ => s

/-- A thread that waits for the leader. -/
def wake (t : Thread) : StreamSession :=
  match s.task t with
  | .waiting generation =>
      if s.recovering = true ∧ s.transportFinished = false then s
      else s.recovered t (!s.transportFinished && s.generation ≠ generation)
  | _ => s

/-- The error of a recovery that gives up. -/
def giveUpError (error : String) : String :=
  let id := cfg.sessionId
  let attempts := cfg.streamResumeAttempts
  s!"stream session {id} resume failed after {attempts} attempt(s): {error}"

/-- An attempt fails: another one follows, or the leader gives up. -/
def retry (t : Thread) (attempt : Nat) (error : String) : StreamSession :=
  if attempt + 1 < cfg.streamResumeAttempts then s.setTask t (.leading (attempt + 1) .check)
  else s.setTask t (.leading attempt (.gaveUp (giveUpError cfg error)))

/-- What the exceptions of an attempt lead to. -/
def attemptFailed (t : Thread) (attempt : Nat) : ResumeOutcome → StreamSession
  | .transport _ error => s.retry cfg t attempt error
  | .rejected error => s.setTask t (.leading attempt (.gaveUp error))
  | .invalid error => s.setTask t (.leading attempt (.gaveUp (giveUpError cfg error)))
  | _ => s

/-- The frames that `_replay_unacked_input` writes. -/
def replayFrames (serverInputClosed : Bool) : List ClientFrame :=
  s.textJournal.map (fun entry => .text entry.1 entry.2) ++
    if s.inputClosed && !serverInputClosed then s.stopPayload.toList else []

/-- The section of `_replay_unacked_input`. -/
def beginReplay (t : Thread) (attempt : Nat) (newConn : Conn) (ackedTextSeq : Nat)
    (inputClosed : Bool) : StreamSession :=
  if s.AckValid ackedTextSeq then
    let acked := { s.ackTexts ackedTextSeq with inputAcked := inputClosed }
    { acked with ackedAt := Function.update s.ackedAt newConn ackedTextSeq }.setTask t
      (.leading attempt (.replaying newConn (acked.replayFrames inputClosed)))
  else
    let highestSent := s.nextTextSeq - 1
    s.setTask t (.leading attempt (.gaveUp (giveUpError cfg
      s!"invalid resumed acked_text_seq={ackedTextSeq}, sent_through={highestSent}")))

/-- The session with the replacement as its connection. -/
def attached (newConn : Conn) : StreamSession :=
  { s with
    conn := newConn
    generation := s.generation + 1
    resumeSupported := some true
    pendingAudioHeader := none
    deliveriesSinceAck := 0
    recovering := false
    recoveryError := none }

/-- The section that makes the replacement the connection of the session. -/
def attach (t : Thread) (newConn : Conn) : StreamSession :=
  if s.transportFinished then { s with recovering := false }.recovered t false
  else (s.attached newConn).recovered t true

/-- The leader of a recovery goes on. -/
def leadPhase (t : Thread) (attempt : Nat) (outcome : ResumeOutcome) : ResumePhase → StreamSession
  | .check =>
      if s.transportFinished then
        s.setTask t (.leading attempt (.gaveUp (giveUpError cfg
          "stream closed while websocket recovery was in progress")))
      else
        match outcome with
        | .expired =>
            s.setTask t (.leading attempt (.gaveUp (giveUpError cfg "stream resume deadline expired")))
        | _ => s.setTask t (.leading attempt .dialing)
  | .dialing =>
      match outcome with
      | .ok => { s with dialed := s.dialed + 1 }.setTask t (.leading attempt (.dialed s.dialed))
      | _ => s.attemptFailed cfg t attempt outcome
  | .dialed newConn =>
      if s.transportFinished then { s with recovering := false }.recovered t false
      else s.setTask t (.leading attempt (.adopted newConn))
  | .adopted newConn =>
      -- the request counts as written even if the write raises
      let requested := s.write newConn (.resume s.lastDeliverySeq s.audioThroughSample)
      match outcome with
      | .ok => requested.setTask t (.leading attempt (.resuming newConn))
      | .transport _ _ => requested.attemptFailed cfg t attempt outcome
      | _ => s.attemptFailed cfg t attempt outcome
  | .resuming newConn =>
      match outcome with
      | .resumed ackedTextSeq inputClosed =>
          s.setTask t (.leading attempt (.resumed newConn ackedTextSeq inputClosed))
      | _ => s.attemptFailed cfg t attempt outcome
  | .resumed newConn ackedTextSeq inputClosed =>
      s.beginReplay cfg t attempt newConn ackedTextSeq inputClosed
  | .replaying newConn (f :: frames) =>
      match outcome with
      | .ok => (s.write newConn f).setTask t (.leading attempt (.replaying newConn frames))
      | .transport reached _ => (s.tryWrite newConn f reached).attemptFailed cfg t attempt outcome
      | _ => s.attemptFailed cfg t attempt outcome
  | .replaying newConn [] => s.attach t newConn
  | .gaveUp error => { s with recovering := false, recoveryError := some error }.setTask t (.failing error)

/-- A thread that leads a recovery goes on. -/
def lead (t : Thread) (outcome : ResumeOutcome) : StreamSession :=
  match s.task t with
  | .leading attempt phase => s.leadPhase cfg t attempt outcome phase
  | _ => s

/-- One critical section. -/
def step : StreamSession → StreamStep → StreamSession
  | s, .pick => s.pick
  | s, .frame f ackOk => s.frame cfg f ackOk
  | s, .breaks => s.breaks
  | s, .sendText i text seqNo outcome => s.sendText i text seqNo outcome
  | s, .finishInput i type outcome => s.finishInput i type outcome
  | s, .recover t => s.recover cfg t
  | s, .wake t => s.wake t
  | s, .lead t outcome => s.lead cfg t outcome
  | s, .fail t => s.fail t

/-! ## What a frame leaves of the input -/

variable {s}

/-- An acknowledgement counts the delivery, and may write the cursor to the connection. -/
theorem maybeAck_cases (s : StreamSession) (c : Conn) (g : Nat) (ackOk : Bool) :
    ∃ n, s.maybeAck cfg c g ackOk = { s with deliveriesSinceAck := n } ∨
      g = s.generation ∧ s.maybeAck cfg c g ackOk
        = { s.write c (.ack s.lastDeliverySeq s.audioThroughSample) with deliveriesSinceAck := n } := by
  unfold maybeAck
  simp only
  split
  · exact ⟨_, .inl rfl⟩
  · unfold sendDeliveryAck
    split
    · next hcond =>
      cases ackOk with
      | true => exact ⟨0, .inr ⟨hcond.2, rfl⟩⟩
      | false => exact ⟨s.deliveriesSinceAck + 1, .inr ⟨hcond.2, rfl⟩⟩
    · exact ⟨_, .inl rfl⟩

theorem sendTerminalAck_cases (s : StreamSession) (c : Conn) (g : Nat) :
    s.sendTerminalAck c g = s ∨
      s.sendTerminalAck c g = s.write c (.terminalAck s.lastDeliverySeq s.audioThroughSample) := by
  unfold sendTerminalAck
  split
  · exact .inr rfl
  · exact .inl rfl

/-- The fields of the input, and what the threads need of the others. Only the terminal ends the
transport. -/
structure InputKept (s s' : StreamSession) : Prop where
  conn : s'.conn = s.conn
  generation : s'.generation = s.generation
  dialed : s'.dialed = s.dialed
  task : s'.task = s.task
  nextTextSeq : s'.nextTextSeq = s.nextTextSeq
  textJournal : s'.textJournal = s.textJournal
  ackedTextSeq : s'.ackedTextSeq = s.ackedTextSeq
  inputClosed : s'.inputClosed = s.inputClosed
  stopPayload : s'.stopPayload = s.stopPayload
  ackedAt : s'.ackedAt = s.ackedAt
  recoveryError : s'.recoveryError = s.recoveryError
  published : s'.terminalFailurePublished = s.terminalFailurePublished
  inputAcked : s'.inputAcked = false → s.inputAcked = false
  open_ : s'.transportFinished = false → s.transportFinished = false ∧ s'.recovering = s.recovering ∧
    s'.sendClosed = s.sendClosed
  written : ∀ c, inputFrames (s'.written c) = inputFrames (s.written c)

/-- A state that differs in the output alone. -/
theorem InputKept.of_output {s s' : StreamSession} (h : s' = { s with
    resumeSupported := s'.resumeSupported
    lastDeliverySeq := s'.lastDeliverySeq
    audioThroughSample := s'.audioThroughSample
    deliveriesSinceAck := s'.deliveriesSinceAck
    currentAudio := s'.currentAudio
    pendingAudioHeader := s'.pendingAudioHeader
    messages := s'.messages
    received := s'.received }) : InputKept s s' := by
  rw [h]
  exact ⟨rfl, rfl, rfl, rfl, rfl, rfl, rfl, rfl, rfl, rfl, rfl, rfl, id, fun h => ⟨h, rfl, rfl⟩,
    fun _ => rfl⟩

theorem InputKept.refl (s : StreamSession) : InputKept s s := .of_output rfl

theorem InputKept.trans {s' s'' : StreamSession} (h : InputKept s s') (h' : InputKept s' s'') :
    InputKept s s'' where
  conn := h'.conn.trans h.conn
  generation := h'.generation.trans h.generation
  dialed := h'.dialed.trans h.dialed
  task := h'.task.trans h.task
  nextTextSeq := h'.nextTextSeq.trans h.nextTextSeq
  textJournal := h'.textJournal.trans h.textJournal
  ackedTextSeq := h'.ackedTextSeq.trans h.ackedTextSeq
  inputClosed := h'.inputClosed.trans h.inputClosed
  stopPayload := h'.stopPayload.trans h.stopPayload
  ackedAt := h'.ackedAt.trans h.ackedAt
  recoveryError := h'.recoveryError.trans h.recoveryError
  published := h'.published.trans h.published
  inputAcked hacked := h.inputAcked (h'.inputAcked hacked)
  open_ hopen := by
    obtain ⟨hfin', hrec', hsend'⟩ := h'.open_ hopen
    obtain ⟨hfin, hrec, hsend⟩ := h.open_ hfin'
    exact ⟨hfin, hrec'.trans hrec, hsend'.trans hsend⟩
  written c := (h'.written c).trans (h.written c)

/-- A frame that is no input is written. -/
theorem inputKept_write (s : StreamSession) (c : Conn) {f : ClientFrame} (hf : f.isInput = false) :
    InputKept s (s.write c f) := by
  refine ⟨rfl, rfl, rfl, rfl, rfl, rfl, rfl, rfl, rfl, rfl, rfl, rfl, id, fun h => ⟨h, rfl, rfl⟩,
    fun c' => ?_⟩
  by_cases hc : c' = c
  · rw [hc, write_written_self]
    simp [inputFrames, hf]
  · rw [write_written_ne s hc]

theorem inputKept_maybeAck (s : StreamSession) (c : Conn) (g : Nat) (ackOk : Bool) :
    InputKept s (s.maybeAck cfg c g ackOk) := by
  obtain ⟨n, h | ⟨-, h⟩⟩ := maybeAck_cases cfg s c g ackOk
  · rw [h]
    exact .of_output rfl
  · rw [h]
    have hk := inputKept_write s c
      (f := .ack s.lastDeliverySeq s.audioThroughSample) rfl
    exact ⟨rfl, rfl, rfl, rfl, rfl, rfl, rfl, rfl, rfl, rfl, rfl, rfl, id, fun h => ⟨h, rfl, rfl⟩,
      hk.written⟩

theorem inputKept_handleAudioHeader (s : StreamSession) (g : Nat) (h : AudioHeader) :
    InputKept s (s.handleAudioHeader g h).2 := by
  unfold handleAudioHeader
  split
  · exact .refl s
  · split
    · exact .refl s
    · split
      · split
        · exact .refl s
        · exact .of_output rfl
      · simp only
        split
        · exact .refl s
        · split <;> exact .of_output rfl

theorem inputKept_handleNextPayload (s : StreamSession) (c : Conn) (g : Nat) (h : AudioHeader)
    (seq : Nat) (pcmBytes : List UInt8) (ackOk : Bool) :
    InputKept s (s.handleNextPayload cfg c g h seq pcmBytes ackOk).2 := by
  unfold handleNextPayload
  simp only
  split
  · exact .refl s
  · split
    · refine InputKept.trans ?_ (inputKept_maybeAck cfg _ c g ackOk)
      exact .of_output rfl
    · split
      · exact .refl s
      · refine InputKept.trans ?_ (inputKept_maybeAck cfg _ c g ackOk)
        exact .of_output rfl

theorem inputKept_handleAudioPayload (s : StreamSession) (c : Conn) (g : Nat) (pcmBytes : List UInt8)
    (ackOk : Bool) : InputKept s (s.handleAudioPayload cfg c g pcmBytes ackOk).2 := by
  have htaken : InputKept s { s with pendingAudioHeader := none } :=
    .of_output rfl
  unfold handleAudioPayload
  split
  · exact .refl s
  · simp only
    split
    · split
      · exact htaken
      · exact .of_output rfl
    · split
      · unfold handleUnnumberedPayload
        split
        · exact htaken
        · exact .of_output rfl
      · split
        · exact htaken
        · split
          · exact htaken
          · exact htaken.trans (inputKept_handleNextPayload cfg _ c g _ _ pcmBytes ackOk)

theorem inputKept_acceptEvent (s : StreamSession) (c : Conn) (g : Nat) (seq : Option Nat)
    (e : StreamEvent) (ackOk : Bool) : InputKept s (s.acceptEvent cfg c g seq e ackOk).2 := by
  have hfinish (s' : StreamSession) : s'.finishTransport.transportFinished = true := by
    unfold finishTransport
    split
    · next hfin => exact hfin
    · rfl
  have hinput (s' : StreamSession) (h : InputKept s { s' with sendClosed := s.sendClosed }) :
      InputKept s (s'.finishTransport.putMessage (.event e)) := by
    refine ⟨?_, ?_, ?_, ?_, ?_, ?_, ?_, ?_, ?_, ?_, ?_, ?_, ?_, fun hopen => ?_, ?_⟩
    case refine_14 =>
      have hfin : s'.finishTransport.transportFinished = false := hopen
      rw [hfinish] at hfin
      cases hfin
    all_goals unfold finishTransport putMessage
    all_goals split
    all_goals first
      | exact h.conn | exact h.generation | exact h.dialed | exact h.task | exact h.nextTextSeq
      | exact h.textJournal | exact h.ackedTextSeq | exact h.inputClosed | exact h.stopPayload
      | exact h.ackedAt | exact h.recoveryError | exact h.published | exact h.inputAcked
      | exact h.written
  unfold acceptEvent
  simp only
  split
  · cases seq with
    | none =>
        refine hinput _ ?_
        exact .of_output rfl
    | some n =>
        rcases sendTerminalAck_cases { s with
          currentAudio := e.audio.getD s.currentAudio
          sendClosed := true
          lastDeliverySeq := n } c g with h | h
        · simp only [h]
          refine hinput _ ?_
          exact .of_output rfl
        · simp only [h]
          refine hinput _ ?_
          have hk := inputKept_write s c (f := .terminalAck n s.audioThroughSample) rfl
          exact ⟨rfl, rfl, rfl, rfl, rfl, rfl, rfl, rfl, rfl, rfl, rfl, rfl, id, fun h => ⟨h, rfl, rfl⟩,
      hk.written⟩
  · cases seq with
    | none =>
        exact .of_output rfl
    | some n =>
        refine InputKept.trans ?_ (inputKept_maybeAck cfg _ c g ackOk)
        exact .of_output rfl

theorem inputKept_handleEvent (s : StreamSession) (c : Conn) (g : Nat) (seq : Option Nat)
    (e : StreamEvent) (ackOk : Bool) : InputKept s (s.handleEvent cfg c g seq e ackOk).2 := by
  have hsupported (b : Bool) : InputKept s { s with resumeSupported := some b } :=
    .of_output rfl
  unfold handleEvent
  split
  · exact .refl s
  · split
    · split
      · exact .refl s
      · exact (hsupported false).trans (inputKept_acceptEvent cfg _ c g none e ackOk)
    · simp only
      split
      · exact hsupported true
      · split
        · exact hsupported true
        · split
          · exact hsupported true
          · exact (hsupported true).trans (inputKept_acceptEvent cfg _ c g _ e ackOk)

/-- A frame leaves the input as it is, unless it acknowledges texts. -/
theorem inputKept_handleIncomingFrame (s : StreamSession) (c : Conn) (g : Nat) {f : ServerFrame}
    (hf : ∀ n, f ≠ .textAck n) (ackOk : Bool) :
    InputKept s (s.handleIncomingFrame cfg c g f ackOk).2 := by
  cases f with
  | audioHeader h => exact inputKept_handleAudioHeader s g h
  | audio pcmBytes => exact inputKept_handleAudioPayload cfg s c g pcmBytes ackOk
  | event seq e => exact inputKept_handleEvent cfg s c g seq e ackOk
  | textAck n => exact absurd rfl (hf n)
  | resumeError | other => exact .refl s
  | playbackProgressError => exact .of_output rfl
  | inputAck =>
      exact ⟨rfl, rfl, rfl, rfl, rfl, rfl, rfl, rfl, rfl, rfl, rfl, rfl, (fun h => nomatch h),
        fun h => ⟨h, rfl, rfl⟩, fun _ => rfl⟩

end StreamSession

end StreamingTts.Client
