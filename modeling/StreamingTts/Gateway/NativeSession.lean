import StreamingTts.Lib.Transition
import StreamingTts.Session.Types

/-!
# One native WebSocket connection

`NativeSessionGateway.handle_websocket` of `engine/gateway/native_session_gateway.py`. A connection
runs one reader loop and, for every session started on it, one output task; they share the
connection-local variables and interleave at their awaits. Each of them is a program counter
(`ReaderPc`, `TaskPc`), and an event of the connection is one turn of one of them: the reader takes a
message, or the call that the reader or a task waits for returns with a `Result`. The session
service, the registry and the socket are outside; what the connection asks of them is in its
actions, and what they answer is in the events.

The fields of a message are given as the pure functions of its payload that the handler evaluates
leave them: a value, or the error they raise. The variable `input_closed` is left out, since nothing
reads it.
-/

namespace StreamingTts.Gateway

open Session (SessionOutput AudioOutput)

/-- The classes of exceptions the connection tells apart: `ResumableSessionError`, the other
`ValueError`s, and the rest. -/
inductive ErrorKind
  | resumable
  | value
  | other
  deriving DecidableEq, Repr

/-- An exception, with its `code` attribute if it has one. -/
structure PyError where
  kind : ErrorKind
  code : Option String
  message : String
  deriving DecidableEq, Repr

/-- A session handle, or a resumable session, as the connection knows it. -/
structure HandleRef where
  id : Nat
  clientSessionId : String
  deriving DecidableEq, Repr

/-- What the connection sends to its client. -/
inductive Frame
  | capabilities
  | playbackProgressError (message : String)
  | resumed (session : HandleRef)
  | output (o : SessionOutput) (deliverySeq : Option Int)
  | audioHeader (o : AudioOutput) (deliverySeq : Option Int)
  | audioBytes (pcmBytes : List UInt8)
  | textAck (throughSeq : Int) (duplicate : Bool)
  | inputAck (finalSeqNo : Int) (duplicate : Bool)
  | resumeError (code message : String)
  | error (sessionId message code : String)
  deriving DecidableEq, Repr

/-- What the connection asks of the service, of the registry and of a session; a missing sequence
number is the one the handle expects next. -/
inductive Call
  | create (request : String)
  | claimStart (request token : String)
  | find (token : String)
  | attach (session : HandleRef) (lastDeliverySeq audioThroughSample : Int)
  | appendText (handle : HandleRef) (seqNo : Option Int) (text : String)
  | completeInput (handle : HandleRef) (finalSeqNo : Option Int)
  | cancel (handle : HandleRef) (reason : String)
  | closeSession (handle : HandleRef)
  | reliableAppendText (session : HandleRef) (generation : Nat) (seqNo : Int) (text : String)
  | reliableCompleteInput (session : HandleRef) (generation : Nat) (finalSeqNo : Option Int)
  | reliableCancel (session : HandleRef) (generation : Nat) (reason : String)
  | acknowledge (session : HandleRef) (generation : Nat) (seq sample : Int)
  | terminalAck (session : HandleRef) (generation : Nat) (seq sample : Int)
  | recordPlayback (session : HandleRef) (generation : Nat) (played buffered : Int)
      (observed : Option Int)
  | detach (session : HandleRef) (generation : Nat)
  deriving DecidableEq, Repr

/-- What a turn of the connection does to the outside. -/
inductive Action
  | send (f : Frame)
  | sendIfOpen (f : Frame)
  | closeIfOpen
  | call (c : Call)
  deriving DecidableEq, Repr

/-- What an awaited call returns. -/
inductive Result
  | done
  | raised (e : PyError)
  | handle (ref : HandleRef)
  | logical (ref : HandleRef) (created : Bool)
  | generation (g : Nat)
  | ack (seqNo : Int) (duplicate : Bool)
  | delivery (o : SessionOutput) (deliverySeq : Int)
  | fence
  | failure (code message : String)
  deriving DecidableEq, Repr

/-- A start message: the parsed request, and its resume part if it asks for one. -/
structure StartSpec where
  request : String
  resume : Option (String × Int × Int)
  deriving DecidableEq, Repr

/-- A message of the client, with the values of its fields. -/
inductive Message
  | ignored
  | malformed (e : PyError)
  | closed
  | getCapabilities
  | playbackProgress (samples : Except PyError (Int × Int)) (observed : Except PyError (Option Int))
  | start (spec : Except PyError StartSpec)
  | resume (spec : Except PyError (String × Int × Int))
  | oneshot (request : Except PyError String) (text : String)
  | text (explicitSeq : Bool) (seqNo : Except PyError Int) (text : String)
  | stop (explicitSeq : Bool) (finalSeqNo : Except PyError (Option Int))
  | ack (cursor : Except PyError (Int × Int))
  | terminalAck (cursor : Except PyError (Int × Int))
  | cancel (reason : String)
  | unsupported (messageType : String)

/-- What the reader waits for. `final` marks the `stop_active` of the closing connection. -/
inductive ReaderPc
  | idle
  | replying
  | playing
  | creating (oneshot : Option String)
  | claiming (lastDeliverySeq audioThroughSample : Int)
  | finding (lastDeliverySeq audioThroughSample : Int)
  | attaching (session : HandleRef) (announce : Bool)
  | announcing (session : HandleRef)
  | oneshotAppending
  | oneshotCompleting
  | appending (explicitSeq : Bool)
  | completing (explicitSeq : Bool)
  | acking
  | terminalAcking
  | cancellingReliable (final : Bool)
  | cancellingPlain (active : HandleRef) (final : Bool)
  | awaitingTask (active : HandleRef) (task : Nat) (final : Bool)
  | closingSession (final : Bool)
  | reporting
  | detaching
  | ended
  deriving DecidableEq, Repr

/-- The session an output task serves. -/
inductive TaskKind
  | plain (handle : HandleRef)
  | reliable (session : HandleRef)
  deriving DecidableEq, Repr

/-- Where an output task is: waiting for an output, sending the frames of one (with those still to
come), closing its plain session behind the terminal frame, leaving after a fence or a failure,
finished behind the terminal frame, or stopped without one. -/
inductive TaskPc
  | none
  | waiting (kind : TaskKind)
  | sending (kind : TaskKind) (rest : List Frame) (terminal : Bool)
  | closing
  | leaving
  | finished
  | stopped
  deriving DecidableEq, Repr

/-- The three sample variables of a connection. -/
structure Samples where
  outputSampleLimit : Int := 0
  playbackPlayedSample : Int := 0
  playbackBufferedSample : Int := 0
  deriving DecidableEq, Repr

/-- The state of a connection: its local variables, the reader, and every output task it created. -/
structure Connection where
  handle : Option HandleRef
  reliable : Option HandleRef
  attachment : Option Nat
  outputTask : Option Nat
  samples : Samples
  reader : ReaderPc
  tasks : Nat → TaskPc
  next : Nat

namespace Connection

/-- A new connection, whose output tasks are numbered from `next` on. -/
def fresh (next : Nat) : Connection where
  handle := none
  reliable := none
  attachment := none
  outputTask := none
  samples := {}
  reader := .idle
  tasks := fun _ => .none
  next := next

/-- A turn: the new state and its actions. -/
abbrev Turn := Connection × List Action

/-! ## Errors and the end of the connection -/

/-- `_native_resume_error_code`. -/
def nativeResumeErrorCode (code : String) : String :=
  if code = "invalid_cursor" then "invalid_resume_cursor"
  else if code = "cursor_ahead" then "invalid_resume_cursor"
  else if code = "cursor_expired" then "resume_window_exceeded"
  else if code = "cursor_mismatch" then "resume_audio_cursor_mismatch"
  else if code = "stale_attachment" then "resume_attachment_superseded"
  else code

/-- The frame `send_error` makes of an exception. -/
def errorFrame (handle : Option HandleRef) (e : PyError) : Frame :=
  let rawCode := e.code.getD ""
  let code := nativeResumeErrorCode (if rawCode = "" then "invalid_request" else rawCode)
  if e.kind = .resumable then .resumeError code e.message
  else .error ((handle.map (·.clientSessionId)).getD "") e.message code

/-- The reader asks something of the outside and waits. -/
def await (c : Connection) (pc : ReaderPc) (call : Call) : Turn :=
  ({ c with reader := pc }, [.call call])

/-- The reader sends a frame and goes on with the next message. -/
def reply (c : Connection) (f : Frame) : Turn := ({ c with reader := .replying }, [.send f])

/-- An exception leaves the loop and is reported. -/
def fail (c : Connection) (e : PyError) : Turn :=
  ({ c with reader := .reporting }, [.sendIfOpen (errorFrame c.handle e)])

/-- Whether a task has nothing more to do. -/
def TaskDone : TaskPc → Bool
  | .none => true
  | .finished => true
  | .stopped => true
  | _ => false

/-- The last lines of the handler: the output task is cancelled and the socket closed. -/
def finish (c : Connection) : Turn :=
  ({ c with
      reader := .ended
      outputTask := none
      tasks := match c.outputTask with
        | none => c.tasks
        | some i => if TaskDone (c.tasks i) then c.tasks else Function.update c.tasks i .stopped },
    [.closeIfOpen])

/-- The reader after `stop_active`: back in the loop, or at the end of the handler. -/
def afterStop (c : Connection) (final : Bool) : Turn :=
  if final then c.finish else ({ c with reader := .idle }, [])

/-- An exception in `stop_active`: reported, or out of the closing handler. -/
def stopRaised (c : Connection) (final : Bool) (e : PyError) : Turn :=
  if final then ({ c with reader := .ended }, []) else c.fail e

/-- `stop_active` up to its first await. -/
def stopActive (c : Connection) (reason : String) (final : Bool) : Turn :=
  match c.handle with
  | none => c.afterStop final
  | some active =>
      match c.reliable, c.attachment with
      | some session, some generation =>
          c.await (.cancellingReliable final) (.reliableCancel session generation reason)
      | _, _ => c.await (.cancellingPlain active final) (.cancel active reason)

/-- The `finally` block of the handler. -/
def finalize (c : Connection) : Turn :=
  match c.reliable, c.attachment with
  | some session, some generation => c.await .detaching (.detach session generation)
  | _, _ => c.stopActive "websocket_closed" true

/-! ## The output tasks -/

/-- `asyncio.create_task` of an output task, which becomes the current one. -/
def spawn (c : Connection) (kind : TaskKind) : Connection :=
  { c with
    tasks := Function.update c.tasks c.next (.waiting kind)
    outputTask := some c.next
    next := c.next + 1 }

/-- The frames of one output (`send_projection`). -/
def projection (o : SessionOutput) (deliverySeq : Option Int) : List Frame :=
  match o with
  | .audio a => [.audioHeader a deliverySeq, .audioBytes a.pcmBytes]
  | o => [.output o deliverySeq]

/-- Whether `send_projection` reports the end of the session. -/
def isTerminal : SessionOutput → Bool
  | .terminal _ => true
  | _ => false

/-- An audio output raises the sample limit of the connection. -/
def Samples.observe (s : Samples) : SessionOutput → Samples
  | .audio a => { s with outputSampleLimit := max s.outputSampleLimit a.outputSampleEnd }
  | _ => s

/-- The task `i` with another program counter. -/
def setTask (c : Connection) (i : Nat) (pc : TaskPc) : Connection :=
  { c with tasks := Function.update c.tasks i pc }

/-- The task `i` ends: its `finally` block clears the variable if it is still the current task. -/
def endTask (c : Connection) (i : Nat) (pc : TaskPc) : Connection :=
  { c.setTask i pc with outputTask := if c.outputTask = some i then none else c.outputTask }

/-- The task sends the next of these frames. -/
def sendFrames (c : Connection) (i : Nat) (kind : TaskKind) (frames : List Frame)
    (terminal : Bool) : Turn :=
  match frames with
  | [] => (c.setTask i (.sending kind [] terminal), [])
  | f :: rest => (c.setTask i (.sending kind rest terminal), [.send f])

/-- A turn of an output task (`send_output`, `send_reliable_output`). -/
def resumeTask (c : Connection) (i : Nat) (r : Result) : Turn :=
  match c.tasks i, r with
  | .waiting kind, .delivery o seq =>
      let deliverySeq := match kind with
        | .plain _ => none
        | .reliable _ => some seq
      { c with samples := Samples.observe c.samples o }.sendFrames i kind
        (projection o deliverySeq) (isTerminal o)
  | .waiting (.reliable _), .fence => (c.setTask i .leaving, [.closeIfOpen])
  | .waiting (.reliable _), .failure code message =>
      (c.setTask i .leaving, [.send (.resumeError code message)])
  | .sending kind (f :: rest) terminal, .done => c.sendFrames i kind (f :: rest) terminal
  | .sending kind [] false, .done => (c.setTask i (.waiting kind), [])
  | .sending (.plain handle) [] true, .done =>
      (c.setTask i .closing, [.call (.closeSession handle)])
  | .sending (.reliable _) [] true, .done => (c.endTask i .finished, [])
  | .sending _ _ _, .raised _ => (c.endTask i .stopped, [])
  | .closing, .done => ({ c.endTask i .finished with handle := none }, [])
  | .closing, .raised _ => (c.endTask i .stopped, [])
  | .leaving, .done => (c.endTask i .stopped, [])
  | .leaving, .raised _ => (c.endTask i .stopped, [])
  | _, _ => (c, [])

/-! ## The reader -/

/-- The refusal of a second session. -/
def sessionActive : PyError :=
  ⟨.value, some "session_active", "websocket session has already been started"⟩

/-- A playback report of a session that is not resumable, judged against the sample variables. -/
def plainPlayback (c : Connection) (played buffered : Int) : Turn :=
  let s := c.samples
  if buffered < played then
    c.reply (.playbackProgressError "buffered_through_sample must be >= played_through_sample")
  else if played ≤ s.playbackPlayedSample ∧ buffered ≤ s.playbackBufferedSample then (c, [])
  else if played < s.playbackPlayedSample then
    c.reply (.playbackProgressError "played_through_sample cannot move backwards")
  else if buffered < s.playbackBufferedSample then
    c.reply (.playbackProgressError "buffered_through_sample cannot move backwards")
  else if buffered > s.outputSampleLimit then
    c.reply (.playbackProgressError "buffered_through_sample is ahead of server output")
  else
    ({ c with samples :=
        { s with playbackPlayedSample := played, playbackBufferedSample := buffered } }, [])

/-- The branch of the resumable session in a handler, or the branch of the others. -/
def onReliable (c : Connection) (yes : HandleRef → Nat → Turn) (no : Turn) : Turn :=
  match c.reliable, c.attachment with
  | some session, some generation => yes session generation
  | _, _ => no

/-- The message handlers up to their first await. -/
def readMessage (c : Connection) : Message → Turn
  | .ignored => (c, [])
  | .malformed e => c.fail e
  | .closed => c.finalize
  | .getCapabilities => c.reply .capabilities
  | .playbackProgress (.error e) _ => c.fail e
  | .playbackProgress (.ok (played, buffered)) observed =>
      c.onReliable
        (fun session generation =>
          match observed with
          | .error e => c.reply (.playbackProgressError e.message)
          | .ok observed => c.await .playing
              (.recordPlayback session generation played buffered observed))
        (c.plainPlayback played buffered)
  | .start spec =>
      match c.handle, spec with
      | some _, _ => c.fail sessionActive
      | none, .error e => c.fail e
      | none, .ok ⟨request, none⟩ => c.await (.creating none) (.create request)
      | none, .ok ⟨request, some (token, seq, sample)⟩ =>
          c.await (.claiming seq sample) (.claimStart request token)
  | .resume spec =>
      match c.handle, spec with
      | some _, _ => c.fail sessionActive
      | none, .error e => c.fail e
      | none, .ok (token, seq, sample) => c.await (.finding seq sample) (.find token)
  | .oneshot request text =>
      match c.handle, request with
      | some _, _ => c.fail sessionActive
      | none, .error e => c.fail e
      | none, .ok request => c.await (.creating (some text)) (.create request)
  | message =>
      match c.handle with
      | none => c.fail ⟨.value, some "session_not_started", "received input before 'start'"⟩
      | some handle =>
          match message with
          | .text explicitSeq seqNo text =>
              c.onReliable
                (fun session generation =>
                  match seqNo with
                  | .error e => c.fail e
                  | .ok seq => c.await (.appending explicitSeq)
                      (.reliableAppendText session generation seq text))
                (match explicitSeq, seqNo with
                  | false, _ => c.await (.appending false) (.appendText handle none text)
                  | true, .error e => c.fail e
                  | true, .ok seq => c.await (.appending true) (.appendText handle (some seq) text))
          | .stop explicitSeq finalSeqNo =>
              match finalSeqNo with
              | .error e => c.fail e
              | .ok final =>
                  c.onReliable
                    (fun session generation => c.await (.completing explicitSeq)
                      (.reliableCompleteInput session generation final))
                    (c.await (.completing explicitSeq) (.completeInput handle final))
          | .ack cursor =>
              c.onReliable
                (fun session generation =>
                  match cursor with
                  | .error e => c.fail e
                  | .ok (seq, sample) =>
                      c.await .acking (.acknowledge session generation seq sample))
                (c.fail ⟨.resumable, some "resume_not_enabled",
                  "delivery ACK is only valid for a resumable stream"⟩)
          | .terminalAck cursor =>
              c.onReliable
                (fun session generation =>
                  match cursor with
                  | .error e => c.fail e
                  | .ok (seq, sample) =>
                      c.await .terminalAcking (.terminalAck session generation seq sample))
                (c.fail ⟨.resumable, some "resume_not_enabled",
                  "terminal ACK is only valid for a resumable stream"⟩)
          | .cancel reason => c.stopActive reason false
          | .unsupported messageType =>
              c.fail ⟨.value, none, "unsupported websocket message type: '" ++
                (if messageType = "" then "<empty>" else messageType) ++ "'"⟩
          | _ => (c, [])

/-- The reader back in its loop. -/
def goIdle (c : Connection) : Turn := ({ c with reader := .idle }, [])

/-- A session was created: it becomes the handle, its output task is started, and a oneshot request
goes on with its text. -/
def created (c : Connection) (ref : HandleRef) (oneshot : Option String) : Turn :=
  let c' := { c with handle := some ref }.spawn (.plain ref)
  match oneshot with
  | none => c'.goIdle
  | some text =>
      if text = "" then c'.fail ⟨.value, none, "oneshot request requires non-empty 'text'"⟩
      else c'.await .oneshotAppending (.appendText ref (some 1) text)

/-- `stop_active` behind the cancellation of the session, whatever became of it. -/
def afterCancel (c : Connection) (active : HandleRef) (final : Bool) : Turn :=
  match c.outputTask with
  | none => c.await (.closingSession final) (.closeSession active)
  | some i =>
      if TaskDone (c.tasks i) then c.await (.closingSession final) (.closeSession active)
      else ({ c with reader := .awaitingTask active i final }, [])

/-- A turn of the reader after an await. -/
def resumeReader (c : Connection) (r : Result) : Turn :=
  match c.reader, r with
  | .replying, .done => c.goIdle
  | .replying, .raised e => c.fail e
  | .reporting, .done => c.finalize
  | .reporting, .raised _ => c.finalize
  | .playing, .done => c.goIdle
  | .playing, .raised e =>
      if e.kind = .other then c.fail e else c.reply (.playbackProgressError e.message)
  | .creating oneshot, .handle ref => c.created ref oneshot
  | .creating _, .raised e => c.fail e
  | .claiming seq sample, .logical ref created =>
      { c with reliable := some ref }.await (.attaching ref (!created)) (.attach ref seq sample)
  | .claiming _ _, .raised e => c.fail e
  | .finding seq sample, .logical ref _ =>
      { c with reliable := some ref }.await (.attaching ref true) (.attach ref seq sample)
  | .finding _ _, .raised e => c.fail e
  | .attaching session announce, .generation g =>
      let c' := { c with attachment := some g, handle := some session }
      if announce then ({ c' with reader := .announcing session }, [.send (.resumed session)])
      else (c'.spawn (.reliable session)).goIdle
  | .attaching _ _, .raised e => c.fail e
  | .announcing session, .done => (c.spawn (.reliable session)).goIdle
  | .announcing _, .raised e => c.fail e
  | .oneshotAppending, .ack _ _ =>
      match c.handle with
      | none => c.fail ⟨.other, none, "'NoneType' object has no attribute 'complete_input'"⟩
      | some handle => c.await .oneshotCompleting (.completeInput handle (some 1))
  | .oneshotAppending, .raised e => c.fail e
  | .oneshotCompleting, .ack _ _ => c.goIdle
  | .oneshotCompleting, .raised e => c.fail e
  | .appending explicitSeq, .ack seq duplicate =>
      if c.reliable.isSome || explicitSeq then c.reply (.textAck seq duplicate) else c.goIdle
  | .appending _, .raised e => c.fail e
  | .completing explicitSeq, .ack seq duplicate =>
      if c.reliable.isSome || explicitSeq then c.reply (.inputAck seq duplicate) else c.goIdle
  | .completing _, .raised e => c.fail e
  | .acking, .done => c.goIdle
  | .acking, .raised e => c.fail e
  | .terminalAcking, .done => { c with handle := none, reliable := none, attachment := none }.goIdle
  | .terminalAcking, .raised e => c.fail e
  | .cancellingReliable final, .done => c.afterStop final
  | .cancellingReliable final, .raised e => c.stopRaised final e
  | .cancellingPlain active final, .done => c.afterCancel active final
  | .cancellingPlain active final, .raised _ => c.afterCancel active final
  | .awaitingTask active i final, .done =>
      if TaskDone (c.tasks i) then c.await (.closingSession final) (.closeSession active) else (c, [])
  | .awaitingTask _ i final, .raised e =>
      if TaskDone (c.tasks i) then c.stopRaised final e else (c, [])
  | .closingSession final, .done =>
      { c with handle := none, reliable := none, attachment := none, outputTask := none }.afterStop
        final
  | .closingSession final, .raised e => c.stopRaised final e
  | .detaching, .done => c.finish
  | .detaching, .raised _ => ({ c with reader := .ended }, [])
  | _, _ => (c, [])

/-- A turn of the connection. -/
inductive Event
  | read (m : Message)
  | reader (r : Result)
  | task (i : Nat) (r : Result)

/-- One turn. A message is taken only by an idle reader. -/
def turn (c : Connection) : Event → Turn
  | .read m => if c.reader = .idle then c.readMessage m else (c, [])
  | .reader r => c.resumeReader r
  | .task i r => c.resumeTask i r

end Connection

end StreamingTts.Gateway
