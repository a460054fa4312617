import StreamingTts.Session.Resumable
import StreamingTts.Session.Service

/-!
# The input of a Realtime connection

`_RealtimeConnection` of `engine/gateway/openai_realtime.py`, as far as the text of its responses goes:
`_TextBuffer`, `_create_conversation_item`, `_create_response`, `_append_text`, `_commit_text`,
`_cancel_active` and the start in `_run_response`. The connection handles one event of its client at a
time. Two journals number the appended texts: the buffer of the connection, and for a response with a
resume token the journal of its logical session (`Session.SessionHandle`).

`_create_response` takes the pending input out of the connection first and asks the other components
afterwards. What they answer is an argument (`Answers`), and the registry of the logical sessions is the
one of `Session.Resumable`. The fields of a JSON event are the values that the handlers read from them;
`none` stands for a value of the wrong type.
-/

namespace StreamingTts.Gateway

open Session

namespace Realtime

/-- `RealtimeProtocolError`. -/
structure RealtimeProtocolError where
  code : String
  message : String
  param : String
  deriving DecidableEq, Repr

/-! ## The text buffer -/

/-- `_TextBuffer`. -/
structure TextBuffer where
  chunks : List String
  committed : Bool
  nextSequence : Int
  acceptedSequences : Int → Option String

namespace TextBuffer

/-- A new `_TextBuffer`. -/
def new : TextBuffer := ⟨[], false, 1, fun _ => none⟩

/-- `reset_for_response`. -/
def resetForResponse (_b : TextBuffer) : TextBuffer := new

/-- `append`: the number of the text and whether it was accepted before. -/
def append (b : TextBuffer) (text : String) (sequence : Option Int) :
    Except RealtimeProtocolError (Int × Bool) × TextBuffer :=
  if text = "" then (.error ⟨"invalid_text", "append text must not be empty", "text"⟩, b)
  else
    match sequence with
    | none => (.error ⟨"invalid_sequence", "sequence must be an integer", "sequence"⟩, b)
    | some seq =>
        match b.acceptedSequences seq with
        | some prior =>
            if prior ≠ text then
              (.error ⟨"sequence_conflict", "a repeated sequence must contain the same text",
                "sequence"⟩, b)
            else (.ok (seq, true), b)
        | none =>
            if seq ≠ b.nextSequence then
              (.error ⟨"sequence_gap", "expected sequence " ++ toString b.nextSequence ++
                ", received " ++ toString seq, "sequence"⟩, b)
            else if b.committed then
              (.error ⟨"input_already_committed", "cannot append after input commit", "type"⟩, b)
            else
              (.ok (seq, false),
                { b with
                  acceptedSequences := Function.update b.acceptedSequences seq (some text)
                  nextSequence := b.nextSequence + 1
                  chunks := b.chunks ++ [text] })

end TextBuffer

/-! ## The responses -/

/-- Where the texts of a response go: to the execution of the backend, or to a logical session. -/
inductive Sink
  | backend (execution : Execution)
  | reliable (handle : SessionHandle)

/-- The execution of a response. -/
def Sink.execution : Sink → Execution
  | .backend execution => execution
  | .reliable handle => handle.execution.getD {}

/-- The fields of `_ResponseState` that its input works on. `initialChunks` is what the response took
along when it was created. -/
structure Response where
  initialChunks : List String
  pendingChunks : List String
  commitRequested : Bool
  inputChunks : List String
  engineStarted : Bool
  inputComplete : Bool
  finished : Bool
  sink : Sink

/-- The fields of the connection that its input works on. `past` are the responses before the last
one. -/
structure Connection where
  conversationText : List String
  buffer : TextBuffer
  active : Option Response
  past : List Response

/-- A new connection. -/
def Connection.new : Connection := ⟨[], .new, none, []⟩

/-- What a client is told about an event. -/
inductive Outcome
  | accepted
  | duplicate
  | rejected
  deriving DecidableEq, Repr

/-- The value of `response.input`. -/
inductive InputField
  | absent
  | notArray
  /-- the text of each item, `none` for an entry that is no object -/
  | items (entries : List (Option String))
  deriving DecidableEq, Repr

/-- `_text_from_response_input`. -/
def textFromResponseInput : InputField → Except RealtimeProtocolError String
  | .absent => .ok ""
  | .notArray =>
      .error ⟨"invalid_response_input", "response.input must be an array", "response.input"⟩
  | .items entries =>
      if entries.any Option.isNone then
        .error ⟨"invalid_response_input", "response.input entries must be item objects",
          "response.input"⟩
      else .ok (String.join (entries.map (·.getD "")))

/-- The `response` object of a `response.create`. -/
structure ResponseOptions where
  input : InputField
  instructions : Option String
  /-- the `qwen_resume_token` of `metadata`, empty if there is none -/
  resumeToken : Option String
  deriving DecidableEq, Repr

/-- What the other components answer while a response is created. -/
structure Answers where
  /-- `parse_session_start_request` accepts the configuration -/
  configValid : Bool
  /-- `SessionService.create` returns -/
  starts : Bool
  /-- `attach` returns -/
  attaches : Bool
  /-- the push of the text with this number returns -/
  pushes : Nat → Bool
  /-- the end of the input returns -/
  completes : Bool

/-- How `_create_response` raises. -/
inductive CreateError
  | protocol (e : RealtimeProtocolError)
  | config
  | resume (e : ResumableSessionError)
  | start
  | attach
  | append (e : CommandError)
  | complete (e : CommandError)
  deriving DecidableEq, Repr

namespace Connection

variable (s : Connection)

/-- Whether a response is under way. -/
def responding : Bool := s.active.any fun r => !r.finished

/-- The pending input is taken out of the connection. -/
def taken : Connection :=
  { s with conversationText := [], buffer := { s.buffer with chunks := [], committed := false } }

/-- `initial_chunks`. -/
def initialChunks (explicitText : String) : List String :=
  let conversation := String.join s.conversationText
  (if explicitText ≠ "" then [explicitText] else if conversation ≠ "" then [conversation] else [])
    ++ s.buffer.chunks

/-- `commit_requested`. -/
def commitRequested (explicitText : String) : Bool :=
  s.buffer.committed
    || (decide (explicitText ≠ "" ∨ String.join s.conversationText ≠ "") && s.buffer.chunks.isEmpty)

/-- A new `_ResponseState`. -/
def newResponse (explicitText : String) (sink : Sink) : Response where
  initialChunks := s.initialChunks explicitText
  pendingChunks := s.initialChunks explicitText
  commitRequested := s.commitRequested explicitText
  inputChunks := s.initialChunks explicitText
  engineStarted := false
  inputComplete := false
  finished := false
  sink := sink

/-- The end of `_create_response`. -/
def activate (r : Response) : Connection :=
  { s with
    active := some r
    past := s.past ++ s.active.toList
    buffer := s.buffer.resetForResponse }

/-- The initial chunks are appended to the logical session, numbered from `seq` on. -/
def appendInitial (pushes : Nat → Bool) : Nat → List String → SessionHandle →
    Except CommandError SessionHandle
  | _, [], handle => .ok handle
  | seq, text :: rest, handle =>
      match handle.appendText ⟨seq, text⟩ (!pushes seq) with
      | (.error e, _) => .error e
      | (.ok _, handle) => appendInitial pushes (seq + 1) rest handle

/-- The input of a response that was created complete is ended. -/
def completeInitial (completes commitRequested : Bool) (handle : SessionHandle) :
    Except CommandError SessionHandle :=
  if commitRequested then
    match handle.completeInput ⟨handle.acceptedTextSeq⟩ (!completes) with
    | (.error e, _) => .error e
    | (.ok _, handle) => .ok handle
  else .ok handle

/-- The logical session gets the initial input. -/
def fillSession (explicitText : String) (answers : Answers) : Except CreateError Response :=
  match appendInitial answers.pushes 1 (s.initialChunks explicitText) .started with
  | .error e => .error (.append e)
  | .ok handle =>
      match completeInitial answers.completes (s.commitRequested explicitText) handle with
      | .error e => .error (.complete e)
      | .ok handle =>
          .ok
            { s.newResponse explicitText (.reliable handle) with
              engineStarted := true
              inputComplete := s.commitRequested explicitText }

/-- `claim_start` with the initialization of a session it creates, and the attach. -/
def claimSession (registry : Registry) (token fingerprint protocol : String) (answers : Answers) :
    Except CreateError Unit × Registry :=
  match registry.claimStart token fingerprint protocol with
  | (.error e, registry) => (.error (.resume e), registry)
  | (.ok (id, false), registry) =>
      (.error (.protocol ⟨"resume_token_conflict",
        "resume token already owns a response; use qwen.response.resume",
        "response.metadata.qwen_resume_token"⟩), registry.step (fun _ => 0) (.giveUp id))
  | (.ok (id, true), registry) =>
      let registry := registry.initialized id answers.starts
      if !answers.starts then (.error .start, registry)
      else if !answers.attaches then (.error .attach, registry)
      else (.ok (), registry.attach id true 0 0)

/-- The part of `_create_response` behind the resume token, with the input taken already. -/
def createResumable (taken : Connection) (explicitText token fingerprint : String)
    (registry : Option Registry) (answers : Answers) :
    Except CreateError Unit × Connection × Option Registry :=
  match registry with
  | none =>
      (.error (.protocol ⟨"resume_not_supported",
        "this Realtime endpoint does not support active response resume",
        "response.metadata.qwen_resume_token"⟩), taken, none)
  | some registry =>
      if token.length < 16 then
        (.error (.protocol ⟨"invalid_resume_token",
          "qwen_resume_token must contain at least 16 characters",
          "response.metadata.qwen_resume_token"⟩), taken, some registry)
      else
        match claimSession registry token fingerprint "openai-realtime-v1" answers with
        | (.error e, registry) => (.error e, taken, some registry)
        | (.ok (), registry) =>
            match s.fillSession explicitText answers with
            | .error e => (.error e, taken, some registry)
            | .ok r => (.ok (), taken.activate r, some registry)

/-- `_create_response`. -/
def createResponse (response : Option ResponseOptions) (fingerprint : String)
    (registry : Option Registry) (answers : Answers) :
    Except CreateError Unit × Connection × Option Registry :=
  if s.responding then
    (.error (.protocol ⟨"response_in_progress",
      "only one active response is supported per connection", "type"⟩), s, registry)
  else
    match response with
    | none =>
        (.error (.protocol ⟨"invalid_response", "response.create.response must be an object",
          "response"⟩), s, registry)
    | some options =>
        match textFromResponseInput options.input with
        | .error e => (.error (.protocol e), s, registry)
        | .ok explicitText =>
            if !answers.configValid then (.error .config, s.taken, registry)
            else
              match options.resumeToken with
              | none =>
                  (.error (.protocol ⟨"invalid_response", "response.metadata must be an object",
                    "response.metadata"⟩), s.taken, registry)
              | some token =>
                  if token = "" then
                    (.ok (), s.taken.activate (s.newResponse explicitText (.backend {})), registry)
                  else s.createResumable s.taken explicitText token fingerprint registry answers

/-! ## The other events -/

/-- The start of the execution in `_run_response`. -/
def startBackend : Connection :=
  match s.active with
  | some r =>
      match r.sink with
      | .backend execution =>
          if r.engineStarted then s
          else
            { s with
              active := some
                { r with
                  engineStarted := true
                  pendingChunks := []
                  inputComplete := r.inputComplete || r.commitRequested
                  sink := .backend
                    { execution with
                      pushed := execution.pushed ++ r.pendingChunks
                      completed :=
                        execution.completed || (r.commitRequested && !r.inputComplete) } } }
      | .reliable _ => s
  | none => s

/-- A text for the buffer. -/
def bufferText (sequence : Option Int) (text : String) : Outcome × Connection :=
  match s.buffer.append text sequence with
  | (.error _, _) => (.rejected, s)
  | (.ok (_, true), buffer) => (.duplicate, { s with buffer := buffer })
  | (.ok (_, false), buffer) => (.accepted, { s with buffer := buffer })

/-- A text for the logical session of an active response. -/
def appendReliable (r : Response) (handle : SessionHandle) (sequence : Option Int) (text : String)
    (raises : Bool) : Outcome × Connection :=
  match sequence with
  | none => (.rejected, s)
  | some seq =>
      match handle.appendText ⟨seq, text⟩ raises with
      | (.error _, handle) =>
          (.rejected, { s with active := some { r with sink := .reliable handle } })
      | (.ok ack, handle) =>
          if ack.duplicate then
            (.duplicate, { s with active := some { r with sink := .reliable handle } })
          else
            (.accepted,
              { s with
                active := some
                  { r with sink := .reliable handle, inputChunks := r.inputChunks ++ [text] } })

/-- A text for the execution of an active response. -/
def appendBackend (r : Response) (execution : Execution) (sequence : Option Int) (text : String) :
    Outcome × Connection :=
  if r.inputComplete then (.rejected, s)
  else
    match s.buffer.append text sequence with
    | (.error _, _) => (.rejected, s)
    | (.ok (_, true), buffer) => (.duplicate, { s with buffer := buffer })
    | (.ok (_, false), buffer) =>
        (.accepted,
          { s with
            buffer := { buffer with chunks := buffer.chunks.dropLast }
            active := some
              (if r.engineStarted then
                { r with
                  inputChunks := r.inputChunks ++ [text]
                  sink := .backend { execution with pushed := execution.pushed ++ [text] } }
              else
                { r with
                  inputChunks := r.inputChunks ++ [text]
                  pendingChunks := r.pendingChunks ++ [text] }) })

/-- `_append_text`; `raises` is whether the execution of a logical session raises. -/
def appendText (sequence : Option Int) (text : String) (raises : Bool) : Outcome × Connection :=
  match s.active with
  | none => s.bufferText sequence text
  | some r =>
      if r.finished then s.bufferText sequence text
      else
        match r.sink with
        | .reliable handle => s.appendReliable r handle sequence text raises
        | .backend execution => s.appendBackend r execution sequence text

/-- `_commit_text`. -/
def commitText : Outcome × Connection :=
  match s.active with
  | none => (.accepted, { s with buffer := { s.buffer with committed := true } })
  | some r =>
      if r.finished then (.accepted, { s with buffer := { s.buffer with committed := true } })
      else
        match r.sink with
        | .reliable handle =>
            if r.inputComplete then (.accepted, s)
            else
              match handle.completeInput ⟨handle.acceptedTextSeq⟩ false with
              | (.error _, handle) =>
                  (.rejected, { s with active := some { r with sink := .reliable handle } })
              | (.ok _, handle) =>
                  (.accepted,
                    { s with
                      active := some { r with sink := .reliable handle, inputComplete := true } })
        | .backend execution =>
            if r.inputComplete then (.accepted, s)
            else if r.engineStarted then
              (.accepted,
                { s with
                  active := some
                    { r with
                      commitRequested := true
                      inputComplete := true
                      sink := .backend { execution with completed := true } } })
            else (.accepted, { s with active := some { r with commitRequested := true } })

/-- `_create_conversation_item`, with the text of the item. -/
def createConversationItem (text : String) : Outcome × Connection :=
  if text = "" then (.rejected, s)
  else (.accepted, { s with conversationText := s.conversationText ++ [text] })

/-- The terminal output of a cancelled session. -/
def cancelledOutput : TerminalOutput := ⟨"", .cancelled, "client_cancelled", [], []⟩

/-- `_cancel_active` of a `response.cancel`, with the end of the response it waits for. -/
def cancelActive : Outcome × Connection :=
  match s.active with
  | none => (.rejected, s)
  | some r =>
      if r.finished then (.rejected, s)
      else
        match r.sink with
        | .reliable handle =>
            (.accepted,
              { s with
                active := some
                  { r with
                    inputComplete := true
                    finished := true
                    sink := .reliable (handle.cancel.emitTerminal cancelledOutput) } })
        | .backend execution =>
            (.accepted,
              { s with
                active := some
                  { r with
                    finished := true
                    sink := .backend { execution with cancelled := true } } })

/-- The execution of the active response has ended, and `_finish_response` has run. -/
def finishResponse (output : TerminalOutput) : Connection :=
  match s.active with
  | none => s
  | some r =>
      let sink :=
        match r.sink with
        | .reliable handle => .reliable (handle.emitTerminal output)
        | .backend execution => .backend execution
      { s with active := some { r with finished := true, sink := sink } }

end Connection

end Realtime

end StreamingTts.Gateway
