import Mathlib.Data.List.Basic
import StreamingTts.Lib.Transition

/-!
# The output of a gRPC stream

`TTSServicer.SynthesizeStream` of `engine/gateway/grpc_server.py`, as far as its output goes. The
callbacks of the engine put messages into `audio_queue`, and three places take them out: the get task that
the handler parks while it waits (`audio_task`), the drain behind each request, and the coalescer, which
hands back the first message that it cannot merge. The handler gives the control away at its waits, at the
engine calls of a request and at every `yield`; what it does between two of them is one step, and a
callback that puts, or the parked task that takes, can come in at any of them.

`asyncio.Queue.get` takes the head of the queue when its task runs, and `get_nowait` takes the head at once.
The sample stamps are those of `OutputPipeline._encode_audio`: a cursor over the samples that were encoded.
-/

namespace StreamingTts.Gateway

open Lib

namespace Grpc

/-! ## Messages -/

/-- `AudioEncoding`. -/
inductive AudioEncoding
  | pcmF32le
  | pcmS16le
  deriving DecidableEq, Repr

/-- `tts_pb2.AudioChunk`. The standard keys of `meta` are fields; `extra` are its other entries. -/
structure AudioChunk where
  pcmData : List UInt8
  sampleRate : Nat
  encoding : AudioEncoding
  channels : Nat
  outputSampleStart : Nat
  outputSampleEnd : Nat
  extra : List (String × String)
  deriving DecidableEq, Repr

/-- `tts_pb2.StreamEvent`, with its type and message. -/
structure StreamEvent where
  type : String
  message : String
  deriving DecidableEq, Repr

/-- A message of the queue, which is also the response that is yielded for it. -/
inductive Message
  | audio (chunk : AudioChunk)
  | event (event : StreamEvent)
  deriving DecidableEq, Repr

/-- `_is_done_response`. -/
def isDoneResponse : Message → Bool
  | .audio _ => false
  | .event e => e.type = "done" || e.type = "error"

/-! ## Coalescing -/

/-- `_COALESCE_MAX_BYTES`. -/
def coalesceMaxBytes : Nat := 256 * 1024

/-- Whether a chunk may be absorbed: it has no entries besides `_MERGEABLE_META_KEYS`, and the format of
the head. -/
def mergeable (head next : AudioChunk) : Bool :=
  next.extra.isEmpty && next.sampleRate == head.sampleRate && next.encoding == head.encoding
    && next.channels == head.channels

/-- The head with one more chunk in it. -/
def absorb (head next : AudioChunk) : AudioChunk :=
  { head with
    pcmData := head.pcmData ++ next.pcmData
    outputSampleEnd := max head.outputSampleEnd next.outputSampleEnd }

/-- `_coalesce_queued_audio`: the merged chunk, the leftover message and the rest of the queue. -/
def coalesceQueuedAudio (head : AudioChunk) : List Message → AudioChunk × Option Message × List Message
  | [] => (head, none, [])
  | message :: queue =>
      if head.pcmData.length < coalesceMaxBytes then
        match message with
        | .audio next =>
            if mergeable head next then coalesceQueuedAudio (absorb head next) queue
            else (head, some message, queue)
        | .event _ => (head, some message, queue)
      else (head, none, message :: queue)

/-! ## The handler -/

/-- An entry of the request queue: a request of the client, the end of its requests, or the failure to read
them. -/
inductive Request
  | start
  | text
  | finish
  | cancel
  | unset
  | eof
  | error (message : String)
  deriving DecidableEq, Repr

/-- The parked get task. -/
inductive Parked
  | waiting
  | holds (message : Message)
  deriving DecidableEq, Repr

/-- Where the handler has given the control away. -/
inductive Phase
  /-- in `asyncio.wait` -/
  | waiting
  /-- behind a `yield` of the flush, with the request that is handled afterwards -/
  | flushing (leftover : Option Message) (request : Option Request)
  /-- in the engine call of a request -/
  | handling (request : Request)
  /-- behind a `yield` of the drain -/
  | draining (pending : Option Message)
  | ended
  deriving DecidableEq, Repr

/-- A stream: the queue with everything that was put into it, the handler, and what it has yielded, from
the queue and of its own. -/
structure Stream where
  cursor : Nat
  puts : List Message
  queue : List Message
  parked : Option Parked
  phase : Phase
  started : Bool
  inputEof : Bool
  gotCancel : Bool
  forwarded : List Message
  own : List Message
  deriving DecidableEq, Repr

/-- What a callback of the engine has for the client. -/
inductive Output
  | audio (pcmData : List UInt8) (samples sampleRate : Nat) (encoding : AudioEncoding)
      (channels : Nat) (extra : List (String × String))
  | event (event : StreamEvent)
  deriving DecidableEq, Repr

/-- What happens next on a stream. -/
inductive Event
  | put (output : Output)
  /-- the parked get task takes the head of the queue -/
  | take
  /-- the wait of the handler ends, with a request if there is one -/
  | wake (request : Option Request)
  /-- the handler goes on behind an engine call or a `yield`; `raises` is the exception of the call -/
  | resume (raises : Option String)
  deriving DecidableEq, Repr

namespace Stream

/-- A stream whose handler waits for the first request. -/
def new : Stream where
  cursor := 0
  puts := []
  queue := []
  parked := none
  phase := .waiting
  started := false
  inputEof := false
  gotCancel := false
  forwarded := []
  own := []

/-- The responses of the stream. -/
def yielded (s : Stream) : List Message := s.forwarded ++ s.own

variable (s : Stream)

/-- The event behind the `finally`. -/
def streamEnded : Message := .event ⟨"done", "Stream ended"⟩

/-- The handler leaves its loop. -/
def leave : Stream := { s with phase := .ended, own := s.own ++ [streamEnded] }

/-- The handler leaves its loop by an exception. -/
def fail (message : String) : Stream := leave { s with own := s.own ++ [.event ⟨"error", message⟩] }

/-- The get task behind the head of the loop. -/
def park : Option Parked :=
  match s.parked with
  | some p => some p
  | none => if s.started && !s.gotCancel then some .waiting else none

/-- The head of the loop. -/
def loop : Stream :=
  if s.inputEof && s.park.isNone then s.leave else { s with parked := s.park, phase := .waiting }

/-- The end of the body of the loop. -/
def endRound : Stream := if s.inputEof && s.gotCancel then s.leave else s.loop

/-- A message is yielded, with what the coalescer finds in `queue` behind it. -/
def yieldNext (message : Message) (queue : List Message) (phase : Option Message → Phase) : Stream :=
  match message with
  | .audio chunk =>
      let (merged, leftover, rest) := coalesceQueuedAudio chunk queue
      { s with queue := rest, forwarded := s.forwarded ++ [.audio merged], phase := phase leftover }
  | .event e =>
      { s with
        queue := queue
        forwarded := s.forwarded ++ [.event e]
        phase := if isDoneResponse (.event e) then .ended else phase none }

/-- `_drain_available_audio`, up to its next `yield`. -/
def drain (pending : Option Message) : Stream :=
  match pending, s.queue with
  | some message, queue => s.yieldNext message queue .draining
  | none, message :: queue => s.yieldNext message queue .draining
  | none, [] => s.endRound

/-- The event at the end of `_create_session`. -/
def sessionStarted : Message := .event ⟨"start", ""⟩

/-- The request branch raises: the requests could not be read, or the stream was started before, or an
engine call has raised. -/
def requestRaises (request : Request) (raises : Option String) : Option String :=
  match request with
  | .error message => some message
  | .start => if s.started then some "gRPC stream session has already been started" else raises
  | .text | .finish | .cancel | .unset | .eof => raises

/-- The request branch behind its engine call. -/
def handled : Request → Stream
  | .start =>
      drain
        { s with started := true, puts := s.puts ++ [sessionStarted], queue := s.queue ++ [sessionStarted] }
        none
  | .cancel => drain { s with gotCancel := true, inputEof := true } none
  | .eof => endRound { s with inputEof := true }
  | .text | .finish | .unset | .error _ => s.drain none

/-- The wait of the handler ends. -/
def wake (request : Option Request) : Stream :=
  let request := if s.inputEof then none else request
  match s.parked with
  | some (.holds message) =>
      yieldNext { s with parked := none } message s.queue (.flushing · request)
  | _ =>
      match request with
      | some request => { s with phase := .handling request }
      | none => s

/-- The handler goes on. -/
def resume (raises : Option String) : Stream :=
  match s.phase with
  | .flushing (some message) request => s.yieldNext message s.queue (.flushing · request)
  | .flushing none (some request) => { s with phase := .handling request }
  | .flushing none none => s.loop
  | .handling request =>
      match s.requestRaises request raises with
      | some message => s.fail message
      | none => s.handled request
  | .draining pending => s.drain pending
  | .waiting | .ended => s

/-- The callbacks are registered by the engine call of the start. -/
def callable : Bool := s.started || s.phase = .handling .start

/-- A message is put. -/
def enqueue (message : Message) : Stream :=
  { s with puts := s.puts ++ [message], queue := s.queue ++ [message] }

/-- A callback of the engine puts its output; audio without data is not put. -/
def put : Output → Stream
  | .audio pcmData samples sampleRate encoding channels extra =>
      if pcmData.isEmpty then s
      else
        enqueue { s with cursor := s.cursor + samples }
          (.audio ⟨pcmData, sampleRate, encoding, channels, s.cursor, s.cursor + samples, extra⟩)
  | .event e => s.enqueue (.event e)

/-- The parked task runs. -/
def take : Stream :=
  match s.parked, s.queue with
  | some .waiting, message :: queue => { s with parked := some (.holds message), queue := queue }
  | _, _ => s

/-- One event. -/
def step (s : Stream) : Event → Stream
  | .put output => if s.phase ≠ .ended ∧ s.callable then s.put output else s
  | .take => if s.phase = .ended then s else s.take
  | .wake request => if s.phase = .waiting then s.wake request else s
  | .resume raises => s.resume raises

end Stream

/-! ## What the client gets -/

/-- A head with the chunks behind it, merged into one. -/
def merged (head : AudioChunk) (rest : List AudioChunk) : AudioChunk :=
  { head with
    pcmData := head.pcmData ++ rest.flatMap (·.pcmData)
    outputSampleEnd := (rest.getLastD head).outputSampleEnd }

/-- The second list is the first one with adjacent audio merged. -/
inductive Coalesced : List Message → List Message → Prop
  | nil : Coalesced [] []
  | event {ms ys : List Message} (e : StreamEvent) :
      Coalesced ms ys → Coalesced (ms ++ [.event e]) (ys ++ [.event e])
  | audio {ms ys : List Message} (head : AudioChunk) (rest : List AudioChunk) :
      Coalesced ms ys →
        Coalesced (ms ++ .audio head :: rest.map .audio) (ys ++ [.audio (merged head rest)])

/-- The data of a message. -/
def Message.pcmData : Message → List UInt8
  | .audio chunk => chunk.pcmData
  | .event _ => []

/-- The message that the handler has taken and not yielded yet. -/
def Phase.pending : Phase → List Message
  | .flushing leftover _ => leftover.toList
  | .draining pending => pending.toList
  | .waiting | .handling _ | .ended => []

namespace Stream

/-- The message that the parked task has taken. -/
def parkedMessage (s : Stream) : List Message :=
  match s.parked with
  | some (.holds message) => [message]
  | _ => []

/-- The messages that were put and not yielded. -/
def held (s : Stream) : List Message := s.phase.pending ++ s.parkedMessage ++ s.queue

/-- The output is in order: what was yielded from the queue are the messages up to those that are held, with
adjacent audio merged; no response but the last one is a terminal; and at the end nothing is held, unless the
last message from the queue is a terminal. -/
structure InOrder (s : Stream) : Prop where
  order : ∃ taken, taken ++ s.held = s.puts ∧ Coalesced taken s.forwarded
    ∧ s.forwarded.flatMap (·.pcmData) = taken.flatMap (·.pcmData)
  terminal : ∀ m ∈ s.yielded.dropLast, isDoneResponse m = false
  complete : s.phase = .ended →
    s.held = [] ∨ ∃ m, s.forwarded.getLast? = some m ∧ isDoneResponse m = true

/-- The handler goes on while the parked task has a message in its hand: the drain leaves the queue, which
is behind that message, alone, and the handler does not leave its loop. And no request raises. -/
def GoesOnInTurn (s : Stream) (raises : Option String) : Phase → Prop
  | .handling request =>
      s.requestRaises request raises = none
        ∧ (s.parkedMessage = [] ∨ request = .eof ∨ s.queue = [] ∧ request ≠ .cancel)
  | .draining (some (.audio _)) => s.parkedMessage = [] ∨ s.queue = []
  | .draining none => s.parkedMessage = [] ∨ s.queue = [] ∧ s.gotCancel = false
  | .draining (some (.event _)) | .waiting | .flushing _ _ | .ended => True

instance (s : Stream) (raises : Option String) : (phase : Phase) → Decidable (s.GoesOnInTurn raises phase)
  | .handling request =>
      inferInstanceAs (Decidable (s.requestRaises request raises = none
        ∧ (s.parkedMessage = [] ∨ request = .eof ∨ s.queue = [] ∧ request ≠ .cancel)))
  | .draining (some (.audio _)) => inferInstanceAs (Decidable (s.parkedMessage = [] ∨ s.queue = []))
  | .draining none =>
      inferInstanceAs (Decidable (s.parkedMessage = [] ∨ s.queue = [] ∧ s.gotCancel = false))
  | .draining (some (.event _)) | .waiting | .flushing _ _ | .ended => .isTrue trivial

/-- The parked task and the drain do not cross. -/
def InTurn (s : Stream) : Event → Prop
  | .resume raises => s.GoesOnInTurn raises s.phase
  | .put _ | .take | .wake _ => True

instance (s : Stream) : (event : Event) → Decidable (s.InTurn event)
  | .resume raises => inferInstanceAs (Decidable (s.GoesOnInTurn raises s.phase))
  | .put _ | .take | .wake _ => .isTrue trivial

end Stream

end Grpc

end StreamingTts.Gateway
