import StreamingTts.Client.Resampler
import StreamingTts.Lib.Transition

/-!
# The browser player and its worklet

`BrowserAudioPlayer` in `browser-sdk/src/audio/browser-audio-player.ts`, `PlaybackCursorQueue` in
`playback-cursor.ts`, and `QwenPcmPlayerProcessor` in `pcm-player-worklet.ts`, started and not paused: two
threads with a queue of messages in each direction. The player counts the frames it has pushed and the
worklet has not reported; the worklet counts the frames it has and reports the ones it has rendered.

`pushed` and `rendered` are histories of the stream since the last clear or change of the rate, and no
operation reads them.
-/

namespace StreamingTts.Client.AudioPlayer

open Resampler

/-! ## The cursor queue -/

/-- `CursorSegment`. -/
structure CursorSegment where
  outputFrames : Nat
  consumedFrames : Nat
  sourceStart : Int
  sourceEnd : Int
  deriving DecidableEq, Repr

/-- Where the source stands when some frames of a segment are consumed. -/
def CursorSegment.place (segment : CursorSegment) (frames : Nat) : Int :=
  segment.sourceStart + ((segment.sourceEnd - segment.sourceStart) * frames).tdiv segment.outputFrames

/-- `PlaybackCursorQueue`. -/
structure PlaybackCursorQueue where
  segments : List CursorSegment := []
  played : Int := 0
  buffered : Int := 0
  outputFrames : Nat := 0
  deriving DecidableEq, Repr

namespace PlaybackCursorQueue

/-- `push`. -/
def push (q : PlaybackCursorQueue) (outputFrames : Nat) (sourceStart sourceEnd : Int) :
    Except String PlaybackCursorQueue :=
  if outputFrames = 0 then .ok q
  else if sourceStart ≠ q.buffered ∨ sourceEnd < sourceStart then
    .error "Playback source cursor must be contiguous and increasing"
  else
    .ok { q with
      segments := q.segments ++ [⟨outputFrames, 0, sourceStart, sourceEnd⟩]
      outputFrames := q.outputFrames + outputFrames
      buffered := sourceEnd }

/-- The loop of `consume`. -/
def consumeSegments : List CursorSegment → Nat → Int → List CursorSegment × Int
  | [], _, played => ([], played)
  | segment :: rest, remaining, played =>
      if remaining = 0 then (segment :: rest, played)
      else
        let consumed := min (segment.outputFrames - segment.consumedFrames) remaining
        let frames := segment.consumedFrames + consumed
        if frames = segment.outputFrames then
          consumeSegments rest (remaining - consumed) segment.sourceEnd
        else ({ segment with consumedFrames := frames } :: rest, segment.place frames)

/-- `consume`. -/
def consume (q : PlaybackCursorQueue) (frames : Nat) : PlaybackCursorQueue :=
  let (segments, played) := consumeSegments q.segments frames q.played
  { q with segments := segments, played := played, outputFrames := q.outputFrames - frames }

/-- `clear`. -/
def clear (cursor : Int) : PlaybackCursorQueue := ⟨[], cursor, cursor, 0⟩

end PlaybackCursorQueue

/-! ## The worklet -/

/-- The messages to the worklet. -/
inductive ToWorklet
  | push (samples : List ℚ)
  | clear
  deriving DecidableEq

/-- The messages of the worklet. -/
inductive ToPlayer
  | consumed (frames : Nat)
  | underrun
  | overflow (queuedFrames : Nat)
  deriving DecidableEq, Repr

/-- `QwenPcmPlayerProcessor`. -/
structure Worklet where
  chunks : List (List ℚ) := []
  chunkOffset : Nat := 0
  queuedFrames : Nat := 0
  consumedSinceReport : Nat := 0
  underrunReported : Bool := false

/-- The rate of the audio context, and `maximumQueuedFrames()`. -/
structure Config where
  contextRate : Int
  maxFrames : Nat

/-- `maxQueuedFrames` of the worklet: the configured number if it is a safe integer and positive. -/
def Config.maxQueuedFrames (config : Config) : Nat :=
  if 0 < config.maxFrames ∧ config.maxFrames ≤ 2 ^ 53 - 1 then config.maxFrames else 48000 * 3600

namespace Worklet

/-- `port.onmessage` of the worklet. -/
def receive (config : Config) (w : Worklet) : ToWorklet → Worklet × List ToPlayer
  | .push samples =>
      if config.maxQueuedFrames < w.queuedFrames + samples.length then
        (w, [.overflow w.queuedFrames])
      else
        ({ w with
          chunks := w.chunks ++ [samples]
          queuedFrames := w.queuedFrames + samples.length
          underrunReported := false }, [])
  | .clear => ({ w with chunks := [], chunkOffset := 0, queuedFrames := 0 }, [])

/-- The loop of `process`: the chunks, the offset in the first one, and how many frames went to the
output. -/
def render : List (List ℚ) → Nat → Nat → List (List ℚ) × Nat × Nat
  | [], offset, _ => ([], offset, 0)
  | chunk :: rest, offset, room =>
      if room = 0 then (chunk :: rest, offset, 0)
      else
        let count := min room (chunk.length - offset)
        if offset + count = chunk.length then
          let (chunks, offset, more) := render rest 0 (room - count)
          (chunks, offset, count + more)
        else (chunk :: rest, offset + count, count)

/-- `process`, with an output of some frames: the worklet, its messages, and the rendered frames. -/
def process (w : Worklet) (outputLength : Nat) : Worklet × List ToPlayer × Nat :=
  let (chunks, offset, count) := render w.chunks w.chunkOffset outputLength
  let queued := w.queuedFrames - count
  let consumed := w.consumedSinceReport + count
  let report : Bool := 1024 ≤ consumed ∨ (queued = 0 ∧ 0 < consumed)
  let underrun : Bool := count = 0 ∧ ¬ w.underrunReported
  ({ chunks := chunks, chunkOffset := offset, queuedFrames := queued
     consumedSinceReport := if report then 0 else consumed
     underrunReported := w.underrunReported || underrun },
   (if report then [.consumed consumed] else []) ++ (if underrun then [.underrun] else []), count)

end Worklet

/-! ## The player -/

/-- A chunk of PCM; `valid` says that it is `Int16Array`, or that its floats are finite and in range. -/
structure Pcm where
  samples : List ℚ
  valid : Bool
  deriving DecidableEq

/-- `BrowserAudioPlayer`. -/
structure Player where
  resampler : Option (Rates × ContinuousResampler) := none
  sourceRate : Int := 0
  sourceBase : Int := 0
  receivedThrough : Int := 0
  cursors : PlaybackCursorQueue := {}

/-- What a call answers: its exception, the player behind it, and the frames it pushes to the worklet. -/
structure Answer where
  error : Option String
  player : Player
  output : Option (List ℚ)

namespace Player

variable (config : Config)

/-- The end of `enqueue` and of `flush`: the cursor and the worklet get the output. -/
def pushOutput (p : Player) (r : ContinuousResampler) (output : List ℚ) : Answer :=
  match p.cursors.push output.length p.cursors.buffered (p.sourceBase + r.consumedFrames) with
  | .error e => ⟨some e, p, none⟩
  | .ok cursors => ⟨none, { p with cursors := cursors }, some output⟩

/-- `enqueue` behind the choice of the resampler. -/
def accept (p : Player) (rates : Rates) (r : ContinuousResampler) (pcm : Pcm)
    (sourceStart sourceEnd : Int) : Answer :=
  if sourceStart ≠ p.receivedThrough then
    ⟨some "PCM source sample cursor is not contiguous", p, none⟩
  else
    let p := { p with receivedThrough := sourceEnd }
    if ¬ pcm.valid then
      ⟨some "Float32 PCM samples must be finite values between -1 and 1", p, none⟩
    else
      let (r, output) := Resampler.process rates r pcm.samples
      let p := { p with resampler := some (rates, r) }
      if config.maxFrames < p.cursors.outputFrames + output.length then
        ⟨some "Browser audio playback queue is full", p, none⟩
      else if output = [] then ⟨none, p, none⟩
      else p.pushOutput r output

/-- `enqueue` with a resampler of its own. -/
def renew (p : Player) (pcm : Pcm) (sourceRate sourceStart sourceEnd : Int) : Answer :=
  if 0 < p.cursors.outputFrames then
    ⟨some "Cannot change source sample rate while audio is queued", p, none⟩
  else
    match Rates.new sourceRate config.contextRate with
    | .error e => ⟨some e, { p with sourceRate := sourceRate }, none⟩
    | .ok rates =>
        { resampler := some (rates, {}), sourceRate := sourceRate, sourceBase := sourceStart
          receivedThrough := sourceStart
          cursors := .clear sourceStart : Player }.accept config rates {} pcm sourceStart sourceEnd

/-- `enqueue`. -/
def enqueue (p : Player) (pcm : Pcm) (sourceRate sourceStart sourceEnd : Int) : Answer :=
  if sourceEnd - sourceStart ≠ pcm.samples.length then
    ⟨some "PCM length does not match source sample cursor", p, none⟩
  else
    match p.resampler, decide (p.sourceRate = sourceRate) with
    | some (rates, r), true => p.accept config rates r pcm sourceStart sourceEnd
    | _, _ => p.renew config pcm sourceRate sourceStart sourceEnd

/-- `flush`. -/
def flush (p : Player) : Answer :=
  match p.resampler with
  | none => ⟨none, p, none⟩
  | some (rates, r) =>
      let (r, output) := r.flush
      let p := { p with resampler := some (rates, r) }
      if output = [] then ⟨none, p, none⟩
      else if config.maxFrames < p.cursors.outputFrames + output.length then
        ⟨some "Browser audio playback queue is full", p, none⟩
      else if p.sourceBase + r.consumedFrames ≠ p.receivedThrough then
        ⟨some "Resampler flush did not consume the complete source stream", p, none⟩
      else p.pushOutput r output

/-- `clear`, as far as the player goes. -/
def clear (p : Player) : Player :=
  { resampler := p.resampler.map fun resampler => (resampler.1, {})
    sourceRate := 0, sourceBase := 0, receivedThrough := 0, cursors := .clear 0 }

/-- A call of `enqueue` makes a resampler of its own. -/
def Renews (p : Player) (sourceRate : Int) : Prop := p.resampler = none ∨ p.sourceRate ≠ sourceRate

instance (p : Player) (sourceRate : Int) : Decidable (p.Renews sourceRate) :=
  inferInstanceAs (Decidable (_ ∨ _))

end Player

/-! ## The two threads -/

/-- The player, the worklet, the messages between them, and the histories. -/
structure System where
  player : Player := {}
  worklet : Worklet := {}
  toWorklet : List ToWorklet := []
  toPlayer : List ToPlayer := []
  base : Int := 0
  pushed : List CursorSegment := []
  rendered : Nat := 0

/-- What happens next. -/
inductive Event
  | enqueue (pcm : Pcm) (sourceRate sourceStart sourceEnd : Int)
  | flush
  | clear
  | workletReceives
  | workletProcesses (outputLength : Nat)
  | playerReceives
  deriving DecidableEq

/-- The player has answered a call. -/
def System.answered (s : System) (answer : Answer) : System :=
  { s with
    player := answer.player
    toWorklet := s.toWorklet ++ (answer.output.map ToWorklet.push).toList
    pushed := s.pushed ++ (answer.output.map fun output =>
      ⟨output.length, 0, s.player.cursors.buffered, answer.player.cursors.buffered⟩).toList }

/-- A new resampler begins a new stream. -/
def System.renewed (config : Config) (s : System) (pcm : Pcm) (sourceRate sourceStart sourceEnd : Int) :
    System :=
  if sourceEnd - sourceStart = pcm.samples.length ∧ s.player.Renews sourceRate ∧
      s.player.cursors.outputFrames = 0 ∧ (Rates.new sourceRate config.contextRate).isOk then
    { s with
      player := { s.player with cursors := .clear sourceStart }
      base := sourceStart, pushed := [], rendered := 0 }
  else s

/-- One event. -/
def step (config : Config) (s : System) : Event → System
  | .enqueue pcm sourceRate sourceStart sourceEnd =>
      (s.renewed config pcm sourceRate sourceStart sourceEnd).answered
        (s.player.enqueue config pcm sourceRate sourceStart sourceEnd)
  | .flush => s.answered (s.player.flush config)
  | .clear =>
      { s with
        player := s.player.clear, toWorklet := s.toWorklet ++ [.clear]
        base := 0, pushed := [], rendered := 0 }
  | .workletReceives =>
      match s.toWorklet with
      | [] => s
      | message :: rest =>
          let (worklet, messages) := s.worklet.receive config message
          { s with worklet := worklet, toWorklet := rest, toPlayer := s.toPlayer ++ messages }
  | .workletProcesses outputLength =>
      let (worklet, messages, count) := s.worklet.process outputLength
      { s with
        worklet := worklet, toPlayer := s.toPlayer ++ messages, rendered := s.rendered + count }
  | .playerReceives =>
      match s.toPlayer with
      | [] => s
      | .consumed frames :: rest =>
          { s with
            toPlayer := rest
            player := { s.player with cursors := s.player.cursors.consume frames } }
      | _ :: rest => { s with toPlayer := rest }

/-- The source position of the first frames of a stream. -/
def place : Int → List CursorSegment → Nat → Int
  | base, [], _ => base
  | _, segment :: rest, frames =>
      if frames < segment.outputFrames then segment.place frames
      else place segment.sourceEnd rest (frames - segment.outputFrames)

end StreamingTts.Client.AudioPlayer
