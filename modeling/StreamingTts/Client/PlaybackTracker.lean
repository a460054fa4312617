import StreamingTts.Gateway.OutputProcessor

/-!
# The client's text progress anchors

`TextProgressAnchor` and the receiving side of `PlaybackProgressTracker` in `qwen3tts/progress.py`: the
audio frames move the received sample, and an anchor is checked against it, for its own coordinates,
and against all the anchors before it, in the order of the sequence numbers and in the order of the
samples. What the tracker computes from the anchors raises nothing and is left out.
-/

namespace StreamingTts.Client.Playback

open Lib
open Gateway.Output (Anchor Message)

/-- `TextProgressAnchor`. -/
structure TextProgressAnchor where
  anchorSeq : Int
  outputSampleStart : Int
  outputSampleEnd : Int
  outputSampleRate : Int
  rawStart : Int
  rawEnd : Int
  normalizedStart : Int
  normalizedEnd : Int
  deriving DecidableEq, Repr

/-- What the tracker raises. -/
inductive TrackerError
  | protocol (message : String)
  | textProgress (message : String)
  deriving DecidableEq, Repr

/-- `TextProgressAnchor.from_meta`, for an event with an anchor's keys. -/
def TextProgressAnchor.fromMeta (entries : Anchor) : Except TrackerError TextProgressAnchor :=
  match entries.textSpan with
  | ⟨some rawStart, some rawEnd, some normalizedStart, some normalizedEnd⟩ =>
      .ok { anchorSeq := entries.anchorSeq
            outputSampleStart := entries.outputSampleStart
            outputSampleEnd := entries.outputSampleEnd
            outputSampleRate := entries.outputSampleRate
            rawStart, rawEnd, normalizedStart, normalizedEnd }
  | _ => .error (.textProgress "malformed text progress anchor")

/-- `PlaybackProgressTracker`, as far as what it receives goes. -/
structure PlaybackProgressTracker where
  anchors : OrderedDict Int TextProgressAnchor := .empty
  receivedSample : Int := 0
  outputSampleRate : Option Int := none

namespace PlaybackProgressTracker

/-- `_remember_sample_rate_locked`, with the error that the caller raises. -/
def rememberSampleRate (t : PlaybackProgressTracker) (rate : Int) (error : String → TrackerError) :
    Except TrackerError PlaybackProgressTracker :=
  match t.outputSampleRate with
  | none => .ok { t with outputSampleRate := some rate }
  | some known =>
      if known ≠ rate then .error (error "output sample rate changed within a playback stream")
      else .ok t

/-- The check of an anchor's own coordinates. -/
def malformed (a : TextProgressAnchor) : Bool :=
  a.anchorSeq ≤ 0 || a.outputSampleStart < 0 || a.outputSampleEnd < a.outputSampleStart
    || a.outputSampleRate ≤ 0 || a.rawStart < 0 || a.rawEnd < a.rawStart
    || a.normalizedStart < 0 || a.normalizedEnd < a.normalizedStart

/-- The text of the error for an anchor behind another one. -/
def backwards (old current : TextProgressAnchor) : Option String :=
  if current.outputSampleStart < old.outputSampleStart then
    some "text progress sample range moved backwards"
  else if current.outputSampleEnd < old.outputSampleEnd then
    some "text progress sample end moved backwards"
  else if current.rawStart < old.rawStart then some "text progress raw range moved backwards"
  else if current.rawEnd < old.rawEnd then some "text progress raw range moved backwards"
  else if current.normalizedStart < old.normalizedStart then
    some "text progress normalized range moved backwards"
  else if current.normalizedEnd < old.normalizedEnd then
    some "text progress normalized range moved backwards"
  else none

/-- `validate_monotonic`. -/
def validateMonotonic : List TextProgressAnchor → Except TrackerError Unit
  | old :: current :: anchors =>
      match backwards old current with
      | some message => .error (.textProgress message)
      | none => validateMonotonic (current :: anchors)
  | _ => .ok ()

/-- The order of the sequence numbers. -/
def seqLe (a b : TextProgressAnchor) : Bool := a.anchorSeq ≤ b.anchorSeq

/-- The order of the samples. -/
def sampleLe (a b : TextProgressAnchor) : Bool :=
  a.outputSampleStart < b.outputSampleStart || (a.outputSampleStart = b.outputSampleStart
    && (a.outputSampleEnd < b.outputSampleEnd
      || (a.outputSampleEnd = b.outputSampleEnd && a.anchorSeq ≤ b.anchorSeq)))

/-- `_validate_anchor_locked`. -/
def validateAnchor (t : PlaybackProgressTracker) (a : TextProgressAnchor) :
    Except TrackerError PlaybackProgressTracker :=
  if malformed a then .error (.textProgress "malformed text progress anchor")
  else do
    let t ← t.rememberSampleRate a.outputSampleRate .textProgress
    let anchors := t.anchors.values ++ [a]
    validateMonotonic (anchors.mergeSort seqLe)
    validateMonotonic (anchors.mergeSort sampleLe)
    return t

/-- `add_anchor`. -/
def addAnchor (t : PlaybackProgressTracker) (a : TextProgressAnchor) :
    Except TrackerError PlaybackProgressTracker :=
  match t.anchors.get? a.anchorSeq with
  | some old =>
      if old = a then .ok t
      else .error (.textProgress s!"conflicting replay for text progress anchor {a.anchorSeq}")
  | none => do
      let t ← t.validateAnchor a
      return { t with
        anchors := t.anchors.set a.anchorSeq a
        receivedSample := max t.receivedSample a.outputSampleEnd }

/-- `observe` of an audio chunk with its samples and its rate. -/
def observeAudio (t : PlaybackProgressTracker) (start stop rate : Int) :
    Except TrackerError PlaybackProgressTracker :=
  if start < 0 ∨ stop < start ∨ start < t.receivedSample then
    .error (.protocol "audio output sample range is invalid")
  else do
    let t ← if 0 < rate then t.rememberSampleRate rate .protocol else .ok t
    return { t with receivedSample := max t.receivedSample stop }

/-- `observe` of an event with an anchor. -/
def observeAnchor (t : PlaybackProgressTracker) (entries : Anchor) :
    Except TrackerError PlaybackProgressTracker := do
  let anchor ← TextProgressAnchor.fromMeta entries
  if t.receivedSample < anchor.outputSampleEnd then
    throw (.textProgress "text progress anchor is ahead of received output audio")
  t.addAnchor anchor

/-- `observe` of a message of a session with the sample rate `rate`. -/
def observe (rate : Nat) (t : PlaybackProgressTracker) :
    Message → Except TrackerError PlaybackProgressTracker
  | .audio start stop => t.observeAudio start stop rate
  | .anchor entries => t.observeAnchor entries

/-- The messages of a session, in the order of their release. -/
def observeAll (rate : Nat) (t : PlaybackProgressTracker) (messages : List Message) :
    Except TrackerError PlaybackProgressTracker :=
  messages.foldlM (observe rate) t

/-- Every message of a session was accepted. -/
def accepts (rate : Nat) (messages : List Message) : Prop :=
  ∃ t, observeAll rate {} messages = .ok t

end PlaybackProgressTracker

end StreamingTts.Client.Playback
