import Mathlib.Data.Rat.Floor
import Mathlib.Data.List.Sort
import StreamingTts.Gateway.AnchorAgreement

/-!
# The text cursor of the playback tracker

The whole of `PlaybackProgressTracker` in `qwen3tts/progress.py`: `add_anchor`, `observe` and
`update_playback_progress`, each with the tracker that it leaves when it raises, and `_recompute_locked`,
which places the played sample in the text. Anchors are compared with all of their fields; `rest` are the
ones that no computation reads. The interpolation is in exact arithmetic, with `round` to the nearest even
integer.

`Tracker.Sound` is the invariant. The anchors of a tracker are in one order, by sequence number, in which no
coordinate goes back (`Chain`), and to be accepted an anchor must have its place there (`Fits`).
-/

namespace StreamingTts.Client.Playback

open Lib

/-! ## The tracker -/

variable {γ : Type}

/-- `TextProgressAnchor` with all of its fields. -/
structure ProgressAnchor (γ : Type) extends TextProgressAnchor where
  rest : γ
  deriving DecidableEq

/-- `TextCursor`. -/
structure TextCursor where
  rawCodepoint : Int := 0
  normalizedCodepoint : Int := 0
  anchorSeq : Int := 0
  available : Bool := false
  deriving DecidableEq, Repr

/-- `PlaybackTextProgress`. -/
structure PlaybackTextProgress where
  playedThroughSample : Int := 0
  bufferedThroughSample : Int := 0
  confirmed : TextCursor := {}
  estimated : TextCursor := {}
  playbackComplete : Bool := false
  available : Bool := false
  deriving DecidableEq, Repr

/-- `PlaybackProgressTracker`. -/
structure Tracker (γ : Type) where
  anchors : OrderedDict Int (ProgressAnchor γ) := .empty
  receivedSample : Int := 0
  playedSample : Int := 0
  bufferedSample : Int := 0
  terminal : Bool := false
  finalSample : Option Int := none
  outputSampleRate : Option Int := none
  latest : PlaybackTextProgress := {}

/-- `round`: to the nearest integer, and to the even one between two. -/
def roundHalfEven (q : ℚ) : Int :=
  let below := ⌊q⌋
  if q - below < 1 / 2 then below
  else if 1 / 2 < q - below then below + 1
  else if below % 2 = 0 then below else below + 1

/-- A place between two coordinates. -/
def interpolate (left right : Int) (ratio : ℚ) : Int := roundHalfEven (left + ratio * (right - left))

/-- The part of the samples from `left` to `right` that has been played. -/
def playedRatio (played left right : Int) : ℚ :=
  if right - left ≤ 0 then 1 else ((played - left : Int) : ℚ) / ((right - left : Int) : ℚ)

/-- The variables of the loop of `_recompute_locked`. -/
structure Recompute (γ : Type) where
  previous : Option (ProgressAnchor γ) := none
  confirmed : TextCursor := {}
  estimated : TextCursor := {}

/-- One round of the loop of `_recompute_locked`. -/
def Recompute.visit (played : Int) (r : Recompute γ) (anchor : ProgressAnchor γ) : Recompute γ :=
  { previous := some anchor
    confirmed :=
      if anchor.outputSampleEnd ≤ played then
        ⟨anchor.rawEnd, anchor.normalizedEnd, anchor.anchorSeq, true⟩
      else r.confirmed
    estimated :=
      match r.previous with
      | none =>
          if anchor.outputSampleStart ≤ played ∧ played ≤ anchor.outputSampleEnd then
            let ratio := playedRatio played anchor.outputSampleStart anchor.outputSampleEnd
            ⟨interpolate anchor.rawStart anchor.rawEnd ratio,
              interpolate anchor.normalizedStart anchor.normalizedEnd ratio, anchor.anchorSeq, true⟩
          else r.estimated
      | some previous =>
          if previous.outputSampleEnd ≤ played ∧ played ≤ anchor.outputSampleEnd then
            let ratio := playedRatio played previous.outputSampleEnd anchor.outputSampleEnd
            ⟨interpolate previous.rawEnd anchor.rawEnd ratio,
              interpolate previous.normalizedEnd anchor.normalizedEnd ratio, anchor.anchorSeq, true⟩
          else r.estimated }

/-- The order of the ends. -/
def endLe (a b : ProgressAnchor γ) : Bool :=
  a.outputSampleEnd < b.outputSampleEnd
    || (a.outputSampleEnd = b.outputSampleEnd && a.anchorSeq ≤ b.anchorSeq)

namespace Tracker

/-- The property `anchors`. -/
def ordered (t : Tracker γ) : List (ProgressAnchor γ) := t.anchors.values.mergeSort endLe

/-- What `_recompute_locked` makes `latest`. -/
def progress (t : Tracker γ) : PlaybackTextProgress :=
  let r := t.ordered.foldl (Recompute.visit t.playedSample) {}
  { playedThroughSample := t.playedSample
    bufferedThroughSample := t.bufferedSample
    confirmed := r.confirmed
    estimated :=
      if !r.estimated.available && r.confirmed.available then r.confirmed else r.estimated
    playbackComplete :=
      t.terminal && (match t.finalSample with
        | some finalSample => finalSample ≤ t.playedSample
        | none => false)
    available := !t.ordered.isEmpty }

/-- `_recompute_locked`. -/
def recompute (t : Tracker γ) : Tracker γ := { t with latest := t.progress }

/-- What a call leaves, and what it gives or raises. -/
abbrev Outcome (γ : Type) := Tracker γ × Except TrackerError PlaybackTextProgress

/-- A call that returns `_recompute_locked()`. -/
def answer (t : Tracker γ) : Outcome γ := (t.recompute, .ok t.progress)

/-- `_remember_sample_rate_locked`, with the error that the caller raises. -/
def rememberSampleRate (t : Tracker γ) (rate : Int) (error : String → TrackerError) :
    Except TrackerError (Tracker γ) :=
  match t.outputSampleRate with
  | none => .ok { t with outputSampleRate := some rate }
  | some known =>
      if known ≠ rate then .error (error "output sample rate changed within a playback stream")
      else .ok t

/-- The two orders in which `_validate_anchor_locked` compares the anchors. -/
def validateOrders (anchors : List (ProgressAnchor γ)) : Except TrackerError Unit := do
  let coordinates := anchors.map (·.toTextProgressAnchor)
  PlaybackProgressTracker.validateMonotonic (coordinates.mergeSort PlaybackProgressTracker.seqLe)
  PlaybackProgressTracker.validateMonotonic (coordinates.mergeSort PlaybackProgressTracker.sampleLe)

/-- `_validate_anchor_locked`: the tracker it leaves, and what it raises. -/
def validateAnchor (t : Tracker γ) (anchor : ProgressAnchor γ) :
    Tracker γ × Except TrackerError Unit :=
  if PlaybackProgressTracker.malformed anchor.toTextProgressAnchor then
    (t, .error (.textProgress "malformed text progress anchor"))
  else
    match t.rememberSampleRate anchor.outputSampleRate .textProgress with
    | .error error => (t, .error error)
    | .ok t => (t, validateOrders (t.anchors.values ++ [anchor]))

/-- `add_anchor`. -/
def addAnchor (t : Tracker γ) [DecidableEq γ] (anchor : ProgressAnchor γ) : Outcome γ :=
  match t.anchors.get? anchor.anchorSeq with
  | some old =>
      if old = anchor then t.answer
      else (t, .error (.textProgress
        s!"conflicting replay for text progress anchor {anchor.anchorSeq}"))
  | none =>
      match t.validateAnchor anchor with
      | (t, .error error) => (t, .error error)
      | (t, .ok ()) =>
          { t with
            anchors := t.anchors.set anchor.anchorSeq anchor
            receivedSample := max t.receivedSample anchor.outputSampleEnd }.answer

/-- `update_playback_progress`. -/
def updatePlaybackProgress (t : Tracker γ) (playedThrough : Int) (bufferedThrough : Option Int) :
    Outcome γ :=
  if playedThrough < t.playedSample then
    (t, .error (.protocol "played playback sample moved backwards"))
  else
    let buffered := bufferedThrough.getD (max t.bufferedSample playedThrough)
    if playedThrough < 0 ∨ buffered < 0 then
      (t, .error (.protocol "playback samples must be non-negative"))
    else if t.receivedSample < playedThrough ∨ t.receivedSample < buffered then
      (t, .error (.protocol "playback sample cannot exceed received output"))
    else if buffered < playedThrough then
      (t, .error (.protocol "buffered sample cannot be before played sample"))
    else if buffered < t.bufferedSample then
      (t, .error (.protocol "buffered playback sample moved backwards"))
    else { t with playedSample := playedThrough, bufferedSample := buffered }.answer

/-- What `TextProgressAnchor.from_meta` makes of the keys of a message: no anchor, an anchor, or the error
that it raises. -/
abbrev Meta (γ : Type) := Except TrackerError (Option (ProgressAnchor γ))

/-- `_add_meta_anchor`: nothing is left to do where it gives a value. -/
def addMetaAnchor [DecidableEq γ] (t : Tracker γ) (anchor : Meta γ) (requireReceived : Bool) :
    Tracker γ × Except TrackerError Unit :=
  match anchor with
  | .error error => (t, .error error)
  | .ok none => (t, .ok ())
  | .ok (some anchor) =>
      if requireReceived ∧ t.receivedSample < anchor.outputSampleEnd then
        (t, .error (.textProgress "text progress anchor is ahead of received output audio"))
      else
        match t.addAnchor anchor with
        | (t, .error error) => (t, .error error)
        | (t, .ok _) => (t, .ok ())

/-- The samples up to `stop` have been received. -/
def receive (t : Tracker γ) (stop : Int) : Tracker γ :=
  { t with receivedSample := max t.receivedSample stop }

/-- `observe` of an `AudioChunk` with `frames` samples. -/
def observeAudio [DecidableEq γ] (t : Tracker γ) (outputSampleStart outputSampleEnd : Option Int)
    (frames : Nat) (rate : Int) (anchor : Meta γ) : Outcome γ :=
  let start := outputSampleStart.getD t.receivedSample
  let stop := outputSampleEnd.getD (start + frames)
  if start < 0 ∨ stop < start ∨ start < t.receivedSample then
    (t, .error (.protocol "audio output sample range is invalid"))
  else
    match if 0 < rate then t.rememberSampleRate rate .protocol else .ok t with
    | .error error => (t, .error error)
    | .ok t =>
        match (t.receive stop).addMetaAnchor anchor false with
        | (t, .error error) => (t, .error error)
        | (t, .ok ()) => t.answer

/-- `observe` of a `StreamEvent`: `isFinal` says that it is a `done` or an `error`, and `finalSample` is its
`final_output_sample`. -/
def observeEvent [DecidableEq γ] (t : Tracker γ) (anchor : Meta γ) (isFinal : Bool)
    (finalSample : Option Int) : Outcome γ :=
  match t.addMetaAnchor anchor true with
  | (t, .error error) => (t, .error error)
  | (t, .ok ()) =>
      if isFinal then
        { t with terminal := true, finalSample := some (finalSample.getD t.receivedSample) }.answer
      else t.answer

/-- The calls of a tracker. -/
inductive Call (γ : Type)
  | addAnchor (anchor : ProgressAnchor γ)
  | updatePlaybackProgress (playedThrough : Int) (bufferedThrough : Option Int)
  | observeAudio (outputSampleStart outputSampleEnd : Option Int) (frames : Nat) (rate : Int)
      (anchor : Meta γ)
  | observeEvent (anchor : Meta γ) (isFinal : Bool) (finalSample : Option Int)

/-- A call of a tracker. -/
def call [DecidableEq γ] (t : Tracker γ) : Call γ → Outcome γ
  | .addAnchor anchor => t.addAnchor anchor
  | .updatePlaybackProgress playedThrough bufferedThrough =>
      t.updatePlaybackProgress playedThrough bufferedThrough
  | .observeAudio outputSampleStart outputSampleEnd frames rate anchor =>
      t.observeAudio outputSampleStart outputSampleEnd frames rate anchor
  | .observeEvent anchor isFinal finalSample => t.observeEvent anchor isFinal finalSample

/-- The tracker after a call. -/
def step [DecidableEq γ] (t : Tracker γ) (c : Call γ) : Tracker γ := (t.call c).1

end Tracker

end StreamingTts.Client.Playback
