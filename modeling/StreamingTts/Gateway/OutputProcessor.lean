import Mathlib.Data.List.Basic
import StreamingTts.Lib.OrderedDict

/-!
# The output processor

`StreamingOutputProcessor` of `engine/interface/output.py`: it stamps the retained audio of a session
with output samples, and turns the text markers that came with the audio, and the final markers of the
segments, into anchors on that timeline. A candidate waits until the VAD has decided its audio and the
resampler has delivered up to its target; a final waits for its segment's target and frames.

The voice activity detector and the resampler are the environment: what each call of them gives is an
argument of the operation. The text coordinates of an event are values that `int` reads or does not.
-/

namespace StreamingTts.Gateway.Output

open Lib

/-! ## Events and anchors -/

/-- The four text coordinates of an event; a value that is not an integer is none. -/
structure TextSpan where
  rawStart : Option Int
  rawEnd : Option Int
  normalizedStart : Option Int
  normalizedEnd : Option Int
  deriving DecidableEq, Repr

/-- The entries of an event's `meta` that the processor reads. The text span is there when all four of
its keys are. -/
structure Meta where
  textSpan : Option TextSpan := none
  alignmentFinal : Bool := false
  anchorSeq : Option Int := none
  outputSampleStart : Option Int := none
  outputSampleEnd : Bool := false
  deriving DecidableEq, Repr

/-- An event with all four text coordinates: what an anchor is made from. -/
structure TextEvent where
  textSpan : TextSpan
  anchorSeq : Option Int
  outputSampleStart : Option Int
  deriving DecidableEq, Repr

/-- `_has_text_span`, with the event that has one. -/
def Meta.textEvent (entries : Meta) : Option TextEvent :=
  entries.textSpan.map fun span => ⟨span, entries.anchorSeq, entries.outputSampleStart⟩

/-- An event of the session. -/
inductive Event
  | segmentEnd (segmentIdx : Int) (segmentDecodeSteps : Int)
  | textProgress (segmentIdx : Int) (entries : Meta)
  | other
  deriving DecidableEq, Repr

/-- A released anchor: the coordinates in the `meta` of its event. -/
structure Anchor where
  anchorSeq : Int
  outputSampleStart : Int
  outputSampleEnd : Int
  outputSampleRate : Int
  textSpan : TextSpan
  deriving DecidableEq, Repr

/-- What a session configures: the two sample rates, `round(n * rate / native)`, and whether the VAD
is on. -/
structure Config where
  sampleRate : Nat
  nativeSampleRate : Nat
  outputPosition : Nat → Int
  vadEnabled : Bool
  sampleRate_pos : 0 < sampleRate

/-- `TextProgressCandidate`. -/
structure TextProgressCandidate where
  event : TextEvent
  segmentIdx : Int
  inputSampleEnd : Nat
  deriving DecidableEq

/-- An entry of `_pending_final`. -/
structure PendingFinal where
  event : TextEvent
  target : Option Int
  segmentIdx : Int
  expectedFrames : Int
  deriving DecidableEq

/-- `StreamingOutputProcessor`, with the cursor of its pipeline. -/
structure Processor where
  nextCandidateId : Nat := 1
  nextAnchorSeq : Int := 1
  candidates : OrderedDict Nat TextProgressCandidate := .empty
  emittedCandidateIds : List Nat := []
  pendingFinal : List PendingFinal := []
  segmentOutputEnd : OrderedDict Int Int := .empty
  segmentSourceFrameEnd : OrderedDict Int Int := .empty
  segmentExpectedFrames : OrderedDict Int Int := .empty
  lastRetainedSegment : Int := -1
  retainedNativeCursor : Nat := 0
  candidateTargets : OrderedDict Nat Int := .empty
  candidateInputEnds : OrderedDict Nat Nat := .empty
  lastAnchorOutputEnd : Int := 0
  lastAnchorRawEnd : Int := 0
  lastAnchorNormalizedEnd : Int := 0
  sourceNativeCursor : Nat := 0
  outputSampleCursor : Nat := 0

/-- What a transport sends: an audio frame with its output samples, or an anchor. -/
inductive Message
  | audio (outputSampleStart outputSampleEnd : Nat)
  | anchor (anchor : Anchor)
  deriving DecidableEq, Repr

namespace Processor

variable (config : Config)

/-! ## Anchors -/

/-- One of the two parts of `_clamp_text_coordinates`: the clamped range and the new high-water. -/
def clampRange (start stop : Option Int) (last : Int) : Option Int × Option Int × Int :=
  match start, stop with
  | some start, some stop =>
      let start := max 0 (max start last)
      let stop := max start (max stop last)
      (some start, some stop, stop)
  | start, stop => (start, stop, last)

/-- `_allocate_anchor_seq`, or the sequence number the event came with. -/
def anchorSeq (s : Processor) (supplied : Option Int) : Int × Int :=
  match supplied with
  | none => (s.nextAnchorSeq, s.nextAnchorSeq + 1)
  | some seq => (seq, max s.nextAnchorSeq (seq + 1))

/-- `_anchor_event`. -/
def anchorEvent (s : Processor) (event : TextEvent) (stop : Int) (start : Option Int) :
    Anchor × Processor :=
  let span := event.textSpan
  let (rawStart, rawEnd, lastRaw) := clampRange span.rawStart span.rawEnd s.lastAnchorRawEnd
  let (normalizedStart, normalizedEnd, lastNormalized) :=
    clampRange span.normalizedStart span.normalizedEnd s.lastAnchorNormalizedEnd
  let start :=
    match start with
    | some start => start
    | none =>
        let given := event.outputSampleStart.getD stop
        if given = 0 then stop else given
  let (seq, nextSeq) := s.anchorSeq event.anchorSeq
  let anchor : Anchor :=
    { anchorSeq := seq
      outputSampleStart := max 0 start
      outputSampleEnd := max start stop
      outputSampleRate := config.sampleRate
      textSpan := ⟨rawStart, rawEnd, normalizedStart, normalizedEnd⟩ }
  (anchor, { s with
    nextAnchorSeq := nextSeq
    lastAnchorOutputEnd := max s.lastAnchorOutputEnd anchor.outputSampleEnd
    lastAnchorRawEnd := lastRaw
    lastAnchorNormalizedEnd := lastNormalized })

/-! ## Ready markers -/

/-- A marker of the list `ready`. -/
inductive Marker
  | candidate (id : Nat)
  | final (index : Nat)
  deriving DecidableEq, Repr

/-- The key a marker is sorted by behind its target. -/
def Marker.rank : Marker → Nat × Nat
  | .candidate id => (0, id)
  | .final index => (1, index)

/-- The order of the list `ready`. -/
def readyLe (x y : Int × Marker) : Bool :=
  x.1 < y.1 || (x.1 = y.1 && (x.2.rank.1 < y.2.rank.1
    || (x.2.rank.1 = y.2.rank.1 && x.2.rank.2 ≤ y.2.rank.2)))

/-- The target of a pending final, unless the frames of its segment are still coming. -/
def finalTarget (s : Processor) (final : PendingFinal) : Option Int :=
  let observed := (s.segmentSourceFrameEnd.get? final.segmentIdx).getD 0
  if 0 < final.expectedFrames ∧ 0 < observed ∧ observed < final.expectedFrames then none
  else
    match s.segmentOutputEnd.get? final.segmentIdx with
    | some target => some target
    | none => final.target

/-- The candidates of `ready`. -/
def readyCandidates (s : Processor) (processedInput : Nat) (outputEnd : Int) (forceAll : Bool) :
    List (Int × Marker) :=
  let decidedCursor := if config.vadEnabled then processedInput else s.sourceNativeCursor
  s.candidateTargets.entries.filterMap fun (id, target) =>
    if id ∈ s.emittedCandidateIds then none
    else if (s.candidateInputEnds.get? id).getD 0 ≤ decidedCursor ∧ (target ≤ outputEnd ∨ forceAll)
    then some (min target outputEnd, .candidate id)
    else none

/-- The finals of `ready`. -/
def readyFinals (s : Processor) (outputEnd : Int) (forceAll : Bool) : List (Int × Marker) :=
  s.pendingFinal.zipIdx.filterMap fun (final, index) =>
    match s.finalTarget final with
    | none => none
    | some target =>
        if target ≤ outputEnd ∨ forceAll then some (min target outputEnd, .final index) else none

/-- One round of the loop over `ready`: the candidate or the final is released. -/
def release (outputEnd : Int) (s : Processor) (ready : Int × Marker) : List Anchor × Processor :=
  match ready.2 with
  | .candidate id =>
      match s.candidates.get? id with
      | none => ([], s)
      | some candidate =>
          let (anchor, s) :=
            s.anchorEvent config candidate.event ready.1 (some s.lastAnchorOutputEnd)
          ([anchor], { s with
            emittedCandidateIds := s.emittedCandidateIds ++ [id]
            candidates := s.candidates.erase id })
  | .final index =>
      match s.pendingFinal[index]? with
      | none => ([], s)
      | some final =>
          let target :=
            (s.segmentOutputEnd.get? final.segmentIdx).getD (final.target.getD outputEnd)
          let (anchor, s) := s.anchorEvent config final.event target (some s.lastAnchorOutputEnd)
          ([anchor], s)

/-- The loop over `ready`. -/
def releaseAll (outputEnd : Int) : Processor → List (Int × Marker) → List Anchor × Processor
  | s, [] => ([], s)
  | s, ready :: more =>
      let (anchors, s) := s.release config outputEnd ready
      let (others, s) := releaseAll outputEnd s more
      (anchors ++ others, s)

/-- `_resolve_ready_anchors`; `processedInput` is where the VAD has decided up to. -/
def resolveReadyAnchors (s : Processor) (processedInput : Nat) (outputEnd : Int) (forceAll : Bool) :
    List Anchor × Processor :=
  let ready := (s.readyCandidates config processedInput outputEnd forceAll
    ++ s.readyFinals outputEnd forceAll).mergeSort readyLe
  let (anchors, s) := s.releaseAll config outputEnd ready
  (anchors, { s with
    pendingFinal := (s.pendingFinal.zipIdx.filter fun (_, index) =>
      Marker.final index ∉ ready.map Prod.snd).map Prod.fst })

/-! ## Audio -/

/-- A span of retained samples: where it ends in them, its segment, and its candidate. -/
structure ProvenanceSpan where
  sampleEnd : Nat
  segmentIdx : Int
  candidate : Option Nat
  deriving DecidableEq, Repr

/-- `AttributedSamples`: how many samples are retained, and where they come from. -/
structure Retained where
  size : Nat
  provenance : List ProvenanceSpan
  deriving DecidableEq, Repr

/-- The loop of `_make_batch` that sets the targets of the retained candidates. -/
def noteTargets (nativeBase : Nat) (s : Processor) (span : ProvenanceSpan) : Processor :=
  match span.candidate with
  | none => s
  | some id =>
      let target := config.outputPosition (nativeBase + span.sampleEnd)
      { s with candidateTargets :=
          s.candidateTargets.set id (max target ((s.candidateTargets.get? id).getD 0)) }

/-- The loop of `_make_batch` that sets where the segments end. -/
def noteSegment (outputEnd : Int) (s : Processor) (span : ProvenanceSpan) : Processor :=
  match span.candidate with
  | none => s
  | some id =>
      if id ∈ s.emittedCandidateIds then s
      else { s with
        segmentOutputEnd :=
          s.segmentOutputEnd.set span.segmentIdx ((s.candidateTargets.get? id).getD outputEnd)
        lastRetainedSegment := span.segmentIdx }

/-- The samples a frame of `size` native samples becomes: all of them without a resampler, else what
the resampler gives. -/
def converted (size resampled : Nat) : Nat :=
  if config.sampleRate = config.nativeSampleRate then size else resampled

/-- `_make_batch`. An empty frame is not sent. -/
def makeBatch (s : Processor) (retained : Retained) (resampled processedInput : Nat) :
    List Message × Processor :=
  let nativeBase := s.retainedNativeCursor
  let start := s.outputSampleCursor
  let stop := start + converted config retained.size resampled
  let s := { s with
    retainedNativeCursor := nativeBase + retained.size
    outputSampleCursor := stop }
  let s := retained.provenance.foldl (noteTargets config nativeBase) s
  if stop = start then ([], s)
  else
    let s := retained.provenance.foldl (noteSegment stop) s
    let (anchors, s) := s.resolveReadyAnchors config processedInput stop false
    (.audio start stop :: anchors.map .anchor, s)

/-- A chunk of native audio. -/
structure Chunk where
  size : Nat
  segmentIdx : Int
  sourceFrameEnd : Int
  progressEvent : Option Meta
  deriving DecidableEq, Repr

/-- What the VAD and the resampler do with a chunk: the samples the VAD retains of what it holds, how
far it has decided, and how many samples the resampler gives for them. -/
structure Retention where
  retained : Retained
  processedInput : Nat
  resampled : Nat
  deriving DecidableEq, Repr

/-- The frames of a segment that were seen at its source. -/
def noteSource (s : Processor) (segmentIdx sourceFrameEnd : Int) : Processor :=
  if 0 < sourceFrameEnd then
    let seen := (s.segmentSourceFrameEnd.get? segmentIdx).getD 0
    { s with segmentSourceFrameEnd :=
        s.segmentSourceFrameEnd.set segmentIdx (max sourceFrameEnd seen) }
  else s

/-- The event of a chunk becomes a candidate if it has a text span. -/
def addCandidate (s : Processor) (chunk : Chunk) : Option Nat × Processor :=
  match chunk.progressEvent.bind Meta.textEvent with
  | none => (none, s)
  | some event =>
      let candidate : TextProgressCandidate :=
        { event := { event with anchorSeq := none }
          segmentIdx := chunk.segmentIdx
          inputSampleEnd := s.sourceNativeCursor }
      (some s.nextCandidateId, { s with
        nextCandidateId := s.nextCandidateId + 1
        candidates := s.candidates.set s.nextCandidateId candidate
        candidateInputEnds := s.candidateInputEnds.set s.nextCandidateId s.sourceNativeCursor })

/-- `process`. -/
def process (s : Processor) (chunk : Chunk) (env : Retention) : List Message × Processor :=
  let s := s.noteSource chunk.segmentIdx chunk.sourceFrameEnd
  if chunk.size = 0 then ([], s)
  else
    let s := { s with sourceNativeCursor := s.sourceNativeCursor + chunk.size }
    let (candidate, s) := s.addCandidate chunk
    if config.vadEnabled then
      if env.retained.size = 0 then ([], s)
      else s.makeBatch config env.retained env.resampled env.processedInput
    else
      s.makeBatch config ⟨chunk.size, [⟨chunk.size, chunk.segmentIdx, candidate⟩]⟩ env.resampled
        env.processedInput

/-! ## Lifecycle events -/

/-- `process_event`, as far as anchors go; an event that is handed on has no anchor. -/
def processEvent (s : Processor) (event : Event) (processedInput : Nat) :
    List Message × Processor :=
  match event with
  | .other => ([], s)
  | .segmentEnd segmentIdx expected =>
      ([], if 0 < expected then
        { s with segmentExpectedFrames := s.segmentExpectedFrames.set segmentIdx expected } else s)
  | .textProgress segmentIdx entries =>
      match entries.textEvent with
      | none => ([], s)
      | some event =>
          if entries.alignmentFinal then
            let final : PendingFinal :=
              { event
                target := s.segmentOutputEnd.get? segmentIdx
                segmentIdx
                expectedFrames := (s.segmentExpectedFrames.get? segmentIdx).getD 0 }
            let s := { s with pendingFinal := s.pendingFinal ++ [final] }
            let (anchors, s) :=
              s.resolveReadyAnchors config processedInput s.outputSampleCursor false
            (anchors.map .anchor, s)
          else if entries.outputSampleEnd then
            let (anchor, s) := s.anchorEvent config event s.outputSampleCursor none
            ([.anchor anchor], s)
          else ([], s)

/-! ## The end of the output -/

/-- What the VAD and the resampler still hold at the end. `flushed` are the samples of the resampler's
last frame. -/
structure Remainder where
  retained : Retained
  resampled : Nat
  flushed : Nat
  processedInput : Nat
  deriving DecidableEq, Repr

/-- The resampler is flushed: the last frame ends the last retained segment. -/
def flushResampler (s : Processor) (flushed : Nat) : List Message × Processor :=
  let flushed := if config.sampleRate = config.nativeSampleRate then 0 else flushed
  if flushed = 0 then ([], s)
  else
    let start := s.outputSampleCursor
    let stop := start + flushed
    ([.audio start stop], { s with
      outputSampleCursor := stop
      segmentOutputEnd :=
        if 0 ≤ s.lastRetainedSegment then s.segmentOutputEnd.set s.lastRetainedSegment stop
        else s.segmentOutputEnd })

/-- The first part of `finish`: the VAD is flushed, and then the resampler. -/
def drain (s : Processor) (env : Remainder) : List Message × Processor :=
  let (batch, s) :=
    if env.retained.size = 0 then ([], s)
    else s.makeBatch config env.retained env.resampled env.processedInput
  let (frame, s) := s.flushResampler config env.flushed
  (batch ++ frame, s)

/-- `finish`. -/
def finish (s : Processor) (emitFinal : Bool) (env : Remainder) : List Message × Processor :=
  if emitFinal then
    let (audio, s) := s.drain config env
    let (anchors, s) := s.resolveReadyAnchors config env.processedInput s.outputSampleCursor true
    (audio ++ anchors.map .anchor, { s with
      candidates := .empty, candidateTargets := .empty, candidateInputEnds := .empty
      pendingFinal := [] })
  else
    ([], { s with
      candidates := .empty, candidateTargets := .empty, candidateInputEnds := .empty
      pendingFinal := [] })

/-- A call of the processor before its end, with what the environment does. -/
inductive Op
  | process (chunk : Chunk) (env : Retention)
  | event (event : Event) (processedInput : Nat)
  deriving DecidableEq, Repr

/-- A call of the processor: what is sent, and the processor it leaves. -/
def step (s : Processor) : Op → List Message × Processor
  | .process chunk env => s.process config chunk env
  | .event event processedInput => s.processEvent config event processedInput

/-- The calls of a run, one after the other. -/
def runOps : Processor → List Op → List Message × Processor
  | s, [] => ([], s)
  | s, op :: ops =>
      let (sent, s) := s.step config op
      let (others, s) := runOps s ops
      (sent ++ others, s)

end Processor

end StreamingTts.Gateway.Output
