import Mathlib.Data.List.Basic

/-!
# Voice activity detection on the output

`TTSVADProcessor` of `engine/interface/vad.py`: PCM chunks are cut into frames, a detector scores each
frame, and a state machine decides which samples are emitted. Every sample carries the spans that say
which source chunk it belongs to. The frame size, the lookback and the comparisons with the two
thresholds are given; the record of transitions is left out.
-/

namespace StreamingTts.Gateway.Vad

variable {ε : Type} {δ : Type} {κ : Type}

/-! ## Provenance -/

/-- The fields of a `SampleProvenanceSpan` but its range. -/
structure Source (ε : Type) where
  segmentIdx : Int := -1
  sourceFrameStart : Int := 0
  sourceFrameEnd : Int := 0
  progressEvent : Option ε := none
  deriving DecidableEq

/-- `SampleProvenanceSpan`. -/
structure SampleProvenanceSpan (ε : Type) where
  sampleStart : Int
  sampleEnd : Int
  source : Source ε := {}
  deriving DecidableEq

/-- `AttributedSamples`, and a block of a buffer: samples with their spans. -/
structure AttributedSamples (ε : Type) where
  samples : List Int16 := []
  provenance : List (SampleProvenanceSpan ε) := []
  deriving DecidableEq

/-- `_shift_spans`. -/
def shiftSpans (spans : List (SampleProvenanceSpan ε)) (offset : Int) :
    List (SampleProvenanceSpan ε) :=
  (spans.filter fun span => span.sampleStart < span.sampleEnd).map fun span =>
    { span with
      sampleStart := max 0 (span.sampleStart + offset)
      sampleEnd := max 0 (span.sampleEnd + offset) }

/-- A span clipped to `[start, stop)` and rebased to zero. -/
def clip (start stop : Int) (span : SampleProvenanceSpan ε) : Option (SampleProvenanceSpan ε) :=
  let left := max start span.sampleStart
  let right := min stop span.sampleEnd
  if right ≤ left then none
  else some { span with sampleStart := left - start, sampleEnd := right - start }

/-- `_slice_spans`. -/
def sliceSpans (spans : List (SampleProvenanceSpan ε)) (start stop : Int) :
    List (SampleProvenanceSpan ε) := spans.filterMap (clip start stop)

/-- The loop of `_concat_spans`. -/
def concatFrom : Nat → List (AttributedSamples ε) → List (SampleProvenanceSpan ε)
  | _, [] => []
  | offset, block :: blocks =>
      shiftSpans block.provenance offset ++ concatFrom (offset + block.samples.length) blocks

/-- `_concat_spans`. -/
def concatSpans (blocks : List (AttributedSamples ε)) : AttributedSamples ε where
  samples := (blocks.map (·.samples)).flatten
  provenance := concatFrom 0 blocks

/-- The spans that are given, or one over `n` samples that no source is known of. -/
def orUnattributed (provenance : List (SampleProvenanceSpan ε)) (n : Nat) :
    List (SampleProvenanceSpan ε) :=
  if provenance = [] then [{ sampleStart := 0, sampleEnd := n }] else provenance

/-! ## The processor -/

/-- `VADState`. -/
inductive VADState
  | silence
  | speech
  deriving DecidableEq, Repr

/-- What the processor reads of `TTSVADConfig` and of the sample rate. -/
structure Config (κ : Type) where
  enabled : Bool
  /-- `score >= begin_threshold` -/
  reachesBegin : κ → Bool
  /-- `score < end_threshold` -/
  belowEnd : κ → Bool
  beginCount : Int
  endCount : Int
  /-- `_frame_samples` -/
  frameSamples : Nat
  /-- `_margin_samples` -/
  marginSamples : Nat
  frameSamples_pos : 0 < frameSamples

/-- What a subclass adds: `_score_frame` and `_reset_detector_state`, on a state of its own. -/
structure Detector (δ κ : Type) where
  scoreFrame : δ → List Int16 → κ × δ
  resetState : δ → δ

/-- `VADMetrics`. -/
structure VADMetrics where
  prefixTrimmedSamples : Nat := 0
  tailTrimmedSamples : Nat := 0
  originalAudioSamples : Nat := 0
  effectiveAudioSamples : Nat := 0
  beginTriggerCount : Nat := 0
  endTriggerCount : Nat := 0
  firstEffectiveAudioFound : Bool := false
  deriving DecidableEq, Repr

/-- The fields of a `TTSVADProcessor`, with the state of its detector. -/
structure TTSVADProcessor (ε δ : Type) where
  state : VADState := .silence
  metrics : VADMetrics := {}
  /-- `_input_buffer` and `_input_provenance` -/
  input : AttributedSamples ε := {}
  processedInputSamples : Nat := 0
  /-- `_margin_buffer` and `_margin_provenance` -/
  margin : AttributedSamples ε := {}
  emitBuffer : List (AttributedSamples ε) := []
  beginBuffer : List (AttributedSamples ε) := []
  beginCounter : Int := 0
  endCounter : Int := 0
  detector : δ

namespace TTSVADProcessor

variable (config : Config κ) (d : Detector δ κ) (p : TTSVADProcessor ε δ)

/-- `_record_trimmed_samples`. -/
def recordTrimmedSamples (n : Nat) : TTSVADProcessor ε δ :=
  if p.metrics.firstEffectiveAudioFound then
    { p with metrics.tailTrimmedSamples := p.metrics.tailTrimmedSamples + n }
  else { p with metrics.prefixTrimmedSamples := p.metrics.prefixTrimmedSamples + n }

/-- `_update_margin_buffer`. -/
def updateMarginBuffer (block : AttributedSamples ε) : TTSVADProcessor ε δ :=
  if block.samples = [] then p
  else if config.marginSamples = 0 then p.recordTrimmedSamples block.samples.length
  else
    let grown : AttributedSamples ε :=
      { samples := p.margin.samples ++ block.samples
        provenance := p.margin.provenance
          ++ shiftSpans (orUnattributed block.provenance block.samples.length)
            p.margin.samples.length }
    if config.marginSamples < grown.samples.length then
      let excess := grown.samples.length - config.marginSamples
      let kept := grown.samples.drop excess
      { p with
        margin := ⟨kept, sliceSpans grown.provenance excess (excess + kept.length)⟩
        }.recordTrimmedSamples excess
    else { p with margin := grown }

/-- A block is confirmed as speech. -/
def emit (block : AttributedSamples ε) : TTSVADProcessor ε δ :=
  { p with
    emitBuffer := p.emitBuffer ++ [block]
    metrics.effectiveAudioSamples := p.metrics.effectiveAudioSamples + block.samples.length }

/-- The lookback is confirmed as speech. -/
def emitMargin : TTSVADProcessor ε δ :=
  if p.margin.samples = [] then p else { p.emit p.margin with margin := {} }

/-- A frame in silence: a candidate of an onset, or the end of the candidates. -/
def hear (reaches : Bool) (block : AttributedSamples ε) : TTSVADProcessor ε δ :=
  if reaches then
    { p with beginCounter := p.beginCounter + 1, beginBuffer := p.beginBuffer ++ [block] }
  else
    let demoted := p.beginBuffer.foldl (updateMarginBuffer config) p
    { demoted with beginBuffer := [], beginCounter := 0 }.updateMarginBuffer config block

/-- The onset is confirmed. -/
def beginSpeech : TTSVADProcessor ε δ :=
  let started := { p with
    state := .speech
    endCounter := 0
    beginCounter := 0
    metrics.beginTriggerCount := p.metrics.beginTriggerCount + 1 }
  let opened := { started.emitMargin with metrics.firstEffectiveAudioFound := true }
  { opened.beginBuffer.foldl emit opened with beginBuffer := [] }

/-- The end of the speech is confirmed by a frame. -/
def endSpeech (block : AttributedSamples ε) : TTSVADProcessor ε δ :=
  let ended := { p with
    state := .silence
    beginCounter := 0
    endCounter := 0
    metrics.endTriggerCount := p.metrics.endTriggerCount + 1 }
  { ended.recordTrimmedSamples block.samples.length with margin := {} }

/-- A scored block in silence. -/
def listen (score : κ) (block : AttributedSamples ε) : TTSVADProcessor ε δ :=
  let heard := p.hear config (config.reachesBegin score) block
  if config.beginCount ≤ heard.beginCounter then heard.beginSpeech else heard

/-- A scored block in speech. -/
def follow (score : κ) (block : AttributedSamples ε) : TTSVADProcessor ε δ :=
  let counted := { p with endCounter := if config.belowEnd score then p.endCounter + 1 else 0 }
  if config.endCount ≤ counted.endCounter then counted.endSpeech block else counted.emit block

/-- The state machine of `_process_frame`, behind the score. -/
def judge (score : κ) (block : AttributedSamples ε) : TTSVADProcessor ε δ :=
  match p.state with
  | .silence => p.listen config score block
  | .speech => p.follow config score block

/-- `_process_frame`: the frame that is scored, and how many of its samples are real. -/
def processFrame (frame : List Int16) (validSamples : Nat)
    (provenance : List (SampleProvenanceSpan ε)) : TTSVADProcessor ε δ :=
  let (score, detector) := d.scoreFrame p.detector frame
  let audio := frame.take validSamples
  { p with detector := detector }.judge config score
    ⟨audio, sliceSpans (orUnattributed provenance frame.length) 0 audio.length⟩

/-- `_drain_emit_buffer_attributed`. -/
def drainEmitBuffer : AttributedSamples ε × TTSVADProcessor ε δ :=
  (concatSpans p.emitBuffer, { p with emitBuffer := [] })

/-- A chunk behind what is buffered. -/
def buffer (chunk : AttributedSamples ε) : AttributedSamples ε :=
  if p.input.samples ≠ [] then
    { samples := p.input.samples ++ chunk.samples
      provenance := p.input.provenance ++ shiftSpans chunk.provenance p.input.samples.length }
  else ⟨chunk.samples, sliceSpans chunk.provenance 0 chunk.samples.length⟩

/-- One turn of the loop over the frames of a chunk. -/
def frameTurn (frames : AttributedSamples ε) (p : TTSVADProcessor ε δ) (i : Nat) :
    TTSVADProcessor ε δ :=
  let frame := (frames.samples.drop (i * config.frameSamples)).take config.frameSamples
  let spans := sliceSpans frames.provenance (i * config.frameSamples : Nat)
    ((i + 1) * config.frameSamples : Nat)
  { p with metrics.originalAudioSamples := p.metrics.originalAudioSamples + frame.length
    }.processFrame config d frame frame.length spans

/-- The buffered samples without the first ones. -/
def rest (input : AttributedSamples ε) (consumed : Nat) : AttributedSamples ε :=
  let samples := input.samples.drop consumed
  ⟨samples, sliceSpans input.provenance consumed (consumed + samples.length : Nat)⟩

/-- The complete frames of the buffer. -/
def processFrames (input : AttributedSamples ε) : TTSVADProcessor ε δ :=
  let nFrames := input.samples.length / config.frameSamples
  let consumed := nFrames * config.frameSamples
  let frames : AttributedSamples ε :=
    ⟨input.samples.take consumed, sliceSpans input.provenance 0 consumed⟩
  let done := (List.range nFrames).foldl (frameTurn config d frames)
    { p with input := rest input consumed }
  { done with processedInputSamples := done.processedInputSamples + consumed }

/-- `process_attributed_chunk`. -/
def processAttributedChunk (chunk : AttributedSamples ε) :
    AttributedSamples ε × TTSVADProcessor ε δ :=
  if chunk.samples = [] then ({}, p)
  else if !config.enabled then
    (⟨chunk.samples, sliceSpans chunk.provenance 0 chunk.samples.length⟩,
      { p with
        metrics.originalAudioSamples := p.metrics.originalAudioSamples + chunk.samples.length
        metrics.effectiveAudioSamples := p.metrics.effectiveAudioSamples + chunk.samples.length
        processedInputSamples := p.processedInputSamples + chunk.samples.length })
  else
    let input := p.buffer chunk
    if input.samples.length / config.frameSamples = 0 then
      { p with input := input }.drainEmitBuffer
    else (p.processFrames config d input).drainEmitBuffer

/-- The partial frame of the buffer, padded for the score. -/
def processRest : TTSVADProcessor ε δ :=
  if p.input.samples = [] then p
  else
    let valid := p.input.samples.length
    let padded := p.input.samples ++ List.replicate (config.frameSamples - valid) 0
    let done := { p with metrics.originalAudioSamples := p.metrics.originalAudioSamples + valid
      }.processFrame config d padded valid (sliceSpans p.input.provenance 0 valid)
    { done with input := {}, processedInputSamples := done.processedInputSamples + valid }

/-- What is held in silence is trimmed. -/
def trimHeld : TTSVADProcessor ε δ :=
  let trimmed := { p.recordTrimmedSamples p.margin.samples.length with margin := {} }
  { trimmed.beginBuffer.foldl (fun p block => p.recordTrimmedSamples block.samples.length)
      trimmed with beginBuffer := [] }

/-- What is held when the stream ends. -/
def settle : TTSVADProcessor ε δ :=
  match p.state with
  | .silence => p.trimHeld
  | .speech => p.emitMargin

/-- `flush_attributed`. -/
def flushAttributed : AttributedSamples ε × TTSVADProcessor ε δ :=
  if !config.enabled then
    (⟨p.input.samples, sliceSpans p.input.provenance 0 p.input.samples.length⟩,
      { p with
        input := {}
        processedInputSamples := p.processedInputSamples + p.input.samples.length })
  else
    let (result, drained) := (p.processRest config d).settle.drainEmitBuffer
    (result, { drained with state := .silence, beginCounter := 0, endCounter := 0, beginBuffer := [] })

/-- `_clear_stream_state`. -/
def clearStreamState : TTSVADProcessor ε δ :=
  { p with
    state := .silence, input := {}, margin := {}, emitBuffer := [], beginBuffer := []
    beginCounter := 0, endCounter := 0 }

/-- The partial frame of the buffer is counted and dropped. -/
def trimRest : TTSVADProcessor ε δ :=
  if p.input.samples = [] then p
  else
    let n := p.input.samples.length
    let trimmed := { p with
      metrics.originalAudioSamples := p.metrics.originalAudioSamples + n }.recordTrimmedSamples n
    { trimmed with processedInputSamples := trimmed.processedInputSamples + n }

/-- `discard_pending`. -/
def discardPending : TTSVADProcessor ε δ :=
  let counted := p.trimRest
  let trimmed := counted.recordTrimmedSamples counted.margin.samples.length
  let settled := trimmed.beginBuffer.foldl
    (fun p block => p.recordTrimmedSamples block.samples.length) trimmed
  { settled.clearStreamState with detector := d.resetState settled.detector }

end TTSVADProcessor

end StreamingTts.Gateway.Vad
