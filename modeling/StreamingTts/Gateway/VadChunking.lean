import StreamingTts.Gateway.VadCalls

/-!
# The chunks do not matter

Two ways to cut a block into chunks give the same samples with the same sources and the same metrics
(`chunking_independent`). A processor that was fed chunks is the frames of all their samples and a rest
(`After`), whatever the chunks, since a chunk behind the rest is the frames that its samples complete
(`after_chunk`).
-/

namespace StreamingTts.Gateway.Vad

variable {ε : Type} {δ : Type} {κ : Type}

/-! ## Cuts -/

/-- Chunks that cut a block: their spans lie inside them, and each sample keeps its sources. -/
structure Cut (whole : AttributedSamples ε) (chunks : List (AttributedSamples ε)) : Prop where
  inside : ∀ chunk ∈ chunks, chunk.Inside
  label : (chunks.map AttributedSamples.label).flatten = whole.label

/-- The part of a block between two samples, with the spans over it. -/
def AttributedSamples.part (whole : AttributedSamples ε) (start stop : Nat) : AttributedSamples ε :=
  ⟨(whole.samples.drop start).take (stop - start), sliceSpans whole.provenance start stop⟩

/-- The parts of a block from `start` on that end at `stops`, and what is behind. -/
def AttributedSamples.parts (whole : AttributedSamples ε) : Nat → List Nat → List (AttributedSamples ε)
  | start, [] => [whole.part start whole.samples.length]
  | start, stop :: stops => whole.part start stop :: whole.parts stop stops

theorem part_label (whole : AttributedSamples ε) {start stop : Nat} (h : start ≤ stop)
    (hstop : stop ≤ whole.samples.length) :
    (whole.part start stop).Inside ∧
      (whole.part start stop).label = (whole.label.drop start).take (stop - start) := by
  have hlen : ((whole.samples.drop start).take (stop - start)).length = stop - start := by
    rw [List.length_take, List.length_drop]
    omega
  obtain ⟨hheld, hread⟩ := (labelled : Reading ε _).slice whole start
    (List.take_prefix (stop - start) _)
  have hend : (start : Int) + ((stop - start : Nat) : Int) = stop := by omega
  rw [hlen, hend] at hheld hread
  exact ⟨hheld, hread⟩

/-- Any rising sequence of stops is a cut. -/
theorem cut_parts (whole : AttributedSamples ε) {stops : List Nat}
    (h : (0 :: stops).Pairwise (· ≤ ·)) (hstops : ∀ stop ∈ stops, stop ≤ whole.samples.length) :
    Cut whole (whole.parts 0 stops) := by
  have hparts : ∀ (stops : List Nat) (start : Nat), (start :: stops).Pairwise (· ≤ ·) →
      start ≤ whole.samples.length → (∀ stop ∈ stops, stop ≤ whole.samples.length) →
      (∀ chunk ∈ whole.parts start stops, chunk.Inside) ∧
        ((whole.parts start stops).map AttributedSamples.label).flatten = whole.label.drop start := by
    intro stops
    induction stops with
    | nil =>
        intro start _ hstart _
        obtain ⟨hinside, hlabel⟩ := part_label whole hstart (Nat.le_refl _)
        refine ⟨fun chunk hmem => List.mem_singleton.1 hmem ▸ hinside, ?_⟩
        show (whole.part start whole.samples.length).label ++ [] = whole.label.drop start
        rw [List.append_nil, hlabel]
        exact List.take_of_length_le (Nat.le_of_eq (by rw [List.length_drop, length_label]))
    | cons stop stops ih =>
        intro start hsorted _ hbound
        obtain ⟨hstop, hbound'⟩ := List.forall_mem_cons.1 hbound
        have hle : start ≤ stop := List.rel_of_pairwise_cons hsorted List.mem_cons_self
        obtain ⟨hinside, hlabel⟩ := part_label whole hle hstop
        obtain ⟨hinside', hlabel'⟩ := ih stop hsorted.of_cons hstop hbound'
        refine ⟨List.forall_mem_cons.2 ⟨hinside, hinside'⟩, ?_⟩
        rw [AttributedSamples.parts, List.map_cons, List.flatten_cons, hlabel', hlabel]
        have hdrop : whole.label.drop stop = (whole.label.drop start).drop (stop - start) := by
          rw [List.drop_drop, Nat.add_sub_cancel' hle]
        rw [hdrop, List.take_append_drop]
  obtain ⟨hinside, hlabel⟩ := hparts stops 0 h (Nat.zero_le _) hstops
  exact ⟨hinside, hlabel⟩

/-- The stops of the frames. -/
def frameStops (config : Config κ) (n : Nat) : List Nat :=
  (List.range (n / config.frameSamples)).map fun i => (i + 1) * config.frameSamples

/-- A block cut into its frames, and a partial one. -/
def AttributedSamples.frameChunks (config : Config κ) (whole : AttributedSamples ε) :
    List (AttributedSamples ε) := whole.parts 0 (frameStops config whole.samples.length)

theorem cut_frameChunks (config : Config κ) (whole : AttributedSamples ε) :
    Cut whole (whole.frameChunks config) := by
  refine cut_parts whole (List.pairwise_cons.2 ⟨fun _ _ => Nat.zero_le _, ?_⟩) fun stop hmem => ?_
  · refine List.pairwise_map.2 (List.Pairwise.imp (fun h => ?_) List.pairwise_lt_range)
    exact Nat.mul_le_mul_right _ (Nat.succ_le_succ (Nat.le_of_lt h))
  · obtain ⟨i, hi, rfl⟩ := List.mem_map.1 hmem
    exact Nat.le_trans (Nat.mul_le_mul_right _ (List.mem_range.1 hi)) (Nat.div_mul_le_self _ _)

/-! ## Runs -/

namespace TTSVADProcessor

variable (config : Config κ) (d : Detector δ κ)

/-- Chunk after chunk: what is returned, and the processor. -/
def processChunks (p : TTSVADProcessor ε δ) :
    List (AttributedSamples ε) → List (AttributedSamples ε) × TTSVADProcessor ε δ
  | [] => ([], p)
  | chunk :: chunks =>
      let (result, p) := p.processAttributedChunk config d chunk
      let (results, p) := p.processChunks chunks
      (result :: results, p)

/-- The chunks and the flush. -/
def stream (p : TTSVADProcessor ε δ) (chunks : List (AttributedSamples ε)) :
    List (AttributedSamples ε) × TTSVADProcessor ε δ :=
  let (results, p) := p.processChunks config d chunks
  let (last, p) := p.flushAttributed config d
  (results ++ [last], p)

/-- What a stream comes to: its samples, the sources of each of them, and the metrics. -/
structure Outcome (ε : Type) where
  samples : List Int16
  attribution : List (List (Source ε))
  metrics : VADMetrics

/-- The outcome of a stream of a new processor. -/
def outcome (s : δ) (chunks : List (AttributedSamples ε)) : Outcome ε :=
  let (results, p) := ({ detector := s } : TTSVADProcessor ε δ).stream config d chunks
  { samples := results.flatMap (·.samples)
    attribution := results.flatMap fun result => result.label.map Prod.snd
    metrics := p.metrics }

/-- Frame by frame over samples with their sources, or all of them. -/
def frameByFrame (s : δ) (l : List (Int16 × List (Source ε))) :
    List (Int16 × List (Source ε)) × VADMetrics :=
  if config.enabled then
    let n := l.length / config.frameSamples
    let heard := Gate.frames labelled config d n ({ detector := s } : Gate _ δ) l
    let done := (heard.lastFrame labelled config d (l.drop (n * config.frameSamples))).close
    (done.emitted, done.metrics)
  else (l, { originalAudioSamples := l.length, effectiveAudioSamples := l.length })

section
variable {config : Config κ} {d : Detector δ κ} {p : TTSVADProcessor ε δ} {s : δ}
  {l o : List (Int16 × List (Source ε))} {chunk : AttributedSamples ε}

/-- A processor that was fed the samples `l` and returned `o`: the frames of `l`, and a rest. -/
structure After (config : Config κ) (d : Detector δ κ) (s : δ) (l o : List (Int16 × List (Source ε)))
    (p : TTSVADProcessor ε δ) : Prop where
  between : p.Between labelled config
  view : p.view labelled o
    = Gate.frames labelled config d (l.length / config.frameSamples) { detector := s } l
  rest : p.input.label = l.drop (l.length / config.frameSamples * config.frameSamples)

theorem after_new (config : Config κ) (d : Detector δ κ) (s : δ) :
    After config d s [] [] ({ detector := s } : TTSVADProcessor ε δ) := by
  refine ⟨between_new labelled config s, ?_, List.drop_nil.symm⟩
  rw [List.length_nil, Nat.zero_div]
  rfl

/-- A chunk behind the rest. -/
theorem after_chunk (hen : config.enabled = true) (h : After config d s l o p)
    (hc : chunk.Inside) :
    After config d s (l ++ chunk.label)
      (o ++ (p.processAttributedChunk config d chunk).1.label)
      (p.processAttributedChunk config d chunk).2 := by
  obtain ⟨hbetween, hview, hrest, -⟩ := process_view (o := o) d hen h.between
    (show (labelled : Reading ε _).Held chunk from hc)
  have hle : l.length / config.frameSamples * config.frameSamples ≤ l.length :=
    Nat.div_mul_le_self _ _
  have hread : (labelled : Reading ε _).read p.input ++ (labelled : Reading ε _).read chunk
      = (l ++ chunk.label).drop (l.length / config.frameSamples * config.frameSamples) := by
    rw [List.drop_append_of_le_length hle]
    exact congrArg (· ++ chunk.label) h.rest
  rw [hread] at hview hrest
  -- the frames of all the samples are those of the first ones, and those that the chunk completes
  have hcount : (l ++ chunk.label).length / config.frameSamples
      = l.length / config.frameSamples + ((l ++ chunk.label).drop
        (l.length / config.frameSamples * config.frameSamples)).length / config.frameSamples := by
    have hlen : (l ++ chunk.label).length = config.frameSamples * (l.length / config.frameSamples)
        + ((l ++ chunk.label).drop
          (l.length / config.frameSamples * config.frameSamples)).length := by
      rw [Nat.mul_comm, List.length_drop, List.length_append]
      omega
    conv_lhs => rw [hlen]
    exact Nat.mul_add_div config.frameSamples_pos _ _
  refine ⟨hbetween, ?_, ?_⟩
  · rw [hcount, Gate.frames_add, Gate.frames_append _ _ _ hle, ← h.view]
    exact hview
  · rw [hcount, Nat.add_mul, ← List.drop_drop]
    exact hrest

/-- A processor that is disabled and was fed `l`. -/
structure Passed (l o : List (Int16 × List (Source ε))) (p : TTSVADProcessor ε δ) : Prop where
  returned : o = l
  input : p.input.samples = []
  metrics : p.metrics = { originalAudioSamples := l.length, effectiveAudioSamples := l.length }

theorem passed_chunk (chunk : AttributedSamples ε) (hen : config.enabled = false) (h : Passed l o p) :
    Passed (l ++ chunk.label) (o ++ (p.processAttributedChunk config d chunk).1.label)
      (p.processAttributedChunk config d chunk).2 := by
  unfold processAttributedChunk
  by_cases hnil : chunk.samples = []
  · have hchunk : chunk.label = [] := (labelled : Reading ε _).read_eq_nil.2 hnil
    rw [if_pos hnil, hchunk, List.append_nil]
    exact ⟨(List.append_nil o).trans h.returned, h.input, h.metrics⟩
  rw [if_neg hnil, hen]
  simp only [Bool.not_false, if_true]
  have hread := ((labelled : Reading ε _).whole chunk).2
  refine ⟨?_, h.input, ?_⟩
  · rw [h.returned]
    exact congrArg (l ++ ·) hread
  · rw [h.metrics]
    simp only [List.length_append, length_label]

/-- What the chunks return, and the processor behind them. -/
theorem processChunks_after (hen : config.enabled = true) {chunks : List (AttributedSamples ε)}
    (hc : ∀ chunk ∈ chunks, chunk.Inside) (h : After config d s l o p) :
    After config d s (l ++ (chunks.map AttributedSamples.label).flatten)
      (o ++ ((p.processChunks config d chunks).1.map AttributedSamples.label).flatten)
      (p.processChunks config d chunks).2 := by
  induction chunks generalizing l o p with
  | nil =>
      show After config d s (l ++ []) (o ++ []) p
      rwa [List.append_nil, List.append_nil]
  | cons chunk chunks ih =>
      obtain ⟨hchunk, hchunks⟩ := List.forall_mem_cons.1 hc
      have hrest := ih hchunks (after_chunk hen h hchunk)
      rw [List.append_assoc, List.append_assoc] at hrest
      exact hrest

theorem processChunks_passed (hen : config.enabled = false) (chunks : List (AttributedSamples ε))
    (h : Passed l o p) :
    Passed (l ++ (chunks.map AttributedSamples.label).flatten)
      (o ++ ((p.processChunks config d chunks).1.map AttributedSamples.label).flatten)
      (p.processChunks config d chunks).2 := by
  induction chunks generalizing l o p with
  | nil =>
      show Passed (l ++ []) (o ++ []) p
      rwa [List.append_nil, List.append_nil]
  | cons chunk chunks ih =>
      have hrest := ih (passed_chunk (d := d) chunk hen h)
      rw [List.append_assoc, List.append_assoc] at hrest
      exact hrest

/-- The flush behind the chunks. -/
theorem flush_after (hen : config.enabled = true) (h : After config d s l o p) :
    (o ++ (p.flushAttributed config d).1.label, (p.flushAttributed config d).2.metrics)
      = frameByFrame config d s l := by
  obtain ⟨hview, -, hemit, -⟩ := flush_view (o := o) d hen h.between
  have hread : (labelled : Reading ε _).read p.input = p.input.label := rfl
  rw [h.view, hread, h.rest] at hview
  have hemitted := congrArg Gate.emitted hview
  have hmetrics := congrArg Gate.metrics hview
  simp only [view, hemit, List.map_nil, List.flatten_nil, List.append_nil] at hemitted hmetrics
  unfold frameByFrame
  rw [if_pos hen]
  exact Prod.ext hemitted hmetrics

theorem flush_passed (hen : config.enabled = false) (h : Passed l o p) :
    (o ++ (p.flushAttributed config d).1.label, (p.flushAttributed config d).2.metrics)
      = frameByFrame config d s l := by
  unfold flushAttributed frameByFrame
  rw [hen]
  simp only [Bool.not_false, if_true, Bool.false_eq_true, if_false, h.input]
  exact Prod.ext ((List.append_nil o).trans h.returned) h.metrics

/-- A stream is frame by frame over all the samples of its chunks. -/
theorem stream_frameByFrame (config : Config κ) (d : Detector δ κ) (s : δ)
    {chunks : List (AttributedSamples ε)} (hc : ∀ chunk ∈ chunks, chunk.Inside) :
    let done := ({ detector := s } : TTSVADProcessor ε δ).stream config d chunks
    ((done.1.map AttributedSamples.label).flatten, done.2.metrics)
      = frameByFrame config d s (chunks.map AttributedSamples.label).flatten := by
  intro done
  have hdone : ∀ (results : List (AttributedSamples ε)) (last : AttributedSamples ε),
      ((results ++ [last]).map AttributedSamples.label).flatten
        = (results.map AttributedSamples.label).flatten ++ last.label := by
    intro results last
    rw [List.map_append, List.flatten_append, List.map_singleton, List.flatten_singleton]
  have hpair := congrArg (Prod.mk · done.2.metrics) (hdone
    (({ detector := s } : TTSVADProcessor ε δ).processChunks config d chunks).1
    ((({ detector := s } : TTSVADProcessor ε δ).processChunks config d chunks).2.flushAttributed
      config d).1)
  refine hpair.trans ?_
  cases hen : config.enabled with
  | true =>
      have h := processChunks_after hen hc (after_new config d s)
      rw [List.nil_append, List.nil_append] at h
      exact flush_after hen h
  | false =>
      have hnew : Passed [] [] ({ detector := s } : TTSVADProcessor ε δ) := ⟨rfl, rfl, rfl⟩
      have h := processChunks_passed (d := d) hen chunks hnew
      rw [List.nil_append, List.nil_append] at h
      exact flush_passed (d := d) (s := s) hen h

theorem outcome_eq (config : Config κ) (d : Detector δ κ) (s : δ)
    {whole : AttributedSamples ε} {chunks : List (AttributedSamples ε)} (h : Cut whole chunks) :
    outcome config d s chunks
      = { samples := (frameByFrame config d s whole.label).1.map Prod.fst
          attribution := (frameByFrame config d s whole.label).1.map Prod.snd
          metrics := (frameByFrame config d s whole.label).2 } := by
  have hstream := stream_frameByFrame config d s h.inside
  rw [h.label] at hstream
  obtain ⟨hlabel, hmetrics⟩ := Prod.ext_iff.1 hstream
  unfold outcome
  rw [← hlabel, ← hmetrics, List.map_flatten, List.map_flatten, List.map_map, List.map_map]
  have hsamples : ∀ result : AttributedSamples ε, result.label.map Prod.fst = result.samples :=
    fun result => map_fst_labelFrom _ _ _
  simp only [List.flatMap_def, Function.comp_def, hsamples]

end

/-- Any two ways to cut a block into chunks come to the same, which is what its frames come to one by
one. -/
theorem chunking_independent (config : Config κ) (d : Detector δ κ) (s : δ)
    {whole : AttributedSamples ε} {chunks chunks' : List (AttributedSamples ε)}
    (h : Cut whole chunks) (h' : Cut whole chunks') :
    outcome config d s chunks = outcome config d s chunks' ∧
      outcome config d s chunks = outcome config d s (whole.frameChunks config) := by
  have heq := outcome_eq config d s h
  exact ⟨heq.trans (outcome_eq config d s h').symm,
    heq.trans (outcome_eq config d s (cut_frameChunks config whole)).symm⟩

/-- Three samples of one chunk, cut behind the first and behind the second one. -/
theorem chunking_independent_three :
    outcome ⟨true, fun s : Bool => s, fun s => !s, 1, 1, 2, 1, by decide⟩
        ⟨fun (n : Nat) frame => (frame.length == 2 && n == 0, n + 1), id⟩ 0
        ((⟨[1, 2, 3], [⟨0, 3, { segmentIdx := 0 }⟩]⟩ : AttributedSamples Nat).parts 0 [1])
      = outcome ⟨true, fun s : Bool => s, fun s => !s, 1, 1, 2, 1, by decide⟩
        ⟨fun (n : Nat) frame => (frame.length == 2 && n == 0, n + 1), id⟩ 0
        ((⟨[1, 2, 3], [⟨0, 3, { segmentIdx := 0 }⟩]⟩ : AttributedSamples Nat).parts 0 [2]) :=
  (chunking_independent _ _ _ (cut_parts _ (by decide) (by decide))
    (cut_parts _ (by decide) (by decide))).1

end TTSVADProcessor

end StreamingTts.Gateway.Vad
