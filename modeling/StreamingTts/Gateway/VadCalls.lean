import StreamingTts.Gateway.VadGate

/-!
# Calls of the processor

What `process_attributed_chunk`, `flush_attributed` and `discard_pending` do to a processor, read as a
gate: a chunk behind the buffered input is so many frames and a rest (`process_view`), a flush is the
rest and what is held (`flush_view`), and a discard drops both (`discard_view`). The lemmas hold of every
`Reading`, so of the samples alone and of the samples with their sources.
-/

namespace StreamingTts.Gateway.Vad

variable {ε : Type} {δ : Type} {κ : Type} {β : Type}

/-! ## Frames -/

namespace Gate

variable (r : Reading ε β) (config : Config κ) (d : Detector δ κ)

/-- A complete frame, as it is read. -/
def hearFrame (g : Gate β δ) (f : List β) : Gate β δ :=
  g.frame config d (f.map r.sample) (r.bring f)

/-- The first `n` frames of a list. -/
def frames : Nat → Gate β δ → List β → Gate β δ
  | 0, g, _ => g
  | n + 1, g, l =>
      frames n (g.hearFrame r config d (l.take config.frameSamples)) (l.drop config.frameSamples)

/-- The partial frame, padded for the score. -/
def lastFrame (g : Gate β δ) (f : List β) : Gate β δ :=
  if f = [] then g
  else
    g.frame config d (f.map r.sample ++ List.replicate (config.frameSamples - f.length) 0) (r.bring f)

/-- The end of the stream. -/
def close (g : Gate β δ) : Gate β δ :=
  { g.settle with state := .silence, beginCounter := 0, endCounter := 0, onset := [] }

/-- `n` samples that no frame has are dropped. -/
def trimRest (g : Gate β δ) (n : Nat) : Gate β δ := if n = 0 then g else (g.count n).trim n

/-- `n` samples that no frame has are dropped, and what is held. -/
def discard (g : Gate β δ) (n : Nat) : Gate β δ :=
  let counted := g.trimRest n
  let trimmed := counted.trim counted.margin.length
  let settled := trimmed.onset.foldl (fun g block => g.trim block.length) trimmed
  { metrics := settled.metrics, emitted := g.emitted, detector := d.resetState settled.detector }

variable {r config d}

theorem frames_add (m n : Nat) (g : Gate β δ) (l : List β) :
    frames r config d (m + n) g l
      = frames r config d n (frames r config d m g l) (l.drop (m * config.frameSamples)) := by
  induction m generalizing g l with
  | zero => rw [Nat.zero_add, Nat.zero_mul, List.drop_zero, frames]
  | succ m ih =>
      rw [Nat.add_right_comm, frames, ih, frames, List.drop_drop, Nat.succ_mul, Nat.add_comm]

theorem frames_succ (n : Nat) (g : Gate β δ) (l : List β) :
    frames r config d (n + 1) g l = (frames r config d n g l).hearFrame r config d
      ((l.drop (n * config.frameSamples)).take config.frameSamples) := frames_add n 1 g l

/-- Frames do not depend on what is behind them. -/
theorem frames_append (n : Nat) (g : Gate β δ) {l : List β} (t : List β)
    (h : n * config.frameSamples ≤ l.length) :
    frames r config d n g (l ++ t) = frames r config d n g l := by
  induction n generalizing g l with
  | zero => rfl
  | succ n ih =>
      rw [Nat.succ_mul] at h
      rw [frames, frames, List.take_append_of_le_length (by omega),
        List.drop_append_of_le_length (by omega), ih _ (by rw [List.length_drop]; omega)]

theorem frames_take (n : Nat) (g : Gate β δ) {l : List β}
    (h : n * config.frameSamples ≤ l.length) :
    frames r config d n g (l.take (n * config.frameSamples)) = frames r config d n g l := by
  have hlen : n * config.frameSamples ≤ (l.take (n * config.frameSamples)).length := by
    rw [List.length_take]
    omega
  have := frames_append (r := r) (d := d) n g (l.drop (n * config.frameSamples)) hlen
  rw [List.take_append_drop] at this
  exact this.symm

end Gate

/-! ## Chunks -/

namespace TTSVADProcessor

section
variable {r : Reading ε β} {k : AttributedSamples ε × Nat} {o : List β} {config : Config κ}
  {p : TTSVADProcessor ε δ} {chunk : AttributedSamples ε}

/-- A turn of the loop is a frame. -/
theorem frameTurn_view (config : Config κ) (d : Detector δ κ) (h : p.Ok r k)
    {frames : AttributedSamples ε} {i : Nat}
    (hi : (i + 1) * config.frameSamples ≤ frames.samples.length) :
    (frameTurn config d frames p i).Ok r k ∧
      (frameTurn config d frames p i).view r o = (p.view r o).hearFrame r config d
        (((r.read frames).drop (i * config.frameSamples)).take config.frameSamples) := by
  have hpos := config.frameSamples_pos
  rw [Nat.succ_mul] at hi
  have hlen : ((frames.samples.drop (i * config.frameSamples)).take config.frameSamples).length
      = config.frameSamples := by
    rw [List.length_take, List.length_drop]
    omega
  obtain ⟨-, hread⟩ := r.slice frames (i * config.frameSamples)
    (List.take_prefix config.frameSamples _)
  rw [hlen] at hread
  have hstop : (((i + 1) * config.frameSamples : Nat) : Int)
      = (i * config.frameSamples : Nat) + (config.frameSamples : Int) := by
    rw [Nat.succ_mul]
    rfl
  have hspans : Tight config.frameSamples (sliceSpans frames.provenance
      (i * config.frameSamples : Nat) ((i * config.frameSamples : Nat) + config.frameSamples)) :=
    sliceSpans_tight _ (by omega)
  have hmap := r.map_sample ⟨(frames.samples.drop (i * config.frameSamples)).take config.frameSamples,
    sliceSpans frames.provenance (i * config.frameSamples : Nat)
      ((i * config.frameSamples : Nat) + config.frameSamples)⟩
  obtain ⟨hok, hview⟩ := processFrame_view (o := o) config d h _ _ (Nat.le_of_eq hlen.symm)
    hpos hspans
  rw [List.take_of_length_le (Nat.le_of_eq hlen), hread] at hview
  rw [hread] at hmap
  unfold frameTurn Gate.hearFrame
  simp only
  rw [hlen, hstop, hmap]
  exact ⟨hok, hview⟩

/-- The loop over the frames. -/
theorem frameTurns_view (config : Config κ) (d : Detector δ κ) (h : p.Ok r k)
    (frames : AttributedSamples ε) (n : Nat) (hn : n * config.frameSamples ≤ frames.samples.length) :
    ((List.range n).foldl (frameTurn config d frames) p).Ok r k ∧
      ((List.range n).foldl (frameTurn config d frames) p).view r o
        = Gate.frames r config d n (p.view r o) (r.read frames) := by
  induction n with
  | zero => exact ⟨h, rfl⟩
  | succ n ih =>
      obtain ⟨hok, hview⟩ := ih (Nat.le_trans (Nat.mul_le_mul_right _ (Nat.le_succ n)) hn)
      rw [List.range_succ, List.foldl_append, List.foldl_cons, List.foldl_nil, Gate.frames_succ,
        ← hview]
      exact frameTurn_view config d hok hn

/-- What is buffered with a chunk. -/
theorem buffer_read (hp : r.Held p.input) (hc : r.Held chunk) :
    r.Held (p.buffer chunk) ∧ r.read (p.buffer chunk) = r.read p.input ++ r.read chunk := by
  unfold buffer
  split
  · exact r.join hp hc
  · next hempty =>
    obtain ⟨hheld, hread⟩ := r.whole chunk
    refine ⟨hheld, hread.trans ?_⟩
    rw [r.read_eq_nil.2 (Decidable.not_not.1 hempty), List.nil_append]

/-- A processor between two calls. -/
structure Between (r : Reading ε β) (config : Config κ) (p : TTSVADProcessor ε δ) : Prop where
  ok : p.Ok r (p.input, p.processedInputSamples)
  drained : p.emitBuffer = []
  held : r.Held p.input
  short : p.input.samples.length < config.frameSamples

theorem between_new (r : Reading ε β) (config : Config κ) (s : δ) :
    Between r config ({ detector := s } : TTSVADProcessor ε δ) :=
  ⟨⟨r.held_empty, fun _ h => absurd h List.not_mem_nil, fun _ h => absurd h List.not_mem_nil, rfl⟩,
    rfl, r.held_empty, config.frameSamples_pos⟩

/-- What is drained goes behind what was returned. -/
theorem drain_view (h : p.Ok r k) :
    p.drainEmitBuffer.2.Ok r k ∧
      p.drainEmitBuffer.2.view r (o ++ r.read p.drainEmitBuffer.1) = p.view r o := by
  refine ⟨⟨h.margin, fun _ hmem => absurd hmem List.not_mem_nil, h.onset, h.kept⟩, ?_⟩
  unfold drainEmitBuffer view
  simp only [r.concat h.emitted, List.map_nil, List.flatten_nil, List.append_nil]

/-- The rest of what is buffered. -/
theorem rest_read (r : Reading ε β) (input : AttributedSamples ε) (n : Nat) :
    r.Held (rest input n) ∧ r.read (rest input n) = (r.read input).drop n := by
  unfold rest
  simp only
  rw [Int.natCast_add]
  exact r.drop input n

/-- The frames of what is buffered, and the rest. -/
theorem processFrames_view (config : Config κ) (d : Detector δ κ) (h : p.Ok r k)
    (input : AttributedSamples ε) :
    let n := input.samples.length / config.frameSamples
    let done := p.processFrames config d input
    done.Ok r (rest input (n * config.frameSamples), k.2 + n * config.frameSamples) ∧
      done.view r o = Gate.frames r config d n (p.view r o) (r.read input) := by
  intro n done
  have hn : n * config.frameSamples ≤ input.samples.length := Nat.div_mul_le_self _ _
  obtain ⟨-, hfront⟩ := r.front input hn
  have hlen : (input.samples.take (n * config.frameSamples)).length = n * config.frameSamples := by
    rw [List.length_take, Nat.min_eq_left hn]
  have hbegun : TTSVADProcessor.Ok r (rest input (n * config.frameSamples), k.2)
      { p with input := rest input (n * config.frameSamples) } :=
    ⟨h.margin, h.emitted, h.onset, by rw [← h.kept]⟩
  obtain ⟨hok, hview⟩ := frameTurns_view (o := o) config d hbegun
    ⟨input.samples.take (n * config.frameSamples),
      sliceSpans input.provenance 0 (n * config.frameSamples : Nat)⟩ n (Nat.le_of_eq hlen.symm)
  rw [hfront, Gate.frames_take n _ (by rw [r.length_read]; exact hn)] at hview
  obtain ⟨hinput, hcount⟩ := Prod.ext_iff.1 hok.kept
  exact ⟨⟨hok.margin, hok.emitted, hok.onset,
    Prod.ext hinput (congrArg (· + n * config.frameSamples) hcount)⟩, hview⟩

/-- A chunk: the frames of what is buffered with it, and the rest. -/
theorem process_view (d : Detector δ κ) (hen : config.enabled = true) (h : p.Between r config)
    (hc : r.Held chunk) :
    let l := r.read p.input ++ r.read chunk
    let n := l.length / config.frameSamples
    let done := p.processAttributedChunk config d chunk
    done.2.Between r config ∧
      done.2.view r (o ++ r.read done.1) = Gate.frames r config d n (p.view r o) l ∧
      r.read done.2.input = l.drop (n * config.frameSamples) ∧
      done.2.processedInputSamples = p.processedInputSamples + n * config.frameSamples := by
  intro l n done
  have hpos := config.frameSamples_pos
  have hshort := h.short
  obtain ⟨hheld, hread⟩ := buffer_read h.held hc
  have hl : l.length = (p.buffer chunk).samples.length := by
    rw [← r.length_read, hread]
  have hdone : done = p.processAttributedChunk config d chunk := rfl
  unfold processAttributedChunk at hdone
  by_cases hnil : chunk.samples = []
  · rw [if_pos hnil] at hdone
    have hchunk : r.read chunk = [] := r.read_eq_nil.2 hnil
    have hl' : l = r.read p.input := by
      show r.read p.input ++ r.read chunk = r.read p.input
      rw [hchunk, List.append_nil]
    have hn : n = 0 := by
      show l.length / config.frameSamples = 0
      rw [hl', r.length_read]
      exact Nat.div_eq_of_lt hshort
    have hempty : r.read {} = [] := r.read_eq_nil.2 rfl
    rw [hdone, hn, Nat.zero_mul, List.drop_zero, hl', hempty, List.append_nil]
    exact ⟨h, rfl, rfl, rfl⟩
  rw [if_neg hnil, hen] at hdone
  simp only [Bool.not_true, Bool.false_eq_true, if_false] at hdone
  have hn : n = (p.buffer chunk).samples.length / config.frameSamples := by
    show l.length / config.frameSamples = _
    rw [hl]
  by_cases hzero : (p.buffer chunk).samples.length / config.frameSamples = 0
  · rw [if_pos hzero] at hdone
    have hok : TTSVADProcessor.Ok r (p.buffer chunk, p.processedInputSamples)
        { p with input := p.buffer chunk } := ⟨h.ok.margin, h.ok.emitted, h.ok.onset, rfl⟩
    obtain ⟨hok', hview⟩ := drain_view (o := o) hok
    rw [hdone, hn, hzero, Nat.zero_mul, List.drop_zero]
    refine ⟨⟨hok', rfl, hheld, ?_⟩, hview, hread, rfl⟩
    exact (Nat.div_eq_zero_iff_lt hpos).1 hzero
  · rw [if_neg hzero] at hdone
    obtain ⟨hok, hview⟩ := processFrames_view (o := o) config d h.ok (p.buffer chunk)
    obtain ⟨hok', hview'⟩ := drain_view (o := o) hok
    obtain ⟨hrest, hcount⟩ := Prod.ext_iff.1 hok'.kept
    obtain ⟨hheld', hread'⟩ := rest_read r (p.buffer chunk) (n * config.frameSamples)
    rw [← hn] at hrest hcount
    simp only at hrest hcount
    have hinput : done.2.input = rest (p.buffer chunk) (n * config.frameSamples) := by
      rw [hdone]
      exact hrest
    refine ⟨⟨?_, ?_, ?_, ?_⟩, ?_, ?_, ?_⟩
    · rw [hdone]
      exact ⟨hok'.margin, hok'.emitted, hok'.onset, rfl⟩
    · rw [hdone]
      rfl
    · rw [hinput]
      exact hheld'
    · rw [hinput]
      unfold rest
      simp only
      rw [List.length_drop, hn, Nat.mul_comm, ← Nat.mod_eq_sub_mul_div]
      exact Nat.mod_lt _ hpos
    · rw [hdone, hview', hview, hn, hread]
    · rw [hinput, hread', hread]
    · rw [hdone]
      exact hcount

/-! ## The end of a stream -/

/-- The rest, as the last frame. -/
theorem processRest_view (config : Config κ) (d : Detector δ κ) (h : p.Between r config) :
    ∃ k, (p.processRest config d).Ok r k ∧ k.1.samples = [] ∧
      k.2 = p.processedInputSamples + p.input.samples.length ∧
      (p.processRest config d).view r o = (p.view r o).lastFrame r config d (r.read p.input) := by
  unfold processRest Gate.lastFrame
  by_cases hnil : p.input.samples = []
  · rw [if_pos hnil, if_pos (r.read_eq_nil.2 hnil)]
    exact ⟨_, h.ok, hnil, by rw [hnil, List.length_nil, Nat.add_zero], rfl⟩
  rw [if_neg hnil, if_neg (mt r.read_eq_nil.1 hnil)]
  have hpos : 0 < p.input.samples.length := List.length_pos_iff.2 hnil
  obtain ⟨-, hread⟩ := r.whole p.input
  obtain ⟨hok, hview⟩ := processFrame_view (o := o) config d h.ok
    (p.input.samples ++ List.replicate (config.frameSamples - p.input.samples.length) 0)
    p.input.samples.length (by rw [List.length_append]; omega) hpos
    (sliceSpans_tight p.input.provenance (Int.le_of_eq (Int.sub_zero _)))
  rw [List.take_left, hread] at hview
  obtain ⟨hinput, hcount⟩ := Prod.ext_iff.1 hok.kept
  refine ⟨({}, p.processedInputSamples + p.input.samples.length),
    ⟨hok.margin, hok.emitted, hok.onset, ?_⟩, rfl, rfl, ?_⟩
  · exact Prod.ext rfl (congrArg (· + p.input.samples.length) hcount)
  · rw [r.map_sample, r.length_read]
    exact hview

/-- A flush: the rest and what is held. -/
theorem flush_view (d : Detector δ κ) (hen : config.enabled = true) (h : p.Between r config) :
    let done := p.flushAttributed config d
    done.2.view r (o ++ r.read done.1)
        = ((p.view r o).lastFrame r config d (r.read p.input)).close ∧
      done.2.input.samples = [] ∧ done.2.emitBuffer = [] ∧ done.2.beginBuffer = [] ∧
      done.2.processedInputSamples = p.processedInputSamples + p.input.samples.length := by
  intro done
  obtain ⟨k, hok, hinput, hcount, hview⟩ := processRest_view (o := o) config d h
  obtain ⟨hok', hview'⟩ := settle_view (o := o) hok
  obtain ⟨hok'', hview''⟩ := drain_view (o := o) hok'
  obtain ⟨hinput', hcount'⟩ := Prod.ext_iff.1 hok''.kept
  have hdone : done = p.flushAttributed config d := rfl
  unfold flushAttributed at hdone
  rw [hen] at hdone
  simp only [Bool.not_true, Bool.false_eq_true, if_false] at hdone
  rw [hdone]
  refine ⟨?_, (congrArg (·.samples) hinput').trans hinput, rfl, rfl, hcount'.trans hcount⟩
  unfold Gate.close
  rw [← hview, ← hview', ← hview'']
  rfl

theorem trimRest_view (h : p.Between r config) :
    p.trimRest.Ok r (p.input, p.processedInputSamples + p.input.samples.length) ∧
      p.trimRest.view r o = (p.view r o).trimRest p.input.samples.length := by
  unfold trimRest Gate.trimRest
  by_cases hnil : p.input.samples = []
  · rw [if_pos hnil, hnil, if_pos List.length_nil]
    exact ⟨h.ok, rfl⟩
  rw [if_neg hnil, if_neg (mt List.length_eq_zero_iff.1 hnil)]
  have hcounted : TTSVADProcessor.Ok r (p.input, p.processedInputSamples)
      { p with metrics.originalAudioSamples
          := p.metrics.originalAudioSamples + p.input.samples.length } :=
    ⟨h.ok.margin, h.ok.emitted, h.ok.onset, rfl⟩
  have hok := recordTrimmed_ok hcounted p.input.samples.length
  obtain ⟨hinput, hcount⟩ := Prod.ext_iff.1 hok.kept
  exact ⟨⟨hok.margin, hok.emitted, hok.onset,
    Prod.ext hinput (congrArg (· + p.input.samples.length) hcount)⟩, recordTrimmed_view r o _ _⟩

/-- A discard drops the rest and what is held. -/
theorem discard_view (d : Detector δ κ) (h : p.Between r config) :
    let done := p.discardPending d
    done.Between r config ∧
      done.view r o = (p.view r o).discard d p.input.samples.length ∧
      done.input = {} ∧
      done.processedInputSamples = p.processedInputSamples + p.input.samples.length := by
  have hempty : r.read {} = [] := r.read_eq_nil.2 rfl
  have hemitted : (p.view r o).emitted = o := by
    show o ++ (p.emitBuffer.map r.read).flatten = o
    rw [h.drained, List.map_nil, List.flatten_nil, List.append_nil]
  obtain ⟨hok, hview⟩ := trimRest_view (o := o) h
  have htrimmed : (p.trimRest.recordTrimmedSamples p.trimRest.margin.samples.length).view r o
      = ((p.view r o).trimRest p.input.samples.length).trim
        ((p.view r o).trimRest p.input.samples.length).margin.length := by
    have hlen : (p.trimRest.view r o).margin.length = p.trimRest.margin.samples.length :=
      r.length_read _
    rw [recordTrimmed_view, ← hlen, hview]
  obtain ⟨hok', hview'⟩ := trimOnset_view (recordTrimmed_ok hok _) htrimmed
  refine ⟨⟨⟨r.held_empty, fun _ hmem => absurd hmem List.not_mem_nil,
    fun _ hmem => absurd hmem List.not_mem_nil, rfl⟩, rfl, r.held_empty,
    config.frameSamples_pos⟩, ?_, rfl, (Prod.ext_iff.1 hok'.kept).2⟩
  unfold Gate.discard
  simp only
  rw [← hview', hemitted]
  unfold discardPending view
  simp only [clearStreamState, hempty, List.map_nil, List.flatten_nil, List.append_nil]

end

end TTSVADProcessor

end StreamingTts.Gateway.Vad
