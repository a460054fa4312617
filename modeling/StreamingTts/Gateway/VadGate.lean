import StreamingTts.Gateway.Vad

/-!
# The detector on samples that carry their sources

A block of samples with its spans is a list of samples, each with the sources of the spans over it
(`label`). `Gate` is the processor on such lists, and the operations on it are those of the processor
without the arithmetic of the spans. `view` reads a processor as a gate, and every operation of the one is
the operation of the other (`processFrame_view`).
-/

namespace StreamingTts.Gateway.Vad

variable {ε : Type} {δ : Type} {κ : Type} {β : Type}

/-! ## Labels -/

/-- The sources of the spans over a sample. -/
def cover (spans : List (SampleProvenanceSpan ε)) (i : Int) : List (Source ε) :=
  (spans.filter fun span => span.sampleStart ≤ i ∧ i < span.sampleEnd).map (·.source)

/-- Samples with their sources, the first one at the offset `i` of the spans. -/
def labelFrom (spans : List (SampleProvenanceSpan ε)) : Nat → List Int16 →
    List (Int16 × List (Source ε))
  | _, [] => []
  | i, x :: xs => (x, cover spans i) :: labelFrom spans (i + 1) xs

/-- The samples of a block with their sources. -/
def AttributedSamples.label (a : AttributedSamples ε) : List (Int16 × List (Source ε)) :=
  labelFrom a.provenance 0 a.samples

/-- The spans lie inside `n` samples. -/
def InsideOf (n : Nat) (spans : List (SampleProvenanceSpan ε)) : Prop :=
  ∀ span ∈ spans, 0 ≤ span.sampleStart ∧ span.sampleEnd ≤ n

/-- The spans of a block lie inside it. -/
def AttributedSamples.Inside (a : AttributedSamples ε) : Prop := InsideOf a.samples.length a.provenance

section
variable {s t : List (SampleProvenanceSpan ε)} {xs ys : List Int16} {i j n : Nat}

@[simp] theorem length_labelFrom (s : List (SampleProvenanceSpan ε)) (i : Nat) (xs : List Int16) :
    (labelFrom s i xs).length = xs.length := by
  induction xs generalizing i with
  | nil => rfl
  | cons x xs ih => rw [labelFrom, List.length_cons, ih, List.length_cons]

@[simp] theorem length_label (a : AttributedSamples ε) : a.label.length = a.samples.length :=
  length_labelFrom _ _ _

theorem map_fst_labelFrom (s : List (SampleProvenanceSpan ε)) (i : Nat) (xs : List Int16) :
    (labelFrom s i xs).map Prod.fst = xs := by
  induction xs generalizing i with
  | nil => rfl
  | cons x xs ih => rw [labelFrom, List.map_cons, ih]

theorem labelFrom_append (s : List (SampleProvenanceSpan ε)) (i : Nat) (xs ys : List Int16) :
    labelFrom s i (xs ++ ys) = labelFrom s i xs ++ labelFrom s (i + xs.length) ys := by
  induction xs generalizing i with
  | nil => rfl
  | cons x xs ih =>
      rw [List.cons_append, labelFrom, labelFrom, ih, List.length_cons, List.cons_append,
        Nat.add_right_comm, Nat.add_assoc]

/-- Samples have the same labels where the spans cover them alike. -/
theorem labelFrom_congr
    (h : ∀ k : Nat, k < xs.length → cover s ((i + k : Nat) : Int) = cover t ((j + k : Nat) : Int)) :
    labelFrom s i xs = labelFrom t j xs := by
  induction xs generalizing i j with
  | nil => rfl
  | cons x xs ih =>
      have hhead := h 0 (Nat.succ_pos _)
      rw [Nat.add_zero, Nat.add_zero] at hhead
      rw [labelFrom, labelFrom, hhead]
      refine congrArg (_ :: ·) (ih fun k hk => ?_)
      have := h (k + 1) (Nat.succ_lt_succ hk)
      rwa [← Nat.add_assoc, ← Nat.add_assoc, Nat.add_right_comm i, Nat.add_right_comm j] at this

theorem drop_labelFrom (s : List (SampleProvenanceSpan ε)) (i n : Nat) (xs : List Int16) :
    (labelFrom s i xs).drop n = labelFrom s (i + n) (xs.drop n) := by
  induction n generalizing i xs with
  | zero => rfl
  | succ n ih =>
      cases xs with
      | nil => rfl
      | cons x xs =>
          rw [labelFrom, List.drop_succ_cons, List.drop_succ_cons, ih, Nat.add_assoc, Nat.add_comm 1]

theorem take_labelFrom (s : List (SampleProvenanceSpan ε)) (i n : Nat) (xs : List Int16) :
    (labelFrom s i xs).take n = labelFrom s i (xs.take n) := by
  induction n generalizing i xs with
  | zero => rfl
  | succ n ih =>
      cases xs with
      | nil => rfl
      | cons x xs => rw [labelFrom, List.take_succ_cons, List.take_succ_cons, labelFrom, ih]

/-! ### Spans -/

theorem cover_append (s t : List (SampleProvenanceSpan ε)) (i : Int) :
    cover (s ++ t) i = cover s i ++ cover t i := by
  unfold cover
  rw [List.filter_append, List.map_append]

theorem cover_cons_pos {span : SampleProvenanceSpan ε} {i : Int}
    (h : span.sampleStart ≤ i ∧ i < span.sampleEnd) :
    cover (span :: s) i = span.source :: cover s i := by
  unfold cover
  rw [List.filter_cons_of_pos (by simpa using h), List.map_cons]

theorem cover_cons_neg {span : SampleProvenanceSpan ε} {i : Int}
    (h : ¬ (span.sampleStart ≤ i ∧ i < span.sampleEnd)) : cover (span :: s) i = cover s i := by
  unfold cover
  rw [List.filter_cons_of_neg (by simpa using h)]

theorem clip_none {a b : Int} {span : SampleProvenanceSpan ε}
    (h : min b span.sampleEnd ≤ max a span.sampleStart) : clip a b span = none := if_pos h

theorem clip_some {a b : Int} {span : SampleProvenanceSpan ε}
    (h : ¬ min b span.sampleEnd ≤ max a span.sampleStart) :
    clip a b span = some { span with
      sampleStart := max a span.sampleStart - a, sampleEnd := min b span.sampleEnd - a } := if_neg h

/-- A slice covers what the spans cover there. -/
theorem cover_sliceSpans (s : List (SampleProvenanceSpan ε)) {a b k : Int} (hk : 0 ≤ k)
    (hb : a + k < b) : cover (sliceSpans s a b) k = cover s (a + k) := by
  unfold sliceSpans
  induction s with
  | nil => rfl
  | cons span s ih =>
      by_cases hcut : min b span.sampleEnd ≤ max a span.sampleStart
      · rw [List.filterMap_cons_none (clip_none hcut), ih, cover_cons_neg (by omega)]
      · rw [List.filterMap_cons_some (clip_some hcut)]
        by_cases hspan : span.sampleStart ≤ a + k ∧ a + k < span.sampleEnd
        · rw [cover_cons_pos (by constructor <;> simp only <;> omega), cover_cons_pos hspan, ih]
        · rw [cover_cons_neg (fun h => hspan (by simp only at h; omega)), cover_cons_neg hspan, ih]

/-- A shift covers behind the offset what the spans cover. -/
theorem cover_shiftSpans (s : List (SampleProvenanceSpan ε)) (n : Nat) {k : Int} (hk : 0 ≤ k) :
    cover (shiftSpans s n) (n + k) = cover s k := by
  induction s with
  | nil => rfl
  | cons span s ih =>
      unfold shiftSpans at ih ⊢
      by_cases hne : span.sampleStart < span.sampleEnd
      · rw [List.filter_cons_of_pos (by simpa using hne), List.map_cons]
        by_cases hspan : span.sampleStart ≤ k ∧ k < span.sampleEnd
        · rw [cover_cons_pos (by constructor <;> simp only <;> omega), cover_cons_pos hspan, ih]
        · rw [cover_cons_neg (fun h => hspan (by simp only at h; omega)), cover_cons_neg hspan, ih]
      · rw [List.filter_cons_of_neg (by simpa using hne), ih, cover_cons_neg (by omega)]

/-- Nothing is covered where no span is. -/
theorem cover_eq_nil {k : Int} (h : ∀ span ∈ s, k < span.sampleStart ∨ span.sampleEnd ≤ k) :
    cover s k = [] := by
  unfold cover
  rw [List.filter_eq_nil_iff.2 fun span hspan => ?_, List.map_nil]
  have := h span hspan
  simp only [decide_eq_true_eq]
  omega

theorem mem_shiftSpans {n : Nat} {span : SampleProvenanceSpan ε} (h : span ∈ shiftSpans s n)
    (hs : ∀ span ∈ s, 0 ≤ span.sampleStart) :
    ∃ span' ∈ s, span.sampleStart = span'.sampleStart + n ∧ span.sampleEnd = span'.sampleEnd + n := by
  obtain ⟨span', hspan', rfl⟩ := List.mem_map.1 h
  obtain ⟨hmem, hlt⟩ := List.mem_filter.1 hspan'
  have := hs span' hmem
  rw [decide_eq_true_eq] at hlt
  refine ⟨span', hmem, ?_, ?_⟩ <;> simp only <;> omega

/-- A shift of spans that begin at zero covers nothing before the offset. -/
theorem cover_shiftSpans_before (h : InsideOf n s) {m : Nat} {k : Int} (hk : k < m) :
    cover (shiftSpans s m) k = [] := by
  refine cover_eq_nil fun span hspan => ?_
  obtain ⟨span', hmem, hstart, -⟩ := mem_shiftSpans hspan fun span hs => (h span hs).1
  have := (h span' hmem).1
  omega

theorem cover_beyond (h : InsideOf n s) {k : Int} (hk : n ≤ k) : cover s k = [] := by
  refine cover_eq_nil fun span hspan => ?_
  have := (h span hspan).2
  omega

theorem sliceSpans_inside (s : List (SampleProvenanceSpan ε)) {a b : Int} (h : b - a ≤ n) :
    InsideOf n (sliceSpans s a b) := by
  intro span hspan
  obtain ⟨span', -, heq⟩ := List.mem_filterMap.1 hspan
  by_cases hcut : min b span'.sampleEnd ≤ max a span'.sampleStart
  · rw [clip_none hcut] at heq
    cases heq
  · rw [clip_some hcut] at heq
    cases heq
    simp only
    omega

theorem shiftSpans_inside {m : Nat} (h : InsideOf n s) : InsideOf (m + n) (shiftSpans s m) := by
  intro span hspan
  obtain ⟨span', hmem, hstart, hstop⟩ := mem_shiftSpans hspan fun span hs => (h span hs).1
  have := h span' hmem
  omega

theorem InsideOf.append {m : Nat} (hs : InsideOf n s) (ht : InsideOf m t) (hnm : n ≤ m) :
    InsideOf m (s ++ t) := by
  intro span hspan
  rcases List.mem_append.1 hspan with hmem | hmem
  · have := hs span hmem
    omega
  · exact ht span hmem

/-! ### Blocks -/

/-- A slice labels its samples as the spans do. -/
theorem labelFrom_sliceSpans (s : List (SampleProvenanceSpan ε)) {n : Nat} {stop : Int}
    (h : (n : Int) + xs.length ≤ stop) : labelFrom (sliceSpans s n stop) 0 xs = labelFrom s n xs := by
  refine labelFrom_congr fun k hk => ?_
  rw [Nat.zero_add, Int.natCast_add]
  exact cover_sliceSpans s (Int.natCast_nonneg k) (by omega)

theorem labelFrom_sliceSpans_zero (s : List (SampleProvenanceSpan ε)) {stop : Int}
    (h : xs.length ≤ stop) : labelFrom (sliceSpans s 0 stop) 0 xs = labelFrom s 0 xs := by
  refine labelFrom_congr fun k hk => ?_
  rw [Nat.zero_add, cover_sliceSpans s (Int.natCast_nonneg k) (by omega), Int.zero_add]

/-- Two blocks one behind the other. -/
theorem label_append {a b : AttributedSamples ε} (ha : a.Inside) (hb : b.Inside) :
    AttributedSamples.label ⟨a.samples ++ b.samples,
        a.provenance ++ shiftSpans b.provenance a.samples.length⟩ = a.label ++ b.label := by
  unfold AttributedSamples.label
  simp only
  rw [labelFrom_append, Nat.zero_add]
  congr 1
  · refine labelFrom_congr fun k hk => ?_
    rw [cover_append, cover_shiftSpans_before hb (by omega), List.append_nil]
  · refine labelFrom_congr fun k hk => ?_
    rw [cover_append, cover_beyond ha (by omega), List.nil_append, Int.natCast_add,
      cover_shiftSpans _ _ (Int.natCast_nonneg k), Nat.zero_add]

theorem cover_concatFrom_before {blocks : List (AttributedSamples ε)} (h : ∀ b ∈ blocks, b.Inside)
    {offset : Nat} {k : Int} (hk : k < offset) : cover (concatFrom offset blocks) k = [] := by
  induction blocks generalizing offset with
  | nil => rfl
  | cons b blocks ih =>
      obtain ⟨hb, hblocks⟩ := List.forall_mem_cons.1 h
      rw [concatFrom, cover_append, cover_shiftSpans_before hb hk, ih hblocks (by omega),
        List.append_nil]

theorem labelFrom_concatFrom {blocks : List (AttributedSamples ε)} (h : ∀ b ∈ blocks, b.Inside)
    {before : List (SampleProvenanceSpan ε)} {offset : Nat} (hbefore : InsideOf offset before) :
    labelFrom (before ++ concatFrom offset blocks) offset (blocks.map (·.samples)).flatten
      = (blocks.map AttributedSamples.label).flatten := by
  induction blocks generalizing before offset with
  | nil => rfl
  | cons b blocks ih =>
      obtain ⟨hb, hblocks⟩ := List.forall_mem_cons.1 h
      have hgrown : InsideOf (offset + b.samples.length) (before ++ shiftSpans b.provenance offset) :=
        hbefore.append (shiftSpans_inside hb) (Nat.le_add_right _ _)
      rw [concatFrom, ← List.append_assoc, List.map_cons, List.flatten_cons, labelFrom_append,
        ih hblocks hgrown, List.map_cons, List.flatten_cons]
      congr 1
      refine labelFrom_congr fun k hk => ?_
      rw [cover_append, cover_append, cover_beyond hbefore (by omega),
        cover_concatFrom_before hblocks (by omega), Int.natCast_add,
        cover_shiftSpans _ _ (Int.natCast_nonneg k), List.nil_append, List.append_nil, Nat.zero_add]

theorem label_concatSpans {blocks : List (AttributedSamples ε)} (h : ∀ b ∈ blocks, b.Inside) :
    (concatSpans blocks).label = (blocks.map AttributedSamples.label).flatten :=
  labelFrom_concatFrom h fun _ hspan => absurd hspan List.not_mem_nil

/-- The label of a frame that no span lies over is that no source is known. -/
def attributed (frame : List (Int16 × List (Source ε))) : List (Int16 × List (Source ε)) :=
  if frame.all (·.2.isEmpty) then frame.map fun x => (x.1, [{}]) else frame

/-- The spans of a slice: in it, and none of them empty. -/
def Tight (n : Nat) (s : List (SampleProvenanceSpan ε)) : Prop :=
  ∀ span ∈ s, 0 ≤ span.sampleStart ∧ span.sampleStart < span.sampleEnd ∧ span.sampleEnd ≤ n

theorem sliceSpans_tight (s : List (SampleProvenanceSpan ε)) {a b : Int} (h : b - a ≤ n) :
    Tight n (sliceSpans s a b) := by
  intro span hspan
  obtain ⟨span', -, heq⟩ := List.mem_filterMap.1 hspan
  by_cases hcut : min b span'.sampleEnd ≤ max a span'.sampleStart
  · rw [clip_none hcut] at heq
    cases heq
  · rw [clip_some hcut] at heq
    cases heq
    simp only
    omega

/-- A slice keeps a span that reaches into it. -/
theorem sliceSpans_cons_ne {a b : Int} {span : SampleProvenanceSpan ε}
    (h : ¬ min b span.sampleEnd ≤ max a span.sampleStart) : sliceSpans (span :: s) a b ≠ [] := by
  unfold sliceSpans
  rw [List.filterMap_cons_some (clip_some h)]
  exact List.cons_ne_nil _ _

theorem labelFrom_nil (i : Nat) (xs : List Int16) :
    labelFrom ([] : List (SampleProvenanceSpan ε)) i xs = xs.map fun x => (x, []) := by
  induction xs generalizing i with
  | nil => rfl
  | cons x xs ih => rw [labelFrom, ih, List.map_cons]; rfl

/-- Where a span lies over a frame, some sample has a source. -/
theorem not_all_isEmpty (h : Tight xs.length s) (hs : s ≠ []) :
    (labelFrom s 0 xs).all (·.2.isEmpty) = false := by
  obtain ⟨span, rest, rfl⟩ := List.exists_cons_of_ne_nil hs
  obtain ⟨hstart, hlt, hstop⟩ := h span List.mem_cons_self
  obtain ⟨k, hk⟩ := Int.eq_ofNat_of_zero_le hstart
  have hget : (labelFrom (span :: rest) 0 xs).drop k
      = labelFrom (span :: rest) k (xs.drop k) := by
    rw [drop_labelFrom, Nat.zero_add]
  obtain ⟨x, xs', hxs⟩ : ∃ x xs', xs.drop k = x :: xs' :=
    List.exists_cons_of_ne_nil (by simp; omega)
  rw [hxs, labelFrom, cover_cons_pos ⟨by omega, by omega⟩] at hget
  refine Bool.eq_false_iff.2 fun hall => ?_
  rw [List.all_eq_true] at hall
  have hmem : (x, span.source :: cover rest k) ∈ labelFrom (span :: rest) 0 xs := by
    refine List.drop_subset k _ ?_
    rw [hget]
    exact List.mem_cons_self
  exact absurd (hall _ hmem) (by simp)

/-- A frame is never moved without a span. -/
theorem sliceSpans_orUnattributed_ne {m : Nat} (h : Tight m s) (hpos : 0 < m) (hm : m ≤ n) :
    sliceSpans (orUnattributed s n) 0 m ≠ [] := by
  unfold orUnattributed
  cases s with
  | nil =>
      rw [if_pos rfl]
      exact sliceSpans_cons_ne (by simp only; omega)
  | cons span rest =>
      rw [if_neg (List.cons_ne_nil _ _)]
      obtain ⟨hstart, hlt, hstop⟩ := h span List.mem_cons_self
      exact sliceSpans_cons_ne (by omega)

/-- The spans a frame is processed with, as labels. -/
theorem label_orUnattributed (h : Tight xs.length s) (hn : xs.length ≤ n) :
    labelFrom (sliceSpans (orUnattributed s n) 0 xs.length) 0 xs = attributed (labelFrom s 0 xs) := by
  unfold attributed orUnattributed
  by_cases hs : s = []
  · subst hs
    have hall : (labelFrom ([] : List (SampleProvenanceSpan ε)) 0 xs).all (·.2.isEmpty) = true := by
      rw [labelFrom_nil, List.all_map]
      exact List.all_eq_true.2 fun _ _ => rfl
    rw [if_pos rfl, if_pos hall, labelFrom_nil, List.map_map]
    have hcover : ∀ (ys : List Int16) (i : Nat), i + ys.length ≤ n →
        labelFrom [({ sampleStart := 0, sampleEnd := n } : SampleProvenanceSpan ε)] i ys
          = ys.map fun y => (y, [{}]) := by
      intro ys
      induction ys with
      | nil => exact fun _ _ => rfl
      | cons y ys ih =>
          intro i hi
          rw [List.length_cons] at hi
          rw [labelFrom, ih (i + 1) (by omega), cover_cons_pos ⟨by simp, by simp only; omega⟩]
          rfl
    rw [labelFrom_sliceSpans_zero _ (Int.le_refl _), hcover xs 0 (by omega)]
    rfl
  · rw [if_neg hs, if_neg (by rw [not_all_isEmpty h hs]; decide),
      labelFrom_sliceSpans_zero _ (Int.le_refl _)]

end

/-! ## The gate -/

/-- The processor on samples that carry their labels, without its input buffer. -/
structure Gate (β δ : Type) where
  state : VADState := .silence
  metrics : VADMetrics := {}
  margin : List β := []
  emitted : List β := []
  onset : List (List β) := []
  beginCounter : Int := 0
  endCounter : Int := 0
  detector : δ

namespace Gate

variable (config : Config κ) (d : Detector δ κ) (g : Gate β δ)

/-- Samples are dropped. -/
def trim (n : Nat) : Gate β δ :=
  if g.metrics.firstEffectiveAudioFound then
    { g with metrics.tailTrimmedSamples := g.metrics.tailTrimmedSamples + n }
  else { g with metrics.prefixTrimmedSamples := g.metrics.prefixTrimmedSamples + n }

/-- A block goes into the lookback. -/
def retain (block : List β) : Gate β δ :=
  if block = [] then g
  else if config.marginSamples = 0 then g.trim block.length
  else
    let grown := g.margin ++ block
    if config.marginSamples < grown.length then
      { g with margin := grown.drop (grown.length - config.marginSamples) }.trim
        (grown.length - config.marginSamples)
    else { g with margin := grown }

/-- A block is emitted. -/
def emit (block : List β) : Gate β δ :=
  { g with
    emitted := g.emitted ++ block
    metrics.effectiveAudioSamples := g.metrics.effectiveAudioSamples + block.length }

/-- The lookback is emitted. -/
def emitMargin : Gate β δ :=
  if g.margin = [] then g else { g.emit g.margin with margin := [] }

/-- A block in silence. -/
def hear (reaches : Bool) (block : List β) : Gate β δ :=
  if reaches then { g with beginCounter := g.beginCounter + 1, onset := g.onset ++ [block] }
  else
    { g.onset.foldl (retain config) g with onset := [], beginCounter := 0 }.retain config block

/-- The onset is confirmed. -/
def beginSpeech : Gate β δ :=
  let started := { g with
    state := .speech
    endCounter := 0
    beginCounter := 0
    metrics.beginTriggerCount := g.metrics.beginTriggerCount + 1 }
  let opened := { started.emitMargin with metrics.firstEffectiveAudioFound := true }
  { opened.onset.foldl emit opened with onset := [] }

/-- The end is confirmed by a block. -/
def endSpeech (block : List β) : Gate β δ :=
  let ended := { g with
    state := .silence
    beginCounter := 0
    endCounter := 0
    metrics.endTriggerCount := g.metrics.endTriggerCount + 1 }
  { ended.trim block.length with margin := [] }

/-- A scored block in silence. -/
def listen (score : κ) (block : List β) : Gate β δ :=
  let heard := g.hear config (config.reachesBegin score) block
  if config.beginCount ≤ heard.beginCounter then heard.beginSpeech else heard

/-- A scored block in speech. -/
def follow (score : κ) (block : List β) : Gate β δ :=
  let counted := { g with endCounter := if config.belowEnd score then g.endCounter + 1 else 0 }
  if config.endCount ≤ counted.endCounter then counted.endSpeech block else counted.emit block

/-- A scored block. -/
def judge (score : κ) (block : List β) : Gate β δ :=
  match g.state with
  | .silence => g.listen config score block
  | .speech => g.follow config score block

/-- The samples of a block count as input. -/
def count (n : Nat) : Gate β δ :=
  { g with metrics.originalAudioSamples := g.metrics.originalAudioSamples + n }

/-- A frame: what is scored, and the block that is moved. -/
def frame (scored : List Int16) (block : List β) : Gate β δ :=
  let (score, detector) := d.scoreFrame g.detector scored
  { g.count block.length with detector := detector }.judge config score block

/-- What is held in silence is trimmed. -/
def trimHeld : Gate β δ :=
  let trimmed := { g.trim g.margin.length with margin := [] }
  { trimmed.onset.foldl (fun g block => g.trim block.length) trimmed with onset := [] }

/-- What is held when the stream ends. -/
def settle : Gate β δ :=
  match g.state with
  | .silence => g.trimHeld
  | .speech => g.emitMargin

end Gate

/-! ## Readings -/

/-- A way to read blocks as lists, for which the operations on blocks are those on lists. Of a block that
a buffer may hold it says `Held`, of one that a frame brings `Moved`. -/
structure Reading (ε β : Type) where
  read : AttributedSamples ε → List β
  sample : β → Int16
  /-- what a frame brings, as `_process_frame` attributes it -/
  bring : List β → List β
  Held : AttributedSamples ε → Prop
  Moved : AttributedSamples ε → Prop
  map_sample : ∀ a, (read a).map sample = a.samples
  held_empty : Held {}
  join : ∀ {a b : AttributedSamples ε}, Held a → Held b →
    Held ⟨a.samples ++ b.samples, a.provenance ++ shiftSpans b.provenance a.samples.length⟩ ∧
      read ⟨a.samples ++ b.samples, a.provenance ++ shiftSpans b.provenance a.samples.length⟩
        = read a ++ read b
  concat : ∀ {blocks : List (AttributedSamples ε)}, (∀ b ∈ blocks, Held b) →
    read (concatSpans blocks) = (blocks.map read).flatten
  slice : ∀ (a : AttributedSamples ε) (i : Nat) {xs : List Int16}, xs <+: a.samples.drop i →
    Held ⟨xs, sliceSpans a.provenance i (i + xs.length)⟩ ∧
      read ⟨xs, sliceSpans a.provenance i (i + xs.length)⟩ = ((read a).drop i).take xs.length
  known : ∀ {a : AttributedSamples ε}, Moved a →
    Held a ∧ Held ⟨a.samples, orUnattributed a.provenance a.samples.length⟩ ∧
      read ⟨a.samples, orUnattributed a.provenance a.samples.length⟩ = read a
  moved : ∀ {spans : List (SampleProvenanceSpan ε)} {xs : List Int16} {n : Nat}, xs ≠ [] →
    xs.length ≤ n → Tight xs.length spans →
      Moved ⟨xs, sliceSpans (orUnattributed spans n) 0 xs.length⟩ ∧
        read ⟨xs, sliceSpans (orUnattributed spans n) 0 xs.length⟩ = bring (read ⟨xs, spans⟩)

/-- The samples alone. -/
def bare : Reading ε Int16 where
  read a := a.samples
  sample x := x
  bring xs := xs
  Held _ := True
  Moved _ := True
  map_sample _ := List.map_id' _
  held_empty := trivial
  join _ _ := ⟨trivial, rfl⟩
  concat _ := rfl
  slice _ _ _ h := ⟨trivial, List.prefix_iff_eq_take.1 h⟩
  known _ := ⟨trivial, trivial, rfl⟩
  moved _ _ _ := ⟨trivial, rfl⟩

/-- The samples with their sources: the spans of a block lie inside it, and one that is moved has some. -/
def labelled : Reading ε (Int16 × List (Source ε)) where
  read := AttributedSamples.label
  sample := Prod.fst
  bring := attributed
  Held := AttributedSamples.Inside
  Moved a := a.Inside ∧ a.provenance ≠ []
  map_sample _ := map_fst_labelFrom _ _ _
  held_empty := fun _ h => absurd h List.not_mem_nil
  join := fun {a b} ha hb => by
    refine ⟨InsideOf.append ha ?_ (by simp), label_append ha hb⟩
    rw [List.length_append]
    exact shiftSpans_inside hb
  concat h := label_concatSpans h
  slice := fun a i {xs} h => by
    refine ⟨sliceSpans_inside _ (by simp only; omega), ?_⟩
    unfold AttributedSamples.label
    simp only
    rw [labelFrom_sliceSpans _ (Int.le_refl _), drop_labelFrom, take_labelFrom, Nat.zero_add,
      ← List.prefix_iff_eq_take.1 h]
  known := fun {a} h => by
    have hspans : orUnattributed a.provenance a.samples.length = a.provenance := if_neg h.2
    rw [hspans]
    exact ⟨h.1, h.1, rfl⟩
  moved := fun {spans xs n} hxs hn hspans =>
    ⟨⟨sliceSpans_inside _ (by simp), sliceSpans_orUnattributed_ne hspans (List.length_pos_iff.2 hxs) hn⟩,
      label_orUnattributed hspans hn⟩

namespace Reading

variable (r : Reading ε β) {a : AttributedSamples ε}

@[simp] theorem length_read (a : AttributedSamples ε) : (r.read a).length = a.samples.length := by
  rw [← r.map_sample a, List.length_map]

theorem read_eq_nil : r.read a = [] ↔ a.samples = [] := by
  rw [← List.length_eq_zero_iff, length_read, List.length_eq_zero_iff]

/-- What is left of a block behind its first samples. -/
theorem drop (a : AttributedSamples ε) (i : Nat) :
    r.Held ⟨a.samples.drop i, sliceSpans a.provenance i (i + (a.samples.drop i).length)⟩ ∧
      r.read ⟨a.samples.drop i, sliceSpans a.provenance i (i + (a.samples.drop i).length)⟩
        = (r.read a).drop i := by
  obtain ⟨hheld, hread⟩ := r.slice a i (List.prefix_refl _)
  refine ⟨hheld, hread.trans (List.take_of_length_le (Nat.le_of_eq ?_))⟩
  rw [List.length_drop, List.length_drop, length_read]

/-- The first samples of a block. -/
theorem front (a : AttributedSamples ε) {n : Nat} (h : n ≤ a.samples.length) :
    r.Held ⟨a.samples.take n, sliceSpans a.provenance 0 n⟩ ∧
      r.read ⟨a.samples.take n, sliceSpans a.provenance 0 n⟩ = (r.read a).take n := by
  obtain ⟨hheld, hread⟩ := r.slice a 0 (List.take_prefix n _)
  have hlen : (a.samples.take n).length = n := by rw [List.length_take, Nat.min_eq_left h]
  rw [List.drop_zero, hlen, List.drop_zero, Int.natCast_zero, Int.zero_add] at hread
  rw [List.drop_zero, hlen, Int.natCast_zero, Int.zero_add] at hheld
  exact ⟨hheld, hread⟩

/-- A block with the spans over it. -/
theorem whole (a : AttributedSamples ε) :
    r.Held ⟨a.samples, sliceSpans a.provenance 0 a.samples.length⟩ ∧
      r.read ⟨a.samples, sliceSpans a.provenance 0 a.samples.length⟩ = r.read a := by
  obtain ⟨hheld, hread⟩ := r.front a (Nat.le_refl _)
  rw [List.take_length] at hheld hread
  exact ⟨hheld, hread.trans (List.take_of_length_le (Nat.le_of_eq (r.length_read a)))⟩

end Reading

/-! ## The processor is a gate -/

namespace TTSVADProcessor

/-- The buffers hold what a reading allows, and the input is `k`: no frame touches it. -/
structure Ok (r : Reading ε β) (k : AttributedSamples ε × Nat) (p : TTSVADProcessor ε δ) :
    Prop where
  margin : r.Held p.margin
  emitted : ∀ block ∈ p.emitBuffer, r.Held block
  onset : ∀ block ∈ p.beginBuffer, r.Moved block
  kept : (p.input, p.processedInputSamples) = k

/-- A processor as a gate, behind what was returned. -/
def view (r : Reading ε β) (o : List β) (p : TTSVADProcessor ε δ) : Gate β δ where
  state := p.state
  metrics := p.metrics
  margin := r.read p.margin
  emitted := o ++ (p.emitBuffer.map r.read).flatten
  onset := p.beginBuffer.map r.read
  beginCounter := p.beginCounter
  endCounter := p.endCounter
  detector := p.detector

section
variable {r : Reading ε β} {k : AttributedSamples ε × Nat} {o : List β} {config : Config κ} {d : Detector δ κ}
  {p : TTSVADProcessor ε δ} {block : AttributedSamples ε}

theorem recordTrimmed_ok (h : p.Ok r k) (n : Nat) : (p.recordTrimmedSamples n).Ok r k := by
  unfold recordTrimmedSamples
  split <;> exact ⟨h.margin, h.emitted, h.onset, h.kept⟩

theorem recordTrimmed_view (r : Reading ε β) (o : List β) (p : TTSVADProcessor ε δ) (n : Nat) :
    (p.recordTrimmedSamples n).view r o = (p.view r o).trim n := by
  unfold recordTrimmedSamples Gate.trim view
  split <;> rfl

/-- The lookback with its limit. -/
theorem updateMargin_view (config : Config κ) (h : p.Ok r k) (hb : r.Moved block) :
    (p.updateMarginBuffer config block).Ok r k ∧
      (p.updateMarginBuffer config block).view r o
        = (p.view r o).retain config (r.read block) := by
  obtain ⟨-, hspans, hread⟩ := r.known hb
  obtain ⟨hgrown, hjoin⟩ := r.join h.margin hspans
  rw [hread] at hjoin
  unfold updateMarginBuffer Gate.retain
  by_cases hnil : block.samples = []
  · rw [if_pos hnil, if_pos (r.read_eq_nil.2 hnil)]
    exact ⟨h, rfl⟩
  rw [if_neg hnil, if_neg (mt r.read_eq_nil.1 hnil)]
  by_cases hmargin : config.marginSamples = 0
  · rw [if_pos hmargin, if_pos hmargin, r.length_read]
    exact ⟨recordTrimmed_ok h _, recordTrimmed_view r o p _⟩
  rw [if_neg hmargin, if_neg hmargin]
  have hlen : ((p.view r o).margin ++ r.read block).length
      = (p.margin.samples ++ block.samples).length := by
    rw [List.length_append, List.length_append, r.length_read]
    exact congrArg (· + _) (r.length_read p.margin)
  have hkeep : ∀ margin : AttributedSamples ε, r.Held margin →
      TTSVADProcessor.Ok r k { p with margin := margin } := fun _ hm => ⟨hm, h.emitted, h.onset, h.kept⟩
  have hview : ∀ (margin : AttributedSamples ε) (l : List β), r.read margin = l →
      view r o { p with margin := margin } = { p.view r o with margin := l } := by
    rintro margin _ rfl
    rfl
  simp only
  rw [hlen]
  split
  · obtain ⟨hheld, hcut⟩ := r.drop ⟨p.margin.samples ++ block.samples, p.margin.provenance
      ++ shiftSpans (orUnattributed block.provenance block.samples.length) p.margin.samples.length⟩
      ((p.margin.samples ++ block.samples).length - config.marginSamples)
    refine ⟨recordTrimmed_ok (hkeep _ hheld) _, (recordTrimmed_view r o _ _).trans ?_⟩
    rw [hview _ _ (hcut.trans (congrArg _ hjoin))]
    rfl
  · exact ⟨hkeep _ hgrown, hview _ _ hjoin⟩

/-- A processor whose lookback is emptied. -/
theorem view_cleared (r : Reading ε β) (o : List β) (p : TTSVADProcessor ε δ) :
    view r o { p with margin := {} } = { p.view r o with margin := [] } := by
  have hempty : r.read {} = [] := r.read_eq_nil.2 rfl
  unfold view
  rw [hempty]

theorem emit_view (h : p.Ok r k) (hb : r.Held block) :
    (p.emit block).Ok r k ∧ (p.emit block).view r o = (p.view r o).emit (r.read block) := by
  refine ⟨⟨h.margin, ?_, h.onset, h.kept⟩, ?_⟩
  · intro b hmem
    rcases List.mem_append.1 hmem with hmem | hmem
    · exact h.emitted b hmem
    · rwa [List.mem_singleton.1 hmem]
  · unfold emit Gate.emit view
    simp only [List.map_append, List.map_singleton, List.flatten_append, List.flatten_singleton,
      List.append_assoc, r.length_read]

theorem emitMargin_view (h : p.Ok r k) :
    p.emitMargin.Ok r k ∧ p.emitMargin.view r o = (p.view r o).emitMargin := by
  unfold emitMargin Gate.emitMargin
  have hnil : (p.view r o).margin = [] ↔ p.margin.samples = [] := r.read_eq_nil
  by_cases hmargin : p.margin.samples = []
  · rw [if_pos hmargin, if_pos (hnil.2 hmargin)]
    exact ⟨h, rfl⟩
  · rw [if_neg hmargin, if_neg (mt hnil.1 hmargin)]
    obtain ⟨hok, hview⟩ := emit_view (o := o) h h.margin
    refine ⟨⟨r.held_empty, hok.emitted, hok.onset, hok.kept⟩, ?_⟩
    exact (view_cleared r o _).trans
      (congrArg (fun g : Gate β δ => { g with margin := [] }) hview)

/-- A loop over blocks is one over what is read of them, if a turn is. -/
theorem foldl_view {f : TTSVADProcessor ε δ → AttributedSamples ε → TTSVADProcessor ε δ}
    {t : Gate β δ → List β → Gate β δ}
    (hf : ∀ p block, p.Ok r k → r.Moved block →
      (f p block).Ok r k ∧ (f p block).view r o = t (p.view r o) (r.read block))
    {blocks : List (AttributedSamples ε)} (h : p.Ok r k) (hb : ∀ block ∈ blocks, r.Moved block) :
    (blocks.foldl f p).Ok r k ∧
      (blocks.foldl f p).view r o = (blocks.map r.read).foldl t (p.view r o) := by
  induction blocks generalizing p with
  | nil => exact ⟨h, rfl⟩
  | cons block blocks ih =>
      obtain ⟨hblock, hblocks⟩ := List.forall_mem_cons.1 hb
      obtain ⟨hok, hview⟩ := hf p block h hblock
      rw [List.foldl_cons, List.map_cons, List.foldl_cons, ← hview]
      exact ih hok hblocks

theorem hear_view (config : Config κ) (h : p.Ok r k) (hb : r.Moved block) (reaches : Bool) :
    (p.hear config reaches block).Ok r k ∧
      (p.hear config reaches block).view r o
        = (p.view r o).hear config reaches (r.read block) := by
  unfold hear Gate.hear
  cases reaches with
  | true =>
      refine ⟨⟨h.margin, h.emitted, ?_, h.kept⟩, ?_⟩
      · intro b hmem
        rcases List.mem_append.1 hmem with hmem | hmem
        · exact h.onset b hmem
        · rwa [List.mem_singleton.1 hmem]
      · simp only [if_true]
        unfold view
        simp only [List.map_append, List.map_singleton]
  | false =>
      simp only [Bool.false_eq_true, if_false]
      have hturn : ∀ (p : TTSVADProcessor ε δ) (block : AttributedSamples ε), p.Ok r k →
          r.Moved block → (p.updateMarginBuffer config block).Ok r k ∧
            (p.updateMarginBuffer config block).view r o
              = (p.view r o).retain config (r.read block) :=
        fun p block hp hblock => updateMargin_view config hp hblock
      obtain ⟨hok, hview⟩ := foldl_view hturn h h.onset
      have hcleared : TTSVADProcessor.Ok r k { p.beginBuffer.foldl (updateMarginBuffer config) p with
          beginBuffer := [], beginCounter := 0 } :=
        ⟨hok.margin, hok.emitted, fun _ hmem => absurd hmem List.not_mem_nil, hok.kept⟩
      obtain ⟨hok', hview'⟩ := updateMargin_view (o := o) config hcleared hb
      refine ⟨hok', hview'.trans ?_⟩
      have := congrArg (fun g : Gate β δ => { g with onset := [], beginCounter := 0 }) hview
      exact congrArg (fun g : Gate β δ => g.retain config (r.read block)) this

theorem beginSpeech_view (h : p.Ok r k) :
    p.beginSpeech.Ok r k ∧ p.beginSpeech.view r o = (p.view r o).beginSpeech := by
  have hstarted : TTSVADProcessor.Ok r k { p with
      state := .speech, endCounter := 0, beginCounter := 0
      metrics.beginTriggerCount := p.metrics.beginTriggerCount + 1 } :=
    ⟨h.margin, h.emitted, h.onset, h.kept⟩
  obtain ⟨hok, hview⟩ := emitMargin_view (o := o) hstarted
  have hturn : ∀ (p : TTSVADProcessor ε δ) (block : AttributedSamples ε), p.Ok r k →
      r.Moved block →
        (p.emit block).Ok r k ∧ (p.emit block).view r o = (p.view r o).emit (r.read block) :=
    fun p block hp hblock => emit_view hp (r.known hblock).1
  -- the flag is no field that the loop reads
  have hopen : ∀ (q : TTSVADProcessor ε δ) (g : Gate β δ), q.Ok r k → q.view r o = g →
      let opened := { q with metrics.firstEffectiveAudioFound := true }
      let opened' := { g with metrics.firstEffectiveAudioFound := true }
      TTSVADProcessor.Ok r k { opened.beginBuffer.foldl emit opened with beginBuffer := [] } ∧
        view r o { opened.beginBuffer.foldl emit opened with beginBuffer := [] }
          = { opened'.onset.foldl Gate.emit opened' with onset := [] } := by
    rintro q _ hq rfl
    have hopened : TTSVADProcessor.Ok r k { q with metrics.firstEffectiveAudioFound := true } :=
      ⟨hq.margin, hq.emitted, hq.onset, hq.kept⟩
    obtain ⟨hok', hview'⟩ := foldl_view hturn hopened hopened.onset
    refine ⟨⟨hok'.margin, hok'.emitted, fun _ hmem => absurd hmem List.not_mem_nil,
      hok'.kept⟩, ?_⟩
    exact congrArg (fun g : Gate β δ => { g with onset := [] }) hview'
  exact hopen _ _ hok hview

theorem endSpeech_view (h : p.Ok r k) :
    (p.endSpeech block).Ok r k ∧
      (p.endSpeech block).view r o = (p.view r o).endSpeech (r.read block) := by
  have hended : ∀ q : TTSVADProcessor ε δ, q.Ok r k →
      TTSVADProcessor.Ok r k { q.recordTrimmedSamples block.samples.length with margin := {} } ∧
        view r o { q.recordTrimmedSamples block.samples.length with margin := {} }
          = { (q.view r o).trim (r.read block).length with margin := [] } := by
    intro q hq
    have hok := recordTrimmed_ok hq block.samples.length
    refine ⟨⟨r.held_empty, hok.emitted, hok.onset, hok.kept⟩, ?_⟩
    rw [r.length_read, ← recordTrimmed_view]
    exact view_cleared r o _
  exact hended _ ⟨h.margin, h.emitted, h.onset, h.kept⟩

theorem listen_view (config : Config κ) (h : p.Ok r k) (hb : r.Moved block) (score : κ) :
    (p.listen config score block).Ok r k ∧
      (p.listen config score block).view r o
        = (p.view r o).listen config score (r.read block) := by
  obtain ⟨hok, hview⟩ := hear_view (o := o) config h hb (config.reachesBegin score)
  unfold listen Gate.listen
  simp only
  rw [← hview]
  have hcounter : ((p.hear config (config.reachesBegin score) block).view r o).beginCounter
    = (p.hear config (config.reachesBegin score) block).beginCounter := rfl
  rw [hcounter]
  split
  · exact beginSpeech_view hok
  · exact ⟨hok, rfl⟩

theorem follow_view (config : Config κ) (h : p.Ok r k) (hb : r.Moved block) (score : κ) :
    (p.follow config score block).Ok r k ∧
      (p.follow config score block).view r o
        = (p.view r o).follow config score (r.read block) := by
  have hcounted : ∀ counter : Int, TTSVADProcessor.Ok r k { p with endCounter := counter } :=
    fun _ => ⟨h.margin, h.emitted, h.onset, h.kept⟩
  have hturn : ∀ counter : Int,
      (if config.endCount ≤ counter then endSpeech { p with endCounter := counter } block
        else emit { p with endCounter := counter } block).Ok r k ∧
      view r o (if config.endCount ≤ counter then endSpeech { p with endCounter := counter } block
        else emit { p with endCounter := counter } block)
        = if config.endCount ≤ counter then
            Gate.endSpeech { p.view r o with endCounter := counter } (r.read block)
          else Gate.emit { p.view r o with endCounter := counter } (r.read block) := by
    intro counter
    by_cases hend : config.endCount ≤ counter
    · rw [if_pos hend, if_pos hend]
      exact endSpeech_view (hcounted counter)
    · rw [if_neg hend, if_neg hend]
      exact emit_view (hcounted counter) (r.known hb).1
  exact hturn _

theorem judge_view (config : Config κ) (h : p.Ok r k) (hb : r.Moved block) (score : κ) :
    (p.judge config score block).Ok r k ∧
      (p.judge config score block).view r o
        = (p.view r o).judge config score (r.read block) := by
  unfold judge Gate.judge
  have hstate : (p.view r o).state = p.state := rfl
  rw [hstate]
  cases p.state with
  | silence => exact listen_view config h hb score
  | speech => exact follow_view config h hb score

/-- The candidates of an onset are trimmed. -/
theorem trimOnset_view (h : p.Ok r k) {g : Gate β δ} (hg : p.view r o = g) :
    (p.beginBuffer.foldl (fun p block => p.recordTrimmedSamples block.samples.length) p).Ok r k ∧
      view r o (p.beginBuffer.foldl (fun p block => p.recordTrimmedSamples block.samples.length) p)
        = g.onset.foldl (fun g block => g.trim block.length) g := by
  subst hg
  have hturn : ∀ (p : TTSVADProcessor ε δ) (block : AttributedSamples ε), p.Ok r k →
      r.Moved block → (p.recordTrimmedSamples block.samples.length).Ok r k ∧
        (p.recordTrimmedSamples block.samples.length).view r o
          = (p.view r o).trim (r.read block).length := by
    intro p block hp _
    rw [r.length_read]
    exact ⟨recordTrimmed_ok hp _, recordTrimmed_view r o p _⟩
  exact @foldl_view ε δ β r k o p (fun p block => p.recordTrimmedSamples block.samples.length)
    (fun g block => g.trim block.length) hturn _ h h.onset

theorem trimHeld_view (h : p.Ok r k) :
    p.trimHeld.Ok r k ∧ p.trimHeld.view r o = (p.view r o).trimHeld := by
  have hok := recordTrimmed_ok h p.margin.samples.length
  have htrimmed : TTSVADProcessor.Ok r k
      { p.recordTrimmedSamples p.margin.samples.length with margin := {} } :=
    ⟨r.held_empty, hok.emitted, hok.onset, hok.kept⟩
  have hview : view r o { p.recordTrimmedSamples p.margin.samples.length with margin := {} }
      = { (p.view r o).trim (p.view r o).margin.length with margin := [] } := by
    have hlen : (p.view r o).margin.length = p.margin.samples.length := r.length_read _
    rw [hlen, ← recordTrimmed_view]
    exact view_cleared r o _
  obtain ⟨hok', hview'⟩ := trimOnset_view htrimmed hview
  refine ⟨⟨hok'.margin, hok'.emitted, fun _ hmem => absurd hmem List.not_mem_nil, hok'.kept⟩, ?_⟩
  exact congrArg (fun g : Gate β δ => { g with onset := [] }) hview'

theorem settle_view (h : p.Ok r k) :
    p.settle.Ok r k ∧ p.settle.view r o = (p.view r o).settle := by
  unfold settle Gate.settle
  have hstate : (p.view r o).state = p.state := rfl
  rw [hstate]
  cases p.state with
  | silence => exact trimHeld_view h
  | speech => exact emitMargin_view h

/-- A frame of the processor is one of the gate. -/
theorem processFrame_view (config : Config κ) (d : Detector δ κ) (h : p.Ok r k)
    (scored : List Int16) (n : Nat) {spans : List (SampleProvenanceSpan ε)} (hn : n ≤ scored.length) (hpos : 0 < n)
    (hspans : Tight n spans) :
    let counted : TTSVADProcessor ε δ := { p with
      metrics.originalAudioSamples := p.metrics.originalAudioSamples + n }
    (counted.processFrame config d scored n spans).Ok r k ∧
      (counted.processFrame config d scored n spans).view r o
        = (p.view r o).frame config d scored (r.bring (r.read ⟨scored.take n, spans⟩)) := by
  have hlen : (scored.take n).length = n := by rw [List.length_take, Nat.min_eq_left hn]
  obtain ⟨hmoved, hread⟩ := @Reading.moved ε β r spans (scored.take n) scored.length
    (List.ne_nil_of_length_pos (by omega)) (by omega) (hlen.symm ▸ hspans)
  have hbrought : (r.bring (r.read ⟨scored.take n, spans⟩)).length = n := by
    rw [← hread, r.length_read, hlen]
  unfold processFrame Gate.frame
  simp only
  rw [hbrought, ← hread]
  have hok : TTSVADProcessor.Ok r k { p with
      metrics.originalAudioSamples := p.metrics.originalAudioSamples + n
      detector := (d.scoreFrame p.detector scored).2 } := ⟨h.margin, h.emitted, h.onset, h.kept⟩
  exact judge_view config hok hmoved (d.scoreFrame p.detector scored).1

end

end TTSVADProcessor

end StreamingTts.Gateway.Vad
