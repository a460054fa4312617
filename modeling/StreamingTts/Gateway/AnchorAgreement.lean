import Mathlib.Data.List.Pairwise
import StreamingTts.Client.PlaybackTracker

/-!
# The client accepts the server's anchors

The processor clamps every anchor behind the last one, so that all of them stand in one order: the
sequence numbers, the samples and the two text ranges grow together. `Agree` is this order between the
processor's high-water marks (`Frontier`) and the anchors the client has. What is left is the last check
of the client, that an anchor ends within the samples it has received. A candidate is capped at the
delivered samples and a final of a running session waits for them; only `finish` releases finals at
their own target, and `anchors_accepted` says that this target is the whole question.
-/

namespace StreamingTts.Gateway.Output

open Lib
open Client.Playback (TextProgressAnchor PlaybackProgressTracker TrackerError)
open Client.Playback.PlaybackProgressTracker (observe observeAll accepts malformed backwards
  validateMonotonic seqLe sampleLe)

/-! ## The order of the anchors -/

/-- An anchor that is behind another one in every coordinate. -/
structure Before (a b : TextProgressAnchor) : Prop where
  seq : a.anchorSeq < b.anchorSeq
  sampleStart : a.outputSampleStart ≤ b.outputSampleStart
  sampleEnd : a.outputSampleEnd ≤ b.outputSampleEnd
  rawStart : a.rawStart ≤ b.rawStart
  rawEnd : a.rawEnd ≤ b.rawEnd
  normalizedStart : a.normalizedStart ≤ b.normalizedStart
  normalizedEnd : a.normalizedEnd ≤ b.normalizedEnd

theorem Before.backwards {a b : TextProgressAnchor} (h : Before a b) : backwards a b = none := by
  have h₁ := h.sampleStart
  have h₂ := h.sampleEnd
  have h₃ := h.rawStart
  have h₄ := h.rawEnd
  have h₅ := h.normalizedStart
  have h₆ := h.normalizedEnd
  simp only [PlaybackProgressTracker.backwards, Int.not_lt.2 h₁, Int.not_lt.2 h₂, Int.not_lt.2 h₃,
    Int.not_lt.2 h₄, Int.not_lt.2 h₅, Int.not_lt.2 h₆, if_false]

theorem Before.seqLe {a b : TextProgressAnchor} (h : Before a b) : seqLe a b = true := by
  have := h.seq
  simp only [PlaybackProgressTracker.seqLe, decide_eq_true_eq]
  omega

theorem Before.sampleLe {a b : TextProgressAnchor} (h : Before a b) : sampleLe a b = true := by
  have h₁ := h.sampleStart
  have h₂ := h.sampleEnd
  have h₃ := h.seq
  simp only [PlaybackProgressTracker.sampleLe, Bool.or_eq_true, Bool.and_eq_true,
    decide_eq_true_eq]
  omega

/-- Anchors in one order pass the check of the neighbours. -/
theorem validateMonotonic_of_pairwise {anchors : List TextProgressAnchor}
    (h : anchors.Pairwise Before) : validateMonotonic anchors = .ok () := by
  induction anchors with
  | nil => rfl
  | cons a anchors ih =>
      cases anchors with
      | nil => rfl
      | cons b anchors =>
          obtain ⟨hfirst, hrest⟩ := List.pairwise_cons.1 h
          rw [validateMonotonic, (hfirst b List.mem_cons_self).backwards]
          exact ih hrest

/-! ## What the two sides agree on -/

/-- The high-water marks of a processor: the next sequence number, the ends of the last anchor, and the
samples it has delivered. -/
structure Frontier where
  nextSeq : Int
  lastEnd : Int
  lastRaw : Int
  lastNormalized : Int
  cursor : Nat

/-- The high-water marks of a processor. -/
def Processor.frontier (s : Processor) : Frontier :=
  ⟨s.nextAnchorSeq, s.lastAnchorOutputEnd, s.lastAnchorRawEnd, s.lastAnchorNormalizedEnd,
    s.outputSampleCursor⟩

/-- An anchor that ends at or before the marks. -/
structure Frontier.Covers (f : Frontier) (a : TextProgressAnchor) : Prop where
  seq : a.anchorSeq < f.nextSeq
  sampleStart : a.outputSampleStart ≤ f.lastEnd
  sampleEnd : a.outputSampleEnd ≤ f.lastEnd
  rawStart : a.rawStart ≤ f.lastRaw
  rawEnd : a.rawEnd ≤ f.lastRaw
  normalizedStart : a.normalizedStart ≤ f.lastNormalized
  normalizedEnd : a.normalizedEnd ≤ f.lastNormalized

/-- The client has received the samples that were delivered, and its anchors are those released so far
(`past`), behind the marks and in one order. -/
structure Agree (rate : Nat) (past : List Anchor) (f : Frontier) (t : PlaybackProgressTracker) :
    Prop where
  received : t.receivedSample = f.cursor
  rate : ∀ known, t.outputSampleRate = some known → known = rate
  nextSeq_pos : 0 < f.nextSeq
  lastEnd_nonneg : 0 ≤ f.lastEnd
  lastEnd_le : f.lastEnd ≤ f.cursor
  lastRaw_nonneg : 0 ≤ f.lastRaw
  lastNormalized_nonneg : 0 ≤ f.lastNormalized
  keys : ∀ seq a, t.anchors.get? seq = some a → a.anchorSeq = seq
  values : past.map TextProgressAnchor.fromMeta = t.anchors.values.map .ok
  covers : ∀ a ∈ t.anchors.values, f.Covers a
  ordered : t.anchors.values.Pairwise Before

variable {rate : Nat} {past : List Anchor} {f : Frontier} {t : PlaybackProgressTracker}

theorem agree_init (rate : Nat) : Agree rate [] ({} : Processor).frontier {} where
  received := rfl
  rate := fun _ h => nomatch h
  nextSeq_pos := by decide
  lastEnd_nonneg := by decide
  lastEnd_le := by decide
  lastRaw_nonneg := by decide
  lastNormalized_nonneg := by decide
  keys := fun _ _ h => nomatch h
  values := rfl
  covers := fun _ h => nomatch h
  ordered := List.Pairwise.nil

/-- The rate of a session never changes. -/
theorem Agree.rememberSampleRate (h : Agree rate past f t) (error : String → TrackerError) :
    t.rememberSampleRate rate error = .ok { t with outputSampleRate := some (rate : Int) } := by
  unfold PlaybackProgressTracker.rememberSampleRate
  cases hknown : t.outputSampleRate with
  | none => rfl
  | some known =>
      have hsame := h.rate known hknown
      subst hsame
      simp only [ne_eq, not_true_eq_false, if_false]
      rw [← hknown]

/-- The audio that was delivered next is accepted. -/
theorem Agree.observeAudio (h : Agree rate past f t) (hrate : 0 < rate) {stop : Nat}
    (hstop : f.cursor ≤ stop) :
    ∃ t', t.observeAudio f.cursor stop rate = .ok t' ∧ Agree rate past { f with cursor := stop } t' := by
  have hrange : ¬ ((f.cursor : Int) < 0 ∨ (stop : Int) < f.cursor
      ∨ (f.cursor : Int) < t.receivedSample) := by
    rw [h.received]
    omega
  have hpos : (0 : Int) < rate := by omega
  refine ⟨{ t with
      outputSampleRate := some (rate : Int)
      receivedSample := max t.receivedSample stop }, ?_, ?_⟩
  · unfold PlaybackProgressTracker.observeAudio
    rw [if_neg hrange, if_pos hpos, h.rememberSampleRate]
    rfl
  · have hle := h.lastEnd_le
    exact { h with
      received := by
        change max t.receivedSample (stop : Int) = stop
        rw [h.received]
        omega
      rate := fun known hknown => (Option.some.inj hknown).symm
      lastEnd_le := by
        change f.lastEnd ≤ (stop : Int)
        omega
      covers := fun a ha => ⟨(h.covers a ha).1, (h.covers a ha).2, (h.covers a ha).3,
        (h.covers a ha).4, (h.covers a ha).5, (h.covers a ha).6, (h.covers a ha).7⟩ }

/-- An anchor that goes on where the last one stopped, behind the marks `f`. -/
structure Frontier.Next (f : Frontier) (rate : Nat) (a : TextProgressAnchor) : Prop where
  seq : a.anchorSeq = f.nextSeq
  sampleStart : a.outputSampleStart = f.lastEnd
  sampleEnd : f.lastEnd ≤ a.outputSampleEnd
  sampleRate : a.outputSampleRate = rate
  rawStart : f.lastRaw ≤ a.rawStart
  rawEnd : a.rawStart ≤ a.rawEnd
  normalizedStart : f.lastNormalized ≤ a.normalizedStart
  normalizedEnd : a.normalizedStart ≤ a.normalizedEnd

/-- The marks behind an anchor. -/
def Frontier.passed (f : Frontier) (a : TextProgressAnchor) : Frontier :=
  { f with
    nextSeq := f.nextSeq + 1
    lastEnd := a.outputSampleEnd
    lastRaw := a.rawEnd
    lastNormalized := a.normalizedEnd }

theorem Frontier.Covers.before {a b : TextProgressAnchor} (ha : f.Covers a) (hb : f.Next rate b) :
    Before a b := by
  obtain ⟨h₁, h₂, h₃, h₄, h₅, h₆, h₇⟩ := ha
  obtain ⟨k₁, k₂, k₃, -, k₅, k₆, k₇, k₈⟩ := hb
  constructor <;> omega

/-- An anchor that goes on where the last one stopped is added, if it ends within the samples. -/
theorem Agree.addAnchor (h : Agree rate past f t) (hrate : 0 < rate) {entries : Anchor}
    {a : TextProgressAnchor} (hmeta : TextProgressAnchor.fromMeta entries = .ok a)
    (ha : f.Next rate a) (hwithin : a.outputSampleEnd ≤ f.cursor) :
    ∃ t', t.addAnchor a = .ok t' ∧ Agree rate (past ++ [entries]) (f.passed a) t' := by
  have hnone : t.anchors.get? a.anchorSeq = none := by
    cases hget : t.anchors.get? a.anchorSeq with
    | none => rfl
    | some old =>
        have hold := (h.covers old (OrderedDict.mem_values.2 ⟨_, hget⟩)).seq
        rw [h.keys _ _ hget, ha.seq] at hold
        omega
  have hordered : (t.anchors.values ++ [a]).Pairwise Before := by
    rw [List.pairwise_append]
    refine ⟨h.ordered, List.pairwise_singleton _ _, fun old hold b hb => ?_⟩
    rw [List.mem_singleton.1 hb]
    exact (h.covers old hold).before ha
  have hformed : malformed a = false := by
    have h₁ := h.nextSeq_pos
    have h₂ := h.lastEnd_nonneg
    have h₃ := h.lastRaw_nonneg
    have h₄ := h.lastNormalized_nonneg
    obtain ⟨k₁, k₂, k₃, k₄, k₅, k₆, k₇, k₈⟩ := ha
    simp only [malformed, Bool.or_eq_false_iff, decide_eq_false_iff_not]
    refine ⟨⟨⟨⟨⟨⟨⟨?_, ?_⟩, ?_⟩, ?_⟩, ?_⟩, ?_⟩, ?_⟩, ?_⟩ <;> omega
  have hvalid : t.validateAnchor a = .ok { t with outputSampleRate := some (rate : Int) } := by
    unfold PlaybackProgressTracker.validateAnchor
    simp only [hformed, ha.sampleRate, h.rememberSampleRate, Bool.false_eq_true, if_false]
    have hseq := List.mergeSort_of_pairwise (hordered.imp Before.seqLe)
    have hsample := List.mergeSort_of_pairwise (hordered.imp Before.sampleLe)
    have hmonotonic := validateMonotonic_of_pairwise hordered
    simp only [bind, Except.bind, hseq, hsample, hmonotonic]
    rfl
  refine ⟨{ t with
      outputSampleRate := some (rate : Int)
      anchors := t.anchors.set a.anchorSeq a
      receivedSample := max t.receivedSample a.outputSampleEnd }, ?_, ?_⟩
  · unfold PlaybackProgressTracker.addAnchor
    simp only [hnone, hvalid]
    rfl
  · have hvalues : (t.anchors.set a.anchorSeq a).values = t.anchors.values ++ [a] := by
      simp [OrderedDict.values, OrderedDict.entries_set_of_get?_eq_none hnone]
    have hreceived := h.received
    obtain ⟨k₁, k₂, k₃, k₄, k₅, k₆, k₇, k₈⟩ := ha
    constructor
    · simp only [Frontier.passed]
      omega
    · exact fun known hknown => (Option.some.inj hknown).symm
    · have := h.nextSeq_pos
      simp only [Frontier.passed]
      omega
    · have := h.lastEnd_nonneg
      simp only [Frontier.passed]
      omega
    · exact hwithin
    · have := h.lastRaw_nonneg
      simp only [Frontier.passed]
      omega
    · have := h.lastNormalized_nonneg
      simp only [Frontier.passed]
      omega
    · intro seq b hb
      simp only [OrderedDict.get?_set] at hb
      split at hb
      · next hsame =>
        cases hb
        exact hsame.symm
      · exact h.keys seq b hb
    · simp [hvalues, h.values, hmeta]
    · intro b hb
      simp only [hvalues, List.mem_append, List.mem_singleton] at hb
      obtain hb | rfl := hb
      · obtain ⟨h₁, h₂, h₃, h₄, h₅, h₆, h₇⟩ := h.covers b hb
        constructor <;> simp only [Frontier.passed] <;> omega
      · constructor <;> simp only [Frontier.passed] <;> omega
    · simp only [hvalues]
      exact hordered

/-! ## What the processor releases -/

/-- All four text coordinates are integers. -/
def TextSpan.Integral (span : TextSpan) : Prop :=
  ∃ rawStart rawEnd normalizedStart normalizedEnd : Int,
    span = ⟨some rawStart, some rawEnd, some normalizedStart, some normalizedEnd⟩

/-- An event whose text coordinates are integers, and which brings no sequence number. -/
structure Unnumbered (event : TextEvent) : Prop where
  integral : event.textSpan.Integral
  anchorSeq : event.anchorSeq = none

/-- The clamped range starts at or behind the last one's end. -/
theorem clampRange_spec (last start stop : Int) :
    ∃ start' stop', Processor.clampRange (some start) (some stop) last =
      (some start', some stop', stop') ∧ last ≤ start' ∧ start' ≤ stop' := by
  refine ⟨_, _, rfl, ?_, ?_⟩ <;> omega

section
variable {config : Config} {s : Processor}

/-- The anchor of an unnumbered event goes on where the last one stopped, and ends at its target. -/
theorem anchorEvent_spec (h : Agree config.sampleRate past s.frontier t) {event : TextEvent}
    (hevent : Unnumbered event) (stop : Int) :
    ∃ a, TextProgressAnchor.fromMeta
        (s.anchorEvent config event stop (some s.lastAnchorOutputEnd)).1 = .ok a ∧
      s.frontier.Next config.sampleRate a ∧
      a.outputSampleEnd = max s.lastAnchorOutputEnd stop ∧
      (s.anchorEvent config event stop (some s.lastAnchorOutputEnd)).2.frontier =
        s.frontier.passed a := by
  obtain ⟨⟨rawStart, rawEnd, normalizedStart, normalizedEnd, hspan⟩, hseq⟩ := hevent
  obtain ⟨rs, re, hraw, hraw₁, hraw₂⟩ :=
    clampRange_spec s.lastAnchorRawEnd rawStart rawEnd
  obtain ⟨ns, ne, hnormalized, hnormalized₁, hnormalized₂⟩ :=
    clampRange_spec s.lastAnchorNormalizedEnd normalizedStart normalizedEnd
  have hlast : 0 ≤ s.lastAnchorOutputEnd := h.lastEnd_nonneg
  unfold Processor.anchorEvent
  simp only [hspan, hraw, hnormalized, hseq, Processor.anchorSeq]
  refine ⟨_, rfl, ⟨rfl, ?_, ?_, rfl, hraw₁, hraw₂, hnormalized₁, hnormalized₂⟩, rfl, ?_⟩
  · exact Int.max_eq_right hlast
  · exact Int.le_max_left _ _
  · simp only [Processor.frontier, Frontier.passed, Frontier.mk.injEq, true_and, and_true]
    omega

/-- The client accepts the anchor of an unnumbered event that ends within the delivered samples. -/
theorem Agree.anchorEvent (h : Agree config.sampleRate past s.frontier t) {event : TextEvent}
    (hevent : Unnumbered event) {stop : Int} (hstop : stop ≤ s.outputSampleCursor) :
    ∃ t', t.observeAnchor (s.anchorEvent config event stop (some s.lastAnchorOutputEnd)).1 = .ok t' ∧
      Agree config.sampleRate
        (past ++ [(s.anchorEvent config event stop (some s.lastAnchorOutputEnd)).1])
        (s.anchorEvent config event stop (some s.lastAnchorOutputEnd)).2.frontier t' := by
  obtain ⟨a, hmeta, hnext, hend, hfrontier⟩ := anchorEvent_spec h hevent stop
  have hwithin : a.outputSampleEnd ≤ s.frontier.cursor := by
    have hlast : s.lastAnchorOutputEnd ≤ s.outputSampleCursor := h.lastEnd_le
    simp only [Processor.frontier]
    omega
  obtain ⟨t', ht', hagree⟩ := h.addAnchor config.sampleRate_pos hmeta hnext hwithin
  refine ⟨t', ?_, hfrontier ▸ hagree⟩
  have hreceived := h.received
  have hahead : ¬ t.receivedSample < a.outputSampleEnd := by omega
  unfold PlaybackProgressTracker.observeAnchor
  simp only [hmeta, bind, Except.bind, hahead, if_false]
  exact ht'

/-- The client refuses the anchor of an event that ends behind the delivered samples. -/
theorem Agree.anchorEvent_ahead (h : Agree config.sampleRate past s.frontier t) {event : TextEvent}
    (hevent : Unnumbered event) {stop : Int} (hstop : s.outputSampleCursor < stop)
    (t' : PlaybackProgressTracker) :
    t.observeAnchor (s.anchorEvent config event stop (some s.lastAnchorOutputEnd)).1 ≠ .ok t' := by
  obtain ⟨a, hmeta, -, hend, -⟩ := anchorEvent_spec h hevent stop
  have hreceived : t.receivedSample = s.outputSampleCursor := h.received
  have hahead : t.receivedSample < a.outputSampleEnd := by omega
  unfold PlaybackProgressTracker.observeAnchor
  simp only [hmeta, bind, Except.bind, hahead, if_true]
  exact nofun

/-- The events that wait in a processor are unnumbered. -/
structure Stock (s : Processor) : Prop where
  candidates : ∀ id candidate, s.candidates.get? id = some candidate → Unnumbered candidate.event
  finals : ∀ final ∈ s.pendingFinal, Unnumbered final.event

/-- The target a final is released at. -/
def Processor.finalStop (s : Processor) (outputEnd : Int) (final : PendingFinal) : Int :=
  (s.segmentOutputEnd.get? final.segmentIdx).getD (final.target.getD outputEnd)

/-- A final that is ready is released at the target it was found ready with. -/
theorem Processor.finalStop_of_finalTarget {final : PendingFinal} {target : Int}
    (h : s.finalTarget final = some target) (outputEnd : Int) :
    s.finalStop outputEnd final = target := by
  unfold Processor.finalTarget at h
  unfold Processor.finalStop
  simp only at h
  cases hget : s.segmentOutputEnd.get? final.segmentIdx with
  | some stop =>
      rw [hget] at h
      split_ifs at h
      cases h
      rfl
  | none =>
      rw [hget] at h
      split_ifs at h
      change final.target = some target at h
      rw [h]
      rfl

/-- A ready marker that ends within the delivered samples. -/
def Processor.Within (s : Processor) (outputEnd : Int) (ready : Int × Processor.Marker) : Prop :=
  match ready.2 with
  | .candidate _ => ready.1 ≤ s.outputSampleCursor
  | .final index => ∀ final, s.pendingFinal[index]? = some final →
      s.finalStop outputEnd final ≤ s.outputSampleCursor

/-- What the loop over `ready` leaves alone. -/
structure Processor.Same (s s' : Processor) : Prop where
  pendingFinal : s'.pendingFinal = s.pendingFinal
  segmentOutputEnd : s'.segmentOutputEnd = s.segmentOutputEnd
  cursor : s'.outputSampleCursor = s.outputSampleCursor

theorem Processor.Same.within {s s' : Processor} (h : s.Same s') (outputEnd : Int)
    (ready : Int × Processor.Marker) : s'.Within outputEnd ready ↔ s.Within outputEnd ready := by
  unfold Processor.Within Processor.finalStop
  rw [h.pendingFinal, h.segmentOutputEnd, h.cursor]

theorem release_same (config : Config) (s : Processor) (outputEnd : Int)
    (ready : Int × Processor.Marker) : s.Same (s.release config outputEnd ready).2 := by
  unfold Processor.release
  split
  · split <;> exact ⟨rfl, rfl, rfl⟩
  · split <;> exact ⟨rfl, rfl, rfl⟩

theorem Stock.release (h : Stock s) (outputEnd : Int) (ready : Int × Processor.Marker) :
    Stock (s.release config outputEnd ready).2 := by
  have hsame := release_same config s outputEnd ready
  refine ⟨?_, fun final hfinal => h.finals final (hsame.pendingFinal ▸ hfinal)⟩
  unfold Processor.release
  split
  · split
    · exact h.candidates
    · intro id candidate hget
      simp only [OrderedDict.get?_erase] at hget
      split at hget
      · cases hget
      · exact h.candidates id candidate hget
  · split <;> exact h.candidates

theorem observeAll_cons {message : Message} {messages : List Message} {t' : PlaybackProgressTracker} :
    observeAll rate t (message :: messages) = .ok t' ↔
      ∃ t₁, observe rate t message = .ok t₁ ∧ observeAll rate t₁ messages = .ok t' := by
  simp only [observeAll, List.foldlM_cons, bind, Except.bind]
  cases observe rate t message with
  | error e => simp
  | ok t₁ => simp

theorem observeAll_append {sent others : List Message} {t' : PlaybackProgressTracker} :
    observeAll rate t (sent ++ others) = .ok t' ↔
      ∃ t₁, observeAll rate t sent = .ok t₁ ∧ observeAll rate t₁ others = .ok t' := by
  simp only [observeAll, List.foldlM_append, bind, Except.bind]
  cases List.foldlM (observe rate) t sent with
  | error e => simp
  | ok t₁ => simp

/-- The client accepts what is released for a marker that ends within the delivered samples. -/
theorem Agree.release (h : Agree config.sampleRate past s.frontier t) (hstock : Stock s)
    {outputEnd : Int} {ready : Int × Processor.Marker} (hwithin : s.Within outputEnd ready) :
    ∃ t', observeAll config.sampleRate t ((s.release config outputEnd ready).1.map .anchor) = .ok t' ∧
      Agree config.sampleRate (past ++ (s.release config outputEnd ready).1)
        (s.release config outputEnd ready).2.frontier t' := by
  unfold Processor.release
  unfold Processor.Within at hwithin
  split
  · next id hmarker =>
    simp only [hmarker] at hwithin
    split
    · exact ⟨t, rfl, by simpa using h⟩
    · next candidate hget =>
      obtain ⟨t', ht', hagree⟩ := h.anchorEvent (hstock.candidates _ _ hget) hwithin
      exact ⟨t', observeAll_cons.2 ⟨t', ht', rfl⟩, hagree⟩
  · next index hmarker =>
    simp only [hmarker] at hwithin
    split
    · exact ⟨t, rfl, by simpa using h⟩
    · next final hget =>
      obtain ⟨t', ht', hagree⟩ :=
        h.anchorEvent (hstock.finals _ (List.mem_of_getElem? hget)) (hwithin final hget)
      exact ⟨t', observeAll_cons.2 ⟨t', ht', rfl⟩, hagree⟩

/-- The client refuses a final that is released behind the delivered samples. -/
theorem Agree.release_ahead (h : Agree config.sampleRate past s.frontier t) (hstock : Stock s)
    {outputEnd target : Int} {index : Nat} {final : PendingFinal}
    (hget : s.pendingFinal[index]? = some final)
    (hahead : s.outputSampleCursor < s.finalStop outputEnd final) (t' : PlaybackProgressTracker) :
    observeAll config.sampleRate t
      ((s.release config outputEnd (target, .final index)).1.map .anchor) ≠ .ok t' := by
  simp only [Processor.release, hget]
  intro hok
  obtain ⟨t₁, ht₁, -⟩ := observeAll_cons.1 hok
  exact h.anchorEvent_ahead (hstock.finals _ (List.mem_of_getElem? hget)) hahead t₁ ht₁

/-! ## The loop over the ready markers -/

theorem Stock.releaseAll (h : Stock s) (config : Config) (outputEnd : Int)
    (ready : List (Int × Processor.Marker)) : Stock (s.releaseAll config outputEnd ready).2 := by
  induction ready generalizing s with
  | nil => exact h
  | cons marker ready ih => exact ih (h.release outputEnd marker)

/-- The client accepts what the loop releases, if every marker ends within the delivered samples. -/
theorem Agree.releaseAll (h : Agree config.sampleRate past s.frontier t) (hstock : Stock s)
    {outputEnd : Int} {ready : List (Int × Processor.Marker)}
    (hwithin : ∀ marker ∈ ready, s.Within outputEnd marker) :
    ∃ t', observeAll config.sampleRate t ((s.releaseAll config outputEnd ready).1.map .anchor)
        = .ok t' ∧
      Agree config.sampleRate (past ++ (s.releaseAll config outputEnd ready).1)
        (s.releaseAll config outputEnd ready).2.frontier t' := by
  induction ready generalizing s t past with
  | nil => exact ⟨t, rfl, by simpa [Processor.releaseAll] using h⟩
  | cons marker ready ih =>
      obtain ⟨t₁, ht₁, hagree₁⟩ := h.release hstock (hwithin marker List.mem_cons_self)
      have hsame := release_same config s outputEnd marker
      obtain ⟨t', ht', hagree'⟩ := ih hagree₁ (hstock.release outputEnd marker)
        fun marker' hmarker' =>
          (hsame.within outputEnd marker').2 (hwithin marker' (List.mem_cons_of_mem _ hmarker'))
      rw [List.append_assoc] at hagree'
      refine ⟨t', ?_, hagree'⟩
      rw [Processor.releaseAll, List.map_append]
      exact observeAll_append.2 ⟨t₁, ht₁, ht'⟩

/-- The client refuses what the loop releases, if a final in it ends behind the delivered samples. -/
theorem Agree.releaseAll_ahead (h : Agree config.sampleRate past s.frontier t) (hstock : Stock s)
    {outputEnd target : Int} {ready : List (Int × Processor.Marker)} {index : Nat}
    {final : PendingFinal}
    (hcandidates : ∀ first id, (first, .candidate id) ∈ ready → first ≤ s.outputSampleCursor)
    (hmem : (target, .final index) ∈ ready) (hget : s.pendingFinal[index]? = some final)
    (hahead : s.outputSampleCursor < s.finalStop outputEnd final) (t' : PlaybackProgressTracker) :
    observeAll config.sampleRate t ((s.releaseAll config outputEnd ready).1.map .anchor)
      ≠ .ok t' := by
  induction ready generalizing s t past with
  | nil => cases hmem
  | cons marker ready ih =>
      rw [Processor.releaseAll, List.map_append]
      intro hok
      obtain ⟨t₁, ht₁, hrest⟩ := observeAll_append.1 hok
      by_cases hwithin : s.Within outputEnd marker
      · -- this marker is accepted, so the final is one of the others
        obtain ⟨t₂, ht₂, hagree₂⟩ := h.release hstock hwithin
        cases ht₁.symm.trans ht₂
        have hsame := release_same config s outputEnd marker
        obtain hhere | hlater := List.mem_cons.1 hmem
        · rw [← hhere] at hwithin
          exact absurd (hwithin final hget) (by omega)
        · refine ih hagree₂ (hstock.release outputEnd marker) ?_ hlater ?_ ?_ hrest
          · intro first id hid
            rw [hsame.cursor]
            exact hcandidates first id (List.mem_cons_of_mem _ hid)
          · rw [hsame.pendingFinal]
            exact hget
          · simp only [Processor.finalStop, hsame.segmentOutputEnd, hsame.cursor]
            exact hahead
      · obtain ⟨first, id | index'⟩ := marker
        · exact hwithin (hcandidates first id List.mem_cons_self)
        · simp only [Processor.Within, not_forall, Int.not_le] at hwithin
          obtain ⟨final', hget', hahead'⟩ := hwithin
          exact h.release_ahead hstock hget' hahead' t₁ ht₁

/-! ## Resolving -/

theorem mem_readyCandidates {processedInput : Nat} {outputEnd : Int} {forceAll : Bool}
    {marker : Int × Processor.Marker}
    (h : marker ∈ s.readyCandidates config processedInput outputEnd forceAll) :
    (∃ id, marker.2 = .candidate id) ∧ marker.1 ≤ outputEnd := by
  obtain ⟨⟨id, target⟩, -, hmarker⟩ := List.mem_filterMap.1 h
  simp only at hmarker
  split_ifs at hmarker <;> cases hmarker <;> exact ⟨⟨id, rfl⟩, Int.min_le_right _ _⟩

/-- The finals that are ready are the pending ones with a target, within the samples unless they are
forced. -/
theorem mem_readyFinals {outputEnd : Int} {forceAll : Bool} {marker : Int × Processor.Marker} :
    marker ∈ s.readyFinals outputEnd forceAll ↔
      ∃ index final target, s.pendingFinal[index]? = some final ∧
        s.finalTarget final = some target ∧ (target ≤ outputEnd ∨ forceAll) ∧
        marker = (min target outputEnd, .final index) := by
  unfold Processor.readyFinals
  rw [List.mem_filterMap]
  constructor
  · rintro ⟨⟨final, index⟩, hmem, hmarker⟩
    have hget : s.pendingFinal[index]? = some final := List.mem_zipIdx_iff_getElem?.1 hmem
    simp only at hmarker
    cases htarget : s.finalTarget final with
    | none =>
        rw [htarget] at hmarker
        cases hmarker
    | some target =>
        rw [htarget] at hmarker
        simp only at hmarker
        split_ifs at hmarker with hready
        · cases hmarker
          exact ⟨index, final, target, hget, htarget, hready, rfl⟩
  · rintro ⟨index, final, target, hget, htarget, hready, rfl⟩
    refine ⟨(final, index), List.mem_zipIdx_iff_getElem?.2 hget, ?_⟩
    simp only [htarget, if_pos hready]

/-- The markers that `_resolve_ready_anchors` goes through. -/
def Processor.ready (config : Config) (s : Processor) (processedInput : Nat) (outputEnd : Int)
    (forceAll : Bool) : List (Int × Processor.Marker) :=
  (s.readyCandidates config processedInput outputEnd forceAll
    ++ s.readyFinals outputEnd forceAll).mergeSort Processor.readyLe

theorem mem_ready {processedInput : Nat} {outputEnd : Int} {forceAll : Bool}
    {marker : Int × Processor.Marker} :
    marker ∈ Processor.ready config s processedInput outputEnd forceAll ↔
      marker ∈ s.readyCandidates config processedInput outputEnd forceAll ∨
        marker ∈ s.readyFinals outputEnd forceAll := by
  rw [Processor.ready, List.mem_mergeSort, List.mem_append]

/-- Every pending final that has a target and its frames ends within the delivered samples. -/
def Processor.Settled (s : Processor) : Prop :=
  ∀ final ∈ s.pendingFinal, ∀ target, s.finalTarget final = some target →
    target ≤ s.outputSampleCursor

theorem Stock.resolve (h : Stock s) (processedInput : Nat) (outputEnd : Int) (forceAll : Bool) :
    Stock (s.resolveReadyAnchors config processedInput outputEnd forceAll).2 := by
  have hreleased := h.releaseAll config outputEnd
    (Processor.ready config s processedInput outputEnd forceAll)
  refine ⟨hreleased.candidates, fun final hfinal => ?_⟩
  obtain ⟨⟨kept, index⟩, hmem, rfl⟩ := List.mem_map.1 hfinal
  exact hreleased.finals kept
    (List.mem_of_getElem? (List.mem_zipIdx_iff_getElem?.1 (List.mem_filter.1 hmem).1))

/-- The client accepts what is resolved up to the delivered samples, forced or not, if no forced final
ends behind them. -/
theorem Agree.resolve (h : Agree config.sampleRate past s.frontier t) (hstock : Stock s)
    (processedInput : Nat) {forceAll : Bool} (hsettled : forceAll = true → s.Settled) :
    ∃ t', observeAll config.sampleRate t ((s.resolveReadyAnchors config processedInput
        s.outputSampleCursor forceAll).1.map .anchor) = .ok t' ∧
      Agree config.sampleRate
        (past ++ (s.resolveReadyAnchors config processedInput s.outputSampleCursor forceAll).1)
        (s.resolveReadyAnchors config processedInput s.outputSampleCursor forceAll).2.frontier t' := by
  suffices hwithin : ∀ marker ∈ Processor.ready config s processedInput s.outputSampleCursor forceAll,
      s.Within s.outputSampleCursor marker from h.releaseAll hstock hwithin
  rintro ⟨first, marker⟩ hmarker
  obtain hcandidate | hfinal := mem_ready.1 hmarker
  · obtain ⟨⟨id, rfl⟩, hle⟩ := mem_readyCandidates hcandidate
    exact hle
  · obtain ⟨index, final, target, hget, htarget, hready, heq⟩ := mem_readyFinals.1 hfinal
    cases heq
    intro final' hget'
    cases hget.symm.trans hget'
    rw [Processor.finalStop_of_finalTarget htarget]
    obtain hle | hforced := hready
    · exact hle
    · exact hsettled hforced final (List.mem_of_getElem? hget) target htarget

/-- The client refuses what is forced out, if a final with a target ends behind the delivered
samples. -/
theorem Agree.resolve_ahead (h : Agree config.sampleRate past s.frontier t) (hstock : Stock s)
    (processedInput : Nat) (hahead : ¬ s.Settled) (t' : PlaybackProgressTracker) :
    observeAll config.sampleRate t ((s.resolveReadyAnchors config processedInput
      s.outputSampleCursor true).1.map .anchor) ≠ .ok t' := by
  simp only [Processor.Settled, not_forall, Int.not_le] at hahead
  obtain ⟨final, hfinal, target, htarget, hlt⟩ := hahead
  obtain ⟨index, hget⟩ := List.mem_iff_getElem?.1 hfinal
  have hcandidates : ∀ first id, (first, .candidate id) ∈
      Processor.ready config s processedInput s.outputSampleCursor true →
      first ≤ s.outputSampleCursor := by
    intro first id hid
    obtain hcandidate | hfinal := mem_ready.1 hid
    · exact (mem_readyCandidates hcandidate).2
    · obtain ⟨_, _, _, _, _, _, heq⟩ := mem_readyFinals.1 hfinal
      cases heq
  have hmem : (min target (s.outputSampleCursor : Int), .final index) ∈
      Processor.ready config s processedInput s.outputSampleCursor true :=
    mem_ready.2 (.inr (mem_readyFinals.2 ⟨index, final, target, hget, htarget, .inr rfl, rfl⟩))
  refine h.releaseAll_ahead hstock hcandidates hmem hget ?_ t'
  rw [Processor.finalStop_of_finalTarget htarget]
  exact hlt

/-! ## Audio and events -/

/-- A step that releases nothing and takes in nothing. -/
structure Processor.Quiet (s s' : Processor) : Prop where
  frontier : s'.frontier = s.frontier
  candidates : s'.candidates = s.candidates
  pendingFinal : s'.pendingFinal = s.pendingFinal

theorem Stock.quiet {s s' : Processor} (h : Stock s) (hquiet : s.Quiet s') : Stock s' :=
  ⟨hquiet.candidates ▸ h.candidates, hquiet.pendingFinal ▸ h.finals⟩

theorem Processor.Quiet.trans {s s₁ s' : Processor} (h : s.Quiet s₁) (h' : s₁.Quiet s') :
    s.Quiet s' :=
  ⟨h'.frontier.trans h.frontier, h'.candidates.trans h.candidates,
    h'.pendingFinal.trans h.pendingFinal⟩

theorem foldl_quiet {α : Type} {f : Processor → α → Processor}
    (hf : ∀ (s : Processor) (a : α), s.Quiet (f s a)) (s : Processor) (items : List α) :
    s.Quiet (items.foldl f s) := by
  induction items generalizing s with
  | nil => exact ⟨rfl, rfl, rfl⟩
  | cons item items ih => exact (hf s item).trans (ih (f s item))

theorem noteTargets_quiet (config : Config) (nativeBase : Nat) (s : Processor)
    (span : Processor.ProvenanceSpan) : s.Quiet (Processor.noteTargets config nativeBase s span) := by
  unfold Processor.noteTargets
  split <;> exact ⟨rfl, rfl, rfl⟩

theorem noteSegment_quiet (outputEnd : Int) (s : Processor) (span : Processor.ProvenanceSpan) :
    s.Quiet (Processor.noteSegment outputEnd s span) := by
  unfold Processor.noteSegment
  split
  · exact ⟨rfl, rfl, rfl⟩
  · split <;> exact ⟨rfl, rfl, rfl⟩

theorem noteSource_quiet (s : Processor) (segmentIdx sourceFrameEnd : Int) :
    s.Quiet (s.noteSource segmentIdx sourceFrameEnd) := by
  unfold Processor.noteSource
  split <;> exact ⟨rfl, rfl, rfl⟩

/-- The anchors among the messages. -/
def anchorsOf (messages : List Message) : List Anchor :=
  messages.filterMap fun message =>
    match message with
    | .audio _ _ => none
    | .anchor anchor => some anchor

@[simp] theorem anchorsOf_nil : anchorsOf [] = [] := rfl

@[simp] theorem anchorsOf_append (sent others : List Message) :
    anchorsOf (sent ++ others) = anchorsOf sent ++ anchorsOf others :=
  List.filterMap_append

@[simp] theorem anchorsOf_audio (start stop : Nat) (messages : List Message) :
    anchorsOf (.audio start stop :: messages) = anchorsOf messages := rfl

@[simp] theorem anchorsOf_map (anchors : List Anchor) : anchorsOf (anchors.map .anchor) = anchors := by
  simp [anchorsOf, List.filterMap_map]

/-- What a step of the processor means for the client: it accepts what is sent, and agrees on. -/
def Accepted (config : Config) (past : List Anchor) (t : PlaybackProgressTracker)
    (sent : List Message × Processor) : Prop :=
  ∃ t', observeAll config.sampleRate t sent.1 = .ok t' ∧
    Agree config.sampleRate (past ++ anchorsOf sent.1) sent.2.frontier t' ∧ Stock sent.2

/-- A step that sends nothing. -/
theorem Accepted.silent {config : Config} {s : Processor}
    (h : Agree config.sampleRate past s.frontier t) (hstock : Stock s) :
    Accepted config past t ([], s) :=
  ⟨t, rfl, by simpa using h, hstock⟩

/-- Two steps, one after the other. -/
theorem Accepted.append {config : Config} {sent : List Message × Processor}
    {others : List Message × Processor} (h : Accepted config past t sent)
    (hnext : ∀ t', Agree config.sampleRate (past ++ anchorsOf sent.1) sent.2.frontier t' →
      Stock sent.2 → Accepted config (past ++ anchorsOf sent.1) t' others) :
    Accepted config past t (sent.1 ++ others.1, others.2) := by
  obtain ⟨t₁, ht₁, hagree₁, hstock₁⟩ := h
  obtain ⟨t', ht', hagree', hstock'⟩ := hnext t₁ hagree₁ hstock₁
  refine ⟨t', observeAll_append.2 ⟨t₁, ht₁, ht'⟩, ?_, hstock'⟩
  simpa using hagree'

/-- A batch of retained audio with its anchors is accepted. -/
theorem Agree.makeBatch (h : Agree config.sampleRate past s.frontier t) (hstock : Stock s)
    (retained : Processor.Retained) (resampled processedInput : Nat) :
    Accepted config past t (s.makeBatch config retained resampled processedInput) := by
  unfold Processor.makeBatch
  simp only
  generalize hstop : s.outputSampleCursor + Processor.converted config retained.size resampled = stop
  generalize hcounted : ({ s with
    retainedNativeCursor := s.retainedNativeCursor + retained.size
    outputSampleCursor := stop } : Processor) = counted
  have hfrontier : counted.frontier = { s.frontier with cursor := stop } := by
    rw [← hcounted]
    rfl
  have hcountedStock : Stock counted := by
    rw [← hcounted]
    exact ⟨hstock.candidates, hstock.finals⟩
  have htargets := foldl_quiet (noteTargets_quiet config s.retainedNativeCursor) counted
    retained.provenance
  split
  · next hempty =>
    refine Accepted.silent ?_ (hcountedStock.quiet htargets)
    rw [htargets.frontier, hfrontier, hempty]
    exact h
  · have hdelivered : s.frontier.cursor ≤ stop := by
      rw [← hstop]
      exact Nat.le_add_right _ _
    obtain ⟨t₁, ht₁, hagree₁⟩ := h.observeAudio config.sampleRate_pos hdelivered
    have hquiet := htargets.trans (foldl_quiet (noteSegment_quiet stop) _ retained.provenance)
    generalize hnoted : retained.provenance.foldl (Processor.noteSegment stop)
      (retained.provenance.foldl (Processor.noteTargets config s.retainedNativeCursor) counted)
      = noted at hquiet ⊢
    have hagree : Agree config.sampleRate past noted.frontier t₁ := by
      rw [hquiet.frontier, hfrontier]
      exact hagree₁
    have hcursor : noted.outputSampleCursor = stop := by
      have hcursor := congrArg Frontier.cursor hquiet.frontier
      rw [hfrontier] at hcursor
      exact hcursor
    have hnotedStock := hcountedStock.quiet hquiet
    obtain ⟨t', ht', hagree'⟩ := hagree.resolve hnotedStock processedInput
      (show false = true → _ from nofun)
    rw [hcursor] at ht' hagree'
    refine ⟨t', observeAll_cons.2 ⟨t₁, ht₁, ht'⟩, ?_, hnotedStock.resolve _ _ _⟩
    simpa using hagree'

/-- The text coordinates of an event are integers, if it has them. -/
def Meta.Integral (entries : Meta) : Prop := ∀ span, entries.textSpan = some span → span.Integral

theorem addCandidate_spec (hstock : Stock s) {chunk : Processor.Chunk}
    (hintegral : ∀ entries, chunk.progressEvent = some entries → entries.Integral) :
    (s.addCandidate chunk).2.frontier = s.frontier ∧ Stock (s.addCandidate chunk).2 := by
  unfold Processor.addCandidate
  split
  · exact ⟨rfl, hstock⟩
  · next event hevent =>
    refine ⟨rfl, ?_, hstock.finals⟩
    intro id candidate hget
    simp only [OrderedDict.get?_set] at hget
    split at hget
    · cases hget
      obtain ⟨entries, hentries, htext⟩ := Option.bind_eq_some_iff.1 hevent
      obtain ⟨span, hspan, rfl⟩ := Option.map_eq_some_iff.1 htext
      exact ⟨hintegral entries hentries span hspan, rfl⟩
    · exact hstock.candidates id candidate hget

/-- The client accepts what comes of a chunk. -/
theorem Agree.process (h : Agree config.sampleRate past s.frontier t) (hstock : Stock s)
    {chunk : Processor.Chunk}
    (hintegral : ∀ entries, chunk.progressEvent = some entries → entries.Integral)
    (env : Processor.Retention) : Accepted config past t (s.process config chunk env) := by
  unfold Processor.process
  have hsource := noteSource_quiet s chunk.segmentIdx chunk.sourceFrameEnd
  have hsourceStock := hstock.quiet hsource
  simp only
  generalize s.noteSource chunk.segmentIdx chunk.sourceFrameEnd = seen at hsource hsourceStock ⊢
  split
  · exact Accepted.silent (hsource.frontier ▸ h) hsourceStock
  · generalize hcounted : ({ seen with
      sourceNativeCursor := seen.sourceNativeCursor + chunk.size } : Processor) = counted
    have hcountedStock : Stock counted := by
      rw [← hcounted]
      exact ⟨hsourceStock.candidates, hsourceStock.finals⟩
    have hcountedFrontier : counted.frontier = s.frontier := by
      rw [← hcounted]
      exact hsource.frontier
    obtain ⟨hadded, haddedStock⟩ := addCandidate_spec hcountedStock hintegral
    have hagree : Agree config.sampleRate past (counted.addCandidate chunk).2.frontier t := by
      rw [hadded, hcountedFrontier]
      exact h
    split
    · split
      · exact Accepted.silent hagree haddedStock
      · exact hagree.makeBatch haddedStock _ _ _
    · exact hagree.makeBatch haddedStock _ _ _

/-- An event of the histories in question: a segment's end, a final marker without a sequence number
and with integers for its coordinates, or one that is handed on. -/
def Event.InScope : Event → Prop
  | .textProgress _ entries =>
      entries.Integral ∧ entries.anchorSeq = none ∧
        (entries.alignmentFinal = true ∨ entries.outputSampleEnd = false)
  | _ => True

/-- The client accepts what comes of an event. -/
theorem Agree.processEvent (h : Agree config.sampleRate past s.frontier t) (hstock : Stock s)
    {event : Event} (hevent : event.InScope) (processedInput : Nat) :
    Accepted config past t (s.processEvent config event processedInput) := by
  unfold Processor.processEvent
  cases event with
  | other => exact Accepted.silent h hstock
  | segmentEnd segmentIdx expected =>
      simp only
      split
      · exact Accepted.silent h ⟨hstock.candidates, hstock.finals⟩
      · exact Accepted.silent h hstock
  | textProgress segmentIdx entries =>
      obtain ⟨hintegral, hseq, hscope⟩ := hevent
      simp only
      split
      · exact Accepted.silent h hstock
      · next event htext =>
        have hunnumbered : Unnumbered event := by
          obtain ⟨span, hspan, rfl⟩ := Option.map_eq_some_iff.1 htext
          exact ⟨hintegral span hspan, hseq⟩
        split
        · generalize hadded : ({ s with pendingFinal := s.pendingFinal ++ [_] } : Processor) = added
          have hagree : Agree config.sampleRate past added.frontier t := by
            rw [← hadded]
            exact h
          have haddedStock : Stock added := by
            rw [← hadded]
            refine ⟨hstock.candidates, fun final hfinal => ?_⟩
            obtain hfinal | hfinal := List.mem_append.1 hfinal
            · exact hstock.finals final hfinal
            · rw [List.mem_singleton.1 hfinal]
              exact hunnumbered
          have hcursor : s.outputSampleCursor = added.outputSampleCursor := by rw [← hadded]
          have hopen : false = true → added.Settled := by
            intro hat
            cases hat
          obtain ⟨t', ht', hagree'⟩ := hagree.resolve haddedStock processedInput hopen
          rw [hcursor]
          refine ⟨t', ht', ?_, haddedStock.resolve _ _ _⟩
          simpa using hagree'
        · next hfinal =>
          have hdiagnostic : entries.outputSampleEnd = false := hscope.resolve_left hfinal
          simp only [hdiagnostic, Bool.false_eq_true, if_false]
          exact Accepted.silent h hstock

/-! ## Runs -/

/-- A call of the histories in question. -/
def Processor.Op.InScope : Processor.Op → Prop
  | .process chunk _ => ∀ entries, chunk.progressEvent = some entries → entries.Integral
  | .event lifecycle _ => lifecycle.InScope

/-- The client accepts what comes of a call. -/
theorem Agree.step (h : Agree config.sampleRate past s.frontier t) (hstock : Stock s)
    {op : Processor.Op} (hop : op.InScope) : Accepted config past t (s.step config op) := by
  cases op with
  | process chunk env => exact h.process hstock hop env
  | event event processedInput => exact h.processEvent hstock hop processedInput

/-- The client accepts what comes of the calls before the end. -/
theorem Agree.runOps (h : Agree config.sampleRate past s.frontier t) (hstock : Stock s)
    {ops : List Processor.Op} (hops : ∀ op ∈ ops, op.InScope) :
    Accepted config past t (s.runOps config ops) := by
  induction ops generalizing s t past with
  | nil => exact Accepted.silent h hstock
  | cons op ops ih =>
      exact (h.step hstock (hops op List.mem_cons_self)).append fun t' hagree hstock' =>
        ih hagree hstock' fun op' hop' => hops op' (List.mem_cons_of_mem _ hop')

/-- The client accepts the resampler's last frame. -/
theorem Agree.flushResampler (h : Agree config.sampleRate past s.frontier t) (hstock : Stock s)
    (flushed : Nat) : Accepted config past t (s.flushResampler config flushed) := by
  unfold Processor.flushResampler
  simp only
  generalize (if config.sampleRate = config.nativeSampleRate then 0 else flushed) = given
  split
  · exact Accepted.silent h hstock
  · obtain ⟨t', ht', hagree'⟩ := h.observeAudio config.sampleRate_pos
      (Nat.le_add_right s.frontier.cursor given)
    refine ⟨t', observeAll_cons.2 ⟨t', ht', rfl⟩, ?_, hstock.candidates, hstock.finals⟩
    rw [anchorsOf_audio, anchorsOf_nil, List.append_nil]
    exact hagree'

/-- The client accepts the audio that is flushed at the end. -/
theorem Agree.drain (h : Agree config.sampleRate past s.frontier t) (hstock : Stock s)
    (env : Processor.Remainder) : Accepted config past t (s.drain config env) := by
  have hbatch : Accepted config past t (if env.retained.size = 0 then ([], s)
      else s.makeBatch config env.retained env.resampled env.processedInput) := by
    split
    · exact Accepted.silent h hstock
    · exact h.makeBatch hstock _ _ _
  exact hbatch.append fun t' hagree hstock' => hagree.flushResampler hstock' env.flushed

/-- The tracker raises on none of the messages, and the anchors it then holds are all those that were
released, each behind the one before it in every coordinate. -/
def PlaysThrough (rate : Nat) (messages : List Message) : Prop :=
  ∃ t, observeAll rate {} messages = .ok t ∧
    (anchorsOf messages).map TextProgressAnchor.fromMeta = t.anchors.values.map .ok ∧
    t.anchors.values.Pairwise Before

theorem Accepted.playsThrough {sent : List Message × Processor} (h : Accepted config [] {} sent) :
    PlaysThrough config.sampleRate sent.1 := by
  obtain ⟨t, ht, hagree, -⟩ := h
  exact ⟨t, ht, by simpa using hagree.values, hagree.ordered⟩

/-- The processor after the calls of a run, with its end flushed: what the finals are resolved in. -/
def drained (config : Config) (ops : List Processor.Op) (env : Processor.Remainder) : Processor :=
  ((({} : Processor).runOps config ops).2.drain config env).2

/-- Everything a run releases, its end included. -/
def released (config : Config) (ops : List Processor.Op) (emitFinal : Bool)
    (env : Processor.Remainder) : List Message :=
  (({} : Processor).runOps config ops).1
    ++ ((({} : Processor).runOps config ops).2.finish config emitFinal env).1

end

theorem stock_init : Stock {} := ⟨fun _ _ h => (nomatch h), fun _ h => nomatch h⟩

section
variable {config : Config} {ops : List Processor.Op} {env : Processor.Remainder}

/-- The client accepts the audio of a run, and agrees with the processor the finals are resolved in. -/
theorem drained_accepted (hops : ∀ op ∈ ops, op.InScope) :
    Accepted config [] {}
      ((({} : Processor).runOps config ops).1
        ++ ((({} : Processor).runOps config ops).2.drain config env).1, drained config ops env) :=
  ((agree_init config.sampleRate).runOps stock_init hops).append fun _ hagree hstock =>
    hagree.drain hstock env

theorem released_true :
    released config ops true env =
      ((({} : Processor).runOps config ops).1
        ++ ((({} : Processor).runOps config ops).2.drain config env).1)
      ++ ((drained config ops env).resolveReadyAnchors config env.processedInput
        (drained config ops env).outputSampleCursor true).1.map .anchor := by
  rw [List.append_assoc]
  rfl

/-- A run whose forced finals end within the delivered samples plays through. -/
theorem released_playsThrough (hops : ∀ op ∈ ops, op.InScope)
    (hsettled : (drained config ops env).Settled) :
    PlaysThrough config.sampleRate (released config ops true env) := by
  have hfinals (past : List Anchor) (t : PlaybackProgressTracker)
      (hagree : Agree config.sampleRate past (drained config ops env).frontier t)
      (hstock : Stock (drained config ops env)) :
      Accepted config past t (((drained config ops env).resolveReadyAnchors config
          env.processedInput (drained config ops env).outputSampleCursor true).1.map .anchor,
        ((drained config ops env).resolveReadyAnchors config env.processedInput
          (drained config ops env).outputSampleCursor true).2) := by
    obtain ⟨t', ht', hagree'⟩ := hagree.resolve hstock env.processedInput fun _ => hsettled
    exact ⟨t', ht', by simpa using hagree', hstock.resolve _ _ _⟩
  rw [released_true]
  exact ((drained_accepted hops).append (hfinals _)).playsThrough

/-- A run with a forced final behind the delivered samples does not. -/
theorem released_not_playsThrough (hops : ∀ op ∈ ops, op.InScope)
    (hahead : ¬ (drained config ops env).Settled) :
    ¬ PlaysThrough config.sampleRate (released config ops true env) := by
  rw [released_true]
  rintro ⟨t', ht', -⟩
  obtain ⟨t₁, ht₁, hrest⟩ := observeAll_append.1 ht'
  obtain ⟨t₂, ht₂, hagree, hstock⟩ := drained_accepted hops
  cases ht₁.symm.trans ht₂
  exact hagree.resolve_ahead hstock env.processedInput hahead t' hrest

end

/-- What a run whose events have integer coordinates releases plays through at its client exactly when
every final that is forced out at the end has a target within the samples that were delivered. -/
theorem anchors_play_through (config : Config) (ops : List Processor.Op)
    (hops : ∀ op ∈ ops, op.InScope) (emitFinal : Bool) (env : Processor.Remainder) :
    PlaysThrough config.sampleRate (released config ops emitFinal env) ↔
      (emitFinal = true → (drained config ops env).Settled) := by
  cases emitFinal with
  | false =>
      refine iff_of_true ?_ nofun
      have hnothing : released config ops false env = (({} : Processor).runOps config ops).1 :=
        List.append_nil _
      rw [hnothing]
      exact ((agree_init config.sampleRate).runOps stock_init hops).playsThrough
  | true =>
      refine ⟨fun hplays _ => ?_, fun hsettled => released_playsThrough hops (hsettled rfl)⟩
      by_contra hahead
      exact released_not_playsThrough hops hahead hplays

/-- A session that plays 24 kHz audio at 48 kHz, without a VAD. -/
def doubled : Config where
  sampleRate := 48000
  nativeSampleRate := 24000
  outputPosition n := 2 * n
  vadEnabled := false
  sampleRate_pos := by decide

/-- The text of a segment of two characters. -/
def twoCharacters : TextSpan := ⟨some 0, some 2, some 0, some 2⟩

/-- Two samples with a marker, of which the resampler gives `resampled`, and the segment's final. -/
def markedSegment (resampled : Nat) : List Processor.Op :=
  [.process ⟨2, 0, 1, some { textSpan := some twoCharacters }⟩ ⟨⟨0, []⟩, 0, resampled⟩,
    .event (.textProgress 0 { textSpan := some twoCharacters, alignmentFinal := true }) 0]

/-- The end of a run whose resampler has nothing left. -/
def nothingLeft : Processor.Remainder := ⟨⟨0, []⟩, 0, 0, 0⟩

theorem markedSegment_inScope (resampled : Nat) : ∀ op ∈ markedSegment resampled, op.InScope := by
  have hspan : ∀ span, some twoCharacters = some span → span.Integral := by
    rintro span ⟨⟩
    exact ⟨0, 2, 0, 2, rfl⟩
  intro op hop
  simp only [markedSegment, List.mem_cons, List.not_mem_nil, or_false] at hop
  obtain rfl | rfl := hop
  · rintro entries ⟨⟩
    exact hspan
  · exact ⟨hspan, rfl, .inl rfl⟩

/-- A resampler that gave all four samples: the session plays through. -/
theorem anchors_play_through_complete :
    PlaysThrough doubled.sampleRate (released doubled (markedSegment 4) true nothingLeft) :=
  (anchors_play_through doubled (markedSegment 4) (markedSegment_inScope 4) true nothingLeft).2
    fun _ final hfinal => by
      have hnone : (drained doubled (markedSegment 4) nothingLeft).pendingFinal = [] := by
        decide +kernel
      rw [hnone] at hfinal
      cases hfinal

/-- A resampler that gives three samples of the four that the segment's target counts: the final is
released at the fourth sample, and the client refuses it. -/
theorem final_ahead_of_audio :
    (∀ op ∈ markedSegment 3, op.InScope) ∧
      (drained doubled (markedSegment 3) nothingLeft).outputSampleCursor = 3 ∧
      ((drained doubled (markedSegment 3) nothingLeft).pendingFinal.map
        (drained doubled (markedSegment 3) nothingLeft).finalTarget) = [some 4] ∧
      ¬ PlaysThrough doubled.sampleRate (released doubled (markedSegment 3) true nothingLeft) := by
  have hcursor : (drained doubled (markedSegment 3) nothingLeft).outputSampleCursor = 3 := by
    decide +kernel
  have htargets : ((drained doubled (markedSegment 3) nothingLeft).pendingFinal.map
      (drained doubled (markedSegment 3) nothingLeft).finalTarget) = [some 4] := by
    decide +kernel
  refine ⟨markedSegment_inScope 3, hcursor, htargets,
    released_not_playsThrough (markedSegment_inScope 3) fun hsettled => ?_⟩
  obtain ⟨final, hfinal, htarget⟩ := List.mem_map.1 (htargets ▸ List.mem_cons_self)
  have hle := hsettled final hfinal 4 htarget
  rw [hcursor] at hle
  omega

end StreamingTts.Gateway.Output
