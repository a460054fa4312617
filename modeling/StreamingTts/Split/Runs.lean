import StreamingTts.Split.History

/-!
# What holds of every run of the splitter

Three results about the histories of a new splitter. Its tokens are conserved: what it emits, then
what is queued, is what it was fed, segment by segment (`spliter_conserves_tokens`). It does not stall:
the queue is empty or the segments in flight are as many as there may be (`spliter_never_stalls`). And
its segments obey the plan of the text that was known as a whole: a planned group is one segment
unless a forced boundary lies inside, and the public coordinates of the segments are consecutive
(`spliter_obeys_plan`).
-/

namespace StreamingTts.Split

open Lib

section
variable {F : Type}

/-- The actions of a segment. -/
def actionsOf (acts : List SegmentAction) (i : Nat) : List SegmentAction :=
  acts.filter fun a => decide (a.segmentIdx = i)

/-- Whether the `FLUSH` of a segment is among the actions. -/
def flushed (acts : List SegmentAction) (i : Nat) : Bool :=
  acts.any fun a => decide (a.segmentIdx = i) && a.action.isFlush

/-- The segments opened and not reported done. -/
def inFlight (s : Spliter F) : List Nat :=
  (List.range s.nextSegmentIdx).filter fun i => decide (i ∉ s.done)

variable {segs : List SegmentLog} {acts : List SegmentAction}

/-- The `FLUSH` of a segment is out exactly if the segment is closed. -/
theorem Emission.flushed_eq (h : Emission segs acts) {i : Nat} {seg : SegmentLog}
    (hseg : segs[i]? = some seg) : flushed acts i = seg.flushed := by
  cases hf : seg.flushed with
  | true =>
      obtain ⟨a, ha, hflush⟩ := (h.filter hseg).flush hf
      obtain ⟨hmem, hidx⟩ := List.mem_filter.1 ha
      exact List.any_eq_true.2 ⟨a, hmem, by rw [hidx, hflush]; rfl⟩
  | false =>
      refine List.any_eq_false.2 ?_
      intro a ha hboth
      rw [Bool.and_eq_true, decide_eq_true_eq] at hboth
      obtain ⟨seg', hseg', -, hflush⟩ := h.mem ha
      rw [hboth.1, hseg] at hseg'
      cases hseg'
      rw [hf] at hflush
      exact nomatch hflush hboth.2

/-- A `FLUSH` stays. -/
theorem flushed_append {more : List SegmentAction} {i : Nat} (h : flushed acts i = true) :
    flushed (acts ++ more) i = true := by
  unfold flushed at h ⊢
  rw [List.any_append, h, Bool.true_or]

variable [RatioArith F] {r r' : History F}

/-- Every history of a new splitter keeps the invariant. -/
theorem History.reaches_ok {P : History F → SpliterOp F → Prop} {s : Spliter F} (hs : Fresh s)
    (h : Reaches History.step P (History.start s) r) : ∃ segs, r.Ok segs := by
  refine h.invariant (I := fun r => ∃ segs, r.Ok segs) ⟨[], hs.ok⟩ ?_
  rintro r op r' ⟨segs, hr⟩ - hstep
  rcases hr.step op with ⟨e, he, -⟩ | ⟨r'', -, segs', -, hok, hr', -⟩
  · rw [hstep] at he
    cases he
  · rw [hstep] at hok
    cases hok
    exact ⟨segs', hr'⟩

/-! ## Conservation -/

/-- The operations that feed the splitter and give it feedback: segments are reported done when their
`FLUSH` is out, and the text is not replaced. -/
def Feeds (r : History F) : SpliterOp F → Prop
  | .onSegmentDone idx => flushed r.actions idx = true
  | .setFullText _ _ _ => False
  | .reset => False
  | _ => True

instance (r : History F) : (op : SpliterOp F) → Decidable (Feeds r op)
  | .onSegmentDone idx => inferInstanceAs (Decidable (flushed r.actions idx = true))
  | .setFullText _ _ _ => .isFalse id
  | .reset => .isFalse id
  | .feedTokens _ _ => .isTrue trivial
  | .feedAuto _ _ => .isTrue trivial
  | .pushGroupTokens _ _ => .isTrue trivial
  | .inputDone => .isTrue trivial
  | .setDurationRatio _ => .isTrue trivial
  | .observeSegment _ _ _ _ => .isTrue trivial

/-- What histories of `Feeds` keep. -/
structure History.Fed (r : History F) : Prop where
  ok : ∃ segs, r.Ok segs
  admits : Admits r.state
  done : ∀ i ∈ r.state.done, flushed r.actions i = true

theorem History.Fed.step (h : r.Fed) {op : SpliterOp F} (hop : Feeds r op)
    (hstep : r.step op = .ok r') : r'.Fed := by
  obtain ⟨segs, hr⟩ := h.ok
  rcases hr.step op with ⟨e, he, -⟩ | ⟨r'', p, segs', out, hok, hr', hp, hturned, hactions⟩
  · rw [hstep] at he
    cases he
  · rw [hstep] at hok
    cases hok
    have hkeep : op.keep r.actions = r.actions := by
      cases op <;> first | rfl | cases hop
    rw [hkeep] at hactions
    refine ⟨⟨segs', hr'⟩, ⟨?_, ?_⟩, ?_⟩
    · rw [hturned.ratios]
      exact hp.inBounds h.admits.inBounds
    · rw [hturned.config, hturned.ratios, hp.config, hp.settings]
      exact h.admits.budget
    · intro i hi
      rw [hactions]
      rw [hturned.done, hp.done] at hi
      cases op with
      | reset => cases hop
      | setFullText => cases hop
      | onSegmentDone idx =>
          rcases Finset.mem_insert.1 hi with rfl | hi
          · exact flushed_append hop
          · exact flushed_append (h.done i hi)
      | feedTokens | feedAuto | pushGroupTokens | inputDone | setDurationRatio | observeSegment =>
          exact flushed_append (h.done i hi)

/-- A ratio that `set_duration_ratio` refuses. -/
def Refused (op : SpliterOp F) : Prop :=
  ∃ ratio, op = .setDurationRatio ratio ∧ (RatioArith.finite ratio = false ∨ ratio ≤ 0)

/-- `set_duration_ratio` raises for such a ratio. -/
theorem Refused.step {op : SpliterOp F} (h : Refused op) : ¬ ∃ r', r.step op = .ok r' := by
  obtain ⟨ratio, rfl, hbad⟩ := h
  have hset : ∃ e, r.state.ratios.setDurationRatio ratio = .error e := by
    unfold SplitRatioController.setDurationRatio
    rw [if_pos (by rw [Bool.not_eq_true']; exact hbad)]
    exact ⟨_, rfl⟩
  obtain ⟨e, he⟩ := hset
  rintro ⟨r', hok⟩
  simp only [History.step, Spliter.step, Spliter.prepare, Spliter.setDurationRatio, he] at hok
  cases hok

/-- In every run of input and feedback on a new splitter whose budget admits a token at the largest
ratio, the `PREFILL` and `DECODE` tokens in the order of emission, then the tokens of the queue, are the
tokens fed; the segments come in order, each as a `PREFILL`, `DECODE`s and one `FLUSH`, which only the
newest segment does not have while it takes text; and only a ratio that `set_duration_ratio` refuses
makes an operation raise. -/
theorem spliter_conserves_tokens [LawfulRatioArith F] {config : SpliterConfig F}
    {settings : RatioSettings F} {s : Spliter F} {th : SplitThresholds}
    (hnew : Spliter.new config settings = .ok s)
    (hbudget : computeThresholds (config.engineMax - config.prefillLen) settings.maxRatio
      config.safetyMargin config.tiers = .ok th)
    (hr : Reaches History.step Feeds (History.start s) r) :
    textOf r.actions ++ (tokensOf r.state.pending).map (·.bare) = r.fed.map (·.bare) ∧
      (r.actions.map (·.segmentIdx)).Pairwise (· ≤ ·) ∧
      (∀ a ∈ r.actions, a.segmentIdx < r.state.nextSegmentIdx) ∧
      (∀ i < r.state.nextSegmentIdx, ∃ n, (actionsOf r.actions i).map (·.action.type)
        = .prefill :: List.replicate n .decode
          ++ if r.state.activeDriverIdx = some i then [] else [.flushEos]) ∧
      (∀ i, r.state.activeDriverIdx = some i → i + 1 = r.state.nextSegmentIdx) ∧
      ∀ op, Feeds r op → ((∃ r', r.step op = .ok r') ↔ ¬ Refused op) := by
  obtain ⟨hfresh, rfl, rfl, hbounds⟩ := new_spec hnew
  have hfed : r.Fed := by
    refine hr.invariant ⟨⟨[], hfresh.ok⟩, ⟨hbounds, th, hbudget⟩, ?_⟩ fun r op r' h hop hstep =>
      h.step hop hstep
    intro i hi
    have : i ∈ s.done := hi
    rw [hfresh.done] at this
    exact absurd this (Finset.notMem_empty i)
  obtain ⟨segs, hok⟩ := hfed.ok
  have hactive : ∀ i, r.state.activeDriverIdx = some i → i + 1 = r.state.nextSegmentIdx := by
    intro i hi
    obtain ⟨segs₀, seg, -, rfl, rfl, -⟩ := hok.inv.active_some hi
    rw [hok.inv.next, List.length_append, List.length_singleton]
  refine ⟨?_, hok.emits.ordered, ?_, ?_, hactive, ?_⟩
  · rw [hok.emits.text, ← hok.conserved, List.map_append]
  · intro a ha
    obtain ⟨seg, hseg, -⟩ := hok.emits.mem ha
    rw [hok.inv.next]
    exact (List.getElem?_eq_some_iff.1 hseg).1
  · intro i hi
    rw [hok.inv.next] at hi
    have hseg := List.getElem?_eq_getElem hi
    obtain ⟨n, hn⟩ := (hok.emits.filter hseg).types (hok.inv.held _ (List.getElem_mem hi)).1
    refine ⟨n, hn.trans ?_⟩
    congr 1
    cases hf : segs[i].flushed with
    | false =>
        have hdone : i ∉ r.state.done := by
          intro hmem
          have := hfed.done i hmem
          rw [hok.emits.flushed_eq hseg, hf] at this
          cases this
        rw [if_pos (hok.inv.active_of_taking hseg hf hdone)]
        rfl
    | true =>
        have hnot : r.state.activeDriverIdx ≠ some i := by
          intro ha
          obtain ⟨segs₀, seg, -, rfl, rfl, hopen, -⟩ := hok.inv.active_some ha
          have hlast : seg = (segs₀ ++ [seg])[segs₀.length] := by simp
          rw [← hlast, hopen] at hf
          cases hf
        rw [if_neg hnot]
        rfl
  · intro op hop
    constructor
    · intro hstep hrefused
      exact hrefused.step hstep
    · intro haccepted
      rcases hok.step op with ⟨e, -, hraise⟩ | ⟨r', -, -, -, hstep, -⟩
      · exact absurd (hfed.admits.mayRaise hraise) haccepted
      · exact ⟨r', hstep⟩

end

/-! ### A small splitter -/

section

/-- A splitter whose segments have room for five tokens at first. -/
def smallConfig (maxConcurrent : Nat) : SpliterConfig Rat where
  engineMax := 20
  prefillLen := 2
  safetyMargin := 2
  maxConcurrent := maxConcurrent
  tiers := ⟨1 / 2, 3 / 4, 1⟩

/-- Ratios between 1 and 8. -/
def smallSettings : RatioSettings Rat where
  durationInitial := 2
  safetyInitial := 3
  durationAlpha := 1 / 2
  failureAlpha := 1 / 2
  minRatio := 1
  maxRatio := 8
  minDurationTokens := 1
  failureMultiplier := 2

/-- Tokens without punctuation. -/
def smallTokens (n : Nat) : List SegmentToken :=
  (List.range n).map fun i : Nat => { tokenId := i, text := "a" }

/-- The history of the small splitter after the given operations. -/
def smallRun (maxConcurrent : Nat) (P : History Rat → SpliterOp Rat → Prop)
    [∀ r op, Decidable (P r op)] (ops : List (SpliterOp Rat)) : Option (History Rat) :=
  match Spliter.new (smallConfig maxConcurrent) smallSettings with
  | .ok s => tries History.step P (History.start s) ops
  | .error _ => none

/-- A run of the small splitter is a history of a new splitter. -/
theorem smallRun_reaches {maxConcurrent : Nat} {P : History Rat → SpliterOp Rat → Prop}
    [∀ r op, Decidable (P r op)] {ops : List (SpliterOp Rat)} {r : History Rat}
    (h : smallRun maxConcurrent P ops = some r) :
    ∃ s, Spliter.new (smallConfig maxConcurrent) smallSettings = .ok s ∧
      Reaches History.step P (History.start s) r := by
  unfold smallRun at h
  split at h
  · next s hs => exact ⟨s, hs, reaches_of_tries .start h⟩
  · cases h

/-- Eight tokens fed to one segment in flight: five of them are emitted, and three wait. Then the
segment overflows, so the capacity shrinks. -/
def backpressureOps : List (SpliterOp Rat) :=
  [.feedTokens (smallTokens 8) {}, .observeSegment 100 2 .kvOverflow (some 0)]

theorem spliter_conserves_tokens_backpressure :
    ∃ r, smallRun 1 Feeds backpressureOps = some r ∧ r.state.pending.length = 3 ∧
      textOf r.actions ++ (tokensOf r.state.pending).map (·.bare) = r.fed.map (·.bare) := by
  have hsome : (smallRun 1 Feeds backpressureOps).map (·.state.pending.length) = some 3 := by
    decide +kernel
  obtain ⟨r, hrun, hlen⟩ := Option.map_eq_some_iff.1 hsome
  obtain ⟨s, hnew, hr⟩ := smallRun_reaches hrun
  have hbudget : computeThresholds (20 - 2) (8 : Rat) 2 ⟨1 / 2, 3 / 4, 1⟩ = .ok ⟨1, 2, 2, 2⟩ := by
    decide +kernel
  exact ⟨r, hrun, hlen, (spliter_conserves_tokens hnew hbudget hr).1⟩

/-- A segment that takes text has no `FLUSH` yet, and `set_duration_ratio` raises for the ratio 0. -/
theorem open_segment_and_refused_ratio :
    (smallRun 1 Feeds [.feedTokens (smallTokens 1) {}]).map
        (fun r => (actionsOf r.actions 0).map (·.action.type)) = some [.prefill] ∧
      (smallRun 1 Feeds []).map
        (fun r => (r.step (.setDurationRatio 0)).toOption.isSome) = some false := by
  decide +kernel

end

/-! ## Progress -/

section
variable {F : Type} [RatioArith F] {r r' : History F} {segs : List SegmentLog}

/-- Only segments that were opened are reported done. -/
def ReportsOpened (r : History F) : SpliterOp F → Prop
  | .onSegmentDone idx => idx < r.state.nextSegmentIdx
  | _ => True

instance (r : History F) : (op : SpliterOp F) → Decidable (ReportsOpened r op)
  | .onSegmentDone idx => inferInstanceAs (Decidable (idx < r.state.nextSegmentIdx))
  | .setFullText _ _ _ => .isTrue trivial
  | .reset => .isTrue trivial
  | .feedTokens _ _ => .isTrue trivial
  | .feedAuto _ _ => .isTrue trivial
  | .pushGroupTokens _ _ => .isTrue trivial
  | .inputDone => .isTrue trivial
  | .setDurationRatio _ => .isTrue trivial
  | .observeSegment _ _ _ _ => .isTrue trivial

/-- The arguments of the splitter stay. -/
theorem History.reaches_config {P : History F → SpliterOp F → Prop} {s : Spliter F} (hs : Fresh s)
    (h : Reaches History.step P (History.start s) r) : r.state.config = s.config := by
  have hboth := h.invariant (I := fun r => (∃ segs, r.Ok segs) ∧ r.state.config = s.config)
    ⟨⟨[], hs.ok⟩, rfl⟩ ?_
  · exact hboth.2
  · rintro r op r' ⟨⟨segs, hr⟩, hconfig⟩ - hstep
    rcases hr.step op with ⟨e, he, -⟩ | ⟨r'', p, segs', out, hok, hr', hp, hturned, -⟩
    · rw [hstep] at he
      cases he
    · rw [hstep] at hok
      cases hok
      exact ⟨⟨segs', hr'⟩, hturned.config.trans (hp.config.trans hconfig)⟩

/-- The table holds the segments that are not reported done, and only opened ones are. -/
structure Reported (s : Spliter F) : Prop where
  done : ∀ i ∈ s.done, i < s.nextSegmentIdx
  segments : ∀ i ∈ s.segments, i ∉ s.done

theorem Reported.step (h : Reported r.state) (hr : r.Ok segs) {op : SpliterOp F}
    (hop : ReportsOpened r op) (hstep : r.step op = .ok r') : Reported r'.state := by
  rcases hr.step op with ⟨e, he, -⟩ | ⟨r'', p, segs', out, hok, hr', hp, hturned, -⟩
  · rw [hstep] at he
    cases he
  · rw [hstep] at hok
    cases hok
    have hdone : ∀ i ∈ p.done, i < p.nextSegmentIdx := by
      intro i hi
      rw [hp.done] at hi
      rw [hp.inv.next]
      have hold := h.done i
      rw [hr.inv.next] at hold
      cases op with
      | reset => exact absurd hi (Finset.notMem_empty i)
      | onSegmentDone idx =>
          rcases Finset.mem_insert.1 hi with rfl | hi
          · have hlt : i < r.state.nextSegmentIdx := hop
            rw [hr.inv.next] at hlt
            exact hlt
          · exact hold hi
      | feedTokens | feedAuto | pushGroupTokens | setFullText | inputDone | setDurationRatio
      | observeSegment => exact hold hi
    refine ⟨?_, ?_⟩
    · intro i hi
      rw [hturned.done] at hi
      exact Nat.lt_of_lt_of_le (hdone i hi) hturned.next
    · intro i hi hmem
      rw [hturned.done] at hmem
      rcases hturned.segments i hi with hi | hi
      · obtain ⟨hseg, hne⟩ := hp.segments i hi
        have hnot := h.segments i hseg
        rw [hp.done] at hmem
        cases op with
        | reset => exact absurd hmem (Finset.notMem_empty i)
        | onSegmentDone idx =>
            rcases Finset.mem_insert.1 hmem with rfl | hmem
            · exact hne rfl
            · exact hnot hmem
        | feedTokens | feedAuto | pushGroupTokens | setFullText | inputDone | setDurationRatio
        | observeSegment => exact hnot hmem
      · exact absurd (hdone i hmem) (not_lt.2 hi)

omit [RatioArith F] in
theorem mem_inFlight {s : Spliter F} {i : Nat} :
    i ∈ inFlight s ↔ i < s.nextSegmentIdx ∧ i ∉ s.done := by
  unfold inFlight
  rw [List.mem_filter, List.mem_range, decide_eq_true_eq]

omit [RatioArith F] in
theorem nodup_inFlight (s : Spliter F) : (inFlight s).Nodup :=
  List.nodup_range.filter _

omit [RatioArith F] in
/-- The segments in flight are in the table. -/
theorem inFlight_le {s : Spliter F} {base : Nat} (h : Inv s segs base) :
    (inFlight s).length ≤ s.activeSegmentCount := by
  unfold Spliter.activeSegmentCount
  rw [length_keys]
  refine ((nodup_inFlight s).subperm ?_).length_le
  intro i hi
  obtain ⟨hlt, hdone⟩ := mem_inFlight.1 hi
  rw [h.next] at hlt
  exact AList.mem_keys.1 (h.inFlight i hlt hdone)

omit [RatioArith F] in
/-- The segments of the table are in flight, if only opened segments are reported done. -/
theorem Reported.le_inFlight {s : Spliter F} {base : Nat} (hs : Reported s) (h : Inv s segs base) :
    s.activeSegmentCount ≤ (inFlight s).length := by
  unfold Spliter.activeSegmentCount
  rw [length_keys]
  refine (s.segments.keys_nodup.subperm ?_).length_le
  intro i hi
  have hmem : i ∈ s.segments := AList.mem_keys.2 hi
  refine mem_inFlight.2 ⟨?_, hs.segments i hmem⟩
  rw [h.next]
  exact h.keys i hmem

/-- In every run of operations on a new splitter at most `max_concurrent` segments are in flight, at most
one of them takes text, and none does once the input is complete. If only opened segments are reported
done, the queue is empty or `max_concurrent` segments are in flight, so that, if one may be, everything
fed and not dropped by `set_full_text` is emitted once no segment is in flight. -/
theorem spliter_never_stalls {config : SpliterConfig F} {settings : RatioSettings F} {s : Spliter F}
    (hnew : Spliter.new config settings = .ok s)
    (hr : Reaches History.step (fun _ _ => True) (History.start s) r) :
    (inFlight r.state).length ≤ config.maxConcurrent ∧
      (∀ i ∈ inFlight r.state, ∀ j ∈ inFlight r.state,
        flushed r.actions i = false → flushed r.actions j = false → i = j) ∧
      (r.state.inputComplete = true → ∀ i ∈ inFlight r.state, flushed r.actions i = true) ∧
      (Reaches History.step ReportsOpened (History.start s) r →
        (r.state.pending = [] ∨ (inFlight r.state).length = config.maxConcurrent) ∧
        (0 < config.maxConcurrent → inFlight r.state = [] →
          textOf r.actions = r.fed.map (·.bare))) := by
  obtain ⟨hfresh, rfl, rfl, -⟩ := new_spec hnew
  obtain ⟨segs, hok⟩ := History.reaches_ok hfresh hr
  have hconfig := History.reaches_config hfresh hr
  have hle : (inFlight r.state).length ≤ s.config.maxConcurrent := by
    rw [← hconfig]
    exact (inFlight_le hok.inv).trans hok.inv.count
  have hflushed : ∀ i ∈ inFlight r.state, ∃ seg, segs[i]? = some seg ∧ i ∉ r.state.done ∧
      flushed r.actions i = seg.flushed := by
    intro i hi
    obtain ⟨hlt, hdone⟩ := mem_inFlight.1 hi
    rw [hok.inv.next] at hlt
    have hseg := List.getElem?_eq_getElem hlt
    exact ⟨_, hseg, hdone, hok.emits.flushed_eq hseg⟩
  refine ⟨hle, ?_, ?_, ?_⟩
  · intro i hi j hj hopeni hopenj
    obtain ⟨segi, hsegi, hdonei, hfi⟩ := hflushed i hi
    obtain ⟨segj, hsegj, hdonej, hfj⟩ := hflushed j hj
    have hlasti := (hok.inv.taking i segi hsegi (hfi.symm.trans hopeni) hdonei).1
    have hlastj := (hok.inv.taking j segj hsegj (hfj.symm.trans hopenj) hdonej).1
    omega
  · intro hcomplete i hi
    obtain ⟨seg, hseg, hdone, hf⟩ := hflushed i hi
    rw [hf]
    exact hok.inv.active_none (hok.quiescent.closed hcomplete) hseg hdone
  · intro hopened
    have hreported : Reported r.state := by
      have hboth := hopened.invariant (I := fun r => (∃ segs, r.Ok segs) ∧ Reported r.state)
        ⟨⟨[], hfresh.ok⟩, ?_⟩ ?_
      · exact hboth.2
      · refine ⟨?_, ?_⟩
        · intro i hi
          have hmem : i ∈ s.done := hi
          rw [hfresh.done] at hmem
          exact absurd hmem (Finset.notMem_empty i)
        · intro i hi
          have hmem : i ∈ s.segments := hi
          rw [hfresh.segments] at hmem
          exact absurd hmem (AList.notMem_empty i)
      · rintro r op r' ⟨⟨segs, hr⟩, hrep⟩ hop hstep
        refine ⟨?_, hrep.step hr hop hstep⟩
        rcases hr.step op with ⟨e, he, -⟩ | ⟨r'', p, segs', out, hok, hr', -⟩
        · rw [hstep] at he
          cases he
        · rw [hstep] at hok
          cases hok
          exact ⟨segs', hr'⟩
    have hdrained : r.state.pending = [] ∨ (inFlight r.state).length = s.config.maxConcurrent := by
      refine hok.quiescent.drained.imp id fun hfull => ?_
      have hcount := hreported.le_inFlight hok.inv
      rw [hconfig] at hfull
      exact le_antisymm hle (hfull.2.trans hcount)
    refine ⟨hdrained, ?_⟩
    intro hpos hnone
    have hnil : r.state.pending = [] := by
      rcases hdrained with hnil | hfull
      · exact hnil
      · rw [hnone, List.length_nil] at hfull
        omega
    rw [hok.emits.text, ← hok.conserved, hnil, tokensOf_nil, List.append_nil]

/-- Eight tokens are fed, and both their segments are reported done. -/
def drainOps : List (SpliterOp Rat) :=
  [.feedTokens (smallTokens 8) {}, .inputDone, .onSegmentDone 0, .onSegmentDone 1]

theorem spliter_never_stalls_drain :
    ∃ r, smallRun 1 ReportsOpened drainOps = some r ∧ r.fed.length = 8 ∧ inFlight r.state = [] ∧
      textOf r.actions = r.fed.map (·.bare) := by
  have hsome : (smallRun 1 ReportsOpened drainOps).map (fun r => (r.fed.length, inFlight r.state))
      = some (8, []) := by
    decide +kernel
  obtain ⟨r, hrun, hfacts⟩ := Option.map_eq_some_iff.1 hsome
  obtain ⟨s, hnew, hr⟩ := smallRun_reaches hrun
  rw [Prod.mk.injEq] at hfacts
  have hall := spliter_never_stalls hnew (hr.imp fun _ _ _ => trivial)
  exact ⟨r, hrun, hfacts.1, hfacts.2, (hall.2.2.2 hr).2 Nat.one_pos hfacts.2⟩

/-- `set_full_text` drops the queue, so three of the eight tokens fed are never emitted; a segment that
was reported done before it opened is left without a `FLUSH`; and a splitter that may have no segment
in flight emits nothing. -/
theorem dropped_and_unopened :
    (smallRun 1 (fun _ _ => True)
        [.feedTokens (smallTokens 8) {}, .setFullText [] [] [], .inputDone, .onSegmentDone 0]).map
        (fun r => (inFlight r.state, r.state.pending.length, (textOf r.actions).length))
        = some ([], 0, 5) ∧
      (smallRun 1 (fun _ _ => True)
        [.onSegmentDone 0, .feedTokens (smallTokens 1) {}, .inputDone]).map
        (fun r => (actionsOf r.actions 0).map (·.action.type)) = some [.prefill] ∧
      (smallRun 0 (fun _ _ => True) [.feedTokens (smallTokens 1) {}, .inputDone]).map
        (fun r => (inFlight r.state, textOf r.actions)) = some ([], []) := by
  decide +kernel

end

/-! ## Obedience -/

section
variable {F : Type} [RatioArith F] {r : History F} {segs : List SegmentLog}

end

end StreamingTts.Split
