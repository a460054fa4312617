import StreamingTts.Split.Events

/-!
# The operations of the splitter

What each operation does before it drives the queue: input joins the queue at its end, feedback plans
the queue again without moving a token, a segment that is done leaves the table, and `set_full_text`
and `reset` begin anew. Every operation keeps the invariant. Besides `set_duration_ratio`, which
checks its argument, an operation raises only where thresholds cannot be computed; with a budget that
admits a token at the largest ratio this does not happen (`Admits`).
-/

namespace StreamingTts.Split

section
variable {F : Type} {s : Spliter F} {segs : List SegmentLog} {base : Nat}

/-! ## Marks -/

theorem PendingToken.Marked.trans {a b c : PendingToken F} (h : a.Marked b) (h' : b.Marked c) :
    a.Marked c :=
  ⟨h'.1.trans h.1, h'.2.1.trans h.2.1, h'.2.2.1.trans h.2.2.1, fun hb => h'.2.2.2 (h.2.2.2 hb)⟩

theorem marked_refl (l : List (PendingToken F)) : List.Forall₂ PendingToken.Marked l l :=
  List.forall₂_same.2 fun pt _ => PendingToken.Marked.refl pt

theorem marked_trans {a b c : List (PendingToken F)} (h : List.Forall₂ PendingToken.Marked a b)
    (h' : List.Forall₂ PendingToken.Marked b c) : List.Forall₂ PendingToken.Marked a c := by
  induction h generalizing c with
  | nil => exact h'
  | cons hab _ ih =>
      cases h' with
      | cons hbc hrest => exact .cons (hab.trans hbc) (ih hrest)

/-- A mark on one token. -/
theorem setMark_marked {mark : PendingToken F → PendingToken F} (hmark : ∀ pt, PendingToken.Marked pt (mark pt))
    (tokens : List (PendingToken F)) (i : Int) :
    List.Forall₂ PendingToken.Marked tokens (Spliter.setMark mark tokens i) := by
  have hmodify : ∀ n, List.Forall₂ PendingToken.Marked tokens (tokens.modify n mark) := by
    intro n
    induction tokens generalizing n with
    | nil =>
        rw [List.modify_nil]
        exact .nil
    | cons pt tokens ih =>
        cases n with
        | zero => exact .cons (hmark pt) (marked_refl tokens)
        | succ n => exact .cons (PendingToken.Marked.refl pt) (ih n)
  unfold Spliter.setMark
  split
  · exact hmodify _
  · exact marked_refl tokens

theorem setMarks_marked {mark : PendingToken F → PendingToken F} (hmark : ∀ pt, PendingToken.Marked pt (mark pt))
    (tokens : List (PendingToken F)) (is : List Int) :
    List.Forall₂ PendingToken.Marked tokens (is.foldl (Spliter.setMark mark) tokens) := by
  induction is generalizing tokens with
  | nil => exact marked_refl tokens
  | cons i is ih => exact marked_trans (setMark_marked hmark tokens i) (ih _)

theorem markBefore_marked (pt : PendingToken F) : pt.Marked (Spliter.markBefore pt) :=
  ⟨rfl, rfl, rfl, id⟩

theorem markAfter_marked (pt : PendingToken F) : pt.Marked (Spliter.markAfter pt) :=
  ⟨rfl, rfl, rfl, fun _ => rfl⟩

/-- The boundary arguments of an input operation only mark the tokens. -/
theorem applyMarks_marked (m : BoundaryMarks) (added : List (PendingToken F)) :
    List.Forall₂ PendingToken.Marked added (Spliter.applyMarks m added) := by
  have hbefore : ∀ added : List (PendingToken F), List.Forall₂ PendingToken.Marked added
      (if m.forceBoundaryBefore then Spliter.setMark Spliter.markBefore added 0 else added) := by
    intro added
    split
    · exact setMark_marked markBefore_marked added 0
    · exact marked_refl added
  have hafter : ∀ added : List (PendingToken F), List.Forall₂ PendingToken.Marked added
      (if m.forceBoundary then Spliter.setMark Spliter.markAfter added ((added.length : Int) - 1)
        else added) := by
    intro added
    split
    · exact setMark_marked markAfter_marked added _
    · exact marked_refl added
  exact marked_trans (hbefore added) (marked_trans (hafter _)
    (marked_trans (setMarks_marked markBefore_marked _ _) (setMarks_marked markAfter_marked _ _)))

/-! ## Input -/

/-- An operation that changes the queue, and perhaps the ratios, but no segment. -/
structure Requeued (s p : Spliter F) : Prop where
  queue : Queue 0 s.nextGroupKey s.pending → Queue 0 p.nextGroupKey p.pending
  nextOutputGroupIdx : p.nextOutputGroupIdx = s.nextOutputGroupIdx
  segments : p.segments = s.segments
  nextSegmentIdx : p.nextSegmentIdx = s.nextSegmentIdx
  groupNextLocal : p.groupNextLocal = s.groupNextLocal
  groupOutputIdx : p.groupOutputIdx = s.groupOutputIdx
  flushing : p.flushing = s.flushing
  done : p.done = s.done
  config : p.config = s.config

theorem Requeued.inv {p : Spliter F} (hr : Requeued s p) (h : Inv s segs base) : Inv p segs base := by
  have hcount : p.activeSegmentCount = s.activeSegmentCount := by
    unfold Spliter.activeSegmentCount
    rw [hr.segments]
  refine ⟨?_, hr.queue h.queue, ?_, ?_, ?_, ?_, ?_, h.held, ?_, ?_, ?_⟩
  · rw [hr.nextSegmentIdx]
    exact h.next
  · rw [hr.groupNextLocal, hr.groupOutputIdx]
    exact h.noFragments
  · rw [hr.segments]
    exact h.keys
  · rw [hr.segments, hr.done]
    exact h.inFlight
  · rw [hr.flushing, hr.done]
    exact h.flushing
  · rw [hr.segments, hr.done]
    exact h.taking
  · rw [hr.segments]
    exact h.frozen
  · rw [hcount, hr.config]
    exact h.count
  · rw [hr.nextOutputGroupIdx]
    exact h.numbering

theorem Requeued.active {p : Spliter F} (hr : Requeued s p) :
    p.activeDriverIdx = s.activeDriverIdx := by
  unfold Spliter.activeDriverIdx
  rw [hr.nextSegmentIdx, hr.flushing, hr.done]

theorem queue_stream {lo hi : Nat} (tokens : List SegmentToken) :
    Queue lo hi (Spliter.streamPending tokens : List (PendingToken F)) := by
  induction tokens with
  | nil => exact .nil
  | cons token tokens ih => exact .stream rfl ih

theorem tokensOf_stream (tokens : List SegmentToken) :
    tokensOf (Spliter.streamPending tokens : List (PendingToken F)) = tokens := by
  induction tokens with
  | nil => rfl
  | cons token tokens ih => exact congrArg (token :: ·) ih

/-- Streaming tokens join the queue at its end. -/
theorem enqueueStream_spec (s : Spliter F) (tokens : List SegmentToken) (m : BoundaryMarks) :
    Requeued s (s.enqueueStream tokens m) ∧ (s.enqueueStream tokens m).ratios = s.ratios ∧
      (s.enqueueStream tokens m).inputComplete = s.inputComplete ∧
      tokensOf (s.enqueueStream tokens m).pending = tokensOf s.pending ++ tokens := by
  have hmarked := applyMarks_marked (F := F) m (Spliter.streamPending tokens)
  refine ⟨⟨?_, rfl, rfl, rfl, rfl, rfl, rfl, rfl, rfl⟩, rfl, rfl, ?_⟩
  · intro hqueue
    exact hqueue.append ((queue_stream tokens).marked hmarked) (Nat.zero_le _) (Nat.le_refl _)
  · show tokensOf (s.pending ++ Spliter.applyMarks m (Spliter.streamPending tokens)) = _
    rw [tokensOf_append, tokensOf_marked hmarked, tokensOf_stream]

variable [RatioArith F]

/-- Planned groups join the queue at its end; this raises only where the thresholds of the plan cannot
be computed. -/
theorem enqueuePresplitGroups_spec (s : Spliter F) (tokens : List SegmentToken) (m : BoundaryMarks) :
    (∃ e, s.makeThresholds = .error e ∧ s.enqueuePresplitGroups tokens m = .error e) ∨
      ∃ p, s.enqueuePresplitGroups tokens m = .ok p ∧ Requeued s p ∧ p.ratios = s.ratios ∧
        p.inputComplete = s.inputComplete ∧ tokensOf p.pending = tokensOf s.pending ++ tokens := by
  unfold Spliter.enqueuePresplitGroups Spliter.makePresplitPlan
  cases hth : s.makeThresholds with
  | error e => exact .inl ⟨e, rfl, rfl⟩
  | ok th =>
      right
      obtain ⟨built, key, hok, hle, hqueue, htokens⟩ := buildPlannedPending_queue
        { id := s.nextPlanId, safetyRatio := s.ratios.safetyRatio, thresholds := th } tokens
        s.nextGroupKey (computeThresholds_pos hth)
      have hmarked := applyMarks_marked m built
      refine ⟨{ s with
        pending := s.pending ++ Spliter.applyMarks m built
        nextGroupKey := key
        nextPlanId := s.nextPlanId + 1 }, ?_, ⟨?_, rfl, rfl, rfl, rfl, rfl, rfl, rfl, rfl⟩, rfl, rfl, ?_⟩
      · simp only [Except.bind, bind, hok]
      · intro hs
        exact hs.append (hqueue.marked hmarked) (Nat.zero_le _) hle
      · show tokensOf (s.pending ++ Spliter.applyMarks m built) = _
        rw [tokensOf_append, tokensOf_marked hmarked, htokens]

/-- The input of `feed_auto` raises only where thresholds cannot be computed. -/
theorem Inv.enqueueAuto (h : Inv s segs base) (tokens : List SegmentToken) (m : BoundaryMarks) :
    (∃ e e', s.makeThresholds = .error e ∧ s.enqueueAuto tokens m = .error e') ∨
      ∃ p, s.enqueueAuto tokens m = .ok p ∧ Requeued s p ∧ p.ratios = s.ratios ∧
        p.inputComplete = s.inputComplete ∧ tokensOf p.pending = tokensOf s.pending ++ tokens := by
  unfold Spliter.enqueueAuto
  cases tokens with
  | nil =>
      refine .inr ⟨s, rfl, ⟨id, rfl, rfl, rfl, rfl, rfl, rfl, rfl, rfl⟩, rfl, rfl, ?_⟩
      rw [List.append_nil]
  | cons token tokens =>
      have hroom : (∃ e, s.makeThresholds = .error e ∧ s.autoRoom = .error e) ∨
          ∃ room, s.autoRoom = .ok room := by
        unfold Spliter.autoRoom
        cases ha : s.activeDriverIdx with
        | none =>
            cases hth : s.makeThresholds with
            | error e => exact .inl ⟨e, rfl, rfl⟩
            | ok th => exact .inr ⟨_, rfl⟩
        | some idx =>
            obtain ⟨-, -, entry, -, -, -, -, hlookup, -⟩ := h.active_some ha
            simp only [hlookup]
            exact .inr ⟨_, rfl⟩
      rw [List.isEmpty_cons, if_neg (by simp)]
      rcases hroom with ⟨e, hth, he⟩ | ⟨room, hok⟩
      · exact .inl ⟨e, e, hth, by rw [he]; rfl⟩
      · rw [hok]
        simp only [Except.bind, bind]
        split
        · rcases enqueuePresplitGroups_spec s (token :: tokens) m with ⟨e, hth, he⟩ | hspec
          · exact .inl ⟨e, e, hth, he⟩
          · exact .inr hspec
        · exact .inr ⟨_, rfl, enqueueStream_spec s (token :: tokens) m⟩

/-! ## Feedback -/

/-- Planning the queue again keeps its tokens; it raises only where the thresholds of the plan cannot be
computed. -/
theorem tighten_spec {s : Spliter F} (hqueue : Queue 0 s.nextGroupKey s.pending) :
    (∃ e, s.makeThresholds = .error e ∧ s.tightenPendingPresplitPlans = .error e) ∨
      ∃ p, s.tightenPendingPresplitPlans = .ok p ∧ Requeued s p ∧ p.ratios = s.ratios ∧
        p.inputComplete = s.inputComplete ∧ tokensOf p.pending = tokensOf s.pending := by
  unfold Spliter.tightenPendingPresplitPlans Spliter.makePresplitPlan
  split
  · exact .inr ⟨s, rfl, ⟨id, rfl, rfl, rfl, rfl, rfl, rfl, rfl, rfl⟩, rfl, rfl, rfl⟩
  · cases hth : s.makeThresholds with
    | error e => exact .inl ⟨e, rfl, rfl⟩
    | ok th =>
        right
        simp only [Except.bind, bind]
        split
        · exact ⟨_, rfl, ⟨id, rfl, rfl, rfl, rfl, rfl, rfl, rfl, rfl⟩, rfl, rfl, rfl⟩
        · have hcap : 1 ≤ PresplitPlan.cap
              { id := s.nextPlanId, safetyRatio := s.ratios.safetyRatio, thresholds := th } :=
            computeThresholds_pos hth
          obtain ⟨out, key, planId, hok, -, hout, htokens⟩ := replan_queue hcap s.pending.length
            (s.nextPlanId + 1) ((s.pending.filterMap (·.groupKey)).foldl min
              ((s.pending.filterMap (·.groupKey)).headD 0)) hqueue (Nat.le_refl _)
          rw [hok]
          refine ⟨_, rfl, ⟨fun _ => ?_, rfl, rfl, rfl, rfl, rfl, rfl, rfl, rfl⟩, rfl, rfl, htokens⟩
          exact hout.mono (Nat.zero_le _) (Nat.le_max_right _ _)

/-- A change of the ratios, after which the queue is planned again if it has to be. -/
theorem retighten_spec (h : Inv s segs base) (ratios : SplitRatioController F) (tightened : Prop)
    [Decidable tightened] :
    (∃ e, ({ s with ratios := ratios } : Spliter F).makeThresholds = .error e ∧
        (if tightened then ({ s with ratios := ratios } : Spliter F).tightenPendingPresplitPlans
          else .ok { s with ratios := ratios }) = .error e) ∨
      ∃ p, (if tightened then ({ s with ratios := ratios } : Spliter F).tightenPendingPresplitPlans
          else .ok { s with ratios := ratios }) = .ok p ∧
        Requeued s p ∧ p.ratios = ratios ∧ p.inputComplete = s.inputComplete ∧
        tokensOf p.pending = tokensOf s.pending := by
  split
  · rcases tighten_spec (s := { s with ratios := ratios }) h.queue with herr | ⟨p, hok, hr, hrest⟩
    · exact .inl herr
    · exact .inr ⟨p, hok, ⟨hr.queue, hr.nextOutputGroupIdx, hr.segments, hr.nextSegmentIdx,
        hr.groupNextLocal, hr.groupOutputIdx, hr.flushing, hr.done, hr.config⟩, hrest⟩
  · exact .inr ⟨_, rfl, ⟨id, rfl, rfl, rfl, rfl, rfl, rfl, rfl, rfl⟩, rfl, rfl, rfl⟩

/-! ## Segments that are done -/

omit [RatioArith F] in
/-- A segment that is reported done leaves the table. -/
theorem Inv.releaseSegment (h : Inv s segs base) (idx : Nat) :
    Inv (s.releaseSegment idx) segs base := by
  unfold Spliter.releaseSegment
  refine ⟨h.next, h.queue, h.noFragments, ?_, ?_, ?_, ?_, h.held, ?_, ?_, h.numbering⟩
  · intro i hi
    exact h.keys i (AList.mem_erase.1 hi).2
  · intro i hlt hi
    rw [Finset.mem_insert, not_or] at hi
    exact AList.mem_erase.2 ⟨hi.1, h.inFlight i hlt hi.2⟩
  · intro i hi
    rw [Finset.mem_insert, not_or] at hi
    rw [Finset.mem_erase, ← h.flushing i hi.2]
    exact and_iff_right hi.1
  · intro i seg hseg hopen hi
    rw [Finset.mem_insert, not_or] at hi
    obtain ⟨hlast, entry, hlookup, hentry⟩ := h.taking i seg hseg hopen hi.2
    refine ⟨hlast, entry, ?_, hentry⟩
    rw [AList.lookup_erase_ne hi.1]
    exact hlookup
  · intro i seg entry hseg hlookup
    rcases eq_or_ne i idx with rfl | hne
    · rw [AList.lookup_erase] at hlookup
      cases hlookup
    · rw [AList.lookup_erase_ne hne] at hlookup
      exact h.frozen i seg entry hseg hlookup
  · exact length_erase_le.trans h.count

/-! ## Beginning anew -/

/-- A splitter without segments and with an empty queue. -/
structure Fresh (s : Spliter F) : Prop where
  pending : s.pending = []
  nextOutputGroupIdx : s.nextOutputGroupIdx = 0
  inputComplete : s.inputComplete = false
  segments : s.segments = ∅
  nextSegmentIdx : s.nextSegmentIdx = 0
  groups : s.groupNextLocal = ∅ ∧ s.groupOutputIdx = ∅
  flushing : s.flushing = ∅
  done : s.done = ∅

omit [RatioArith F] in
theorem Fresh.inv (h : Fresh s) : Inv s [] 0 := by
  refine ⟨h.nextSegmentIdx, ?_, h.groups, ?_, ?_, ?_, ?_, ?_, ?_, ?_, ?_⟩
  · rw [h.pending]
    exact .nil
  · intro i hi
    rw [h.segments] at hi
    exact absurd hi (AList.notMem_empty i)
  · intro i hi
    cases hi
  · intro i _
    rw [h.flushing]
    simp
  · intro i seg hseg
    simp at hseg
  · intro seg hseg
    cases hseg
  · intro i seg entry hseg
    simp at hseg
  · unfold Spliter.activeSegmentCount
    rw [h.segments]
    exact Nat.zero_le _
  · refine ⟨Nat.le_refl _, h.nextOutputGroupIdx, ?_⟩
    intro i seg hseg
    simp at hseg

omit [RatioArith F] in
/-- Nothing is left to do at the start. -/
theorem Fresh.quiescent (h : Fresh s) : Quiescent s := by
  have hactive : s.activeDriverIdx = none := by
    unfold Spliter.activeDriverIdx
    rw [h.nextSegmentIdx]
    rfl
  exact ⟨fun _ => hactive, .inl h.pending⟩

theorem fresh_reset (s : Spliter F) : Fresh s.reset :=
  ⟨rfl, rfl, rfl, rfl, rfl, ⟨rfl, rfl⟩, rfl, rfl⟩

/-- A new splitter. -/
theorem new_spec {config : SpliterConfig F} {settings : RatioSettings F}
    (h : Spliter.new config settings = .ok s) :
    Fresh s ∧ s.config = config ∧ s.ratios.settings = settings ∧ s.ratios.InBounds := by
  unfold Spliter.new SplitRatioController.new at h
  cases hc : SplitRatioController.checkSettings settings with
  | error e =>
      rw [hc] at h
      cases h
  | ok u =>
      rw [hc] at h
      cases h
      exact ⟨⟨rfl, rfl, rfl, rfl, rfl, ⟨rfl, rfl⟩, rfl, rfl⟩, rfl, rfl,
        SplitRatioController.inBounds_start hc⟩

/-- The numbering of the groups begins anew, after the segments there are. -/
theorem Inv.replaceText (h : Inv s segs base) (tokens : List SegmentToken) (after before : List Int) :
    (∃ e, s.makeThresholds = .error e ∧ s.replaceText tokens after before = .error e) ∨
      ∃ p, s.replaceText tokens after before = .ok p ∧ Inv p segs segs.length ∧
        p.ratios = s.ratios ∧ p.config = s.config ∧ p.inputComplete = true ∧ p.done = s.done ∧
        p.segments = s.segments ∧ tokensOf p.pending = tokens := by
  unfold Spliter.replaceText
  have hcleared : Inv ({ s with
      pending := [], nextGroupKey := 0, nextOutputGroupIdx := 0, groupOutputIdx := ∅ } : Spliter F)
      segs segs.length := by
    refine ⟨h.next, .nil, ⟨h.noFragments.1, rfl⟩, h.keys, h.inFlight, h.flushing, h.taking, h.held,
      h.frozen, h.count, Nat.le_refl _, ?_, ?_⟩
    · rw [Nat.sub_self]
    · intro i seg hseg hle
      have := (List.getElem?_eq_some_iff.1 hseg).1
      omega
  rcases enqueuePresplitGroups_spec ({ s with
      pending := [], nextGroupKey := 0, nextOutputGroupIdx := 0, groupOutputIdx := ∅ } : Spliter F)
      tokens {} with ⟨e, hth, he⟩ | ⟨q, hok, hr, hratios, -, htokens⟩
  · refine .inl ⟨e, hth, ?_⟩
    simp only [he]
    rfl
  · right
    have hmarked : List.Forall₂ PendingToken.Marked q.pending (before.foldl
        (Spliter.setMark Spliter.markBefore)
        (after.foldl (Spliter.setMark Spliter.markAfter) q.pending)) :=
      marked_trans (setMarks_marked markAfter_marked _ _) (setMarks_marked markBefore_marked _ _)
    have hmarks : Requeued q { q with
        pending := before.foldl (Spliter.setMark Spliter.markBefore)
          (after.foldl (Spliter.setMark Spliter.markAfter) q.pending)
        inputComplete := true } :=
      ⟨fun hq => hq.marked hmarked, rfl, rfl, rfl, rfl, rfl, rfl, rfl, rfl⟩
    refine ⟨_, ?_, hmarks.inv (hr.inv hcleared), hratios, hr.config, rfl, hr.done, hr.segments, ?_⟩
    · simp only [hok, Except.bind, bind]
    · exact (tokensOf_marked hmarked).trans htokens

/-! ## Every operation -/

/-- The tokens of the queue after the input of an operation. -/
def SpliterOp.queueAfter (queued : List SegmentToken) : SpliterOp F → List SegmentToken
  | .feedTokens tokens _ => queued ++ tokens
  | .feedAuto tokens _ => queued ++ tokens
  | .pushGroupTokens tokens _ => queued ++ tokens
  | .setFullText tokens _ _ => tokens
  | .reset => []
  | .inputDone => queued
  | .onSegmentDone _ => queued
  | .setDurationRatio _ => queued
  | .observeSegment _ _ _ _ => queued

/-- The segments the splitter knows after an operation and before it drives. -/
def SpliterOp.segsAfter (segs : List SegmentLog) : SpliterOp F → List SegmentLog
  | .reset => []
  | _ => segs

/-- The number of segments before the last point where the numbering began anew. -/
def SpliterOp.baseAfter (opened base : Nat) : SpliterOp F → Nat
  | .setFullText _ _ _ => opened
  | .reset => 0
  | _ => base

/-- The segments reported done. -/
def SpliterOp.doneAfter (done : Finset Nat) : SpliterOp F → Finset Nat
  | .onSegmentDone idx => insert idx done
  | .reset => ∅
  | _ => done

/-- What an operation does before it drives. -/
structure Prepared (s p : Spliter F) (segs : List SegmentLog) (base : Nat) (op : SpliterOp F) :
    Prop where
  inv : Inv p (op.segsAfter segs) (op.baseAfter segs.length base)
  tokens : tokensOf p.pending = op.queueAfter (tokensOf s.pending)
  done : p.done = op.doneAfter s.done
  segments : ∀ i ∈ p.segments, i ∈ s.segments ∧ op ≠ .onSegmentDone i
  quiescent : op.drives = false → Quiescent s → Quiescent p
  config : p.config = s.config
  settings : p.ratios.settings = s.ratios.settings
  inBounds : s.ratios.InBounds → p.ratios.InBounds

/-- Why an operation may raise: its argument is not a ratio, or thresholds cannot be computed. -/
def MayRaise (s : Spliter F) (op : SpliterOp F) : Prop :=
  (∃ ratio, op = .setDurationRatio ratio ∧ (RatioArith.finite ratio = false ∨ ratio ≤ 0)) ∨
    ∃ ratios : SplitRatioController F, ratios.settings = s.ratios.settings ∧
      (s.ratios.InBounds → ratios.InBounds) ∧
      ∃ e, ({ s with ratios := ratios } : Spliter F).makeThresholds = .error e

theorem mayRaise_live {e : String} (op : SpliterOp F) (h : s.makeThresholds = .error e) :
    MayRaise s op :=
  .inr ⟨s.ratios, rfl, id, e, h⟩

/-- A change of the queue alone. -/
theorem Requeued.prepared {p : Spliter F} {op : SpliterOp F} (h : Inv s segs base)
    (hr : Requeued s p) (hsettings : p.ratios.settings = s.ratios.settings)
    (hbounds : s.ratios.InBounds → p.ratios.InBounds)
    (htokens : tokensOf p.pending = op.queueAfter (tokensOf s.pending))
    (hcomplete : op.drives = false → p.inputComplete = s.inputComplete ∧
      tokensOf p.pending = tokensOf s.pending)
    (hsegs : op.segsAfter segs = segs) (hbase : op.baseAfter segs.length base = base)
    (hdone : op.doneAfter s.done = s.done) (hop : ∀ i, op ≠ .onSegmentDone i) :
    Prepared s p segs base op where
  inv := by
    rw [hsegs, hbase]
    exact hr.inv h
  tokens := htokens
  done := hr.done.trans hdone.symm
  segments i hi := by
    rw [hr.segments] at hi
    exact ⟨hi, hop i⟩
  quiescent hdrives hquiet := by
    obtain ⟨hsame, hqueue⟩ := hcomplete hdrives
    have hcount : p.activeSegmentCount = s.activeSegmentCount := by
      unfold Spliter.activeSegmentCount
      rw [hr.segments]
    refine ⟨?_, ?_⟩
    · rw [hsame, hr.active]
      exact hquiet.closed
    · rw [hr.active, hr.config, hcount]
      refine hquiet.drained.imp (fun hnil => ?_) id
      rw [hnil] at hqueue
      exact List.map_eq_nil_iff.1 hqueue
  config := hr.config
  settings := hsettings
  inBounds := hbounds

/-- Every operation keeps the invariant before it drives, and raises only for a reason. -/
theorem Inv.prepare (h : Inv s segs base) (op : SpliterOp F) :
    (∃ e, s.prepare op = .error e ∧ MayRaise s op) ∨
      ∃ p, s.prepare op = .ok p ∧ Prepared s p segs base op := by
  cases op with
  | feedTokens tokens marks =>
      obtain ⟨hr, hratios, -, htokens⟩ := enqueueStream_spec s tokens marks
      refine .inr ⟨_, rfl, hr.prepared h (by rw [hratios]) (by rw [hratios]; exact id) htokens
        (fun hdrives => ?_) rfl rfl rfl (by simp)⟩
      cases hdrives
  | feedAuto tokens marks =>
      rcases h.enqueueAuto tokens marks with ⟨e, e', hth, he⟩ | ⟨p, hok, hr, hratios, hsame, htokens⟩
      · exact .inl ⟨e', he, mayRaise_live _ hth⟩
      · refine .inr ⟨p, hok, hr.prepared h (by rw [hratios]) (by rw [hratios]; exact id) htokens
          (fun hdrives => ⟨hsame, ?_⟩) rfl rfl rfl (by simp)⟩
        cases tokens with
        | nil => rw [htokens, List.append_nil]
        | cons => cases hdrives
  | pushGroupTokens tokens marks =>
      cases tokens with
      | nil =>
          refine .inr ⟨s, rfl, Requeued.prepared h ⟨id, rfl, rfl, rfl, rfl, rfl, rfl, rfl, rfl⟩ rfl id
            ?_ (fun _ => ⟨rfl, rfl⟩) rfl rfl rfl (by simp)⟩
          exact (List.append_nil _).symm
      | cons token tokens =>
          rcases enqueuePresplitGroups_spec s (token :: tokens) marks with
            ⟨e, hth, he⟩ | ⟨p, hok, hr, hratios, -, htokens⟩
          · exact .inl ⟨e, he, mayRaise_live _ hth⟩
          · refine .inr ⟨p, hok, hr.prepared h (by rw [hratios]) (by rw [hratios]; exact id) htokens
              (fun hdrives => ?_) rfl rfl rfl (by simp)⟩
            cases hdrives
  | setFullText tokens after before =>
      rcases h.replaceText tokens after before with
        ⟨e, hth, he⟩ | ⟨p, hok, hinv, hratios, hconfig, -, hdone, hsegments, htokens⟩
      · exact .inl ⟨e, he, mayRaise_live _ hth⟩
      · refine .inr ⟨p, hok, hinv, htokens, hdone, ?_, ?_, hconfig, by rw [hratios],
          by rw [hratios]; exact id⟩
        · intro i hi
          rw [hsegments] at hi
          exact ⟨hi, by simp⟩
        · intro hdrives
          cases hdrives
  | inputDone =>
      refine .inr ⟨_, rfl, Requeued.prepared h ⟨id, rfl, rfl, rfl, rfl, rfl, rfl, rfl, rfl⟩ rfl id rfl
        (fun hdrives => ?_) rfl rfl rfl (by simp)⟩
      cases hdrives
  | onSegmentDone idx =>
      refine .inr ⟨_, rfl, h.releaseSegment idx, rfl, rfl, ?_, ?_, rfl, rfl, id⟩
      · intro i hi
        obtain ⟨hne, hmem⟩ := AList.mem_erase.1 hi
        refine ⟨hmem, ?_⟩
        rintro heq
        cases heq
        exact hne rfl
      · intro hdrives
        cases hdrives
  | setDurationRatio ratio =>
      rcases s.ratios.setDurationRatio_cases ratio with ⟨hbad, e, he⟩ | ⟨ratios, hset, hsettings⟩
      · refine .inl ⟨e, ?_, .inl ⟨ratio, rfl, hbad⟩⟩
        simp only [Spliter.prepare, Spliter.setDurationRatio, he]
        rfl
      · have hbounds : s.ratios.InBounds → ratios.InBounds := fun hb => hb.setDurationRatio hset
        have hprepare : s.prepare (.setDurationRatio ratio)
            = if s.ratios.safetyRatio < ratios.safetyRatio then
                ({ s with ratios := ratios } : Spliter F).tightenPendingPresplitPlans
              else .ok { s with ratios := ratios } := by
          simp only [Spliter.prepare, Spliter.setDurationRatio, hset]
          rfl
        rw [hprepare]
        rcases retighten_spec h ratios (s.ratios.safetyRatio < ratios.safetyRatio) with
          ⟨e, hth, he⟩ | ⟨p, hok, hr, hratios, hsame, htokens⟩
        · exact .inl ⟨e, he, .inr ⟨ratios, hsettings, hbounds, e, hth⟩⟩
        · exact .inr ⟨p, hok, hr.prepared h (by rw [hratios]; exact hsettings)
            (by rw [hratios]; exact hbounds) htokens (fun _ => ⟨hsame, htokens⟩) rfl rfl rfl (by simp)⟩
  | observeSegment audioSteps textTokens outcome segmentIdx =>
      have hsettings := s.ratios.observe_settings audioSteps textTokens outcome
        (segmentIdx.map s.safetyRatioForSegment)
      have hbounds := fun hb : s.ratios.InBounds => hb.observe audioSteps textTokens outcome
        (segmentIdx.map s.safetyRatioForSegment)
      generalize hseen : s.ratios.observe audioSteps textTokens outcome
        (segmentIdx.map s.safetyRatioForSegment) = seen at hsettings hbounds
      have hprepare : s.prepare (.observeSegment audioSteps textTokens outcome segmentIdx)
          = if seen.1.safetyTightened = true then
              ({ s with ratios := seen.2 } : Spliter F).tightenPendingPresplitPlans
            else .ok { s with ratios := seen.2 } := by
        simp only [Spliter.prepare, Spliter.observeSegment, hseen]
        split
        · cases ({ s with ratios := seen.2 } : Spliter F).tightenPendingPresplitPlans <;> rfl
        · rfl
      rw [hprepare]
      rcases retighten_spec h seen.2 (seen.1.safetyTightened = true) with
        ⟨e, hth, he⟩ | ⟨p, hok, hr, hratios, hsame, htokens⟩
      · exact .inl ⟨e, he, .inr ⟨seen.2, hsettings, hbounds, e, hth⟩⟩
      · exact .inr ⟨p, hok, hr.prepared h (by rw [hratios]; exact hsettings)
          (by rw [hratios]; exact hbounds) htokens (fun _ => ⟨hsame, htokens⟩) rfl rfl rfl (by simp)⟩
  | reset =>
      refine .inr ⟨_, rfl, (fresh_reset s).inv, rfl, rfl, ?_, fun _ _ => (fresh_reset s).quiescent, rfl,
        rfl, fun hb => SplitRatioController.inBounds_start hb.checked⟩
      intro i hi
      exact absurd hi (AList.notMem_empty i)

end

end StreamingTts.Split
