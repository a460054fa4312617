import StreamingTts.Split.Drive

/-!
# The loop of the splitter

`_drive_one_segment` keeps the invariant, whether it advances the active segment or opens one, and
raises only if the thresholds of a streaming segment cannot be computed. A turn that has actions takes
a token or closes the active segment, so `_drive_events` ends, and it ends when nothing can be done:
the queue is empty, and no segment is left open if the input is complete, or `max_concurrent` segments
are in flight.
-/

namespace StreamingTts.Split

section
variable {F : Type} {s : Spliter F} {segs : List SegmentLog} {base : Nat}

/-! ## What a turn leaves in the queue -/

/-- A queue after some of its streaming tokens were taken. -/
theorem Queue.drop_stream {lo hi : Nat} {taken rest : List (PendingToken F)}
    (h : Queue lo hi (taken ++ rest)) (hkeys : ∀ pt ∈ taken, pt.groupKey = none) :
    Queue lo hi rest := by
  induction taken with
  | nil => exact h
  | cons pt taken ih =>
      refine ih ?_ fun pt' hpt' => hkeys pt' (List.mem_cons_of_mem _ hpt')
      have hpt := hkeys pt List.mem_cons_self
      generalize hq : pt :: taken ++ rest = pending at h
      cases h with
      | nil => cases hq
      | stream _ hrest =>
          cases hq
          exact hrest
      | @group _ _ key plan toks rest' _ _ hgroup _ =>
          cases toks with
          | nil => exact absurd rfl hgroup.closed.ne_nil
          | cons pt' toks =>
              have hhead := (List.cons.inj hq).1
              have hkey := (hgroup.member _ List.mem_cons_self).1
              rw [← hhead, hpt] at hkey
              cases hkey

/-- What is left of a group is one. -/
theorem IsGroup.suffix {key : Nat} {plan : PresplitPlan F} {left toks : List (PendingToken F)}
    (h : IsGroup key plan toks) (hsuffix : left <:+ toks) (hne : left ≠ []) :
    IsGroup key plan left := by
  obtain ⟨taken, rfl⟩ := hsuffix
  induction taken with
  | nil => exact h
  | cons pt taken ih => exact ih (h.tail (by simp [hne]))

/-- The group at the head of a queue. -/
theorem Queue.head_group {lo hi key : Nat} {head : PendingToken F} {tail : List (PendingToken F)}
    (h : Queue lo hi (head :: tail)) (hkey : head.groupKey = some key) :
    ∃ plan toks rest, head.plan = some plan ∧ head :: tail = toks ++ rest ∧ lo ≤ key ∧ key < hi ∧
      IsGroup key plan toks ∧ Queue (key + 1) hi rest := by
  generalize hq : head :: tail = pending at h
  cases h with
  | nil => cases hq
  | stream hnone _ =>
      cases hq
      rw [hkey] at hnone
      cases hnone
  | @group _ _ key' plan toks rest hle hlt hgroup hrest =>
      cases toks with
      | nil => exact absurd rfl hgroup.closed.ne_nil
      | cons pt toks =>
          have hhead := (List.cons.inj hq).1
          obtain ⟨hk, hp⟩ := hgroup.member _ List.mem_cons_self
          rw [← hhead] at hk hp
          rw [hkey] at hk
          cases hk
          exact ⟨plan, _, rest, hp, rfl, hle, hlt, hgroup, hrest⟩

/-- The queue after the turn of a streaming segment. -/
theorem TurnOutcome.queue {entry : SegmentEntry F} {idx n lo hi : Nat} {d : StreamingDriver}
    {pending : List (PendingToken F)} {turn : SegmentTurn F}
    (h : TurnOutcome entry idx d n pending turn) (hkey : entry.groupKey = none)
    (hqueue : Queue lo hi pending) : Queue lo hi turn.pending := by
  cases h with
  | stillOpen taken rest driver hpending hkeys =>
      rw [hpending] at hqueue
      rw [hkey] at hkeys
      exact hqueue.drop_stream hkeys
  | closed taken rest driver a exhausted hpending hkeys =>
      rw [hpending] at hqueue
      rw [hkey] at hkeys
      exact hqueue.drop_stream hkeys

/-! ## Advancing the active segment -/

/-- The turn of the active segment. -/
theorem Inv.advance_active (h : Inv s segs base) {idx : Nat} (ha : s.activeDriverIdx = some idx) :
    ∃ segs₀ seg out s' taken flushed, segs = segs₀ ++ [seg] ∧ seg.flushed = false ∧
      s.advanceSegment idx [] = .ok (out, s') ∧ Advanced s s' segs₀ seg base out taken flushed ∧
      ∀ pt ∈ taken, pt.groupKey = none := by
  obtain ⟨segs₀, seg, entry, rfl, rfl, hopen, hdone, hlookup, hentry⟩ := h.active_some ha
  have hlen : (segs₀ ++ [seg]).length = segs₀.length + 1 := by simp
  have hlast : (segs₀ ++ [seg])[segs₀.length]? = some seg := by simp
  have hold : ∀ i, i < segs₀.length → (segs₀ ++ [seg])[i]? = segs₀[i]? := by
    intro i hi
    exact List.getElem?_append_left hi
  have hmem : ∀ (i : Nat) (seg' : SegmentLog), segs₀[i]? = some seg' → (segs₀ ++ [seg])[i]? = some seg' := by
    intro i seg' hseg'
    rw [hold i (List.getElem?_eq_some_iff.1 hseg').1]
    exact hseg'
  have hbefore : Before s segs₀ seg.groupIdx base := by
    refine ⟨?_, ?_, ?_, ?_, ?_, ?_, ?_, ?_, h.count, ?_⟩
    · rw [h.next, hlen]
    · intro i hi
      rw [← hlen]
      exact h.keys i hi
    · intro i hi
      rw [← hlen] at hi
      exact h.inFlight i hi
    · exact AList.lookup_isSome.1 (by rw [hlookup]; rfl)
    · intro i hi
      rw [h.flushing i hi]
      constructor
      · rintro ⟨seg', hseg', hf⟩
        have hlt := (List.getElem?_eq_some_iff.1 hseg').1
        rw [hlen] at hlt
        rcases Nat.lt_succ_iff_lt_or_eq.1 hlt with hlt | rfl
        · exact ⟨seg', by rw [← hold i hlt]; exact hseg', hf⟩
        · rw [hlast] at hseg'
          cases hseg'
          rw [hopen] at hf
          cases hf
      · rintro ⟨seg', hseg', hf⟩
        exact ⟨seg', hmem i seg' hseg', hf⟩
    · intro i seg' hseg' hf
      by_contra hnot
      have := (h.taking i seg' (hmem i seg' hseg') hf hnot).1
      have hlt := (List.getElem?_eq_some_iff.1 hseg').1
      omega
    · intro seg' hseg'
      exact h.held seg' (List.mem_append_left _ hseg')
    · intro i seg' entry' hseg'
      exact h.frozen i seg' entry' (hmem i seg' hseg')
    · obtain ⟨hbase, houtput, hnumbers⟩ := h.numbering
      rw [hlen] at hbase houtput
      refine ⟨hbase, houtput, fun hle => hnumbers _ seg hlast hle, ?_⟩
      intro i seg' hseg' hi
      exact hnumbers i seg' (hmem i seg' hseg') hi
  have htext : 0 < seg.tokens.length := List.length_pos_iff.2 (h.held seg (by simp)).1
  have hturn : TurnOutcome entry segs₀.length entry.driver seg.tokens.length s.pending
      (entry.turn segs₀.length s.inputComplete s.pending) :=
    (closeTurn_outcome (feedPending_outcome hentry.ready) (.inl htext)).1
  obtain ⟨out, s', taken, flushed, hok, hadvanced, hkeys, -⟩ :=
    advance_spec hbefore hlookup hentry (.inl htext) h.noFragments
      (hturn.queue hentry.groupKey h.queue)
  exact ⟨segs₀, seg, out, s', taken, flushed, rfl, hopen, hok, hadvanced, hkeys⟩

/-! ## Opening a segment -/

variable [RatioArith F]

/-- A segment was opened for the token `head`. -/
structure Opened (s s₁ : Spliter F) (segs : List SegmentLog) (base : Nat) (head : PendingToken F)
    (seg : SegmentLog) (entry : SegmentEntry F) : Prop where
  before : Before s₁ segs seg.groupIdx base
  lookup : s₁.segments.lookup segs.length = some entry
  opened : OpenEntry head.groupKey seg entry
  fresh : seg.tokens = [] ∧ seg.flushed = false
  number : seg.groupIdx = s.nextOutputGroupIdx
  obeys : ∀ plan, head.groupKey ≠ none → head.plan = some plan → Obeys entry.driver plan.cap
  locals : s₁.groupNextLocal = ∅
  groups : match head.groupKey with
    | none => s₁.groupOutputIdx = ∅
    | some k => ∃ g, s₁.groupOutputIdx = (∅ : AList fun _ : Nat => Nat).insert k g
  pending : s₁.pending = s.pending
  next : s₁.nextSegmentIdx = s.nextSegmentIdx + 1
  nextGroupKey : s₁.nextGroupKey = s.nextGroupKey
  segments : ∀ i, i ∈ s₁.segments ↔ i = segs.length ∨ i ∈ s.segments
  done : s₁.done = s.done
  config : s₁.config = s.config
  ratios : s₁.ratios = s.ratios
  inputComplete : s₁.inputComplete = s.inputComplete

omit [RatioArith F] in
/-- Without fragments every segment opens a new public group. -/
theorem Inv.openingCoordinates (h : Inv s segs base) (key : Option Nat) :
    s.openingCoordinates key = ((s.nextOutputGroupIdx, 0),
      { s with
        nextOutputGroupIdx := s.nextOutputGroupIdx + 1
        groupOutputIdx := match key with
          | none => s.groupOutputIdx
          | some k => s.groupOutputIdx.insert k s.nextOutputGroupIdx }) := by
  unfold Spliter.openingCoordinates
  cases key with
  | none => rfl
  | some k =>
      simp only [h.noFragments.1, h.noFragments.2, AList.lookup_empty]
      rfl

/-- The thresholds of the segment that opens for the head of the queue leave room for a token. -/
theorem Inv.openingThresholds (h : Inv s segs base) {head : PendingToken F}
    {tail : List (PendingToken F)} (hpending : s.pending = head :: tail) :
    (∃ e, s.makeThresholds = .error e ∧ s.openingThresholds head = .error e) ∨
      ∃ th ratio, s.openingThresholds head = .ok (th, ratio) ∧ 1 ≤ th.forceSplitAt ∧
        ∀ plan, head.groupKey ≠ none → head.plan = some plan →
          Obeys (StreamingDriver.new th) plan.cap := by
  unfold Spliter.openingThresholds
  cases hkey : head.groupKey with
  | none =>
      cases hth : s.makeThresholds with
      | error e => exact .inl ⟨e, rfl, rfl⟩
      | ok th =>
          exact .inr ⟨th, _, rfl, computeThresholds_pos hth, fun _ hne => absurd rfl hne⟩
  | some key =>
      have hqueue := h.queue
      rw [hpending] at hqueue
      obtain ⟨plan, toks, rest, hplan, -, -, -, hgroup, -⟩ := hqueue.head_group hkey
      rw [hplan]
      refine .inr ⟨_, _, rfl, ?_, ?_⟩
      · have := List.length_pos_iff.2 hgroup.closed.ne_nil
        have := hgroup.size
        show 1 ≤ plan.cap
        omega
      · rintro plan' - hplan'
        cases hplan'
        exact ⟨rfl, rfl, rfl, rfl⟩

/-- `_open_segment` raises only if the thresholds of a streaming segment cannot be computed. -/
theorem Inv.open_spec (h : Inv s segs base) (ha : s.activeDriverIdx = none) {head : PendingToken F}
    {tail : List (PendingToken F)} (hpending : s.pending = head :: tail)
    (hroom : s.activeSegmentCount < s.config.maxConcurrent) :
    (∃ e, s.makeThresholds = .error e ∧ s.openSegment head = .error e) ∨
      ∃ s₁ seg entry, s.openSegment head = .ok (segs.length, [], s₁) ∧
        Opened s s₁ segs base head seg entry := by
  unfold Spliter.openSegment
  rcases h.openingThresholds hpending with ⟨e, hmake, he⟩ | ⟨th, ratio, hok, hpos, hobeys⟩
  · exact .inl ⟨e, hmake, by rw [he]; rfl⟩
  · right
    rw [hok, h.openingCoordinates, ← h.next]
    let entry : SegmentEntry F :=
      { driver := ((StreamingDriver.new th).feed { type := .start }).1
        groupIdx := s.nextOutputGroupIdx
        localIdx := 0
        groupKey := head.groupKey
        emaRatio := s.ratios.durationRatio
        safetyRatio := ratio }
    have hready : Ready entry.driver 0 := ready_new hpos
    have hstarted : ((StreamingDriver.new th).feed { type := .start }).2 = [] := by
      rw [StreamingDriver.feed_start]
    have hthresholds : entry.driver.thresholds = th := by
      show ((StreamingDriver.new th).feed { type := .start }).1.thresholds = th
      rw [StreamingDriver.feed_start]
      rfl
    have hnew : s.nextSegmentIdx ∉ s.segments := by
      intro hmem
      have := h.keys _ hmem
      rw [h.next] at this
      omega
    obtain ⟨hbase, houtput, hnumbers⟩ := h.numbering
    rw [← h.next] at hbase houtput
    refine ⟨{ s with
        nextOutputGroupIdx := s.nextOutputGroupIdx + 1
        groupOutputIdx := match head.groupKey with
          | none => s.groupOutputIdx
          | some k => s.groupOutputIdx.insert k s.nextOutputGroupIdx
        segments := s.segments.insert s.nextSegmentIdx entry
        nextSegmentIdx := s.nextSegmentIdx + 1 },
      ⟨[], s.nextOutputGroupIdx, th.forceSplitAt, false⟩, entry, ?_, ?_⟩
    · simp only [Except.bind, bind, SegmentEntry.actions, hstarted, List.map_nil]
      rfl
    refine ⟨?_, ?_, ⟨rfl, rfl, rfl, hready, by rw [hthresholds]⟩, ⟨rfl, rfl⟩, rfl, ?_, h.noFragments.1,
      ?_, rfl, rfl, rfl, ?_, rfl, rfl, rfl, rfl⟩
    · refine ⟨by rw [← h.next], ?_, ?_, ?_, ?_, ?_, h.held, ?_, ?_, ?_⟩
      · intro i hi
        rw [AList.mem_insert] at hi
        rcases hi with rfl | hi
        · rw [h.next]
          exact Nat.lt_succ_self _
        · exact Nat.lt_succ_of_lt (h.keys i hi)
      · intro i hi hdone
        rw [AList.mem_insert, h.next]
        rcases Nat.lt_succ_iff_lt_or_eq.1 hi with hlt | heq
        · exact .inr (h.inFlight i hlt hdone)
        · exact .inl heq
      · rw [AList.mem_insert]
        exact .inl h.next.symm
      · exact h.flushing
      · intro i seg hseg hf
        by_contra hdone
        have := h.active_none ha hseg hdone
        rw [hf] at this
        cases this
      · intro i seg entry' hseg hlookup
        have hlt := (List.getElem?_eq_some_iff.1 hseg).1
        rw [← h.next] at hlt
        rw [AList.lookup_insert_ne (Nat.ne_of_lt hlt)] at hlookup
        exact h.frozen i seg entry' hseg hlookup
      · show (s.segments.insert s.nextSegmentIdx entry).entries.length ≤ s.config.maxConcurrent
        rw [length_insert_notMem hnew]
        exact hroom
      · rw [← h.next]
        refine ⟨by omega, ?_, fun _ => houtput, hnumbers⟩
        show s.nextOutputGroupIdx + 1 = s.nextSegmentIdx + 1 - base
        omega
    · rw [← h.next]
      exact AList.lookup_insert _
    · intro plan hkey hplan
      have := hobeys plan hkey hplan
      have hth : (StreamingDriver.new th).thresholds = entry.driver.thresholds := hthresholds.symm
      exact ⟨hth ▸ this.l1, hth ▸ this.l2, hth ▸ this.l3, hth ▸ this.force⟩
    · cases hkey : head.groupKey with
      | none => exact h.noFragments.2
      | some k => exact ⟨s.nextOutputGroupIdx, by rw [h.noFragments.2]⟩
    · intro i
      rw [AList.mem_insert, h.next]

omit [RatioArith F] in
/-- A turn that has closed its segment ends there. -/
theorem closeTurn_flushed {entry : SegmentEntry F} {idx : Nat} {inputComplete : Bool}
    {turn : SegmentTurn F} {b : Bool} (h : turn.flushed = some b) :
    entry.closeTurn idx inputComplete turn = turn := by
  unfold SegmentEntry.closeTurn
  simp only [h, Option.isNone_some]
  rfl

omit [RatioArith F] in
/-- The turn of the segment that was opened. A segment of a group is closed in this turn; it takes the
whole group unless a forced boundary lies inside. -/
theorem Opened.advance (h : Inv s segs base) {s₁ : Spliter F} {head : PendingToken F}
    {tail : List (PendingToken F)} {seg : SegmentLog} {entry : SegmentEntry F}
    (ho : Opened s s₁ segs base head seg entry) (hpending : s.pending = head :: tail) :
    ∃ out s' taken flushed, s₁.advanceSegment segs.length [] = .ok (out, s') ∧
      Advanced s₁ s' segs seg base out taken flushed ∧
      ∀ key plan toks rest, s.pending = toks ++ rest → IsGroup key plan toks →
        flushed = true ∧ (Unforced False toks → s'.pending = rest) := by
  have htext : ∃ pt ∈ s₁.pending.head?, pt.groupKey = head.groupKey := by
    rw [ho.pending, hpending]
    exact ⟨head, rfl, rfl⟩
  have hready : Ready entry.driver 0 := by
    have := ho.opened.ready
    rw [ho.fresh.1] at this
    exact this
  have hqueue := h.queue
  cases hkey : head.groupKey with
  | none =>
      have hgroups := ho.groups
      rw [hkey] at hgroups
      have hopened := ho.opened
      rw [hkey] at hopened htext
      have hrest : Queue 0 s₁.nextGroupKey
          (entry.turn segs.length s₁.inputComplete s₁.pending).pending := by
        have hturn : TurnOutcome entry segs.length entry.driver 0 s₁.pending
            (entry.turn segs.length s₁.inputComplete s₁.pending) := by
          rw [← hopened.groupKey] at htext
          exact (closeTurn_outcome (feedPending_outcome hready) (.inr htext)).1
        rw [← ho.pending] at hqueue
        rw [ho.nextGroupKey]
        exact hturn.queue hopened.groupKey hqueue
      obtain ⟨out, s', taken, flushed, hok, hadvanced, -⟩ :=
        advance_spec ho.before ho.lookup hopened (.inr htext) ⟨ho.locals, hgroups⟩ hrest
      refine ⟨out, s', taken, flushed, hok, hadvanced, ?_⟩
      intro key plan toks rest hsplit hgroup
      cases toks with
      | nil => exact absurd rfl hgroup.closed.ne_nil
      | cons pt toks =>
          rw [hpending] at hsplit
          have hk := (hgroup.member _ List.mem_cons_self).1
          rw [← (List.cons.inj hsplit).1, hkey] at hk
          cases hk
  | some key =>
      -- any way of seeing the group at the head of the queue
      have hfeed : ∀ key' plan toks rest, s.pending = toks ++ rest → IsGroup key' plan toks →
          (entry.turn segs.length s₁.inputComplete s₁.pending).flushed = some true ∧
          (∃ left, (entry.turn segs.length s₁.inputComplete s₁.pending).pending = left ++ rest ∧
            left <:+ toks) ∧
          (Unforced False toks →
            (entry.turn segs.length s₁.inputComplete s₁.pending).pending = rest) := by
        intro key' plan toks rest hsplit hgroup
        have hhead : head.groupKey = some key' ∧ head.plan = some plan := by
          cases toks with
          | nil => exact absurd rfl hgroup.closed.ne_nil
          | cons pt toks =>
              rw [hpending] at hsplit
              rw [(List.cons.inj hsplit).1]
              exact hgroup.member _ List.mem_cons_self
        have hsize : ((0 + toks.length : Nat) : Int) ≤ plan.cap := by
          rw [Nat.zero_add]
          exact hgroup.size
        have hfed : (entry.feedPending segs.length entry.driver (toks ++ rest)).flushed = some true ∧ _ :=
          feedPending_group hready (ho.obeys plan (by rw [hkey]; simp) hhead.2) hgroup hsize
            (ho.opened.groupKey.trans hhead.1)
        unfold SegmentEntry.turn
        rw [ho.pending, hsplit, closeTurn_flushed hfed.1]
        refine ⟨hfed.1, hfed.2.1, fun hunforced => hfed.2.2 ⟨fun hn => ?_, hunforced.2⟩⟩
        exact absurd hn (Nat.lt_irrefl 0)
      rw [hpending] at hqueue
      obtain ⟨plan, toks, rest, hplan, hsplit, hle, hlt, hgroup, hrest⟩ := hqueue.head_group hkey
      rw [← hpending] at hsplit
      obtain ⟨hflushed, ⟨left, hleft, hsuffix⟩, -⟩ := hfeed key plan toks rest hsplit hgroup
      have hqueue' : Queue 0 s₁.nextGroupKey
          (entry.turn segs.length s₁.inputComplete s₁.pending).pending := by
        rw [hleft, ho.nextGroupKey]
        cases left with
        | nil => exact hrest.mono (Nat.zero_le _) (Nat.le_refl _)
        | cons pt left => exact .group hle hlt (hgroup.suffix hsuffix (by simp)) hrest
      have hgroups := ho.groups
      rw [hkey] at hgroups
      have hopened := ho.opened
      rw [hkey] at hopened htext
      obtain ⟨out, s', taken, flushed, hok, hadvanced, -, hpending', hclosed⟩ :=
        advance_spec ho.before ho.lookup hopened (.inr htext) ⟨ho.locals, hgroups, hflushed⟩ hqueue'
      refine ⟨out, s', taken, flushed, hok, hadvanced, ?_⟩
      intro key' plan' toks' rest' hsplit' hgroup'
      obtain ⟨-, -, hwhole⟩ := hfeed key' plan' toks' rest' hsplit' hgroup'
      rw [hclosed, hflushed, hpending']
      exact ⟨rfl, hwhole⟩

/-! ## One turn -/

omit [RatioArith F] in
/-- A turn that does nothing. -/
theorem Turned.refl (h : Inv s segs base) : Turned s s segs segs base [] where
  inv := h
  emits acts hacts := by
    rw [List.append_nil]
    exact hacts
  tokens := rfl
  pending := List.suffix_refl _
  next := Nat.le_refl _
  segments i hi := .inl hi
  opened i hi := hi.elim id fun hi => absurd hi.2 (not_lt.2 hi.1)
  caps := List.prefix_refl _
  done := rfl
  config := rfl
  ratios := rfl
  inputComplete := rfl

omit [RatioArith F] in
/-- Turns one after the other. -/
theorem Turned.trans {s' s'' : Spliter F} {segs' segs'' : List SegmentLog}
    {out out' : List SegmentAction} (h : Turned s s' segs segs' base out)
    (h' : Turned s' s'' segs' segs'' base out') :
    Turned s s'' segs segs'' base (out ++ out') where
  inv := h'.inv
  emits acts hacts := by
    rw [← List.append_assoc]
    exact h'.emits _ (h.emits acts hacts)
  tokens := h.tokens.trans h'.tokens
  pending := h'.pending.trans h.pending
  next := h.next.trans h'.next
  segments i hi := by
    rcases h'.segments i hi with hi | hi
    · exact h.segments i hi
    · exact .inr (h.next.trans hi)
  opened i hi := by
    rcases hi with hi | ⟨hle, hlt⟩
    · exact h'.opened i (.inl (h.opened i (.inl hi)))
    · rcases Nat.lt_or_ge i s'.nextSegmentIdx with hlt' | hge
      · exact h'.opened i (.inl (h.opened i (.inr ⟨hle, hlt'⟩)))
      · exact h'.opened i (.inr ⟨hge, hlt⟩)
  caps := h.caps.trans h'.caps
  done := h'.done.trans h.done
  config := h'.config.trans h.config
  ratios := h'.ratios.trans h.ratios
  inputComplete := h'.inputComplete.trans h.inputComplete

/-- Nothing is left to do: no segment is left open if the input is complete, and the queue is empty or
the segments in flight are as many as there may be. -/
structure Quiescent (s : Spliter F) : Prop where
  closed : s.inputComplete = true → s.activeDriverIdx = none
  drained : s.pending = [] ∨
    (s.activeDriverIdx = none ∧ s.config.maxConcurrent ≤ s.activeSegmentCount)

/-- What the turns of the loop use up. -/
def load (s : Spliter F) : Nat := 2 * s.pending.length + if s.activeDriverIdx.isSome then 1 else 0

omit [RatioArith F] in
/-- After a turn that closed its segment no segment is active. -/
theorem Advanced.active {s' : Spliter F} {segs₀ : List SegmentLog} {seg : SegmentLog}
    {out : List SegmentAction} {taken : List (PendingToken F)}
    (h : Advanced s s' segs₀ seg base out taken true) : s'.activeDriverIdx = none := by
  cases ha : s'.activeDriverIdx with
  | none => rfl
  | some idx =>
      obtain ⟨segs₁, seg₁, -, heq, -, hopen, -⟩ := h.inv.active_some ha
      obtain ⟨-, hlast⟩ := List.append_inj' heq rfl
      cases hlast
      cases hopen

omit [RatioArith F] in
/-- A turn without actions took nothing and waits for more text. -/
theorem Advanced.idle {s' : Spliter F} {segs₀ : List SegmentLog} {seg : SegmentLog}
    {taken : List (PendingToken F)} {flushed : Bool}
    (h : Advanced s s' segs₀ seg base [] taken flushed) : taken = [] ∧ flushed = false := by
  have hemits := h.emits
  generalize hout : ([] : List SegmentAction) = out at hemits
  cases hemits with
  | stillOpen =>
      cases taken with
      | nil => exact ⟨rfl, rfl⟩
      | cons => cases hout
  | closed => simp at hout

omit [RatioArith F] in
/-- The turn of the active segment, for the splitter. -/
theorem Advanced.turned_active {s' : Spliter F} {segs₀ : List SegmentLog} {seg : SegmentLog}
    {out : List SegmentAction} {taken : List (PendingToken F)} {flushed : Bool}
    (h : Advanced s s' segs₀ seg base out taken flushed) (hopen : seg.flushed = false) :
    Turned s s' (segs₀ ++ [seg]) (segs₀ ++ [seg.took taken flushed]) base out where
  inv := h.inv
  emits acts hacts := hacts.goOn hopen h.emits
  tokens := by
    rw [h.pending, emittedTokens_snoc, emittedTokens_snoc, tokensOf_append]
    simp [SegmentLog.took]
  pending := by
    rw [h.pending]
    exact List.suffix_append _ _
  next := h.next.ge
  segments i hi := .inl ((h.segments i).1 hi)
  opened i hi := by
    rw [h.segments]
    rcases hi with hi | hi
    · exact hi
    · rw [h.next] at hi
      omega
  caps := by simp [SegmentLog.took]
  done := h.done
  config := h.config
  ratios := h.ratios
  inputComplete := h.inputComplete

omit [RatioArith F] in
/-- The turn that opened a segment, for the splitter. -/
theorem Opened.turned {s₁ s' : Spliter F} {head : PendingToken F} {seg : SegmentLog}
    {entry : SegmentEntry F} {out : List SegmentAction} {taken : List (PendingToken F)}
    {flushed : Bool} (ho : Opened s s₁ segs base head seg entry) (hnext : s.nextSegmentIdx = segs.length)
    (h : Advanced s₁ s' segs seg base out taken flushed) :
    Turned s s' segs (segs ++ [seg.took taken flushed]) base out where
  inv := h.inv
  emits acts hacts := by
    have hopened : Emission (segs ++ [seg]) (acts ++ []) := by
      refine .snoc hacts ?_
      unfold SegmentLog.Emits
      rw [ho.fresh.1, ho.fresh.2]
      exact .stillOpen
    rw [List.append_nil] at hopened
    exact hopened.goOn ho.fresh.2 h.emits
  tokens := by
    rw [← ho.pending, h.pending, emittedTokens_snoc, tokensOf_append]
    simp [SegmentLog.took, ho.fresh.1]
  pending := by
    rw [← ho.pending, h.pending]
    exact List.suffix_append _ _
  next := by
    rw [h.next, ho.next]
    exact Nat.le_succ _
  segments i hi := by
    rcases (ho.segments i).1 ((h.segments i).1 hi) with rfl | hi
    · exact .inr hnext.le
    · exact .inl hi
  opened i hi := by
    rw [h.segments, ho.segments]
    rcases hi with hi | hi
    · exact .inr hi
    · rw [h.next, ho.next] at hi
      omega
  caps := by simp [SegmentLog.took]
  done := h.done.trans ho.done
  config := h.config.trans ho.config
  ratios := h.ratios.trans ho.ratios
  inputComplete := h.inputComplete.trans ho.inputComplete

omit [RatioArith F] in
/-- The segment that was opened took a token. -/
theorem Opened.took {s₁ s' : Spliter F} {head : PendingToken F} {seg : SegmentLog}
    {entry : SegmentEntry F} {out : List SegmentAction} {taken : List (PendingToken F)}
    {flushed : Bool} (ho : Opened s s₁ segs base head seg entry)
    (h : Advanced s₁ s' segs seg base out taken flushed) : taken ≠ [] := by
  rintro rfl
  refine (h.inv.held _ (List.mem_append_right _ List.mem_cons_self)).1 ?_
  show seg.tokens ++ [] = []
  rw [ho.fresh.1, List.append_nil]

/-- `_drive_one_segment` raises only if the thresholds of a streaming segment cannot be computed; a
turn with actions uses something up, and one without leaves nothing to do. -/
theorem Inv.driveOneSegment (h : Inv s segs base) :
    (∃ e, s.makeThresholds = .error e ∧ s.driveOneSegment = .error e) ∨
      ∃ out s' segs', s.driveOneSegment = .ok (out, s') ∧ Turned s s' segs segs' base out ∧
        (out = [] → Quiescent s') ∧ (out ≠ [] → load s' < load s) := by
  unfold Spliter.driveOneSegment
  cases ha : s.activeDriverIdx with
  | some idx =>
      obtain ⟨segs₀, seg, out, s', taken, flushed, rfl, hopen, hok, hadvanced, hkeys⟩ := h.advance_active ha
      refine .inr ⟨out, s', _, hok, hadvanced.turned_active hopen, ?_, ?_⟩
      · rintro rfl
        obtain ⟨rfl, rfl⟩ := hadvanced.idle
        obtain ⟨hdrained, hmore⟩ := hadvanced.waits rfl
        refine ⟨fun hcomplete => ?_, .inl hdrained⟩
        rw [hadvanced.inputComplete, hmore] at hcomplete
        cases hcomplete
      · intro hne
        have hlen := congrArg List.length hadvanced.pending
        rw [List.length_append] at hlen
        unfold load
        rw [ha, Option.isSome_some, if_pos rfl]
        cases flushed with
        | true =>
            rw [hadvanced.active, Option.isSome_none, if_neg (by simp)]
            omega
        | false =>
            have htaken : 0 < taken.length := by
              cases taken with
              | cons => simp
              | nil =>
                  have hemits := hadvanced.emits
                  cases hemits
                  exact absurd rfl hne
            split <;> omega
  | none =>
      cases hpending : s.pending with
      | nil =>
          refine .inr ⟨[], s, segs, rfl, Turned.refl h, fun _ => ⟨fun _ => ha, .inl hpending⟩, ?_⟩
          exact fun hne => absurd rfl hne
      | cons head tail =>
          simp only
          split
          · next hfull =>
            refine .inr ⟨[], s, segs, rfl, Turned.refl h, fun _ => ⟨fun _ => ha, .inr ⟨ha, hfull⟩⟩, ?_⟩
            exact fun hne => absurd rfl hne
          · next hroom =>
            rcases h.open_spec ha hpending (not_le.1 hroom) with ⟨e, hmake, he⟩ | ⟨s₁, seg, entry, hok, ho⟩
            · exact .inl ⟨e, hmake, by rw [he]; rfl⟩
            · obtain ⟨out, s', taken, flushed, hok', hadvanced, -⟩ := ho.advance h hpending
              have htaken := ho.took hadvanced
              refine .inr ⟨out, s', _, ?_, ho.turned h.next hadvanced, ?_, ?_⟩
              · rw [hok]
                exact hok'
              · rintro rfl
                exact absurd hadvanced.idle.1 htaken
              · intro _
                have hlen := congrArg List.length hadvanced.pending
                rw [List.length_append, ho.pending] at hlen
                have hpos := List.length_pos_iff.2 htaken
                have hload : load s = 2 * s.pending.length := by simp [load, ha]
                rw [hload]
                unfold load
                split <;> omega

/-! ## The loop -/

/-- Turns leave the thresholds as they are. -/
theorem Turned.makeThresholds {s' : Spliter F} {segs' : List SegmentLog} {out : List SegmentAction}
    (h : Turned s s' segs segs' base out) : s'.makeThresholds = s.makeThresholds := by
  unfold Spliter.makeThresholds
  rw [h.config, h.ratios]

/-- Any number of turns keeps the invariant; enough of them leave nothing to do. -/
theorem Inv.driveTurns (h : Inv s segs base) (turns : Nat) :
    (∃ e, s.makeThresholds = .error e ∧ s.driveTurns turns = .error e) ∨
      ∃ out s' segs', s.driveTurns turns = .ok (out, s') ∧ Turned s s' segs segs' base out ∧
        (load s < turns → Quiescent s') := by
  induction turns generalizing s segs with
  | zero => exact .inr ⟨[], s, segs, rfl, Turned.refl h, fun hlt => absurd hlt (Nat.not_lt_zero _)⟩
  | succ turns ih =>
      unfold Spliter.driveTurns
      rcases h.driveOneSegment with ⟨e, hmake, he⟩ | ⟨out, s', segs', hok, hturned, hidle, hload⟩
      · exact .inl ⟨e, hmake, by rw [he]; rfl⟩
      · rw [hok]
        cases out with
        | nil => exact .inr ⟨[], s', segs', rfl, hturned, fun _ => hidle rfl⟩
        | cons a out =>
            rcases ih hturned.inv with ⟨e, hmake, he⟩ | ⟨out', s'', segs'', hok', hturned', hquiet⟩
            · refine .inl ⟨e, by rw [← hturned.makeThresholds]; exact hmake, ?_⟩
              simp only [Except.bind, bind, List.isEmpty_cons]
              rw [he]
              rfl
            · refine .inr ⟨a :: out ++ out', s'', segs'', ?_, hturned.trans hturned', ?_⟩
              · simp only [Except.bind, bind, List.isEmpty_cons]
                rw [hok']
                rfl
              · intro hlt
                have := hload (by simp)
                exact hquiet (by omega)

/-- `_drive_events` raises only if the thresholds of a streaming segment cannot be computed, and ends
when nothing is left to do. -/
theorem Inv.driveEvents (h : Inv s segs base) :
    (∃ e, s.makeThresholds = .error e ∧ s.driveEvents = .error e) ∨
      ∃ out s' segs', s.driveEvents = .ok (out, s') ∧ Turned s s' segs segs' base out ∧
        Quiescent s' := by
  have hload : load s < 2 * s.pending.length + 2 := by
    unfold load
    split <;> omega
  rcases h.driveTurns (2 * s.pending.length + 2) with herr | ⟨out, s', segs', hok, hturned, hquiet⟩
  · exact .inl herr
  · exact .inr ⟨out, s', segs', hok, hturned, hquiet hload⟩

end

end StreamingTts.Split
