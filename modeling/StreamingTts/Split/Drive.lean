import StreamingTts.Split.Turn

/-!
# Driving the queue

The invariant of the splitter, in terms of the list of the segments it has opened. A `SegmentLog` is
what a segment has emitted: its tokens, its public group, the capacity frozen when it opened, and
whether its `FLUSH` is out. `Emission` says that a list of actions is what such segments emitted, one
after the other. Only the newest segment takes text, planned groups are emitted in the turn that opens
them (so the counters of their fragments are empty between turns), and at most `max_concurrent`
segments are in flight. `base` is the number of segments opened before the last `set_full_text`,
where the public numbering began anew.
-/

namespace StreamingTts.Split

/-- What a segment has emitted. -/
structure SegmentLog where
  tokens : List SegmentToken
  groupIdx : Nat
  cap : Int
  flushed : Bool

/-- The stamp of the actions of the `i`-th segment. -/
def SegmentLog.stamp (seg : SegmentLog) (i : Nat) : Stamp := ⟨i, seg.groupIdx, 0, true⟩

/-- What a segment emits for the tokens after its first `n`: their actions, and a `FLUSH` if it is
closed then. -/
inductive Stamp.Emits (c : Stamp) (n : Nat) (tokens : List SegmentToken) :
    Bool → List SegmentAction → Prop
  | stillOpen : Emits c n tokens false (c.textActions n tokens)
  | closed (a : SegmentAction) (ha : c.Closes a) : Emits c n tokens true (c.textActions n tokens ++ [a])

/-- The actions of the `i`-th segment. -/
def SegmentLog.Emits (seg : SegmentLog) (i : Nat) (acts : List SegmentAction) : Prop :=
  (seg.stamp i).Emits 0 seg.tokens seg.flushed acts

/-- A list of actions is what the segments emitted, one after the other. -/
inductive Emission : List SegmentLog → List SegmentAction → Prop
  | nil : Emission [] []
  | snoc {segs : List SegmentLog} {seg : SegmentLog} {acts part : List SegmentAction} :
      Emission segs acts → seg.Emits segs.length part → Emission (segs ++ [seg]) (acts ++ part)

/-- The tokens the segments emitted. -/
def emittedTokens (segs : List SegmentLog) : List SegmentToken := segs.flatMap (·.tokens)

@[simp] theorem emittedTokens_snoc (segs : List SegmentLog) (seg : SegmentLog) :
    emittedTokens (segs ++ [seg]) = emittedTokens segs ++ seg.tokens := by
  simp [emittedTokens]

/-- The actions of the last segment can be told from those before it. -/
theorem Emission.snoc_inv {segs : List SegmentLog} {seg : SegmentLog} {acts : List SegmentAction}
    (h : Emission (segs ++ [seg]) acts) :
    ∃ acts₀ part, acts = acts₀ ++ part ∧ Emission segs acts₀ ∧ seg.Emits segs.length part := by
  generalize hsegs : segs ++ [seg] = segs' at h
  cases h with
  | nil => exact absurd hsegs (by simp)
  | snoc hpre hpart =>
      obtain ⟨rfl, heq⟩ := List.append_inj' hsegs rfl
      cases heq
      exact ⟨_, _, rfl, hpre, hpart⟩

section
variable {F : Type}

/-- The entry of a segment that takes text, of a group or of none. -/
structure OpenEntry (key : Option Nat) (seg : SegmentLog) (entry : SegmentEntry F) : Prop where
  groupKey : entry.groupKey = key
  groupIdx : entry.groupIdx = seg.groupIdx
  localIdx : entry.localIdx = 0
  ready : Ready entry.driver seg.tokens.length
  cap : entry.driver.thresholds.forceSplitAt = seg.cap

/-- The invariant of the splitter after it opened the segments `segs`. -/
structure Inv (s : Spliter F) (segs : List SegmentLog) (base : Nat) : Prop where
  next : s.nextSegmentIdx = segs.length
  queue : Queue 0 s.nextGroupKey s.pending
  noFragments : s.groupNextLocal = ∅ ∧ s.groupOutputIdx = ∅
  keys : ∀ i ∈ s.segments, i < segs.length
  inFlight : ∀ i < segs.length, i ∉ s.done → i ∈ s.segments
  flushing : ∀ i ∉ s.done, i ∈ s.flushing ↔ ∃ seg, segs[i]? = some seg ∧ seg.flushed = true
  taking : ∀ i seg, segs[i]? = some seg → seg.flushed = false → i ∉ s.done →
    i + 1 = segs.length ∧ ∃ entry, s.segments.lookup i = some entry ∧ OpenEntry none seg entry
  held : ∀ seg ∈ segs, seg.tokens ≠ [] ∧ (seg.tokens.length : Int) ≤ seg.cap
  frozen : ∀ i seg entry, segs[i]? = some seg → s.segments.lookup i = some entry →
    entry.driver.thresholds.forceSplitAt = seg.cap
  count : s.activeSegmentCount ≤ s.config.maxConcurrent
  numbering : base ≤ segs.length ∧ s.nextOutputGroupIdx = segs.length - base ∧
    ∀ i seg, segs[i]? = some seg → base ≤ i → seg.groupIdx = i - base

variable {s : Spliter F} {segs : List SegmentLog} {base : Nat}

/-- The active segment is the newest one, and takes text. -/
theorem Inv.active_some (h : Inv s segs base) {idx : Nat} (ha : s.activeDriverIdx = some idx) :
    ∃ segs₀ seg entry, segs = segs₀ ++ [seg] ∧ idx = segs₀.length ∧ seg.flushed = false ∧
      idx ∉ s.done ∧ s.segments.lookup idx = some entry ∧ OpenEntry none seg entry := by
  have hidle := List.find?_some ha
  have hmem := List.mem_of_find?_eq_some ha
  rw [decide_eq_true_eq] at hidle
  rw [List.mem_reverse, List.mem_range, h.next] at hmem
  obtain ⟨seg, hseg⟩ : ∃ seg, segs[idx]? = some seg := ⟨_, List.getElem?_eq_getElem hmem⟩
  have hopen : seg.flushed = false := by
    cases hf : seg.flushed with
    | false => rfl
    | true => exact absurd ((h.flushing idx hidle.2).2 ⟨seg, hseg, hf⟩) hidle.1
  obtain ⟨hlast, entry, hlookup, hentry⟩ := h.taking idx seg hseg hopen hidle.2
  refine ⟨segs.take idx, seg, entry, ?_, ?_, hopen, hidle.2, hlookup, hentry⟩
  · obtain ⟨hlt, hget⟩ := List.getElem?_eq_some_iff.1 hseg
    have hall : segs.take (idx + 1) = segs := List.take_of_length_le (by omega)
    have hsplit := List.take_append_getElem (l := segs) (i := idx) hlt
    rw [hget, hall] at hsplit
    exact hsplit.symm
  · rw [List.length_take]
    omega

/-- Without an active segment every segment is closed or done. -/
theorem Inv.active_none (h : Inv s segs base) (ha : s.activeDriverIdx = none) {i : Nat}
    {seg : SegmentLog} (hseg : segs[i]? = some seg) (hdone : i ∉ s.done) : seg.flushed = true := by
  have hlt := (List.getElem?_eq_some_iff.1 hseg).1
  have hnone := List.find?_eq_none.1 ha i
    (by rw [List.mem_reverse, List.mem_range, h.next]; exact hlt)
  cases hf : seg.flushed with
  | true => rfl
  | false =>
      refine absurd ?_ hnone
      rw [decide_eq_true_eq]
      refine ⟨?_, hdone⟩
      intro hmem
      obtain ⟨seg', hseg', hf'⟩ := (h.flushing i hdone).1 hmem
      rw [hseg] at hseg'
      cases hseg'
      rw [hf] at hf'
      cases hf'

/-- A segment that takes text is active. -/
theorem Inv.active_of_taking (h : Inv s segs base) {i : Nat} {seg : SegmentLog}
    (hseg : segs[i]? = some seg) (hopen : seg.flushed = false) (hdone : i ∉ s.done) :
    s.activeDriverIdx = some i := by
  cases ha : s.activeDriverIdx with
  | none =>
      have := h.active_none ha hseg hdone
      rw [hopen] at this
      cases this
  | some idx =>
      obtain ⟨segs₀, seg', entry, rfl, rfl, -, -, -, -⟩ := h.active_some ha
      have := (h.taking i seg hseg hopen hdone).1
      rw [List.length_append, List.length_singleton] at this
      exact congrArg some (by omega)

/-! ## The table of the segments -/

section
variable {α : Type} {t : AList (fun _ : Nat => α)} {i : Nat} {a : α}

theorem length_keys (t : AList (fun _ : Nat => α)) : t.entries.length = t.keys.length := by
  simp [AList.keys, List.keys]

/-- An entry that is there is replaced. -/
theorem length_insert_mem (h : i ∈ t) : (t.insert i a).entries.length = t.entries.length := by
  have hmem : i ∈ t.keys := AList.mem_keys.1 h
  rw [length_keys, length_keys, AList.keys_insert, List.length_cons, List.length_erase_of_mem hmem]
  have := List.length_pos_of_mem hmem
  omega

/-- An entry that is not there is added. -/
theorem length_insert_notMem (h : i ∉ t) :
    (t.insert i a).entries.length = t.entries.length + 1 := by
  rw [AList.insert_of_notMem h, List.length_cons]

/-- Replacing an entry leaves the keys as they are. -/
theorem insert_mem_iff (h : i ∈ t) (j : Nat) : j ∈ t.insert i a ↔ j ∈ t := by
  rw [AList.mem_insert]
  constructor
  · rintro (rfl | hj)
    · exact h
    · exact hj
  · exact .inr

theorem length_erase_le : (t.erase i).entries.length ≤ t.entries.length := by
  rw [length_keys, length_keys, AList.keys_erase]
  exact List.length_erase_le

end

/-! ## One turn -/

/-- What a turn of the splitter did: the segments go from `segs` to `segs'` and the actions `out` are
what they emitted meanwhile. -/
structure Turned (s s' : Spliter F) (segs segs' : List SegmentLog) (base : Nat)
    (out : List SegmentAction) : Prop where
  inv : Inv s' segs' base
  emits : ∀ acts, Emission segs acts → Emission segs' (acts ++ out)
  tokens : emittedTokens segs ++ tokensOf s.pending = emittedTokens segs' ++ tokensOf s'.pending
  pending : s'.pending <:+ s.pending
  next : s.nextSegmentIdx ≤ s'.nextSegmentIdx
  segments : ∀ i ∈ s'.segments, i ∈ s.segments ∨ s.nextSegmentIdx ≤ i
  opened : ∀ i, i ∈ s.segments ∨ s.nextSegmentIdx ≤ i ∧ i < s'.nextSegmentIdx → i ∈ s'.segments
  caps : segs.map (·.cap) <+: segs'.map (·.cap)
  done : s'.done = s.done
  config : s'.config = s.config
  ratios : s'.ratios = s.ratios
  inputComplete : s'.inputComplete = s.inputComplete

/-- The actions of text close nothing. -/
theorem textActions_noFlush (c : Stamp) (n : Nat) (tokens : List SegmentToken) :
    (c.textActions n tokens).any (·.action.isFlush) = false := by
  induction tokens generalizing n with
  | nil => rfl
  | cons token tokens ih =>
      have hone : (c.tokenAction n token).action.isFlush = false := by
        show ActionResult.isFlush ⟨textType n, token.tokenId⟩ = false
        unfold textType
        split <;> rfl
      rw [Stamp.textActions, List.any_cons, hone, ih, Bool.or_false]

theorem Stamp.Closes.isFlush {c : Stamp} {a : SegmentAction} (h : c.Closes a) :
    a.action.isFlush = true := by
  rw [h.action]
  rfl

/-- The splitter while its newest segment, which comes after `segs₀`, takes its turn. -/
structure Before (s : Spliter F) (segs₀ : List SegmentLog) (groupIdx base : Nat) : Prop where
  next : s.nextSegmentIdx = segs₀.length + 1
  keys : ∀ i ∈ s.segments, i < segs₀.length + 1
  inFlight : ∀ i < segs₀.length + 1, i ∉ s.done → i ∈ s.segments
  newest : segs₀.length ∈ s.segments
  flushing : ∀ i ∉ s.done, i ∈ s.flushing ↔ ∃ seg, segs₀[i]? = some seg ∧ seg.flushed = true
  finished : ∀ i seg, segs₀[i]? = some seg → seg.flushed = false → i ∈ s.done
  held : ∀ seg ∈ segs₀, seg.tokens ≠ [] ∧ (seg.tokens.length : Int) ≤ seg.cap
  frozen : ∀ i seg entry, segs₀[i]? = some seg → s.segments.lookup i = some entry →
    entry.driver.thresholds.forceSplitAt = seg.cap
  count : s.activeSegmentCount ≤ s.config.maxConcurrent
  numbering : base ≤ segs₀.length + 1 ∧ s.nextOutputGroupIdx = segs₀.length + 1 - base ∧
    (base ≤ segs₀.length → groupIdx = segs₀.length - base) ∧
    ∀ i seg, segs₀[i]? = some seg → base ≤ i → seg.groupIdx = i - base

/-- What the turn of the newest segment changes. -/
structure Moved (s s' : Spliter F) (idx : Nat) (entry : SegmentEntry F)
    (pending : List (PendingToken F)) (flushed : Bool) : Prop where
  pending : s'.pending = pending
  segments : s'.segments = s.segments.insert idx entry
  flushing : s'.flushing = if flushed then insert idx s.flushing else s.flushing
  noFragments : s'.groupNextLocal = ∅ ∧ s'.groupOutputIdx = ∅
  next : s'.nextSegmentIdx = s.nextSegmentIdx
  nextGroupKey : s'.nextGroupKey = s.nextGroupKey
  nextOutputGroupIdx : s'.nextOutputGroupIdx = s.nextOutputGroupIdx
  done : s'.done = s.done
  config : s'.config = s.config
  ratios : s'.ratios = s.ratios
  inputComplete : s'.inputComplete = s.inputComplete

/-- The invariant after the turn of the newest segment. -/
theorem Before.inv {s s' : Spliter F} {segs₀ : List SegmentLog} {seg : SegmentLog}
    {entry : SegmentEntry F} {pending : List (PendingToken F)}
    (h : Before s segs₀ seg.groupIdx base)
    (hm : Moved s s' segs₀.length entry pending seg.flushed)
    (hqueue : Queue 0 s.nextGroupKey pending)
    (hheld : seg.tokens ≠ [] ∧ (seg.tokens.length : Int) ≤ seg.cap)
    (hcap : entry.driver.thresholds.forceSplitAt = seg.cap)
    (hentry : seg.flushed = false → OpenEntry none seg entry) : Inv s' (segs₀ ++ [seg]) base := by
  have hlen : (segs₀ ++ [seg]).length = segs₀.length + 1 := by simp
  have hlast : (segs₀ ++ [seg])[segs₀.length]? = some seg := by simp
  have hold : ∀ i, i < segs₀.length → (segs₀ ++ [seg])[i]? = segs₀[i]? := by
    intro i hi
    exact List.getElem?_append_left hi
  have hcases : ∀ i seg', (segs₀ ++ [seg])[i]? = some seg' →
      (i = segs₀.length ∧ seg' = seg) ∨ segs₀[i]? = some seg' := by
    intro i seg' hseg'
    have hi := (List.getElem?_eq_some_iff.1 hseg').1
    rw [hlen] at hi
    rcases Nat.lt_succ_iff_lt_or_eq.1 hi with hlt | rfl
    · exact .inr (by rw [← hold i hlt]; exact hseg')
    · rw [hlast] at hseg'
      exact .inl ⟨rfl, (Option.some.inj hseg').symm⟩
  refine ⟨?_, ?_, hm.noFragments, ?_, ?_, ?_, ?_, ?_, ?_, ?_, ?_⟩
  · rw [hm.next, h.next, hlen]
  · rw [hm.nextGroupKey, hm.pending]
    exact hqueue
  · intro i hi
    rw [hm.segments, AList.mem_insert] at hi
    rw [hlen]
    rcases hi with rfl | hi
    · exact Nat.lt_succ_self _
    · exact h.keys i hi
  · intro i hi hdone
    rw [hlen] at hi
    rw [hm.done] at hdone
    rw [hm.segments, AList.mem_insert]
    exact .inr (h.inFlight i hi hdone)
  · intro i hdone
    rw [hm.done] at hdone
    rw [hm.flushing]
    constructor
    · intro hi
      have hi' : (i = segs₀.length ∧ seg.flushed = true) ∨ i ∈ s.flushing := by
        cases hf : seg.flushed with
        | false =>
            rw [hf, if_neg (by simp)] at hi
            exact .inr hi
        | true =>
            rw [hf, if_pos rfl, Finset.mem_insert] at hi
            exact hi.imp (fun h => ⟨h, rfl⟩) id
      rcases hi' with ⟨rfl, hf⟩ | hi
      · exact ⟨seg, hlast, hf⟩
      · obtain ⟨seg', hseg', hf⟩ := (h.flushing i hdone).1 hi
        have hlt := (List.getElem?_eq_some_iff.1 hseg').1
        exact ⟨seg', by rw [hold i hlt]; exact hseg', hf⟩
    · rintro ⟨seg', hseg', hf⟩
      rcases hcases i seg' hseg' with ⟨rfl, rfl⟩ | hseg'
      · rw [hf, if_pos rfl]
        exact Finset.mem_insert_self _ _
      · have := (h.flushing i hdone).2 ⟨seg', hseg', hf⟩
        split
        · exact Finset.mem_insert_of_mem this
        · exact this
  · intro i seg' hseg' hf hdone
    rw [hm.done] at hdone
    rcases hcases i seg' hseg' with ⟨rfl, rfl⟩ | hseg'
    · refine ⟨hlen.symm, entry, ?_, hentry hf⟩
      rw [hm.segments, AList.lookup_insert]
    · exact absurd (h.finished i seg' hseg' hf) hdone
  · intro seg' hseg'
    rcases List.mem_append.1 hseg' with hseg' | hseg'
    · exact h.held seg' hseg'
    · cases List.mem_singleton.1 hseg'
      exact hheld
  · intro i seg' entry' hseg' hlookup
    rw [hm.segments] at hlookup
    rcases hcases i seg' hseg' with ⟨rfl, rfl⟩ | hseg'
    · rw [AList.lookup_insert] at hlookup
      cases hlookup
      exact hcap
    · have hlt := (List.getElem?_eq_some_iff.1 hseg').1
      rw [AList.lookup_insert_ne (Nat.ne_of_lt hlt)] at hlookup
      exact h.frozen i seg' entry' hseg' hlookup
  · have hcount : s'.activeSegmentCount = s.activeSegmentCount := by
      unfold Spliter.activeSegmentCount
      rw [hm.segments]
      exact length_insert_mem h.newest
    rw [hcount, hm.config]
    exact h.count
  · obtain ⟨hbase, houtput, hnew, hnumbers⟩ := h.numbering
    refine ⟨by rw [hlen]; exact hbase, by rw [hm.nextOutputGroupIdx, houtput, hlen], ?_⟩
    intro i seg' hseg' hi
    rcases hcases i seg' hseg' with ⟨rfl, rfl⟩ | hseg'
    · exact hnew hi
    · exact hnumbers i seg' hseg' hi

/-! ## The turn of the newest segment -/

/-- The actions with another stamp. -/
theorem Stamp.textActions_final (c : Stamp) (b : Bool) (n : Nat) (tokens : List SegmentToken) :
    (c.textActions n tokens).map (fun a => { a with groupFinal := b })
      = ({ c with groupFinal := b } : Stamp).textActions n tokens := by
  induction tokens generalizing n with
  | nil => rfl
  | cons token tokens ih => exact congrArg (_ :: ·) (ih (n + 1))

theorem Stamp.Closes.final {c : Stamp} {a : SegmentAction} (h : c.Closes a) (b : Bool) :
    ({ c with groupFinal := b } : Stamp).Closes { a with groupFinal := b } :=
  ⟨h.segmentIdx, h.action, h.groupIdx, h.localIdx, rfl⟩

/-- The stamp of an open entry, once it is final. -/
theorem OpenEntry.stamp {key : Option Nat} {seg : SegmentLog} {entry : SegmentEntry F}
    (h : OpenEntry key seg entry) (idx : Nat) :
    ({ entry.stamp idx with groupFinal := true } : Stamp) = seg.stamp idx := by
  unfold SegmentEntry.stamp SegmentLog.stamp
  rw [h.groupIdx, h.localIdx]

/-- The log of a segment after a turn in which it took the tokens `taken`. -/
def SegmentLog.took (seg : SegmentLog) (taken : List (PendingToken F)) (flushed : Bool) :
    SegmentLog :=
  { seg with tokens := seg.tokens ++ tokensOf taken, flushed := flushed }

/-- The last segment goes on. -/
theorem Emission.goOn {segs : List SegmentLog} {seg : SegmentLog} {acts out : List SegmentAction}
    {taken : List (PendingToken F)} {flushed : Bool} (h : Emission (segs ++ [seg]) acts)
    (hopen : seg.flushed = false)
    (hout : (seg.stamp segs.length).Emits seg.tokens.length (tokensOf taken) flushed out) :
    Emission (segs ++ [seg.took taken flushed]) (acts ++ out) := by
  obtain ⟨acts₀, part, rfl, hpre, hpart⟩ := h.snoc_inv
  unfold SegmentLog.Emits at hpart
  rw [hopen] at hpart
  have htext := (seg.stamp segs.length).textActions_append 0 seg.tokens (tokensOf taken)
  rw [Nat.zero_add] at htext
  cases hpart
  rw [List.append_assoc]
  refine .snoc hpre ?_
  cases hout with
  | stillOpen =>
      rw [← htext]
      exact .stillOpen
  | closed a ha =>
      rw [← List.append_assoc, ← htext]
      exact .closed a ha

/-- What the turn of the newest segment did. -/
structure Advanced (s s' : Spliter F) (segs₀ : List SegmentLog) (seg : SegmentLog) (base : Nat)
    (out : List SegmentAction) (taken : List (PendingToken F)) (flushed : Bool) : Prop where
  inv : Inv s' (segs₀ ++ [seg.took taken flushed]) base
  emits : (seg.stamp segs₀.length).Emits seg.tokens.length (tokensOf taken) flushed out
  pending : s.pending = taken ++ s'.pending
  waits : flushed = false → s'.pending = [] ∧ s.inputComplete = false
  next : s'.nextSegmentIdx = s.nextSegmentIdx
  segments : ∀ i, i ∈ s'.segments ↔ i ∈ s.segments
  done : s'.done = s.done
  config : s'.config = s.config
  ratios : s'.ratios = s.ratios
  inputComplete : s'.inputComplete = s.inputComplete

/-- The turn of a segment, up to the end of its input. -/
def SegmentEntry.turn (entry : SegmentEntry F) (idx : Nat) (inputComplete : Bool)
    (pending : List (PendingToken F)) : SegmentTurn F :=
  entry.closeTurn idx inputComplete (entry.feedPending idx entry.driver pending)

/-- The counters of the fragments of groups while a segment takes its turn: none for a streaming
segment, and for the segment of a group those of the group, which the turn exhausts. -/
def Fragments (s : Spliter F) (key : Option Nat) (turn : SegmentTurn F) : Prop :=
  s.groupNextLocal = ∅ ∧
    match key with
    | none => s.groupOutputIdx = ∅
    | some k => (∃ g, s.groupOutputIdx = (∅ : AList fun _ : Nat => Nat).insert k g) ∧
        turn.flushed = some true

/-- The end of a turn that closed its segment. -/
theorem finalizeSegment_spec {s' : Spliter F} {key : Option Nat} {seg : SegmentLog}
    {entry : SegmentEntry F} {turn : SegmentTurn F} {exhausted : Bool}
    (hentry : OpenEntry key seg entry) (hfrag : Fragments s key turn)
    (hflushed : turn.flushed = some exhausted) (out : List SegmentAction)
    (hlocal' : s'.groupNextLocal = s.groupNextLocal) (hgroups' : s'.groupOutputIdx = s.groupOutputIdx) :
    s'.finalizeSegment entry out exhausted
      = (out.map (fun a => { a with groupFinal := true }),
          { s' with groupNextLocal := ∅, groupOutputIdx := ∅ }) := by
  obtain ⟨hlocal, hgroups⟩ := hfrag
  rw [← hlocal'] at hlocal
  rw [← hgroups'] at hgroups
  unfold Spliter.finalizeSegment
  rw [hentry.groupKey]
  cases key with
  | none =>
      have hs : s' = { s' with groupNextLocal := ∅, groupOutputIdx := ∅ } := by
        cases s'
        simp only at hlocal hgroups
        rw [hlocal, hgroups]
      simp only [Option.isNone_none, Bool.true_or]
      rw [← hs]
  | some k =>
      obtain ⟨⟨g, hg⟩, htrue⟩ := hgroups
      rw [hflushed] at htrue
      cases htrue
      have herased : ((∅ : AList fun _ : Nat => Nat).insert k g).erase k = ∅ := by
        apply AList.ext
        apply List.eq_nil_of_length_eq_zero
        rw [length_keys, AList.keys_erase, AList.keys_insert, AList.keys_empty, List.erase_nil,
          List.erase_cons_head, List.length_nil]
      simp only [Bool.or_true, if_true]
      rw [hlocal, hg, herased]
      rfl

/-- What `_advance_segment` does to a segment that is there. -/
theorem advanceSegment_eq {idx : Nat} {entry : SegmentEntry F}
    (hlookup : s.segments.lookup idx = some entry) :
    s.advanceSegment idx [] =
      let turn := entry.turn idx s.inputComplete s.pending
      let moved := { s with
        pending := turn.pending
        segments := s.segments.insert idx { entry with driver := turn.driver }
        flushing := if turn.out.any (·.action.isFlush) then insert idx s.flushing else s.flushing }
      match turn.flushed with
      | none => .ok (turn.out, moved)
      | some exhausted => .ok (moved.finalizeSegment entry turn.out exhausted) := by
  unfold Spliter.advanceSegment
  rw [hlookup]
  rfl

/-- The turn of the newest segment, which has some text or is about to get some. -/
theorem advance_spec {key : Option Nat} {segs₀ : List SegmentLog} {seg : SegmentLog}
    {entry : SegmentEntry F} (h : Before s segs₀ seg.groupIdx base)
    (hlookup : s.segments.lookup segs₀.length = some entry) (hentry : OpenEntry key seg entry)
    (htext : 0 < seg.tokens.length ∨ ∃ pt ∈ s.pending.head?, pt.groupKey = key)
    (hfrag : Fragments s key (entry.turn segs₀.length s.inputComplete s.pending))
    (hqueue : Queue 0 s.nextGroupKey (entry.turn segs₀.length s.inputComplete s.pending).pending) :
    ∃ out s' taken flushed, s.advanceSegment segs₀.length [] = .ok (out, s') ∧
      Advanced s s' segs₀ seg base out taken flushed ∧ (∀ pt ∈ taken, pt.groupKey = key) ∧
      s'.pending = (entry.turn segs₀.length s.inputComplete s.pending).pending ∧
      flushed = (entry.turn segs₀.length s.inputComplete s.pending).flushed.isSome := by
  -- the segment has a token after its turn
  have hsome : ∀ taken : List (PendingToken F), 0 < seg.tokens.length + taken.length →
      seg.tokens ++ tokensOf taken ≠ [] := by
    intro taken hpos hnil
    have := congrArg List.length hnil
    rw [List.length_append, tokensOf, List.length_map, List.length_nil] at this
    omega
  have hturn : TurnOutcome entry segs₀.length entry.driver seg.tokens.length s.pending
        (entry.turn segs₀.length s.inputComplete s.pending) ∧
      ((entry.turn segs₀.length s.inputComplete s.pending).flushed = none →
        (entry.turn segs₀.length s.inputComplete s.pending).pending = [] ∧
          s.inputComplete = false) := by
    rw [← hentry.groupKey] at htext
    exact closeTurn_outcome (feedPending_outcome hentry.ready) htext
  obtain ⟨houtcome, hwaits⟩ := hturn
  rw [advanceSegment_eq hlookup]
  generalize hturn : entry.turn segs₀.length s.inputComplete s.pending = turn at *
  cases houtcome with
  | stillOpen taken rest driver hpending hkeys hready hth hrest =>
      rw [hentry.groupKey] at hkeys
      obtain ⟨hdrained, hmore⟩ : rest = [] ∧ s.inputComplete = false := hwaits rfl
      cases key with
      | some k => exact absurd hfrag.2.2 (by simp)
      | none =>
          have hstamp : entry.stamp segs₀.length = seg.stamp segs₀.length := by
            rw [← hentry.stamp]
            unfold SegmentEntry.stamp
            rw [hentry.groupKey]
            rfl
          have hlen : (seg.tokens ++ tokensOf taken).length = seg.tokens.length + taken.length := by
            rw [List.length_append, tokensOf, List.length_map]
          have hroom := hready.room
          rw [hth, hentry.cap] at hroom
          have hnoFlush := textActions_noFlush (entry.stamp segs₀.length) seg.tokens.length
            (tokensOf taken)
          refine ⟨_, _, taken, false, rfl, ⟨?_, ?_, hpending, fun _ => ⟨hdrained, hmore⟩, rfl, ?_,
            rfl, rfl, rfl, rfl⟩, hkeys, rfl, rfl⟩
          · refine Before.inv h
              ⟨rfl, rfl, ?_, hfrag, rfl, rfl, rfl, rfl, rfl, rfl, rfl⟩ hqueue ?_
              (by show driver.thresholds.forceSplitAt = seg.cap; rw [hth, hentry.cap]) ?_
            · simp only [hnoFlush]
              rfl
            · refine ⟨?_, ?_⟩
              · refine hsome taken ?_
                rcases htext with hn | ⟨pt, hpt, -⟩
                · omega
                · rw [hpending, hdrained, List.append_nil] at hpt
                  have := List.length_pos_of_mem (List.mem_of_mem_head? hpt)
                  omega
              · show ((seg.tokens ++ tokensOf taken).length : Int) ≤ seg.cap
                rw [hlen]
                exact le_of_lt hroom
            · intro _
              refine ⟨hentry.groupKey, hentry.groupIdx, hentry.localIdx, ?_, ?_⟩
              · show Ready driver (seg.tokens ++ tokensOf taken).length
                rw [hlen]
                exact hready
              · show driver.thresholds.forceSplitAt = seg.cap
                rw [hth, hentry.cap]
          · rw [hstamp]
            exact .stillOpen
          · exact insert_mem_iff h.newest
  | closed taken rest driver a exhausted hpending hkeys hpos hsize hth ha =>
      rw [hentry.groupKey] at hkeys
      have hany : ((entry.stamp segs₀.length).textActions seg.tokens.length (tokensOf taken)
          ++ [a]).any (·.action.isFlush) = true := by
        simp [List.any_append, ha.isFlush]
      have hlen : (seg.tokens ++ tokensOf taken).length = seg.tokens.length + taken.length := by
        rw [List.length_append, tokensOf, List.length_map]
      rw [hentry.cap] at hsize
      simp only [hany, if_true]
      rw [finalizeSegment_spec hentry hfrag rfl, List.map_append, Stamp.textActions_final,
        hentry.stamp]
      rotate_left
      · rfl
      · rfl
      refine ⟨_, _, taken, true, rfl, ⟨?_, ?_, hpending, fun h => (by cases h), rfl, ?_, rfl, rfl,
        rfl, rfl⟩, hkeys, rfl, rfl⟩
      · refine Before.inv h
          ⟨rfl, rfl, rfl, ⟨rfl, rfl⟩, rfl, rfl, rfl, rfl, rfl, rfl, rfl⟩ hqueue ?_
          (by show driver.thresholds.forceSplitAt = seg.cap; rw [hth, hentry.cap]) ?_
        · refine ⟨?_, ?_⟩
          · exact hsome taken hpos
          · show ((seg.tokens ++ tokensOf taken).length : Int) ≤ seg.cap
            rw [hlen]
            exact hsize
        · intro hcontra
          cases hcontra
      · have hfinal := ha.final true
        rw [hentry.stamp] at hfinal
        exact .closed _ hfinal
      · exact insert_mem_iff h.newest

end

end StreamingTts.Split
