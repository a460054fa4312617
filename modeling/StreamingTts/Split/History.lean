import StreamingTts.Lib.Transition
import StreamingTts.Split.Operations

/-!
# Histories of the splitter

A `History` is a splitter with what was fed to it, what it emitted, and the capacity each of its
segments was opened with. `History.Ok` is the invariant of every history: the actions are those of the
segments in order (`Emission`), their tokens and the queue are what was fed, and nothing is left to
do. The rest of the module reads the actions of a history off its segments.
-/

namespace StreamingTts.Split

section
variable {F : Type}

/-- A splitter, the tokens fed to it (less those that `set_full_text` dropped), its actions, the
`force_split_at` its segments were opened with, and the number of segments opened before the public
numbering last began anew. A reset forgets what was before it. -/
structure History (F : Type) where
  state : Spliter F
  fed : List SegmentToken
  actions : List SegmentAction
  caps : List Int
  base : Nat

/-- The history of a new splitter. -/
def History.start (s : Spliter F) : History F := ⟨s, [], [], [], 0⟩

/-- The tokens fed after an operation, when `queued` of those fed before are in the queue. -/
def SpliterOp.fedAfter (fed : List SegmentToken) (queued : Nat) : SpliterOp F → List SegmentToken
  | .feedTokens tokens _ => fed ++ tokens
  | .feedAuto tokens _ => fed ++ tokens
  | .pushGroupTokens tokens _ => fed ++ tokens
  | .setFullText tokens _ _ => fed.take (fed.length - queued) ++ tokens
  | .reset => []
  | .inputDone => fed
  | .onSegmentDone _ => fed
  | .setDurationRatio _ => fed
  | .observeSegment _ _ _ _ => fed

/-- What an operation keeps of a record of the past: everything, unless it is a reset. -/
def SpliterOp.keep {α : Type} (past : List α) : SpliterOp F → List α
  | .reset => []
  | _ => past

/-- The `force_split_at` of the driver of a segment. -/
def Spliter.capOf (s : Spliter F) (i : Nat) : Int :=
  ((s.segments.lookup i).map (·.driver.thresholds.forceSplitAt)).getD 0

/-- An operation of the splitter, with its history. The capacities of the segments that the operation
opened are read off the table when it returns. -/
def History.step [RatioArith F] (r : History F) (op : SpliterOp F) : Except String (History F) := do
  let res ← r.state.step op
  let caps := op.keep r.caps
  .ok
    { state := res.2
      fed := op.fedAfter r.fed r.state.pending.length
      actions := op.keep r.actions ++ res.1
      caps := caps ++ (List.range' caps.length (res.2.nextSegmentIdx - caps.length)).map res.2.capOf
      base := op.baseAfter r.state.nextSegmentIdx r.base }

variable {s : Spliter F} {segs : List SegmentLog} {base : Nat}

/-! ## One operation -/

section
variable [RatioArith F]

/-- An operation that returns keeps the invariant; one that raises has a reason. -/
theorem Inv.step (h : Inv s segs base) (op : SpliterOp F) :
    (∃ e, s.step op = .error e ∧ MayRaise s op) ∨
      ∃ out s' p segs', s.step op = .ok (out, s') ∧ Prepared s p segs base op ∧
        Turned p s' (op.segsAfter segs) segs' (op.baseAfter segs.length base) out ∧
        (Quiescent s → Quiescent s') := by
  unfold Spliter.step
  rcases h.prepare op with ⟨e, he, hraise⟩ | ⟨p, hok, hp⟩
  · refine .inl ⟨e, ?_, hraise⟩
    rw [he]
    rfl
  · rw [hok]
    cases hdrives : op.drives with
    | false =>
        refine .inr ⟨[], p, p, op.segsAfter segs, rfl, hp, Turned.refl hp.inv, ?_⟩
        exact hp.quiescent hdrives
    | true =>
        rcases hp.inv.driveEvents with ⟨e, hth, he⟩ | ⟨out, s', segs', hok', hturned, hquiet⟩
        · refine .inl ⟨e, ?_, .inr ⟨p.ratios, hp.settings, hp.inBounds, e, ?_⟩⟩
          · simp only [Except.bind, bind, if_true]
            exact he
          · rw [← hth]
            unfold Spliter.makeThresholds
            rw [hp.config]
        · refine .inr ⟨out, s', p, segs', ?_, hp, hturned, fun _ => hquiet⟩
          simp only [Except.bind, bind, if_true]
          exact hok'

/-- The budget of the splitter admits a token at the largest ratio, and its ratio is in bounds. -/
structure Admits (s : Spliter F) : Prop where
  inBounds : s.ratios.InBounds
  budget : ∃ th, computeThresholds (s.config.engineMax - s.config.prefillLen)
    s.ratios.settings.maxRatio s.config.safetyMargin s.config.tiers = .ok th

/-- With such a budget only the ratio of `set_duration_ratio` can make an operation raise. -/
theorem Admits.mayRaise [LawfulRatioArith F] (h : Admits s) {op : SpliterOp F} (hr : MayRaise s op) :
    ∃ ratio, op = .setDurationRatio ratio ∧ (RatioArith.finite ratio = false ∨ ratio ≤ 0) := by
  rcases hr with hratio | ⟨ratios, hsettings, hbounds, e, he⟩
  · exact hratio
  · have hb := hbounds h.inBounds
    obtain ⟨hmin, -, hfmin, hfmax⟩ := SplitRatioController.checkSettings_ok hb.checked
    obtain ⟨th, hth⟩ := h.budget
    rw [← hsettings] at hth
    obtain ⟨th', hok⟩ := computeThresholds_anti hth (hmin.trans hb.lower) hb.upper
      (LawfulRatioArith.finite_between _ _ _ hfmin hfmax hb.lower hb.upper)
    have : ({ s with ratios := ratios } : Spliter F).makeThresholds = .ok th' := hok
    rw [he] at this
    cases this

end

/-! ## What the actions of segments look like -/

section
variable {c : Stamp} {n : Nat} {tokens : List SegmentToken} {a : SegmentAction}
  {acts : List SegmentAction}

/-- An action of a text token of a segment. -/
theorem Stamp.mem_textActions (h : a ∈ c.textActions n tokens) :
    a.segmentIdx = c.segmentIdx ∧ (a.groupIdx, a.localIdx, a.groupFinal)
      = (c.groupIdx, c.localIdx, c.groupFinal) ∧ a.action.isFlush = false := by
  induction tokens generalizing n with
  | nil => cases h
  | cons token tokens ih =>
      rcases List.mem_cons.1 h with rfl | h
      · refine ⟨rfl, rfl, ?_⟩
        show ActionResult.isFlush ⟨textType n, token.tokenId⟩ = false
        unfold textType
        split <;> rfl
      · exact ih h

/-- An action of a segment. -/
theorem SegmentLog.Emits.mem {seg : SegmentLog} {i : Nat} (h : seg.Emits i acts) (ha : a ∈ acts) :
    a.segmentIdx = i ∧ (a.groupIdx, a.localIdx, a.groupFinal) = (seg.groupIdx, 0, true) ∧
      (a.action.isFlush = true → seg.flushed = true) := by
  unfold SegmentLog.Emits at h
  generalize hf : seg.flushed = flushed at h
  cases h with
  | stillOpen =>
      obtain ⟨hidx, hcoords, hflush⟩ := Stamp.mem_textActions ha
      refine ⟨hidx, hcoords, ?_⟩
      rw [hflush]
      exact fun hcontra => nomatch hcontra
  | closed b hb =>
      refine (List.mem_append.1 ha).elim (fun ha => ?_) (fun ha => ?_)
      · obtain ⟨hidx, hcoords, hflush⟩ := Stamp.mem_textActions ha
        exact ⟨hidx, hcoords, fun _ => rfl⟩
      · cases List.mem_singleton.1 ha
        refine ⟨hb.segmentIdx, ?_, fun _ => rfl⟩
        rw [hb.groupIdx, hb.localIdx, hb.groupFinal]
        rfl

/-- A segment that is closed has emitted its `FLUSH`. -/
theorem SegmentLog.Emits.flush {seg : SegmentLog} {i : Nat} (h : seg.Emits i acts)
    (hf : seg.flushed = true) : ∃ a ∈ acts, a.action.isFlush = true := by
  unfold SegmentLog.Emits at h
  rw [hf] at h
  cases h with
  | closed a ha => exact ⟨a, by simp, ha.isFlush⟩

/-- The segment of an action. -/
theorem Emission.mem (h : Emission segs acts) (ha : a ∈ acts) :
    ∃ seg, segs[a.segmentIdx]? = some seg ∧
      (a.groupIdx, a.localIdx, a.groupFinal) = (seg.groupIdx, 0, true) ∧
      (a.action.isFlush = true → seg.flushed = true) := by
  induction h with
  | nil => cases ha
  | @snoc segs seg acts part _ hpart ih =>
      rcases List.mem_append.1 ha with ha | ha
      · obtain ⟨seg', hseg', hrest⟩ := ih ha
        refine ⟨seg', ?_, hrest⟩
        rw [List.getElem?_append_left (List.getElem?_eq_some_iff.1 hseg').1]
        exact hseg'
      · obtain ⟨hidx, hrest⟩ := hpart.mem ha
        refine ⟨seg, ?_, hrest⟩
        rw [hidx]
        simp

/-- The actions of one of the segments. -/
theorem Emission.filter (h : Emission segs acts) {i : Nat} {seg : SegmentLog}
    (hseg : segs[i]? = some seg) : seg.Emits i (acts.filter fun a => decide (a.segmentIdx = i)) := by
  induction h with
  | nil => simp at hseg
  | @snoc segs last acts part hpre hpart ih =>
      rw [List.filter_append]
      have hlt := (List.getElem?_eq_some_iff.1 hseg).1
      rw [List.length_append, List.length_singleton] at hlt
      rcases Nat.lt_succ_iff_lt_or_eq.1 hlt with hlt | rfl
      · rw [List.getElem?_append_left hlt] at hseg
        have hnone : part.filter (fun a => decide (a.segmentIdx = i)) = [] := by
          rw [List.filter_eq_nil_iff]
          intro a ha
          rw [(hpart.mem ha).1, decide_eq_true_eq]
          omega
        rw [hnone, List.append_nil]
        exact ih hseg
      · have hlast : seg = last := by simpa using hseg.symm
        subst hlast
        have hnone : acts.filter (fun a => decide (a.segmentIdx = segs.length)) = [] := by
          rw [List.filter_eq_nil_iff]
          intro a ha
          obtain ⟨seg', hseg', -⟩ := hpre.mem ha
          have := (List.getElem?_eq_some_iff.1 hseg').1
          rw [decide_eq_true_eq]
          omega
        have hall : part.filter (fun a => decide (a.segmentIdx = segs.length)) = part := by
          rw [List.filter_eq_self]
          intro a ha
          rw [(hpart.mem ha).1, decide_eq_true_eq]
        rw [hnone, hall, List.nil_append]
        exact hpart

/-- The indices of the segments do not decrease. -/
theorem Emission.ordered (h : Emission segs acts) :
    (acts.map (·.segmentIdx)).Pairwise (· ≤ ·) := by
  induction h with
  | nil => exact .nil
  | @snoc segs seg acts part hpre hpart ih =>
      rw [List.map_append, List.pairwise_append]
      refine ⟨ih, ?_, ?_⟩
      · rw [List.pairwise_map]
        refine List.pairwise_of_forall_mem_list ?_
        intro a ha b hb
        rw [(hpart.mem ha).1, (hpart.mem hb).1]
      · intro i hi j hj
        obtain ⟨a, ha, rfl⟩ := List.mem_map.1 hi
        obtain ⟨b, hb, rfl⟩ := List.mem_map.1 hj
        obtain ⟨seg', hseg', -⟩ := hpre.mem ha
        have := (List.getElem?_eq_some_iff.1 hseg').1
        rw [(hpart.mem hb).1]
        omega

/-! ## The text of the actions -/

/-- What an action says of its token: everything but its punctuation level. -/
def SegmentAction.spoken (a : SegmentAction) : SegmentToken where
  tokenId := a.action.token
  text := a.tokenText
  normalizedStart := a.normalizedStart
  normalizedEnd := a.normalizedEnd
  rawStart := a.rawStart
  rawEnd := a.rawEnd

/-- A token without its punctuation level. -/
def SegmentToken.bare (token : SegmentToken) : SegmentToken := { token with punctLevel := 0 }

/-- The tokens of the `PREFILL` and `DECODE` actions, in the order of emission. -/
def textOf (acts : List SegmentAction) : List SegmentToken :=
  (acts.filter fun a => !a.action.isFlush).map (·.spoken)

theorem textOf_append (a b : List SegmentAction) : textOf (a ++ b) = textOf a ++ textOf b := by
  simp [textOf]

theorem textOf_textActions (c : Stamp) (n : Nat) (tokens : List SegmentToken) :
    textOf (c.textActions n tokens) = tokens.map (·.bare) := by
  induction tokens generalizing n with
  | nil => rfl
  | cons token tokens ih =>
      have hmem : c.tokenAction n token ∈ c.textActions n [token] := List.mem_cons_self
      have hone := (Stamp.mem_textActions hmem).2.2
      have hcons : textOf (c.tokenAction n token :: c.textActions (n + 1) tokens)
          = (c.tokenAction n token).spoken :: textOf (c.textActions (n + 1) tokens) := by
        unfold textOf
        rw [List.filter_cons_of_pos (by rw [hone]; rfl), List.map_cons]
      rw [Stamp.textActions, hcons, ih]
      rfl

theorem SegmentLog.Emits.text {seg : SegmentLog} {i : Nat} (h : seg.Emits i acts) :
    textOf acts = seg.tokens.map (·.bare) := by
  unfold SegmentLog.Emits at h
  generalize seg.flushed = flushed at h
  cases h with
  | stillOpen => exact textOf_textActions _ _ _
  | closed a ha =>
      rw [textOf_append, textOf_textActions]
      simp [textOf, ha.isFlush]

/-- The text of the actions is that of the segments. -/
theorem Emission.text (h : Emission segs acts) : textOf acts = (emittedTokens segs).map (·.bare) := by
  induction h with
  | nil => rfl
  | snoc _ hpart ih => rw [textOf_append, ih, hpart.text, emittedTokens_snoc, List.map_append]

/-- The types of the actions of a segment. -/
theorem SegmentLog.Emits.types {seg : SegmentLog} {i : Nat} (h : seg.Emits i acts)
    (hne : seg.tokens ≠ []) :
    ∃ n, acts.map (·.action.type)
      = .prefill :: List.replicate n .decode ++ if seg.flushed then [.flushEos] else [] := by
  have htext : ∀ tokens : List SegmentToken, ∀ n, 0 < n →
      ((seg.stamp i).textActions n tokens).map (·.action.type)
        = List.replicate tokens.length ActionType.decode := by
    intro tokens
    induction tokens with
    | nil => exact fun _ _ => rfl
    | cons token tokens ih =>
        intro n hn
        rw [Stamp.textActions, List.map_cons, ih (n + 1) (Nat.succ_pos n), List.length_cons,
          List.replicate_succ]
        congr 1
        show textType n = .decode
        exact if_neg (by omega)
  unfold SegmentLog.Emits at h
  cases htokens : seg.tokens with
  | nil => exact absurd htokens hne
  | cons token tokens =>
      rw [htokens] at h
      refine ⟨tokens.length, ?_⟩
      have hfirst : ((seg.stamp i).textActions 0 (token :: tokens)).map (·.action.type)
          = .prefill :: List.replicate tokens.length .decode := by
        rw [Stamp.textActions, List.map_cons, htext tokens 1 (by omega)]
        rfl
      generalize seg.flushed = flushed at h
      cases h with
      | stillOpen =>
          rw [hfirst]
          simp
      | closed a ha =>
          rw [List.map_append, hfirst, List.map_singleton, ha.action]
          rfl

end

/-! ## The invariant of a history -/

/-- The invariant of a history, for the segments its splitter opened. -/
structure History.Ok (r : History F) (segs : List SegmentLog) : Prop where
  inv : Inv r.state segs r.base
  emits : Emission segs r.actions
  conserved : emittedTokens segs ++ tokensOf r.state.pending = r.fed
  caps : r.caps = segs.map (·.cap)
  quiescent : Quiescent r.state

theorem Fresh.ok (h : Fresh s) : (History.start s).Ok [] where
  inv := h.inv
  emits := .nil
  conserved := by
    show emittedTokens [] ++ tokensOf s.pending = []
    rw [h.pending]
    rfl
  caps := rfl
  quiescent := h.quiescent

/-- The capacities of the segments that an operation opened are in the table. -/
theorem Turned.caps_eq {p s' : Spliter F} {segs' : List SegmentLog} {out : List SegmentAction}
    (hp : Inv p segs base) (h : Turned p s' segs segs' base out) :
    segs'.map (·.cap) = segs.map (·.cap)
      ++ (List.range' segs.length (s'.nextSegmentIdx - segs.length)).map s'.capOf := by
  obtain ⟨more, hmore⟩ := h.caps
  rw [← hmore]
  congr 1
  have hlen : segs'.length = segs.length + more.length := by
    have := congrArg List.length hmore
    rw [List.length_append, List.length_map, List.length_map] at this
    exact this.symm
  have hnext : s'.nextSegmentIdx - segs.length = more.length := by
    rw [h.inv.next, hlen]
    omega
  rw [hnext]
  refine List.ext_getElem (by simp) ?_
  intro j hj hj'
  rw [List.getElem_map, List.getElem_range', Nat.one_mul]
  have hlt : segs.length + j < segs'.length := by omega
  have hmem : segs.length + j ∈ s'.segments := by
    refine h.opened _ (.inr ⟨?_, ?_⟩)
    · rw [hp.next]
      omega
    · rw [h.inv.next]
      exact hlt
  obtain ⟨entry, hentry⟩ := Option.isSome_iff_exists.1 (AList.lookup_isSome.2 hmem)
  have hcap := h.inv.frozen _ _ entry (List.getElem?_eq_getElem hlt) hentry
  have hget : (segs'.map (·.cap))[segs.length + j]? = some more[j] := by
    rw [← hmore, List.getElem?_append_right (by simp)]
    simp [hj]
  rw [List.getElem?_map, List.getElem?_eq_getElem hlt] at hget
  have : segs'[segs.length + j].cap = more[j] := by simpa using hget
  unfold Spliter.capOf
  rw [hentry, ← this, ← hcap]
  rfl

/-- The tokens fed are those emitted, then the queue. -/
theorem fedAfter_eq {fed queued : List SegmentToken} (op : SpliterOp F)
    (h : emittedTokens segs ++ queued = fed) :
    emittedTokens (op.segsAfter segs) ++ op.queueAfter queued = op.fedAfter fed queued.length := by
  subst h
  generalize hemitted : emittedTokens segs = emitted
  cases op with
  | setFullText tokens after before =>
      show emittedTokens segs ++ tokens
        = (emitted ++ queued).take ((emitted ++ queued).length - queued.length) ++ tokens
      rw [hemitted, List.length_append, Nat.add_sub_cancel, List.take_left]
  | reset => rfl
  | feedTokens | feedAuto | pushGroupTokens =>
      subst hemitted
      exact (List.append_assoc _ _ _).symm
  | inputDone | onSegmentDone | setDurationRatio | observeSegment =>
      subst hemitted
      rfl

variable [RatioArith F] {r r' : History F}

/-- An operation on a history either raises, for a reason, or keeps its invariant. -/
theorem History.Ok.step (h : r.Ok segs) (op : SpliterOp F) :
    (∃ e, r.step op = .error e ∧ MayRaise r.state op) ∨
      ∃ r' p segs' out, r.step op = .ok r' ∧ r'.Ok segs' ∧ Prepared r.state p segs r.base op ∧
        Turned p r'.state (op.segsAfter segs) segs' r'.base out ∧
        r'.actions = op.keep r.actions ++ out := by
  unfold History.step
  rcases h.inv.step op with ⟨e, he, hraise⟩ | ⟨out, s', p, segs', hok, hp, hturned, hquiet⟩
  · refine .inl ⟨e, ?_, hraise⟩
    rw [he]
    rfl
  · rw [hok]
    have hbase : op.baseAfter r.state.nextSegmentIdx r.base = op.baseAfter segs.length r.base := by
      rw [h.inv.next]
    refine .inr ⟨_, p, segs', out, rfl, ?_, hp, ?_, rfl⟩
    · refine ⟨?_, ?_, ?_, ?_, hquiet h.quiescent⟩
      · show Inv s' segs' (op.baseAfter r.state.nextSegmentIdx r.base)
        rw [hbase]
        exact hturned.inv
      · refine hturned.emits _ ?_
        cases op <;> first | exact h.emits | exact .nil
      · have hfed := fedAfter_eq op h.conserved
        rw [tokensOf, List.length_map] at hfed
        show emittedTokens segs' ++ tokensOf s'.pending = op.fedAfter r.fed r.state.pending.length
        rw [← hturned.tokens, hp.tokens, ← hfed]
        rfl
      · have hkeep : op.keep r.caps = (op.segsAfter segs).map (·.cap) := by
          cases op <;> first | exact h.caps | rfl
        show op.keep r.caps ++ (List.range' (op.keep r.caps).length
          (s'.nextSegmentIdx - (op.keep r.caps).length)).map s'.capOf = segs'.map (·.cap)
        rw [hturned.caps_eq hp.inv, hkeep, List.length_map]
    · show Turned p s' (op.segsAfter segs) segs' (op.baseAfter r.state.nextSegmentIdx r.base) out
      rw [hbase]
      exact hturned

end

end StreamingTts.Split
