import StreamingTts.Split.Queue
import StreamingTts.Split.Spliter

/-!
# One turn of a segment

What `_drive_one_segment` does with the tokens it takes. A driver is `Ready` when it has taken `n`
tokens and takes more; the turn of a segment then consists of the actions of the tokens it takes from
the queue, the first of the segment as a `PREFILL` and the others as `DECODE`s, and of one `FLUSH` if
it closes the segment. A segment never takes more tokens than its capacity.
-/

namespace StreamingTts.Split

section
variable {F : Type}

/-- A driver that has taken `n` tokens of its segment and takes more. -/
structure Ready (d : StreamingDriver) (n : Nat) : Prop where
  state : d.state = if n = 0 then .idle else .textInputing
  isFinal : d.isFinal = false
  tokenCount : d.tokenCount = n
  room : (n : Int) < d.thresholds.forceSplitAt

/-- The action of the `n`-th token of a segment, counted from zero. -/
def textType (n : Nat) : ActionType := if n = 0 then .prefill else .decode

theorem makeEvent_text (token : SegmentToken) :
    ((makeEvent token).type = .normalToken ∨ (makeEvent token).type = .punctuationToken) ∧
      (makeEvent token).token = token.tokenId := by
  unfold makeEvent
  split
  · exact ⟨.inr rfl, rfl⟩
  · exact ⟨.inl rfl, rfl⟩

/-- A new driver is ready. -/
theorem ready_new {th : SplitThresholds} (h : 1 ≤ th.forceSplitAt) :
    Ready ((StreamingDriver.new th).feed { type := .start }).1 0 := by
  rw [StreamingDriver.feed_start]
  refine ⟨rfl, rfl, rfl, ?_⟩
  show ((0 : Nat) : Int) < th.forceSplitAt
  omega

variable {d : StreamingDriver} {n : Nat}

/-- What a ready driver makes of a token. -/
theorem Ready.feed (h : Ready d n) (token : SegmentToken) :
    (d.splits (makeEvent token) (n + 1) = true ∧
        (d.feed (makeEvent token)).2 = [⟨textType n, token.tokenId⟩, ⟨.flushEos, -1⟩] ∧
        (d.feed (makeEvent token)).1.thresholds = d.thresholds) ∨
      (d.splits (makeEvent token) (n + 1) = false ∧
        (d.feed (makeEvent token)).2 = [⟨textType n, token.tokenId⟩] ∧
        (d.feed (makeEvent token)).1.thresholds = d.thresholds ∧
        Ready (d.feed (makeEvent token)).1 (n + 1)) := by
  obtain ⟨htype, htoken⟩ := makeEvent_text token
  have hroom : d.splits (makeEvent token) (n + 1) = false →
      ((n + 1 : Nat) : Int) < d.thresholds.forceSplitAt := by
    intro hs
    simp only [StreamingDriver.splits, Bool.or_eq_false_iff, decide_eq_false_iff_not] at hs
    push_cast
    omega
  cases n with
  | zero =>
      have hfeed := StreamingDriver.feed_first h.state h.isFinal htype
      cases hs : d.splits (makeEvent token) ((0 : Nat) + 1) with
      | true =>
          rw [show ((0 : Nat) : Int) + 1 = 1 from rfl] at hs
          rw [hs, if_pos rfl] at hfeed
          exact .inl ⟨rfl, by rw [hfeed, htoken]; rfl, by rw [hfeed]⟩
      | false =>
          have hlt := hroom hs
          rw [show ((0 : Nat) : Int) + 1 = 1 from rfl] at hs
          rw [hs, if_neg (by simp)] at hfeed
          exact .inr ⟨rfl, by rw [hfeed, htoken]; rfl, by rw [hfeed],
            by rw [hfeed]; exact ⟨rfl, h.isFinal, rfl, hlt⟩⟩
  | succ n =>
      have hfeed := StreamingDriver.feed_next h.state h.isFinal htype
      rw [h.tokenCount] at hfeed
      cases hs : d.splits (makeEvent token) ((n + 1 : Nat) + 1) with
      | true =>
          rw [hs, if_pos rfl] at hfeed
          exact .inl ⟨rfl, by rw [hfeed, htoken]; rfl, by rw [hfeed]⟩
      | false =>
          have hlt := hroom hs
          rw [hs, if_neg (by simp)] at hfeed
          refine .inr ⟨rfl, by rw [hfeed, htoken]; rfl, by rw [hfeed], ?_⟩
          rw [hfeed]
          exact ⟨h.state, h.isFinal, rfl, hlt⟩

/-- What a ready driver that has taken a token makes of `END`. -/
theorem Ready.feed_end (h : Ready d n) (hn : 0 < n) :
    (d.feed { type := .end_ }).2 = [⟨.flushEos, -1⟩] ∧
      (d.feed { type := .end_ }).1.thresholds = d.thresholds := by
  have hstate : d.state = .textInputing := by
    rw [h.state, if_neg (by omega)]
  rw [StreamingDriver.feed_end hstate]
  exact ⟨rfl, rfl⟩

/-! ## The actions of a segment -/

/-- The public coordinates and the stamp of the actions of a segment. -/
structure Stamp where
  segmentIdx : Nat
  groupIdx : Nat
  localIdx : Nat
  groupFinal : Bool

/-- The action of the `n`-th token of a segment. -/
def Stamp.tokenAction (c : Stamp) (n : Nat) (token : SegmentToken) : SegmentAction where
  segmentIdx := c.segmentIdx
  action := ⟨textType n, token.tokenId⟩
  groupIdx := c.groupIdx
  localIdx := c.localIdx
  groupFinal := c.groupFinal
  tokenText := token.text
  normalizedStart := token.normalizedStart
  normalizedEnd := token.normalizedEnd
  rawStart := token.rawStart
  rawEnd := token.rawEnd

/-- The actions of the tokens of a segment after its first `n`. -/
def Stamp.textActions (c : Stamp) : Nat → List SegmentToken → List SegmentAction
  | _, [] => []
  | n, token :: tokens => c.tokenAction n token :: textActions c (n + 1) tokens

/-- The action that closes a segment. -/
structure Stamp.Closes (c : Stamp) (a : SegmentAction) : Prop where
  segmentIdx : a.segmentIdx = c.segmentIdx
  action : a.action = ⟨.flushEos, -1⟩
  groupIdx : a.groupIdx = c.groupIdx
  localIdx : a.localIdx = c.localIdx
  groupFinal : a.groupFinal = c.groupFinal

theorem Stamp.textActions_append (c : Stamp) (n : Nat) (a b : List SegmentToken) :
    c.textActions n (a ++ b) = c.textActions n a ++ c.textActions (n + a.length) b := by
  induction a generalizing n with
  | nil => rfl
  | cons token a ih =>
      rw [List.cons_append, textActions, ih, textActions, List.length_cons, List.cons_append,
        Nat.add_right_comm, Nat.add_assoc n]

/-- The stamp of a segment before it is final. -/
def SegmentEntry.stamp (seg : SegmentEntry F) (idx : Nat) : Stamp :=
  ⟨idx, seg.groupIdx, seg.localIdx, seg.groupKey.isNone⟩

theorem SegmentEntry.actions_text (seg : SegmentEntry F) (idx n : Nat) (token : SegmentToken) :
    seg.actions idx (some token) [⟨textType n, token.tokenId⟩]
      = [(seg.stamp idx).tokenAction n token] := by
  have hflush : ActionResult.isFlush ⟨textType n, token.tokenId⟩ = false := by
    unfold textType
    split <;> rfl
  simp only [actions, List.map_cons, List.map_nil, hflush]
  rfl

theorem SegmentEntry.actions_flush (seg : SegmentEntry F) (idx : Nat) (token : Option SegmentToken) :
    ∃ a, seg.actions idx token [⟨.flushEos, -1⟩] = [a] ∧ (seg.stamp idx).Closes a :=
  ⟨_, rfl, ⟨rfl, rfl, rfl, rfl, rfl⟩⟩

theorem SegmentEntry.actions_append (seg : SegmentEntry F) (idx : Nat) (token : Option SegmentToken)
    (a b : List ActionResult) :
    seg.actions idx token (a ++ b) = seg.actions idx token a ++ seg.actions idx token b :=
  List.map_append

/-! ## The turn -/

/-- How a turn of a segment ends whose driver `d` has taken `n` tokens: with the segment open, when
the queue is empty or goes on with another group, or closed. -/
inductive TurnOutcome (seg : SegmentEntry F) (idx : Nat) (d : StreamingDriver) (n : Nat)
    (pending : List (PendingToken F)) : SegmentTurn F → Prop
  | stillOpen (taken rest : List (PendingToken F)) (driver : StreamingDriver)
      (hpending : pending = taken ++ rest) (hkeys : ∀ pt ∈ taken, pt.groupKey = seg.groupKey)
      (hready : Ready driver (n + taken.length)) (hthresholds : driver.thresholds = d.thresholds)
      (hrest : ∀ pt ∈ rest.head?, pt.groupKey ≠ seg.groupKey) :
      TurnOutcome seg idx d n pending
        ⟨(seg.stamp idx).textActions n (tokensOf taken), driver, rest, none⟩
  | closed (taken rest : List (PendingToken F)) (driver : StreamingDriver) (a : SegmentAction)
      (exhausted : Bool) (hpending : pending = taken ++ rest)
      (hkeys : ∀ pt ∈ taken, pt.groupKey = seg.groupKey) (hpos : 0 < n + taken.length)
      (hsize : ((n + taken.length : Nat) : Int) ≤ d.thresholds.forceSplitAt)
      (hthresholds : driver.thresholds = d.thresholds) (ha : (seg.stamp idx).Closes a) :
      TurnOutcome seg idx d n pending
        ⟨(seg.stamp idx).textActions n (tokensOf taken) ++ [a], driver, rest, some exhausted⟩

variable {seg : SegmentEntry F} {idx : Nat} {pending : List (PendingToken F)}

/-- Closing the segment of an open turn. -/
theorem endTurn_outcome (taken : List (PendingToken F)) {rest : List (PendingToken F)}
    {driver : StreamingDriver} {flushed : Option Bool} (hpending : pending = taken ++ rest)
    (hkeys : ∀ pt ∈ taken, pt.groupKey = seg.groupKey) (hready : Ready driver (n + taken.length))
    (hthresholds : driver.thresholds = d.thresholds) (hpos : 0 < n + taken.length) :
    TurnOutcome seg idx d n pending (seg.endTurn idx
      ⟨(seg.stamp idx).textActions n (tokensOf taken), driver, rest, flushed⟩) := by
  obtain ⟨a, hacts, ha⟩ := seg.actions_flush idx none
  unfold SegmentEntry.endTurn
  obtain ⟨hresults, hth⟩ := hready.feed_end hpos
  simp only [hresults, hacts]
  have hroom := hready.room
  rw [hthresholds] at hroom
  exact .closed taken rest _ a true hpending hkeys hpos (le_of_lt hroom) (hth.trans hthresholds) ha

/-- A turn that goes on after a token. -/
theorem TurnOutcome.cons {driver : StreamingDriver} {pt : PendingToken F} {turn : SegmentTurn F}
    (hkey : pt.groupKey = seg.groupKey) (hthresholds : driver.thresholds = d.thresholds)
    (h : TurnOutcome seg idx driver (n + 1) pending turn) :
    TurnOutcome seg idx d n (pt :: pending)
      { turn with out := [(seg.stamp idx).tokenAction n pt.token] ++ turn.out } := by
  cases h with
  | stillOpen taken rest driver' hpending hkeys hready hth hrest =>
      have hlen : n + (pt :: taken).length = n + 1 + taken.length := by
        rw [List.length_cons]
        omega
      refine .stillOpen (pt :: taken) rest driver' ?_ ?_ ?_ (hth.trans hthresholds) hrest
      · rw [hpending, List.cons_append]
      · exact List.forall_mem_cons.2 ⟨hkey, hkeys⟩
      · rw [hlen]
        exact hready
  | closed taken rest driver' a exhausted hpending hkeys hpos hsize hth ha =>
      have hlen : n + (pt :: taken).length = n + 1 + taken.length := by
        rw [List.length_cons]
        omega
      refine .closed (pt :: taken) rest driver' a exhausted ?_ ?_ ?_ ?_ (hth.trans hthresholds) ha
      · rw [hpending, List.cons_append]
      · exact List.forall_mem_cons.2 ⟨hkey, hkeys⟩
      · omega
      · rw [hlen, ← hthresholds]
        exact hsize

/-- The loop over the tokens of the segment's group. -/
theorem feedPending_outcome (h : Ready d n) :
    TurnOutcome seg idx d n pending (seg.feedPending idx d pending) := by
  induction pending generalizing d n with
  | nil => exact .stillOpen [] [] d rfl (by simp) h rfl (by simp)
  | cons pt rest ih =>
      unfold SegmentEntry.feedPending
      split
      · next hkey => exact .stillOpen [] (pt :: rest) d rfl (by simp) h rfl (by simpa using hkey)
      · next hkey =>
        have hkey : pt.groupKey = seg.groupKey := not_not.1 hkey
        split
        · next hbefore =>
          have hn : 0 < n := by
            have := hbefore.2
            rw [h.tokenCount] at this
            omega
          exact endTurn_outcome [] rfl (by simp) h rfl hn
        · have hroom := h.room
          have hsize : ((n + [pt].length : Nat) : Int) ≤ d.thresholds.forceSplitAt := by
            simp only [List.length_singleton]
            push_cast
            omega
          rcases h.feed pt.token with ⟨-, hresults, hth⟩ | ⟨-, hresults, hth, hready⟩
          · obtain ⟨a, hacts, ha⟩ := seg.actions_flush idx (some pt.token)
            have hout : seg.actions idx (some pt.token) (d.feed (makeEvent pt.token)).2
                = (seg.stamp idx).textActions n (tokensOf [pt]) ++ [a] := by
              rw [hresults, ← List.singleton_append, seg.actions_append, seg.actions_text, hacts]
              rfl
            have hflush : (d.feed (makeEvent pt.token)).2.any (·.isFlush) = true := by
              rw [hresults]
              simp [ActionResult.isFlush]
            simp only [hflush, if_true, hout]
            exact .closed [pt] rest _ a pt.boundary rfl (by simpa using hkey) (by simp) hsize
              hth ha
          · have hout : seg.actions idx (some pt.token) (d.feed (makeEvent pt.token)).2
                = [(seg.stamp idx).tokenAction n pt.token] := by
              rw [hresults, seg.actions_text]
            have hflush : (d.feed (makeEvent pt.token)).2.any (·.isFlush) = false := by
              rw [hresults]
              unfold textType
              split <;> rfl
            simp only [hflush, hout]
            split
            · next hcontra => cases hcontra
            · split
              · exact endTurn_outcome [pt] rfl (by simpa using hkey) hready hth (by simp)
              · exact TurnOutcome.cons hkey hth (ih hready)

/-- A turn that has taken a token, after the hand-off and the end of the input. -/
theorem closeTurn_outcome {turn : SegmentTurn F} {inputComplete : Bool}
    (h : TurnOutcome seg idx d n pending turn)
    (htaken : 0 < n ∨ ∃ pt ∈ pending.head?, pt.groupKey = seg.groupKey) :
    TurnOutcome seg idx d n pending (seg.closeTurn idx inputComplete turn) ∧
      ((seg.closeTurn idx inputComplete turn).flushed = none →
        (seg.closeTurn idx inputComplete turn).pending = [] ∧ inputComplete = false) := by
  cases h with
  | closed taken rest driver a exhausted hpending hkeys hpos hsize hth ha =>
      simp only [SegmentEntry.closeTurn, Option.isNone_some]
      exact ⟨.closed taken rest driver a exhausted hpending hkeys hpos hsize hth ha, by simp⟩
  | stillOpen taken rest driver hpending hkeys hready hth hrest =>
      have hpos : 0 < n + taken.length := by
        rcases htaken with hn | ⟨pt, hpt, hkey⟩
        · omega
        · cases taken with
          | nil =>
              rw [hpending, List.nil_append] at hpt
              exact absurd hkey (hrest pt hpt)
          | cons => simp
      have hended : TurnOutcome seg idx d n pending (seg.endTurn idx
          ⟨(seg.stamp idx).textActions n (tokensOf taken), driver, rest, none⟩) :=
        endTurn_outcome taken hpending hkeys hready hth hpos
      cases rest with
      | cons pt rest =>
          have hkey : pt.groupKey ≠ seg.groupKey := hrest pt rfl
          have hflushed : ∀ turn : SegmentTurn F, (seg.endTurn idx turn).flushed = some true :=
            fun _ => rfl
          simp only [SegmentEntry.closeTurn, hkey, ne_eq, not_false_eq_true, if_true, hflushed,
            Option.isNone_some]
          exact ⟨hended, by simp [hflushed]⟩
      | nil =>
          cases inputComplete with
          | true =>
              have hflushed : ∀ turn : SegmentTurn F, (seg.endTurn idx turn).flushed = some true :=
                fun _ => rfl
              simp only [SegmentEntry.closeTurn, Option.isNone_none, List.isEmpty_nil]
              exact ⟨hended, by simp [hflushed]⟩
          | false =>
              refine ⟨?_, ?_⟩
              · exact .stillOpen taken [] driver hpending hkeys hready hth hrest
              · intro _
                exact ⟨rfl, rfl⟩

/-! ## The turn of a planned group -/

/-- A driver that closes its segment at the capacity only. -/
structure Obeys (d : StreamingDriver) (cap : Int) : Prop where
  l1 : d.thresholds.minTokensL1 = cap
  l2 : d.thresholds.minTokensL2 = cap
  l3 : d.thresholds.minTokensL3 = cap
  force : d.thresholds.forceSplitAt = cap

theorem Obeys.splits {cap : Int} (h : Obeys d cap) {e : SpliterEvent} {m : Int}
    (hs : d.splits e m = true) : cap ≤ m := by
  simp only [StreamingDriver.splits, StreamingDriver.meetsSplitThreshold, h.l1, h.l2, h.l3, h.force,
    Bool.or_eq_true, decide_eq_true_eq, Bool.and_eq_true] at hs
  rcases hs with hs | ⟨-, hs⟩
  · exact hs
  · split at hs
    · next h => exact h.2
    · split at hs
      · next h => exact h.2
      · split at hs
        · next h => exact h.2
        · cases hs

/-- No forced boundary lies inside a group: none before a token but the first, none after a token but
the last. `begun` is whether the segment has a token of the group already. -/
def Unforced (begun : Prop) (toks : List (PendingToken F)) : Prop :=
  (begun → ∀ pt ∈ toks.head?, pt.boundaryBefore = false) ∧
    (∀ pt ∈ toks.tail, pt.boundaryBefore = false) ∧ ∀ pt ∈ toks.dropLast, pt.boundary = false

theorem Unforced.tail {begun : Prop} {pt : PendingToken F} {toks : List (PendingToken F)}
    (h : Unforced begun (pt :: toks)) : Unforced True toks := by
  obtain ⟨-, hbefore, hafter⟩ := h
  refine ⟨fun _ pt' hpt' => hbefore pt' (List.mem_of_mem_head? hpt'),
    fun pt' hpt' => hbefore pt' (List.mem_of_mem_tail hpt'), ?_⟩
  intro pt' hpt'
  cases toks with
  | nil => cases hpt'
  | cons a toks =>
      refine hafter pt' ?_
      rw [List.dropLast_cons_of_ne_nil (by simp)]
      exact List.mem_cons_of_mem _ hpt'

/-- The turn over a group, or what is left of it: the segment is closed with its group exhausted, and
takes the whole group if no forced boundary lies inside. -/
theorem feedPending_group {key : Nat} {plan : PresplitPlan F} {toks rest : List (PendingToken F)}
    (hready : Ready d n) (hobeys : Obeys d plan.cap) (hgroup : IsGroup key plan toks)
    (hsize : ((n + toks.length : Nat) : Int) ≤ plan.cap) (hkey : seg.groupKey = some key) :
    (seg.feedPending idx d (toks ++ rest)).flushed = some true ∧
      (∃ left, (seg.feedPending idx d (toks ++ rest)).pending = left ++ rest ∧ left <:+ toks) ∧
      (Unforced (0 < n) toks → (seg.feedPending idx d (toks ++ rest)).pending = rest) := by
  induction toks generalizing d n with
  | nil => exact absurd rfl hgroup.closed.ne_nil
  | cons pt toks ih =>
      have hpt : pt.groupKey = seg.groupKey := by
        rw [hkey]
        exact (hgroup.member pt List.mem_cons_self).1
      rw [List.cons_append, SegmentEntry.feedPending, if_neg (not_not.2 hpt)]
      split
      · next hbefore =>
        -- a forced boundary before the token
        refine ⟨rfl, ⟨pt :: toks, rfl, List.suffix_refl _⟩, ?_⟩
        intro hunforced
        have hn : 0 < n := by
          have := hbefore.2
          rw [hready.tokenCount] at this
          omega
        have := hunforced.1 hn pt rfl
        rw [hbefore.1] at this
        cases this
      · rcases hready.feed pt.token with ⟨hs, hresults, -⟩ | ⟨-, hresults, hth, hready'⟩
        · -- the capacity is reached, so the token is the last of the group
          have hfull := hobeys.splits hs
          have hnil : toks = [] := by
            rw [List.length_cons] at hsize
            push_cast at hsize
            exact List.eq_nil_of_length_eq_zero (by omega)
          subst hnil
          have hb : pt.boundary = true := hgroup.closed
          have hflush : (d.feed (makeEvent pt.token)).2.any (·.isFlush) = true := by
            rw [hresults]
            simp [ActionResult.isFlush]
          simp only [hflush, if_true]
          exact ⟨by rw [hb], ⟨[], rfl, List.nil_suffix⟩, fun _ => rfl⟩
        · have hflush : (d.feed (makeEvent pt.token)).2.any (·.isFlush) = false := by
            rw [hresults]
            unfold textType
            split <;> rfl
          simp only [hflush]
          cases hb : pt.boundary with
          | true =>
              refine ⟨rfl, ⟨toks, rfl, List.suffix_cons _ _⟩, ?_⟩
              intro hunforced
              cases toks with
              | nil => rfl
              | cons a toks =>
                  have := hunforced.2.2 pt (by simp)
                  rw [hb] at this
                  cases this
          | false =>
              have hne := hgroup.closed.tail_ne_nil hb
              have hobeys' : Obeys (d.feed (makeEvent pt.token)).1 plan.cap := by
                refine ⟨?_, ?_, ?_, ?_⟩ <;> rw [hth]
                · exact hobeys.l1
                · exact hobeys.l2
                · exact hobeys.l3
                · exact hobeys.force
              have hsize' : ((n + 1 + toks.length : Nat) : Int) ≤ plan.cap := by
                rw [List.length_cons] at hsize
                omega
              obtain ⟨hflushed, ⟨left, hleft, hsuffix⟩, hwhole⟩ :=
                ih hready' hobeys' (hgroup.tail hne) hsize'
              refine ⟨hflushed, ⟨left, hleft, hsuffix.trans (List.suffix_cons _ _)⟩, ?_⟩
              intro hunforced
              exact hwhole ⟨fun _ => hunforced.tail.1 trivial, hunforced.tail.2⟩

end

end StreamingTts.Split
