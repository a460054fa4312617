import StreamingTts.Split.Runs

/-!
# The requests of a session

`Dispatcher.dispatch_segment_actions` and `maybe_send_session_tokens_done`, and the tasks that call
them: the tasks under the session's `_tn_locks` entry (the text actor, the commit ticker and
`mark_input_complete`), of which one at a time drives the splitter, and the consumer of the session's
results. A task drives the splitter without a suspension and then enqueues the requests of its actions,
each with a `put` that may wait; `outstanding` are the requests that a task has yet to enqueue, and
`inbox` is the history of what the session enqueued.

In `FULL_TEXT` mode `input_complete` is set before the splitter is driven, with a cursor plan enqueued in
between; no segment has been started then, so that no result can be handled in between, and both are one
event here. Priorities, cursor plans and times of the requests are left out.
-/

namespace StreamingTts.Frontend

open Split Lib

/-! ## Actions as requests -/

/-- An `EngineRequest` of a session, by its type. -/
inductive SessionRequest
  | startTokens (segmentIdx : Nat) (tokenIds : List Int)
  | appendTokens (segmentIdx : Nat) (tokenIds : List Int)
  | segmentTokensDone (segmentIdx : Nat) (appendEos : Bool)
  | sessionTokensDone
  deriving DecidableEq

/-- Adjacent decode actions of one segment that are to be one request: the first one, and the tokens. -/
structure DecodeBatch where
  first : SegmentAction
  tokenIds : List Int

/-- The request of a batch. -/
def DecodeBatch.request (b : DecodeBatch) : SessionRequest :=
  .appendTokens b.first.segmentIdx b.tokenIds

/-- Whether an action belongs to the batch before it. -/
def DecodeBatch.joins (b : DecodeBatch) (a : SegmentAction) : Bool :=
  a.segmentIdx = b.first.segmentIdx && a.groupIdx = b.first.groupIdx && a.action.type = .decode

/-- The loop of `dispatch_segment_actions`, with the batch that is being collected. -/
def requestsFrom : Option DecodeBatch → List SegmentAction → List SessionRequest
  | batch, [] => (batch.map DecodeBatch.request).toList
  | batch, a :: rest =>
      match batch.filter (·.joins a) with
      | some b => requestsFrom (some { b with tokenIds := b.tokenIds ++ [a.action.token] }) rest
      | none =>
          (batch.map DecodeBatch.request).toList ++
            match a.action.type with
            | .prefill => .startTokens a.segmentIdx [a.action.token] :: requestsFrom none rest
            | .decode => requestsFrom (some ⟨a, [a.action.token]⟩) rest
            | .flushEos => .segmentTokensDone a.segmentIdx true :: requestsFrom none rest
            | .flushNop => .segmentTokensDone a.segmentIdx false :: requestsFrom none rest

/-- The requests of a list of actions. -/
def requestsOf (actions : List SegmentAction) : List SessionRequest := requestsFrom none actions

/-- What a request says of an action: the segment, the kind of the action, and its token. -/
structure ActionPart where
  segmentIdx : Nat
  type : ActionType
  token : Int
  deriving DecidableEq

/-- What an action asks the engine to do; the action that closes a segment has no token. -/
def actionPart (a : SegmentAction) : ActionPart :=
  ⟨a.segmentIdx, a.action.type, if a.action.isFlush then -1 else a.action.token⟩

/-- What a request asks the engine to do. -/
def SessionRequest.parts : SessionRequest → List ActionPart
  | .startTokens idx tokens => tokens.map fun t => ⟨idx, .prefill, t⟩
  | .appendTokens idx tokens => tokens.map fun t => ⟨idx, .decode, t⟩
  | .segmentTokensDone idx eos => [⟨idx, if eos then .flushEos else .flushNop, -1⟩]
  | .sessionTokensDone => []

theorem requestsFrom_parts (batch : Option DecodeBatch) (actions : List SegmentAction) :
    (requestsFrom batch actions).flatMap SessionRequest.parts
      = (batch.map DecodeBatch.request).toList.flatMap SessionRequest.parts
        ++ actions.map actionPart := by
  induction actions generalizing batch with
  | nil => simp [requestsFrom]
  | cons a rest ih =>
      rw [requestsFrom]
      split
      · next b hb =>
        obtain ⟨rfl, hjoins⟩ := Option.filter_eq_some_iff.1 hb
        simp only [DecodeBatch.joins, Bool.and_eq_true, decide_eq_true_eq] at hjoins
        obtain ⟨⟨hidx, -⟩, htype⟩ := hjoins
        rw [ih]
        simp [DecodeBatch.request, SessionRequest.parts, actionPart, ActionResult.isFlush, hidx, htype]
      · rw [List.flatMap_append]
        cases htype : a.action.type <;>
          simp [ih, DecodeBatch.request, SessionRequest.parts, actionPart, ActionResult.isFlush, htype]

/-- The requests of actions say what the actions do, in their order. -/
theorem requestsOf_parts (actions : List SegmentAction) :
    (requestsOf actions).flatMap SessionRequest.parts = actions.map actionPart := by
  simp [requestsOf, requestsFrom_parts]

theorem sessionTokensDone_notMem (batch : Option DecodeBatch) (actions : List SegmentAction) :
    .sessionTokensDone ∉ requestsFrom batch actions := by
  have hbatch (batch : Option DecodeBatch) :
      .sessionTokensDone ∉ (batch.map DecodeBatch.request).toList := by
    cases batch <;> simp [DecodeBatch.request]
  induction actions generalizing batch with
  | nil => exact hbatch batch
  | cons a rest ih =>
      rw [requestsFrom]
      split
      · exact ih _
      · rw [List.mem_append, not_or]
        refine ⟨hbatch batch, ?_⟩
        cases a.action.type <;> simp [ih]

/-! ## The tasks of a session -/

section
variable {F : Type}

/-- Who drives the splitter: one of the tasks under the lock, or the consumer of the results. -/
inductive Party
  | locked
  | consumer
  deriving DecidableEq

/-- The other one. -/
def Party.other : Party → Party
  | locked => consumer
  | consumer => locked

/-- Whether an operation gives the splitter text. -/
def feedsText : SpliterOp F → Bool
  | .feedTokens .. | .feedAuto .. | .pushGroupTokens .. | .setFullText .. => true
  | _ => false

/-- The operations of the parties. No task of a session resets its splitter. -/
def Party.does : Party → SpliterOp F → Bool
  | locked, .feedTokens .. | locked, .feedAuto .. | locked, .pushGroupTokens .. => true
  | locked, .setFullText .. | locked, .inputDone => true
  | consumer, .onSegmentDone _ | consumer, .setDurationRatio _ | consumer, .observeSegment .. => true
  | _, _ => false

/-- The splitter of a session with what its tasks have made of its actions. -/
structure SessionDispatch (F : Type) where
  history : History F
  inputComplete : Bool
  engineTokensDoneSent : Bool
  outstanding : Party → List SessionRequest
  inbox : List SessionRequest

/-- What a task of the session does between two suspensions. -/
inductive DispatchEvent (F : Type)
  /-- a party drives the splitter; `completes` sets `input_complete` before -/
  | drive (party : Party) (op : SpliterOp F) (completes : Bool)
  /-- `input_complete` is set by a mode that does not drive the splitter for it -/
  | complete
  /-- a `put` of a party goes through -/
  | put (party : Party)
  /-- a party that has enqueued its requests calls `maybe_send_session_tokens_done` -/
  | check (party : Party)

/-- `_spliter_has_dispatched_all_input`. -/
def spliterHasDispatchedAllInput (s : Spliter F) : Bool :=
  s.pending.isEmpty && s.segments.keys.all fun i => decide (i ∈ s.flushing ∨ i ∈ s.done)

namespace SessionDispatch

variable [RatioArith F] (s : SessionDispatch F)

/-- A new session. -/
def new (spliter : Spliter F) : SessionDispatch F where
  history := .start spliter
  inputComplete := false
  engineTokensDoneSent := false
  outstanding _ := []
  inbox := []

/-- The request that `maybe_send_session_tokens_done` enqueues, if it does. -/
def tokensDoneRequest : List SessionRequest :=
  if !s.engineTokensDoneSent && s.inputComplete && spliterHasDispatchedAllInput s.history.state then
    [.sessionTokensDone]
  else []

/-- One event. A party that has requests to enqueue does nothing else. -/
def step : SessionDispatch F → DispatchEvent F → Except String (SessionDispatch F)
  | s, .drive party op completes =>
      if s.outstanding party = [] ∧ party.does op = true then do
        let res ← s.history.state.step op
        let history ← s.history.step op
        .ok { s with
          history := history
          inputComplete := s.inputComplete || completes
          outstanding := Function.update s.outstanding party (requestsOf res.1) }
      else .ok s
  | s, .complete =>
      if s.outstanding .locked = [] then .ok { s with inputComplete := true } else .ok s
  | s, .put party =>
      match s.outstanding party with
      | [] => .ok s
      | r :: rest =>
          .ok { s with
            inbox := s.inbox ++ [r]
            outstanding := Function.update s.outstanding party rest
            engineTokensDoneSent := s.engineTokensDoneSent || r = .sessionTokensDone }
  | s, .check party =>
      if s.outstanding party = [] then
        .ok { s with outstanding := Function.update s.outstanding party s.tokensDoneRequest }
      else .ok s

/-- The actions that an operation makes the splitter emit. -/
def emitted (op : SpliterOp F) : List SegmentAction :=
  match s.history.state.step op with
  | .ok res => res.1
  | .error _ => []

/-- A step that keeps the order: no party gets actions from the splitter, and none finds that the tokens
of the session are done, while the other one has requests to enqueue; and no text comes behind the end
of the input. -/
def Clean (s : SessionDispatch F) : DispatchEvent F → Prop
  | .drive party op _ =>
      (s.emitted op ≠ [] → s.outstanding party.other = [])
      ∧ (feedsText op = true → s.inputComplete = false)
  | .check party => s.tokensDoneRequest ≠ [] → s.outstanding party.other = []
  | .complete => True
  | .put _ => True

instance (s : SessionDispatch F) : (e : DispatchEvent F) → Decidable (s.Clean e)
  | .drive party op _ => inferInstanceAs (Decidable
      ((s.emitted op ≠ [] → s.outstanding party.other = [])
        ∧ (feedsText op = true → s.inputComplete = false)))
  | .check party =>
      inferInstanceAs (Decidable (s.tokensDoneRequest ≠ [] → s.outstanding party.other = []))
  | .complete => .isTrue trivial
  | .put _ => .isTrue trivial

end SessionDispatch

/-! ## A splitter with nothing left to do -/

/-- Nothing is queued, and every segment is closed or done. -/
structure Settled (s : Spliter F) : Prop where
  pending : s.pending = []
  closed : ∀ i < s.nextSegmentIdx, i ∈ s.flushing ∨ i ∈ s.done

variable {s : Spliter F} {segs : List SegmentLog} {base : Nat}

/-- The check of `maybe_send_session_tokens_done` finds it out. -/
theorem settled_of_check (h : Split.Inv s segs base) (hcheck : spliterHasDispatchedAllInput s = true) :
    Settled s := by
  simp only [spliterHasDispatchedAllInput, Bool.and_eq_true, List.isEmpty_iff, List.all_eq_true,
    decide_eq_true_eq] at hcheck
  refine ⟨hcheck.1, fun i hi => ?_⟩
  by_cases hdone : i ∈ s.done
  · exact .inr hdone
  · rw [h.next] at hi
    exact hcheck.2 i (AList.mem_keys.1 (h.inFlight i hi hdone))

theorem Settled.active (h : Settled s) : s.activeDriverIdx = none := by
  refine List.find?_eq_none.2 fun i hi => ?_
  rw [List.mem_reverse, List.mem_range] at hi
  rcases h.closed i hi with hmem | hmem <;> simp [hmem]

variable [RatioArith F]

/-- There is nothing to drive. -/
theorem Settled.driveEvents (h : Settled s) : s.driveEvents = .ok ([], s) := by
  simp [Spliter.driveEvents, Spliter.driveTurns, Spliter.driveOneSegment, h.active, h.pending, bind,
    Except.bind]

/-- Without text nothing comes of any further operation. -/
theorem Settled.step (h : Settled s) (hinv : Split.Inv s segs base) {op : SpliterOp F}
    (hop : feedsText op = false) (hreset : op ≠ .reset) {out : List SegmentAction} {s' : Spliter F}
    (hstep : s.step op = .ok (out, s')) : out = [] ∧ Settled s' := by
  have hsegs : op.segsAfter segs = segs := by
    cases op <;> first | rfl | exact absurd rfl hreset
  unfold Spliter.step at hstep
  rcases hinv.prepare op with ⟨e, he, -⟩ | ⟨p, hok, hp⟩
  · rw [he] at hstep
    cases hstep
  · rw [hok] at hstep
    have hinv' := hp.inv
    rw [hsegs] at hinv'
    have hsettled : Settled p := by
      refine ⟨?_, fun i hi => ?_⟩
      · have htokens := hp.tokens
        rw [h.pending] at htokens
        have hnil : op.queueAfter (tokensOf ([] : List (PendingToken F))) = [] := by
          cases op <;> first | rfl | cases hop
        rw [hnil] at htokens
        exact List.map_eq_nil_iff.1 htokens
      · by_cases hdone : i ∈ p.done
        · exact .inr hdone
        · -- a segment that is not done was closed before
          rw [hinv'.next] at hi
          have hdone' : i ∉ s.done := by
            intro hmem
            rw [hp.done] at hdone
            refine hdone ?_
            cases op with
            | onSegmentDone idx => exact Finset.mem_insert_of_mem hmem
            | reset => exact absurd rfl hreset
            | feedTokens | feedAuto | pushGroupTokens | setFullText | inputDone | setDurationRatio
            | observeSegment => exact hmem
          have hflushing := (h.closed i (by rw [hinv.next]; exact hi)).resolve_right hdone'
          exact .inl ((hinv'.flushing i hdone).2 ((hinv.flushing i hdone').1 hflushing))
    cases hdrives : op.drives with
    | false =>
        rw [hdrives] at hstep
        cases hstep
        exact ⟨rfl, hsettled⟩
    | true =>
        rw [hdrives] at hstep
        have hdrive : p.driveEvents = .ok (out, s') := hstep
        rw [hsettled.driveEvents] at hdrive
        cases hdrive
        exact ⟨rfl, hsettled⟩

/-! ## The order of the requests -/

namespace SessionDispatch

variable {d d' : SessionDispatch F}

/-- What was enqueued, then what is to be enqueued. -/
def requests (d : SessionDispatch F) : List SessionRequest :=
  d.inbox ++ d.outstanding .locked ++ d.outstanding .consumer

omit [RatioArith F] in
theorem requests_eq (d : SessionDispatch F) {party : Party} (h : d.outstanding party.other = []) :
    d.requests = d.inbox ++ d.outstanding party := by
  cases party with
  | locked =>
      have hother : d.outstanding .consumer = [] := h
      rw [requests, hother, List.append_nil]
  | consumer =>
      have hother : d.outstanding .locked = [] := h
      rw [requests, hother, List.append_nil]

/-- The requests, less the one that the tokens of the session are done, which comes last and only when
there is nothing left to do. -/
structure Tokens (d : SessionDispatch F) (reqs : List SessionRequest) : Prop where
  parts : reqs.flatMap SessionRequest.parts = d.history.actions.map actionPart
  notDone : .sessionTokensDone ∉ reqs
  all : d.requests = reqs ∨
    d.requests = reqs ++ [.sessionTokensDone] ∧ d.inputComplete = true ∧ Settled d.history.state

/-- The invariant of clean steps. -/
structure Ordered (d : SessionDispatch F) : Prop where
  ok : ∃ segs, d.history.Ok segs
  one : ∃ party : Party, d.outstanding party = []
  tokens : ∃ reqs, d.Tokens reqs
  sent : .sessionTokensDone ∈ d.inbox → d.engineTokensDoneSent = true

omit [RatioArith F] in
/-- One of the parties has nothing to enqueue, so the requests of the other one follow the inbox. -/
theorem Ordered.one_other (h : d.Ordered) {party : Party} (hne : d.outstanding party ≠ []) :
    d.outstanding party.other = [] := by
  obtain ⟨p, hp⟩ := h.one
  cases party with
  | locked => cases p with
    | locked => exact absurd hp hne
    | consumer => exact hp
  | consumer => cases p with
    | locked => exact hp
    | consumer => exact absurd hp hne

omit [RatioArith F] in
/-- A `put` does not change the requests. -/
theorem Ordered.put (h : d.Ordered) {party : Party} {r : SessionRequest} {rest : List SessionRequest}
    (hout : d.outstanding party = r :: rest) :
    ({ d with
        inbox := d.inbox ++ [r]
        outstanding := Function.update d.outstanding party rest
        engineTokensDoneSent := d.engineTokensDoneSent || r = .sessionTokensDone } :
      SessionDispatch F).Ordered := by
  have hother := h.one_other (by rw [hout]; exact List.cons_ne_nil _ _)
  have hne : party.other ≠ party := by cases party <;> exact fun h => nomatch h
  have hother' : Function.update d.outstanding party rest party.other = [] := by
    rw [Function.update_of_ne hne, hother]
  have hsame : ({ d with
      inbox := d.inbox ++ [r]
      outstanding := Function.update d.outstanding party rest
      engineTokensDoneSent := d.engineTokensDoneSent || r = .sessionTokensDone } :
        SessionDispatch F).requests = d.requests := by
    rw [requests_eq _ hother', requests_eq d hother, hout]
    simp
  obtain ⟨reqs, htokens⟩ := h.tokens
  refine ⟨h.ok, ⟨_, hother'⟩, ⟨reqs, htokens.parts, htokens.notDone, ?_⟩, ?_⟩
  · rw [hsame]
    exact htokens.all
  · intro hmem
    rcases List.mem_append.1 hmem with hmem | hmem
    · simp [h.sent hmem]
    · simp [List.mem_singleton.1 hmem]

omit [RatioArith F] in
/-- A state that differs in the flag alone. -/
theorem Ordered.complete (h : d.Ordered) : ({ d with inputComplete := true } :
    SessionDispatch F).Ordered := by
  obtain ⟨reqs, htokens⟩ := h.tokens
  refine ⟨h.ok, h.one, ⟨reqs, htokens.parts, htokens.notDone, ?_⟩, h.sent⟩
  exact htokens.all.imp id fun hdone => ⟨hdone.1, rfl, hdone.2.2⟩

omit [RatioArith F] in
/-- A party finds that the tokens of the session are done. -/
theorem Ordered.check (h : d.Ordered) {party : Party} (hparty : d.outstanding party = [])
    (hclean : d.tokensDoneRequest ≠ [] → d.outstanding party.other = []) :
    ({ d with outstanding := Function.update d.outstanding party d.tokensDoneRequest } :
      SessionDispatch F).Ordered := by
  by_cases hdone : d.tokensDoneRequest = []
  · have hsame : Function.update d.outstanding party d.tokensDoneRequest = d.outstanding := by
      rw [hdone, ← hparty, Function.update_eq_self]
    rw [hsame]
    exact h
  · have hother := hclean hdone
    unfold tokensDoneRequest at hdone
    split at hdone
    case isFalse => exact absurd rfl hdone
    case isTrue hcond =>
      have hreq : d.tokensDoneRequest = [.sessionTokensDone] := if_pos hcond
      rw [Bool.and_eq_true, Bool.and_eq_true, Bool.not_eq_true'] at hcond
      obtain ⟨⟨hsent, hcomplete⟩, hcheck⟩ := hcond
      obtain ⟨segs, hok⟩ := h.ok
      have hne : party.other ≠ party := by cases party <;> exact fun h => nomatch h
      have hother' : Function.update d.outstanding party d.tokensDoneRequest party.other = [] := by
        rw [Function.update_of_ne hne, hother]
      obtain ⟨reqs, htokens⟩ := h.tokens
      have hreqs : d.requests = d.inbox := by
        rw [requests_eq d hother, hparty, List.append_nil]
      refine ⟨h.ok, ⟨_, hother'⟩, ⟨reqs, htokens.parts, htokens.notDone, .inr ⟨?_, hcomplete, ?_⟩⟩,
        h.sent⟩
      · rw [requests_eq _ hother']
        show d.inbox ++ Function.update d.outstanding party d.tokensDoneRequest party = _
        rw [Function.update_self, hreq]
        rcases htokens.all with hall | ⟨hall, -⟩
        · rw [← hreqs, hall]
        · -- the request was enqueued before, so that the check does not pass
          have hmem : .sessionTokensDone ∈ d.inbox := by
            rw [← hreqs, hall]
            exact List.mem_append_right _ (List.mem_singleton_self _)
          rw [h.sent hmem] at hsent
          cases hsent
      · exact settled_of_check hok.inv hcheck

/-- A party drives the splitter. -/
theorem Ordered.drive (h : d.Ordered) {party : Party} {op : SpliterOp F} {completes : Bool}
    (hparty : d.outstanding party = []) (hdoes : party.does op = true)
    (hclean : d.Clean (.drive party op completes)) {out : List SegmentAction} {s' : Spliter F}
    {history : History F} (hstep : d.history.state.step op = .ok (out, s'))
    (hhistory : d.history.step op = .ok history) :
    ({ d with
        history := history
        inputComplete := d.inputComplete || completes
        outstanding := Function.update d.outstanding party (requestsOf out) } :
      SessionDispatch F).Ordered := by
  have hemitted : d.emitted op = out := by rw [emitted, hstep]
  have hreset : op ≠ .reset := by
    rintro rfl
    cases party <;> cases hdoes
  have hkeep : op.keep d.history.actions = d.history.actions := by
    cases op <;> first | rfl | exact absurd rfl hreset
  have hnext : history.state = s' ∧ history.actions = d.history.actions ++ out := by
    unfold History.step at hhistory
    rw [hstep] at hhistory
    cases hhistory
    exact ⟨rfl, by rw [hkeep]⟩
  obtain ⟨segs, hok⟩ := h.ok
  obtain ⟨reqs, htokens⟩ := h.tokens
  have hok' : ∃ segs', history.Ok segs' := by
    rcases hok.step op with ⟨e, he, -⟩ | ⟨r', -, segs', -, hr', hok', -⟩
    · rw [hhistory] at he
      cases he
    · rw [hhistory] at hr'
      cases hr'
      exact ⟨segs', hok'⟩
  have hsettled : Settled d.history.state → d.inputComplete = true → out = [] ∧ Settled s' := by
    intro hsettled hcomplete
    refine hsettled.step hok.inv ?_ hreset hstep
    cases hfeeds : feedsText op with
    | false => rfl
    | true =>
        have hnot := hclean.2 hfeeds
        rw [hcomplete] at hnot
        cases hnot
  by_cases hnil : out = []
  · subst hnil
    have hsame : Function.update d.outstanding party (requestsOf []) = d.outstanding := by
      have : requestsOf [] = [] := rfl
      rw [this, ← hparty, Function.update_eq_self]
    rw [hsame]
    refine ⟨hok', h.one, ⟨reqs, ?_, htokens.notDone, ?_⟩, h.sent⟩
    · rw [htokens.parts, hnext.2, List.append_nil]
    · refine htokens.all.imp id fun hdone => ⟨hdone.1, ?_, ?_⟩
      · rw [hdone.2.1, Bool.true_or]
      · rw [hnext.1]
        exact (hsettled hdone.2.2 hdone.2.1).2
  · have hother := hclean.1 (by rw [hemitted]; exact hnil)
    have hne : party.other ≠ party := by cases party <;> exact fun h => nomatch h
    have hother' : Function.update d.outstanding party (requestsOf out) party.other = [] := by
      rw [Function.update_of_ne hne, hother]
    have hreqs : d.requests = reqs := by
      rcases htokens.all with hall | ⟨-, hcomplete, hdone⟩
      · exact hall
      · exact absurd (hsettled hdone hcomplete).1 hnil
    refine ⟨hok', ⟨_, hother'⟩, ⟨reqs ++ requestsOf out, ?_, ?_, .inl ?_⟩, h.sent⟩
    · rw [List.flatMap_append, htokens.parts, requestsOf_parts, hnext.2, List.map_append]
    · rw [List.mem_append, not_or]
      exact ⟨htokens.notDone, sessionTokensDone_notMem none out⟩
    · rw [requests_eq _ hother']
      show d.inbox ++ Function.update d.outstanding party (requestsOf out) party = _
      rw [Function.update_self, ← hreqs, requests_eq d hother, hparty, List.append_nil]

/-- A clean step keeps the order. -/
theorem Ordered.step (h : d.Ordered) {e : DispatchEvent F} (hclean : d.Clean e)
    (hstep : d.step e = .ok d') : d'.Ordered := by
  cases e with
  | drive party op completes =>
      rw [SessionDispatch.step] at hstep
      split at hstep
      · next hcond =>
        cases hs : d.history.state.step op with
        | error e =>
            rw [hs] at hstep
            cases hstep
        | ok res =>
            cases hh : d.history.step op with
            | error e =>
                rw [hs, hh] at hstep
                cases hstep
            | ok history =>
                rw [hs, hh] at hstep
                cases hstep
                exact h.drive hcond.1 hcond.2 hclean hs hh
      · cases hstep
        exact h
  | complete =>
      rw [SessionDispatch.step] at hstep
      split at hstep <;> cases hstep
      · exact h.complete
      · exact h
  | put party =>
      rw [SessionDispatch.step] at hstep
      split at hstep <;> cases hstep
      · exact h
      · next r rest hout => exact h.put hout
  | check party =>
      rw [SessionDispatch.step] at hstep
      split at hstep <;> cases hstep
      · next hparty => exact h.check hparty hclean
      · exact h

omit [RatioArith F] in
/-- A new session. -/
theorem new_ordered {s : Spliter F} (hs : Fresh s) : (new s).Ordered where
  ok := ⟨[], hs.ok⟩
  one := ⟨.locked, rfl⟩
  tokens := ⟨[], rfl, List.not_mem_nil, .inl rfl⟩
  sent := fun h => absurd h List.not_mem_nil

/-- The order of the requests: they say what the splitter emitted, in its order; those of a segment are
its start, its tokens and its end; and the end of the session's tokens comes behind everything that was
emitted. -/
structure InOrder (d : SessionDispatch F) : Prop where
  emission : d.inbox.flatMap SessionRequest.parts <+: d.history.actions.map actionPart
  segment : ∀ k, ∃ n,
    ((d.inbox.flatMap SessionRequest.parts).filter fun a => decide (a.segmentIdx = k)).map (·.type)
      <+: .prefill :: List.replicate n .decode ++ [.flushEos]
  tokensDone : ∀ pre post, d.inbox = pre ++ .sessionTokensDone :: post →
    pre.flatMap SessionRequest.parts = d.history.actions.map actionPart

omit [RatioArith F] in
/-- The actions of a segment, as far as they are out. -/
theorem segment_types {r : History F} {segs : List SegmentLog} (h : r.Ok segs) (k : Nat) :
    ∃ n, ((r.actions.map actionPart).filter fun a => decide (a.segmentIdx = k)).map (·.type)
      <+: .prefill :: List.replicate n .decode ++ [.flushEos] := by
  have hparts : ((r.actions.map actionPart).filter fun a => decide (a.segmentIdx = k)).map (·.type)
      = (r.actions.filter fun a => decide (a.segmentIdx = k)).map (·.action.type) := by
    rw [List.filter_map, List.map_map]
    rfl
  rw [hparts]
  by_cases hk : k < segs.length
  · have hseg := List.getElem?_eq_getElem hk
    obtain ⟨n, hn⟩ := (h.emits.filter hseg).types (h.inv.held _ (List.getElem_mem hk)).1
    refine ⟨n, ?_⟩
    rw [hn]
    cases segs[k].flushed with
    | true => exact List.prefix_rfl
    | false => exact (List.prefix_append_right_inj _).2 (List.nil_prefix)
  · have hnone : (r.actions.filter fun a => decide (a.segmentIdx = k)) = [] := by
      refine List.filter_eq_nil_iff.2 fun a ha hidx => hk ?_
      obtain ⟨seg, hseg, -⟩ := h.emits.mem ha
      rw [of_decide_eq_true hidx] at hseg
      exact (List.getElem?_eq_some_iff.1 hseg).1
    rw [hnone]
    exact ⟨0, List.nil_prefix⟩

omit [RatioArith F] in
/-- The order is kept by the invariant. -/
theorem Ordered.inOrder (h : d.Ordered) : d.InOrder := by
  obtain ⟨segs, hok⟩ := h.ok
  obtain ⟨reqs, htokens⟩ := h.tokens
  have hparts : d.requests.flatMap SessionRequest.parts = d.history.actions.map actionPart := by
    rcases htokens.all with hall | ⟨hall, -⟩
    · rw [hall, htokens.parts]
    · rw [hall, List.flatMap_append, htokens.parts]
      exact List.append_nil _
  have hprefix : d.inbox <+: d.requests := by
    rw [requests, List.append_assoc]
    exact List.prefix_append _ _
  have hemission : d.inbox.flatMap SessionRequest.parts <+: d.history.actions.map actionPart := by
    rw [← hparts]
    exact hprefix.flatMap _
  refine ⟨hemission, fun k => ?_, ?_⟩
  · obtain ⟨n, hn⟩ := segment_types hok k
    exact ⟨n, ((hemission.filter _).map _).trans hn⟩
  · rintro pre post hinbox
    obtain ⟨rest, hrest⟩ := hprefix
    rw [hinbox, List.append_assoc, List.cons_append] at hrest
    rcases htokens.all with hall | ⟨hall, -⟩
    · refine absurd ?_ htokens.notDone
      rw [← hall, ← hrest]
      exact List.mem_append_right _ List.mem_cons_self
    · -- the request is the last one, so that all the others are before it
      rw [hall] at hrest
      have hpre : pre = reqs := by
        rcases List.append_eq_append_iff.1 hrest with ⟨mid, hreqs, hmid⟩ | ⟨mid, hpre, hmid⟩
        · cases mid with
          | nil => rw [hreqs, List.append_nil]
          | cons r mid =>
              rw [List.cons_append, List.cons.injEq] at hmid
              refine absurd ?_ htokens.notDone
              rw [hreqs, ← hmid.1]
              exact List.mem_append_right _ List.mem_cons_self
        · cases mid with
          | nil => rw [hpre, List.append_nil]
          | cons r mid => simp at hmid
      rw [hpre, htokens.parts]

/-- In every run in which no task gets actions from the splitter, and none finds that the tokens of the
session are done, while the other party has requests to enqueue, and in which no text is fed behind the
end of the input, the requests of the session are in the order in which the splitter emitted the actions
they stand for. -/
theorem requests_in_order {config : SpliterConfig F} {settings : RatioSettings F} {s : Spliter F}
    (hnew : Spliter.new config settings = .ok s) (hd : Reaches step Clean (new s) d) : d.InOrder := by
  obtain ⟨hfresh, -⟩ := new_spec hnew
  have hordered : d.Ordered :=
    hd.invariant (new_ordered hfresh) fun _ _ _ h hclean hstep => h.step hclean hstep
  exact hordered.inOrder

end SessionDispatch

end

/-! ### Two sessions with a small splitter -/

section

/-- A session of the small splitter after the given events. -/
def smallSession (P : SessionDispatch Rat → DispatchEvent Rat → Prop) [∀ d e, Decidable (P d e)]
    (events : List (DispatchEvent Rat)) : Option (SessionDispatch Rat) :=
  match Spliter.new (smallConfig 2) smallSettings with
  | .ok s => tries SessionDispatch.step P (.new s) events
  | .error _ => none

theorem smallSession_reaches {P : SessionDispatch Rat → DispatchEvent Rat → Prop}
    [∀ d e, Decidable (P d e)] {events : List (DispatchEvent Rat)} {d : SessionDispatch Rat}
    (h : smallSession P events = some d) :
    ∃ s, Spliter.new (smallConfig 2) smallSettings = .ok s ∧
      Reaches SessionDispatch.step P (.new s) d := by
  unfold smallSession at h
  split at h
  · next s hs => exact ⟨s, hs, reaches_of_tries .start h⟩
  · cases h

/-- Two texts, and the end of the first segment between the end of the input and its requests. -/
def inOrderEvents : List (DispatchEvent Rat) :=
  [.drive .locked (.feedTokens (smallTokens 6) {}) false, .put .locked, .put .locked, .put .locked,
    .put .locked, .drive .locked (.feedTokens (smallTokens 1) {}) false, .put .locked,
    .drive .consumer (.onSegmentDone 0) false, .drive .locked .inputDone true, .put .locked,
    .check .locked, .put .locked, .check .consumer]

theorem requests_in_order_two_segments :
    ∃ d, smallSession SessionDispatch.Clean inOrderEvents = some d ∧
      d.inbox = [.startTokens 0 [0], .appendTokens 0 [1, 2, 3, 4], .segmentTokensDone 0 true,
        .startTokens 1 [5], .appendTokens 1 [0], .segmentTokensDone 1 true, .sessionTokensDone] ∧
      d.InOrder := by
  have hsome : (smallSession SessionDispatch.Clean inOrderEvents).map (·.inbox)
      = some [.startTokens 0 [0], .appendTokens 0 [1, 2, 3, 4], .segmentTokensDone 0 true,
        .startTokens 1 [5], .appendTokens 1 [0], .segmentTokensDone 1 true, .sessionTokensDone] := by
    decide +kernel
  obtain ⟨d, hrun, hinbox⟩ := Option.map_eq_some_iff.1 hsome
  obtain ⟨s, hnew, hd⟩ := smallSession_reaches hrun
  exact ⟨d, hrun, hinbox, SessionDispatch.requests_in_order hnew hd⟩

/-- A full text of two segments. The first one is over while the start of the second one waits for room
in the inbox, and the consumer of the results finds that the splitter has nothing left. -/
def overtakenEvents : List (DispatchEvent Rat) :=
  [.drive .locked (.setFullText (smallTokens 7) [] []) true, .put .locked, .put .locked, .put .locked,
    .drive .consumer (.onSegmentDone 0) false, .check .consumer, .put .locked, .put .consumer,
    .put .locked, .put .locked]

/-- The end of the session's tokens is enqueued before the tokens of the second segment. -/
theorem tokens_done_overtakes :
    ∃ s d, Spliter.new (smallConfig 2) smallSettings = .ok s ∧
      Reaches SessionDispatch.step (fun _ _ => True) (.new s) d ∧
      d.inbox = [.startTokens 0 [0], .appendTokens 0 [1, 2, 3, 4], .segmentTokensDone 0 true,
        .startTokens 1 [5], .sessionTokensDone, .appendTokens 1 [6], .segmentTokensDone 1 true] ∧
      ¬ d.InOrder := by
  have hsome : (smallSession (fun _ _ => True) overtakenEvents).map
      (fun d => (d.inbox, d.history.actions.length))
      = some ([.startTokens 0 [0], .appendTokens 0 [1, 2, 3, 4], .segmentTokensDone 0 true,
        .startTokens 1 [5], .sessionTokensDone, .appendTokens 1 [6], .segmentTokensDone 1 true], 9) := by
    decide +kernel
  obtain ⟨d, hrun, hfacts⟩ := Option.map_eq_some_iff.1 hsome
  rw [Prod.mk.injEq] at hfacts
  obtain ⟨s, hnew, hd⟩ := smallSession_reaches hrun
  refine ⟨s, d, hnew, hd, hfacts.1, fun horder => ?_⟩
  have hlen := congrArg List.length (horder.tokensDone
    [.startTokens 0 [0], .appendTokens 0 [1, 2, 3, 4], .segmentTokensDone 0 true, .startTokens 1 [5]]
    _ hfacts.1)
  rw [List.length_map, hfacts.2] at hlen
  exact absurd hlen (by decide)

end

end StreamingTts.Frontend
