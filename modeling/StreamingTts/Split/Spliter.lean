import Mathlib.Data.List.AList
import Mathlib.Data.Finset.Basic
import StreamingTts.Split.Presplit

/-!
# The splitter

`Spliter` of `engine/frontend/spliter/spliter.py`. Three ways of feeding text (streaming, planned
groups, and by size) share one queue of pending tokens, and one core drives it: `_drive_one_segment`
advances the segment that still takes text, or opens the next one if fewer than `max_concurrent`
segments are in flight, and `_drive_events` repeats that until nothing comes of it.

The dictionaries that are keyed by the segment index get and lose their keys together and are one
here. An operation that raises is an error with the message of the exception.
-/

namespace StreamingTts.Split

/-- `SegmentAction`. -/
structure SegmentAction where
  segmentIdx : Nat
  action : ActionResult
  groupIdx : Nat
  localIdx : Nat
  groupFinal : Bool
  tokenText : String
  normalizedStart : Int
  normalizedEnd : Int
  rawStart : Int
  rawEnd : Int
  deriving DecidableEq, Repr

/-- What the splitter keeps about a segment that is not done: its driver, its public coordinates, the
key of its group, and the two ratios frozen when it opened. -/
structure SegmentEntry (F : Type) where
  driver : StreamingDriver
  groupIdx : Nat
  localIdx : Nat
  groupKey : Option Nat
  emaRatio : F
  safetyRatio : F

/-- The arguments of the splitter, less those of its ratio controller. -/
structure SpliterConfig (F : Type) where
  engineMax : Int
  prefillLen : Int
  safetyMargin : Int
  maxConcurrent : Nat
  tiers : TierRatios F

/-- `Spliter`. -/
structure Spliter (F : Type) where
  config : SpliterConfig F
  ratios : SplitRatioController F
  pending : List (PendingToken F)
  nextGroupKey : Nat
  nextOutputGroupIdx : Nat
  inputComplete : Bool
  segments : AList (fun _ : Nat => SegmentEntry F)
  nextSegmentIdx : Nat
  groupNextLocal : AList (fun _ : Nat => Nat)
  groupOutputIdx : AList (fun _ : Nat => Nat)
  flushing : Finset Nat
  done : Finset Nat
  nextPlanId : Nat

/-- The boundary arguments of an input operation; the indices are those of the tokens given to it. -/
structure BoundaryMarks where
  forceBoundary : Bool := false
  forceBoundaryBefore : Bool := false
  forceBoundaryIndices : List Int := []
  forceBoundaryBeforeIndices : List Int := []
  deriving DecidableEq, Repr

/-- Whether an action closes its segment. -/
def ActionResult.isFlush (r : ActionResult) : Bool :=
  decide (r.type = .flushEos ∨ r.type = .flushNop)

/-- `_make_event`. -/
def makeEvent (token : SegmentToken) : SpliterEvent :=
  if 0 < token.punctLevel then
    { type := .punctuationToken, token := token.tokenId, text := token.text,
      punctLevel := token.punctLevel }
  else { type := .normalToken, token := token.tokenId, text := token.text, punctLevel := 0 }

/-- The results of a driver as actions of its segment, for the token that caused them, if any. -/
def SegmentEntry.actions {F : Type} (seg : SegmentEntry F) (idx : Nat) (token : Option SegmentToken)
    (results : List ActionResult) : List SegmentAction :=
  results.map fun r =>
    { segmentIdx := idx
      action := r
      groupIdx := seg.groupIdx
      localIdx := seg.localIdx
      groupFinal := seg.groupKey.isNone
      tokenText := if r.isFlush then "" else (token.map (·.text)).getD ""
      normalizedStart := (token.map (·.normalizedStart)).getD 0
      normalizedEnd := (token.map (·.normalizedEnd)).getD 0
      rawStart := (token.map (·.rawStart)).getD 0
      rawEnd := (token.map (·.rawEnd)).getD 0 }

/-- The variables of `_drive_one_segment`: the actions, the driver and the queue, and, once the
segment is flushed, whether its group is exhausted. -/
structure SegmentTurn (F : Type) where
  out : List SegmentAction
  driver : StreamingDriver
  pending : List (PendingToken F)
  flushed : Option Bool

namespace SegmentEntry
section
variable {F : Type} (seg : SegmentEntry F) (idx : Nat)

/-- The segment is closed with `END`. -/
def endTurn (turn : SegmentTurn F) : SegmentTurn F :=
  let ended := turn.driver.feed { type := .end_ }
  { turn with
    out := turn.out ++ seg.actions idx none ended.2
    driver := ended.1
    flushed := some true }

/-- The loop of `_drive_one_segment` over the tokens of the segment's group. -/
def feedPending : StreamingDriver → List (PendingToken F) → SegmentTurn F
  | d, [] => ⟨[], d, [], none⟩
  | d, pt :: rest =>
      if pt.groupKey ≠ seg.groupKey then ⟨[], d, pt :: rest, none⟩
      else if pt.boundaryBefore ∧ 0 < d.tokenCount then
        seg.endTurn idx ⟨[], d, pt :: rest, none⟩
      else
        let fed := d.feed (makeEvent pt.token)
        let out := seg.actions idx (some pt.token) fed.2
        if fed.2.any (·.isFlush) then ⟨out, fed.1, rest, some pt.boundary⟩
        else if pt.boundary then seg.endTurn idx ⟨out, fed.1, rest, none⟩
        else
          let turn := feedPending fed.1 rest
          { turn with out := out ++ turn.out }

/-- The hand-off to another group, and the end of the input. -/
def closeTurn (inputComplete : Bool) (turn : SegmentTurn F) : SegmentTurn F :=
  let handedOff :=
    match turn.flushed, turn.pending with
    | none, pt :: _ => if pt.groupKey ≠ seg.groupKey then seg.endTurn idx turn else turn
    | _, _ => turn
  if handedOff.flushed.isNone ∧ inputComplete ∧ handedOff.pending.isEmpty then
    seg.endTurn idx handedOff
  else handedOff

end
end SegmentEntry

namespace Spliter
section
variable {F : Type}

/-- `_get_active_driver_idx`: the newest segment that is neither flushing nor done. -/
def activeDriverIdx (s : Spliter F) : Option Nat :=
  (List.range s.nextSegmentIdx).reverse.find? fun idx => decide (idx ∉ s.flushing ∧ idx ∉ s.done)

/-- `active_segment_count`. -/
def activeSegmentCount (s : Spliter F) : Nat := s.segments.entries.length

/-- `_finalize_segment`: the actions of a flushed segment are stamped, and the counters of its group
advance. -/
def finalizeSegment (s : Spliter F) (seg : SegmentEntry F) (out : List SegmentAction)
    (groupExhausted : Bool) : List SegmentAction × Spliter F :=
  let stamped := out.map fun a => { a with groupFinal := seg.groupKey.isNone || groupExhausted }
  match seg.groupKey with
  | none => (stamped, s)
  | some key =>
      if groupExhausted then
        (stamped, { s with
          groupNextLocal := s.groupNextLocal.erase key
          groupOutputIdx := s.groupOutputIdx.erase key })
      else (stamped, { s with groupNextLocal := s.groupNextLocal.insert key (seg.localIdx + 1) })

/-- The rest of `_drive_one_segment`, once the segment is known; `out` are the actions of its
opening. -/
def advanceSegment (s : Spliter F) (idx : Nat) (out : List SegmentAction) :
    Except String (List SegmentAction × Spliter F) :=
  match s.segments.lookup idx with
  | none => .error ("KeyError: " ++ toString idx)
  | some seg =>
      let turn := seg.closeTurn idx s.inputComplete (seg.feedPending idx seg.driver s.pending)
      let out := out ++ turn.out
      let s := { s with
        pending := turn.pending
        segments := s.segments.insert idx { seg with driver := turn.driver }
        flushing := if out.any (·.action.isFlush) then insert idx s.flushing else s.flushing }
      match turn.flushed with
      | none => .ok (out, s)
      | some groupExhausted => .ok (s.finalizeSegment seg out groupExhausted)

variable [RatioArith F]

/-- `_make_thresholds`. -/
def makeThresholds (s : Spliter F) : Except String SplitThresholds :=
  computeThresholds (s.config.engineMax - s.config.prefillLen) s.ratios.safetyRatio
    s.config.safetyMargin s.config.tiers

/-- `_make_presplit_plan`: a plan that is a new object. -/
def makePresplitPlan (s : Spliter F) : Except String (PresplitPlan F × Spliter F) := do
  let thresholds ← s.makeThresholds
  .ok ({ id := s.nextPlanId, safetyRatio := s.ratios.safetyRatio, thresholds := thresholds },
    { s with nextPlanId := s.nextPlanId + 1 })

/-- The thresholds and the safety ratio of a segment that opens with the token `head`: those of the
plan of its group, or the live ones of a streaming segment. -/
def openingThresholds (s : Spliter F) (head : PendingToken F) :
    Except String (SplitThresholds × F) :=
  match head.groupKey, head.plan with
  | none, _ => do
      let thresholds ← s.makeThresholds
      .ok (thresholds, s.ratios.safetyRatio)
  | some key, none =>
      .error ("pre-split group " ++ toString key ++ " is missing its capacity contract")
  | some _, some plan =>
      .ok
        ({ minTokensL1 := plan.cap
           minTokensL2 := plan.cap
           minTokensL3 := plan.cap
           forceSplitAt := plan.cap }, plan.safetyRatio)

/-- The public coordinates of a segment that opens for a group key: a new group, or the next fragment
of a group that has some. -/
def openingCoordinates (s : Spliter F) (key : Option Nat) : (Nat × Nat) × Spliter F :=
  match key with
  | none => ((s.nextOutputGroupIdx, 0), { s with nextOutputGroupIdx := s.nextOutputGroupIdx + 1 })
  | some k =>
      match s.groupOutputIdx.lookup k with
      | some groupIdx => ((groupIdx, (s.groupNextLocal.lookup k).getD 0), s)
      | none =>
          ((s.nextOutputGroupIdx, (s.groupNextLocal.lookup k).getD 0),
            { s with
              groupOutputIdx := s.groupOutputIdx.insert k s.nextOutputGroupIdx
              nextOutputGroupIdx := s.nextOutputGroupIdx + 1 })

/-- `_open_segment` for the token `head` of the queue: the new index and the actions of `START`. -/
def openSegment (s : Spliter F) (head : PendingToken F) :
    Except String (Nat × List SegmentAction × Spliter F) := do
  let opening ← s.openingThresholds head
  let coords := s.openingCoordinates head.groupKey
  let started := (StreamingDriver.new opening.1).feed { type := .start }
  let seg : SegmentEntry F :=
    { driver := started.1
      groupIdx := coords.1.1
      localIdx := coords.1.2
      groupKey := head.groupKey
      emaRatio := s.ratios.durationRatio
      safetyRatio := opening.2 }
  .ok (s.nextSegmentIdx, seg.actions s.nextSegmentIdx none started.2,
    { coords.2 with
      segments := s.segments.insert s.nextSegmentIdx seg
      nextSegmentIdx := s.nextSegmentIdx + 1 })

/-- `_drive_one_segment`. -/
def driveOneSegment (s : Spliter F) : Except String (List SegmentAction × Spliter F) :=
  match s.activeDriverIdx, s.pending with
  | some idx, _ => s.advanceSegment idx []
  | none, [] => .ok ([], s)
  | none, head :: _ =>
      if s.config.maxConcurrent ≤ s.activeSegmentCount then .ok ([], s)
      else do
        let opened ← s.openSegment head
        opened.2.2.advanceSegment opened.1 opened.2.1

/-- The loop of `_drive_events`, for the given number of turns. -/
def driveTurns : Nat → Spliter F → Except String (List SegmentAction × Spliter F)
  | 0, s => .ok ([], s)
  | turns + 1, s => do
      let one ← s.driveOneSegment
      if one.1.isEmpty then .ok ([], one.2)
      else
        let rest ← driveTurns turns one.2
        .ok (one.1 ++ rest.1, rest.2)

/-- `_drive_events`. Every turn takes a token or closes a segment, and no two turns in a row take no
token, so twice the length of the queue and two more turns are enough. -/
def driveEvents (s : Spliter F) : Except String (List SegmentAction × Spliter F) :=
  s.driveTurns (2 * s.pending.length + 2)

/-! ## Input -/

/-- A mark is set on the token at an index, if there is one. -/
def setMark (mark : PendingToken F → PendingToken F) (tokens : List (PendingToken F)) (i : Int) :
    List (PendingToken F) :=
  if 0 ≤ i ∧ i < tokens.length then tokens.modify i.toNat mark else tokens

/-- A boundary before a token. -/
def markBefore (pt : PendingToken F) : PendingToken F := { pt with boundaryBefore := true }

/-- A forced boundary after a token. -/
def markAfter (pt : PendingToken F) : PendingToken F :=
  { pt with boundary := true, forcedBoundary := true }

/-- The boundary arguments of an input operation, on the tokens that it added to the queue. -/
def applyMarks (m : BoundaryMarks) (added : List (PendingToken F)) : List (PendingToken F) :=
  let added := if m.forceBoundaryBefore then setMark markBefore added 0 else added
  let added := if m.forceBoundary then setMark markAfter added ((added.length : Int) - 1) else added
  let added := m.forceBoundaryBeforeIndices.foldl (setMark markBefore) added
  m.forceBoundaryIndices.foldl (setMark markAfter) added

/-- The queued tokens of a streaming text. -/
def streamPending (tokens : List SegmentToken) : List (PendingToken F) :=
  tokens.map fun token => { token := token, groupKey := none }

/-- `_enqueue_presplit_groups`, with the marks on the tokens that it adds. -/
def enqueuePresplitGroups (s : Spliter F) (tokens : List SegmentToken) (m : BoundaryMarks) :
    Except String (Spliter F) := do
  let planned ← s.makePresplitPlan
  let built ← buildPlannedPending tokens planned.1 s.nextGroupKey
  .ok { planned.2 with pending := s.pending ++ applyMarks m built.1, nextGroupKey := built.2 }

/-- Streaming tokens join the queue. -/
def enqueueStream (s : Spliter F) (tokens : List SegmentToken) (m : BoundaryMarks) : Spliter F :=
  { s with pending := s.pending ++ applyMarks m (streamPending tokens) }

/-- The room `feed_auto` sees: the capacity of the next segment, or what the active one has left. -/
def autoRoom (s : Spliter F) : Except String Int :=
  match s.activeDriverIdx with
  | none => do
      let thresholds ← s.makeThresholds
      .ok thresholds.forceSplitAt
  | some idx =>
      match s.segments.lookup idx with
      | none => .error ("KeyError: " ++ toString idx)
      | some seg => .ok (seg.driver.thresholds.forceSplitAt - seg.driver.tokenCount)

/-- The input of `feed_auto`: a text that has no room is planned, one that has joins the stream. -/
def enqueueAuto (s : Spliter F) (tokens : List SegmentToken) (m : BoundaryMarks) :
    Except String (Spliter F) :=
  if tokens.isEmpty then .ok s
  else do
    let room ← s.autoRoom
    if room < tokens.length then s.enqueuePresplitGroups tokens m
    else .ok (s.enqueueStream tokens m)

/-- The queue of `set_full_text`: the old one is dropped and the numbering of the groups begins
anew. -/
def replaceText (s : Spliter F) (tokens : List SegmentToken) (after before : List Int) :
    Except String (Spliter F) := do
  let cleared := { s with
    pending := [], nextGroupKey := 0, nextOutputGroupIdx := 0, groupOutputIdx := ∅ }
  let queued ← cleared.enqueuePresplitGroups tokens {}
  .ok { queued with
    pending := before.foldl (setMark markBefore) (after.foldl (setMark markAfter) queued.pending)
    inputComplete := true }

/-! ## Feedback -/

/-- `_tighten_pending_presplit_plans`. -/
def tightenPendingPresplitPlans (s : Spliter F) : Except String (Spliter F) :=
  if s.pending.isEmpty then .ok s
  else do
    let planned ← s.makePresplitPlan
    let keys := s.pending.filterMap (·.groupKey)
    let looser := s.pending.any fun pt =>
      match pt.groupKey, pt.plan with
      | some _, some plan => decide (planned.1.cap < plan.cap)
      | _, _ => false
    -- the continuation of a group that has public coordinates would not be numbered anew
    let exposed := keys.any fun key => (s.groupNextLocal.lookup key).isSome
    if keys.isEmpty ∨ !looser ∨ exposed then .ok planned.2
    else
      let rebuilt ← replan planned.1 s.pending.length planned.2.nextPlanId
        (keys.foldl min (keys.headD 0)) s.pending
      .ok { planned.2 with
        pending := rebuilt.1
        nextGroupKey := max s.nextGroupKey rebuilt.2.1
        nextPlanId := rebuilt.2.2 }

/-- `set_duration_ratio`. -/
def setDurationRatio (s : Spliter F) (ratio : F) : Except String (Spliter F) := do
  let ratios ← s.ratios.setDurationRatio ratio
  let updated := { s with ratios := ratios }
  if s.ratios.safetyRatio < ratios.safetyRatio then updated.tightenPendingPresplitPlans
  else .ok updated

/-- `safety_ratio_for_segment`. -/
def safetyRatioForSegment (s : Spliter F) (idx : Nat) : F :=
  ((s.segments.lookup idx).map (·.safetyRatio)).getD s.ratios.safetyRatio

/-- `observe_segment`. -/
def observeSegment (s : Spliter F) (audioSteps textTokens : Int) (outcome : RatioOutcome)
    (segmentIdx : Option Nat) : Except String (RatioObservation F × Spliter F) := do
  let seen := s.ratios.observe audioSteps textTokens outcome
    (segmentIdx.map s.safetyRatioForSegment)
  let updated := { s with ratios := seen.2 }
  if seen.1.safetyTightened then
    let tightened ← updated.tightenPendingPresplitPlans
    .ok (seen.1, tightened)
  else .ok (seen.1, updated)

/-- `on_segment_done` before it drives the queue. -/
def releaseSegment (s : Spliter F) (idx : Nat) : Spliter F :=
  { s with
    done := insert idx s.done
    flushing := s.flushing.erase idx
    segments := s.segments.erase idx }

/-- `reset`. -/
def reset (s : Spliter F) : Spliter F :=
  { config := s.config
    ratios := SplitRatioController.start s.ratios.settings
    pending := []
    nextGroupKey := 0
    nextOutputGroupIdx := 0
    inputComplete := false
    segments := ∅
    nextSegmentIdx := 0
    groupNextLocal := ∅
    groupOutputIdx := ∅
    flushing := ∅
    done := ∅
    nextPlanId := s.nextPlanId }

/-- A new splitter. -/
def new (config : SpliterConfig F) (settings : RatioSettings F) : Except String (Spliter F) := do
  let ratios ← SplitRatioController.new settings
  .ok
    { config := config
      ratios := ratios
      pending := []
      nextGroupKey := 0
      nextOutputGroupIdx := 0
      inputComplete := false
      segments := ∅
      nextSegmentIdx := 0
      groupNextLocal := ∅
      groupOutputIdx := ∅
      flushing := ∅
      done := ∅
      nextPlanId := 0 }

end
end Spliter

/-! ## Operations -/

/-- An operation of the splitter. `update_ratio` is `observe_segment` without a segment. -/
inductive SpliterOp (F : Type)
  | feedTokens (tokens : List SegmentToken) (marks : BoundaryMarks)
  | feedAuto (tokens : List SegmentToken) (marks : BoundaryMarks)
  | pushGroupTokens (tokens : List SegmentToken) (marks : BoundaryMarks)
  | setFullText (tokens : List SegmentToken) (after before : List Int)
  | inputDone
  | onSegmentDone (idx : Nat)
  | setDurationRatio (ratio : F)
  | observeSegment (audioSteps textTokens : Int) (outcome : RatioOutcome) (segmentIdx : Option Nat)
  | reset

/-- Whether an operation drives the queue: `feed_auto` and `push_group_tokens` return at once when
there are no tokens, and feedback does not drive. -/
def SpliterOp.drives {F : Type} : SpliterOp F → Bool
  | .feedTokens _ _ => true
  | .feedAuto tokens _ => !tokens.isEmpty
  | .pushGroupTokens tokens _ => !tokens.isEmpty
  | .setFullText _ _ _ => true
  | .inputDone => true
  | .onSegmentDone _ => true
  | .setDurationRatio _ => false
  | .observeSegment _ _ _ _ => false
  | .reset => false

namespace Spliter
section
variable {F : Type} [RatioArith F]

/-- What an operation does before it drives the queue. -/
def prepare (s : Spliter F) : SpliterOp F → Except String (Spliter F)
  | .feedTokens tokens marks => .ok (s.enqueueStream tokens marks)
  | .feedAuto tokens marks => s.enqueueAuto tokens marks
  | .pushGroupTokens tokens marks =>
      if tokens.isEmpty then .ok s else s.enqueuePresplitGroups tokens marks
  | .setFullText tokens after before => s.replaceText tokens after before
  | .inputDone => .ok { s with inputComplete := true }
  | .onSegmentDone idx => .ok (s.releaseSegment idx)
  | .setDurationRatio ratio => s.setDurationRatio ratio
  | .observeSegment audioSteps textTokens outcome segmentIdx => do
      let seen ← s.observeSegment audioSteps textTokens outcome segmentIdx
      .ok seen.2
  | .reset => .ok s.reset

/-- An operation: its actions and the new state. -/
def step (s : Spliter F) (op : SpliterOp F) : Except String (List SegmentAction × Spliter F) := do
  let prepared ← s.prepare op
  if op.drives then prepared.driveEvents else .ok ([], prepared)

end
end Spliter

end StreamingTts.Split
