import Mathlib
import StreamingTts.Frontend.Classify

/-!
# Native cursor plans

`CursorOwnerSpan` and `CursorLabelPlan` of `engine/core/native_cursor.py`, and the
`CursorLabelPlanAdapter` of `engine/core/cursor_plan_adapter.py` that builds the plans from committed
text. The checks of `__post_init__` are fields of the two structures, and `new` is the constructor that
makes them. The adapter keeps the last plan, and labels the new commits only when the caller hands that
plan back and the commits and spoken texts it was built from are still the first ones.

A commit is any object with the attributes that the adapter reads; `rest` is what else `==` compares.
-/

namespace StreamingTts.Engine

open Frontend (Text SpanKind)

namespace Cursor

/-! ## Plans -/

/-- The coordinates of a `CursorOwnerSpan`. -/
structure OwnerFields where
  ownerId : Nat
  labelStart : Nat
  labelEnd : Nat
  normalizedStart : Int
  normalizedEnd : Int
  rawStart : Int
  rawEnd : Int
  deriving DecidableEq, Repr

/-- `CursorOwnerSpan`, with what `__post_init__` checks. -/
structure CursorOwnerSpan extends OwnerFields where
  label_le : labelStart ≤ labelEnd
  normalized_nonneg : 0 ≤ normalizedStart
  normalized_le : normalizedStart ≤ normalizedEnd
  raw_nonneg : 0 ≤ rawStart
  raw_le : rawStart ≤ rawEnd
  deriving DecidableEq

/-- `CursorOwnerSpan(…)`. -/
def CursorOwnerSpan.new (f : OwnerFields) : Except String CursorOwnerSpan :=
  if hlabel : f.labelEnd < f.labelStart then .error "invalid label owner span"
  else if hnormalized : f.normalizedStart < 0 ∨ f.normalizedEnd < f.normalizedStart then
    .error "invalid normalized owner span"
  else if hraw : f.rawStart < 0 ∨ f.rawEnd < f.rawStart then .error "invalid raw owner span"
  else .ok ⟨f, by omega, by omega, by omega, by omega, by omega⟩

/-- The fields of a `CursorLabelPlan`. -/
structure PlanFields where
  labelIds : List Int := []
  ownerSpans : List CursorOwnerSpan := []
  revision : Int := 0
  final : Bool := false
  labelNormalizedSpans : List (Int × Int) := []
  deriving DecidableEq

/-- The loop over `owner_spans` in `__post_init__`, which gives the end of the last one. -/
def coverage : Nat → Nat → List CursorOwnerSpan → Except String Nat
  | _, previousEnd, [] => .ok previousEnd
  | index, previousEnd, owner :: owners =>
      if owner.labelStart ≠ previousEnd then
        .error s!"owner spans must cover labels contiguously from zero (owner index {index})"
      else if owner.labelEnd ≤ owner.labelStart then
        .error "owner spans must contain at least one label"
      else coverage (index + 1) owner.labelEnd owners

/-- The loop over `label_normalized_spans` in `__post_init__`. -/
def ordered : Int → Int → List (Int × Int) → Except String Unit
  | _, _, [] => .ok ()
  | lastStart, lastEnd, (start, stop) :: spans =>
      if start < lastStart ∨ stop < lastEnd ∨ stop ≤ start then
        .error "label spans must be nonempty and ordered"
      else ordered start stop spans

/-- Some label of the owner lies outside of it. -/
def escapes (spans : List (Int × Int)) (owner : CursorOwnerSpan) : Bool :=
  ((spans.take owner.labelEnd).drop owner.labelStart).any fun (start, stop) =>
    start < owner.normalizedStart || owner.normalizedEnd < stop

/-- `CursorLabelPlan.__post_init__`. -/
def PlanFields.check (f : PlanFields) : Except String Unit := do
  if f.revision < 0 then throw "plan revision must be non-negative"
  if f.labelIds.any (· < 0) then throw "cursor label ids must be non-negative integers"
  let previousEnd ← coverage 0 0 f.ownerSpans
  if previousEnd ≠ f.labelIds.length then throw "owner spans must cover the complete label plan"
  if f.labelNormalizedSpans ≠ [] then
    if f.labelNormalizedSpans.length ≠ f.labelIds.length then
      throw "label spans must align one-to-one with labels"
    ordered 0 0 f.labelNormalizedSpans
    if f.ownerSpans.any (escapes f.labelNormalizedSpans) then
      throw "label provenance must stay inside its owner"

/-- `CursorLabelPlan`, with what `__post_init__` checks. -/
structure CursorLabelPlan extends PlanFields where
  checked : toPlanFields.check = .ok ()
  deriving DecidableEq

/-- `CursorLabelPlan(…)`. -/
def CursorLabelPlan.new (f : PlanFields) : Except String CursorLabelPlan :=
  match h : f.check with
  | .error message => .error message
  | .ok () => .ok ⟨f, h⟩

/-! ## Commits -/

variable {γ : Type}

/-- The attributes of a commit that the adapter reads; `rest` are the others. -/
structure CommitRecord (γ : Type) where
  commitId : Int := 0
  spanId : Int := 0
  rawStart : Int := 0
  rawEnd : Int := 0
  mapping : List (List Int) := []
  rawText : Option Text := none
  spanKind : Option SpanKind := none
  ttsText : Text := []
  rest : γ
  deriving DecidableEq

/-- `_owner_id`. -/
def ownerId (commit : CommitRecord γ) (ordinal : Nat) : Nat :=
  if 0 < commit.commitId then commit.commitId.toNat
  else if 0 < commit.spanId then commit.spanId.toNat
  else ordinal + 1

/-- The loop of `_raw_span` over the mapping. -/
def mappedSpans (start stop : Int) : List (List Int) → Except String (List (Int × Int))
  | [] => .ok []
  | [mappedStart, mappedEnd] :: items =>
      if mappedStart < start ∨ mappedEnd < mappedStart ∨ stop < mappedEnd then
        .error "commit mapping must stay inside the commit raw span"
      else do return (mappedStart, mappedEnd) :: (← mappedSpans start stop items)
  | _ :: _ => .error "commit mapping entries must be [start, end]"

/-- `_raw_span`. -/
def rawSpan (commit : CommitRecord γ) : Except String (Int × Int) :=
  if commit.rawStart < 0 ∨ commit.rawEnd < commit.rawStart then
    .error "commit raw span is invalid"
  else do
    match ← mappedSpans commit.rawStart commit.rawEnd commit.mapping with
    | [] => return (commit.rawStart, commit.rawEnd)
    | (start, stop) :: mapped =>
        return ((mapped.map Prod.fst).foldl min start, (mapped.map Prod.snd).foldl max stop)

/-- `_is_literal_commit`. -/
def isLiteralCommit (commit : CommitRecord γ) (spoken : Text) (rawStart rawEnd : Int) : Bool :=
  commit.rawText = some spoken && rawEnd - rawStart = spoken.length

/-- `_literal_owner_id`. -/
def literalOwnerId (ownerId ordinal : Nat) : Nat := (ownerId <<< 32) ||| (ordinal + 1)

/-- `_is_character_aligned_identifier`. -/
def isCharacterAlignedIdentifier (commit : CommitRecord γ) (spoken : Text) (rawStart rawEnd : Int) :
    Bool :=
  (commit.spanKind = some .idCard || commit.spanKind = some .identifier)
    && match commit.rawText with
      | none => false
      | some rawText =>
          rawText ≠ []
            && rawText.all (fun c => c.isDigit || ('A' ≤ c && c ≤ 'Z') || ('a' ≤ c && c ≤ 'z'))
            && rawEnd - rawStart = rawText.length && rawText.length = spoken.length

/-! ## Labelizers -/

/-- What a labelizer raises. -/
inductive Raised
  | typeError
  | other
  deriving DecidableEq, Repr

/-- The injected labelizer: the call, and `encode_with_spans` where it has one, with or without the
keyword `strict`. -/
structure Labelizer where
  call : Text → Except Raised (List Int)
  encodeWithSpans : Option (Option Bool → Text → Except Raised (List Int × List (Int × Int)))

/-- The checks of the offsets that `encode_with_spans` gave. -/
def checkOffsets (spoken : Text) (answer : List Int × List (Int × Int)) :
    Except String (List Int × List (Int × Int)) :=
  if answer.2.length ≠ answer.1.length then .error "labelizer offset count mismatch"
  else if answer.2.any fun (left, right) => ¬ (0 ≤ left ∧ left < right ∧ right ≤ spoken.length) then
    .error "labelizer offset outside spoken text"
  else .ok answer

/-- The labels of a spoken text and their spans: the `try` block of `build`. -/
def Labelizer.labels (labelize : Labelizer) (spoken : Text) :
    Except String (List Int × List (Int × Int)) :=
  let answer : Option (List Int × List (Int × Int)) :=
    match labelize.encodeWithSpans with
    | some encodeWithSpans =>
        let encoded :=
          match encodeWithSpans (some false) spoken with
          | .error .typeError => encodeWithSpans none spoken
          | outcome => outcome
        match encoded with
        | .ok pair => (checkOffsets spoken pair).toOption
        | .error _ => none
    | none => (labelize.call spoken).toOption.map (·, [])
  match answer with
  | some answer => .ok answer
  | none => .error "cursor labelizer failed"

/-! ## The projection of commits to labels -/

/-- The variables of the loop of `build`. -/
structure Projection where
  labelIds : List Int := []
  labelSpans : List (Int × Int) := []
  owners : List CursorOwnerSpan := []
  seenOwnerIds : List Nat := []
  normalizedCursor : Int
  deriving DecidableEq

/-- A commit is split into one owner for each label. -/
def splitsCharacterOwners (commit : CommitRecord γ) (spoken : Text) (rawStart rawEnd : Int) : Bool :=
  isLiteralCommit commit spoken rawStart rawEnd
    || isCharacterAlignedIdentifier commit spoken rawStart rawEnd

/-- The commit of an owner: its id, its raw span, where its text starts, its first label and how many
spans its labels have. -/
structure OwnerOrigin where
  ownerId : Nat
  rawStart : Int
  rawEnd : Int
  normalizedStart : Int
  labelStart : Nat
  count : Nat

/-- The owner of one label of a split commit. The outer ones reach to the ends of the raw span. -/
def OwnerOrigin.literal (origin : OwnerOrigin) (subOrdinal : Nat) (span : Int × Int) : OwnerFields :=
  { ownerId := literalOwnerId origin.ownerId subOrdinal
    labelStart := origin.labelStart + subOrdinal
    labelEnd := origin.labelStart + subOrdinal + 1
    normalizedStart := origin.normalizedStart + span.1
    normalizedEnd := origin.normalizedStart + span.2
    rawStart := if subOrdinal = 0 then origin.rawStart else origin.rawStart + span.1
    rawEnd := if subOrdinal + 1 = origin.count then origin.rawEnd else origin.rawStart + span.2 }

/-- An owner is added under an id that is taken with it. -/
def Projection.addLiteral (p : Projection) (owner : CursorOwnerSpan) : Projection :=
  { p with
    seenOwnerIds := p.seenOwnerIds ++ [owner.ownerId]
    owners := p.owners ++ [owner] }

/-- The loop over the label spans of a commit that is split. -/
def addLiteralOwners (origin : OwnerOrigin) :
    Nat → List (Int × Int) → Projection → Except String Projection
  | _, [], p => .ok p
  | subOrdinal, span :: spans, p =>
      let subOwnerId := literalOwnerId origin.ownerId subOrdinal
      if subOwnerId ∈ p.seenOwnerIds then .error s!"duplicate cursor owner id {subOwnerId}"
      else do
        let owner ← CursorOwnerSpan.new (origin.literal subOrdinal span)
        addLiteralOwners origin (subOrdinal + 1) spans (p.addLiteral owner)

/-- The labels, the label spans and the text of a commit are taken over. -/
def Projection.extend (p : Projection) (ownerId : Nat) (spoken : Text) (labels : List Int)
    (spans : List (Int × Int)) : Projection :=
  { p with
    labelIds := p.labelIds ++ labels
    labelSpans := p.labelSpans
      ++ spans.map fun (left, right) => (p.normalizedCursor + left, p.normalizedCursor + right)
    seenOwnerIds := p.seenOwnerIds ++ [ownerId]
    normalizedCursor := p.normalizedCursor + spoken.length }

/-- The one owner of a commit that is not split. -/
def OwnerOrigin.whole (origin : OwnerOrigin) (labelEnd : Nat) (normalizedEnd : Int) : OwnerFields :=
  { ownerId := origin.ownerId
    labelStart := origin.labelStart
    labelEnd
    normalizedStart := origin.normalizedStart
    normalizedEnd
    rawStart := origin.rawStart
    rawEnd := origin.rawEnd }

/-- The owners of a commit with its labels, `p` being the variables of the loop with these labels. -/
def addOwners (splits : Bool) (origin : OwnerOrigin) (labels : List Int) (spans : List (Int × Int))
    (p : Projection) : Except String Projection :=
  if labels = [] then .ok p
  else if splits ∧ spans ≠ [] then addLiteralOwners origin 0 spans p
  else do
    let owner ← CursorOwnerSpan.new (origin.whole p.labelIds.length p.normalizedCursor)
    return { p with owners := p.owners ++ [owner] }

/-- One round of the loop of `build`. -/
def addCommit (labelize : Labelizer) (ordinal : Nat) (commit : CommitRecord γ) (spoken : Text)
    (p : Projection) : Except String Projection :=
  if spoken = [] then .ok p
  else
    let id := ownerId commit ordinal
    if id ∈ p.seenOwnerIds then .error s!"duplicate cursor owner id {id}"
    else do
      let (rawStart, rawEnd) ← rawSpan commit
      let (labels, spans) ← labelize.labels spoken
      if labels.any (· < 0) then throw "cursor label ids must be non-negative"
      addOwners (splitsCharacterOwners commit spoken rawStart rawEnd)
        { ownerId := id, rawStart, rawEnd, normalizedStart := p.normalizedCursor
          labelStart := p.labelIds.length, count := spans.length }
        labels spans (p.extend id spoken labels spans)

/-- The loop of `build` over the commits and their spoken texts. -/
def project (labelize : Labelizer) :
    Nat → List (CommitRecord γ × Text) → Projection → Except String Projection
  | _, [], p => .ok p
  | ordinal, (commit, spoken) :: commits, p => do
      project labelize (ordinal + 1) commits (← addCommit labelize ordinal commit spoken p)

/-- The plan of a projection. -/
def Projection.plan (p : Projection) (revision : Int) (final : Bool) :
    Except String CursorLabelPlan :=
  CursorLabelPlan.new
    { labelIds := p.labelIds, ownerSpans := p.owners, revision, final
      labelNormalizedSpans := p.labelSpans }

/-! ## The adapter -/

/-- `_check_committed_prefix`. -/
def checkCommittedPrefix (plan : CursorLabelPlan) (previous : Option CursorLabelPlan)
    (committedLabelCount : Int) : Except String Unit :=
  if committedLabelCount < 0 then .error "committed_label_count must be non-negative"
  else
    let count := committedLabelCount.toNat
    match previous with
    | none => .ok ()
    | some previous =>
        if count = 0 then .ok ()
        else if previous.labelIds.length < count then
          .error "committed_label_count exceeds previous plan"
        else if plan.labelIds.length < count then .error "cursor plan rewrites committed labels"
        else if plan.labelIds.take count ≠ previous.labelIds.take count then
          .error "cursor plan rewrites committed labels"
        else if plan.labelNormalizedSpans.take count ≠ previous.labelNormalizedSpans.take count then
          .error "cursor plan rewrites committed label provenance"
        else if previous.ownerSpans.filter (·.labelStart < count)
            ≠ plan.ownerSpans.filter (·.labelStart < count) then
          .error "cursor plan rewrites committed owner spans"
        else .ok ()

/-- The argument `previous` of `build`: the plan object that the adapter itself holds, or another. -/
inductive Previous
  | cached
  | other (plan : Option CursorLabelPlan)

/-- The arguments of `build`. -/
structure Request (γ : Type) where
  commits : List (CommitRecord γ)
  spokenTexts : Option (List Text) := none
  normalizedBase : Int := 0
  revision : Int
  final : Bool := false
  previous : Previous := .other none
  committedLabelCount : Int := 0

/-- `effective_spoken`. -/
def Request.effectiveSpoken (r : Request γ) : List Text :=
  r.spokenTexts.getD (r.commits.map (·.ttsText))

/-- `CursorLabelPlanAdapter`. -/
structure Adapter (γ : Type) where
  lastRevision : Int := -1
  cachedCommits : List (CommitRecord γ) := []
  cachedSpokenTexts : List Text := []
  cachedPlan : Option CursorLabelPlan := none
  cachedNormalizedOrigin : Int := 0
  cachedNormalizedLength : Int := 0

/-- The plan that `previous` is. -/
def Previous.plan (previous : Previous) (self : Adapter γ) : Option CursorLabelPlan :=
  match previous with
  | .cached => self.cachedPlan
  | .other plan => plan

/-- `_cache_projection`, after `_last_revision` is set. -/
def Adapter.cacheProjection (self : Adapter γ) (revision : Int) (commits : List (CommitRecord γ))
    (spokenTexts : List Text) (plan : CursorLabelPlan) (normalizedOrigin : Int) : Adapter γ :=
  { self with
    lastRevision := revision
    cachedCommits := commits
    cachedSpokenTexts := spokenTexts
    cachedPlan := some plan
    cachedNormalizedOrigin := normalizedOrigin
    cachedNormalizedLength := normalizedOrigin + (spokenTexts.map List.length).sum }

/-- The checks of the arguments at the start of `build`. -/
def Adapter.checkArguments (self : Adapter γ) (r : Request γ) : Except String Unit := do
  if r.normalizedBase < 0 then throw "normalized_base must be non-negative"
  if r.revision < self.lastRevision then throw "cursor plan revision cannot move backwards"
  match r.spokenTexts with
  | some texts =>
      if texts.length ≠ r.commits.length then
        throw "spoken_texts must align one-to-one with commits"
  | none => pure ()

/-- The plan of all the commits of a request: what `build` does once the incremental path is out. -/
def rebuild (labelize : Labelizer) (r : Request γ) : Except String CursorLabelPlan := do
  let p ← project labelize 0 (r.commits.zip r.effectiveSpoken) { normalizedCursor := r.normalizedBase }
  p.plan r.revision r.final

variable [DecidableEq γ]

/-- The request extends the plan that the adapter holds, and that plan. -/
def Adapter.extends? (self : Adapter γ) (r : Request γ) : Option CursorLabelPlan :=
  let prefixLen := self.cachedCommits.length
  match self.cachedPlan, r.previous with
  | some cached, .cached =>
      if r.commits.length < prefixLen ∨ r.commits.take prefixLen ≠ self.cachedCommits
          ∨ r.effectiveSpoken.take prefixLen ≠ self.cachedSpokenTexts then none
      else some cached
  | _, _ => none

/-- The request that `_build_incremental` makes of its own adapter. -/
def Adapter.suffixRequest (self : Adapter γ) (r : Request γ) : Request γ :=
  { commits := r.commits.drop self.cachedCommits.length
    spokenTexts := some (r.effectiveSpoken.drop self.cachedCommits.length)
    normalizedBase := self.cachedNormalizedLength
    revision := r.revision
    final := r.final }

/-- `replace(owner, label_start=…, label_end=…)`. -/
def CursorOwnerSpan.replaceLabels (offset : Nat) (owner : CursorOwnerSpan) :
    Except String CursorOwnerSpan :=
  CursorOwnerSpan.new
    { owner.toOwnerFields with
      labelStart := owner.labelStart + offset, labelEnd := owner.labelEnd + offset }

/-- The plan of `_build_incremental`, without a value where it gives the full rebuild the word. The new
adapter it builds the suffix with holds no plan, so that its `build` is the full one. -/
def Adapter.buildIncremental (self : Adapter γ) (labelize : Labelizer) (r : Request γ) :
    Except String (Option CursorLabelPlan) :=
  match self.extends? r with
  | none => .ok none
  | some cached => do
      ({} : Adapter γ).checkArguments (self.suffixRequest r)
      let suffixPlan ← rebuild labelize (self.suffixRequest r)
      let ownerIds := cached.ownerSpans.map (·.ownerId)
      if suffixPlan.ownerSpans.any fun owner => owner.ownerId ∈ ownerIds then return none
      let shifted ← suffixPlan.ownerSpans.mapM (CursorOwnerSpan.replaceLabels cached.labelIds.length)
      let plan ← CursorLabelPlan.new
        { labelIds := cached.labelIds ++ suffixPlan.labelIds
          ownerSpans := cached.ownerSpans ++ shifted
          revision := r.revision
          final := r.final
          labelNormalizedSpans := cached.labelNormalizedSpans ++ suffixPlan.labelNormalizedSpans }
      checkCommittedPrefix plan (r.previous.plan self) r.committedLabelCount
      return some plan

/-- `build`: what the call gives or raises, and the adapter it leaves. -/
def Adapter.build (labelize : Labelizer) (self : Adapter γ) (r : Request γ) :
    Except String CursorLabelPlan × Adapter γ :=
  match self.checkArguments r with
  | .error message => (.error message, self)
  | .ok () =>
      match self.buildIncremental labelize r with
      | .error message => (.error message, self)
      | .ok (some plan) =>
          (.ok plan, self.cacheProjection r.revision r.commits r.effectiveSpoken plan
            self.cachedNormalizedOrigin)
      | .ok none =>
          match rebuild labelize r with
          | .error message => (.error message, self)
          | .ok plan =>
              match checkCommittedPrefix plan (r.previous.plan self) r.committedLabelCount with
              | .error message => (.error message, self)
              | .ok () =>
                  (.ok plan, self.cacheProjection r.revision r.commits r.effectiveSpoken plan
                    r.normalizedBase)

/-- The adapter after a call of `build`. -/
def Adapter.step (labelize : Labelizer) (self : Adapter γ) (r : Request γ) : Adapter γ :=
  (self.build labelize r).2

end Cursor

end StreamingTts.Engine
