import Mathlib.Data.List.Basic
import StreamingTts.Split.Ratio

/-!
# Stage 1: packing known text into groups

`pre_split`, `_build_planned_pending` and `_tighten_pending_presplit_plans` of
`engine/frontend/spliter/spliter.py`. A text that is known as a whole is packed into groups of at most
one segment's capacity, cut at the latest punctuation of the best tier. The queued tokens of a group
share a key and the plan it was packed under; the plans of two packets are different objects even
where they are equal, so a plan carries its identity.
-/

namespace StreamingTts.Split

/-- `SegmentToken`. -/
structure SegmentToken where
  tokenId : Int
  text : String
  punctLevel : Int := 0
  normalizedStart : Int := 0
  normalizedEnd : Int := 0
  rawStart : Int := 0
  rawEnd : Int := 0
  deriving DecidableEq, Repr

/-- `_PresplitPlan`; `id` is the identity of the object. -/
structure PresplitPlan (F : Type) where
  id : Nat
  safetyRatio : F
  thresholds : SplitThresholds
  deriving DecidableEq

/-- The capacity of the groups of a plan. -/
def PresplitPlan.cap {F : Type} (p : PresplitPlan F) : Int := p.thresholds.forceSplitAt

/-- `_PendingToken`. -/
structure PendingToken (F : Type) where
  token : SegmentToken
  groupKey : Option Nat
  boundary : Bool := false
  boundaryBefore : Bool := false
  forcedBoundary : Bool := false
  plan : Option (PresplitPlan F) := none

/-! ## Packing -/

/-- The latest index of each punctuation tier among the tokens of the group being packed. -/
structure TierPositions where
  l1 : Option Nat := none
  l2 : Option Nat := none
  l3 : Option Nat := none
  deriving DecidableEq, Repr

/-- A token at an index is noted in its tier. -/
def TierPositions.note (last : TierPositions) (i : Nat) (token : SegmentToken) : TierPositions :=
  if token.punctLevel = 1 then { last with l1 := some i }
  else if token.punctLevel = 2 then { last with l2 := some i }
  else if token.punctLevel = 3 then { last with l3 := some i }
  else last

/-- The tier positions of a list of tokens, from the given index on. -/
def TierPositions.scan : TierPositions → Nat → List SegmentToken → TierPositions
  | last, _, [] => last
  | last, i, token :: tokens => scan (last.note i token) (i + 1) tokens

/-- Where a full group is cut: at the latest position of the best tier. -/
def TierPositions.cut (last : TierPositions) : Option Nat :=
  match last.l1, last.l2, last.l3 with
  | some pos, _, _ => some pos
  | none, some pos, _ => some pos
  | none, none, pos => pos

/-- The variables of `pre_split`. -/
structure Packing where
  segments : List (List SegmentToken)
  current : List SegmentToken
  last : TierPositions

/-- One turn of the loop of `pre_split`. -/
def Packing.add (capacity : Int) (p : Packing) (token : SegmentToken) : Packing :=
  let current := p.current ++ [token]
  let last := p.last.note p.current.length token
  if capacity ≤ current.length then
    match last.cut with
    | some pos =>
        { segments := p.segments ++ [current.take (pos + 1)]
          current := current.drop (pos + 1)
          last := TierPositions.scan {} 0 (current.drop (pos + 1)) }
    | none => { segments := p.segments ++ [current], current := [], last := {} }
  else { p with current := current, last := last }

/-- `pre_split` at a capacity. -/
def preSplit (capacity : Int) (tokens : List SegmentToken) : List (List SegmentToken) :=
  let p := tokens.foldl (Packing.add capacity) { segments := [], current := [], last := {} }
  if p.current = [] then p.segments else p.segments ++ [p.current]

section
variable {F : Type}

/-- The queued tokens of one group. -/
def groupPending (plan : PresplitPlan F) (key : Nat) : List SegmentToken → List (PendingToken F)
  | [] => []
  | [token] => [{ token := token, groupKey := some key, boundary := true, plan := some plan }]
  | token :: tokens =>
      { token := token, groupKey := some key, plan := some plan } :: groupPending plan key tokens

/-- The loop of `_build_planned_pending` over the groups. -/
def groupsPending (plan : PresplitPlan F) :
    Nat → List (List SegmentToken) → Except String (List (PendingToken F) × Nat)
  | key, [] => .ok ([], key)
  | key, segTokens :: groups =>
      if segTokens = [] then groupsPending plan key groups
      else if plan.cap < segTokens.length then
        .error ("pre-split group exceeds its immutable capacity contract: "
          ++ "tokens=" ++ toString segTokens.length ++ " capacity=" ++ toString plan.cap)
      else do
        let rest ← groupsPending plan (key + 1) groups
        .ok (groupPending plan key segTokens ++ rest.1, rest.2)

/-- `_build_planned_pending`: the queued tokens and the next group key. -/
def buildPlannedPending (tokens : List SegmentToken) (plan : PresplitPlan F) (firstGroupKey : Nat) :
    Except String (List (PendingToken F) × Nat) :=
  groupsPending plan firstGroupKey (preSplit plan.cap tokens)

/-! ## Packing again under a smaller capacity -/

/-- The marks of the queued tokens are carried over to their replacements. -/
def keepMarks : List (PendingToken F) → List (PendingToken F) → List (PendingToken F)
  | old :: olds, new :: news =>
      { new with
        boundaryBefore := old.boundaryBefore
        forcedBoundary := old.forcedBoundary
        boundary := old.forcedBoundary || new.boundary } :: keepMarks olds news
  | _, news => news

/-- The tokens of one group under a new key. -/
def rekey (plan : PresplitPlan F) (key : Nat) : List (PendingToken F) → List (PendingToken F)
  | [] => []
  | pt :: pts =>
      { token := pt.token
        groupKey := some key
        boundary := pts.isEmpty || pt.forcedBoundary
        boundaryBefore := pt.boundaryBefore
        forcedBoundary := pt.forcedBoundary
        plan := some plan } :: rekey plan key pts

/-- A packet that was planned at least as conservatively keeps its groups, under new keys. `group` are
the tokens since the last boundary. -/
def regroup (plan : PresplitPlan F) :
    Nat → List (PendingToken F) → List (PendingToken F) →
      Except String (List (PendingToken F) × Nat)
  | key, group, [] =>
      if group.isEmpty then .ok ([], key)
      else .error "unterminated pre-split group in pending queue"
  | key, group, pt :: block =>
      if !pt.boundary then regroup plan key (group ++ [pt]) block
      else do
        let rest ← regroup plan (key + 1) [] block
        .ok (rekey plan key (group ++ [pt]) ++ rest.1, rest.2)

variable [DecidableEq F]

/-- Whether a queued token belongs to the packet of `plan`. -/
def PendingToken.inPacket (plan : PresplitPlan F) (pt : PendingToken F) : Bool :=
  pt.groupKey.isSome && decide (pt.plan = some plan)

/-- One packet of the queue, planned anew if its capacity is larger than the live one; `planId` is the
identity of the new plan. -/
def replanBlock (live old : PresplitPlan F) (planId key : Nat) (block : List (PendingToken F)) :
    Except String (List (PendingToken F) × Nat) :=
  if live.cap < old.cap then do
    let built ← buildPlannedPending (block.map (·.token)) { live with id := planId } key
    .ok (keepMarks block built.1, built.2)
  else regroup old key [] block

/-- The loop of `_tighten_pending_presplit_plans` over the queue, for the given number of turns: the
new queue, the next key, and the next identity of a plan. -/
def replan (live : PresplitPlan F) :
    Nat → Nat → Nat → List (PendingToken F) → Except String (List (PendingToken F) × Nat × Nat)
  | 0, planId, key, _ => .ok ([], key, planId)
  | _ + 1, planId, key, [] => .ok ([], key, planId)
  | turns + 1, planId, key, head :: pending =>
      match head.groupKey, head.plan with
      | none, _ => do
          let rest ← replan live turns planId key pending
          .ok (head :: rest.1, rest.2)
      | some groupKey, none =>
          .error ("pre-split group " ++ toString groupKey ++ " is missing its capacity contract")
      | some _, some old => do
          let block := (head :: pending).takeWhile (PendingToken.inPacket old)
          let built ← replanBlock live old planId key block
          let rest ← replan live turns (planId + 1) built.2
            ((head :: pending).dropWhile (PendingToken.inPacket old))
          .ok (built.1 ++ rest.1, rest.2)

omit [DecidableEq F]

/-! ## Packing conserves the text -/

/-- The positions of the tiers are below `n`. -/
def TierPositions.Below (last : TierPositions) (n : Nat) : Prop :=
  ∀ pos, last.l1 = some pos ∨ last.l2 = some pos ∨ last.l3 = some pos → pos < n

theorem TierPositions.below_empty (n : Nat) : TierPositions.Below {} n := by
  intro pos h
  simp at h

theorem TierPositions.Below.note {last : TierPositions} {n i : Nat} (h : last.Below n) (hn : n ≤ i)
    (token : SegmentToken) : (last.note i token).Below (i + 1) := by
  have hkept : ∀ pos, last.l1 = some pos ∨ last.l2 = some pos ∨ last.l3 = some pos → pos < i + 1 := by
    intro pos hpos
    have := h pos hpos
    omega
  unfold TierPositions.note
  split
  · rintro pos (hpos | hpos)
    · cases hpos
      omega
    · exact hkept pos (.inr hpos)
  · split
    · rintro pos (hpos | hpos | hpos)
      · exact hkept pos (.inl hpos)
      · cases hpos
        omega
      · exact hkept pos (.inr (.inr hpos))
    · split
      · rintro pos (hpos | hpos | hpos)
        · exact hkept pos (.inl hpos)
        · exact hkept pos (.inr (.inl hpos))
        · cases hpos
          omega
      · exact hkept

theorem TierPositions.Below.scan {last : TierPositions} {i : Nat} (h : last.Below i)
    (tokens : List SegmentToken) : (last.scan i tokens).Below (i + tokens.length) := by
  induction tokens generalizing last i with
  | nil => exact h
  | cons token tokens ih =>
      have := ih (h.note (Nat.le_refl i) token)
      rw [List.length_cons, Nat.add_comm tokens.length 1, ← Nat.add_assoc]
      exact this

/-- A group is cut inside. -/
theorem TierPositions.Below.cut {last : TierPositions} {n pos : Nat} (h : last.Below n)
    (hcut : last.cut = some pos) : pos < n := by
  unfold TierPositions.cut at hcut
  split at hcut
  · next h₁ =>
    cases hcut
    exact h pos (.inl h₁)
  · next h₂ =>
    cases hcut
    exact h pos (.inr (.inl h₂))
  · exact h pos (.inr (.inr hcut))

/-- What a turn of the packing keeps: the tokens in order, finished groups that are neither empty nor
over capacity, and a current group below capacity whose tier positions are inside it. -/
structure Packing.Ok (capacity : Int) (tokens : List SegmentToken) (p : Packing) : Prop where
  tokens : p.segments.flatten ++ p.current = tokens
  packed : ∀ g ∈ p.segments, g ≠ [] ∧ (g.length : Int) ≤ capacity
  room : (p.current.length : Int) < capacity
  inside : p.last.Below p.current.length

/-- Before the first token. -/
theorem Packing.ok_empty {capacity : Int} (hcap : 1 ≤ capacity) :
    Packing.Ok capacity [] { segments := [], current := [], last := {} } := by
  refine ⟨rfl, ?_, ?_, TierPositions.below_empty _⟩
  · intro g hg
    cases hg
  · show ((0 : Nat) : Int) < capacity
    omega

theorem Packing.Ok.add {capacity : Int} (hcap : 1 ≤ capacity) {tokens : List SegmentToken}
    {p : Packing} (h : p.Ok capacity tokens) (token : SegmentToken) :
    (p.add capacity token).Ok capacity (tokens ++ [token]) := by
  have hlen : ((p.current ++ [token]).length : Int) ≤ capacity := by
    have := h.room
    simp only [List.length_append, List.length_singleton]
    push_cast
    omega
  have hinside : (p.last.note p.current.length token).Below (p.current ++ [token]).length := by
    simpa using h.inside.note (Nat.le_refl _) token
  have htokens : p.segments.flatten ++ (p.current ++ [token]) = tokens ++ [token] := by
    rw [← List.append_assoc, h.tokens]
  unfold Packing.add
  simp only
  split
  · split
    · next pos hcut =>
      have hpos := hinside.cut hcut
      refine ⟨?_, ?_, ?_, ?_⟩
      · simp only [List.flatten_append, List.flatten_singleton, List.append_assoc,
          List.take_append_drop]
        exact htokens
      · intro g hg
        rcases List.mem_append.1 hg with hg | hg
        · exact h.packed g hg
        · cases List.mem_singleton.1 hg
          refine ⟨?_, ?_⟩
          · intro hnil
            have := congrArg List.length hnil
            rw [List.length_take, List.length_nil] at this
            omega
          · rw [List.length_take]
            omega
      · rw [List.length_drop]
        omega
      · have := (TierPositions.below_empty 0).scan ((p.current ++ [token]).drop (pos + 1))
        rwa [Nat.zero_add] at this
    · refine ⟨?_, ?_, ?_, ?_⟩
      · simp only [List.flatten_append, List.flatten_singleton, List.append_nil]
        exact htokens
      · intro g hg
        rcases List.mem_append.1 hg with hg | hg
        · exact h.packed g hg
        · cases List.mem_singleton.1 hg
          exact ⟨by simp, hlen⟩
      · show ((0 : Nat) : Int) < capacity
        omega
      · exact TierPositions.below_empty _
  · next hroom => exact ⟨htokens, h.packed, not_le.1 hroom, hinside⟩

/-- The packing of a text. -/
theorem Packing.Ok.foldl {capacity : Int} (hcap : 1 ≤ capacity) {tokens : List SegmentToken}
    {p : Packing} (h : p.Ok capacity tokens) (more : List SegmentToken) :
    (more.foldl (Packing.add capacity) p).Ok capacity (tokens ++ more) := by
  induction more generalizing tokens p with
  | nil => rwa [List.append_nil]
  | cons token more ih =>
      rw [List.append_cons]
      exact ih (h.add hcap token)

/-- `pre_split` keeps the tokens in order, in groups that are neither empty nor over capacity. -/
theorem preSplit_spec {capacity : Int} (hcap : 1 ≤ capacity) (tokens : List SegmentToken) :
    (preSplit capacity tokens).flatten = tokens ∧
      ∀ g ∈ preSplit capacity tokens, g ≠ [] ∧ (g.length : Int) ≤ capacity := by
  have h := (Packing.ok_empty hcap).foldl hcap tokens
  rw [List.nil_append] at h
  unfold preSplit
  simp only
  split
  · next hnil =>
    have htokens := h.tokens
    rw [hnil, List.append_nil] at htokens
    exact ⟨htokens, h.packed⟩
  · next hne =>
    refine ⟨?_, ?_⟩
    · rw [List.flatten_append, List.flatten_singleton]
      exact h.tokens
    · intro g hg
      rcases List.mem_append.1 hg with hg | hg
      · exact h.packed g hg
      · cases List.mem_singleton.1 hg
        exact ⟨hne, le_of_lt h.room⟩

end

end StreamingTts.Split
