import Mathlib.Algebra.Order.Floor.Ring
import Mathlib.Data.Rat.Floor
import StreamingTts.Engine.CursorSlice

/-!
# A cursor on a plan that grows

`reanchor_cursor_mu` of `engine/core/native_cursor.py`: the position of a cursor, counted in labels, on the
plan that replaces the one it was counted on. A plan that `Extends` the old one keeps its labels, its label
spans and its owners as first ones, as the plans of the incremental path do. There the position is kept
while no owner is completed; from the end of the first owner on the rule for completed owners takes it back
to the end of the last of them.
-/

namespace StreamingTts.Engine.Cursor

open Frontend (Text)
open Lib

/-! ## The rules -/

/-- The greatest of some places, zero if there is none. -/
def greatest (places : List Nat) : Nat := places.max?.getD 0

/-- The owners that end by the position. -/
def completedOwners (previous : CursorLabelPlan) (position : ℚ) : List CursorOwnerSpan :=
  previous.ownerSpans.filter fun owner => (owner.labelEnd : ℚ) ≤ position

/-- `completed_ids`. -/
def completedIds (previous : CursorLabelPlan) (position : ℚ) : List Nat :=
  (completedOwners previous position).map (·.ownerId)

/-- `prefix_owners_unchanged`: the owners that start in the first `count` labels are still there, and may
have grown. -/
def prefixOwnersUnchanged (previous current : CursorLabelPlan) (count : Nat) : Bool :=
  (previous.ownerSpans.filter fun old => old.labelStart < count).all fun old =>
    current.ownerSpans.any fun new =>
      new.ownerId = old.ownerId && new.rawStart = old.rawStart && new.rawEnd = old.rawEnd
        && new.labelStart = old.labelStart && old.labelEnd ≤ new.labelEnd

/-- `completed_owner`. -/
def completedOwner (previous : CursorLabelPlan) (position : ℚ) (count : Nat) : Bool :=
  (previous.ownerSpans.filter fun old => old.labelStart < count).any fun old =>
    (old.labelEnd : ℚ) ≤ position

/-- The position stays as it is. -/
def keepsPosition (previous current : CursorLabelPlan) (position : ℚ) (count : Nat) : Bool :=
  count ≤ current.labelIds.length
    && previous.labelIds.take count = current.labelIds.take count
    && prefixOwnersUnchanged previous current count
    && !completedOwner previous position count
    && (previous.labelNormalizedSpans = [] || current.labelNormalizedSpans = []
      || previous.labelNormalizedSpans.take count = current.labelNormalizedSpans.take count)

/-- The boundary that replaces the completed owners, none of which is in the new plan. -/
def replacementBoundary (previous current : CursorLabelPlan) (position : ℚ) : Nat :=
  let completed := completedOwners previous position
  let rawFrontier := (completed.map (·.rawEnd)).max?.getD 0
  let normalizedFrontier := (completed.map (·.normalizedEnd)).max?.getD 0
  greatest ((current.ownerSpans.filter fun owner =>
    owner.rawEnd ≤ rawFrontier && owner.normalizedEnd ≤ normalizedFrontier).map (·.labelEnd))

/-- `reanchor_cursor_mu`. -/
def reanchorCursorMu (previous current : CursorLabelPlan) (previousMu : ℚ) : ℚ :=
  let position := max 0 (min (previous.labelIds.length : ℚ) previousMu)
  if current.labelIds = [] then 0
  else if keepsPosition previous current position ⌈position⌉.toNat then position
  else if completedIds previous position = [] then 0
  else
    let currentBoundaries := (current.ownerSpans.filter fun owner =>
      owner.ownerId ∈ completedIds previous position).map (·.labelEnd)
    if currentBoundaries ≠ [] then greatest currentBoundaries
    else replacementBoundary previous current position

/-! ## Bounds -/

theorem greatest_le {places : List Nat} {n : Nat} (h : ∀ p ∈ places, p ≤ n) : greatest places ≤ n := by
  unfold greatest
  cases hmax : places.max? with
  | none => exact Nat.zero_le n
  | some p => exact h p (List.max?_mem hmax)

theorem greatest_eq_iff {places : List Nat} (hne : places ≠ []) {n : Nat} :
    greatest places = n ↔ n ∈ places ∧ ∀ p ∈ places, p ≤ n := by
  unfold greatest
  cases hmax : places.max? with
  | none => exact absurd (List.max?_eq_none_iff.1 hmax) hne
  | some p =>
      rw [Option.getD_some, ← List.max?_eq_some_iff, hmax]
      exact (Option.some.injEq p n ▸ Iff.rfl)

/-- The places that owners end at are labels of the plan. -/
theorem labelEnd_le {plan : CursorLabelPlan} {owner : CursorOwnerSpan} (h : owner ∈ plan.ownerSpans) :
    owner.labelEnd ≤ plan.labelIds.length :=
  (owner_nonempty plan.valid.covers h).2.2

/-- The greatest end of some owners of a plan. -/
theorem greatest_ends_le (plan : CursorLabelPlan) (q : CursorOwnerSpan → Bool) :
    greatest ((plan.ownerSpans.filter q).map (·.labelEnd)) ≤ plan.labelIds.length := by
  refine greatest_le fun p hp => ?_
  obtain ⟨owner, howner, rfl⟩ := List.mem_map.1 hp
  exact labelEnd_le (List.mem_of_mem_filter howner)

/-- The new position is one of the new plan, whatever the two plans are. -/
theorem reanchorCursorMu_mem (previous current : CursorLabelPlan) (mu : ℚ) :
    0 ≤ reanchorCursorMu previous current mu ∧
      reanchorCursorMu previous current mu ≤ current.labelIds.length := by
  have hzero : (0 : ℚ) ≤ 0 ∧ (0 : ℚ) ≤ current.labelIds.length := ⟨le_refl 0, Nat.cast_nonneg _⟩
  have hplace : ∀ n : Nat, n ≤ current.labelIds.length →
      (0 : ℚ) ≤ n ∧ (n : ℚ) ≤ current.labelIds.length :=
    fun n hn => ⟨Nat.cast_nonneg n, Nat.cast_le.2 hn⟩
  unfold reanchorCursorMu
  dsimp only
  split_ifs with hactive hkeeps hids hboundaries
  · exact hzero
  · unfold keepsPosition at hkeeps
    simp only [Bool.and_eq_true, decide_eq_true_iff] at hkeeps
    obtain ⟨⟨⟨⟨hcount, -⟩, -⟩, -⟩, -⟩ := hkeeps
    refine ⟨le_max_left _ _, le_trans ?_ (Nat.cast_le.2 hcount)⟩
    exact le_trans (Int.le_ceil _) (by exact_mod_cast Int.self_le_toNat _)
  · exact hzero
  · exact hplace _ (greatest_ends_le current _)
  · exact hplace _ (greatest_ends_le current _)

/-! ## Plans that grow -/

/-- A plan that starts with another one. -/
structure CursorLabelPlan.Extends (previous current : CursorLabelPlan) : Prop where
  labels : previous.labelIds <+: current.labelIds
  spans : previous.labelNormalizedSpans <+: current.labelNormalizedSpans
  owners : previous.ownerSpans <+: current.ownerSpans

section
variable {previous current : CursorLabelPlan} {mu : ℚ}

theorem mem_completedIds {id : Nat} :
    id ∈ completedIds previous mu ↔
      ∃ owner ∈ previous.ownerSpans, (owner.labelEnd : ℚ) ≤ mu ∧ owner.ownerId = id := by
  unfold completedIds completedOwners
  rw [List.mem_map]
  simp only [List.mem_filter, decide_eq_true_iff, and_assoc]

/-- The owners of a plan are unchanged in the plans that start with it. -/
theorem CursorLabelPlan.Extends.prefixOwnersUnchanged (h : previous.Extends current) (count : Nat) :
    prefixOwnersUnchanged previous current count = true := by
  unfold Cursor.prefixOwnersUnchanged
  rw [List.all_eq_true]
  intro old hold
  rw [List.any_eq_true]
  exact ⟨old, h.owners.subset (List.mem_of_mem_filter hold), by simp⟩

theorem CursorLabelPlan.Extends.take_eq {α : Type _} {xs ys : List α} (h : xs <+: ys) {count : Nat}
    (hcount : count ≤ xs.length) : xs.take count = ys.take count := by
  obtain ⟨zs, rfl⟩ := h
  rw [List.take_append_of_le_length hcount]

/-- An owner is completed when it ends by the position. -/
theorem completedOwner_eq_true_iff :
    completedOwner previous mu ⌈mu⌉.toNat = true ↔
      ∃ owner ∈ previous.ownerSpans, (owner.labelEnd : ℚ) ≤ mu := by
  unfold completedOwner
  rw [List.any_eq_true]
  simp only [List.mem_filter, decide_eq_true_iff, and_assoc]
  refine exists_congr fun owner => and_congr_right fun howner => and_iff_right_of_imp fun hle => ?_
  have hlt := (owner_nonempty previous.valid.covers howner).2.1
  have hceil : (owner.labelEnd : ℤ) ≤ ⌈mu⌉ := by
    rw [← Int.ceil_natCast (R := ℚ) owner.labelEnd]
    exact Int.ceil_mono hle
  omega

/-- On a plan that grows, a position is kept exactly when no owner is completed there. -/
theorem CursorLabelPlan.Extends.keepsPosition_iff (h : previous.Extends current)
    (hle : mu ≤ previous.labelIds.length) :
    keepsPosition previous current mu ⌈mu⌉.toNat = true ↔
      ∀ owner ∈ previous.ownerSpans, mu < owner.labelEnd := by
  have hcount : ⌈mu⌉.toNat ≤ previous.labelIds.length := by
    have hceil : ⌈mu⌉ ≤ (previous.labelIds.length : ℤ) := Int.ceil_le.2 (by exact_mod_cast hle)
    omega
  have hspans : previous.labelNormalizedSpans = [] ∨ current.labelNormalizedSpans = [] ∨
      previous.labelNormalizedSpans.take ⌈mu⌉.toNat = current.labelNormalizedSpans.take ⌈mu⌉.toNat := by
    by_cases hnil : previous.labelNormalizedSpans = []
    · exact .inl hnil
    · have haligned := previous.valid.aligned hnil
      exact .inr (.inr (take_eq h.spans (haligned ▸ hcount)))
  have hcompleted : completedOwner previous mu ⌈mu⌉.toNat = false ↔
      ∀ owner ∈ previous.ownerSpans, mu < owner.labelEnd := by
    rw [← Bool.not_eq_true, completedOwner_eq_true_iff]
    push Not
    rfl
  unfold keepsPosition
  simp only [Bool.and_eq_true, Bool.or_eq_true, decide_eq_true_iff, Bool.not_eq_true', or_assoc]
  rw [hcompleted]
  constructor
  · rintro ⟨⟨-, hnone⟩, -⟩
    exact hnone
  · intro hnone
    exact ⟨⟨⟨⟨Nat.le_trans hcount h.labels.length_le, take_eq h.labels hcount⟩,
      h.prefixOwnersUnchanged _⟩, hnone⟩, hspans⟩

/-- Where an owner is completed, the position goes back to the end of the last owner of the new plan that
has the id of a completed one. -/
theorem CursorLabelPlan.Extends.reanchor_completed (h : previous.Extends current) (hzero : 0 ≤ mu)
    (hle : mu ≤ previous.labelIds.length) {owner : CursorOwnerSpan} (howner : owner ∈ previous.ownerSpans)
    (hend : (owner.labelEnd : ℚ) ≤ mu) :
    reanchorCursorMu previous current mu = mu ↔
      ∃ o ∈ current.ownerSpans, (o.labelEnd : ℚ) = mu ∧ o.ownerId ∈ completedIds previous mu ∧
        ∀ o' ∈ current.ownerSpans, o'.ownerId ∈ completedIds previous mu → o'.labelEnd ≤ o.labelEnd := by
  have hposition : max 0 (min (previous.labelIds.length : ℚ) mu) = mu := by
    rw [min_eq_right hle, max_eq_right hzero]
  have hid : owner.ownerId ∈ completedIds previous mu := mem_completedIds.2 ⟨owner, howner, hend, rfl⟩
  have hactive : current.labelIds ≠ [] := by
    intro hnil
    have hlt := (owner_nonempty current.valid.covers (h.owners.subset howner)).2
    rw [hnil, List.length_nil] at hlt
    omega
  have hkeeps : ¬ keepsPosition previous current mu ⌈mu⌉.toNat = true := fun hkeeps =>
    absurd ((h.keepsPosition_iff hle).1 hkeeps owner howner) (not_lt.2 hend)
  have hmem : owner.labelEnd ∈ (current.ownerSpans.filter fun o =>
      o.ownerId ∈ completedIds previous mu).map (·.labelEnd) :=
    List.mem_map_of_mem (List.mem_filter.2 ⟨h.owners.subset howner, by simpa using hid⟩)
  have hne := List.ne_nil_of_mem hmem
  unfold reanchorCursorMu
  dsimp only
  rw [hposition, if_neg hactive, if_neg hkeeps, if_neg (List.ne_nil_of_mem hid), if_pos hne]
  constructor
  · intro heq
    obtain ⟨hmax, hbound⟩ := (greatest_eq_iff hne).1 rfl
    obtain ⟨o, ho, hlast⟩ := List.mem_map.1 hmax
    obtain ⟨ho, hoid⟩ := List.mem_filter.1 ho
    refine ⟨o, ho, ?_, of_decide_eq_true hoid, fun o' ho' hoid' => ?_⟩
    · rw [hlast, heq]
    · rw [hlast]
      exact hbound _ (List.mem_map_of_mem (List.mem_filter.2 ⟨ho', decide_eq_true hoid'⟩))
  · rintro ⟨o, ho, rfl, hoid, hbound⟩
    refine congrArg Nat.cast ((greatest_eq_iff hne).2 ⟨?_, fun p hp => ?_⟩)
    · exact List.mem_map_of_mem (List.mem_filter.2 ⟨ho, decide_eq_true hoid⟩)
    · obtain ⟨o', ho', rfl⟩ := List.mem_map.1 hp
      obtain ⟨ho', hoid'⟩ := List.mem_filter.1 ho'
      exact hbound o' ho' (of_decide_eq_true hoid')

end

/-- On a plan that grows, a position is kept exactly when no owner is completed there, or when it is
the end of the last owner of the new plan that has the id of a completed one. For any two plans the new
position is one of the new plan. -/
theorem reanchor_keeps_iff (previous current : CursorLabelPlan) (mu : ℚ) :
    (0 ≤ reanchorCursorMu previous current mu ∧
      reanchorCursorMu previous current mu ≤ current.labelIds.length) ∧
    (previous.Extends current → 0 ≤ mu → mu ≤ previous.labelIds.length →
      (reanchorCursorMu previous current mu = mu ↔
        (∀ owner ∈ previous.ownerSpans, mu < owner.labelEnd) ∨
        ∃ o ∈ current.ownerSpans, (o.labelEnd : ℚ) = mu ∧ o.ownerId ∈ completedIds previous mu ∧
          ∀ o' ∈ current.ownerSpans, o'.ownerId ∈ completedIds previous mu →
            o'.labelEnd ≤ o.labelEnd)) := by
  refine ⟨reanchorCursorMu_mem previous current mu, fun h hzero hle => ?_⟩
  by_cases hnone : ∀ owner ∈ previous.ownerSpans, mu < owner.labelEnd
  · refine iff_of_true ?_ (.inl hnone)
    have hkeeps := (h.keepsPosition_iff hle).2 hnone
    unfold reanchorCursorMu
    dsimp only
    rw [min_eq_right hle, max_eq_right hzero, if_pos hkeeps]
    split_ifs with hactive
    · -- the old plan has no labels either
      have hlabels : previous.labelIds = [] := List.prefix_nil.1 (hactive ▸ h.labels)
      rw [hlabels, List.length_nil, Nat.cast_zero] at hle
      exact le_antisymm hzero hle
    · rfl
  · rw [or_iff_right hnone]
    push Not at hnone
    obtain ⟨owner, howner, hend⟩ := hnone
    exact h.reanchor_completed hzero hle howner hend

/-- Literal commits of one character, the ids of which start with 1. -/
def characterCommits (text : Text) : List (CommitRecord Unit) :=
  text.zipIdx.map fun s => characterCommit (s.2 + 1) s.1 s.2

/-- The owner of the label of such a commit. -/
def characterOwner (place : Nat) : CursorOwnerSpan :=
  { ownerId := literalOwnerId (place + 1) 0
    labelStart := place
    labelEnd := place + 1
    normalizedStart := place
    normalizedEnd := place + 1
    rawStart := place
    rawEnd := place + 1
    label_le := Nat.le_succ place
    normalized_nonneg := Int.natCast_nonneg place
    normalized_le := Int.le_add_one (Int.le_refl _)
    raw_nonneg := Int.natCast_nonneg place
    raw_le := Int.le_add_one (Int.le_refl _) }

/-- The plan of two such commits. -/
def twoCharacters : CursorLabelPlan :=
  { labelIds := [1, 1]
    ownerSpans := [characterOwner 0, characterOwner 1]
    revision := 0
    labelNormalizedSpans := [(0, 1), (1, 2)]
    checked := by decide }

/-- The plan of three such commits. -/
def threeCharacters : CursorLabelPlan :=
  { labelIds := [1, 1, 1]
    ownerSpans := [characterOwner 0, characterOwner 1, characterOwner 2]
    revision := 1
    labelNormalizedSpans := [(0, 1), (1, 2), (2, 3)]
    checked := by decide }

/-- Two commits and then a third. -/
def growingRequests : Request Unit × Request Unit :=
  ({ commits := characterCommits ['a', 'b'], revision := 0 },
    { commits := characterCommits ['a', 'b', 'c'], revision := 1, previous := .cached })

theorem twoCharacters_extends : twoCharacters.Extends threeCharacters :=
  ⟨by decide, by decide, by decide⟩

/-- Inside of the first owner the position is kept. -/
theorem reanchor_keeps_half : reanchorCursorMu twoCharacters threeCharacters (1 / 2) = 1 / 2 :=
  ((reanchor_keeps_iff twoCharacters threeCharacters (1 / 2)).2 twoCharacters_extends (by norm_num)
    (by norm_num [twoCharacters])).2 (.inl (by decide +kernel))

/-- The adapter appends a third commit, and a cursor in the middle of the second owner goes back to its
start. -/
theorem reanchor_goes_back :
    (({} : Adapter Unit).build characterLabelizer growingRequests.1).1 = .ok twoCharacters ∧
      ((({} : Adapter Unit).step characterLabelizer growingRequests.1).build characterLabelizer
        growingRequests.2).1 = .ok threeCharacters ∧
      twoCharacters.Extends threeCharacters ∧
      (3 / 2 : ℚ) ≤ twoCharacters.labelIds.length ∧
      reanchorCursorMu twoCharacters threeCharacters (3 / 2) = 1 :=
  ⟨by decide +kernel, by decide +kernel, twoCharacters_extends, by norm_num [twoCharacters],
    by decide +kernel⟩

end StreamingTts.Engine.Cursor
