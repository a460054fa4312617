import StreamingTts.Engine.CursorPlanExtension
import StreamingTts.Lib.Windows

/-!
# Slices of a cursor plan

`slice_cursor_label_plan` of `engine/core/native_cursor.py`: the part of a plan for the window of a segment.
With exact label spans an owner may be cut at the window and a label may not; without them an owner is
taken whole. Both read a section of an ordered list of intervals (`Lib.Windows`): the label spans, or the
normalized spans of the owners of a plan that the adapter has built (`Whole`). `slice_partition` says that
the slices of two windows in a row are the slice of the whole.
-/

namespace StreamingTts.Engine.Cursor

open Frontend (Text)
open Lib

/-! ## The slice -/

/-- The plan without labels. -/
def emptySlice (plan : CursorLabelPlan) : Except String (Option CursorLabelPlan) :=
  some <$> CursorLabelPlan.new { revision := plan.revision, final := plan.final }

/-- An owner cut at the window and at its first and last label. -/
def CursorOwnerSpan.cut (start stop : Int) (first last : Nat) (owner : CursorOwnerSpan) : OwnerFields :=
  { owner.toOwnerFields with
    labelStart := max owner.labelStart first - first
    labelEnd := min owner.labelEnd last - first
    normalizedStart := max owner.normalizedStart start
    normalizedEnd := min owner.normalizedEnd stop }

/-- The slice of a plan with label spans, from the label `first` to the label `last`. -/
def sliceLabels (plan : CursorLabelPlan) (start stop : Int) (first last : Nat) :
    Except String (Option CursorLabelPlan) := do
  let spans := window first last plan.labelNormalizedSpans
  -- a label itself cannot be split
  if spans.any fun s => s.1 < start || stop < s.2 then return none
  let owners ← (plan.ownerSpans.filter fun owner => owner.labelStart < last && first < owner.labelEnd).mapM
    fun owner => CursorOwnerSpan.new (owner.cut start stop first last)
  some <$> CursorLabelPlan.new
    { labelIds := window first last plan.labelIds
      ownerSpans := owners
      revision := plan.revision
      final := plan.final
      labelNormalizedSpans := spans }

/-- The slice of a plan with label spans. -/
def sliceExact (plan : CursorLabelPlan) (start stop : Int) : Except String (Option CursorLabelPlan) :=
  let indices := (plan.labelNormalizedSpans.zipIdx.filter fun s =>
    s.1.1 < stop && start < s.1.2).map Prod.snd
  match indices.head?, indices.getLast? with
  | some first, some last => sliceLabels plan start stop first (last + 1)
  | _, _ => emptySlice plan

/-- The loop over the owners of a plan without label spans: the ones inside of the window, if none
overlaps its ends. -/
def selectOwners (start stop : Int) : List CursorOwnerSpan → Option (List CursorOwnerSpan)
  | [] => some []
  | owner :: owners =>
      let overlaps := owner.normalizedStart < stop && start < owner.normalizedEnd
      let inside := start ≤ owner.normalizedStart && owner.normalizedEnd ≤ stop
      if overlaps && !inside then none
      else (selectOwners start stop owners).map fun selected =>
        if inside then owner :: selected else selected

/-- An owner with its labels counted from the first label of the slice. -/
def CursorOwnerSpan.rebase (labelStart : Nat) (owner : CursorOwnerSpan) : OwnerFields :=
  { owner.toOwnerFields with
    labelStart := owner.labelStart - labelStart
    labelEnd := owner.labelEnd - labelStart }

/-- The slice of a plan without label spans. -/
def sliceWhole (plan : CursorLabelPlan) (start stop : Int) : Except String (Option CursorLabelPlan) :=
  match selectOwners start stop plan.ownerSpans with
  | none => .ok none
  | some selected =>
      match selected.head?, selected.getLast? with
      | some first, some last => do
          let owners ← selected.mapM fun owner => CursorOwnerSpan.new (owner.rebase first.labelStart)
          some <$> CursorLabelPlan.new
            { labelIds := window first.labelStart last.labelEnd plan.labelIds
              ownerSpans := owners
              revision := plan.revision
              final := plan.final }
      | _, _ => emptySlice plan

/-- `slice_cursor_label_plan`. -/
def sliceCursorLabelPlan (plan : CursorLabelPlan) (start stop : Int) :
    Except String (Option CursorLabelPlan) :=
  if start < 0 ∨ stop < start then .error "invalid normalized segment bounds"
  else if plan.ownerSpans = [] then emptySlice plan
  else if plan.labelNormalizedSpans ≠ [] then sliceExact plan start stop
  else sliceWhole plan start stop

/-! ## The checks of a plan -/

/-- The owners cover the labels from `p` to `q`, one after the other. -/
def Covers : Nat → List OwnerFields → Nat → Prop
  | p, [], q => p = q
  | p, owner :: owners, q => owner.labelStart = p ∧ p < owner.labelEnd ∧ Covers owner.labelEnd owners q

theorem coverage_ok_iff {index p q : Nat} {owners : List CursorOwnerSpan} :
    coverage index p owners = .ok q ↔ Covers p (owners.map (·.toOwnerFields)) q := by
  induction owners generalizing index p with
  | nil => exact ⟨fun h => Except.ok.inj h, fun h => congrArg Except.ok h⟩
  | cons owner owners ih =>
      unfold coverage
      rw [List.map_cons, Covers, ← @ih (index + 1)]
      by_cases hstart : owner.labelStart = p
      · rw [if_neg (not_not.2 hstart), and_iff_right hstart]
        by_cases hend : owner.labelEnd ≤ owner.labelStart
        · rw [if_pos hend]
          exact iff_of_false (fun h => nomatch h) fun h => by omega
        · rw [if_neg hend, and_iff_right (by omega)]
      · rw [if_pos hstart]
        exact iff_of_false (fun h => nomatch h) fun h => hstart h.1

theorem Covers.le {p q : Nat} {owners : List OwnerFields} (h : Covers p owners q) : p ≤ q := by
  induction owners generalizing p with
  | nil => exact Nat.le_of_eq h
  | cons owner owners ih =>
      obtain ⟨-, hlt, hrest⟩ := h
      exact Nat.le_trans (Nat.le_of_lt hlt) (ih hrest)

theorem covers_append {p q : Nat} {owners more : List OwnerFields} :
    Covers p (owners ++ more) q ↔ ∃ r, Covers p owners r ∧ Covers r more q := by
  induction owners generalizing p with
  | nil =>
      refine ⟨fun h => ⟨p, rfl, h⟩, ?_⟩
      rintro ⟨r, rfl, h⟩
      exact h
  | cons owner owners ih =>
      rw [List.cons_append, Covers, ih]
      constructor
      · rintro ⟨hstart, hlt, r, hfirst, hrest⟩
        exact ⟨r, ⟨hstart, hlt, hfirst⟩, hrest⟩
      · rintro ⟨r, ⟨hstart, hlt, hfirst⟩, hrest⟩
        exact ⟨hstart, hlt, r, hfirst, hrest⟩

/-- An owner has a label. -/
theorem owner_nonempty {p q : Nat} {owners : List CursorOwnerSpan} {owner : CursorOwnerSpan}
    (h : Covers p (owners.map (·.toOwnerFields)) q) (howner : owner ∈ owners) :
    p ≤ owner.labelStart ∧ owner.labelStart < owner.labelEnd ∧ owner.labelEnd ≤ q := by
  obtain ⟨before, after, rfl⟩ := List.append_of_mem howner
  rw [List.map_append, covers_append] at h
  obtain ⟨r, hbefore, rfl, hlt, hafter⟩ := h
  exact ⟨hbefore.le, hlt, hafter.le⟩

/-- Ordered label spans. -/
theorem ordered_ok_iff {lastStart lastEnd : Int} {spans : List (Int × Int)} :
    ordered lastStart lastEnd spans = .ok () ↔
      (∀ s ∈ spans, lastStart ≤ s.1 ∧ lastEnd ≤ s.2) ∧ Intervals Prod.fst Prod.snd spans := by
  induction spans generalizing lastStart lastEnd with
  | nil =>
      exact iff_of_true rfl ⟨fun _ h => absurd h List.not_mem_nil,
        ⟨fun _ h => absurd h List.not_mem_nil, .nil, .nil⟩⟩
  | cons span spans ih =>
      obtain ⟨start, stop⟩ := span
      unfold ordered
      constructor
      · intro h
        split_ifs at h with hbad
        obtain ⟨hlower, hintervals⟩ := ih.1 h
        rw [not_or, not_or] at hbad
        refine ⟨fun s hs => ?_, ⟨fun s hs => ?_, ?_, ?_⟩⟩
        · rcases List.mem_cons.1 hs with rfl | hs
          · exact ⟨by omega, by omega⟩
          · have := hlower s hs
            exact ⟨by omega, by omega⟩
        · rcases List.mem_cons.1 hs with rfl | hs
          · exact Int.not_le.1 hbad.2.2
          · exact hintervals.nonempty s hs
        · exact .cons (fun s hs => (hlower s hs).1) hintervals.starts
        · exact .cons (fun s hs => (hlower s hs).2) hintervals.ends
      · rintro ⟨hlower, hintervals⟩
        have hfirst := hlower (start, stop) List.mem_cons_self
        have hnonempty : start < stop := hintervals.nonempty (start, stop) List.mem_cons_self
        rw [if_neg (by dsimp only at hfirst; omega)]
        obtain ⟨hstarts, hstarts'⟩ := List.pairwise_cons.1 hintervals.starts
        obtain ⟨hends, hends'⟩ := List.pairwise_cons.1 hintervals.ends
        exact ih.2 ⟨fun s hs => ⟨hstarts s hs, hends s hs⟩,
          ⟨fun s hs => hintervals.nonempty s (List.mem_cons_of_mem _ hs), hstarts', hends'⟩⟩

/-- The labels of an owner lie inside of it. -/
theorem escapes_eq_false_iff {spans : List (Int × Int)} {owner : CursorOwnerSpan} :
    escapes spans owner = false ↔ ∀ i s, spans[i]? = some s → owner.labelStart ≤ i →
      i < owner.labelEnd → owner.normalizedStart ≤ s.1 ∧ s.2 ≤ owner.normalizedEnd := by
  unfold escapes
  rw [List.any_eq_false]
  have hin : ∀ s, s ∈ (spans.take owner.labelEnd).drop owner.labelStart ↔
      ∃ i, spans[i]? = some s ∧ owner.labelStart ≤ i ∧ i < owner.labelEnd := by
    intro s
    rw [List.mem_iff_getElem?]
    constructor
    · rintro ⟨j, hj⟩
      have hj' := getElem?_window owner.labelStart owner.labelEnd j spans
      rw [window, hj] at hj'
      by_cases hlt : owner.labelStart + j < owner.labelEnd
      · rw [if_pos hlt] at hj'
        exact ⟨_, hj'.symm, Nat.le_add_right _ _, hlt⟩
      · rw [if_neg hlt] at hj'
        cases hj'
    · rintro ⟨i, hi, hle, hlt⟩
      refine ⟨i - owner.labelStart, ?_⟩
      have hj' := getElem?_window owner.labelStart owner.labelEnd (i - owner.labelStart) spans
      rw [window, Nat.add_sub_cancel' hle, if_pos hlt, hi] at hj'
      exact hj'
  constructor
  · intro h i s hi hle hlt
    have := h s ((hin s).2 ⟨i, hi, hle, hlt⟩)
    simp only [Bool.or_eq_true, decide_eq_true_iff, not_or, Int.not_lt] at this
    exact this
  · intro h s hs
    obtain ⟨i, hi, hle, hlt⟩ := (hin s).1 hs
    simp only [Bool.or_eq_true, decide_eq_true_iff, not_or, Int.not_lt]
    exact h i s hi hle hlt

/-- What `__post_init__` checks. -/
structure Valid (f : PlanFields) : Prop where
  revision : 0 ≤ f.revision
  labels : ∀ l ∈ f.labelIds, 0 ≤ l
  covers : Covers 0 (f.ownerSpans.map (·.toOwnerFields)) f.labelIds.length
  aligned : f.labelNormalizedSpans ≠ [] → f.labelNormalizedSpans.length = f.labelIds.length
  nonneg : ∀ s ∈ f.labelNormalizedSpans, 0 ≤ s.1 ∧ 0 ≤ s.2
  intervals : Intervals Prod.fst Prod.snd f.labelNormalizedSpans
  inside : ∀ owner ∈ f.ownerSpans, ∀ i s, f.labelNormalizedSpans[i]? = some s → owner.labelStart ≤ i →
    i < owner.labelEnd → owner.normalizedStart ≤ s.1 ∧ s.2 ≤ owner.normalizedEnd

theorem check_ok_iff {f : PlanFields} : f.check = .ok () ↔ Valid f := by
  unfold PlanFields.check
  rw [check_eq_ok, check_eq_ok, bind_eq_ok]
  constructor
  · rintro ⟨hrevision, hlabels, stop, hcoverage, hrest⟩
    obtain ⟨hstop, h⟩ := check_eq_ok.1 hrest
    rw [Decidable.not_not] at hstop
    subst hstop
    have hlabels' : ∀ l ∈ f.labelIds, 0 ≤ l := by simpa using hlabels
    by_cases hspans : f.labelNormalizedSpans = []
    · refine ⟨Int.not_lt.1 hrevision, hlabels', coverage_ok_iff.1 hcoverage, fun hne => absurd hspans hne,
        ?_, ?_, ?_⟩
      · rw [hspans]
        exact fun _ h => absurd h List.not_mem_nil
      · rw [hspans]
        exact ⟨fun _ h => absurd h List.not_mem_nil, .nil, .nil⟩
      · rw [hspans]
        intro _ _ _ _ h
        cases h
    · rw [if_pos hspans] at h
      obtain ⟨hlength, h⟩ := check_eq_ok.1 h
      obtain ⟨_, hordered, h⟩ := bind_eq_ok.1 h
      obtain ⟨hnonneg, hintervals⟩ := ordered_ok_iff.1 hordered
      have hinside : f.ownerSpans.any (escapes f.labelNormalizedSpans) = false := by
        by_contra hany
        rw [Bool.not_eq_false] at hany
        rw [if_pos hany] at h
        cases h
      rw [List.any_eq_false] at hinside
      exact ⟨Int.not_lt.1 hrevision, hlabels', coverage_ok_iff.1 hcoverage,
        fun _ => Decidable.not_not.1 hlength, hnonneg, hintervals, fun owner howner =>
          escapes_eq_false_iff.1 (Bool.eq_false_iff.2 (hinside owner howner))⟩
  · intro h
    refine ⟨Int.not_lt.2 h.revision, by simpa using h.labels, _, coverage_ok_iff.2 h.covers,
      check_eq_ok.2 ⟨fun hne => hne rfl, ?_⟩⟩
    by_cases hspans : f.labelNormalizedSpans = []
    · rw [if_neg (not_not.2 hspans)]
      rfl
    · rw [if_pos hspans]
      refine check_eq_ok.2 ⟨not_not.2 (h.aligned hspans), bind_eq_ok.2 ⟨(),
        ordered_ok_iff.2 ⟨h.nonneg, h.intervals⟩, ?_⟩⟩
      have hinside : f.ownerSpans.any (escapes f.labelNormalizedSpans) = false := by
        rw [List.any_eq_false]
        intro owner howner
        rw [escapes_eq_false_iff.2 (h.inside owner howner)]
        exact Bool.false_ne_true
      rw [if_neg (by rw [hinside]; exact Bool.false_ne_true)]
      rfl

theorem CursorLabelPlan.valid (plan : CursorLabelPlan) : Valid plan.toPlanFields :=
  check_ok_iff.1 plan.checked

/-- A plan with fields that pass the checks. -/
theorem CursorLabelPlan.new_of_valid {f : PlanFields} (h : Valid f) :
    ∃ plan, CursorLabelPlan.new f = .ok plan ∧ plan.toPlanFields = f :=
  ⟨⟨f, check_ok_iff.2 h⟩, CursorLabelPlan.new_eq_ok.2 rfl, rfl⟩

/-- The owners that a slice makes. -/
theorem mapM_new (make : CursorOwnerSpan → OwnerFields) (owners : List CursorOwnerSpan)
    (h : ∀ owner ∈ owners, ∃ made, CursorOwnerSpan.new (make owner) = .ok made) :
    ∃ made, (owners.mapM fun owner => CursorOwnerSpan.new (make owner)) = .ok made ∧
      made.map (·.toOwnerFields) = owners.map make := by
  induction owners with
  | nil => exact ⟨[], rfl, rfl⟩
  | cons owner owners ih =>
      obtain ⟨first, hfirst⟩ := h owner List.mem_cons_self
      obtain ⟨rest, hrest, hfields⟩ := ih fun o ho => h o (List.mem_cons_of_mem _ ho)
      refine ⟨first :: rest, ?_, ?_⟩
      · rw [List.mapM_cons, hfirst, hrest]
        rfl
      · rw [List.map_cons, List.map_cons, hfields, CursorOwnerSpan.new_fields hfirst]

/-! ## Slices of label spans -/

section
variable {plan : CursorLabelPlan} {start stop : Int}

/-- What a slice gives: the labels and the label spans from `m` to `n`. -/
structure Sliced (plan u : CursorLabelPlan) (m n : Nat) : Prop where
  labels : u.labelIds = window m n plan.labelIds
  spans : u.labelNormalizedSpans = window m n plan.labelNormalizedSpans

theorem emptySlice_eq {m n : Nat} (h : n ≤ m) :
    ∃ u, emptySlice plan = .ok (some u) ∧ Sliced plan u m n := by
  have hvalid : Valid { revision := plan.revision, final := plan.final } :=
    ⟨plan.valid.revision, fun _ h => absurd h List.not_mem_nil, rfl, fun hne => absurd rfl hne,
      fun _ h => absurd h List.not_mem_nil, ⟨fun _ h => absurd h List.not_mem_nil, .nil, .nil⟩,
      fun _ h => absurd h List.not_mem_nil⟩
  obtain ⟨u, hu, hfields⟩ := CursorLabelPlan.new_of_valid hvalid
  refine ⟨u, map_eq_ok.2 ⟨u, hu, rfl⟩, ?_, ?_⟩
  · rw [window_of_le h, hfields]
  · rw [window_of_le h, hfields]

/-- A place of the whole in the places of a slice. -/
def clip (first last p : Nat) : Nat := min (max p first) last - first

variable (start stop) in
/-- The owners of some labels cover these labels. -/
theorem Covers.cut {first last p q : Nat} {owners : List CursorOwnerSpan} (hlt : first < last)
    (h : Covers p (owners.map (·.toOwnerFields)) q) :
    Covers (clip first last p)
      ((owners.filter fun owner => owner.labelStart < last && first < owner.labelEnd).map
        (·.cut start stop first last)) (clip first last q) := by
  induction owners generalizing p with
  | nil => exact congrArg (clip first last) h
  | cons owner owners ih =>
      obtain ⟨hstart, hend, hrest⟩ := h
      dsimp only at hstart hend hrest
      have hrest' := ih hrest
      by_cases hkept : owner.labelStart < last ∧ first < owner.labelEnd
      · rw [List.filter_cons_of_pos (by simpa using hkept), List.map_cons]
        refine ⟨?_, ?_, ?_⟩
        · show max owner.labelStart first - first = clip first last p
          unfold clip
          omega
        · show clip first last p < min owner.labelEnd last - first
          unfold clip
          omega
        · have hcut : min owner.labelEnd last - first = clip first last owner.labelEnd := by
            unfold clip
            omega
          show Covers (min owner.labelEnd last - first) _ _
          rw [hcut]
          exact hrest'
      · rw [List.filter_cons_of_neg (by simpa using hkept)]
        have hsame : clip first last p = clip first last owner.labelEnd := by
          unfold clip
          omega
        rw [hsame]
        exact hrest'

/-- The slice from a label to another one, all of which lie inside of the window. -/
theorem sliceLabels_eq {first last : Nat} (hstart : 0 ≤ start) (hlt : first < last)
    (hlast : last ≤ plan.labelNormalizedSpans.length)
    (hinside : ∀ s ∈ window first last plan.labelNormalizedSpans, start ≤ s.1 ∧ s.2 ≤ stop) :
    ∃ u, sliceLabels plan start stop first last = .ok (some u) ∧ Sliced plan u first last := by
  have hplan := plan.valid
  have hspans : plan.labelNormalizedSpans ≠ [] := by
    intro hnil
    rw [hnil] at hlast
    exact absurd (Nat.lt_of_lt_of_le hlt hlast) (Nat.not_lt_zero _)
  have haligned := hplan.aligned hspans
  have hrows : ∀ i s, (window first last plan.labelNormalizedSpans)[i]? = some s ↔
      first + i < last ∧ plan.labelNormalizedSpans[first + i]? = some s := by
    intro i s
    rw [getElem?_window]
    by_cases hi : first + i < last
    · rw [if_pos hi, and_iff_right hi]
    · rw [if_neg hi]
      exact iff_of_false (fun h => nomatch h) fun h => hi h.1
  -- a label of an owner lies inside of the owner cut at the window
  have hlabel : ∀ owner ∈ plan.ownerSpans, ∀ i s,
      (window first last plan.labelNormalizedSpans)[i]? = some s → owner.labelStart ≤ first + i →
        first + i < owner.labelEnd → max owner.normalizedStart start ≤ s.1 ∧
          s.2 ≤ min owner.normalizedEnd stop := by
    intro owner howner i s hs hle hlt'
    have howned := hplan.inside owner howner (first + i) s ((hrows i s).1 hs).2 hle hlt'
    have hwindow := hinside s (List.mem_of_getElem? hs)
    exact ⟨Int.max_le.2 ⟨howned.1, hwindow.1⟩, Int.le_min.2 ⟨howned.2, hwindow.2⟩⟩
  -- an owner of the slice has a label of it, which is not empty
  obtain ⟨owners, howners, hfields⟩ := mapM_new
    (fun owner => owner.cut start stop first last)
    (plan.ownerSpans.filter fun owner => owner.labelStart < last && first < owner.labelEnd)
    (by
      intro owner hkept
      obtain ⟨howner, hmeets⟩ := List.mem_filter.1 hkept
      rw [Bool.and_eq_true, decide_eq_true_iff, decide_eq_true_iff] at hmeets
      have hlabels := owner_nonempty hplan.covers howner
      have hi : first + (max owner.labelStart first - first) < plan.labelNormalizedSpans.length := by
        omega
      have hs := (hrows (max owner.labelStart first - first) _).2
        ⟨by omega, List.getElem?_eq_getElem hi⟩
      obtain ⟨hleft, hright⟩ := hlabel owner howner _ _ hs (by omega) (by omega)
      have hnonempty := hplan.intervals.nonempty _ (List.getElem_mem hi)
      refine ⟨⟨owner.cut start stop first last, ?_, ?_, ?_, owner.raw_nonneg, owner.raw_le⟩,
        CursorOwnerSpan.new_eq_ok.2 rfl⟩
      · show max owner.labelStart first - first ≤ min owner.labelEnd last - first
        omega
      · exact Int.le_trans hstart (Int.le_max_right _ _)
      · exact Int.le_trans hleft (Int.le_trans (Int.le_of_lt hnonempty) hright))
  have hcovers : Covers 0 (owners.map (·.toOwnerFields)) (window first last plan.labelIds).length := by
    have hcut := hplan.covers.cut start stop hlt
    have hzero : clip first last 0 = 0 := by
      unfold clip
      omega
    have hlength : clip first last plan.labelIds.length = (window first last plan.labelIds).length := by
      rw [length_window, clip]
      omega
    rw [hzero, hlength, ← hfields] at hcut
    exact hcut
  obtain ⟨u, hu, hplan'⟩ := CursorLabelPlan.new_of_valid (f :=
    { labelIds := window first last plan.labelIds
      ownerSpans := owners
      revision := plan.revision
      final := plan.final
      labelNormalizedSpans := window first last plan.labelNormalizedSpans })
    { revision := hplan.revision
      labels := fun l hl => hplan.labels l ((window_sublist _ _ _).subset hl)
      covers := hcovers
      aligned := fun _ => by rw [length_window, length_window, haligned]
      nonneg := fun s hs => hplan.nonneg s ((window_sublist _ _ _).subset hs)
      intervals := hplan.intervals.sublist (window_sublist _ _ _)
      inside := by
        intro owner howner i s hs hle hlt'
        have hmem : owner.toOwnerFields ∈ owners.map (·.toOwnerFields) := List.mem_map_of_mem howner
        rw [hfields] at hmem
        obtain ⟨whole, hwhole, heq⟩ := List.mem_map.1 hmem
        rw [← heq] at hle hlt' ⊢
        dsimp only [CursorOwnerSpan.cut] at hle hlt' ⊢
        exact hlabel whole (List.mem_of_mem_filter hwhole) i s hs (by omega) (by omega) }
  refine ⟨u, ?_, ?_, ?_⟩
  · unfold sliceLabels
    rw [if_neg, howners]
    · exact map_eq_ok.2 ⟨u, hu, rfl⟩
    · rw [List.any_eq_true]
      rintro ⟨s, hs, hout⟩
      rw [Bool.or_eq_true, decide_eq_true_iff, decide_eq_true_iff] at hout
      have hwindow := hinside s hs
      omega
  · rw [hplan']
  · rw [hplan']

/-- The places of the labels that meet the window. -/
theorem indices_eq (plan : CursorLabelPlan) (start stop : Int) :
    ((plan.labelNormalizedSpans.zipIdx.filter fun s =>
        s.1.1 < stop && start < s.1.2).map Prod.snd)
      = window (endsBy Prod.snd start plan.labelNormalizedSpans)
          (startsBefore Prod.fst stop plan.labelNormalizedSpans)
          (List.range' 0 plan.labelNormalizedSpans.length) := by
  have hintervals := plan.valid.intervals
  have hfilter : plan.labelNormalizedSpans.zipIdx.filter _
      = window _ _ plan.labelNormalizedSpans.zipIdx := filter_eq_window
    (q := fun s => s.1.1 < stop && start < s.1.2)
    (m := endsBy Prod.snd start plan.labelNormalizedSpans)
    (n := startsBefore Prod.fst stop plan.labelNormalizedSpans) (by
      intro i a ha
      rw [List.getElem?_zipIdx, Option.map_eq_some_iff] at ha
      obtain ⟨s, hs, rfl⟩ := ha
      rw [Bool.and_eq_true, decide_eq_true_iff, decide_eq_true_iff, hintervals.lt_startsBefore hs,
        ← Nat.not_lt, hintervals.lt_endsBy hs, Int.not_le, and_comm])
  rw [hfilter, window_map, List.zipIdx_map_snd]

/-- The first and the last of some places in a row. -/
theorem window_range_ends {m n length : Nat} (hlt : m < n) (hle : n ≤ length) :
    (window m n (List.range' 0 length)).head? = some m ∧
      (window m n (List.range' 0 length)).getLast? = some (n - 1) := by
  have hplace : ∀ i, m + i < n → (window m n (List.range' 0 length))[i]? = some (m + i) := by
    intro i hi
    rw [getElem?_window, if_pos hi, List.getElem?_range' (by omega)]
    simp
  constructor
  · rw [List.head?_eq_getElem?, hplace 0 hlt]
    rfl
  · rw [List.getLast?_eq_getElem?, length_window, List.length_range', hplace _ (by omega)]
    congr 1
    omega

/-- A slice of label spans has a value when the window cuts none of them. -/
theorem sliceExact_eq (hstart : 0 ≤ start) :
    (Uncut Prod.fst Prod.snd plan.labelNormalizedSpans start stop →
      ∃ u, sliceExact plan start stop = .ok (some u) ∧
        Sliced plan u (endsBy Prod.snd start plan.labelNormalizedSpans)
          (startsBefore Prod.fst stop plan.labelNormalizedSpans)) ∧
    (¬ Uncut Prod.fst Prod.snd plan.labelNormalizedSpans start stop →
      sliceExact plan start stop = .ok none) := by
  have hintervals := plan.valid.intervals
  have hle := startsBefore_le Prod.fst stop plan.labelNormalizedSpans
  have hmeets : ∀ s ∈ window (endsBy Prod.snd start plan.labelNormalizedSpans)
      (startsBefore Prod.fst stop plan.labelNormalizedSpans) plan.labelNormalizedSpans,
      s ∈ plan.labelNormalizedSpans ∧ s.1 < stop ∧ start < s.2 := fun s hs => hintervals.mem_window hs
  unfold sliceExact
  rw [indices_eq]
  by_cases hlt : endsBy Prod.snd start plan.labelNormalizedSpans
      < startsBefore Prod.fst stop plan.labelNormalizedSpans
  · obtain ⟨hfirst, hlast⟩ := window_range_ends hlt hle
    simp only [hfirst, hlast]
    rw [Nat.sub_add_cancel (Nat.one_le_of_lt hlt)]
    constructor
    · intro hcut
      exact sliceLabels_eq hstart hlt hle fun s hs => hcut s (hmeets s hs).1 (hmeets s hs).2.1
        (hmeets s hs).2.2
    · intro hcut
      unfold Uncut at hcut
      push Not at hcut
      obtain ⟨s, hs, hleft, hright, hout⟩ := hcut
      have hmem : s ∈ window (endsBy Prod.snd start plan.labelNormalizedSpans)
          (startsBefore Prod.fst stop plan.labelNormalizedSpans) plan.labelNormalizedSpans := by
        rw [← hintervals.filter_meets, List.mem_filter, Bool.and_eq_true, decide_eq_true_iff,
          decide_eq_true_iff]
        exact ⟨hs, hleft, hright⟩
      unfold sliceLabels
      rw [if_pos]
      · rfl
      · rw [List.any_eq_true]
        refine ⟨s, hmem, ?_⟩
        rw [Bool.or_eq_true, decide_eq_true_iff, decide_eq_true_iff]
        by_cases hstart' : start ≤ s.1
        · have hright' := hout hstart'
          exact .inr (by omega)
        · exact .inl (Int.not_le.1 hstart')
  · have hnone := window_of_le (Nat.le_of_not_lt hlt)
      (List.range' 0 plan.labelNormalizedSpans.length)
    rw [hnone]
    constructor
    · intro _
      exact emptySlice_eq (Nat.le_of_not_lt hlt)
    · intro hcut
      refine absurd (fun s hs hleft hright => ?_) hcut
      have hmem : s ∈ plan.labelNormalizedSpans.filter fun s => s.1 < stop && start < s.2 := by
        rw [List.mem_filter, Bool.and_eq_true, decide_eq_true_iff, decide_eq_true_iff]
        exact ⟨hs, hleft, hright⟩
      rw [hintervals.filter_meets, window_of_le (Nat.le_of_not_lt hlt)] at hmem
      exact absurd hmem List.not_mem_nil

end

end StreamingTts.Engine.Cursor
