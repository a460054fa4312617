import StreamingTts.Engine.CursorReanchor

/-!
# Where a segment shows its cursor

`cursor_display_position` and `cursor_display_position_for_segment` of `engine/core/text_progress.py`: a
position, counted in labels, shown in the normalized and in the raw text. A segment has a slice of the plan,
and finds the labels of the slice in the plan of the whole again by their spans: a binary search for the
first span with the same start (`firstStart`), and then one window after the other (`matchWindow`). The
window it finds is the one the slice was cut from (`segmentOffset_eq`), because no label before the slice
reaches into the window of the segment.
-/

namespace StreamingTts.Engine.Cursor

open Frontend (Text)
open Lib

/-! ## The display -/

/-- The owner that contains a position, the last one if none does. -/
def ownerAt (value : ℚ) (owners : List CursorOwnerSpan) : Option CursorOwnerSpan :=
  (owners.find? fun item => value < item.labelEnd).or owners.getLast?

/-- How much of an owner lies before a position. -/
def CursorOwnerSpan.fraction (owner : CursorOwnerSpan) (value : ℚ) : ℚ :=
  if (owner.labelEnd : ℚ) ≤ value then 1
  else max 0 (value - owner.labelStart) / max 1 ((owner.labelEnd : ℚ) - owner.labelStart)

/-- A position inside of an owner. -/
def CursorOwnerSpan.display (owner : CursorOwnerSpan) (value : ℚ) : ℚ × ℚ :=
  (owner.normalizedStart + owner.fraction value * (owner.normalizedEnd - owner.normalizedStart),
    owner.rawStart + owner.fraction value * (owner.rawEnd - owner.rawStart))

/-- `cursor_display_position`. -/
def cursorDisplayPosition (plan : CursorLabelPlan) (position : ℚ) : Option (ℚ × ℚ) :=
  let value := max 0 (min (plan.labelIds.length : ℚ) position)
  (ownerAt value plan.ownerSpans).map (·.display value)

/-- The binary search for the first span that starts at `target` or behind it. -/
def firstStart (spans : List (Int × Int)) (target : Int) (left right : Nat) : Nat :=
  if left < right then
    let middle := (left + right) / 2
    match spans[middle]? with
    | some span =>
        if span.1 < target then firstStart spans target (middle + 1) right
        else firstStart spans target left middle
    | none => left
  else left
termination_by right - left

/-- The loop over the windows that start at `target`. -/
def matchWindow (globalPlan segmentPlan : CursorLabelPlan) (target : Int) (candidate : Nat) : Option Nat :=
  let width := segmentPlan.labelNormalizedSpans.length
  if candidate + width ≤ globalPlan.labelNormalizedSpans.length then
    match globalPlan.labelNormalizedSpans[candidate]? with
    | some span =>
        if span.1 ≠ target then none
        else if window candidate (candidate + width) globalPlan.labelNormalizedSpans
              = segmentPlan.labelNormalizedSpans
            ∧ window candidate (candidate + width) globalPlan.labelIds = segmentPlan.labelIds then
          some candidate
        else matchWindow globalPlan segmentPlan target (candidate + 1)
    | none => none
  else none
termination_by globalPlan.labelNormalizedSpans.length + 1 - candidate

/-- The offset of a segment in the plan of the whole. -/
def segmentOffset (globalPlan segmentPlan : CursorLabelPlan) : Option Nat :=
  match segmentPlan.labelNormalizedSpans with
  | [] => none
  | span :: _ =>
      if segmentPlan.labelNormalizedSpans.length ≤ globalPlan.labelNormalizedSpans.length then
        matchWindow globalPlan segmentPlan span.1
          (firstStart globalPlan.labelNormalizedSpans span.1 0 globalPlan.labelNormalizedSpans.length)
      else none

/-- `cursor_display_position_for_segment`. -/
def cursorDisplayPositionForSegment (globalPlan : Option CursorLabelPlan) (segmentPlan : CursorLabelPlan)
    (position : ℚ) : Option (ℚ × ℚ) :=
  let localPosition := max 0 (min (segmentPlan.labelIds.length : ℚ) position)
  if segmentPlan.labelNormalizedSpans = [] then cursorDisplayPosition segmentPlan localPosition
  else
    match globalPlan with
    | none => none
    | some globalPlan =>
        if globalPlan.labelNormalizedSpans = [] then none
        else
          (segmentOffset globalPlan segmentPlan).bind fun offset =>
            cursorDisplayPosition globalPlan (offset + localPosition)

/-! ## The binary search -/

section
variable {spans : List (Int × Int)} {target : Int}

theorem firstStart_eq (h : Intervals Prod.fst Prod.snd spans) {left right : Nat}
    (hright : right ≤ spans.length) (hle : left ≤ startsBefore Prod.fst target spans)
    (hge : startsBefore Prod.fst target spans ≤ right) :
    firstStart spans target left right = startsBefore Prod.fst target spans := by
  induction left, right using firstStart.induct spans target with
  | case1 left right hlt middle span hspan hbefore ih =>
      unfold firstStart
      rw [if_pos hlt]
      simp only [middle, hspan] at hbefore ih ⊢
      rw [if_pos hbefore]
      exact ih hright ((h.lt_startsBefore hspan).2 hbefore) hge
  | case2 left right hlt middle span hspan hbefore ih =>
      unfold firstStart
      rw [if_pos hlt]
      simp only [middle, hspan] at hbefore ih ⊢
      rw [if_neg hbefore]
      have hmiddle : (left + right) / 2 ≤ right := by omega
      exact ih (Nat.le_trans hmiddle hright) hle
        (Nat.le_of_not_lt fun hmid => hbefore ((h.lt_startsBefore hspan).1 hmid))
  | case3 left right hlt middle hnone =>
      have hout := List.getElem?_eq_none_iff.1 hnone
      omega
  | case4 left right hlt =>
      unfold firstStart
      rw [if_neg hlt]
      omega

end

/-! ## The window of a segment -/

section
variable {plan globalPlan segmentPlan : CursorLabelPlan} {start stop : Int}

/-- A slice of a plan with label spans is cut from the labels that meet the window, and cuts none. -/
theorem sliced_of_slice (hspans : plan.labelNormalizedSpans ≠ [])
    (h : sliceCursorLabelPlan plan start stop = .ok (some segmentPlan)) :
    start ≤ stop ∧ Uncut Prod.fst Prod.snd plan.labelNormalizedSpans start stop ∧ Sliced plan segmentPlan (endsBy Prod.snd start plan.labelNormalizedSpans)
      (startsBefore Prod.fst stop plan.labelNormalizedSpans) := by
  have howners : plan.ownerSpans ≠ [] := by
    intro hnil
    have hcovers := plan.valid.covers
    rw [hnil] at hcovers
    have haligned := plan.valid.aligned hspans
    exact hspans (List.eq_nil_of_length_eq_zero (haligned.trans hcovers.symm))
  unfold sliceCursorLabelPlan at h
  by_cases hargs : start < 0 ∨ stop < start
  · rw [if_pos hargs] at h
    cases h
  · rw [if_neg hargs, if_neg howners, if_pos hspans] at h
    have hstart : 0 ≤ start := by omega
    obtain ⟨hvalue, hnone⟩ := @sliceExact_eq plan start stop hstart
    by_cases hcut : Uncut Prod.fst Prod.snd plan.labelNormalizedSpans start stop
    · obtain ⟨u, hu, hsliced⟩ := hvalue hcut
      cases h.symm.trans hu
      exact ⟨by omega, hcut, hsliced⟩
    · cases h.symm.trans (hnone hcut)

theorem CursorLabelPlan.Extends.getElem? {α : Type _} {xs ys : List α} (h : xs <+: ys) {i : Nat}
    (hi : i < xs.length) : ys[i]? = xs[i]? := by
  obtain ⟨zs, rfl⟩ := h
  exact List.getElem?_append_left hi

/-- The windows of a list at the places of a first section of it. -/
theorem CursorLabelPlan.Extends.window {α : Type _} {xs ys : List α} (h : xs <+: ys) {m n : Nat}
    (hn : n ≤ xs.length) : Lib.window m n ys = Lib.window m n xs := by
  unfold Lib.window
  rw [take_eq h hn]

/-- The windows of the plan of the whole that start before the slice are not the slice. -/
theorem matchWindow_eq {k : Nat} {span : Int × Int}
    (hspan : segmentPlan.labelNormalizedSpans.head? = some span)
    (hk : window k (k + segmentPlan.labelNormalizedSpans.length) globalPlan.labelNormalizedSpans
      = segmentPlan.labelNormalizedSpans)
    (hlabels : window k (k + segmentPlan.labelNormalizedSpans.length) globalPlan.labelIds
      = segmentPlan.labelIds)
    (hle : k + segmentPlan.labelNormalizedSpans.length ≤ globalPlan.labelNormalizedSpans.length)
    (hfirst : ∀ i, i < k → globalPlan.labelNormalizedSpans[i]? ≠ some span) {candidate : Nat}
    (hcandidate : candidate ≤ k)
    (hstarts : ∀ i s, candidate ≤ i → i ≤ k → globalPlan.labelNormalizedSpans[i]? = some s →
      s.1 = span.1) :
    matchWindow globalPlan segmentPlan span.1 candidate = some k := by
  have hplace : globalPlan.labelNormalizedSpans[candidate]?
      = some (globalPlan.labelNormalizedSpans.get ⟨candidate, by
          have hpos : 0 < segmentPlan.labelNormalizedSpans.length := by
            cases hsegment : segmentPlan.labelNormalizedSpans with
            | nil =>
                rw [hsegment] at hspan
                cases hspan
            | cons _ _ => exact Nat.succ_pos _
          omega⟩) := List.getElem?_eq_getElem _
  have hstart := hstarts candidate _ (Nat.le_refl _) hcandidate hplace
  unfold matchWindow
  rw [if_pos (Nat.le_trans (Nat.add_le_add_right hcandidate _) hle), hplace]
  simp only [ne_eq, hstart, not_true_eq_false, if_false]
  rcases Nat.lt_or_eq_of_le hcandidate with hlt | rfl
  · rw [if_neg]
    · exact matchWindow_eq hspan hk hlabels hle hfirst hlt fun i s hi =>
        hstarts i s (Nat.le_of_lt hi)
    · rintro ⟨hwindow, -⟩
      -- the first label of the slice would lie before it
      have hhead : (window candidate (candidate + segmentPlan.labelNormalizedSpans.length)
          globalPlan.labelNormalizedSpans)[0]? = some span := by
        rw [hwindow, ← List.head?_eq_getElem?, hspan]
      rw [getElem?_window, Nat.add_zero] at hhead
      split_ifs at hhead with hin
      exact hfirst candidate hlt hhead
  · rw [if_pos ⟨hk, hlabels⟩]
termination_by k - candidate

theorem segmentOffset_cons {span : Int × Int} {rest : List (Int × Int)}
    (h : segmentPlan.labelNormalizedSpans = span :: rest) :
    segmentOffset globalPlan segmentPlan
      = if segmentPlan.labelNormalizedSpans.length ≤ globalPlan.labelNormalizedSpans.length then
          matchWindow globalPlan segmentPlan span.1
            (firstStart globalPlan.labelNormalizedSpans span.1 0 globalPlan.labelNormalizedSpans.length)
        else none := by
  unfold segmentOffset
  split
  · rename_i hnil
    cases hnil.symm.trans h
  · rename_i hcons
    cases hcons.symm.trans h
    rfl

/-- A slice is found where it was cut from, in every plan that starts with the one it was cut from. -/
theorem segmentOffset_eq (h : plan.Extends globalPlan) (hspans : plan.labelNormalizedSpans ≠ [])
    (hslice : sliceCursorLabelPlan plan start stop = .ok (some segmentPlan))
    (hactive : segmentPlan.labelIds ≠ []) :
    segmentPlan.labelNormalizedSpans ≠ [] ∧ globalPlan.labelNormalizedSpans ≠ [] ∧
      segmentOffset globalPlan segmentPlan
        = some (endsBy Prod.snd start plan.labelNormalizedSpans) := by
  obtain ⟨-, -, hlabels, hwindow⟩ := sliced_of_slice hspans hslice
  have hintervals := plan.valid.intervals
  have hglobal := globalPlan.valid.intervals
  have haligned := plan.valid.aligned hspans
  have hn := startsBefore_le Prod.fst stop plan.labelNormalizedSpans
  generalize hkdef : endsBy Prod.snd start plan.labelNormalizedSpans = k at hlabels hwindow ⊢
  generalize startsBefore Prod.fst stop plan.labelNormalizedSpans = n at hlabels hwindow hn
  have hlt : k < n := by
    by_contra hge
    exact hactive (hlabels.trans (window_of_le (Nat.le_of_not_lt hge) _))
  have hlength : segmentPlan.labelNormalizedSpans.length = n - k := by
    rw [hwindow, length_window, Nat.min_eq_left hn]
  have hplace : k + segmentPlan.labelNormalizedSpans.length = n := by omega
  have hkspan : k < plan.labelNormalizedSpans.length := Nat.lt_of_lt_of_le hlt hn
  have hlong := h.spans.length_le
  have hhead : segmentPlan.labelNormalizedSpans.head? = some plan.labelNormalizedSpans[k] := by
    rw [List.head?_eq_getElem?, hwindow, getElem?_window, if_pos (by omega), Nat.add_zero,
      List.getElem?_eq_getElem hkspan]
  have hkglobal : globalPlan.labelNormalizedSpans[k]? = some plan.labelNormalizedSpans[k] := by
    rw [CursorLabelPlan.Extends.getElem? h.spans hkspan, List.getElem?_eq_getElem hkspan]
  refine ⟨?_, ?_, ?_⟩
  · intro hnil
    rw [hnil] at hhead
    cases hhead
  · intro hnil
    rw [hnil] at hkglobal
    cases hkglobal
  cases hsegment : segmentPlan.labelNormalizedSpans with
  | nil =>
      rw [hsegment] at hhead
      cases hhead
  | cons span rest =>
      have hspan : span = plan.labelNormalizedSpans[k] := by
        rw [hsegment] at hhead
        exact Option.some.inj hhead
      have hsearch := @firstStart_eq _ span.1 hglobal _ _ (Nat.le_refl _) (Nat.zero_le _)
        (startsBefore_le Prod.fst span.1 globalPlan.labelNormalizedSpans)
      have hfirst : startsBefore Prod.fst span.1 globalPlan.labelNormalizedSpans ≤ k := by
        refine Nat.le_of_not_lt fun hk => ?_
        have hbefore := (hglobal.lt_startsBefore hkglobal).1 hk
        rw [hspan] at hbefore
        exact absurd hbefore (Int.lt_irrefl _)
      rw [segmentOffset_cons hsegment, if_pos (by omega), hsearch]
      refine matchWindow_eq (hsegment ▸ rfl) ?_ ?_ (by omega) ?_ hfirst ?_
      · rw [hplace, CursorLabelPlan.Extends.window h.spans hn, hwindow]
      · rw [hplace, CursorLabelPlan.Extends.window h.labels (haligned ▸ hn), hlabels]
      · intro i hi hsame
        rw [CursorLabelPlan.Extends.getElem? h.spans (Nat.lt_trans hi hkspan)] at hsame
        rw [← hkdef, hintervals.lt_endsBy hsame, hspan, ← hintervals.lt_endsBy
          (List.getElem?_eq_getElem hkspan), hkdef] at hi
        exact Nat.lt_irrefl k hi
      · intro i s hi hik hs
        refine le_antisymm ?_ (Int.not_lt.1 fun hbefore =>
          absurd ((hglobal.lt_startsBefore hs).2 hbefore) (Nat.not_lt.2 hi))
        rcases Nat.lt_or_eq_of_le hik with hlt' | rfl
        · have hpair := List.pairwise_iff_getElem.1 hglobal.starts i k (by
            have := List.getElem?_eq_some_iff.1 hs
            exact this.1) (by omega) hlt'
          obtain ⟨_, hs'⟩ := List.getElem?_eq_some_iff.1 hs
          obtain ⟨_, hk'⟩ := List.getElem?_eq_some_iff.1 hkglobal
          rw [hs', hk', ← hspan] at hpair
          exact hpair
        · rw [hkglobal] at hs
          cases hs
          rw [hspan]

end

/-! ## Owners in order -/

/-- Every owner ends, in the normalized and in the raw text, before the next ones start. -/
def InOrder (owners : List CursorOwnerSpan) : Prop :=
  owners.Pairwise fun o o' => o.normalizedEnd ≤ o'.normalizedStart ∧ o.rawEnd ≤ o'.rawStart

section
variable {owner : CursorOwnerSpan} {x y : ℚ}

theorem CursorOwnerSpan.fraction_mem (owner : CursorOwnerSpan) (x : ℚ) :
    0 ≤ owner.fraction x ∧ owner.fraction x ≤ 1 := by
  unfold fraction
  split_ifs with hend
  · exact ⟨zero_le_one, le_refl 1⟩
  · have hwidth : (0 : ℚ) < max 1 ((owner.labelEnd : ℚ) - owner.labelStart) :=
      lt_of_lt_of_le zero_lt_one (le_max_left _ _)
    refine ⟨div_nonneg (le_max_left _ _) hwidth.le, (div_le_one hwidth).2 (max_le hwidth.le ?_)⟩
    refine le_trans ?_ (le_max_right _ _)
    have hlt := not_le.1 hend
    linarith

theorem CursorOwnerSpan.fraction_mono (owner : CursorOwnerSpan) (hxy : x ≤ y) :
    owner.fraction x ≤ owner.fraction y := by
  by_cases hy : (owner.labelEnd : ℚ) ≤ y
  · have hone : owner.fraction y = 1 := if_pos hy
    rw [hone]
    exact (owner.fraction_mem x).2
  · have hx : ¬ (owner.labelEnd : ℚ) ≤ x := fun hx => hy (le_trans hx hxy)
    have hwidth : (0 : ℚ) < max 1 ((owner.labelEnd : ℚ) - owner.labelStart) :=
      lt_of_lt_of_le zero_lt_one (le_max_left _ _)
    unfold fraction
    rw [if_neg hx, if_neg hy]
    exact div_le_div_of_nonneg_right (max_le_max (le_refl 0) (by linarith)) hwidth.le

/-- A place between two ends. -/
theorem between_mem {f lo hi : ℚ} (hf : 0 ≤ f ∧ f ≤ 1) (h : lo ≤ hi) :
    lo ≤ lo + f * (hi - lo) ∧ lo + f * (hi - lo) ≤ hi := by
  have hwidth : 0 ≤ hi - lo := sub_nonneg.2 h
  have hlow := mul_nonneg hf.1 hwidth
  have hhigh := mul_le_of_le_one_left hwidth hf.2
  exact ⟨by linarith, by linarith⟩

theorem CursorOwnerSpan.normalized_le' (owner : CursorOwnerSpan) :
    (owner.normalizedStart : ℚ) ≤ owner.normalizedEnd := Int.cast_le.2 owner.normalized_le

theorem CursorOwnerSpan.raw_le' (owner : CursorOwnerSpan) :
    (owner.rawStart : ℚ) ≤ owner.rawEnd := Int.cast_le.2 owner.raw_le

/-- Inside of an owner the display does not go back. -/
theorem CursorOwnerSpan.display_mono (owner : CursorOwnerSpan) (hxy : x ≤ y) :
    owner.display x ≤ owner.display y := by
  have hfraction := owner.fraction_mono hxy
  refine Prod.mk_le_mk.2 ⟨?_, ?_⟩
  · have hwidth := sub_nonneg.2 owner.normalized_le'
    have := mul_le_mul_of_nonneg_right hfraction hwidth
    linarith
  · have hwidth := sub_nonneg.2 owner.raw_le'
    have := mul_le_mul_of_nonneg_right hfraction hwidth
    linarith

/-- The display of an owner before another one. -/
theorem display_le_of_before {owner' : CursorOwnerSpan}
    (h : owner.normalizedEnd ≤ owner'.normalizedStart ∧ owner.rawEnd ≤ owner'.rawStart) :
    owner.display x ≤ owner'.display y := by
  have hx := owner.fraction_mem x
  have hy := owner'.fraction_mem y
  refine Prod.mk_le_mk.2 ⟨?_, ?_⟩
  · exact le_trans (between_mem hx owner.normalized_le').2
      (le_trans (Int.cast_le.2 h.1) (between_mem hy owner'.normalized_le').1)
  · exact le_trans (between_mem hx owner.raw_le').2
      (le_trans (Int.cast_le.2 h.2) (between_mem hy owner'.raw_le').1)

theorem ownerAt_cons (owner : CursorOwnerSpan) (owners : List CursorOwnerSpan) :
    ownerAt x (owner :: owners)
      = if x < owner.labelEnd then some owner else (ownerAt x owners).or (some owner) := by
  unfold ownerAt
  by_cases hlt : x < owner.labelEnd
  · rw [if_pos hlt, List.find?_cons_of_pos (by simpa using hlt)]
    rfl
  · rw [if_neg hlt, List.find?_cons_of_neg (by simpa using hlt)]
    cases owners with
    | nil => rfl
    | cons owner' owners =>
        rw [List.getLast?_cons_cons, Option.or_assoc]
        cases hlast : (owner' :: owners).getLast? with
        | none => exact absurd (List.getLast?_eq_none_iff.1 hlast) (List.cons_ne_nil _ _)
        | some last => rfl

theorem mem_of_ownerAt {owners : List CursorOwnerSpan} (h : ownerAt x owners = some owner) :
    owner ∈ owners := by
  unfold ownerAt at h
  rcases Option.or_eq_some_iff.1 h with hfind | ⟨-, hlast⟩
  · exact List.mem_of_find?_eq_some hfind
  · exact List.mem_of_getLast? hlast

/-- Through owners in order the display does not go back. -/
theorem ownerAt_mono {owners : List CursorOwnerSpan} (h : InOrder owners) (hxy : x ≤ y)
    {o o' : CursorOwnerSpan} (ho : ownerAt x owners = some o) (ho' : ownerAt y owners = some o') :
    o.display x ≤ o'.display y := by
  induction owners with
  | nil => cases ho
  | cons first owners ih =>
      obtain ⟨hfirst, hrest⟩ := List.pairwise_cons.1 h
      rw [ownerAt_cons] at ho ho'
      by_cases hy : y < first.labelEnd
      · rw [if_pos (lt_of_le_of_lt hxy hy)] at ho
        rw [if_pos hy] at ho'
        obtain rfl := Option.some.inj ho
        obtain rfl := Option.some.inj ho'
        exact first.display_mono hxy
      · rw [if_neg hy] at ho'
        cases hafter : ownerAt y owners with
        | none =>
            -- the first owner is the only one
            have hnil : owners = [] := by
              unfold ownerAt at hafter
              exact List.getLast?_eq_none_iff.1 (Option.or_eq_none_iff.1 hafter).2
            subst hnil
            rw [hafter] at ho'
            obtain rfl := Option.some.inj ho'
            have hsame : some first = some o := by
              rw [← ho]
              split_ifs <;> rfl
            obtain rfl := Option.some.inj hsame
            exact first.display_mono hxy
        | some o₂ =>
            rw [hafter] at ho'
            obtain rfl : o₂ = o' := Option.some.inj ho'
            by_cases hx : x < first.labelEnd
            · rw [if_pos hx] at ho
              obtain rfl := Option.some.inj ho
              exact display_le_of_before (hfirst o₂ (mem_of_ownerAt hafter))
            · rw [if_neg hx] at ho
              cases hbefore : ownerAt x owners with
              | none =>
                  have hnil : owners = [] := by
                    unfold ownerAt at hbefore
                    exact List.getLast?_eq_none_iff.1 (Option.or_eq_none_iff.1 hbefore).2
                  subst hnil
                  cases hafter
              | some o₁ =>
                  rw [hbefore] at ho
                  obtain rfl : o₁ = o := Option.some.inj ho
                  exact ih hrest hbefore hafter

end

/-- On a plan with its owners in order, a later position is not shown before an earlier one. -/
theorem cursorDisplayPosition_mono {plan : CursorLabelPlan} (h : InOrder plan.ownerSpans) {x y : ℚ}
    (hxy : x ≤ y) {d d' : ℚ × ℚ} (hd : cursorDisplayPosition plan x = some d)
    (hd' : cursorDisplayPosition plan y = some d') : d ≤ d' := by
  unfold cursorDisplayPosition at hd hd'
  obtain ⟨o, ho, rfl⟩ := Option.map_eq_some_iff.1 hd
  obtain ⟨o', ho', rfl⟩ := Option.map_eq_some_iff.1 hd'
  exact ownerAt_mono h (max_le_max (le_refl 0) (min_le_min (le_refl _) hxy)) ho ho'

theorem cursorDisplayPosition_isSome {plan : CursorLabelPlan} (h : plan.ownerSpans ≠ []) (x : ℚ) :
    (cursorDisplayPosition plan x).isSome = true := by
  unfold cursorDisplayPosition ownerAt
  rw [Option.isSome_map, Option.isSome_or, List.getLast?_isSome.2 h, Bool.or_true]

/-! ## Segments in a row -/

section
variable {plan globalPlan s t : CursorLabelPlan} {a b c : Int}

/-- The place of a position of a segment in the plan of the whole. -/
def globalPosition (plan : CursorLabelPlan) (a : Int) (s : CursorLabelPlan) (position : ℚ) : ℚ :=
  (endsBy Prod.snd a plan.labelNormalizedSpans : ℚ) + max 0 (min (s.labelIds.length : ℚ) position)

/-- A segment shows a position where the plan of the whole shows it. -/
theorem display_segment (h : plan.Extends globalPlan) (hspans : plan.labelNormalizedSpans ≠ [])
    (hslice : sliceCursorLabelPlan plan a b = .ok (some s)) (hactive : s.labelIds ≠ []) (position : ℚ) :
    cursorDisplayPositionForSegment (some globalPlan) s position
      = cursorDisplayPosition globalPlan (globalPosition plan a s position) := by
  obtain ⟨hs, hglobal, hoffset⟩ := segmentOffset_eq h hspans hslice hactive
  unfold cursorDisplayPositionForSegment globalPosition
  dsimp only
  rw [if_neg hs, if_neg hglobal, hoffset, Option.bind_some]

theorem globalPosition_mono {x y : ℚ} (hxy : x ≤ y) :
    globalPosition plan a s x ≤ globalPosition plan a s y :=
  add_le_add_right (max_le_max (le_refl 0) (min_le_min (le_refl _) hxy)) _

/-- A segment ends where the next one begins. -/
theorem globalPosition_meet (hspans : plan.labelNormalizedSpans ≠ [])
    (hs : sliceCursorLabelPlan plan a b = .ok (some s)) (hactive : s.labelIds ≠ []) :
    globalPosition plan a s s.labelIds.length = globalPosition plan b t 0 := by
  obtain ⟨hab, hcut, hsliced⟩ := sliced_of_slice hspans hs
  have hmeet := plan.valid.intervals.meet hab hcut
  have hbound := startsBefore_le Prod.fst b plan.labelNormalizedSpans
  have haligned := plan.valid.aligned hspans
  have hlength : s.labelIds.length = startsBefore Prod.fst b plan.labelNormalizedSpans
      - endsBy Prod.snd a plan.labelNormalizedSpans := by
    rw [hsliced.labels, length_window, ← haligned, Nat.min_eq_left hbound]
  have hpos : 0 < s.labelIds.length := List.length_pos_of_ne_nil hactive
  have hsum : endsBy Prod.snd a plan.labelNormalizedSpans + s.labelIds.length
      = endsBy Prod.snd b plan.labelNormalizedSpans := by omega
  unfold globalPosition
  rw [min_self, max_eq_right (Nat.cast_nonneg _), min_eq_right (Nat.cast_nonneg _), max_self, add_zero,
    ← Nat.cast_add, hsum]

theorem globalPosition_le_of_next (hspans : plan.labelNormalizedSpans ≠ [])
    (hs : sliceCursorLabelPlan plan a b = .ok (some s)) (hactive : s.labelIds ≠ []) (x y : ℚ) :
    globalPosition plan a s x ≤ globalPosition plan b t y := by
  have hend : globalPosition plan a s x ≤ globalPosition plan a s s.labelIds.length := by
    refine add_le_add_right (max_le_max (le_refl 0) ?_) _
    rw [min_self]
    exact min_le_left _ _
  have hbegin : globalPosition plan b t 0 ≤ globalPosition plan b t y := by
    refine add_le_add_right ?_ _
    rw [min_eq_right (Nat.cast_nonneg _), max_self]
    exact le_max_left _ _
  exact le_trans hend (le_trans (le_of_eq (globalPosition_meet hspans hs hactive)) hbegin)

end

/-- For every plan with label spans, every plan that starts with it and every slice with labels, the
segment shows each position, taken to the nearest one that it has, where the plan of the whole shows it. Two
slices in a row show the same at the seam, and with the owners in order the display never goes back, neither
in a segment nor from one to the next. -/
theorem display_global (plan globalPlan : CursorLabelPlan) (h : plan.Extends globalPlan)
    (hspans : plan.labelNormalizedSpans ≠ []) (a b c : Int) (s : CursorLabelPlan)
    (hs : sliceCursorLabelPlan plan a b = .ok (some s)) (hactive : s.labelIds ≠ []) :
    (∀ p : ℚ, (cursorDisplayPositionForSegment (some globalPlan) s p).isSome = true ∧
      cursorDisplayPositionForSegment (some globalPlan) s p
        = cursorDisplayPosition globalPlan (endsBy Prod.snd a plan.labelNormalizedSpans
            + max 0 (min (s.labelIds.length : ℚ) p)) ∧
      s.labelIds = window (endsBy Prod.snd a plan.labelNormalizedSpans)
        (endsBy Prod.snd a plan.labelNormalizedSpans + s.labelIds.length) plan.labelIds) ∧
    (InOrder globalPlan.ownerSpans → ∀ (x y : ℚ) (d d' : ℚ × ℚ), x ≤ y →
      cursorDisplayPositionForSegment (some globalPlan) s x = some d →
      cursorDisplayPositionForSegment (some globalPlan) s y = some d' → d ≤ d') ∧
    ∀ t, sliceCursorLabelPlan plan b c = .ok (some t) → t.labelIds ≠ [] →
      cursorDisplayPositionForSegment (some globalPlan) s s.labelIds.length
          = cursorDisplayPositionForSegment (some globalPlan) t 0 ∧
      (InOrder globalPlan.ownerSpans → ∀ (x y : ℚ) (d d' : ℚ × ℚ),
        cursorDisplayPositionForSegment (some globalPlan) s x = some d →
        cursorDisplayPositionForSegment (some globalPlan) t y = some d' → d ≤ d') := by
  have howners : globalPlan.ownerSpans ≠ [] := by
    intro hnil
    have hcovers := globalPlan.valid.covers
    rw [hnil] at hcovers
    have haligned := plan.valid.aligned hspans
    have hlong := h.labels.length_le
    have hpos := List.length_pos_of_ne_nil hspans
    have hzero : 0 = globalPlan.labelIds.length := hcovers
    omega
  refine ⟨fun p => ?_, fun horder x y d d' hxy hd hd' => ?_, fun t ht htactive =>
    ⟨?_, fun horder x y d d' hd hd' => ?_⟩⟩
  · have hshown := display_segment h hspans hs hactive p
    refine ⟨?_, hshown, ?_⟩
    · rw [hshown]
      exact cursorDisplayPosition_isSome howners _
    · obtain ⟨-, -, hsliced⟩ := sliced_of_slice hspans hs
      have hbound := startsBefore_le Prod.fst b plan.labelNormalizedSpans
      have haligned := plan.valid.aligned hspans
      have hlength : s.labelIds.length = startsBefore Prod.fst b plan.labelNormalizedSpans
          - endsBy Prod.snd a plan.labelNormalizedSpans := by
        rw [hsliced.labels, length_window, ← haligned, Nat.min_eq_left hbound]
      have hpos := List.length_pos_of_ne_nil hactive
      have hend : endsBy Prod.snd a plan.labelNormalizedSpans + s.labelIds.length
          = startsBefore Prod.fst b plan.labelNormalizedSpans := by omega
      rw [hend]
      exact hsliced.labels
  · rw [display_segment h hspans hs hactive] at hd hd'
    exact cursorDisplayPosition_mono horder (globalPosition_mono hxy) hd hd'
  · rw [display_segment h hspans hs hactive, display_segment h hspans ht htactive,
      globalPosition_meet hspans hs hactive]
  · rw [display_segment h hspans hs hactive] at hd
    rw [display_segment h hspans ht htactive] at hd'
    exact cursorDisplayPosition_mono horder (globalPosition_le_of_next hspans hs hactive x y) hd hd'

/-- The first of the two characters. -/
def oneCharacter : CursorLabelPlan :=
  { labelIds := [1]
    ownerSpans := [characterOwner 0]
    labelNormalizedSpans := [(0, 1)]
    checked := by decide }

theorem slice_twoCharacters : sliceCursorLabelPlan twoCharacters 0 1 = .ok (some oneCharacter) := by
  decide +kernel

/-- The middle of the first of two characters, shown once there is a third. -/
theorem display_global_oneCharacter :
    (cursorDisplayPositionForSegment (some threeCharacters) oneCharacter (1 / 2)).isSome = true ∧
      cursorDisplayPositionForSegment (some threeCharacters) oneCharacter (1 / 2)
        = cursorDisplayPosition threeCharacters (endsBy Prod.snd 0 twoCharacters.labelNormalizedSpans
            + max 0 (min (oneCharacter.labelIds.length : ℚ) (1 / 2))) :=
  have h := (display_global twoCharacters threeCharacters twoCharacters_extends (by decide) 0 1 2
    oneCharacter slice_twoCharacters (by decide)).1 (1 / 2)
  ⟨h.1, h.2.1⟩

/-- A labelizer with two labels, the second of which lies inside of the first. -/
def overlappingLabelizer : Labelizer where
  call _ := .ok [1, 1]
  encodeWithSpans := some fun _ _ => .ok ([1, 1], [(0, 2), (1, 2)])

/-- A literal commit of two characters. -/
def overlappingRequest : Request Unit :=
  { commits := [{ commitId := 1, rawStart := 0, rawEnd := 2, rawText := some ['a', 'b']
                  ttsText := ['a', 'b'], rest := () }]
    revision := 0 }

/-- The plan of that commit. -/
def overlappingCharacters : CursorLabelPlan :=
  { labelIds := [1, 1]
    ownerSpans :=
      [⟨⟨literalOwnerId 1 0, 0, 1, 0, 2, 0, 2⟩, by decide, by decide, by decide, by decide, by decide⟩,
        ⟨⟨literalOwnerId 1 1, 1, 2, 1, 2, 1, 2⟩, by decide, by decide, by decide, by decide, by decide⟩]
    labelNormalizedSpans := [(0, 2), (1, 2)]
    checked := by decide }

/-- A position behind the end of a segment is not the one behind its last label; and with labels that
overlap the display goes back at the second of them. -/
theorem display_goes_back :
    ((({} : Adapter Unit).build characterLabelizer growingRequests.1).1 = .ok twoCharacters ∧
        sliceCursorLabelPlan twoCharacters 0 1 = .ok (some oneCharacter) ∧
        twoCharacters.Extends threeCharacters ∧
        cursorDisplayPositionForSegment (some threeCharacters) oneCharacter 2 = some (1, 1) ∧
        cursorDisplayPosition threeCharacters (0 + 2) = some (2, 2)) ∧
      (({} : Adapter Unit).build overlappingLabelizer overlappingRequest).1 = .ok overlappingCharacters ∧
      sliceCursorLabelPlan overlappingCharacters 0 2 = .ok (some overlappingCharacters) ∧
      cursorDisplayPositionForSegment (some overlappingCharacters) overlappingCharacters (3 / 4)
        = some (3 / 2, 3 / 2) ∧
      cursorDisplayPositionForSegment (some overlappingCharacters) overlappingCharacters 1 = some (1, 1) := by
  refine ⟨⟨by decide +kernel, slice_twoCharacters, twoCharacters_extends, ?_, by decide +kernel⟩,
    by decide +kernel, by decide +kernel, ?_, ?_⟩
  · decide +kernel
  · decide +kernel
  · decide +kernel

end StreamingTts.Engine.Cursor
