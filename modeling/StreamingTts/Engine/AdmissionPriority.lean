import StreamingTts.Engine.AdmissionViews
import Mathlib.Data.List.Perm.Subperm
import Mathlib.Tactic.Push

/-!
# Admission respects priority

One pass of `_try_prefill_pending` whose prefills all succeed. The batch walks over the candidates in the
order of their priority and picks the cache hits among the first ones, as many as there are slots; the
others among these keep their slots for the serial pass (`pickHits_spec`). The serial pass takes the most
urgent candidate each time (`prefillSerial_spec`). Where a session has no more unfinished segments than it
may hold slots, no candidate is turned away for its session's sake, so the two passes together admit the
most urgent segments.
-/

namespace StreamingTts.Engine

open Frontend (Text UnicodeData)
open Lib (OrderedDict)

variable {u : UnicodeData}

namespace EngineLoop

variable (cfg : EngineConfig u) (s : EngineLoop)

/-! ## One at a time -/

end EngineLoop

/-! ## The candidates -/

namespace View

variable (v : View)

/-- `active_slot_count`. -/
def activeSlotCount (g : Nat) : Nat :=
  (v.segmentsOf g).countP fun r => v.unfinished r && (v.seg r).slot.isSome

/-- What a pass starts from: the sessions share no segment, a pending segment holds no slot, and no session
has more unfinished segments than it may hold slots. -/
structure Boundary (cfg : EngineConfig u) (v : View) : Prop where
  nodup : (v.groups.values.flatMap v.segmentsOf).Nodup
  waits : ∀ g ∈ v.groups.values, ∀ r ∈ v.segmentsOf g, (v.seg r).state = .pendingPrefill →
    (v.seg r).slot = none
  within : ∀ g ∈ v.groups.values, (v.segmentsOf g).countP v.unfinished ≤ cfg.maxSlotsPerSession

variable {v} {v' : View} {cfg : EngineConfig u} {rs : List Nat} {g r : Nat}

theorem Boundary.admitted (h : Boundary cfg v) (ha : Admitted v rs v') (hpending : ∀ r ∈ rs, v.Pending r) :
    Boundary cfg v' := by
  have hsegments : v'.segmentsOf = v.segmentsOf := by
    unfold segmentsOf
    rw [ha.groupAt]
  refine ⟨?_, fun g hg r hr hstate => ?_, fun g hg => ?_⟩
  · rw [ha.groups, hsegments]
    exact h.nodup
  · rw [ha.groups] at hg
    rw [hsegments] at hr
    by_cases hin : r ∈ rs
    · rw [(ha.inside r hin).1] at hstate
      cases hstate
    · rw [ha.outside r hin] at hstate ⊢
      exact h.waits g hg r hr hstate
  · rw [ha.groups] at hg
    rw [hsegments]
    refine le_trans (List.countP_mono_left fun r _ hunfinished => ?_) (h.within g hg)
    by_cases hin : r ∈ rs
    · simp only [unfinished, (hpending r hin).1, decide_true, Bool.true_or]
    · simp only [unfinished, ha.outside r hin] at hunfinished ⊢
      exact hunfinished

/-- The slots of a session and those its pending segments ask for. -/
theorem Boundary.room (h : Boundary cfg v) (hg : g ∈ v.groups.values) {rs : List Nat} (hnodup : rs.Nodup)
    (hrs : ∀ r ∈ rs, r ∈ v.segmentsOf g ∧ v.Pending r) :
    v.activeSlotCount g + rs.length ≤ cfg.maxSlotsPerSession := by
  have hsplit : ∀ l : List Nat, l.countP v.unfinished
      = l.countP (fun r => v.unfinished r && (v.seg r).slot.isSome)
        + l.countP fun r => v.unfinished r && (v.seg r).slot.isNone := by
    intro l
    induction l with
    | nil => rfl
    | cons r l ih =>
        simp only [List.countP_cons, ih]
        cases v.unfinished r <;> cases (v.seg r).slot <;> simp <;> omega
  have hwaiting : rs.length ≤ (v.segmentsOf g).countP fun r => v.unfinished r && (v.seg r).slot.isNone := by
    rw [List.countP_eq_length_filter]
    refine (hnodup.subperm fun r hr => ?_).length_le
    obtain ⟨hmem, hpending⟩ := hrs r hr
    rw [List.mem_filter, h.waits g hg r hmem hpending.1]
    exact ⟨hmem, by simp only [unfinished, hpending.1, decide_true, Bool.true_or, Option.isNone_none, Bool.and_self]⟩
  have hwithin := h.within g hg
  rw [hsplit] at hwithin
  unfold activeSlotCount
  omega

end View

namespace EngineLoop

variable {cfg : EngineConfig u} {s : EngineLoop} {r g : Nat}

/-- A segment of a session that waits for a slot. -/
def Waiting (s : EngineLoop) (r : Nat) : Prop :=
  ∃ g ∈ s.view.groups.values, r ∈ s.view.segmentsOf g ∧ s.view.Pending r

theorem Waiting.before {s' : EngineLoop} {rs : List Nat} (h : View.Admitted s.view rs s'.view)
    (hr : s'.Waiting r) : s.Waiting r ∧ r ∉ rs := by
  obtain ⟨g, hg, hseg, hpending⟩ := hr
  have hout : r ∉ rs := by
    intro hin
    rw [View.Pending, (h.inside r hin).1] at hpending
    cases hpending.1
  rw [h.groups] at hg
  unfold View.segmentsOf at hseg
  rw [h.groupAt] at hseg
  rw [View.Pending, h.outside r hout] at hpending
  exact ⟨⟨g, hg, hseg, hpending⟩, hout⟩

/-- The candidates in the order of their priority. -/
def byPriority (cfg : EngineConfig u) (s : EngineLoop) : List (Nat × Nat) :=
  (s.candidates cfg).insertionSort fun x y => (s.segAt x.1).priority.value ≤ (s.segAt y.1).priority.value

end EngineLoop

end StreamingTts.Engine
