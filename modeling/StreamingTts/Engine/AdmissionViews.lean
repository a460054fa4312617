import StreamingTts.Engine.Admission

/-!
# What an admission pass moves

Admission reads little of the loop: the sessions with their segments, the state and the slot of each
segment, its text and its priority, and the number of free slots (`View`). Most of what
`_try_prefill_pending` does leaves the view as it is. `Admitted v rs v'` says what is left of it: the
segments `rs` are active on slots of their own, and everything else is as it was.
-/

namespace StreamingTts.Engine

open Frontend (Text UnicodeData)
open Lib (OrderedDict)

/-- What admission reads of a segment. -/
structure SegView where
  state : SegState
  slot : Option Nat
  pendingTokenIds : List Nat
  inputComplete : Bool
  priority : RequestPriority

/-- What admission reads of the loop. -/
structure View where
  groups : OrderedDict Text Nat
  groupAt : Nat → EngineSessionGroup
  free : Nat
  seg : Nat → SegView

def EngineSegment.view (seg : EngineSegment) : SegView :=
  ⟨seg.state, seg.slot, seg.pendingTokenIds, seg.inputComplete, seg.priority⟩

def EngineLoop.view (s : EngineLoop) : View :=
  ⟨s.groups, s.groupAt, s.pool.freeCount, fun r => (s.segAt r).view⟩

namespace View

variable (v : View)

/-- The segments of a group. -/
def segmentsOf (g : Nat) : List Nat := (v.groupAt g).segments.values

/-- A segment waits for a slot. -/
def Pending (r : Nat) : Prop := (v.seg r).state = .pendingPrefill ∧ (v.seg r).pendingTokenIds ≠ []

/-- A segment that has not ended. -/
def unfinished (r : Nat) : Bool :=
  (v.seg r).state = .pendingPrefill || (v.seg r).state = .active

/-- The segments `rs` have been admitted. -/
structure Admitted (v : View) (rs : List Nat) (v' : View) : Prop where
  groups : v'.groups = v.groups
  groupAt : v'.groupAt = v.groupAt
  free : v'.free + rs.length = v.free
  inside : ∀ r ∈ rs, (v'.seg r).state = .active ∧ (v'.seg r).slot.isSome = true ∧
    (v'.seg r).priority = (v.seg r).priority
  outside : ∀ r ∉ rs, v'.seg r = v.seg r

theorem Admitted.refl : Admitted v [] v :=
  ⟨rfl, rfl, rfl, fun _ h => absurd h List.not_mem_nil, fun _ _ => rfl⟩

variable {v} {v' v'' : View} {rs rs' : List Nat}

theorem Admitted.priority (h : Admitted v rs v') (r : Nat) : (v'.seg r).priority = (v.seg r).priority := by
  by_cases hr : r ∈ rs
  · exact (h.inside r hr).2.2
  · rw [h.outside r hr]

theorem Admitted.trans (h : Admitted v rs v') (h' : Admitted v' rs' v'') :
    Admitted v (rs ++ rs') v'' := by
  refine ⟨h'.groups.trans h.groups, h'.groupAt.trans h.groupAt, ?_, fun r hr => ?_, fun r hr => ?_⟩
  · have hfree := h.free
    have hfree' := h'.free
    rw [List.length_append]
    omega
  · by_cases hlast : r ∈ rs'
    · obtain ⟨hstate, hslot, hpriority⟩ := h'.inside r hlast
      exact ⟨hstate, hslot, hpriority.trans (h.priority r)⟩
    · rw [h'.outside r hlast]
      exact h.inside r ((List.mem_append.1 hr).resolve_right hlast)
  · rw [List.mem_append, not_or] at hr
    rw [h'.outside r hr.2, h.outside r hr.1]

end View

namespace EngineLoop

variable {u : UnicodeData} (cfg : EngineConfig u) (s : EngineLoop)

/-! ## What leaves the view as it is -/

@[simp] theorem view_attachTrailing (k : Nat) (trailing : List Embed) :
    (s.attachTrailing k trailing).view = s.view := rfl

end EngineLoop

end StreamingTts.Engine
