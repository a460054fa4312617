import Mathlib.Data.List.AList
import Mathlib.Data.List.Chain
import Mathlib.Data.Finset.Card
import Mathlib.Tactic.Common

/-!
# The audio reorder buffer

`AudioReorder` of `engine/frontend/spliter/reorder.py`. The segments of a session decode in parallel
and their audio is played in text order, by group and then by local index. The buffer keeps a
playhead `(next_group, next_local)`, the chunks of the segments ahead of it, the segments that are
done, and the last local index of each group whose last segment is done.

The loop of `_try_drain_ex` passes a done segment on every turn but the last, so it takes at most
one turn more than there are done segments; `drain` is given that number of turns.
-/

namespace StreamingTts.Split

/-- The key `(group_idx, local_idx)` of a segment. -/
abbrev Key := Nat × Nat

/-- The comparison `a < b` of two tuples. -/
def Key.before (a b : Key) : Prop := a.1 < b.1 ∨ a.1 = b.1 ∧ a.2 < b.2

instance (a b : Key) : Decidable (a.before b) :=
  inferInstanceAs (Decidable (a.1 < b.1 ∨ a.1 = b.1 ∧ a.2 < b.2))

theorem Key.before_trans {a b c : Key} (hab : a.before b) (hbc : b.before c) : a.before c := by
  unfold Key.before at *
  omega

instance : IsTrans Key Key.before := ⟨fun _ _ _ => Key.before_trans⟩

theorem Key.before_irrefl (a : Key) : ¬ a.before a := by
  unfold Key.before
  omega

/-- One entry of `_try_drain_ex`: a segment the drain touched, its chunks, and whether the playhead
advanced past it. -/
structure Drained (β : Type) where
  key : Key
  chunks : List β
  fullyPassed : Bool
  deriving DecidableEq, Repr

/-- The chunks of the entries of a drain. -/
def chunksOf {β : Type} (out : List (Drained β)) : List β := out.flatMap (·.chunks)

@[simp] theorem chunksOf_nil {β : Type} : chunksOf ([] : List (Drained β)) = [] := rfl

@[simp] theorem chunksOf_cons {β : Type} (e : Drained β) (out : List (Drained β)) :
    chunksOf (e :: out) = e.chunks ++ chunksOf out := rfl

/-- The keys of the segments a drain passed. -/
def passedOf {β : Type} (out : List (Drained β)) : List Key :=
  (out.filter (·.fullyPassed)).map (·.key)

@[simp] theorem passedOf_nil {β : Type} : passedOf ([] : List (Drained β)) = [] := rfl

@[simp] theorem passedOf_append {β : Type} (a b : List (Drained β)) :
    passedOf (a ++ b) = passedOf a ++ passedOf b := by
  simp [passedOf]

/-- `AudioReorder`; `τ` is the type of the clock's readings. -/
structure AudioReorder (τ β : Type) where
  nextGroup : Nat
  nextLocal : Nat
  buffers : AList (fun _ : Key => List β)
  done : Finset Key
  finalLocals : AList (fun _ : Nat => Nat)
  stallStartedAt : Option τ
  stallKey : Option Key

namespace AudioReorder
section
variable {τ β : Type}

/-- A buffer nothing was pushed to. -/
def init : AudioReorder τ β where
  nextGroup := 0
  nextLocal := 0
  buffers := ∅
  done := ∅
  finalLocals := ∅
  stallStartedAt := none
  stallKey := none

/-- `next_emit_segment`. -/
def nextEmitSegment (s : AudioReorder τ β) : Key := (s.nextGroup, s.nextLocal)

/-- The buffered chunks of a segment, none if it has no buffer. -/
def buffered (s : AudioReorder τ β) (k : Key) : List β := (s.buffers.lookup k).getD []

/-- `_refresh_stall_clock`. -/
def refreshStallClock (now : τ) (s : AudioReorder τ β) : AudioReorder τ β :=
  if s.buffers.entries.any fun e =>
      decide (s.nextEmitSegment.before e.1) && !(e.2 : List β).isEmpty then
    if s.stallKey ≠ some s.nextEmitSegment ∨ s.stallStartedAt.isNone then
      { s with stallKey := some s.nextEmitSegment, stallStartedAt := some now }
    else s
  else { s with stallStartedAt := none, stallKey := none }

/-- A turn of the drain takes the chunks out of the buffer of `k`, which stays behind empty. -/
def clearBuffer (s : AudioReorder τ β) (k : Key) : AudioReorder τ β :=
  match s.buffers.lookup k with
  | some (_ :: _) => { s with buffers := s.buffers.insert k [] }
  | _ => s

/-- The playhead moves to the next segment: of the next group after the group's last segment. -/
def advance (s : AudioReorder τ β) : AudioReorder τ β :=
  match s.finalLocals.lookup s.nextGroup with
  | some finalLocal =>
      if finalLocal ≤ s.nextLocal then
        { s with
          finalLocals := s.finalLocals.erase s.nextGroup
          nextGroup := s.nextGroup + 1
          nextLocal := 0 }
      else { s with nextLocal := s.nextLocal + 1 }
  | none => { s with nextLocal := s.nextLocal + 1 }

/-- The playhead advances past `k`, its current segment, which is done. -/
def pass (s : AudioReorder τ β) (k : Key) : AudioReorder τ β :=
  { s with buffers := s.buffers.erase k, done := s.done.erase k }.advance

/-- The loop of `_try_drain_ex`, for the given number of turns. -/
def drain : Nat → AudioReorder τ β → List (Drained β) × AudioReorder τ β
  | 0, s => ([], s)
  | turns + 1, s =>
      let key := s.nextEmitSegment
      if (s.buffers.lookup key).isNone ∧ key ∉ s.done then ([], s)
      else
        let chunks := s.buffered key
        let cleared := s.clearBuffer key
        if key ∈ cleared.done then
          let rest := drain turns (cleared.pass key)
          (⟨key, chunks, true⟩ :: rest.1, rest.2)
        else if chunks ≠ [] then ([⟨key, chunks, false⟩], cleared)
        else ([], cleared)

/-- `_try_drain_ex`. -/
def tryDrainEx (now : τ) (s : AudioReorder τ β) : List (Drained β) × AudioReorder τ β :=
  ((drain (s.done.card + 1) s).1, refreshStallClock now (drain (s.done.card + 1) s).2)

/-- `_try_drain`. -/
def tryDrain (now : τ) (s : AudioReorder τ β) : List β × AudioReorder τ β :=
  (chunksOf (s.tryDrainEx now).1, (s.tryDrainEx now).2)

/-- `push` puts a chunk in the buffer of its segment. -/
def append (s : AudioReorder τ β) (k : Key) (audio : β) : AudioReorder τ β :=
  { s with buffers := s.buffers.insert k (s.buffered k ++ [audio]) }

/-- `push`. -/
def push (now : τ) (s : AudioReorder τ β) (k : Key) (audio : β) : List β × AudioReorder τ β :=
  if k = s.nextEmitSegment then (s.append k audio).tryDrain now
  else ([], refreshStallClock now (s.append k audio))

/-- `mark_done_ex` records that a segment is done, and which one is the last of its group. -/
def recordDone (s : AudioReorder τ β) (k : Key) (groupFinal : Bool) : AudioReorder τ β :=
  { s with
    done := insert k s.done
    finalLocals := if groupFinal then s.finalLocals.insert k.1 k.2 else s.finalLocals }

/-- `mark_done_ex`. -/
def markDoneEx (now : τ) (s : AudioReorder τ β) (k : Key) (groupFinal : Bool) :
    List (Drained β) × AudioReorder τ β :=
  (s.recordDone k groupFinal).tryDrainEx now

/-- `mark_done`. -/
def markDone (now : τ) (s : AudioReorder τ β) (k : Key) (groupFinal : Bool) :
    List β × AudioReorder τ β :=
  (chunksOf (s.markDoneEx now k groupFinal).1, (s.markDoneEx now k groupFinal).2)

/-- `discard`: the number of chunks dropped. -/
def discard (now : τ) (s : AudioReorder τ β) (k : Key) : Nat × AudioReorder τ β :=
  ((s.buffered k).length, refreshStallClock now { s with buffers := s.buffers.erase k })

end
end AudioReorder

/-! ## Histories of calls -/

/-- A call of the reorder buffer at a reading of its clock. -/
inductive ReorderCall (τ β : Type)
  | push (now : τ) (k : Key) (audio : β)
  | markDone (now : τ) (k : Key) (groupFinal : Bool)
  | discard (now : τ) (k : Key)

namespace ReorderCall
section
variable {τ β : Type}

/-- The buffer after a call. -/
def next (s : AudioReorder τ β) : ReorderCall τ β → AudioReorder τ β
  | .push now k audio => (s.push now k audio).2
  | .markDone now k groupFinal => (s.markDoneEx now k groupFinal).2
  | .discard now k => (s.discard now k).2

/-- The audio a call returns. -/
def returned (s : AudioReorder τ β) : ReorderCall τ β → List β
  | .push now k audio => (s.push now k audio).1
  | .markDone now k groupFinal => (s.markDone now k groupFinal).1
  | .discard _ _ => []

/-- What a call of `mark_done_ex` reports; the other calls report nothing. -/
def report (s : AudioReorder τ β) : ReorderCall τ β → List (Drained β)
  | .markDone now k groupFinal => (s.markDoneEx now k groupFinal).1
  | _ => []

end
end ReorderCall

end StreamingTts.Split
