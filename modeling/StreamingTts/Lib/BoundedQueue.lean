import Mathlib.Data.List.Basic

/-!
# Bounded queues with waiting putters

`asyncio.Queue`: a `put` into a full queue waits, a `get` wakes the first waiting `put`, and the woken
one puts its item when its task runs again. A `put` that is called in between finds the room and takes
it, so a queue is first-in first-out over the calls of `put` only as long as no call overtakes a waiting
one (`Fair`). `contents` lists the items in the order in which they will come out. A capacity of `0` is
an unbounded queue.
-/

namespace StreamingTts.Lib

/-- A bounded queue: the items it holds, those of the puts that were woken, and those of the puts that
still wait. -/
structure BoundedQueue (α : Type _) where
  maxsize : Nat
  items : List α
  woken : List α
  putters : List α

namespace BoundedQueue
section
variable {α : Type _} (q : BoundedQueue α)

/-- A new queue. -/
def empty (maxsize : Nat) : BoundedQueue α := ⟨maxsize, [], [], []⟩

/-- `full`. -/
def full : Bool := 0 < q.maxsize && q.maxsize ≤ q.items.length

/-- A call of `put`, up to where it returns or waits. -/
def put (a : α) : BoundedQueue α :=
  if q.full then { q with putters := q.putters ++ [a] } else { q with items := q.items ++ [a] }

/-- The first woken `put` runs again; a queue that is full again makes it wait again. -/
def resume : BoundedQueue α :=
  match q.woken with
  | [] => q
  | a :: rest => { q with woken := rest }.put a

/-- The first `n` waiting puts are woken. -/
def wake (n : Nat) : BoundedQueue α :=
  { q with woken := q.woken ++ q.putters.take n, putters := q.putters.drop n }

/-- `get_nowait`. -/
def get : Option (α × BoundedQueue α) :=
  match q.items with
  | [] => none
  | a :: rest => some (a, { q with items := rest }.wake 1)

/-- `get_nowait` until the queue is empty. -/
def drain : List α × BoundedQueue α := (q.items, { q with items := [] }.wake q.items.length)

/-- Everything that was put, in the order in which it will come out. -/
def contents : List α := q.items ++ q.woken ++ q.putters

/-- A put may wait only while the queue and the woken puts take up all the room. -/
structure Ok : Prop where
  room : 0 < q.maxsize → q.items.length + q.woken.length ≤ q.maxsize
  waiting : q.putters ≠ [] → 0 < q.maxsize ∧ q.items.length + q.woken.length = q.maxsize

/-- A call of `put` that overtakes no waiting one. -/
def Fair : Prop := q.full = true ∨ (q.woken = [] ∧ q.putters = [])

variable {q}

theorem Ok.empty (maxsize : Nat) : Ok (empty maxsize : BoundedQueue α) where
  room _ := Nat.zero_le _
  waiting hne := absurd rfl hne

@[simp] theorem put_maxsize (a : α) : (q.put a).maxsize = q.maxsize := by
  unfold put
  split <;> rfl

/-- A fair `put` comes out last. -/
theorem Ok.put (h : q.Ok) (hfair : q.Fair) (a : α) :
    (q.put a).Ok ∧ (q.put a).contents = q.contents ++ [a] := by
  unfold BoundedQueue.put
  split
  · next hfull =>
    have hfull : 0 < q.maxsize ∧ q.maxsize ≤ q.items.length := by simpa [full] using hfull
    have hroom := h.room hfull.1
    refine ⟨⟨h.room, fun _ => ⟨hfull.1, ?_⟩⟩, by simp [contents]⟩
    show q.items.length + q.woken.length = q.maxsize
    omega
  · next hfull =>
    obtain ⟨hwoken, hputters⟩ := hfair.resolve_left hfull
    refine ⟨⟨fun hpos => ?_, fun hne => absurd hputters hne⟩, by simp [contents, hwoken, hputters]⟩
    simp only [full, hpos, decide_true, Bool.true_and, decide_eq_true_eq] at hfull
    simp only [hwoken, List.length_append, List.length_cons, List.length_nil]
    omega

/-- A woken `put` finds the room that was made for it. -/
theorem Ok.resume (h : q.Ok) : q.resume.Ok ∧ q.resume.contents = q.contents := by
  unfold BoundedQueue.resume
  split
  · exact ⟨h, rfl⟩
  · next a rest hwoken =>
    have hnot : ({ q with woken := rest } : BoundedQueue α).full = false := by
      by_contra hfull
      have hfull : 0 < q.maxsize ∧ q.maxsize ≤ q.items.length := by
        simpa [full] using hfull
      have hroom := h.room hfull.1
      rw [hwoken, List.length_cons] at hroom
      omega
    unfold BoundedQueue.put
    simp only [hnot, Bool.false_eq_true, if_false]
    refine ⟨⟨fun hpos => ?_, fun hne => ?_⟩, by simp [contents, hwoken]⟩
    · have hroom := h.room hpos
      simp only [hwoken, List.length_cons, List.length_append, List.length_nil] at hroom ⊢
      omega
    · obtain ⟨hpos, hsum⟩ := h.waiting hne
      refine ⟨hpos, ?_⟩
      simp only [hwoken, List.length_cons, List.length_append, List.length_nil] at hsum ⊢
      omega

/-- Taking the first `n` items makes room for as many waiting puts. -/
theorem Ok.wake (h : q.Ok) {taken rest : List α} (hitems : q.items = taken ++ rest) :
    ({ q with items := rest }.wake taken.length).Ok
      ∧ q.contents = taken ++ ({ q with items := rest }.wake taken.length).contents := by
  refine ⟨⟨fun hpos => ?_, fun hne => ?_⟩, ?_⟩
  · have hroom := h.room hpos
    simp only [BoundedQueue.wake, hitems, List.length_append, List.length_take] at hroom ⊢
    omega
  · have hlong : taken.length < q.putters.length := by
      by_contra hle
      exact hne (List.drop_eq_nil_of_le (Nat.le_of_not_lt hle))
    have hputters : q.putters ≠ [] := by
      intro hnil
      rw [hnil] at hlong
      exact Nat.not_lt_zero _ hlong
    obtain ⟨hpos, hsum⟩ := h.waiting hputters
    refine ⟨hpos, ?_⟩
    simp only [BoundedQueue.wake, hitems, List.length_append, List.length_take] at hsum ⊢
    omega
  · simp only [contents, BoundedQueue.wake, hitems, List.append_assoc, List.take_append_drop]

/-- `get_nowait` takes the first item. -/
theorem Ok.get (h : q.Ok) {a : α} {q' : BoundedQueue α} (hget : q.get = some (a, q')) :
    q'.Ok ∧ q.contents = a :: q'.contents := by
  unfold BoundedQueue.get at hget
  split at hget
  · cases hget
  · next rest hitems =>
    cases hget
    have hsplit : q.items = [a] ++ rest := hitems
    exact h.wake hsplit

/-- Draining takes all items, and the woken puts come next. -/
theorem Ok.drain (h : q.Ok) : q.drain.2.Ok ∧ q.contents = q.drain.1 ++ q.drain.2.contents :=
  h.wake (List.append_nil _).symm

/-- Of an empty queue only the woken puts are left. -/
theorem Ok.contents_eq_nil (h : q.Ok) (hitems : q.items = []) (hwoken : q.woken = []) :
    q.contents = [] := by
  have hputters : q.putters = [] := by
    by_contra hne
    obtain ⟨hpos, hsum⟩ := h.waiting hne
    rw [hitems, hwoken] at hsum
    exact absurd hsum (Nat.ne_of_lt hpos)
  simp [contents, hitems, hwoken, hputters]

end
end BoundedQueue

end StreamingTts.Lib
