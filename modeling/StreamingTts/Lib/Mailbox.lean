import Mathlib.Data.List.Basic

/-!
# Bounded mailboxes with their history

A FIFO queue between one producer and one consumer, kept together with everything that was ever
put into it: `placed` is the whole history of puts and `taken` the number of reads, so the waiting
items are `placed.drop taken`. Keeping the history lets a protocol state what a queue *received*
without a second, ghost copy of it. A capacity of `0` is an unbounded queue.
-/

namespace StreamingTts.Lib

/-- A FIFO queue: the items ever placed in it, of which the first `taken` have been read. -/
structure Mailbox (α : Type _) where
  placed : List α
  taken : Nat
  taken_le : taken ≤ placed.length

namespace Mailbox
section
variable {α : Type _}

/-- A queue nothing was placed in. -/
def empty : Mailbox α := ⟨[], 0, Nat.le_refl _⟩

/-- The number of waiting items. -/
def size (q : Mailbox α) : Nat := q.placed.length - q.taken

/-- Whether a queue of capacity `maxsize` accepts no further item. -/
def full (q : Mailbox α) (maxsize : Nat) : Bool := 0 < maxsize && maxsize ≤ q.size

/-- A non-blocking put, refused by a full queue. -/
def put (q : Mailbox α) (maxsize : Nat) (a : α) : Option (Mailbox α) :=
  if q.full maxsize then none
  else some ⟨q.placed ++ [a], q.taken, by have := q.taken_le; simp; omega⟩

/-- A read: the oldest waiting item is taken, if there is one. -/
def take (q : Mailbox α) : Mailbox α :=
  if h : q.taken < q.placed.length then ⟨q.placed, q.taken + 1, h⟩ else q

/-- The waiting items, oldest first. -/
def waiting (q : Mailbox α) : List α := q.placed.drop q.taken

@[simp] theorem empty_placed : (empty : Mailbox α).placed = [] := rfl

@[simp] theorem empty_size : (empty : Mailbox α).size = 0 := rfl

@[simp] theorem take_placed (q : Mailbox α) : q.take.placed = q.placed := by
  unfold take; split <;> rfl

/-- A refused put is a put into a full queue. -/
theorem put_eq_none {q : Mailbox α} {maxsize : Nat} {a : α} :
    q.put maxsize a = none ↔ q.full maxsize = true := by
  unfold put; split <;> simp_all

/-- An accepted put appends its item to the history and reads nothing. -/
theorem put_eq_some {q q' : Mailbox α} {maxsize : Nat} {a : α} (h : q.put maxsize a = some q') :
    q.full maxsize = false ∧ q'.placed = q.placed ++ [a] ∧ q'.size = q.size + 1 := by
  unfold put at h
  split at h
  · cases h
  · next hf =>
    cases h
    have := q.taken_le
    refine ⟨by simpa using hf, rfl, ?_⟩
    simp only [size, List.length_append, List.length_singleton]
    omega

/-- An accepted put is the last of the waiting items. -/
theorem put_waiting {q q' : Mailbox α} {maxsize : Nat} {a : α} (h : q.put maxsize a = some q') :
    q'.waiting = q.waiting ++ [a] := by
  unfold put at h
  split at h
  · cases h
  · cases h
    exact List.drop_append_of_le_length q.taken_le

/-- A read takes the first of the waiting items. -/
theorem take_waiting {q : Mailbox α} {a : α} {rest : List α} (h : q.waiting = a :: rest) :
    q.take.waiting = rest := by
  have hlt : q.taken < q.placed.length := by
    by_contra hge
    rw [waiting, List.drop_eq_nil_of_le (Nat.le_of_not_lt hge)] at h
    cases h
  unfold take
  rw [dif_pos hlt]
  show q.placed.drop (q.taken + 1) = rest
  rw [← List.drop_drop, show q.placed.drop q.taken = a :: rest from h, List.drop_one, List.tail_cons]

/-- A read leaves one item less waiting. -/
theorem take_size (q : Mailbox α) : q.take.size = q.size - 1 := by
  unfold take
  split
  · simp only [size]
    omega
  · simp only [size]
    omega

/-- A queue with room accepts a put. -/
theorem exists_put {q : Mailbox α} {maxsize : Nat} (a : α) (h : q.full maxsize = false) :
    ∃ q', q.put maxsize a = some q' := by
  cases hp : q.put maxsize a with
  | none => rw [put_eq_none.1 hp] at h; cases h
  | some q' => exact ⟨q', rfl⟩

end
end Mailbox

end StreamingTts.Lib
