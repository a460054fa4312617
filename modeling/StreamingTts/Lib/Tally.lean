import Mathlib

/-!
# Tallies over a table of parties

The parties of a system stand in a list, and a step changes one of them. `tally f` is what the parties
hold together when each holds `f` of its state; `tally_set` says how it moves with the party that
changed, and `forall_set` how a fact about every party is kept.
-/

namespace StreamingTts.Lib

section
variable {α : Type _} {f : α → Nat} {l : List α} {i : Nat} {a b : α}

/-- What the parties of `l` hold together. -/
def tally (f : α → Nat) (l : List α) : Nat := (l.map f).sum

@[simp] theorem tally_nil : tally f [] = 0 := rfl

/-- A party that joins brings what it holds. -/
theorem tally_concat (f : α → Nat) (l : List α) (a : α) : tally f (l ++ [a]) = tally f l + f a := by
  simp [tally]

/-- When one party changes, the tally moves by what that party holds before and after. -/
theorem tally_set (f : α → Nat) (b : α) (h : l[i]? = some a) :
    tally f (l.set i b) + f a = tally f l + f b := by
  induction l generalizing i with
  | nil => simp at h
  | cons x xs ih =>
      cases i with
      | zero =>
          obtain rfl : x = a := by simpa using h
          simp only [tally, List.set_cons_zero, List.map_cons, List.sum_cons]
          omega
      | succ i =>
          have hrest := ih (i := i) (by simpa using h)
          simp only [tally, List.set_cons_succ, List.map_cons, List.sum_cons] at hrest ⊢
          omega

/-- A party that holds as much as before leaves the tally alone. -/
theorem tally_set_eq (b : α) (h : l[i]? = some a) (hf : f b = f a) :
    tally f (l.set i b) = tally f l := by
  have := tally_set f b h
  omega

/-- No party holds more than all of them. -/
theorem le_tally (f : α → Nat) (h : l[i]? = some a) : f a ≤ tally f l :=
  List.single_le_sum (fun _ _ => Nat.zero_le _) _ (List.mem_map_of_mem (List.mem_of_getElem? h))

/-- A fact about every party of a table, by its place, is kept by a change to one of them if the
others keep it and the changed one satisfies it. -/
theorem forall_set {P Q : Nat → α → Prop} (hall : ∀ j x, l[j]? = some x → P j x)
    (hself : Q i b) (hother : ∀ j x, j ≠ i → P j x → Q j x) :
    ∀ j x, (l.set i b)[j]? = some x → Q j x := by
  intro j x hj
  rw [List.getElem?_set] at hj
  by_cases hij : i = j
  · subst hij
    simp only [if_true] at hj
    split at hj
    · cases hj
      exact hself
    · cases hj
  · rw [if_neg hij] at hj
    exact hother j x (Ne.symm hij) (hall j x hj)

/-- A fact about every party of a table is one about every party of the longer table if the new party
satisfies it. -/
theorem forall_concat {P Q : Nat → α → Prop} (hall : ∀ j x, l[j]? = some x → P j x)
    (hself : Q l.length a) (hother : ∀ j x, j < l.length → P j x → Q j x) :
    ∀ j x, (l ++ [a])[j]? = some x → Q j x := by
  intro j x hj
  rcases Nat.lt_trichotomy j l.length with hlt | rfl | hgt
  · rw [List.getElem?_append_left hlt] at hj
    exact hother j x hlt (hall j x hj)
  · simp at hj
    exact hj ▸ hself
  · rw [List.getElem?_append_right (Nat.le_of_lt hgt), List.getElem?_eq_none (by simp; omega)] at hj
    cases hj

end

end StreamingTts.Lib
