import Mathlib.Data.List.Basic
import Mathlib.Data.List.TakeWhile

/-!
# Windows of ordered intervals

Intervals in a list are ordered (`Intervals`) if none is empty and neither their left nor their right ends go
back; they may overlap and leave gaps. The ones that meet a window `[start, stop)` are then a section of the
list, from `endsBy start` to `startsBefore stop`, and a window that cuts none (`Uncut`) ends where the next
one begins: the sections of two windows in a row are the section of the whole.
-/

namespace StreamingTts.Lib

section
variable {α : Type _} {xs : List α} {m n k : Nat}

/-- The members at the places from `m` to `n`. -/
def window (m n : Nat) (xs : List α) : List α := (xs.take n).drop m

theorem getElem?_window (m n i : Nat) (xs : List α) :
    (window m n xs)[i]? = if m + i < n then xs[m + i]? else none := by
  unfold window
  rw [List.getElem?_drop, List.getElem?_take]

theorem length_window (m n : Nat) (xs : List α) : (window m n xs).length = min n xs.length - m := by
  unfold window
  rw [List.length_drop, List.length_take]

theorem window_of_le (h : n ≤ m) (xs : List α) : window m n xs = [] := by
  refine List.eq_nil_of_length_eq_zero ?_
  rw [length_window]
  omega

theorem window_sublist (m n : Nat) (xs : List α) : (window m n xs).Sublist xs :=
  (List.drop_sublist m _).trans (List.take_sublist n xs)

theorem window_map {β : Type _} (f : α → β) (m n : Nat) (xs : List α) :
    (window m n xs).map f = window m n (xs.map f) := by
  unfold window
  rw [List.map_drop, List.map_take]

/-- Two sections in a row. -/
theorem window_append (hmn : m ≤ n) (hnk : n ≤ k) (xs : List α) :
    window m n xs ++ window n k xs = window m k xs := by
  refine List.ext_getElem? fun i => ?_
  rw [getElem?_window]
  by_cases hi : i < (window m n xs).length
  · rw [List.getElem?_append_left hi, getElem?_window]
    rw [length_window] at hi
    rw [if_pos (by omega), if_pos (by omega)]
  · rw [List.getElem?_append_right (Nat.le_of_not_lt hi), getElem?_window]
    rw [length_window] at hi ⊢
    by_cases hlen : n ≤ xs.length
    · have hplace : n + (i - (min n xs.length - m)) = m + i := by omega
      rw [hplace]
    · rw [List.getElem?_eq_none (by omega), List.getElem?_eq_none (by omega), ite_self, ite_self]

/-- A filter that keeps the places from `m` to `n`. -/
theorem filter_eq_window {q : α → Bool}
    (h : ∀ i a, xs[i]? = some a → (q a = true ↔ m ≤ i ∧ i < n)) : xs.filter q = window m n xs := by
  induction xs generalizing m n with
  | nil => simp [window]
  | cons x xs ih =>
      have hrest : xs.filter q = window (m - 1) (n - 1) xs := by
        refine ih fun i a ha => ?_
        rw [h (i + 1) a ha]
        omega
      have hhead := h 0 x rfl
      unfold window at hrest ⊢
      cases n with
      | zero =>
          have hnot : ¬ q x = true := fun hq => absurd (hhead.1 hq).2 (Nat.lt_irrefl 0)
          rw [List.filter_cons_of_neg hnot, hrest]
          simp
      | succ n =>
          cases m with
          | zero =>
              rw [List.filter_cons_of_pos (hhead.2 ⟨Nat.le_refl 0, Nat.succ_pos n⟩), hrest]
              rfl
          | succ m =>
              have hnot : ¬ q x = true := fun hq => absurd (hhead.1 hq).1 (Nat.not_succ_le_zero m)
              rw [List.filter_cons_of_neg hnot, hrest]
              rfl

/-- A condition that holds up to some place of the list. -/
theorem lt_length_takeWhile {p : α → Bool} (h : xs.Pairwise fun a b => p b = true → p a = true)
    {i : Nat} {a : α} (ha : xs[i]? = some a) : i < (xs.takeWhile p).length ↔ p a = true := by
  induction xs generalizing i with
  | nil => cases ha
  | cons x xs ih =>
      obtain ⟨hhead, htail⟩ := List.pairwise_cons.1 h
      by_cases hx : p x = true
      · rw [List.takeWhile_cons_of_pos hx, List.length_cons]
        cases i with
        | zero =>
            cases ha
            exact iff_of_true (Nat.succ_pos _) hx
        | succ i =>
            rw [Nat.succ_lt_succ_iff]
            exact ih htail ha
      · rw [List.takeWhile_cons_of_neg hx]
        refine iff_of_false (Nat.not_lt_zero i) fun hpa => hx ?_
        cases i with
        | zero =>
            cases ha
            exact hpa
        | succ i => exact hhead a (List.mem_of_getElem? ha) hpa

end

section
variable {α : Type _} {left right : α → Int} {xs : List α} {a b c x : Int}

/-- Intervals that are not empty and do not go back. -/
structure Intervals (left right : α → Int) (xs : List α) : Prop where
  nonempty : ∀ s ∈ xs, left s < right s
  starts : xs.Pairwise fun s t => left s ≤ left t
  ends : xs.Pairwise fun s t => right s ≤ right t

/-- How many intervals start before `x`. -/
def startsBefore (left : α → Int) (x : Int) (xs : List α) : Nat :=
  (xs.takeWhile fun s => left s < x).length

/-- How many intervals end by `x`. -/
def endsBy (right : α → Int) (x : Int) (xs : List α) : Nat :=
  (xs.takeWhile fun s => right s ≤ x).length

/-- No interval that meets `[a, b)` reaches out of it. -/
def Uncut (left right : α → Int) (xs : List α) (a b : Int) : Prop :=
  ∀ s ∈ xs, left s < b → a < right s → a ≤ left s ∧ right s ≤ b

theorem Intervals.sublist {ys : List α} (h : Intervals left right xs) (hsub : ys.Sublist xs) :
    Intervals left right ys :=
  ⟨fun s hs => h.nonempty s (hsub.subset hs), h.starts.sublist hsub, h.ends.sublist hsub⟩

theorem startsBefore_le (left : α → Int) (x : Int) (xs : List α) :
    startsBefore left x xs ≤ xs.length :=
  (List.takeWhile_sublist _).length_le

theorem Intervals.lt_startsBefore (h : Intervals left right xs) {i : Nat} {s : α}
    (hs : xs[i]? = some s) : i < startsBefore left x xs ↔ left s < x := by
  unfold startsBefore
  rw [lt_length_takeWhile (h.starts.imp fun hle ht => ?_) hs, decide_eq_true_iff]
  rw [decide_eq_true_iff] at ht ⊢
  exact Int.lt_of_le_of_lt hle ht

theorem Intervals.lt_endsBy (h : Intervals left right xs) {i : Nat} {s : α} (hs : xs[i]? = some s) :
    i < endsBy right x xs ↔ right s ≤ x := by
  unfold endsBy
  rw [lt_length_takeWhile (h.ends.imp fun hle ht => ?_) hs, decide_eq_true_iff]
  rw [decide_eq_true_iff] at ht ⊢
  exact Int.le_trans hle ht

/-- The places that start before `x` are a first section of the list. -/
theorem le_of_places {m n : Nat} (hm : m ≤ xs.length)
    (h : ∀ i s, xs[i]? = some s → i < m → i < n) : m ≤ n := by
  cases m with
  | zero => exact Nat.zero_le n
  | succ m => exact h m _ (List.getElem?_eq_getElem hm) (Nat.lt_succ_self m)

theorem endsBy_le (right : α → Int) (x : Int) (xs : List α) : endsBy right x xs ≤ xs.length :=
  (List.takeWhile_sublist _).length_le

/-- What ends by `x` starts before it. -/
theorem Intervals.endsBy_le_startsBefore (h : Intervals left right xs) (x : Int) :
    endsBy right x xs ≤ startsBefore left x xs := by
  refine le_of_places (endsBy_le right x xs) fun i s hs hi => ?_
  rw [h.lt_endsBy hs] at hi
  rw [h.lt_startsBefore hs]
  exact Int.lt_of_lt_of_le (h.nonempty s (List.mem_of_getElem? hs)) hi

theorem Intervals.endsBy_mono (h : Intervals left right xs) (hab : a ≤ b) :
    endsBy right a xs ≤ endsBy right b xs := by
  refine le_of_places (endsBy_le right a xs) fun i s hs hi => ?_
  rw [h.lt_endsBy hs] at hi ⊢
  exact Int.le_trans hi hab

/-- The intervals that meet a window. -/
theorem Intervals.filter_meets (h : Intervals left right xs) (a b : Int) :
    (xs.filter fun s => left s < b && a < right s)
      = window (endsBy right a xs) (startsBefore left b xs) xs := by
  refine filter_eq_window fun i s hs => ?_
  rw [Bool.and_eq_true, decide_eq_true_iff, decide_eq_true_iff, h.lt_startsBefore hs,
    ← Nat.not_lt, h.lt_endsBy hs, Int.not_le, and_comm]

theorem Intervals.mem_window (h : Intervals left right xs) {s : α}
    (hs : s ∈ window (endsBy right a xs) (startsBefore left b xs) xs) :
    s ∈ xs ∧ left s < b ∧ a < right s := by
  rw [← h.filter_meets, List.mem_filter, Bool.and_eq_true, decide_eq_true_iff,
    decide_eq_true_iff] at hs
  exact hs

/-- Where a window that cuts nothing ends, the next one begins. -/
theorem Intervals.meet (h : Intervals left right xs) (hab : a ≤ b) (hcut : Uncut left right xs a b) :
    startsBefore left b xs = endsBy right b xs := by
  refine Nat.le_antisymm ?_ (h.endsBy_le_startsBefore b)
  refine le_of_places (startsBefore_le left b xs) fun i s hs hi => ?_
  rw [h.lt_startsBefore hs] at hi
  rw [h.lt_endsBy hs]
  by_cases hmeets : a < right s
  · exact (hcut s (List.mem_of_getElem? hs) hi hmeets).2
  · exact Int.le_trans (Int.not_lt.1 hmeets) hab

/-- Two windows in a row that cut nothing. -/
theorem Intervals.uncut_trans (h : Intervals left right xs) (hab : a ≤ b) (hbc : b ≤ c)
    (hcut : Uncut left right xs a b) (hcut' : Uncut left right xs b c) :
    Uncut left right xs a c := by
  intro s hs hleft hright
  by_cases hb : left s < b
  · obtain ⟨hstart, hstop⟩ := hcut s hs hb hright
    exact ⟨hstart, Int.le_trans hstop hbc⟩
  · have hnonempty := h.nonempty s hs
    obtain ⟨hstart, hstop⟩ := hcut' s hs hleft (by omega)
    exact ⟨Int.le_trans hab hstart, hstop⟩

end

end StreamingTts.Lib
