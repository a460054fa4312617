import Mathlib.Algebra.Order.Ring.Int
import Mathlib.Data.List.TakeWhile
import StreamingTts.Frontend.TextJournal
import StreamingTts.Lib.Transition

/-!
# The maps of the journal

The boundaries of the spoken text in the raw text are in order and inside it, one for each end of a
character, and the other map is their inverse (`Mapped`). Every operation keeps that but one:
`trim_normalized` on a spoken text that is whitespace and nothing else leaves no boundary at all
(`Erases`). `journal_coordinates` is about the runs without such a trim.
-/

namespace StreamingTts.Frontend

open Lib

/-! ## Boundaries in order -/

section
variable {last : Int} {values : List Int}

@[simp] theorem length_monotonicFrom (last : Int) (values : List Int) :
    (monotonicFrom last values).length = values.length := by
  induction values generalizing last with
  | nil => rfl
  | cons v values ih => rw [monotonicFrom, List.length_cons, ih, List.length_cons]

theorem le_of_mem_monotonicFrom {b : Int} (h : b ∈ monotonicFrom last values) : last ≤ b := by
  induction values generalizing last with
  | nil => cases h
  | cons v values ih =>
      rcases List.mem_cons.1 h with rfl | h
      · exact le_max_left _ _
      · exact (le_max_left _ _).trans (ih h)

theorem sorted_monotonicFrom (last : Int) (values : List Int) :
    (monotonicFrom last values).Pairwise (· ≤ ·) := by
  induction values generalizing last with
  | nil => exact .nil
  | cons v values ih => exact .cons (fun b hb => le_of_mem_monotonicFrom hb) (ih _)

/-- A bound of the values is one of the values in order. -/
theorem monotonicFrom_le {bound : Int} (hlast : last ≤ bound) (h : ∀ v ∈ values, v ≤ bound) :
    ∀ b ∈ monotonicFrom last values, b ≤ bound := by
  induction values generalizing last with
  | nil => exact fun b hb => absurd hb List.not_mem_nil
  | cons v values ih =>
      obtain ⟨hv, hvalues⟩ := List.forall_mem_cons.1 h
      have hmax : max last v ≤ bound := max_le hlast hv
      intro b hb
      rcases List.mem_cons.1 hb with rfl | hb
      · exact hmax
      · exact ih hmax hvalues b hb

/-- Values that are in order stay, and what is behind them begins where they end. -/
theorem monotonicFrom_append {older newer : List Int} (hsorted : older.Pairwise (· ≤ ·))
    (hlast : ∀ v ∈ older, last ≤ v) :
    ∃ mid, monotonicFrom last (older ++ newer) = older ++ monotonicFrom mid newer := by
  induction older generalizing last with
  | nil => exact ⟨last, rfl⟩
  | cons v older ih =>
      obtain ⟨hv, hsorted⟩ := List.pairwise_cons.1 hsorted
      have hmax : max last v = v := max_eq_right (hlast v List.mem_cons_self)
      obtain ⟨mid, hmid⟩ := ih hsorted hv
      refine ⟨mid, ?_⟩
      rw [List.cons_append, monotonicFrom, hmax, hmid, List.cons_append]

end

/-! ## The inverse -/

section
variable {values : List Int}

/-- The values before the place of `x` are smaller, and those from it on are not. -/
theorem bisectLeft_spec (hsorted : values.Pairwise (· ≤ ·)) (x : Int) :
    bisectLeft values x ≤ values.length ∧
      (∀ i v, values[i]? = some v → (i < bisectLeft values x ↔ v < x)) := by
  unfold bisectLeft
  refine ⟨(List.takeWhile_sublist _).length_le, ?_⟩
  induction values with
  | nil => intro i v h; simp at h
  | cons a values ih =>
      obtain ⟨ha, hsorted⟩ := List.pairwise_cons.1 hsorted
      intro i v h
      by_cases hlt : a < x
      · rw [List.takeWhile_cons_of_pos (by simpa using hlt), List.length_cons]
        cases i with
        | zero =>
            cases h
            exact ⟨fun _ => hlt, fun _ => Nat.succ_pos _⟩
        | succ i =>
            rw [Nat.succ_lt_succ_iff]
            exact ih hsorted i v h
      · rw [List.takeWhile_cons_of_neg (by simpa using hlt), List.length_nil]
        refine ⟨fun hi => absurd hi (Nat.not_lt_zero i), fun hv => absurd hv ?_⟩
        cases i with
        | zero =>
            cases h
            exact hlt
        | succ i =>
            have := ha v (List.mem_of_getElem? h)
            omega

theorem inverseAt_eq (values : List Int) (k : Nat) :
    inverseAt values k = if values[bisectLeft values k]? = some (k : Int) then bisectLeft values k
      else bisectLeft values k - 1 := rfl

theorem inverseBoundaries_get {raw : Text} {k : Nat} (hk : k ≤ raw.length) :
    (inverseBoundaries raw values)[k]? = some (inverseAt values k) := by
  rw [inverseBoundaries, List.getElem?_map, List.getElem?_range (by omega)]
  rfl

/-- A boundary is found again. -/
theorem inverseAt_boundary (hsorted : values.Pairwise (· ≤ ·)) {k : Nat} (hk : (k : Int) ∈ values) :
    values[inverseAt values k]? = some (k : Int) := by
  obtain ⟨hle, hspec⟩ := bisectLeft_spec hsorted (k : Int)
  obtain ⟨i, hi⟩ := List.mem_iff_getElem?.1 hk
  have hplace : values[bisectLeft values k]? = some (k : Int) := by
    have hnot : ¬ i < bisectLeft values k := by
      rw [hspec i _ hi]
      exact lt_irrefl _
    have hlt : bisectLeft values k < values.length := by
      have := (List.getElem?_eq_some_iff.1 hi).1
      omega
    obtain ⟨v, hv⟩ : ∃ v, values[bisectLeft values k]? = some v := ⟨_, List.getElem?_eq_getElem hlt⟩
    have hge : ¬ v < k := by
      rw [← hspec _ v hv]
      exact Nat.lt_irrefl _
    have hmono : v ≤ k := by
      rcases Nat.lt_or_eq_of_le (Nat.not_lt.1 hnot) with hlt' | heq
      · obtain ⟨hv', hget⟩ := List.getElem?_eq_some_iff.1 hv
        obtain ⟨hi', hget'⟩ := List.getElem?_eq_some_iff.1 hi
        have := List.pairwise_iff_getElem.1 hsorted _ _ hv' hi' hlt'
        rwa [hget, hget'] at this
      · rw [heq, hi] at hv
        cases hv
        exact le_refl _
    rw [hv]
    exact congrArg some (by omega)
  rw [inverseAt_eq, if_pos hplace]
  exact hplace

/-- A raw boundary inside the spoken text is not before the boundary it is sent to. -/
theorem inverseAt_below (hsorted : values.Pairwise (· ≤ ·)) {k : Nat} {first : Int}
    (hfirst : values.head? = some first) (hk : first ≤ k) :
    ∃ b, values[inverseAt values k]? = some b ∧ b ≤ k := by
  rw [inverseAt_eq]
  split
  · next hplace => exact ⟨k, hplace, le_refl _⟩
  · next hplace =>
    obtain ⟨hle, hspec⟩ := bisectLeft_spec hsorted (k : Int)
    have hzero : values[0]? = some first := by rwa [← List.head?_eq_getElem?]
    have hpos : 0 < bisectLeft values k := by
      rcases Nat.eq_zero_or_pos (bisectLeft values k) with h0 | hpos
      · have hnot : ¬ first < k := by
          rw [← hspec 0 first hzero]
          omega
        refine absurd ?_ hplace
        rw [h0, hzero]
        exact congrArg some (by omega)
      · exact hpos
    obtain ⟨v, hv⟩ : ∃ v, values[bisectLeft values k - 1]? = some v :=
      ⟨_, List.getElem?_eq_getElem (by omega)⟩
    have hlt : v < k := (hspec _ v hv).1 (by omega)
    exact ⟨v, hv, le_of_lt hlt⟩

theorem inverseAt_le (hsorted : values.Pairwise (· ≤ ·)) {n : Nat} (hlen : values.length = n + 1)
    (k : Nat) : inverseAt values k ≤ n := by
  have hle := (bisectLeft_spec hsorted (k : Int)).1
  rw [inverseAt_eq]
  split
  · next hplace =>
    have := (List.getElem?_eq_some_iff.1 hplace).1
    omega
  · omega

/-- The inverse is in order. -/
theorem inverseAt_mono (hsorted : values.Pairwise (· ≤ ·)) {k m : Nat} (hkm : k ≤ m) :
    inverseAt values k ≤ inverseAt values m := by
  rcases Nat.lt_or_eq_of_le hkm with hlt | rfl
  · obtain ⟨hle, hspec⟩ := bisectLeft_spec hsorted (k : Int)
    obtain ⟨hle', hspec'⟩ := bisectLeft_spec hsorted (m : Int)
    have hplaces : bisectLeft values k ≤ bisectLeft values m := by
      rcases Nat.lt_or_ge (bisectLeft values m) (bisectLeft values k) with hback | hge
      · obtain ⟨v, hv⟩ : ∃ v, values[bisectLeft values m]? = some v :=
          ⟨_, List.getElem?_eq_getElem (by omega)⟩
        have h1 := (hspec _ v hv).1 hback
        have h2 : ¬ v < m := by
          rw [← hspec' _ v hv]
          exact Nat.lt_irrefl _
        omega
      · exact hge
    rw [inverseAt_eq, inverseAt_eq]
    split
    · next hplace =>
      -- the boundary itself is before the place of `m`
      have hnext : bisectLeft values k < bisectLeft values m := by
        rw [hspec' _ _ hplace]
        exact_mod_cast hlt
      split <;> omega
    · split <;> omega
  · exact Nat.le_refl _

end

/-! ## The walk -/

section
variable {raw : Text} {w : ProvenanceWalk} {n : Nat}

/-- What the walk keeps after `n` characters: a span for each of them, and nothing outside the raw
text. -/
structure ProvenanceWalk.Inside (raw : Text) (n : Nat) (w : ProvenanceWalk) : Prop where
  length : w.charSpans.length = n
  spans : ∀ s ∈ w.charSpans, s.1 ≤ raw.length ∧ s.2 ≤ raw.length
  cursor : w.rawCursor ≤ raw.length
  pending : ∀ start ∈ w.pendingDeletedStart, start ≤ raw.length

namespace ProvenanceWalk.Inside

theorem start_le (h : Inside raw n w) : w.start ≤ raw.length := by
  unfold ProvenanceWalk.start
  cases hp : w.pendingDeletedStart with
  | none => exact h.cursor
  | some start => exact h.pending start hp

theorem add (h : Inside raw n w) {start stop cursor : Nat} (hstart : start ≤ raw.length)
    (hstop : stop ≤ raw.length) (hcursor : cursor ≤ raw.length) :
    Inside raw (n + 1) ⟨w.charSpans ++ [(start, stop)], cursor, none⟩ := by
  refine ⟨by simp [h.length], fun s hs => ?_, hcursor, fun _ hp => (nomatch hp)⟩
  rcases List.mem_append.1 hs with hs | hs
  · exact h.spans s hs
  · cases List.mem_singleton.1 hs
    exact ⟨hstart, hstop⟩

theorem span (h : Inside raw n w) {stop : Nat} (hstop : stop ≤ raw.length) :
    Inside raw (n + 1) (w.span stop) := h.add h.start_le hstop hstop

theorem delete (h : Inside raw n w) {stop : Nat} (hstop : stop ≤ raw.length) :
    Inside raw n (w.delete stop) := by
  refine ⟨h.length, h.spans, hstop, fun start hs => ?_⟩
  cases hs
  exact h.start_le

theorem consume (h : Inside raw n w) (ch : Char) : Inside raw (n + 1) (w.consume raw ch) := by
  unfold ProvenanceWalk.consume
  split
  · next hget => exact h.span (List.getElem?_eq_some_iff.1 hget).1
  · split
    · next m hfind =>
      have hlt := (List.findIdx?_eq_some_iff_getElem.1 hfind).1
      rw [List.length_drop] at hlt
      exact h.span (by omega)
    · split
      · next hany =>
        cases hget : raw[w.rawCursor]? with
        | none =>
            rw [hget] at hany
            cases hany
        | some c => exact h.span (List.getElem?_eq_some_iff.1 hget).1
      · exact h.add h.start_le h.start_le h.cursor

theorem removedSequenceEnd_le (h : Inside raw n w) :
    removedSequenceEnd raw w.rawCursor ≤ raw.length := by
  have := h.cursor
  unfold removedSequenceEnd
  rw [List.length_drop]
  omega

theorem step (h : Inside raw n w) (ch : Char) : Inside raw (n + 1) (w.step raw ch) := by
  have hend := h.removedSequenceEnd_le
  unfold ProvenanceWalk.step
  simp only
  split
  · split
    · exact h.span hend
    · exact (h.delete hend).consume ch
  · exact h.consume ch

theorem foldl (h : Inside raw n w) (normalized : Text) :
    Inside raw (n + normalized.length) (normalized.foldl (ProvenanceWalk.step raw) w) := by
  induction normalized generalizing n w with
  | nil => exact h
  | cons ch normalized ih =>
      rw [List.length_cons, Nat.add_comm normalized.length, ← Nat.add_assoc]
      exact ih (h.step ch)

theorem finish (h : Inside raw n w) : Inside raw n (w.finish raw) := by
  unfold ProvenanceWalk.finish
  split
  · exact h.delete (Nat.le_refl _)
  · exact h

end ProvenanceWalk.Inside

theorem foldSpan_le (ch : Char) {s : Nat × Nat} (h : s.1 ≤ raw.length ∧ s.2 ≤ raw.length) :
    (ProvenanceWalk.foldSpan raw ch s).1 ≤ raw.length ∧
      (ProvenanceWalk.foldSpan raw ch s).2 ≤ raw.length := by
  unfold ProvenanceWalk.foldSpan
  split
  · have := (List.takeWhile_sublist (l := raw.drop s.2) isSpaceChar).length_le
    rw [List.length_drop] at this
    exact ⟨h.1, by simp only; omega⟩
  · exact h

/-- The edges of spans inside the raw text are inside it. -/
theorem edgesFrom_le {spans : List (Nat × Nat)} {last : Int} (hlast : last ≤ raw.length)
    (h : ∀ s ∈ spans, s.1 ≤ raw.length ∧ s.2 ≤ raw.length) :
    (ProvenanceWalk.edgesFrom last spans).length = spans.length ∧
      ∀ b ∈ ProvenanceWalk.edgesFrom last spans, b ≤ raw.length := by
  induction spans generalizing last with
  | nil => exact ⟨rfl, fun b hb => absurd hb List.not_mem_nil⟩
  | cons s spans ih =>
      obtain ⟨hs, hspans⟩ := List.forall_mem_cons.1 h
      have hstop : max (max last (s.1 : Int)) s.2 ≤ raw.length := by omega
      obtain ⟨hlen, hle⟩ := ih hstop hspans
      refine ⟨by rw [ProvenanceWalk.edgesFrom, List.length_cons, hlen, List.length_cons],
        fun b hb => ?_⟩
      rcases List.mem_cons.1 hb with rfl | hb
      · exact hstop
      · exact hle b hb

theorem length_setLast {boundaries : List Int} (h : boundaries ≠ []) (value : Int) :
    (setLast boundaries value).length = boundaries.length := by
  have := List.length_pos_iff.2 h
  simp only [setLast, List.length_append, List.length_dropLast, List.length_singleton]
  omega

theorem setLast_le {boundaries : List Int} {value bound : Int} (h : ∀ b ∈ boundaries, b ≤ bound)
    (hvalue : value ≤ bound) : ∀ b ∈ setLast boundaries value, b ≤ bound := by
  intro b hb
  rcases List.mem_append.1 hb with hb | hb
  · exact h b (List.dropLast_subset _ hb)
  · cases List.mem_singleton.1 hb
    exact hvalue

/-- The map of the walk is in order and inside the raw text. -/
theorem provenanceMap_spec (raw normalized : Text) (includeTrailingDeleted : Bool) :
    (provenanceMap raw normalized includeTrailingDeleted).length = normalized.length + 1 ∧
      (provenanceMap raw normalized includeTrailingDeleted).Pairwise (· ≤ ·) ∧
      ∀ b ∈ provenanceMap raw normalized includeTrailingDeleted, 0 ≤ b ∧ b ≤ raw.length := by
  unfold provenanceMap
  have hstart : ProvenanceWalk.Inside raw 0 {} :=
    ⟨rfl, fun _ hs => absurd hs List.not_mem_nil, Nat.zero_le _, fun _ hp => (nomatch hp)⟩
  have hwalk := (hstart.foldl normalized).finish
  rw [Nat.zero_add] at hwalk
  simp only
  generalize ((normalized.foldl (ProvenanceWalk.step raw) {}).finish raw) = walk at hwalk
  have hspans : ∀ s ∈ List.zipWith (ProvenanceWalk.foldSpan raw) normalized walk.charSpans,
      s.1 ≤ raw.length ∧ s.2 ≤ raw.length := by
    intro s hs
    rw [← List.map_uncurry_zip_eq_zipWith] at hs
    obtain ⟨⟨ch, s'⟩, hmem, rfl⟩ := List.mem_map.1 hs
    exact foldSpan_le ch (hwalk.spans s' (List.of_mem_zip hmem).2)
  obtain ⟨hlen, hle⟩ := edgesFrom_le (Int.natCast_nonneg raw.length) hspans
  rw [List.length_zipWith, hwalk.length, Nat.min_self] at hlen
  generalize ProvenanceWalk.edgesFrom 0 (List.zipWith (ProvenanceWalk.foldSpan raw) normalized
    walk.charSpans) = edges at hlen hle
  have hedges : ∀ b ∈ 0 :: edges, b ≤ raw.length :=
    List.forall_mem_cons.2 ⟨Int.natCast_nonneg _, hle⟩
  -- whatever is done with the last edge
  have hclosed : ∀ closed : List Int, closed.length = normalized.length + 1 →
      (∀ b ∈ closed, b ≤ raw.length) →
      (monotonic closed).length = normalized.length + 1 ∧ (monotonic closed).Pairwise (· ≤ ·) ∧
        ∀ b ∈ monotonic closed, 0 ≤ b ∧ b ≤ raw.length := by
    intro closed hlength hbound
    refine ⟨by rw [monotonic, length_monotonicFrom, hlength], sorted_monotonicFrom _ _, ?_⟩
    exact fun b hb => ⟨le_of_mem_monotonicFrom hb,
      monotonicFrom_le (Int.natCast_nonneg _) hbound b hb⟩
  have hlength : (0 :: edges).length = normalized.length + 1 := by rw [List.length_cons, hlen]
  split
  · split
    · exact hclosed _ ((length_setLast (by simp) _).trans hlength) (setLast_le hedges (le_refl _))
    · split
      · next start hp =>
        refine hclosed _ ((length_setLast (by simp) _).trans hlength) (setLast_le hedges ?_)
        have hprev : ((0 :: edges).dropLast.getLast?.getD 0) ≤ raw.length := by
          cases hget : (0 :: edges).dropLast.getLast? with
          | none => exact Int.natCast_nonneg _
          | some b => exact hedges b (List.dropLast_subset _ (List.mem_of_getLast? hget))
        have := hwalk.pending start hp
        omega
      · exact hclosed _ hlength hedges
  · next hnil =>
    rw [not_not] at hnil
    split
    · refine hclosed _ (by rw [hnil]; rfl) fun b hb => ?_
      cases List.mem_singleton.1 hb
      exact le_refl _
    · exact hclosed _ hlength hedges

end

/-! ## The operations -/

namespace CanonicalTextJournal

/-- The map has a boundary for each end of a spoken character, in order and inside the raw text, and
the other map is its inverse. -/
structure Mapped (j : CanonicalTextJournal) : Prop where
  length : j.normalizedToRaw.length = j.normalizedText.length + 1
  sorted : j.normalizedToRaw.Pairwise (· ≤ ·)
  inside : ∀ b ∈ j.normalizedToRaw, 0 ≤ b ∧ b ≤ j.rawText.length
  inverse : j.rawToNormalized = inverseBoundaries j.rawText j.normalizedToRaw

variable {j j' : CanonicalTextJournal}

theorem mapped_withMap {rawText normalizedText : Text} {boundaries : List Int}
    (hlen : boundaries.length = normalizedText.length + 1) (hsorted : boundaries.Pairwise (· ≤ ·))
    (hinside : ∀ b ∈ boundaries, 0 ≤ b ∧ b ≤ rawText.length) :
    (j.withMap rawText normalizedText boundaries).Mapped := ⟨hlen, hsorted, hinside, rfl⟩

/-- Values moved into a text and put in order. -/
theorem mapped_clamped {rawText normalizedText : Text} {values : List Int}
    (hlen : values.length = normalizedText.length + 1) :
    (j.withMap rawText normalizedText (monotonic (values.map (clamp rawText)))).Mapped := by
  refine mapped_withMap ?_ (sorted_monotonicFrom _ _) fun b hb => ⟨le_of_mem_monotonicFrom hb, ?_⟩
  · rw [monotonic, length_monotonicFrom, List.length_map, hlen]
  · refine monotonicFrom_le (Int.natCast_nonneg _) ?_ b hb
    intro v hv
    obtain ⟨value, -, rfl⟩ := List.mem_map.1 hv
    unfold clamp
    omega

theorem mapped_new (normalize : Text → Text) (strip : Bool) : (new normalize strip).Mapped :=
  ⟨rfl, List.pairwise_singleton _ _,
    fun b hb => by cases List.mem_singleton.1 hb; exact ⟨le_refl _, Int.natCast_nonneg _⟩, rfl⟩

theorem leading_le (j : CanonicalTextJournal) (text : Text) : j.leading text ≤ text.length := by
  unfold leading
  split
  · exact Nat.sub_le _ _
  · exact Nat.zero_le _

theorem mapped_project (j : CanonicalTextJournal) (committedRaw : Text) (final : Bool) :
    (j.withMap j.rawText (j.project committedRaw final).1
      (j.project committedRaw final).2).Mapped := by
  unfold project
  simp only
  generalize j.normalize (committedRaw.drop (j.leading j.rawText)) = untrimmed
  obtain ⟨hlen, hsorted, hinside⟩ :=
    provenanceMap_spec (j.rawText.drop (j.leading j.rawText)) untrimmed final
  have hraw := j.leading_le j.rawText
  have huntrimmed := j.leading_le untrimmed
  refine mapped_withMap ?_ ?_ ?_
  · rw [List.length_map, List.length_drop, hlen, List.length_drop]
    omega
  · exact List.pairwise_map.2 ((hsorted.drop).imp fun hle => by omega)
  · intro b hb
    obtain ⟨b', hb', rfl⟩ := List.mem_map.1 hb
    have := hinside b' (List.drop_subset _ _ hb')
    rw [List.length_drop] at this
    omega

theorem append_mapped {rawDelta : Text} (hok : j.append rawDelta = .ok j') : j'.Mapped := by
  unfold append at hok
  simp only at hok
  split at hok
  · cases hok
  · cases hok
    exact mapped_project { j with rawText := j.rawText ++ rawDelta } _ _

theorem finish_mapped (j : CanonicalTextJournal) : j.finish.Mapped :=
  mapped_project { j with inputFinal := true } _ _

theorem boundaries_eq (h : j.Mapped) : j.boundaries = j.normalizedToRaw := by
  unfold boundaries
  rw [if_neg]
  intro hnil
  have := h.length
  rw [hnil] at this
  cases this

theorem updateRawSource_mapped (h : j.Mapped) {rawText : Text}
    (hok : j.updateRawSource rawText = .ok j') : j'.Mapped := by
  unfold updateRawSource at hok
  split at hok
  · cases hok
  · cases hok
    rw [boundaries_eq h]
    exact mapped_clamped h.length

/-- Neighbours in order are all there is to check. -/
theorem pairwise_of_zip {values : List Int}
    (h : ¬ ((values.zip values.tail).any fun p => decide (p.2 < p.1)) = true) :
    values.Pairwise (· ≤ ·) := by
  induction values with
  | nil => exact .nil
  | cons a values ih =>
      cases values with
      | nil => exact List.pairwise_singleton _ _
      | cons b values =>
          rw [List.tail_cons, List.zip_cons_cons, List.any_cons, Bool.or_eq_true, not_or] at h
          have hrest := ih h.2
          have hab : a ≤ b := not_lt.1 (by simpa using h.1)
          refine .cons (fun x hx => ?_) hrest
          rcases List.mem_cons.1 hx with rfl | hx
          · exact hab
          · exact hab.trans ((List.pairwise_cons.1 hrest).1 x hx)

/-- In a sorted list the ends bound everything. -/
theorem ends_of_sorted {values : List Int} (hsorted : values.Pairwise (· ≤ ·)) {lo hi : Int}
    (hhead : ∀ b ∈ values.head?, lo ≤ b) (hlast : ∀ b ∈ values.getLast?, b ≤ hi) :
    ∀ b ∈ values, lo ≤ b ∧ b ≤ hi := by
  intro b hb
  refine ⟨?_, ?_⟩
  · cases values with
    | nil => cases hb
    | cons a values =>
        have ha := hhead a rfl
        rcases List.mem_cons.1 hb with rfl | hb
        · exact ha
        · exact ha.trans ((List.pairwise_cons.1 hsorted).1 b hb)
  · rcases List.eq_nil_or_concat values with rfl | ⟨front, a, rfl⟩
    · cases hb
    · rw [List.concat_eq_append] at hsorted hlast hb
      have ha := hlast a List.getLast?_concat
      rcases List.mem_append.1 hb with hb | hb
      · exact ((List.pairwise_append.1 hsorted).2.2 b hb a List.mem_cons_self).trans ha
      · cases List.mem_singleton.1 hb
        exact ha

theorem installProjection_mapped {rawText normalizedText : Text} {map : Option (List Int)}
    (hok : j.installProjection rawText normalizedText map = .ok j') : j'.Mapped := by
  unfold installProjection at hok
  obtain ⟨boundaries, hboundaries, hok⟩ := bind_eq_ok.1 hok
  have hlen : boundaries.length = normalizedText.length + 1 := by
    unfold installedBoundaries at hboundaries
    split at hboundaries
    · split at hboundaries
      · cases hboundaries
      · cases hboundaries
        rw [List.length_map, List.length_range]
    · split at hboundaries
      · cases hboundaries
      · next hlen =>
        cases hboundaries
        exact not_not.1 hlen
  split at hok
  · cases hok
  split at hok
  · cases hok
  next hbounds hmonotonic =>
  cases hok
  have hne : boundaries ≠ [] := List.ne_nil_of_length_eq_add_one hlen
  rw [if_neg hne]
  have hsorted := pairwise_of_zip hmonotonic
  refine mapped_withMap hlen hsorted (ends_of_sorted hsorted ?_ ?_)
  · intro b hb
    rw [Bool.or_eq_true, not_or, Option.mem_def.1 hb] at hbounds
    exact not_lt.1 (by simpa using hbounds.1)
  · intro b hb
    rw [Bool.or_eq_true, not_or, Option.mem_def.1 hb] at hbounds
    exact not_lt.1 (by simpa using hbounds.2)

/-- The map, with its last boundary apart. -/
theorem Mapped.last (h : j.Mapped) : ∃ front last, j.normalizedToRaw = front ++ [last] ∧
    front.length = j.normalizedText.length := by
  rcases List.eq_nil_or_concat j.normalizedToRaw with hnil | ⟨front, last, heq⟩
  · have := h.length
    rw [hnil] at this
    cases this
  · rw [List.concat_eq_append] at heq
    refine ⟨front, last, heq, ?_⟩
    have := h.length
    rw [heq, List.length_append, List.length_singleton] at this
    omega

/-- Closing the map at its end. -/
theorem finalizeProjection_mapped (h : j.Mapped) : j.finalizeProjection.Mapped := by
  obtain ⟨front, last, heq, hlen⟩ := h.last
  have hsorted := h.sorted
  have hinside := h.inside
  unfold finalizeProjection
  rw [heq] at hsorted hinside ⊢
  rw [if_neg (by simp), setLast, List.dropLast_concat, List.getLast?_concat, Option.getD_some]
  have hlast := hinside last (by simp)
  rw [max_eq_right hlast.2]
  refine mapped_withMap (by simp [hlen]) ?_ ?_
  · refine List.pairwise_append.2
      ⟨(List.pairwise_append.1 hsorted).1, List.pairwise_singleton _ _, ?_⟩
    intro b hb b' hb'
    cases List.mem_singleton.1 hb'
    exact (hinside b (List.mem_append_left _ hb)).2
  · intro b hb
    rcases List.mem_append.1 hb with hb | hb
    · exact hinside b (List.mem_append_left _ hb)
    · cases List.mem_singleton.1 hb
      exact ⟨Int.natCast_nonneg _, le_refl _⟩

/-! ### Commits -/

theorem length_placeSpans {n : Nat} {join stop : Int} {items : List (Int × Int × Int × Int)}
    {placed result : List (Option Int)} (h : placeSpans n join stop placed items = some result) :
    result.length = placed.length := by
  induction items generalizing placed with
  | nil =>
      cases h
      rfl
  | cons item items ih =>
      obtain ⟨rawStart, rawEnd, outputStart, outputEnd⟩ := item
      unfold placeSpans at h
      split at h
      · cases h
      · rw [ih h, List.length_set, List.length_set]

/-- Filling keeps the length, and no boundary is before the first one. -/
theorem fillFrom_spec (current : Int) (placed : List (Option Int)) :
    (fillFrom current placed).length = placed.length ∧
      ∀ b ∈ fillFrom current placed, current ≤ b := by
  induction placed generalizing current with
  | nil => exact ⟨rfl, fun b hb => absurd hb List.not_mem_nil⟩
  | cons value placed ih =>
      cases value with
      | none =>
          obtain ⟨hlen, hle⟩ := ih current
          exact ⟨congrArg (· + 1) hlen, List.forall_mem_cons.2 ⟨le_refl _, hle⟩⟩
      | some value =>
          obtain ⟨hlen, hle⟩ := ih (max current value)
          exact ⟨congrArg (· + 1) hlen, List.forall_mem_cons.2
            ⟨le_max_left _ _, fun b hb => (le_max_left _ _).trans (hle b hb)⟩⟩

/-- What a commit adds to the map begins where it joins on, or behind that. -/
theorem commitBoundaries_spec (source spokenText : Text) {delta : Text} (start stop join : Int)
    (outputMapping : List (Int × Int × Int × Int)) (hdelta : delta ≠ []) :
    ∃ first rest, commitBoundaries source spokenText delta start stop join outputMapping
        = first :: rest ∧ join ≤ first ∧ rest.length = delta.length := by
  have hpos := List.length_pos_iff.2 hdelta
  unfold commitBoundaries
  split
  · next detailed hdetailed =>
    unfold boundariesFromOutputMapping at hdetailed
    split at hdetailed
    · cases hdetailed
    · obtain ⟨placed, hplaced, hresult⟩ := Option.bind_eq_some_iff.1 hdetailed
      cases hresult
      have hlength := length_placeSpans hplaced
      obtain ⟨hfilled, hle⟩ := fillFrom_spec join placed
      rw [hlength, List.length_cons, List.length_replicate] at hfilled
      generalize fillFrom join placed = filled at hfilled hle
      obtain ⟨a, b, rest, rfl⟩ : ∃ a b rest, filled = a :: b :: rest := by
        match filled with
        | [] => cases hfilled
        | [a] =>
            rw [List.length_singleton] at hfilled
            omega
        | a :: b :: rest => exact ⟨a, b, rest, rfl⟩
      refine ⟨a, setLast (b :: rest) _, rfl, hle a List.mem_cons_self, ?_⟩
      rw [length_setLast (by simp)]
      exact Nat.succ.inj hfilled
  · split
    · next hliteral =>
      refine ⟨join, _, rfl, le_refl _, ?_⟩
      rw [List.length_map, List.length_range, hliteral.2]
    · cases delta with
      | nil => exact absurd rfl hdelta
      | cons c delta =>
          refine ⟨join, List.replicate delta.length join ++ [stop], rfl, le_refl _, ?_⟩
          simp

/-- The spoken text of a commit takes the place of the last boundary; the others stay if the source
grows. -/
theorem appendSpoken_spec (h : j.Mapped) {rawText spokenText : Text} {rawStart rawEnd : Int}
    {mapping : List (Int × Int)} {outputMapping : List (Int × Int × Int × Int)}
    {res : (Text × Nat) × CanonicalTextJournal}
    (hok : j.appendSpoken rawText rawStart rawEnd spokenText mapping outputMapping = .ok res) :
    res.2.Mapped ∧ (j.rawText.length ≤ rawText.length →
      ∃ front last last' more, j.normalizedToRaw = front ++ [last] ∧
        res.2.normalizedToRaw = front ++ last' :: more ∧ last ≤ last') := by
  unfold appendSpoken at hok
  split at hok
  · cases hok
  split at hok
  · cases hok
  rw [boundaries_eq h] at hok
  obtain ⟨front, last, heq, hlen⟩ := h.last
  rw [heq, List.dropLast_concat, List.getLast?_concat, Option.getD_some] at hok
  simp only at hok
  generalize hdelta : j.spokenDelta spokenText = delta at hok
  generalize hspan : commitSpan rawText rawStart rawEnd mapping = span at hok
  obtain ⟨start, stop⟩ := span
  -- what stands in the place of the last boundary
  obtain ⟨first, more, hvalues, hfirst, hmore⟩ : ∃ first more,
      (if delta ≠ [] then
        front ++ commitBoundaries rawText spokenText delta start stop (max last start) outputMapping
      else setLast (front ++ [last]) (max last stop)) = front ++ first :: more ∧ last ≤ first ∧
        more.length = delta.length := by
    split
    · next hne =>
      obtain ⟨first, rest, hcommit, hjoin, hrest⟩ :=
        commitBoundaries_spec rawText spokenText start stop (max last start) outputMapping hne
      exact ⟨first, rest, by rw [hcommit], (le_max_left _ _).trans hjoin, hrest⟩
    · next hnil =>
      rw [not_not] at hnil
      refine ⟨max last stop, [], ?_, le_max_left _ _, by rw [hnil]; rfl⟩
      rw [setLast, List.dropLast_concat]
  rw [hvalues] at hok
  cases hok
  refine ⟨mapped_clamped ?_, fun hgrows => ?_⟩
  · rw [List.length_append, List.length_cons, List.length_append, hlen, hmore]
    omega
  · have hinside := h.inside
    rw [heq] at hinside
    have hlast := hinside last (by simp)
    have hfront : front.map (clamp rawText) = front := by
      refine (List.map_congr_left fun b hb => ?_).trans (List.map_id front)
      have := hinside b (List.mem_append_left _ hb)
      unfold clamp
      simp only [id]
      omega
    have hsorted := h.sorted
    rw [heq] at hsorted
    obtain ⟨mid, hmid⟩ : ∃ mid, monotonicFrom 0 (front ++ (first :: more).map (clamp rawText))
        = front ++ monotonicFrom mid ((first :: more).map (clamp rawText)) :=
      monotonicFrom_append (List.pairwise_append.1 hsorted).1 fun b hb =>
        (hinside b (List.mem_append_left _ hb)).1
    refine ⟨front, last, max mid (clamp rawText first),
      monotonicFrom (max mid (clamp rawText first)) (more.map (clamp rawText)), heq, ?_, ?_⟩
    · show monotonic ((front ++ first :: more).map (clamp rawText)) = _
      rw [List.map_append, hfront]
      exact hmid
    · refine le_trans ?_ (le_max_right _ _)
      unfold clamp
      omega

/-! ### Trimming -/

/-- The operation trims a spoken text that is whitespace and nothing else. -/
def Erases (j : CanonicalTextJournal) (op : JournalOp) : Prop :=
  op = .trimNormalized ∧ j.normalizedText ≠ [] ∧ ∀ c ∈ j.normalizedText, isSpaceChar c = true

/-- The two ends of a trim. -/
theorem trim_ends (text : Text) (h : ¬ ∀ c ∈ text, isSpaceChar c = true) :
    text.length - (lstrip text).length < (rstrip text).length ∧
      (rstrip text).length ≤ text.length := by
  obtain ⟨c, hc⟩ := not_forall.1 h
  obtain ⟨hmem, hspace⟩ := Classical.not_imp.1 hc
  rw [Bool.not_eq_true] at hspace
  obtain ⟨i, hi, hget⟩ := List.mem_iff_getElem.1 hmem
  have hfront : (text.takeWhile isSpaceChar).length ≤ i :=
    length_takeWhile_le (by rw [List.getElem?_eq_getElem hi, hget]) hspace
  have hback : (text.reverse.takeWhile isSpaceChar).length ≤ text.length - 1 - i := by
    refine length_takeWhile_le (c := c) ?_ hspace
    rw [List.getElem?_reverse (by omega), ← hget, ← List.getElem?_eq_getElem hi]
    exact congrArg (text[·]?) (by omega)
  have hl := length_dropWhile isSpaceChar text
  have hr := length_dropWhile isSpaceChar text.reverse
  rw [List.length_reverse] at hr
  unfold lstrip rstrip
  rw [List.length_reverse]
  omega

/-- The sources of a slice of the map. -/
theorem mem_slice {values : List Int} {start stop : Nat} {b : Int}
    (h : b ∈ (values.take stop).drop start) : b ∈ values :=
  List.take_subset _ _ (List.drop_subset _ _ h)

theorem trimNormalized_mapped (h : j.Mapped) (hop : ¬ j.Erases .trimNormalized)
    (hok : j.trimNormalized = .ok j') : j'.Mapped := by
  unfold trimNormalized at hok
  simp only at hok
  split at hok
  · cases hok
    exact h
  next hmoves =>
  split at hok
  · next rawStart rawEnd hstart hstop =>
    cases hok
    have hends : j.normalizedText.length - (lstrip j.normalizedText).length
          < (rstrip j.normalizedText).length ∧
        (rstrip j.normalizedText).length ≤ j.normalizedText.length := by
      refine trim_ends _ fun hall => ?_
      by_cases hnil : j.normalizedText = []
      · rw [hnil] at hmoves
        exact hmoves ⟨rfl, rfl⟩
      · exact hop ⟨rfl, hnil, hall⟩
    have hs := h.inside rawStart (List.mem_of_getElem? hstart)
    have he := h.inside rawEnd (List.mem_of_getElem? hstop)
    generalize hstart' : j.normalizedText.length - (lstrip j.normalizedText).length = start at *
    generalize hstop' : (rstrip j.normalizedText).length = stop at *
    refine mapped_withMap ?_ ?_ ?_
    · have hlen := h.length
      simp only [List.length_map, List.length_drop, List.length_take]
      omega
    · refine List.pairwise_map.2 (((h.sorted.take).drop).imp fun hle => ?_)
      exact max_le_max_left _ (min_le_min_left _ hle)
    · intro b hb
      obtain ⟨value, hvalue, rfl⟩ := List.mem_map.1 hb
      have := h.inside value (mem_slice hvalue)
      omega
  · cases hok

/-- Such a trim leaves no boundary. -/
theorem trimNormalized_erases (h : j.Mapped) (hop : j.Erases .trimNormalized) :
    ∃ j', j.trimNormalized = .ok j' ∧ j'.normalizedText = [] ∧ j'.normalizedToRaw = [] := by
  obtain ⟨-, hne, hall⟩ := hop
  have hpos := List.length_pos_iff.2 hne
  have hl : lstrip j.normalizedText = [] := List.dropWhile_eq_nil_iff.2 hall
  have hr : rstrip j.normalizedText = [] := by
    unfold rstrip
    rw [List.dropWhile_eq_nil_iff.2 fun c hc => hall c (List.mem_reverse.1 hc), List.reverse_nil]
  have hlen := h.length
  unfold trimNormalized
  simp only [hl, hr, List.length_nil, Nat.sub_zero]
  rw [if_neg (by omega), List.getElem?_eq_getElem (show j.normalizedText.length < _ by omega),
    List.getElem?_eq_getElem (show 0 < _ by omega)]
  refine ⟨_, rfl, ?_, ?_⟩
  · show List.drop _ (List.take 0 _) = []
    rw [List.take_zero, List.drop_nil]
  · show List.map _ (List.drop _ (List.take (0 + 1) _)) = []
    rw [List.drop_eq_nil_of_le (by rw [List.length_take]; omega), List.map_nil]

/-! ## Runs -/

/-- What readers of the maps rely on. -/
structure Coordinates (j : CanonicalTextJournal) : Prop where
  forward : j.normalizedToRaw.length = j.normalizedText.length + 1 ∧
    j.normalizedToRaw.Pairwise (· ≤ ·) ∧ ∀ b ∈ j.normalizedToRaw, 0 ≤ b ∧ b ≤ j.rawText.length
  backward : j.rawToNormalized.length = j.rawText.length + 1 ∧
    j.rawToNormalized.Pairwise (· ≤ ·) ∧ ∀ i ∈ j.rawToNormalized, i ≤ j.normalizedText.length
  /-- A boundary is found again. -/
  boundary : ∀ k : Nat, (k : Int) ∈ j.normalizedToRaw →
    ∃ i, j.rawToNormalized[k]? = some i ∧ j.normalizedToRaw[i]? = some (k : Int)
  /-- A raw boundary behind the first one is sent to one that is not behind it. -/
  below : ∀ k : Nat, k ≤ j.rawText.length → ∀ first ∈ j.normalizedToRaw.head?, first ≤ k →
    ∃ i b, j.rawToNormalized[k]? = some i ∧ j.normalizedToRaw[i]? = some b ∧ b ≤ k

theorem Mapped.coordinates (h : j.Mapped) : j.Coordinates := by
  have hget : ∀ k : Nat, k ≤ j.rawText.length →
      j.rawToNormalized[k]? = some (inverseAt j.normalizedToRaw k) := by
    intro k hk
    rw [h.inverse]
    exact inverseBoundaries_get hk
  refine ⟨⟨h.length, h.sorted, h.inside⟩, ⟨?_, ?_, ?_⟩, ?_, ?_⟩
  · rw [h.inverse, inverseBoundaries, List.length_map, List.length_range]
  · rw [h.inverse, inverseBoundaries]
    refine List.pairwise_map.2 (List.pairwise_le_range.imp fun hle => ?_)
    exact inverseAt_mono h.sorted hle
  · intro i hi
    rw [h.inverse, inverseBoundaries] at hi
    obtain ⟨k, -, rfl⟩ := List.mem_map.1 hi
    exact inverseAt_le h.sorted h.length k
  · intro k hk
    have hle := (h.inside _ hk).2
    exact ⟨_, hget k (by exact_mod_cast hle), inverseAt_boundary h.sorted hk⟩
  · intro k hk first hfirst hle
    obtain ⟨b, hb, hbk⟩ := inverseAt_below h.sorted hfirst hle
    exact ⟨_, b, hget k hk, hb, hbk⟩

/-- All boundaries but the last one are kept, and the last one only grows. -/
def InteriorKept (j j' : CanonicalTextJournal) : Prop :=
  j.normalizedToRaw.dropLast <+: j'.normalizedToRaw ∧
    ∀ last ∈ j.normalizedToRaw.getLast?,
      ∃ last', j'.normalizedToRaw[j.normalizedToRaw.length - 1]? = some last' ∧ last ≤ last'

theorem appendSpoken_interior (h : j.Mapped) {rawText spokenText : Text} {rawStart rawEnd : Int}
    {mapping : List (Int × Int)} {outputMapping : List (Int × Int × Int × Int)}
    {res : (Text × Nat) × CanonicalTextJournal} (hgrows : j.rawText.length ≤ rawText.length)
    (hok : j.appendSpoken rawText rawStart rawEnd spokenText mapping outputMapping = .ok res) :
    j.InteriorKept res.2 := by
  obtain ⟨front, last, last', more, hold, hnew, hle⟩ := (appendSpoken_spec h hok).2 hgrows
  unfold InteriorKept
  rw [hold, hnew, List.dropLast_concat]
  refine ⟨List.prefix_append _ _, fun b hb => ⟨last', ?_, ?_⟩⟩
  · rw [List.length_append, List.length_singleton, Nat.add_sub_cancel,
      List.getElem?_append_right (Nat.le_refl _), Nat.sub_self]
    rfl
  · rw [List.getLast?_concat] at hb
    cases hb
    exact hle

/-- Every operation keeps the maps, unless it erases them. -/
theorem step_mapped (h : j.Mapped) {op : JournalOp} (hop : ¬ j.Erases op)
    (hok : j.step op = .ok j') : j'.Mapped := by
  cases op with
  | append rawDelta => exact append_mapped hok
  | finish =>
      cases hok
      exact finish_mapped j
  | appendSpoken rawText rawStart rawEnd spokenText mapping outputMapping =>
      simp only [step] at hok
      cases hres : j.appendSpoken rawText rawStart rawEnd spokenText mapping outputMapping with
      | error e =>
          rw [hres] at hok
          cases hok
      | ok res =>
          rw [hres] at hok
          cases hok
          exact (appendSpoken_spec h hres).1
  | updateRawSource rawText => exact updateRawSource_mapped h hok
  | installProjection rawText normalizedText map => exact installProjection_mapped hok
  | finalizeProjection =>
      cases hok
      exact finalizeProjection_mapped h
  | trimNormalized => exact trimNormalized_mapped h hop hok

/-- In every run that erases nothing the maps are coordinates, and a commit over a source that has
grown keeps what was published; an erasing trim ends that. -/
theorem journal_coordinates {normalize : Text → Text} {strip : Bool}
    (hr : Reaches step (fun j op => ¬ j.Erases op) (new normalize strip) j) :
    j.Coordinates ∧
      (∀ rawText rawStart rawEnd spokenText mapping outputMapping res,
        j.rawText.length ≤ rawText.length →
        j.appendSpoken rawText rawStart rawEnd spokenText mapping outputMapping = .ok res →
        j.InteriorKept res.2) ∧
      ∀ op, j.Erases op → ∃ j', j.step op = .ok j' ∧ ¬ j'.Coordinates := by
  have h : j.Mapped := hr.invariant (mapped_new normalize strip) fun _ _ _ h hop hok =>
    step_mapped h hop hok
  refine ⟨h.coordinates, fun rawText _ _ _ _ _ res hgrows hok => appendSpoken_interior h hgrows hok,
    fun op hop => ?_⟩
  obtain rfl := hop.1
  obtain ⟨j', hok, htext, hmap⟩ := trimNormalized_erases h hop
  refine ⟨j', hok, fun hc => ?_⟩
  have := hc.forward.1
  rw [hmap, htext] at this
  cases this

/-- A commit of two words, and what `journal_coordinates` says behind it. -/
theorem journal_coordinates_commit :
    ∃ j, (new normalizeTtsText true).step
        (.appendSpoken " a b".toList 0 4 " a b".toList [] []) = .ok j
      ∧ j.normalizedToRaw = [0, 0, 0, 4] ∧ j.Coordinates := by
  obtain ⟨j, hok, hmap⟩ : ∃ j, (new normalizeTtsText true).step
      (.appendSpoken " a b".toList 0 4 " a b".toList [] []) = .ok j ∧
        j.normalizedToRaw = [0, 0, 0, 4] := ⟨_, rfl, by decide +kernel⟩
  have hplain : ¬ (new normalizeTtsText true).Erases
      (.appendSpoken " a b".toList 0 4 " a b".toList [] []) := fun h => nomatch h.1
  exact ⟨j, hok, hmap, (journal_coordinates (.next .start hplain hok)).1⟩

/-- A single space, trimmed: no boundary is left for the empty text. -/
theorem blank_trim_erases :
    ∃ j j', (new normalizeTtsText false).step (.append " ".toList) = .ok j ∧
      j.step .trimNormalized = .ok j' ∧ j'.normalizedToRaw = [] ∧ ¬ j'.Coordinates := by
  refine ⟨_, _, rfl, rfl, by decide +kernel, fun hc => ?_⟩
  have h := hc.forward.1
  revert h
  decide +kernel

end CanonicalTextJournal

end StreamingTts.Frontend
