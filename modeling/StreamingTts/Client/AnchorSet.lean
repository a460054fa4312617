import StreamingTts.Client.TextCursor
import StreamingTts.Lib.Transition

/-!
# The anchors of a tracker as a set

Whether an anchor is accepted depends on the anchors that the tracker has, not on how they came: each of
them must be the same anchor or stand before or behind it in every coordinate (`Agrees`). The check in the
order of the samples adds nothing to the one in the order of the sequence numbers, and what a rejected
anchor could leave behind, the sample rate, is there already. So anchors are accepted in every order or in
none, and give the same cursor.
-/

namespace StreamingTts.Client.Playback

open Lib
open Gateway.Output (Before)
open PlaybackProgressTracker (malformed backwards validateMonotonic seqLe sampleLe)

/-! ## The two orders -/

/-- No coordinate goes back. -/
structure Forward (a b : TextProgressAnchor) : Prop where
  sampleStart : a.outputSampleStart ≤ b.outputSampleStart
  sampleEnd : a.outputSampleEnd ≤ b.outputSampleEnd
  rawStart : a.rawStart ≤ b.rawStart
  rawEnd : a.rawEnd ≤ b.rawEnd
  normalizedStart : a.normalizedStart ≤ b.normalizedStart
  normalizedEnd : a.normalizedEnd ≤ b.normalizedEnd

theorem Forward.trans {a b c : TextProgressAnchor} (h : Forward a b) (h' : Forward b c) : Forward a c :=
  ⟨h.sampleStart.trans h'.sampleStart, h.sampleEnd.trans h'.sampleEnd, h.rawStart.trans h'.rawStart,
    h.rawEnd.trans h'.rawEnd, h.normalizedStart.trans h'.normalizedStart,
    h.normalizedEnd.trans h'.normalizedEnd⟩

theorem before_iff {a b : TextProgressAnchor} : Before a b ↔ a.anchorSeq < b.anchorSeq ∧ Forward a b :=
  ⟨fun h => ⟨h.seq, h.sampleStart, h.sampleEnd, h.rawStart, h.rawEnd, h.normalizedStart,
    h.normalizedEnd⟩, fun ⟨hseq, h⟩ => ⟨hseq, h.sampleStart, h.sampleEnd, h.rawStart, h.rawEnd,
    h.normalizedStart, h.normalizedEnd⟩⟩

theorem backwards_eq_none_iff {a b : TextProgressAnchor} : backwards a b = none ↔ Forward a b := by
  unfold backwards
  constructor
  · intro h
    split_ifs at h with h₁ h₂ h₃ h₄ h₅ h₆
    exact ⟨Int.not_lt.1 h₁, Int.not_lt.1 h₂, Int.not_lt.1 h₃, Int.not_lt.1 h₄, Int.not_lt.1 h₅,
      Int.not_lt.1 h₆⟩
  · rintro ⟨h₁, h₂, h₃, h₄, h₅, h₆⟩
    simp only [Int.not_lt.2 h₁, Int.not_lt.2 h₂, Int.not_lt.2 h₃, Int.not_lt.2 h₄, Int.not_lt.2 h₅,
      Int.not_lt.2 h₆, if_false]

/-- The comparison of neighbours compares all pairs. -/
theorem validateMonotonic_ok_iff {anchors : List TextProgressAnchor} :
    validateMonotonic anchors = .ok () ↔ anchors.Pairwise Forward := by
  induction anchors with
  | nil => exact iff_of_true rfl .nil
  | cons a anchors ih =>
      cases anchors with
      | nil => exact iff_of_true rfl (List.pairwise_singleton _ _)
      | cons b anchors =>
          rw [validateMonotonic]
          constructor
          · intro h
            cases hback : backwards a b with
            | some message =>
                rw [hback] at h
                cases h
            | none =>
                rw [hback] at h
                have hab := backwards_eq_none_iff.1 hback
                have hrest := ih.1 h
                refine List.pairwise_cons.2 ⟨fun c hc => ?_, hrest⟩
                rcases List.mem_cons.1 hc with rfl | hc
                · exact hab
                · exact hab.trans ((List.pairwise_cons.1 hrest).1 c hc)
          · intro h
            obtain ⟨hfirst, hrest⟩ := List.pairwise_cons.1 h
            rw [backwards_eq_none_iff.2 (hfirst b List.mem_cons_self)]
            exact ih.2 hrest

/-- The coordinates of anchors with different sequence numbers are in one order. -/
def Chain (anchors : List TextProgressAnchor) : Prop :=
  ∀ a ∈ anchors, ∀ b ∈ anchors, a.anchorSeq < b.anchorSeq → Forward a b

theorem seqLe_total (a b : TextProgressAnchor) : (seqLe a b || seqLe b a) = true := by
  simp only [seqLe, Bool.or_eq_true, decide_eq_true_iff]
  omega

theorem seqLe_trans (a b c : TextProgressAnchor) (h : seqLe a b = true) (h' : seqLe b c = true) :
    seqLe a c = true := by
  simp only [seqLe, decide_eq_true_iff] at h h' ⊢
  omega

theorem sampleLe_total (a b : TextProgressAnchor) : (sampleLe a b || sampleLe b a) = true := by
  simp only [sampleLe, Bool.or_eq_true, Bool.and_eq_true, decide_eq_true_iff]
  omega

theorem sampleLe_trans (a b c : TextProgressAnchor) (h : sampleLe a b = true)
    (h' : sampleLe b c = true) : sampleLe a c = true := by
  simp only [sampleLe, Bool.or_eq_true, Bool.and_eq_true, decide_eq_true_iff] at h h' ⊢
  omega

/-- The order of the sequence numbers. -/
theorem validate_seqLe_iff {anchors : List TextProgressAnchor}
    (hnodup : (anchors.map (·.anchorSeq)).Nodup) :
    validateMonotonic (anchors.mergeSort seqLe) = .ok () ↔ Chain anchors := by
  have hsorted := List.pairwise_mergeSort seqLe_trans seqLe_total anchors
  have hperm := List.mergeSort_perm anchors seqLe
  rw [validateMonotonic_ok_iff]
  constructor
  · intro h a ha b hb hlt
    have ha' := hperm.mem_iff.2 ha
    have hb' := hperm.mem_iff.2 hb
    rcases List.mem_iff_getElem.1 ha' with ⟨i, hi, rfl⟩
    rcases List.mem_iff_getElem.1 hb' with ⟨j, hj, rfl⟩
    rcases Nat.lt_trichotomy i j with hij | rfl | hij
    · exact List.pairwise_iff_getElem.1 h i j hi hj hij
    · exact absurd hlt (Int.lt_irrefl _)
    · have hback := List.pairwise_iff_getElem.1 hsorted j i hj hi hij
      simp only [seqLe, decide_eq_true_iff] at hback
      omega
  · intro h
    have hnodup' : ((anchors.mergeSort seqLe).map (·.anchorSeq)).Nodup :=
      (hperm.map _).nodup_iff.2 hnodup
    have hboth := hsorted.and (List.pairwise_map.1 hnodup')
    refine hboth.imp_of_mem fun {a b} ha hb hab => ?_
    have hle : a.anchorSeq ≤ b.anchorSeq := by simpa [seqLe] using hab.1
    exact h a (hperm.mem_iff.1 ha) b (hperm.mem_iff.1 hb) (lt_of_le_of_ne hle hab.2)

/-- The order of the samples is the same one. -/
theorem Chain.validate_sampleLe {anchors : List TextProgressAnchor} (h : Chain anchors)
    (hnodup : (anchors.map (·.anchorSeq)).Nodup) :
    validateMonotonic (anchors.mergeSort sampleLe) = .ok () := by
  have hsorted := List.pairwise_mergeSort sampleLe_trans sampleLe_total anchors
  have hperm := List.mergeSort_perm anchors sampleLe
  have hnodup' : ((anchors.mergeSort sampleLe).map (·.anchorSeq)).Nodup :=
    (hperm.map _).nodup_iff.2 hnodup
  have hboth := hsorted.and (List.pairwise_map.1 hnodup')
  rw [validateMonotonic_ok_iff]
  refine hboth.imp_of_mem fun {a b} ha hb hab => ?_
  obtain ⟨hle, hne⟩ := hab
  simp only [sampleLe, Bool.or_eq_true, Bool.and_eq_true, decide_eq_true_iff] at hle
  rcases lt_or_gt_of_ne hne with hlt | hlt
  · exact h a (hperm.mem_iff.1 ha) b (hperm.mem_iff.1 hb) hlt
  · have hback := h b (hperm.mem_iff.1 hb) a (hperm.mem_iff.1 ha) hlt
    have hstart := hback.sampleStart
    have hend := hback.sampleEnd
    omega

variable {γ : Type}

/-- Two anchors of one tracker. -/
def Agrees (a b : ProgressAnchor γ) : Prop :=
  a = b ∨ Before a.toTextProgressAnchor b.toTextProgressAnchor
    ∨ Before b.toTextProgressAnchor a.toTextProgressAnchor

theorem Agrees.symm {a b : ProgressAnchor γ} (h : Agrees a b) : Agrees b a := by
  rcases h with rfl | h | h
  · exact .inl rfl
  · exact .inr (.inr h)
  · exact .inr (.inl h)

namespace Tracker

theorem validateOrders_ok_iff {anchors : List (ProgressAnchor γ)}
    (hnodup : (anchors.map (·.anchorSeq)).Nodup) :
    validateOrders anchors = .ok () ↔ Chain (anchors.map (·.toTextProgressAnchor)) := by
  have hnodup' : ((anchors.map (·.toTextProgressAnchor)).map (·.anchorSeq)).Nodup := by
    rw [List.map_map]
    exact hnodup
  unfold validateOrders
  dsimp only
  rw [bind_eq_ok]
  constructor
  · rintro ⟨_, hseq, -⟩
    exact (validate_seqLe_iff hnodup').1 hseq
  · intro h
    exact ⟨(), (validate_seqLe_iff hnodup').2 h, h.validate_sampleLe hnodup'⟩

/-! ## The invariant -/

/-- What the calls of a tracker keep. -/
structure Sound (t : Tracker γ) : Prop where
  keys : ∀ k a, t.anchors.get? k = some a → a.anchorSeq = k
  wellFormed : ∀ a ∈ t.anchors.values, malformed a.toTextProgressAnchor = false
  rate : ∀ a ∈ t.anchors.values, t.outputSampleRate = some a.outputSampleRate
  agrees : ∀ a ∈ t.anchors.values, ∀ b ∈ t.anchors.values, Agrees a b
  received : ∀ a ∈ t.anchors.values, a.outputSampleEnd ≤ t.receivedSample
  latest : t.latest = t.progress

/-- The condition under which an anchor is accepted. -/
structure Accepts (t : Tracker γ) (a : ProgressAnchor γ) : Prop where
  wellFormed : malformed a.toTextProgressAnchor = false
  rate : ∀ rate, t.outputSampleRate = some rate → rate = a.outputSampleRate
  agrees : ∀ b ∈ t.anchors.values, Agrees a b

/-- The tracker with one anchor more. -/
def insert (t : Tracker γ) (a : ProgressAnchor γ) : Tracker γ :=
  { t with
    outputSampleRate := some a.outputSampleRate
    anchors := t.anchors.set a.anchorSeq a
    receivedSample := max t.receivedSample a.outputSampleEnd }

variable {t : Tracker γ} {a b : ProgressAnchor γ}

theorem Sound.mem_values (h : t.Sound) :
    a ∈ t.anchors.values ↔ t.anchors.get? a.anchorSeq = some a := by
  rw [OrderedDict.mem_values]
  constructor
  · rintro ⟨k, hk⟩
    rw [h.keys k a hk]
    exact hk
  · exact fun h => ⟨_, h⟩

theorem Sound.nodup (h : t.Sound) : (t.anchors.values.map (·.anchorSeq)).Nodup := by
  refine List.Nodup.map_on (fun x hx y hy hxy => ?_) ?_
  · have hx' := h.mem_values.1 hx
    have hy' := h.mem_values.1 hy
    rw [hxy] at hx'
    exact Option.some.inj (hx'.symm.trans hy')
  · exact OrderedDict.values_nodup fun k k' v hk hk' => (h.keys k v hk).symm.trans (h.keys k' v hk')

/-- The sequence number is free, or it is the number of an anchor that has to be the same one. -/
theorem Accepts.get? (h : t.Accepts a) (hs : t.Sound) :
    t.anchors.get? a.anchorSeq = none ∨ t.anchors.get? a.anchorSeq = some a := by
  cases hget : t.anchors.get? a.anchorSeq with
  | none => exact .inl rfl
  | some old =>
      have hseq := hs.keys _ _ hget
      have hold : old ∈ t.anchors.values := OrderedDict.mem_values.2 ⟨_, hget⟩
      rcases h.agrees old hold with rfl | hbefore | hbefore
      · exact .inr rfl
      · exact absurd hbefore.seq (by omega)
      · exact absurd hbefore.seq (by omega)

theorem Sound.accepts (h : t.Sound) (ha : a ∈ t.anchors.values) : t.Accepts a :=
  ⟨h.wellFormed a ha, fun _ hrate => Option.some.inj (hrate.symm.trans (h.rate a ha)), h.agrees a ha⟩

section
variable [DecidableEq γ]

/-- An anchor that is there already changes nothing. -/
theorem Sound.addAnchor_again (h : t.Sound) (ha : a ∈ t.anchors.values) :
    t.addAnchor a = (t, .ok t.latest) := by
  unfold addAnchor
  rw [h.mem_values.1 ha]
  simp only [if_true, answer, recompute]
  rw [← h.latest]

omit [DecidableEq γ] in
/-- The comparisons of a new anchor. -/
theorem Sound.validateOrders_iff (h : t.Sound) (hnew : t.anchors.get? a.anchorSeq = none) :
    validateOrders (t.anchors.values ++ [a]) = .ok () ↔ ∀ b ∈ t.anchors.values, Agrees a b := by
  have hne : ∀ b ∈ t.anchors.values, b.anchorSeq ≠ a.anchorSeq := by
    intro b hb hseq
    have hb' := h.mem_values.1 hb
    rw [hseq, hnew] at hb'
    cases hb'
  have hnodup : ((t.anchors.values ++ [a]).map (·.anchorSeq)).Nodup := by
    rw [List.map_append, List.nodup_append]
    refine ⟨h.nodup, List.nodup_singleton _, fun x hx y hy => ?_⟩
    obtain ⟨b, hb, rfl⟩ := List.mem_map.1 hx
    cases List.mem_singleton.1 hy
    exact hne b hb
  rw [validateOrders_ok_iff hnodup, List.map_append]
  constructor
  · intro hchain b hb
    have hb' : b.toTextProgressAnchor ∈ t.anchors.values.map (·.toTextProgressAnchor) ++
        [a].map (·.toTextProgressAnchor) := List.mem_append_left _ (List.mem_map_of_mem hb)
    have ha' : a.toTextProgressAnchor ∈ t.anchors.values.map (·.toTextProgressAnchor) ++
        [a].map (·.toTextProgressAnchor) := List.mem_append_right _ (List.mem_map_of_mem List.mem_cons_self)
    rcases lt_or_gt_of_ne (hne b hb) with hlt | hlt
    · exact .inr (.inr (before_iff.2 ⟨hlt, hchain _ hb' _ ha' hlt⟩))
    · exact .inr (.inl (before_iff.2 ⟨hlt, hchain _ ha' _ hb' hlt⟩))
  · intro hagrees x hx y hy hlt
    have hboth : ∀ x ∈ t.anchors.values ++ [a], ∀ y ∈ t.anchors.values ++ [a], Agrees x y := by
      intro x hx y hy
      rcases List.mem_append.1 hx with hx | hx
      · rcases List.mem_append.1 hy with hy | hy
        · exact h.agrees x hx y hy
        · cases List.mem_singleton.1 hy
          exact (hagrees x hx).symm
      · cases List.mem_singleton.1 hx
        rcases List.mem_append.1 hy with hy | hy
        · exact hagrees y hy
        · cases List.mem_singleton.1 hy
          exact .inl rfl
    rw [← List.map_append] at hx hy
    obtain ⟨x, hx', rfl⟩ := List.mem_map.1 hx
    obtain ⟨y, hy', rfl⟩ := List.mem_map.1 hy
    rcases hboth x hx' y hy' with rfl | hbefore | hbefore
    · exact absurd hlt (Int.lt_irrefl _)
    · exact (before_iff.1 hbefore).2
    · exact absurd hbefore.seq (by omega)

/-- An anchor that is accepted: the tracker has it already, or gets it. -/
theorem Sound.addAnchor_accepted (h : t.Sound) (ha : t.Accepts a) :
    (a ∈ t.anchors.values ∧ t.addAnchor a = (t, .ok t.latest)) ∨
      (t.anchors.get? a.anchorSeq = none ∧ t.addAnchor a = (t.insert a).answer) := by
  rcases ha.get? h with hnew | hold
  · refine .inr ⟨hnew, ?_⟩
    have horders := (h.validateOrders_iff hnew).2 ha.agrees
    unfold addAnchor validateAnchor rememberSampleRate
    rw [hnew]
    cases hrate : t.outputSampleRate with
    | none =>
        simp only [ha.wellFormed, Bool.false_eq_true, if_false, horders]
        rfl
    | some known =>
        have hknown := ha.rate known hrate
        subst hknown
        simp only [ha.wellFormed, Bool.false_eq_true, if_false, ne_eq, not_true_eq_false, horders]
        unfold insert
        rw [← hrate]
  · have hmem := h.mem_values.2 hold
    exact .inl ⟨hmem, h.addAnchor_again hmem⟩

/-- An anchor that is not accepted leaves the tracker as it was. -/
theorem Sound.addAnchor_rejected (h : t.Sound) (ha : ¬ t.Accepts a) :
    ∃ error, t.addAnchor a = (t, .error error) := by
  unfold addAnchor
  cases hget : t.anchors.get? a.anchorSeq with
  | some old =>
      have hne : old ≠ a := by
        rintro rfl
        exact ha (h.accepts (OrderedDict.mem_values.2 ⟨_, hget⟩))
      simp only [if_neg hne]
      exact ⟨_, rfl⟩
  | none =>
      have horders := h.validateOrders_iff hget
      unfold validateAnchor
      by_cases hformed : malformed a.toTextProgressAnchor = true
      · simp only [hformed, if_true]
        exact ⟨_, rfl⟩
      · have hformed' : malformed a.toTextProgressAnchor = false := Bool.not_eq_true _ ▸ hformed
        simp only [hformed', Bool.false_eq_true, if_false]
        unfold rememberSampleRate
        cases hrate : t.outputSampleRate with
        | none =>
            -- there are no anchors yet, so every anchor is accepted
            have hnone : ∀ b, b ∉ t.anchors.values := by
              intro b hb
              rw [h.rate b hb] at hrate
              cases hrate
            refine absurd ⟨hformed', fun rate hr => ?_, fun b hb => absurd hb (hnone b)⟩ ha
            rw [hrate] at hr
            cases hr
        | some known =>
            by_cases hknown : known = a.outputSampleRate
            · simp only [hknown, ne_eq, not_true_eq_false, if_false]
              have hbad : ¬ validateOrders (t.anchors.values ++ [a]) = .ok () := by
                intro hok
                refine ha ⟨hformed', fun rate hr => ?_, horders.1 hok⟩
                rw [hrate] at hr
                exact (Option.some.inj hr).symm.trans hknown
              cases hvalidate : validateOrders (t.anchors.values ++ [a]) with
              | ok _ => exact absurd hvalidate hbad
              | error error => exact ⟨error, rfl⟩
            · simp only [ne_eq, hknown, not_false_eq_true, if_true]
              exact ⟨_, rfl⟩

omit [DecidableEq γ] in
theorem Sound.mem_insert (h : t.Sound) (hnew : t.anchors.get? a.anchorSeq = none) :
    b ∈ (t.insert a).anchors.values ↔ b ∈ t.anchors.values ∨ b = a := by
  rw [OrderedDict.mem_values]
  simp only [insert, OrderedDict.get?_set]
  constructor
  · rintro ⟨k, hk⟩
    split_ifs at hk with hkey
    · exact .inr (Option.some.inj hk).symm
    · exact .inl (OrderedDict.mem_values.2 ⟨k, hk⟩)
  · rintro (hb | rfl)
    · have hb' := h.mem_values.1 hb
      refine ⟨b.anchorSeq, ?_⟩
      rw [if_neg, hb']
      intro hseq
      rw [hseq, hnew] at hb'
      cases hb'
    · exact ⟨b.anchorSeq, if_pos rfl⟩

omit [DecidableEq γ] in
theorem Sound.insert (h : t.Sound) (ha : t.Accepts a) (hnew : t.anchors.get? a.anchorSeq = none) :
    (t.insert a).recompute.Sound := by
  have hmem : ∀ b, b ∈ (t.insert a).anchors.values ↔ b ∈ t.anchors.values ∨ b = a :=
    fun b => h.mem_insert hnew
  refine ⟨fun k b hb => ?_, fun b hb => ?_, fun b hb => ?_, fun b hb c hc => ?_, fun b hb => ?_, rfl⟩
  · have hb' : (if k = a.anchorSeq then some a else t.anchors.get? k) = some b := by
      rw [← OrderedDict.get?_set]
      exact hb
    split_ifs at hb' with hkey
    · cases hb'
      exact hkey.symm
    · exact h.keys k b hb'
  · rcases (hmem b).1 hb with hb | rfl
    · exact h.wellFormed b hb
    · exact ha.wellFormed
  · rcases (hmem b).1 hb with hb | rfl
    · exact congrArg some (ha.rate _ (h.rate b hb)).symm
    · rfl
  · rcases (hmem b).1 hb with hb' | rfl
    · rcases (hmem c).1 hc with hc' | rfl
      · exact h.agrees b hb' c hc'
      · exact (ha.agrees b hb').symm
    · rcases (hmem c).1 hc with hc' | rfl
      · exact ha.agrees c hc'
      · exact .inl rfl
  · rcases (hmem b).1 hb with hb | rfl
    · exact Int.le_trans (h.received b hb) (Int.le_max_left _ _)
    · exact Int.le_max_right _ _

omit [DecidableEq γ] in
/-- A tracker with the same anchors that has received no less. -/
theorem Sound.of_same {t' : Tracker γ} (h : t.Sound) (hanchors : t'.anchors = t.anchors)
    (hrate : ∀ rate, t.outputSampleRate = some rate → t'.outputSampleRate = some rate)
    (hreceived : t.receivedSample ≤ t'.receivedSample) (hlatest : t'.latest = t'.progress) :
    t'.Sound := by
  refine ⟨?_, ?_, ?_, ?_, ?_, hlatest⟩
  · rw [hanchors]
    exact h.keys
  · rw [hanchors]
    exact h.wellFormed
  · rw [hanchors]
    exact fun a ha => hrate _ (h.rate a ha)
  · rw [hanchors]
    exact h.agrees
  · rw [hanchors]
    exact fun a ha => Int.le_trans (h.received a ha) hreceived

theorem Sound.addAnchor (h : t.Sound) (a : ProgressAnchor γ) : (t.addAnchor a).1.Sound := by
  by_cases ha : t.Accepts a
  · rcases h.addAnchor_accepted ha with ⟨-, heq⟩ | ⟨hnew, heq⟩
    · rw [heq]
      exact h
    · rw [heq]
      exact h.insert ha hnew
  · obtain ⟨error, heq⟩ := h.addAnchor_rejected ha
    rw [heq]
    exact h

omit [DecidableEq γ] in
/-- A report of the playback moves the two samples, or leaves the tracker as it was. -/
theorem updatePlaybackProgress_cases (t : Tracker γ) (played : Int) (buffered : Option Int) :
    (∃ error, t.updatePlaybackProgress played buffered = (t, .error error)) ∨
      (t.playedSample ≤ played ∧ 0 ≤ played ∧ ∃ buffered', t.updatePlaybackProgress played buffered
        = { t with playedSample := played, bufferedSample := buffered' }.answer) := by
  unfold updatePlaybackProgress
  dsimp only
  split_ifs with hbackwards hnegative
  · exact .inl ⟨_, rfl⟩
  · exact .inl ⟨_, rfl⟩
  · exact .inl ⟨_, rfl⟩
  · exact .inl ⟨_, rfl⟩
  · exact .inl ⟨_, rfl⟩
  · exact .inr ⟨Int.not_lt.1 hbackwards, Int.not_lt.1 fun hlt => hnegative (.inl hlt), _, rfl⟩

omit [DecidableEq γ] in
theorem Sound.updatePlaybackProgress (h : t.Sound) (played : Int) (buffered : Option Int) :
    (t.updatePlaybackProgress played buffered).1.Sound := by
  rcases updatePlaybackProgress_cases t played buffered with ⟨error, heq⟩ | ⟨-, -, buffered', heq⟩
  · rw [heq]
    exact h
  · rw [heq]
    exact h.of_same rfl (fun _ hr => hr) (Int.le_refl _) rfl

/-- What a message leaves is what `add_anchor` leaves, or the tracker as it was. -/
theorem addMetaAnchor_cases (t : Tracker γ) (anchor : Meta γ) (requireReceived : Bool) :
    (t.addMetaAnchor anchor requireReceived).1 = t ∨
      ∃ a, anchor = .ok (some a) ∧
        (t.addMetaAnchor anchor requireReceived).1 = (t.addAnchor a).1 := by
  unfold addMetaAnchor
  cases anchor with
  | error error => exact .inl rfl
  | ok found =>
      cases found with
      | none => exact .inl rfl
      | some a =>
          dsimp only
          split_ifs
          · exact .inl rfl
          · refine .inr ⟨a, rfl, ?_⟩
            rcases t.addAnchor a with ⟨t', error | _⟩ <;> rfl

theorem Sound.addMetaAnchor (h : t.Sound) (anchor : Meta γ) (requireReceived : Bool) :
    (t.addMetaAnchor anchor requireReceived).1.Sound := by
  rcases addMetaAnchor_cases t anchor requireReceived with heq | ⟨a, -, heq⟩
  · rw [heq]
    exact h
  · rw [heq]
    exact h.addAnchor a

omit [DecidableEq γ] in
/-- Remembering the rate changes nothing else. -/
theorem Sound.rememberSampleRate (h : t.Sound) {rate : Int} {error : String → TrackerError}
    {t' : Tracker γ} (ht' : t.rememberSampleRate rate error = .ok t') : t'.Sound := by
  unfold Tracker.rememberSampleRate at ht'
  cases hrate : t.outputSampleRate with
  | none =>
      rw [hrate] at ht'
      cases ht'
      refine h.of_same rfl (fun _ hr => ?_) (Int.le_refl _) h.latest
      rw [hrate] at hr
      cases hr
  | some known =>
      rw [hrate] at ht'
      simp only at ht'
      split_ifs at ht'
      cases ht'
      exact h

omit [DecidableEq γ] in
theorem Sound.receive (h : t.Sound) (stop : Int) : (t.receive stop).Sound :=
  h.of_same rfl (fun _ hr => hr) (Int.le_max_left _ _) h.latest

omit [DecidableEq γ] in
theorem Sound.recompute (h : t.Sound) : t.recompute.Sound :=
  h.of_same rfl (fun _ hr => hr) (Int.le_refl _) rfl

/-- The anchor of a chunk whose samples have been received. -/
theorem Sound.answerAudio (h : t.Sound) (stop : Int) (anchor : Meta γ) :
    (match (t.receive stop).addMetaAnchor anchor false with
      | (t, .error error) => (t, .error error)
      | (t, .ok ()) => t.answer : Outcome γ).1.Sound := by
  have hadd := (h.receive stop).addMetaAnchor anchor false
  generalize (t.receive stop).addMetaAnchor anchor false = added at hadd ⊢
  obtain ⟨t', error | _⟩ := added
  · exact hadd
  · exact Sound.recompute hadd

theorem Sound.observeAudio (h : t.Sound) (start stop : Option Int) (frames : Nat) (rate : Int)
    (anchor : Meta γ) : (t.observeAudio start stop frames rate anchor).1.Sound := by
  unfold Tracker.observeAudio
  dsimp only
  split_ifs with hrange hrate
  · exact h
  · cases hremember : t.rememberSampleRate rate .protocol with
    | error error => exact h
    | ok t' => exact (h.rememberSampleRate hremember).answerAudio _ anchor
  · exact h.answerAudio _ anchor

theorem Sound.observeEvent (h : t.Sound) (anchor : Meta γ) (isFinal : Bool)
    (finalSample : Option Int) : (t.observeEvent anchor isFinal finalSample).1.Sound := by
  have hadd := h.addMetaAnchor anchor true
  unfold Tracker.observeEvent
  generalize t.addMetaAnchor anchor true = added at hadd ⊢
  obtain ⟨t', error | _⟩ := added
  · exact hadd
  · dsimp only
    split_ifs
    · exact Sound.of_same hadd rfl (fun _ hr => hr) (Int.le_refl _) rfl
    · exact Sound.recompute hadd

/-- Every call keeps the invariant, whether it gives a value or raises. -/
theorem Sound.step (h : t.Sound) (c : Call γ) : (t.step c).Sound := by
  unfold Tracker.step call
  cases c with
  | addAnchor anchor => exact h.addAnchor anchor
  | updatePlaybackProgress played buffered => exact h.updatePlaybackProgress played buffered
  | observeAudio start stop frames rate anchor => exact h.observeAudio start stop frames rate anchor
  | observeEvent anchor isFinal finalSample => exact h.observeEvent anchor isFinal finalSample

omit [DecidableEq γ] in
theorem sound_new : ({} : Tracker γ).Sound :=
  ⟨(fun _ _ h => nomatch h), fun _ h => absurd h List.not_mem_nil, fun _ h => absurd h List.not_mem_nil,
    fun _ h => absurd h List.not_mem_nil, fun _ h => absurd h List.not_mem_nil, by
      simp [progress, ordered, OrderedDict.values, OrderedDict.empty]⟩

theorem sound_run (calls : List (Call γ)) : (run Tracker.step ({} : Tracker γ) calls).Sound :=
  run_invariant sound_new (fun _ c h => h.step c) calls

end

end Tracker

end StreamingTts.Client.Playback
