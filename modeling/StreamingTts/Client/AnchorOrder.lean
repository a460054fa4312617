import StreamingTts.Client.AnchorSet

/-!
# Anchors in any order

`addAll` adds some anchors one after the other, and `AddsAll` says that all of them are accepted. Both
depend on the anchors and not on their order: to be accepted one after the other the anchors must be
accepted alone and be `Peers`, two by two.
-/

namespace StreamingTts.Client.Playback

open Lib

variable {γ : Type}

namespace Tracker

/-- Two anchors that one tracker can have. -/
def Peers (a b : ProgressAnchor γ) : Prop := Agrees a b ∧ a.outputSampleRate = b.outputSampleRate

theorem Peers.symm {a b : ProgressAnchor γ} (h : Peers a b) : Peers b a := ⟨h.1.symm, h.2.symm⟩

section
variable [DecidableEq γ] {t : Tracker γ} {a b : ProgressAnchor γ} {as bs : List (ProgressAnchor γ)}

/-- The tracker after some anchors. -/
def addAll (t : Tracker γ) (as : List (ProgressAnchor γ)) : Tracker γ :=
  run (fun t a => (t.addAnchor a).1) t as

/-- The anchors are accepted one after the other. -/
def AddsAll (t : Tracker γ) (as : List (ProgressAnchor γ)) : Prop :=
  Along (fun t a => (t.addAnchor a).1) (fun t a => (t.addAnchor a).2.isOk = true) t as

theorem Sound.isOk_iff (h : t.Sound) : (t.addAnchor a).2.isOk = true ↔ t.Accepts a := by
  constructor
  · intro hok
    by_contra ha
    obtain ⟨error, heq⟩ := h.addAnchor_rejected ha
    rw [heq] at hok
    cases hok
  · intro ha
    rcases h.addAnchor_accepted ha with ⟨-, heq⟩ | ⟨-, heq⟩
    · rw [heq]
      rfl
    · rw [heq]
      rfl

/-- What is accepted behind an anchor. -/
theorem Sound.accepts_after (h : t.Sound) (ha : t.Accepts a) :
    (t.addAnchor a).1.Accepts b ↔ t.Accepts b ∧ Peers a b := by
  rcases h.addAnchor_accepted ha with ⟨hmem, heq⟩ | ⟨hnew, heq⟩
  · rw [heq]
    refine ⟨fun hb => ⟨hb, (hb.agrees a hmem).symm, hb.rate _ (h.rate a hmem)⟩, fun hb => hb.1⟩
  · rw [heq]
    constructor
    · rintro ⟨hformed, hrate, hagrees⟩
      have hsame : a.outputSampleRate = b.outputSampleRate := hrate _ rfl
      have hall : ∀ x ∈ (t.insert a).anchors.values, Agrees b x := hagrees
      refine ⟨⟨hformed, fun rate hr => (ha.rate rate hr).trans hsame, fun x hx => ?_⟩, ?_, hsame⟩
      · exact hall x ((h.mem_insert hnew).2 (.inl hx))
      · exact (hall a ((h.mem_insert hnew).2 (.inr rfl))).symm
    · rintro ⟨hb, hagrees, hsame⟩
      refine ⟨hb.wellFormed, fun rate hr => ?_, fun x hx => ?_⟩
      · cases hr
        exact hsame
      · rcases (h.mem_insert hnew).1 hx with hx | rfl
        · exact hb.agrees x hx
        · exact hagrees.symm

/-- Anchors are accepted one after the other when each of them is, and any two of them are peers. -/
theorem Sound.addsAll_iff (h : t.Sound) :
    t.AddsAll as ↔ (∀ a ∈ as, t.Accepts a) ∧ as.Pairwise Peers := by
  induction as generalizing t with
  | nil => exact iff_of_true trivial ⟨fun _ h => absurd h List.not_mem_nil, .nil⟩
  | cons a as ih =>
      have hsplit : t.AddsAll (a :: as) ↔
          (t.addAnchor a).2.isOk = true ∧ (t.addAnchor a).1.AddsAll as := Iff.rfl
      rw [hsplit, h.isOk_iff, ih (h.addAnchor a), List.forall_mem_cons, List.pairwise_cons]
      constructor
      · rintro ⟨ha, hrest, hpairs⟩
        have hboth := fun b hb => (h.accepts_after ha).1 (hrest b hb)
        exact ⟨⟨ha, fun b hb => (hboth b hb).1⟩, fun b hb => (hboth b hb).2, hpairs⟩
      · rintro ⟨⟨ha, hrest⟩, hpeers, hpairs⟩
        exact ⟨ha, fun b hb => (h.accepts_after ha).2 ⟨hrest b hb, hpeers b hb⟩, hpairs⟩

/-- What anchors add to a tracker, without their order. -/
structure Grown (t : Tracker γ) (as : List (ProgressAnchor γ)) (t' : Tracker γ) : Prop where
  anchors : ∀ a, a ∈ t'.anchors.values ↔ a ∈ t.anchors.values ∨ a ∈ as
  received : ∀ stop, t'.receivedSample ≤ stop ↔
    t.receivedSample ≤ stop ∧ ∀ a ∈ as, a.outputSampleEnd ≤ stop
  rate : ∀ rate, t'.outputSampleRate = some rate ↔
    t.outputSampleRate = some rate ∨ ∃ a ∈ as, a.outputSampleRate = rate
  played : t'.playedSample = t.playedSample
  buffered : t'.bufferedSample = t.bufferedSample
  terminal : t'.terminal = t.terminal
  finalSample : t'.finalSample = t.finalSample

theorem Sound.grown_one (h : t.Sound) (ha : t.Accepts a) : Grown t [a] (t.addAnchor a).1 := by
  have hsingle : ∀ {p : ProgressAnchor γ → Prop}, (∀ x ∈ [a], p x) ↔ p a := List.forall_mem_singleton
  rcases h.addAnchor_accepted ha with ⟨hmem, heq⟩ | ⟨hnew, heq⟩
  · rw [heq]
    refine ⟨fun x => ?_, fun stop => ?_, fun rate => ?_, rfl, rfl, rfl, rfl⟩
    · rw [List.mem_singleton]
      refine ⟨.inl, ?_⟩
      rintro (hx | rfl)
      · exact hx
      · exact hmem
    · rw [hsingle]
      exact ⟨fun hle => ⟨hle, Int.le_trans (h.received a hmem) hle⟩, fun hle => hle.1⟩
    · refine ⟨.inl, ?_⟩
      rintro (hr | ⟨x, hx, rfl⟩)
      · exact hr
      · cases List.mem_singleton.1 hx
        exact h.rate _ hmem
  · rw [heq]
    refine ⟨fun x => ?_, fun stop => ?_, fun rate => ?_, rfl, rfl, rfl, rfl⟩
    · rw [List.mem_singleton]
      exact h.mem_insert hnew
    · rw [hsingle]
      exact Int.max_le
    · constructor
      · intro hr
        cases hr
        exact .inr ⟨a, List.mem_cons_self, rfl⟩
      · rintro (hr | ⟨x, hx, rfl⟩)
        · exact congrArg some (ha.rate rate hr).symm
        · cases List.mem_singleton.1 hx
          rfl

omit [DecidableEq γ] in
theorem Grown.trans {t' t'' : Tracker γ} (h : Grown t as t') (h' : Grown t' bs t'') :
    Grown t (as ++ bs) t'' := by
  refine ⟨fun x => ?_, fun stop => ?_, fun rate => ?_, h'.played.trans h.played,
    h'.buffered.trans h.buffered, h'.terminal.trans h.terminal, h'.finalSample.trans h.finalSample⟩
  · rw [h'.anchors, h.anchors, List.mem_append, or_assoc]
  · rw [h'.received, h.received, List.forall_mem_append, and_assoc]
  · rw [h'.rate, h.rate, or_assoc]
    refine or_congr_right ⟨?_, ?_⟩
    · rintro (⟨x, hx, hr⟩ | ⟨x, hx, hr⟩)
      · exact ⟨x, List.mem_append_left _ hx, hr⟩
      · exact ⟨x, List.mem_append_right _ hx, hr⟩
    · rintro ⟨x, hx, hr⟩
      rcases List.mem_append.1 hx with hx | hx
      · exact .inl ⟨x, hx, hr⟩
      · exact .inr ⟨x, hx, hr⟩

/-- All of the anchors, one after the other. -/
theorem Sound.grown (h : t.Sound) (ha : t.AddsAll as) : (t.addAll as).Sound ∧ Grown t as (t.addAll as) := by
  induction as generalizing t with
  | nil =>
      refine ⟨h, fun x => ?_, fun stop => ?_, fun rate => ?_, rfl, rfl, rfl, rfl⟩
      · rw [or_iff_left List.not_mem_nil]
        rfl
      · exact ⟨fun hle => ⟨hle, fun _ h => absurd h List.not_mem_nil⟩, fun hle => hle.1⟩
      · refine ⟨.inl, ?_⟩
        rintro (hr | ⟨x, hx, -⟩)
        · exact hr
        · exact absurd hx List.not_mem_nil
  | cons a as ih =>
      obtain ⟨hfirst, hrest⟩ := ha
      obtain ⟨hsound, hgrown⟩ := ih (h.addAnchor a) hrest
      exact ⟨hsound, (h.grown_one (h.isOk_iff.1 hfirst)).trans hgrown⟩

/-! ## The same tracker -/

/-- Two trackers that differ in nothing but the order in which their anchors came. -/
structure Same (t t' : Tracker γ) : Prop where
  ordered : t.ordered = t'.ordered
  received : t.receivedSample = t'.receivedSample
  played : t.playedSample = t'.playedSample
  buffered : t.bufferedSample = t'.bufferedSample
  terminal : t.terminal = t'.terminal
  finalSample : t.finalSample = t'.finalSample
  rate : t.outputSampleRate = t'.outputSampleRate

omit [DecidableEq γ] in
theorem Same.progress {t' : Tracker γ} (h : Same t t') : t.progress = t'.progress := by
  unfold Tracker.progress
  rw [h.ordered, h.played, h.buffered, h.terminal, h.finalSample]

omit [DecidableEq γ] in
/-- The tracker's anchors in the order of their ends. -/
theorem Sound.ordered_eq {t' : Tracker γ} (h : t.Sound) (h' : t'.Sound)
    (hmem : ∀ a, a ∈ t.anchors.values ↔ a ∈ t'.anchors.values) : t.ordered = t'.ordered := by
  have htrans : ∀ a b c : ProgressAnchor γ, endLe a b = true → endLe b c = true → endLe a c = true := by
    intro a b c hab hbc
    simp only [endLe, Bool.or_eq_true, Bool.and_eq_true, decide_eq_true_iff] at hab hbc ⊢
    omega
  have htotal : ∀ a b : ProgressAnchor γ, (endLe a b || endLe b a) = true := by
    intro a b
    simp only [endLe, Bool.or_eq_true, Bool.and_eq_true, decide_eq_true_iff]
    omega
  have hperm : t.anchors.values.Perm t'.anchors.values :=
    (List.perm_ext_iff_of_nodup (List.Nodup.of_map _ h.nodup) (List.Nodup.of_map _ h'.nodup)).2 hmem
  unfold ordered
  refine List.Perm.eq_of_pairwise (fun a b ha hb hab hba => ?_)
    (List.pairwise_mergeSort htrans htotal t.anchors.values)
    (List.pairwise_mergeSort htrans htotal t'.anchors.values)
    (((List.mergeSort_perm _ _).trans hperm).trans (List.mergeSort_perm _ _).symm)
  have ha' := (h.mem_values).1 (List.mem_mergeSort.1 ha)
  have hb' := (h.mem_values).1 ((hmem b).2 (List.mem_mergeSort.1 hb))
  simp only [endLe, Bool.or_eq_true, Bool.and_eq_true, decide_eq_true_iff] at hab hba
  have hseq : a.anchorSeq = b.anchorSeq := by omega
  rw [hseq] at ha'
  exact Option.some.inj (ha'.symm.trans hb')

omit [DecidableEq γ] in
/-- The same anchors, in two orders. -/
theorem Grown.same {t' t'' : Tracker γ} (h : Grown t as t') (h' : Grown t bs t'') (hs : t'.Sound)
    (hs' : t''.Sound) (hperm : as.Perm bs) : Same t' t'' := by
  refine ⟨hs.ordered_eq hs' fun a => ?_, ?_, h.played.trans h'.played.symm,
    h.buffered.trans h'.buffered.symm, h.terminal.trans h'.terminal.symm,
    h.finalSample.trans h'.finalSample.symm, ?_⟩
  · rw [h.anchors, h'.anchors, hperm.mem_iff]
  · have hle : ∀ stop, t'.receivedSample ≤ stop ↔ t''.receivedSample ≤ stop := by
      intro stop
      rw [h.received, h'.received]
      refine and_congr_right fun _ => ?_
      exact ⟨fun hall a ha => hall a (hperm.mem_iff.2 ha), fun hall a ha => hall a (hperm.mem_iff.1 ha)⟩
    exact le_antisymm ((hle _).2 (Int.le_refl _)) ((hle _).1 (Int.le_refl _))
  · refine Option.ext fun rate => ?_
    rw [h.rate, h'.rate]
    refine or_congr_right (exists_congr fun a => and_congr_left fun _ => hperm.mem_iff)

omit [DecidableEq γ] in
/-- Such trackers answer the same reports of the playback. -/
theorem Same.updatePlaybackProgress {t' : Tracker γ} (h : Same t t') (played : Int)
    (buffered : Option Int) :
    (t.updatePlaybackProgress played buffered).2 = (t'.updatePlaybackProgress played buffered).2 := by
  have hanswer : ∀ buffered',
      Tracker.progress { t with playedSample := played, bufferedSample := buffered' }
        = Tracker.progress { t' with playedSample := played, bufferedSample := buffered' } :=
    fun buffered' => Same.progress ⟨h.ordered, h.received, rfl, rfl, h.terminal, h.finalSample, h.rate⟩
  unfold Tracker.updatePlaybackProgress answer
  dsimp only
  rw [h.played, h.buffered, h.received]
  split_ifs
  · rfl
  · rfl
  · rfl
  · rfl
  · rfl
  · exact congrArg Except.ok (hanswer _)

end

/-- After every history of a tracker: anchors that are accepted in one order are accepted in every order,
and leave the same anchors, the same `latest` and the same answers to the reports of the playback; an anchor
that the tracker has changes nothing; and what raises, in `add_anchor` or in `update_playback_progress`,
leaves the tracker as it was. -/
theorem anchors_in_any_order [DecidableEq γ] (calls : List (Call γ)) :
    let t : Tracker γ := run Tracker.step {} calls
    (∀ as bs : List (ProgressAnchor γ), as.Perm bs → t.AddsAll as →
      t.AddsAll bs ∧ (t.addAll as).ordered = (t.addAll bs).ordered ∧
        (t.addAll as).latest = (t.addAll bs).latest ∧ ∀ played buffered,
          ((t.addAll as).updatePlaybackProgress played buffered).2
            = ((t.addAll bs).updatePlaybackProgress played buffered).2) ∧
    (∀ a ∈ t.ordered, t.addAnchor a = (t, .ok t.latest)) ∧
    (∀ a error, (t.addAnchor a).2 = .error error → (t.addAnchor a).1 = t) ∧
    ∀ played buffered error, (t.updatePlaybackProgress played buffered).2 = .error error →
      (t.updatePlaybackProgress played buffered).1 = t := by
  intro t
  have h : t.Sound := sound_run calls
  refine ⟨fun as bs hperm has => ?_, fun a ha => ?_, fun a error herror => ?_,
    fun played buffered error herror => ?_⟩
  · have hbs : t.AddsAll bs := by
      obtain ⟨heach, hpairs⟩ := h.addsAll_iff.1 has
      exact h.addsAll_iff.2 ⟨fun b hb => heach b (hperm.mem_iff.2 hb),
        (hperm.pairwise_iff Peers.symm).1 hpairs⟩
    obtain ⟨hs, hgrown⟩ := h.grown has
    obtain ⟨hs', hgrown'⟩ := h.grown hbs
    have hsame := hgrown.same hgrown' hs hs' hperm
    refine ⟨hbs, hsame.ordered, ?_, hsame.updatePlaybackProgress⟩
    rw [hs.latest, hs'.latest, hsame.progress]
  · exact h.addAnchor_again (List.mem_mergeSort.1 ha)
  · by_cases ha : t.Accepts a
    · have hok := h.isOk_iff.2 ha
      rw [herror] at hok
      cases hok
    · obtain ⟨error', heq⟩ := h.addAnchor_rejected ha
      rw [heq]
  · rcases updatePlaybackProgress_cases t played buffered with ⟨error', heq⟩ | ⟨-, -, buffered', heq⟩
    · rw [heq]
    · rw [heq] at herror
      cases herror

end Tracker

end StreamingTts.Client.Playback
