import StreamingTts.Client.CursorSeam

/-!
# The cursor of the tracker goes forward

What every call does to the seam (`Moves`), and from it what any calls do to the cursor. An anchor that
arrives late and comes to stand at the seam with others behind it (`Disturbs`) makes the interpolation start
or end somewhere else, and the estimate may go back. Every other call leaves the estimate where it was or
moves it forward, and the confirmed position never goes back.
-/

namespace StreamingTts.Client.Playback

open Lib
open Gateway.Output (Before)
open PlaybackProgressTracker (malformed)

variable {γ : Type}

namespace Tracker

section
variable {t t' : Tracker γ} {l f l' f' : Option (ProgressAnchor γ)} {a b : ProgressAnchor γ}
  {s e : ProgressAnchor γ → Int}

/-! ## The calls -/

variable [DecidableEq γ]

/-- An anchor adds itself, or nothing. -/
theorem Sound.addAnchor_moves (h : t.Sound) (a : ProgressAnchor γ) :
    (t.addAnchor a).1.playedSample = t.playedSample ∧
      ((t.addAnchor a).1.anchors = t.anchors ∨
        t.Accepts a ∧ t.anchors.get? a.anchorSeq = none ∧
          (t.addAnchor a).1.anchors = t.anchors.set a.anchorSeq a) := by
  by_cases ha : t.Accepts a
  · rcases h.addAnchor_accepted ha with ⟨-, heq⟩ | ⟨hnew, heq⟩
    · rw [heq]
      exact ⟨rfl, .inl rfl⟩
    · rw [heq]
      exact ⟨rfl, .inr ⟨ha, hnew, rfl⟩⟩
  · obtain ⟨error, heq⟩ := h.addAnchor_rejected ha
    rw [heq]
    exact ⟨rfl, .inl rfl⟩

/-- The anchor that a call brings. -/
def Call.anchor? : Call γ → Option (ProgressAnchor γ)
  | .addAnchor anchor => some anchor
  | .updatePlaybackProgress _ _ => none
  | .observeAudio _ _ _ _ (.ok anchor) => anchor
  | .observeEvent (.ok anchor) _ _ => anchor
  | _ => none

/-- The seam that `t'` has where `t` was: the playback has advanced, or an anchor has come. -/
inductive Moves (t : Tracker γ) (offered : Option (ProgressAnchor γ)) (t' : Tracker γ) : Prop
  | report (anchors : t'.anchors = t.anchors) (played : t.playedSample ≤ t'.playedSample)
  | anchor (a : ProgressAnchor γ) (offers : offered = some a) (accepted : t.Accepts a)
      (new : t.anchors.get? a.anchorSeq = none) (anchors : t'.anchors = t.anchors.set a.anchorSeq a)
      (played : t'.playedSample = t.playedSample)

omit [DecidableEq γ] in
theorem Moves.refl (t : Tracker γ) (offered : Option (ProgressAnchor γ)) : Moves t offered t :=
  .report rfl (le_refl _)

/-- What a message brings, on a tracker with the anchors of `t`. -/
theorem Sound.addMetaAnchor_moves (h' : t'.Sound) (hanchors : t'.anchors = t.anchors)
    (hplayed : t'.playedSample = t.playedSample)
    (hrate : ∀ rate, t.outputSampleRate = some rate → t'.outputSampleRate = some rate)
    (anchor : Meta γ) (requireReceived : Bool) :
    Moves t anchor.toOption.join (t'.addMetaAnchor anchor requireReceived).1 := by
  rcases addMetaAnchor_cases t' anchor requireReceived with heq | ⟨a, rfl, heq⟩
  · rw [heq]
    exact .report hanchors hplayed.ge
  · rw [heq]
    obtain ⟨hsame, hcase⟩ := h'.addAnchor_moves a
    rcases hcase with hcase | ⟨ha, hnew, hcase⟩
    · exact .report (hcase.trans hanchors) (hplayed.ge.trans hsame.ge)
    · refine .anchor a rfl ⟨ha.wellFormed, fun rate hr => ha.rate rate (hrate rate hr), ?_⟩ ?_ ?_
        (hsame.trans hplayed)
      · rw [← hanchors]
        exact ha.agrees
      · rw [← hanchors]
        exact hnew
      · rw [hcase, hanchors]

/-- The anchor of a chunk whose samples have been received, by a tracker with the anchors of `t`. -/
theorem Sound.answerAudio_moves {t' : Tracker γ} (h : t'.Sound) (stop : Int)
    (hanchors : t'.anchors = t.anchors) (hplayed : t'.playedSample = t.playedSample)
    (hrate : ∀ rate, t.outputSampleRate = some rate → t'.outputSampleRate = some rate)
    (anchor : Meta γ) :
    Moves t anchor.toOption.join (match (t'.receive stop).addMetaAnchor anchor false with
      | (t, .error error) => (t, .error error)
      | (t, .ok ()) => t.answer : Outcome γ).1 := by
  have hadd := (h.receive stop).addMetaAnchor_moves hanchors hplayed hrate anchor false
  generalize (t'.receive stop).addMetaAnchor anchor false = added at hadd ⊢
  obtain ⟨t'', error | _⟩ := added
  · exact hadd
  · cases hadd with
    | report anchors played => exact .report anchors played
    | anchor a offers accepted new anchors played => exact .anchor a offers accepted new anchors played

theorem Sound.observeAudio_moves (h : t.Sound) (start stop : Option Int) (frames : Nat) (rate : Int)
    (anchor : Meta γ) :
    Moves t anchor.toOption.join (t.observeAudio start stop frames rate anchor).1 := by
  unfold Tracker.observeAudio
  dsimp only
  split_ifs with hrange hrate
  · exact .refl _ _
  · cases hremember : t.rememberSampleRate rate .protocol with
    | error error => exact .refl _ _
    | ok t' =>
        have hsound := h.rememberSampleRate hremember
        unfold Tracker.rememberSampleRate at hremember
        cases hknown : t.outputSampleRate with
        | none =>
            rw [hknown] at hremember
            cases hremember
            refine hsound.answerAudio_moves (t := t) _ rfl rfl (fun _ hr => ?_) anchor
            rw [hknown] at hr
            cases hr
        | some known =>
            rw [hknown] at hremember
            simp only at hremember
            split_ifs at hremember
            cases hremember
            exact hsound.answerAudio_moves (t := t) _ rfl rfl (fun _ hr => hr) anchor
  · exact h.answerAudio_moves (t := t) _ rfl rfl (fun _ hr => hr) anchor

theorem Sound.observeEvent_moves (h : t.Sound) (anchor : Meta γ) (isFinal : Bool)
    (finalSample : Option Int) :
    Moves t anchor.toOption.join (t.observeEvent anchor isFinal finalSample).1 := by
  have hadd := h.addMetaAnchor_moves rfl rfl (fun _ hr => hr) anchor true
  unfold Tracker.observeEvent
  generalize t.addMetaAnchor anchor true = added at hadd ⊢
  obtain ⟨t', error | _⟩ := added
  · exact hadd
  · dsimp only
    cases hadd with
    | report anchors played =>
        split_ifs
        · exact .report anchors played
        · exact .report anchors played
    | anchor a offers accepted new anchors played =>
        split_ifs
        · exact .anchor a offers accepted new anchors played
        · exact .anchor a offers accepted new anchors played

/-- Every call moves the seam in one of the two ways. -/
theorem Sound.step_moves (h : t.Sound) (c : Call γ) : Moves t c.anchor? (t.step c) := by
  unfold Tracker.step call
  cases c with
  | addAnchor anchor =>
      obtain ⟨hplayed, hcase⟩ := h.addAnchor_moves anchor
      rcases hcase with hsame | ⟨ha, hnew, hset⟩
      · exact .report hsame hplayed.ge
      · exact .anchor anchor rfl ha hnew hset hplayed
  | updatePlaybackProgress played buffered =>
      rcases updatePlaybackProgress_cases t played buffered with ⟨error, heq⟩ | ⟨hle, -, _, heq⟩
      · dsimp only
        rw [heq]
        exact .refl _ _
      · dsimp only
        rw [heq]
        exact .report rfl hle
  | observeAudio start stop frames rate anchor =>
      have hmoves := h.observeAudio_moves start stop frames rate anchor
      cases anchor <;> exact hmoves
  | observeEvent anchor isFinal finalSample =>
      have hmoves := h.observeEvent_moves anchor isFinal finalSample
      cases anchor <;> exact hmoves

/-- The call does not bring an anchor that disturbs the seam. -/
def Undisturbed (t : Tracker γ) (c : Call γ) : Prop :=
  ∀ a, c.anchor? = some a → t.Accepts a → a ∉ t.anchors.values → ¬ t.Disturbs a

/-- One position, after a call. -/
theorem Sound.step_positions (h : t.Sound) (c : Call γ) (hp : t.Place l f)
    (hp' : (t.step c).Place l' f') (hr : t.Reads s e) (hr' : (t.step c).Reads s e) :
    confirmedPosition e l ≤ confirmedPosition e l' ∧
      (t.Undisturbed c → estimatedPosition s e t.playedSample l f
        ≤ estimatedPosition s e (t.step c).playedSample l' f') := by
  have h' := h.step c
  cases h.step_moves c with
  | report hanchors hplayed =>
      have hmem : ∀ a ∈ t.anchors.values, a ∈ (t.step c).anchors.values := fun a ha => by
        rw [hanchors]
        exact ha
      exact ⟨hp.confirmed_mono hp' hr' hmem hplayed,
        fun _ => hp.forward_report hp' h h' hr hr' hanchors hplayed⟩
  | anchor a offers accepted new hanchors hplayed =>
      have hmem : ∀ b, b ∈ (t.step c).anchors.values ↔ b ∈ t.anchors.values ∨ b = a := by
        intro b
        rw [hanchors]
        exact h.mem_insert new
      have hnew : a ∉ t.anchors.values := by
        intro ha
        rw [h.mem_values.1 ha] at new
        cases new
      exact ⟨hp.confirmed_mono hp' hr' (fun b hb => (hmem b).2 (.inl hb)) hplayed.ge,
        fun hquiet => hp.forward_anchor hp' h' hr' hplayed hmem hnew (hquiet a offers accepted hnew)⟩

end

/-! ## A whole run -/

/-- No position of the second cursor is behind the first. -/
structure NotBehind (c c' : TextCursor) : Prop where
  raw : c.rawCodepoint ≤ c'.rawCodepoint
  normalized : c.normalizedCodepoint ≤ c'.normalizedCodepoint

theorem NotBehind.refl (c : TextCursor) : NotBehind c c := ⟨le_refl _, le_refl _⟩

theorem NotBehind.trans {c c' c'' : TextCursor} (h : NotBehind c c') (h' : NotBehind c' c'') :
    NotBehind c c'' := ⟨h.raw.trans h'.raw, h.normalized.trans h'.normalized⟩

/-- The anchor comes next after the last one that is fully played. -/
def Follows (t : Tracker γ) (a : ProgressAnchor γ) : Prop :=
  ∃ l ∈ t.anchors.values, l.outputSampleEnd ≤ t.playedSample ∧
    (∀ c ∈ t.anchors.values, c.outputSampleEnd ≤ t.playedSample → c.anchorSeq ≤ l.anchorSeq) ∧
    l.anchorSeq < a.anchorSeq ∧ ∀ c ∈ t.anchors.values, l.anchorSeq < c.anchorSeq → a.anchorSeq ≤ c.anchorSeq

/-- The anchor starts at or before the played sample, or follows the last one that is fully played. -/
def Reached (t : Tracker γ) (a : ProgressAnchor γ) : Prop :=
  a ∈ t.anchors.values ∧ (a.outputSampleStart ≤ t.playedSample ∨ t.Follows a)

/-- The cursor is not behind the end of the last anchor reached, or not behind the start of the text. -/
structure Within (t : Tracker γ) (c : TextCursor) : Prop where
  reached : ∀ a, t.Reached a → (∀ b, t.Reached b → b.anchorSeq ≤ a.anchorSeq) → NotBehind c (endCursor a)
  start : (∀ a, ¬ t.Reached a) → NotBehind c {}

section
variable {t t' : Tracker γ} {l f l' f' : Option (ProgressAnchor γ)} {a b : ProgressAnchor γ}
  {s e : ProgressAnchor γ → Int}

/-- The estimate is at the start of the text, or not behind the end of an anchor that is reached. -/
theorem Place.reached (hp : t.Place l f) (h : t.Sound) :
    (∃ b, t.Reached b ∧ ∀ s e, t.Reads s e → estimatedPosition s e t.playedSample l f ≤ e b) ∨
      ∀ s e, estimatedPosition s e t.playedSample l f = 0 := by
  cases l with
  | none =>
      cases f with
      | none => exact .inr fun _ _ => rfl
      | some b =>
          by_cases hstart : b.outputSampleStart ≤ t.playedSample
          · exact .inl ⟨b, ⟨(hp.first b rfl).1, .inl hstart⟩, fun s e hr => hp.estimated_le h hr⟩
          · exact .inr fun _ _ => if_neg hstart
  | some a =>
      obtain ⟨ha, hend⟩ := hp.last a rfl
      cases f with
      | none =>
          have hwell := h.wellFormed a ha
          simp only [malformed, Bool.or_eq_false_iff, decide_eq_false_iff_not] at hwell
          exact .inl ⟨a, ⟨ha, .inl (by omega)⟩, fun s e hr => le_refl _⟩
      | some b =>
          refine .inl ⟨b, ⟨(hp.first b rfl).1, .inr ⟨a, ha, hend, fun c hc hcend => ?_,
            (hp.before h).seq, fun c hc hlt => ?_⟩⟩, fun s e hr => hp.estimated_le h hr⟩
          · obtain ⟨_, hx, hca⟩ := hp.played c hc hcend
            cases hx
            rcases hca with rfl | hca
            · exact le_refl _
            · exact le_of_lt hca.seq
          · by_cases hcend : c.outputSampleEnd ≤ t.playedSample
            · obtain ⟨_, hx, hca⟩ := hp.played c hc hcend
              cases hx
              rcases hca with rfl | hca
              · exact absurd hlt (lt_irrefl _)
              · exact absurd (lt_trans hlt hca.seq) (lt_irrefl _)
            · obtain ⟨_, hx, hbc⟩ := hp.unplayed c hc (by omega)
              cases hx
              rcases hbc with rfl | hbc
              · exact le_refl _
              · exact le_of_lt hbc.seq

/-- The end of an anchor is not behind the end of the last one reached. -/
theorem Sound.end_le_of_seq (h : t.Sound) (hr : t.Reads s e) (ha : a ∈ t.anchors.values)
    (hb : b ∈ t.anchors.values) (hle : b.anchorSeq ≤ a.anchorSeq) : e b ≤ e a := by
  rcases h.agrees b hb a ha with rfl | hbefore | hbefore
  · exact le_refl _
  · exact hr.mono b a hbefore
  · exact absurd (lt_of_lt_of_le hbefore.seq hle) (lt_irrefl _)

theorem Sound.within (h : t.Sound) : t.Within t.latest.estimated := by
  obtain ⟨l, f, hp, -, hestimated⟩ := h.progress_place
  rw [h.latest, hestimated]
  have hraw := estimatedAt_raw t.playedSample l f
  have hnormalized := estimatedAt_normalized t.playedSample l f
  rcases hp.reached h with ⟨b, hb, hle⟩ | hzero
  · refine ⟨fun a ha hlast => ?_, fun hnone => absurd hb (hnone b)⟩
    have hseq := hlast b hb
    exact ⟨hraw.le.trans ((hle _ _ h.reads_raw).trans (h.end_le_of_seq h.reads_raw ha.1 hb.1 hseq)),
      hnormalized.le.trans
        ((hle _ _ h.reads_normalized).trans (h.end_le_of_seq h.reads_normalized ha.1 hb.1 hseq))⟩
  · rw [hzero] at hraw hnormalized
    refine ⟨fun a ha _ => ?_, fun _ => ⟨hraw.le, hnormalized.le⟩⟩
    have hwellRaw := h.reads_raw.wellFormed a ha.1
    have hwellNormalized := h.reads_normalized.wellFormed a ha.1
    exact ⟨hraw.le.trans (hwellRaw.1.trans hwellRaw.2),
      hnormalized.le.trans (hwellNormalized.1.trans hwellNormalized.2)⟩

theorem Within.of_notBehind {c c' : TextCursor} (h : t.Within c') (hle : NotBehind c c') : t.Within c :=
  ⟨fun a ha hlast => hle.trans (h.reached a ha hlast), fun hnone => hle.trans (h.start hnone)⟩

/-- What is confirmed is not behind what is estimated. -/
theorem Sound.confirmed_notBehind (h : t.Sound) : NotBehind t.latest.confirmed t.latest.estimated := by
  obtain ⟨l, f, hp, hconfirmed, hestimated⟩ := h.progress_place
  rw [h.latest, hconfirmed, hestimated]
  refine ⟨?_, ?_⟩
  · rw [confirmedAt_raw, estimatedAt_raw]
    exact hp.confirmed_le h h.reads_raw
  · rw [confirmedAt_normalized, estimatedAt_normalized]
    exact hp.confirmed_le h h.reads_normalized

variable [DecidableEq γ]

/-- One call. -/
theorem Sound.step_notBehind (h : t.Sound) (c : Call γ) :
    NotBehind t.latest.confirmed (t.step c).latest.confirmed ∧
      (t.Undisturbed c → NotBehind t.latest.estimated (t.step c).latest.estimated) := by
  have h' := h.step c
  obtain ⟨l, f, hp, hconfirmed, hestimated⟩ := h.progress_place
  obtain ⟨l', f', hp', hconfirmed', hestimated'⟩ := h'.progress_place
  rw [h.latest, h'.latest, hconfirmed, hconfirmed', hestimated, hestimated']
  obtain ⟨hraw, hraw'⟩ := h.step_positions c hp hp' h.reads_raw h'.reads_raw
  obtain ⟨hnormalized, hnormalized'⟩ := h.step_positions c hp hp' h.reads_normalized h'.reads_normalized
  refine ⟨⟨?_, ?_⟩, fun hquiet => ⟨?_, ?_⟩⟩
  · rw [confirmedAt_raw, confirmedAt_raw]
    exact hraw
  · rw [confirmedAt_normalized, confirmedAt_normalized]
    exact hnormalized
  · rw [estimatedAt_raw, estimatedAt_raw]
    exact hraw' hquiet
  · rw [estimatedAt_normalized, estimatedAt_normalized]
    exact hnormalized' hquiet

/-- Some calls more. -/
theorem Sound.run_notBehind (h : t.Sound) (calls : List (Call γ)) :
    NotBehind t.latest.confirmed (run Tracker.step t calls).latest.confirmed ∧
      (Along Tracker.step Undisturbed t calls →
        NotBehind t.latest.estimated (run Tracker.step t calls).latest.estimated) := by
  induction calls generalizing t with
  | nil => exact ⟨.refl _, fun _ => .refl _⟩
  | cons c calls ih =>
      obtain ⟨hconfirmed, hestimated⟩ := h.step_notBehind c
      obtain ⟨hconfirmed', hestimated'⟩ := ih (h.step c)
      exact ⟨hconfirmed.trans hconfirmed',
        fun hquiet => (hestimated hquiet.1).trans (hestimated' hquiet.2)⟩

end

/-- **The cursor of the tracker.** After any calls and between any two of them, what is confirmed does not
go back and is not behind the estimate, neither of them is behind the last anchor reached, and the estimate
does not go back while no anchor disturbs the seam. -/
theorem latest_forward [DecidableEq γ] (calls later : List (Call γ)) :
    let t := run Tracker.step ({} : Tracker γ) calls
    let t' := run Tracker.step t later
    NotBehind t.latest.confirmed t'.latest.confirmed ∧
      NotBehind t'.latest.confirmed t'.latest.estimated ∧
      t'.Within t'.latest.confirmed ∧ t'.Within t'.latest.estimated ∧
      (Along Tracker.step Undisturbed t later → NotBehind t.latest.estimated t'.latest.estimated) := by
  dsimp only
  have h : (run Tracker.step ({} : Tracker γ) calls).Sound := sound_run calls
  have h' : (run Tracker.step (run Tracker.step ({} : Tracker γ) calls) later).Sound :=
    run_invariant h (fun _ c hs => hs.step c) later
  obtain ⟨hconfirmed, hestimated⟩ := h.run_notBehind later
  exact ⟨hconfirmed, h'.confirmed_notBehind, h'.within.of_notBehind h'.confirmed_notBehind, h'.within,
    hestimated⟩

section
variable {t : Tracker γ} {a b : ProgressAnchor γ} {l f : Option (ProgressAnchor γ)}

/-- The estimate, from a seam that is known. -/
theorem Sound.estimated_raw (h : t.Sound) (hp : t.Place l f) :
    t.latest.estimated.rawCodepoint
      = estimatedPosition (·.rawStart) (·.rawEnd) t.playedSample l f := by
  obtain ⟨l', f', hp', -, hestimated⟩ := h.progress_place
  obtain ⟨rfl, rfl⟩ := hp.unique hp'
  rw [h.latest, hestimated, estimatedAt_raw]

/-- A new anchor that is accepted. -/
theorem Sound.addAnchor_new [DecidableEq γ] (h : t.Sound) (ha : t.Accepts a)
    (hnew : t.anchors.get? a.anchorSeq = none) : t.addAnchor a = (t.insert a).answer := by
  rcases h.addAnchor_accepted ha with ⟨hmem, -⟩ | ⟨-, heq⟩
  · rw [h.mem_values.1 hmem] at hnew
    cases hnew
  · exact heq

end

/-- An anchor of ten samples of audio. -/
def tenSamples (seq start rawStart rawEnd : Int) : ProgressAnchor Unit :=
  ⟨⟨seq, start, start + 10, 24000, rawStart, rawEnd, rawStart, rawEnd⟩, ()⟩

/-- The second of three anchors arrives when its middle is played, and takes the estimate back. -/
theorem estimate_goes_back :
    let t := run Tracker.step ({} : Tracker Unit)
      [.addAnchor (tenSamples 1 0 0 10), .addAnchor (tenSamples 3 20 20 30),
        .updatePlaybackProgress 15 none]
    let after := t.call (.addAnchor (tenSamples 2 10 10 12))
    after.2 = .ok after.1.latest ∧ ¬ NotBehind t.latest.estimated after.1.latest.estimated := by
  -- the tracker after each of the calls
  let first := (insert ({} : Tracker Unit) (tenSamples 1 0 0 10)).recompute
  let second := (first.insert (tenSamples 3 20 20 30)).recompute
  let played := { second with playedSample := 15, bufferedSample := 15 }.recompute
  let last := (played.insert (tenSamples 2 10 10 12)).recompute
  have hsound : first.Sound ∧ addAnchor ({} : Tracker Unit) (tenSamples 1 0 0 10)
      = (insert ({} : Tracker Unit) (tenSamples 1 0 0 10)).answer := by
    have haccepts : Accepts ({} : Tracker Unit) (tenSamples 1 0 0 10) :=
      ⟨rfl, fun _ h => (nomatch h), fun _ h => absurd h List.not_mem_nil⟩
    exact ⟨sound_new.insert haccepts rfl, sound_new.addAnchor_new haccepts rfl⟩
  have hsound₂ : second.Sound ∧ first.addAnchor (tenSamples 3 20 20 30)
      = (first.insert (tenSamples 3 20 20 30)).answer := by
    have haccepts : first.Accepts (tenSamples 3 20 20 30) := by
      refine ⟨rfl, fun rate h => (Option.some.inj h).symm, fun b hb => ?_⟩
      obtain rfl : b = tenSamples 1 0 0 10 := List.mem_singleton.1 hb
      exact .inr (.inr (by constructor <;> decide))
    exact ⟨hsound.1.insert haccepts rfl, hsound.1.addAnchor_new haccepts rfl⟩
  have hplayed : played.Sound ∧ second.updatePlaybackProgress 15 none
      = { second with playedSample := 15, bufferedSample := 15 }.answer :=
    ⟨hsound₂.1.of_same rfl (fun _ hr => hr) (le_refl _) rfl, rfl⟩
  have hlast : last.Sound ∧ played.addAnchor (tenSamples 2 10 10 12)
      = (played.insert (tenSamples 2 10 10 12)).answer := by
    have haccepts : played.Accepts (tenSamples 2 10 10 12) := by
      refine ⟨rfl, fun rate h => (Option.some.inj h).symm, fun b hb => ?_⟩
      have hb' : b ∈ [tenSamples 1 0 0 10, tenSamples 3 20 20 30] := hb
      rcases List.mem_cons.1 hb' with rfl | hb'
      · exact .inr (.inr (by constructor <;> decide))
      · obtain rfl := List.mem_singleton.1 hb'
        exact .inr (.inl (by constructor <;> decide))
    exact ⟨hplayed.1.insert haccepts rfl, hplayed.1.addAnchor_new haccepts rfl⟩
  have hrun : run Tracker.step ({} : Tracker Unit)
      [.addAnchor (tenSamples 1 0 0 10), .addAnchor (tenSamples 3 20 20 30),
        .updatePlaybackProgress 15 none] = played := by
    simp only [run_cons, run_nil, Tracker.step, call, hsound.2]
    change (updatePlaybackProgress (first.addAnchor (tenSamples 3 20 20 30)).1 15 none).1 = played
    rw [hsound₂.2]
    change (second.updatePlaybackProgress 15 none).1 = played
    rw [hplayed.2]
    rfl
  -- the seam before and after the last one
  have hbefore : played.Place (some (tenSamples 1 0 0 10)) (some (tenSamples 3 20 20 30)) := by
    have hvalues : played.anchors.values = [tenSamples 1 0 0 10, tenSamples 3 20 20 30] := rfl
    have hsample : played.playedSample = 15 := rfl
    constructor <;> rw [hvalues, hsample] <;> simp [tenSamples]
  have hafter : last.Place (some (tenSamples 1 0 0 10)) (some (tenSamples 2 10 10 12)) := by
    have hvalues : last.anchors.values =
      [tenSamples 1 0 0 10, tenSamples 3 20 20 30, tenSamples 2 10 10 12] := rfl
    have hsample : last.playedSample = 15 := rfl
    have horder : Before (tenSamples 2 10 10 12).toTextProgressAnchor
        (tenSamples 3 20 20 30).toTextProgressAnchor := by
      constructor <;> decide
    constructor <;> rw [hvalues, hsample] <;> simp [tenSamples]
    exact horder
  rw [hrun]
  change (played.addAnchor (tenSamples 2 10 10 12)).2 = .ok (played.addAnchor _).1.latest ∧
    ¬ NotBehind played.latest.estimated (played.addAnchor (tenSamples 2 10 10 12)).1.latest.estimated
  rw [hlast.2]
  refine ⟨rfl, fun hle => ?_⟩
  have hraw : played.latest.estimated.rawCodepoint ≤ last.latest.estimated.rawCodepoint := hle.raw
  rw [hplayed.1.estimated_raw hbefore, hlast.1.estimated_raw hafter] at hraw
  have hback : ¬ interpolate 10 30 (playedRatio 15 10 30) ≤ interpolate 10 12 (playedRatio 15 10 20) := by
    decide +kernel
  exact hback hraw

end Tracker

end StreamingTts.Client.Playback
