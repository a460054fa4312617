import Mathlib
import StreamingTts.Gateway.VadCalls
import StreamingTts.Lib.Transition

/-!
# No sample is lost or doubled

Every sample that was counted is emitted, trimmed or held (`Accounts`), and what is emitted and held is a
part of the input in its order. `kept_frame` says so of a frame, whatever the state machine does with it,
and `conservation` of the processor, for any sequence of chunks and discards and the flush behind it.
-/

namespace StreamingTts.Gateway.Vad

open StreamingTts.Lib

variable {ε : Type} {δ : Type} {κ : Type} {β : Type}

/-! ## The books of a gate -/

namespace Gate

/-- The samples `loose` are in no buffer but the lookback is before them, and all others that were heard
are emitted or trimmed. -/
structure Accounts (heard loose : List β) (g : Gate β δ) : Prop where
  total : g.metrics.originalAudioSamples = g.metrics.effectiveAudioSamples
    + g.metrics.prefixTrimmedSamples + g.metrics.tailTrimmedSamples + g.margin.length + loose.length
  emitted : g.emitted.length = g.metrics.effectiveAudioSamples
  order : (g.emitted ++ (g.margin ++ loose)).Sublist heard

/-- Between two frames the candidates of an onset are loose, and nothing is held in speech. -/
structure Kept (heard : List β) (g : Gate β δ) : Prop where
  accounts : g.Accounts heard g.onset.flatten
  speech : g.state = .speech → g.margin = [] ∧ g.onset = []

variable {config : Config κ} {d : Detector δ κ} {g : Gate β δ} {heard loose block : List β}

theorem trim_fields (g : Gate β δ) (n : Nat) :
    (g.trim n).margin = g.margin ∧ (g.trim n).emitted = g.emitted ∧ (g.trim n).onset = g.onset ∧
      (g.trim n).state = g.state ∧
      (g.trim n).metrics.originalAudioSamples = g.metrics.originalAudioSamples ∧
      (g.trim n).metrics.effectiveAudioSamples = g.metrics.effectiveAudioSamples ∧
      (g.trim n).metrics.prefixTrimmedSamples + (g.trim n).metrics.tailTrimmedSamples
        = g.metrics.prefixTrimmedSamples + g.metrics.tailTrimmedSamples + n := by
  unfold trim
  split
  · exact ⟨rfl, rfl, rfl, rfl, rfl, rfl, (Nat.add_assoc _ _ _).symm⟩
  · exact ⟨rfl, rfl, rfl, rfl, rfl, rfl, Nat.add_right_comm _ _ _⟩

/-- A block that is dropped. -/
theorem Accounts.trim (h : g.Accounts heard (block ++ loose)) :
    (g.trim block.length).Accounts heard loose := by
  obtain ⟨hmargin, hemitted, -, -, horiginal, heffective, htrimmed⟩ := trim_fields g block.length
  have htotal := h.total
  rw [List.length_append] at htotal
  refine ⟨by rw [horiginal, heffective, hmargin]; omega, by rw [hemitted, heffective, h.emitted], ?_⟩
  rw [hemitted, hmargin]
  exact ((List.Sublist.refl _).append
    ((List.Sublist.refl _).append (List.sublist_append_right _ _))).trans h.order

/-- The lookback is dropped. -/
theorem Accounts.trimMargin (h : g.Accounts heard loose) :
    Accounts heard loose { g.trim g.margin.length with margin := [] } := by
  obtain ⟨-, hemitted, -, -, horiginal, heffective, htrimmed⟩ := trim_fields g g.margin.length
  have htotal := h.total
  refine ⟨?_, hemitted ▸ heffective ▸ h.emitted, ?_⟩
  · simp only [List.length_nil]
    rw [horiginal, heffective]
    omega
  · rw [hemitted, List.nil_append]
    exact ((List.Sublist.refl _).append (List.sublist_append_right _ _)).trans h.order

/-- A block that goes into the lookback. -/
theorem Accounts.retain (h : g.Accounts heard (block ++ loose)) :
    (g.retain config block).Accounts heard loose := by
  have htotal := h.total
  have horder := h.order
  rw [List.length_append] at htotal
  unfold Gate.retain
  by_cases hnil : block = []
  · subst hnil
    rw [if_pos rfl]
    exact h
  rw [if_neg hnil]
  by_cases hmargin : config.marginSamples = 0
  · rw [if_pos hmargin]
    exact h.trim
  rw [if_neg hmargin]
  simp only
  by_cases hexcess : config.marginSamples < (g.margin ++ block).length
  · rw [if_pos hexcess]
    rw [List.length_append] at hexcess
    generalize hn : (g.margin ++ block).length - config.marginSamples = n
    rw [List.length_append] at hn
    obtain ⟨hmargin', hemitted, -, -, horiginal, heffective, htrimmed⟩ :=
      trim_fields { g with margin := (g.margin ++ block).drop n } n
    refine ⟨?_, by rw [hemitted, heffective]; exact h.emitted, ?_⟩
    · rw [horiginal, heffective, hmargin']
      simp only [List.length_drop, List.length_append] at htrimmed ⊢
      omega
    · rw [hemitted, hmargin']
      refine List.Sublist.trans ?_ horder
      rw [← List.append_assoc g.margin]
      exact (List.Sublist.refl _).append ((List.drop_sublist _ _).append (List.Sublist.refl _))
  · rw [if_neg hexcess]
    refine ⟨?_, h.emitted, ?_⟩
    · simp only [List.length_append]
      omega
    · simp only [List.append_assoc]
      exact horder

/-- Blocks that are taken one by one, if one is. -/
theorem Accounts.foldl {t : Gate β δ → List β → Gate β δ} {P : Gate β δ → Prop}
    (ht : ∀ (g : Gate β δ) (block loose : List β), P g → g.Accounts heard (block ++ loose) →
      P (t g block) ∧ (t g block).Accounts heard loose)
    {blocks : List (List β)} (hP : P g) (h : g.Accounts heard (blocks.flatten ++ loose)) :
    P (blocks.foldl t g) ∧ (blocks.foldl t g).Accounts heard loose := by
  induction blocks generalizing g with
  | nil => exact ⟨hP, h⟩
  | cons block blocks ih =>
      rw [List.flatten_cons, List.append_assoc] at h
      obtain ⟨hP', h'⟩ := ht g block _ hP h
      exact ih hP' h'

/-- A block that is emitted, nothing being before it in the lookback. -/
theorem Accounts.emit (hmargin : g.margin = []) (h : g.Accounts heard (block ++ loose)) :
    (g.emit block).Accounts heard loose := by
  have htotal := h.total
  have horder := h.order
  rw [List.length_append] at htotal
  rw [hmargin, List.nil_append, ← List.append_assoc] at horder
  refine ⟨?_, ?_, ?_⟩
  · unfold Gate.emit
    simp only
    omega
  · unfold Gate.emit
    rw [List.length_append, h.emitted]
  · show ((g.emitted ++ block) ++ (g.margin ++ loose)).Sublist heard
    rw [hmargin]
    exact horder

/-- The lookback is emitted. -/
theorem Accounts.emitMargin (h : g.Accounts heard loose) :
    g.emitMargin.margin = [] ∧ g.emitMargin.Accounts heard loose := by
  unfold Gate.emitMargin
  by_cases hmargin : g.margin = []
  · rw [if_pos hmargin]
    exact ⟨hmargin, h⟩
  rw [if_neg hmargin]
  have htotal := h.total
  refine ⟨rfl, ?_, ?_, ?_⟩
  · unfold Gate.emit
    simp only [List.length_nil]
    omega
  · unfold Gate.emit
    simp only
    rw [List.length_append, h.emitted]
  · show ((g.emitted ++ g.margin) ++ ([] ++ loose)).Sublist heard
    rw [List.nil_append, List.append_assoc]
    exact h.order

theorem emitMargin_onset (g : Gate β δ) : g.emitMargin.onset = g.onset := by
  unfold emitMargin
  split <;> rfl

/-! ## A frame -/

theorem retain_fields (config : Config κ) (g : Gate β δ) (block : List β) :
    (g.retain config block).onset = g.onset ∧ (g.retain config block).state = g.state := by
  unfold retain
  split
  · exact ⟨rfl, rfl⟩
  split
  · exact ⟨(trim_fields g _).2.2.1, (trim_fields g _).2.2.2.1⟩
  simp only
  split
  · exact ⟨(trim_fields _ _).2.2.1, (trim_fields _ _).2.2.2.1⟩
  · exact ⟨rfl, rfl⟩

/-- A block in silence. -/
theorem kept_hear (config : Config κ) (h : g.Accounts heard (g.onset.flatten ++ block))
    (reaches : Bool) :
    (g.hear config reaches block).Accounts heard (g.hear config reaches block).onset.flatten ∧
      (g.hear config reaches block).state = g.state := by
  cases reaches with
  | true =>
      have hflat : (g.onset ++ [block]).flatten = g.onset.flatten ++ block := by
        rw [List.flatten_append, List.flatten_singleton]
      show Accounts heard (g.onset ++ [block]).flatten
        { g with beginCounter := g.beginCounter + 1, onset := g.onset ++ [block] } ∧ _
      rw [hflat]
      exact ⟨⟨h.total, h.emitted, h.order⟩, rfl⟩
  | false =>
      obtain ⟨hstate, hfold⟩ := Accounts.foldl (P := fun q => q.state = g.state)
        (t := Gate.retain config)
        (fun q block loose hq h => ⟨(retain_fields config q block).2.trans hq, h.retain⟩) rfl h
      have hcleared : Accounts heard (block ++ [])
          { g.onset.foldl (Gate.retain config) g with onset := [], beginCounter := 0 } := by
        rw [List.append_nil]
        exact ⟨hfold.total, hfold.emitted, hfold.order⟩
      obtain ⟨honset, hkept⟩ := retain_fields config
        { g.onset.foldl (Gate.retain config) g with onset := [], beginCounter := 0 } block
      have hempty : (g.hear config false block).onset = [] := honset
      rw [hempty]
      exact ⟨hcleared.retain, hkept.trans hstate⟩

/-- The onset is confirmed. -/
theorem kept_beginSpeech (h : g.Accounts heard g.onset.flatten) : g.beginSpeech.Kept heard := by
  have hstarted : Accounts heard g.onset.flatten { g with
      state := .speech, endCounter := 0, beginCounter := 0
      metrics.beginTriggerCount := g.metrics.beginTriggerCount + 1 } :=
    ⟨h.total, h.emitted, h.order⟩
  obtain ⟨hmargin, hemptied⟩ := hstarted.emitMargin
  have hopen : ∀ q : Gate β δ, q.margin = [] → q.onset = g.onset →
      q.Accounts heard g.onset.flatten →
      let opened := { q with metrics.firstEffectiveAudioFound := true }
      Kept heard { opened.onset.foldl Gate.emit opened with onset := [] } := by
    intro q hq honset hacc opened
    have hopened : Accounts heard (opened.onset.flatten ++ []) opened := by
      rw [List.append_nil, show opened.onset = g.onset from honset]
      exact ⟨hacc.total, hacc.emitted, hacc.order⟩
    obtain ⟨hmargin, hdone⟩ := Accounts.foldl (g := opened) (P := fun g => g.margin = [])
      (t := Gate.emit) (fun g block loose hmargin h => ⟨hmargin, h.emit hmargin⟩) hq hopened
    exact ⟨⟨hdone.total, hdone.emitted, hdone.order⟩, fun _ => ⟨hmargin, rfl⟩⟩
  exact hopen _ hmargin (emitMargin_onset _) hemptied

/-- A scored block in silence. -/
theorem kept_listen (config : Config κ) (h : g.Accounts heard (g.onset.flatten ++ block))
    (hstate : g.state = .silence) (score : κ) : (g.listen config score block).Kept heard := by
  obtain ⟨hheard, hkept⟩ := kept_hear config h (config.reachesBegin score)
  unfold listen
  simp only
  split
  · exact kept_beginSpeech hheard
  · refine ⟨hheard, fun hspeech => ?_⟩
    rw [hkept, hstate] at hspeech
    cases hspeech

/-- Nothing is held. -/
theorem Accounts.kept_of_nothing (h : g.Accounts heard []) (hmargin : g.margin = [])
    (honset : g.onset = []) : Kept heard { g with margin := [] } := by
  refine ⟨⟨?_, h.emitted, ?_⟩, fun _ => ⟨rfl, honset⟩⟩
  · have htotal := h.total
    rw [hmargin] at htotal
    simp only [honset, List.flatten_nil]
    exact htotal
  · have horder := h.order
    rw [hmargin] at horder
    simp only [honset, List.flatten_nil]
    exact horder

/-- A scored block in speech, where nothing is held. -/
theorem kept_follow (config : Config κ) (h : g.Accounts heard block) (hmargin : g.margin = [])
    (honset : g.onset = []) (score : κ) : (g.follow config score block).Kept heard := by
  have hturn : ∀ counter : Int,
      (if config.endCount ≤ counter then Gate.endSpeech { g with endCounter := counter } block
        else Gate.emit { g with endCounter := counter } block).Kept heard := by
    intro counter
    by_cases hend : config.endCount ≤ counter
    · rw [if_pos hend]
      have hended : Accounts heard (block ++ []) { g with
          state := .silence, beginCounter := 0, endCounter := 0
          metrics.endTriggerCount := g.metrics.endTriggerCount + 1 } := by
        rw [List.append_nil]
        exact ⟨h.total, h.emitted, h.order⟩
      obtain ⟨hmargin', -, honset', -⟩ := trim_fields { g with
          state := .silence, beginCounter := 0, endCounter := 0
          metrics.endTriggerCount := g.metrics.endTriggerCount + 1 } block.length
      exact Accounts.kept_of_nothing hended.trim (hmargin'.trans hmargin) (honset'.trans honset)
    · rw [if_neg hend]
      have hemitted : (Gate.emit { g with endCounter := counter } block).Accounts heard [] :=
        Accounts.emit hmargin (by rw [List.append_nil]; exact ⟨h.total, h.emitted, h.order⟩)
      have hempty : (Gate.emit { g with endCounter := counter } block).onset = [] := honset
      refine ⟨?_, fun _ => ⟨hmargin, honset⟩⟩
      rw [hempty]
      exact hemitted
  exact hturn _

/-- A frame, whatever its score: it is counted, and moved. -/
theorem kept_frame (config : Config κ) (d : Detector δ κ) (h : g.Kept heard) (scored : List Int16)
    (block : List β) : (g.frame config d scored block).Kept (heard ++ block) := by
  have htotal := h.accounts.total
  have hcounted : ∀ detector : δ, Accounts (heard ++ block) (g.onset.flatten ++ block)
      { g.count block.length with detector := detector } := by
    intro detector
    refine ⟨?_, h.accounts.emitted, ?_⟩
    · unfold count
      simp only [List.length_append]
      omega
    · have horder := h.accounts.order.append (List.Sublist.refl block)
      rw [List.append_assoc, List.append_assoc] at horder
      exact horder
  unfold frame judge
  simp only
  split
  · next hsilence =>
    exact kept_listen (g := { g.count block.length with
      detector := (d.scoreFrame g.detector scored).2 }) config (hcounted _) hsilence _
  · next hspeech =>
    obtain ⟨hmargin, honset⟩ := h.speech hspeech
    have hloose := hcounted (d.scoreFrame g.detector scored).2
    rw [honset] at hloose
    exact kept_follow (g := { g.count block.length with
      detector := (d.scoreFrame g.detector scored).2 }) config hloose hmargin honset _

/-- The frames of a list of samples. -/
theorem kept_frames (config : Config κ) (d : Detector δ κ) (n : Nat) {g : Gate Int16 δ}
    {heard : List Int16} (h : g.Kept heard) (l : List Int16) :
    (frames (bare : Reading ε Int16) config d n g l).Kept
      (heard ++ l.take (n * config.frameSamples)) := by
  induction n generalizing g heard l with
  | zero =>
      rw [Nat.zero_mul, List.take_zero, List.append_nil]
      exact h
  | succ n ih =>
      have hframe := kept_frame config d h ((l.take config.frameSamples).map fun x => x)
        (l.take config.frameSamples)
      have hrest := ih hframe (l.drop config.frameSamples)
      rw [List.append_assoc, ← List.take_add, Nat.add_comm, ← Nat.succ_mul] at hrest
      exact hrest

/-- The last frame, which the padding is no part of. -/
theorem kept_lastFrame (config : Config κ) (d : Detector δ κ) {g : Gate Int16 δ} {heard : List Int16}
    (h : g.Kept heard) (l : List Int16) :
    (g.lastFrame (bare : Reading ε Int16) config d l).Kept (heard ++ l) := by
  unfold lastFrame
  by_cases hnil : l = []
  · rw [if_pos hnil, hnil, List.append_nil]
    exact h
  · rw [if_neg hnil]
    exact kept_frame config d h _ _

/-- What is held in silence is trimmed. -/
theorem accounts_trimHeld (h : g.Accounts heard g.onset.flatten) :
    g.trimHeld.Accounts heard [] ∧ g.trimHeld.margin = [] ∧ g.trimHeld.emitted = g.emitted := by
  have hloose : ∀ q : Gate β δ, q.margin = [] → q.onset = g.onset → q.emitted = g.emitted →
      q.Accounts heard (g.onset.flatten ++ []) →
      let done := q.onset.foldl (fun g block => g.trim block.length) q
      Accounts heard [] { done with onset := [] } ∧ done.margin = [] ∧ done.emitted = g.emitted := by
    intro q hmargin honset hemitted hacc done
    obtain ⟨⟨hmargin', hemitted'⟩, hdone⟩ := Accounts.foldl
      (P := fun q => q.margin = [] ∧ q.emitted = g.emitted)
      (t := fun g block => g.trim block.length)
      (fun q block loose hq h => ⟨⟨(trim_fields q _).1.trans hq.1,
        (trim_fields q _).2.1.trans hq.2⟩, h.trim⟩) ⟨hmargin, hemitted⟩ hacc
    rw [← honset] at hmargin' hemitted' hdone
    exact ⟨⟨hdone.total, hdone.emitted, hdone.order⟩, hmargin', hemitted'⟩
  have htrimmed := h.trimMargin
  rw [← List.append_nil g.onset.flatten] at htrimmed
  exact hloose _ rfl (trim_fields g g.margin.length).2.2.1 (trim_fields g g.margin.length).2.1
    htrimmed

/-- What is held when the stream ends: it is trimmed in silence, and in speech there is nothing. -/
theorem kept_close (h : g.Kept heard) :
    g.close.Kept heard ∧ g.close.margin = [] ∧ g.close.onset = [] := by
  have hsettled : g.settle.Accounts heard [] ∧ g.settle.margin = [] := by
    unfold settle
    split
    · exact ⟨(accounts_trimHeld h.accounts).1, (accounts_trimHeld h.accounts).2.1⟩
    · next hspeech =>
      obtain ⟨hmargin, honset⟩ := h.speech hspeech
      have haccounts := h.accounts
      rw [honset] at haccounts
      unfold emitMargin
      rw [if_pos hmargin]
      exact ⟨haccounts, hmargin⟩
  refine ⟨⟨?_, fun hspeech => by cases hspeech⟩, hsettled.2, rfl⟩
  exact ⟨hsettled.1.total, hsettled.1.emitted, hsettled.1.order⟩

theorem foldl_trim_margin (blocks : List (List β)) (g : Gate β δ) :
    (blocks.foldl (fun g block => g.trim block.length) { g with margin := [] })
      = { blocks.foldl (fun g block => g.trim block.length) g with margin := [] } := by
  induction blocks generalizing g with
  | nil => rfl
  | cons block blocks ih =>
      have hturn : Gate.trim { g with margin := [] } block.length
          = { g.trim block.length with margin := [] } := by
        unfold trim
        simp only
        split <;> rfl
      rw [List.foldl_cons, hturn, ih, List.foldl_cons]

/-- A discard drops what is held, and so many samples of which the gate has not heard. -/
theorem kept_discard (d : Detector δ κ) (h : g.Kept heard) (rest : List β) :
    (g.discard d rest.length).Kept (heard ++ rest) := by
  have hrest : (g.trimRest rest.length).Accounts (heard ++ rest) (g.trimRest rest.length).onset.flatten
      ∧ (g.trimRest rest.length).emitted = g.emitted := by
    unfold trimRest
    by_cases hnil : rest.length = 0
    · rw [if_pos hnil, List.length_eq_zero_iff.1 hnil, List.append_nil]
      exact ⟨h.accounts, rfl⟩
    rw [if_neg hnil]
    obtain ⟨hmargin, hemitted, honset, -, horiginal, heffective, htrimmed⟩ :=
      trim_fields (g.count rest.length) rest.length
    have htotal := h.accounts.total
    have hcount : (g.count rest.length).metrics.originalAudioSamples
      = g.metrics.originalAudioSamples + rest.length := rfl
    refine ⟨⟨?_, ?_, ?_⟩, hemitted⟩
    · rw [horiginal, heffective, hmargin, honset, hcount]
      simp only [count] at htrimmed ⊢
      omega
    · rw [hemitted, heffective]
      exact h.accounts.emitted
    · rw [hemitted, hmargin, honset]
      exact h.accounts.order.trans (List.sublist_append_left _ _)
  obtain ⟨hacc, hemitted⟩ := hrest
  obtain ⟨hheld, hmargin, hheldEmitted⟩ := accounts_trimHeld hacc
  -- the discard leaves the lookback in place while it trims the candidates
  have hmetrics : (g.discard d rest.length).metrics = (g.trimRest rest.length).trimHeld.metrics := by
    unfold discard trimHeld
    simp only
    rw [foldl_trim_margin]
  have htotal := hheld.total
  have horder := hheld.order
  have hemittedLen := hheld.emitted
  rw [hmargin] at htotal horder
  rw [hheldEmitted, hemitted] at horder hemittedLen
  refine ⟨⟨?_, ?_, horder⟩, fun hspeech => by cases hspeech⟩
  · rw [hmetrics]
    exact htotal
  · rw [hmetrics]
    exact hemittedLen

end Gate

/-! ## The processor -/

/-- What the gateway calls before the flush. -/
inductive Call (ε : Type)
  | chunk (samples : AttributedSamples ε)
  | discard

namespace TTSVADProcessor

variable (config : Config κ) (d : Detector δ κ)

/-- A call: the processor after it, and what it returns. -/
def call (p : TTSVADProcessor ε δ) : Call ε → TTSVADProcessor ε δ × List (AttributedSamples ε)
  | .chunk samples =>
      ((p.processAttributedChunk config d samples).2,
        [(p.processAttributedChunk config d samples).1])
  | .discard => (p.discardPending d, [])

/-- The processor after the calls. -/
def calls (p : TTSVADProcessor ε δ) (cs : List (Call ε)) : TTSVADProcessor ε δ :=
  run (fun p c => (call config d p c).1) p cs

/-- The samples that the calls returned. -/
def returned (p : TTSVADProcessor ε δ) (cs : List (Call ε)) : List Int16 :=
  (outputs (call config d) p cs).flatMap (·.samples)

/-- The samples of a call. -/
def fed : Call ε → List Int16
  | .chunk samples => samples.samples
  | .discard => []

/-- The books of a processor that was fed `total` and returned `out`. -/
structure Conserved (total out : List Int16) (p : TTSVADProcessor ε δ) : Prop where
  original : p.metrics.originalAudioSamples = p.metrics.effectiveAudioSamples
    + p.metrics.prefixTrimmedSamples + p.metrics.tailTrimmedSamples
    + (p.margin.samples.length + (p.beginBuffer.map (·.samples.length)).sum)
  processed : (p.processedInputSamples : Int) = total.length - p.input.samples.length
  effective : out.length = p.metrics.effectiveAudioSamples
  order : out.Sublist total

/-- Nothing is held. -/
def HoldsNothing (p : TTSVADProcessor ε δ) : Prop :=
  p.input.samples = [] ∧ p.margin.samples = [] ∧ p.emitBuffer = [] ∧ p.beginBuffer = []

section
variable {config : Config κ} {d : Detector δ κ} {p : TTSVADProcessor ε δ} {total o : List Int16}

/-- The invariant of the calls: what was heard is the input before the partial frame. -/
structure Books (config : Config κ) (total o : List Int16) (p : TTSVADProcessor ε δ) : Prop where
  between : p.Between bare config
  heard : ∃ heard, total = heard ++ p.input.samples ∧ p.processedInputSamples = heard.length ∧
    (p.view bare o).Kept heard
  idle : config.enabled = false → p.HoldsNothing

theorem books_new (config : Config κ) (s : δ) :
    Books config [] [] ({ detector := s } : TTSVADProcessor ε δ) := by
  refine ⟨between_new bare config s, ⟨[], rfl, rfl, ⟨?_, ?_, List.Sublist.refl _⟩, fun h => ?_⟩,
    fun _ => ⟨rfl, rfl, rfl, rfl⟩⟩
  · rfl
  · rfl
  · cases h

/-- A gate on samples that has returned `o` and has nothing to emit. -/
theorem conserved_of_kept (heard : List Int16) (h : (p.view bare o).Kept heard)
    (hemit : p.emitBuffer = []) (htotal : total = heard ++ p.input.samples)
    (hprocessed : p.processedInputSamples = heard.length) : p.Conserved total o := by
  have hemitted : (p.view bare o).emitted = o := by
    show o ++ (p.emitBuffer.map (bare : Reading ε Int16).read).flatten = o
    rw [hemit, List.map_nil, List.flatten_nil, List.append_nil]
  have honset : (p.view bare o).onset.flatten.length
      = (p.beginBuffer.map (·.samples.length)).sum := by
    show (p.beginBuffer.map fun block => block.samples).flatten.length = _
    rw [List.length_flatten, List.map_map]
    rfl
  have horiginal := h.accounts.total
  have heffective := h.accounts.emitted
  have horder := h.accounts.order
  rw [honset] at horiginal
  rw [hemitted] at heffective horder
  refine ⟨horiginal.trans (Nat.add_assoc _ _ _), ?_, heffective, ?_⟩
  · rw [hprocessed, htotal, List.length_append, Int.natCast_add, Int.add_sub_cancel]
  · rw [htotal]
    exact ((List.sublist_append_left _ _).trans horder).trans (List.sublist_append_left _ _)

theorem Books.conserved (h : Books config total o p) : p.Conserved total o := by
  obtain ⟨heard, htotal, hprocessed, hkept⟩ := h.heard
  exact conserved_of_kept heard hkept h.between.drained htotal hprocessed

/-- A chunk of a processor that is disabled passes. -/
theorem books_pass (d : Detector δ κ) (hen : config.enabled = false) (h : Books config total o p)
    (chunk : AttributedSamples ε) :
    Books config (total ++ chunk.samples)
      (o ++ (p.processAttributedChunk config d chunk).1.samples)
      (p.processAttributedChunk config d chunk).2 := by
  obtain ⟨heard, htotal, hprocessed, hkept⟩ := h.heard
  obtain ⟨hinput, hmargin, hemit, honset⟩ := h.idle hen
  unfold processAttributedChunk
  by_cases hnil : chunk.samples = []
  · rw [if_pos hnil, hnil, List.append_nil, List.append_nil]
    exact h
  rw [if_neg hnil, hen]
  simp only [Bool.not_false, if_true]
  have hok := h.between.ok
  rw [hinput, List.append_nil] at htotal
  refine ⟨⟨⟨hok.margin, hok.emitted, hok.onset, rfl⟩, hemit, h.between.held, h.between.short⟩,
    ⟨heard ++ chunk.samples, ?_, ?_, ⟨?_, ?_, ?_⟩, ?_⟩, fun _ => ⟨hinput, hmargin, hemit, honset⟩⟩
  · rw [hinput, List.append_nil, htotal]
  · simp only
    rw [hprocessed, List.length_append]
  · have := hkept.accounts.total
    simp only [view] at this ⊢
    omega
  · have := hkept.accounts.emitted
    simp only [view, hemit, List.map_nil, List.flatten_nil, List.append_nil,
      List.length_append] at this ⊢
    omega
  · have horder := hkept.accounts.order
    simp only [view, hemit, honset, List.map_nil, List.flatten_nil, List.append_nil] at horder ⊢
    have hread : (bare : Reading ε Int16).read p.margin = [] := hmargin
    rw [hread, List.append_nil] at horder ⊢
    exact horder.append (List.Sublist.refl _)
  · intro _
    refine ⟨hmargin, ?_⟩
    simp only [view, honset, List.map_nil]

/-- A chunk. -/
theorem books_chunk (d : Detector δ κ) (h : Books config total o p) (chunk : AttributedSamples ε) :
    Books config (total ++ chunk.samples)
      (o ++ (p.processAttributedChunk config d chunk).1.samples)
      (p.processAttributedChunk config d chunk).2 := by
  cases hen : config.enabled with
  | false => exact books_pass d hen h chunk
  | true =>
      obtain ⟨heard, htotal, hprocessed, hkept⟩ := h.heard
      obtain ⟨hbetween, hview, hrest, hcount⟩ :=
        process_view (o := o) d hen h.between (show (bare : Reading ε Int16).Held chunk from trivial)
      have hframes := @Gate.kept_frames ε _ _ config d
        ((p.input.samples ++ chunk.samples).length / config.frameSamples) _ _ hkept
        (p.input.samples ++ chunk.samples)
      refine ⟨hbetween, ⟨heard ++ (p.input.samples ++ chunk.samples).take
        ((p.input.samples ++ chunk.samples).length / config.frameSamples * config.frameSamples),
        ?_, ?_, ?_⟩, fun hdis => ?_⟩
      · have hinput : (p.processAttributedChunk config d chunk).2.input.samples
            = (p.input.samples ++ chunk.samples).drop ((p.input.samples ++ chunk.samples).length
              / config.frameSamples * config.frameSamples) := hrest
        rw [hinput, List.append_assoc, List.take_append_drop, htotal, List.append_assoc]
      · have hlen : ((p.input.samples ++ chunk.samples).take ((p.input.samples
            ++ chunk.samples).length / config.frameSamples * config.frameSamples)).length
              = (p.input.samples ++ chunk.samples).length / config.frameSamples
                * config.frameSamples := by
          rw [List.length_take, Nat.min_eq_left (Nat.div_mul_le_self _ _)]
        rw [hcount, hprocessed]
        exact (List.length_append.trans (congrArg (heard.length + ·) hlen)).symm
      · exact hview ▸ hframes
      · rw [hen] at hdis
        cases hdis

theorem books_discard (d : Detector δ κ) (h : Books config total o p) :
    Books config total o (p.discardPending d) := by
  obtain ⟨heard, htotal, hprocessed, hkept⟩ := h.heard
  obtain ⟨hbetween, hview, hinput, hcount⟩ := discard_view (o := o) d h.between
  refine ⟨hbetween, ⟨total, ?_, ?_, ?_⟩, fun _ => ⟨by rw [hinput], rfl, rfl, rfl⟩⟩
  · rw [hinput, List.append_nil]
  · rw [hcount, hprocessed, htotal, List.length_append]
  · rw [hview, htotal]
    exact Gate.kept_discard d hkept p.input.samples

/-- Any sequence of calls. -/
theorem books_calls (config : Config κ) (d : Detector δ κ) (cs : List (Call ε))
    (h : Books config total o p) :
    Books config (total ++ cs.flatMap fed) (o ++ p.returned config d cs) (p.calls config d cs) := by
  induction cs generalizing total o p with
  | nil =>
      show Books config (total ++ []) (o ++ []) p
      rwa [List.append_nil, List.append_nil]
  | cons c cs ih =>
      have hstep : Books config (total ++ fed c) (o ++ (call config d p c).2.flatMap (·.samples))
          (call config d p c).1 := by
        cases c with
        | chunk samples =>
            have := books_chunk d h samples
            show Books config (total ++ samples.samples)
              (o ++ ((p.processAttributedChunk config d samples).1.samples ++ [])) _
            rwa [List.append_nil]
        | discard =>
            show Books config (total ++ []) (o ++ []) (p.discardPending d)
            rw [List.append_nil, List.append_nil]
            exact books_discard d h
      have hrest := ih hstep
      rw [List.append_assoc, List.append_assoc] at hrest
      unfold returned calls
      rw [outputs_cons, List.flatMap_append, List.flatMap_cons]
      exact hrest

/-- The flush behind the calls. -/
theorem flush_conserved (d : Detector δ κ) (h : Books config total o p) :
    (p.flushAttributed config d).2.Conserved total (o ++ (p.flushAttributed config d).1.samples) ∧
      (p.flushAttributed config d).2.HoldsNothing := by
  obtain ⟨heard, htotal, hprocessed, hkept⟩ := h.heard
  cases hen : config.enabled with
  | false =>
      obtain ⟨hinput, hmargin, hemit, honset⟩ := h.idle hen
      unfold flushAttributed
      rw [hen]
      simp only [Bool.not_false, if_true, hinput, List.append_nil, List.length_nil, Nat.add_zero]
      rw [hinput, List.append_nil] at htotal
      refine ⟨?_, rfl, hmargin, hemit, honset⟩
      refine conserved_of_kept heard ?_ hemit (htotal.trans (List.append_nil _).symm)
        hprocessed
      exact ⟨⟨hkept.accounts.total, hkept.accounts.emitted, hkept.accounts.order⟩, hkept.speech⟩
  | true =>
      obtain ⟨hview, hinput, hemit, honset, hcount⟩ := flush_view (o := o) d hen h.between
      have hlast : ((p.view bare o).lastFrame (bare : Reading ε Int16) config d p.input.samples).Kept total := by
        rw [htotal]
        exact Gate.kept_lastFrame config d hkept p.input.samples
      obtain ⟨hclosed, hmargin, -⟩ := Gate.kept_close hlast
      have hread : (p.flushAttributed config d).2.margin.samples = [] :=
        (congrArg Gate.margin hview).trans hmargin
      refine ⟨conserved_of_kept total (hview ▸ hclosed) hemit ?_ ?_, hinput, hread, hemit,
        honset⟩
      · rw [hinput, List.append_nil]
      · rw [hcount, hprocessed, htotal, List.length_append]

/-- For every detector, configuration and sequence of chunks and discards, with the flush behind it:
every sample that was counted is emitted, trimmed or held, the count of the input stops before what is
buffered, what was returned is as much as was counted effective and a part of the input in its order, and
nothing is held after the flush. -/
theorem conservation (config : Config κ) (d : Detector δ κ) (s : δ) (cs : List (Call ε)) :
    let p := calls config d ({ detector := s } : TTSVADProcessor ε δ) cs
    let out := returned config d ({ detector := s } : TTSVADProcessor ε δ) cs
    let flushed := p.flushAttributed config d
    p.Conserved (cs.flatMap fed) out ∧
      flushed.2.Conserved (cs.flatMap fed) (out ++ flushed.1.samples) ∧ flushed.2.HoldsNothing := by
  intro p out flushed
  have hbooks := books_calls config d cs (@books_new ε _ _ config s)
  rw [List.nil_append, List.nil_append] at hbooks
  exact ⟨hbooks.conserved, flush_conserved d hbooks⟩

end

end TTSVADProcessor

end StreamingTts.Gateway.Vad
