import StreamingTts.Lib.Transition
import StreamingTts.Frontend.ScanRules

/-!
# The calls of the committer keep the invariant

Between two calls everything in the outbox has been returned and the whole source has been scanned
(`Settled`). `step_settled` is one call, and `run_settled` a history of calls whose packets meet the
condition of the characters. A final packet leaves nothing uncommitted (`feed_final`).
-/

namespace StreamingTts.Frontend

namespace Committer

open Lib (Along outputs)

variable {F : Type}

/-- The state between two calls, behind the commits they returned. -/
structure Settled (e : Env F) (exact : Prop) (skip : Text → Nat → Prop) (past : List TextCommit)
    (c : Committer F) : Prop where
  inv : Inv e.u exact skip past c c.raw.length
  outbox : c.outbox = []
  disabled : e.config.enabled = false →
    c.Closed ∧ c.plainBuffer = [] ∧ c.terminatorBuffer = [] ∧ c.inlineHashGap = false

section
variable {e : Env F} {exact : Prop} {skip : Text → Nat → Prop} {past : List TextCommit}
  {c : Committer F} {pos : Nat}

/-- A new committer has scanned the empty source. -/
theorem new_settled [Zero F] (e : Env F) (exact : Prop) (skip : Text → Nat → Prop) :
    Settled e exact skip [] (new e) := by
  refine ⟨⟨⟨.nil, ⟨rfl, rfl, rfl⟩, fun h => absurd rfl h, rfl, fun h => absurd rfl h,
    fun h => absurd rfl h, .inl rfl, fun h => absurd rfl h⟩, fun h => absurd rfl h,
    .of_markdown_eq rfl rfl (fun _ _ => rfl) (fun h => (by cases h)), List.nil_prefix,
    fun h => (by cases h)⟩, rfl, fun _ => ⟨rfl, rfl, rfl, rfl⟩⟩

/-- The outbox is returned. -/
theorem Inv.release (h : Inv e.u exact skip past c pos)
    (limitFallback finalized lateExtension : Bool) (lateExtensionAnchor : Option Nat) :
    Inv e.u exact skip (past ++ c.outbox) { c with
      outbox := [], limitFallback, finalized, lateExtension, lateExtensionAnchor } pos := by
  have hcore := h.core
  refine ⟨⟨?_, ?_, hcore.stop, hcore.gapAt, hcore.gapOpen, hcore.alone, hcore.single, hcore.plainReach⟩,
    h.reach, ⟨h.flags.solo, h.flags.kind, h.flags.opener, h.flags.image, h.flags.line, h.flags.ordered,
      h.flags.bang, h.flags.paren, h.flags.decimal⟩, h.text, h.hash⟩
  · have htiles := hcore.tiles
    have hlayout : layout (past ++ c.outbox) ({ c with
        outbox := [], limitFallback, finalized, lateExtension, lateExtensionAnchor } : Committer F) =
        layout past c := by
      simp [layout, tail, gapText]
    rw [hlayout]
    exact htiles
  · simpa using hcore.numbered

/-- The hints of a packet are not part of the layout. -/
theorem alike_withMetadata (c : Committer F) (metadata : TextInputMetadata) :
    Alike c (c.withMetadata metadata) := by
  unfold withMetadata
  dsimp only
  generalize (if metadata.languageHint = .unknown then none else some metadata.languageHint) = hint
  split
  · exact ⟨rfl, rfl, rfl, rfl, rfl, rfl, rfl, rfl, rfl, rfl, rfl, rfl, rfl, rfl, rfl, rfl⟩
  · exact ⟨rfl, rfl, rfl, rfl, rfl, rfl, rfl, rfl, rfl, rfl, rfl, rfl, rfl, rfl, rfl, rfl⟩

/-- An inline hash stays one when the source grows. -/
theorem InlineHash.grow {u : UnicodeData} {src : Text} {i : Nat} (h : InlineHash u src i) (more : Text) :
    InlineHash u (src ++ more) i := by
  obtain ⟨hlex, hline⟩ := h
  have hlt : i < src.length := by
    by_contra hge
    rw [List.getElem?_eq_none (by omega)] at hlex
    cases hlex
  refine ⟨by rw [List.getElem?_append_left hlt]; exact hlex, ?_⟩
  unfold atLineStart
  rw [List.take_append_of_le_length (by omega)]
  exact hline

/-- The text of a packet joins the source. -/
theorem Inv.accept (hskip : Skips e.u skip) (h : Inv e.u exact skip past c pos) (text : Text) :
    Inv e.u exact skip past (c.accept text) pos := by
  have hcore := h.core
  have hwithin := hcore.tiles.within
  refine ⟨⟨hcore.tiles.source text fun i hi hs => hskip.grow text (by omega) hs, hcore.numbered,
    hcore.stop, hcore.gapAt, hcore.gapOpen, hcore.alone, hcore.single, hcore.plainReach⟩, h.reach,
    ⟨h.flags.solo, h.flags.kind, h.flags.opener, h.flags.image, h.flags.line, h.flags.ordered,
      h.flags.bang, h.flags.paren, h.flags.decimal⟩, ?_, ?_⟩
  · refine h.text.trans ?_
    show c.raw.drop c.pending.start <+: (c.raw ++ text).drop c.pending.start
    rw [List.drop_append]
    exact List.prefix_append _ _
  · intro hh
    obtain ⟨h₁, h₂, h₃, h₄⟩ := h.hash hh
    exact ⟨h₁, h₂.grow text, h₃, h₄⟩

end

section
variable [Zero F] [Sub F] [LT F] [DecidableLT F] {e : Env F} {exact cover : Prop}
  {skip : Text → Nat → Prop} {past : List TextCommit} {c : Committer F} {pos : Nat}

/-- A close outside the loop keeps the invariant, whatever the reason. -/
theorem Inv.closed (h : Inv e.u exact skip past c pos) (reason : CloseReason) :
    Inv e.u exact skip past (closePending e c reason) pos ∧ (closePending e c reason).raw = c.raw := by
  rcases Classical.em c.Closed with hc | hc
  · rw [closePending_of_closed hc]
    exact ⟨h, rfl⟩
  · have hclose := h.close hc e reason
    have hash : c.inlineHashGap = false := Bool.eq_false_iff.2 fun hh => hc (h.hash hh).2.2.1
    exact ⟨hclose.inv (fun hd => (h.flags.decimal hd).1) hash, hclose.source⟩

/-- The close of a final packet keeps the invariant, also where it makes a closed bracket an array. -/
theorem Inv.flushPending (h : Inv e.u exact skip past c pos) :
    Inv e.u exact skip past (c.flushPending e) pos ∧ (c.flushPending e).raw = c.raw := by
  unfold Committer.flushPending
  split
  · exact ⟨h, rfl⟩
  · next hc =>
    dsimp only
    split
    · next hbracket =>
      have hgap := h.gap_eq (by rw [hbracket.2]; rintro (h | h | h) <;> cases h)
      have hend := h.reach hc
      simp only [gapText, hgap, List.map_nil, List.append_nil] at hend
      have hash : c.inlineHashGap = false := Bool.eq_false_iff.2 fun hh => hc (h.hash hh).2.2.1
      have hclose := h.closeCut (e := e) (d := { c.setKind .json with
        candidates := { c.candidates with bracketClosed := false } }) hc hgap (List.append_nil _).symm hc rfl
        (fun _ => rfl) (by omega) (Nat.le_refl pos) (fun i hi hi' => absurd hi (by omega))
        ⟨rfl, rfl, rfl, h.core.stop hc, hgap, rfl, rfl, rfl, rfl, rfl, rfl, rfl⟩ (.inl hend) .final
      exact ⟨hclose.inv (fun _ => hgap) hash, hclose.source⟩
    · exact h.closed .final

/-- The end of a packet keeps the invariant. -/
theorem Inv.settle (h : Inv e.u exact skip past c pos) (metadata : TextInputMetadata) (final : Bool) :
    Inv e.u exact skip past (c.settle e metadata final) pos ∧ (c.settle e metadata final).raw = c.raw := by
  have hmeta : Inv e.u exact skip past (if metadata.closed ∧ c.pending.raw ≠ [] ∧ final = false then
      closePending e c .metadataClosed else c) pos ∧ (if metadata.closed ∧ c.pending.raw ≠ [] ∧
      final = false then closePending e c .metadataClosed else c).raw = c.raw := by
    split
    · exact h.closed .metadataClosed
    · exact ⟨h, rfl⟩
  unfold Committer.settle
  dsimp only
  generalize (if metadata.closed ∧ c.pending.raw ≠ [] ∧ final = false then
    closePending e c .metadataClosed else c) = d at *
  obtain ⟨hd, hdraw⟩ := hmeta
  cases final with
  | false => exact ⟨hd.flushPlain, (kept_flushPlain d).raw.trans hdraw⟩
  | true =>
      obtain ⟨hf, hfraw⟩ := hd.flushPending
      exact ⟨hf.flushPlain.flushTerminatorRun, (kept_flushTerminatorRun _).raw.trans
        ((kept_flushPlain _).raw.trans (hfraw.trans hdraw))⟩

/-- The text of a packet is scanned. -/
theorem Settled.scanned (hskip : Skips e.u skip) (hloose : ¬ cover → ∀ src i, skip src i)
    (h : Settled e exact skip past c) (now : F) (metadata : TextInputMetadata) (text : Text)
    (hok : text ≠ [] →
      TextOk exact cover e now ((c.withMetadata metadata).accept text) text c.raw.length) :
    Inv e.u exact skip past
        (if text = [] then c.withMetadata metadata else append e now
          ((c.withMetadata metadata).accept text) text (c.withMetadata metadata).raw.length)
        (if text = [] then c.withMetadata metadata else append e now
          ((c.withMetadata metadata).accept text) text (c.withMetadata metadata).raw.length).raw.length ∧
      (if text = [] then c.withMetadata metadata else append e now
        ((c.withMetadata metadata).accept text) text (c.withMetadata metadata).raw.length).raw =
        c.raw ++ text := by
  have halike := alike_withMetadata c metadata
  have hinv := h.inv.alike halike
  split
  · next hempty =>
    rw [halike.raw, hempty, List.append_nil]
    exact ⟨hinv, rfl⟩
  · next hne =>
    rw [halike.raw]
    have htext : text <+: ((c.withMetadata metadata).accept text).raw.drop c.raw.length := by
      show text <+: ((c.withMetadata metadata).raw ++ text).drop c.raw.length
      simp only [halike.raw, List.drop_left, List.prefix_refl]
    obtain ⟨hraw, happend⟩ := append_inv hskip hloose now text (hinv.accept hskip text) htext (hok hne)
    have hsource : ((c.withMetadata metadata).accept text).raw = c.raw ++ text := by
      show (c.withMetadata metadata).raw ++ text = c.raw ++ text
      rw [halike.raw]
    rw [hraw, hsource]
    rw [List.length_append]
    exact ⟨happend, rfl⟩

/-- The end of a packet returns the outbox. -/
theorem settled_of_inv (hon : e.config.enabled = true) (h : Inv e.u exact skip past c c.raw.length)
    (metadata : TextInputMetadata) (final : Bool) :
    Settled e exact skip (past ++ (c.settle e metadata final).outbox) { c.settle e metadata final with
      outbox := [], limitFallback := false, finalized := final } := by
  obtain ⟨hinv, hraw⟩ := h.settle (e := e) metadata final
  rw [← hraw] at hinv
  exact ⟨hinv.release false final _ _, rfl, fun hoff => absurd (hon.symm.trans hoff) (by simp)⟩

/-- Nothing waits behind a final packet. -/
theorem settle_final (e : Env F) (c : Committer F) (metadata : TextInputMetadata) :
    (c.settle e metadata true).Closed ∧ (c.settle e metadata true).plainBuffer = [] ∧
      (c.settle e metadata true).terminatorBuffer = [] := by
  unfold Committer.settle
  simp only [Bool.true_eq_false, and_false, if_false, if_true]
  have hclosed : (c.flushPending e).Closed := by
    unfold Committer.flushPending
    split
    · next hc => exact hc
    · exact (closePending_frame e _ .final).2
  refine ⟨?_, ?_, flushTerminatorRun_terminatorBuffer _⟩
  · exact (kept_flushTerminatorRun _).closed ((kept_flushPlain _).closed hclosed)
  · rw [flushTerminatorRun_plainBuffer]
    exact flushPlain_plainBuffer _

end

/-! ## One call -/

/-- The text a call brings. -/
def Call.text : Call F → Text
  | .feed text _ _ _ => text
  | .poll _ => []

/-- The call is a final packet. -/
def Call.isFinal : Call F → Bool
  | .feed _ final _ _ => final
  | .poll _ => false

/-- A span with a deadline is open. -/
theorem open_of_nextDeadline [Add F] [LT F] [DecidableLT F] {e : Env F} {c : Committer F} {deadline : F}
    (h : nextDeadline e c = some deadline) : ¬ c.Closed := by
  intro hc
  have hraw : c.pending.raw = [] := hc
  simp [nextDeadline, hraw] at h

section
variable {e : Env F} {exact : Prop} {skip : Text → Nat → Prop} {past : List TextCommit}
  {c : Committer F}

/-- A disabled committer makes one commit of a packet. -/
theorem Settled.commitLiteral (h : Settled e exact skip past c) (hskip : Skips e.u skip)
    (hoff : e.config.enabled = false) (text : Text) :
    Settled e exact skip (past ++ [(c.commitLiteral text).2]) (c.commitLiteral text).1 := by
  obtain ⟨hc, hplain, hterm, hash⟩ := h.disabled hoff
  have hraw : c.pending.raw = [] := hc
  have hgap := h.inv.core.gap_of_closed hc
  have hflags := h.inv.flags
  have htiles := h.inv.core.tiles
  have hnumbered := h.inv.core.numbered
  rw [layout, h.inv.core.tail_of_closed hc, hplain, hterm, h.outbox] at htiles
  simp only [run_nil, List.append_nil] at htiles
  rw [h.outbox, List.append_nil] at hnumbered
  have hgrown := htiles.source text fun i hi hs => hskip.grow text hi hs
  have hcut := hgrown.snocText text (by simp) (fun _ => by simp)
  refine ⟨⟨⟨?_, ?_, fun hne => absurd hraw hne, ?_, fun hg => absurd hgap hg, fun hne => absurd hraw hne,
    .inl hplain, fun hp => absurd hplain hp⟩, fun hne => absurd hraw hne,
    ⟨hflags.solo, hflags.kind, hflags.opener, hflags.image, hflags.line, hflags.ordered, hflags.bang,
      hflags.paren, hflags.decimal⟩, ?_, ?_⟩, h.outbox, fun _ => ⟨hc, hplain, hterm, hash⟩⟩
  · have hlayout : layout (past ++ [(c.commitLiteral text).2]) (c.commitLiteral text).1 =
        past.map TextCommit.piece ++ [⟨c.raw.length, c.raw.length + text.length, text⟩] := by
      simp [layout, tail, Committer.commitLiteral, makeCommit, gapText, TextCommit.piece, hplain, hterm,
        hraw, hgap, h.outbox]
    rw [hlayout]
    simpa [Committer.commitLiteral, makeCommit] using hcut
  · simp only [Committer.commitLiteral, makeCommit, h.outbox, List.append_nil]
    exact hnumbered.snoc rfl rfl
  · simp [Committer.commitLiteral, makeCommit, hgap]
  · simp [Committer.commitLiteral, makeCommit, gapText, hraw, hgap]
  · intro hh
    exact absurd (hh.symm.trans hash) (by simp)

/-- Whether a committer was finalized is not part of the layout. -/
theorem Settled.setFinalized (h : Settled e exact skip past c) (finalized : Bool) :
    Settled e exact skip past { c with finalized } :=
  ⟨h.inv.alike ⟨rfl, rfl, rfl, rfl, rfl, rfl, rfl, rfl, rfl, rfl, rfl, rfl, rfl, rfl, rfl, rfl⟩,
    h.outbox, h.disabled⟩

/-- A disabled committer takes a packet. -/
theorem feedDisabled_settled (h : Settled e exact skip past c) (hskip : Skips e.u skip)
    (hoff : e.config.enabled = false) (text : Text) (final : Bool) (polled : List TextCommit) :
    ∃ made, (feedDisabled c text final polled).2.commits = polled ++ made ∧
      Settled e exact skip (past ++ made) (feedDisabled c text final polled).1 ∧
      (feedDisabled c text final polled).1.raw = c.raw ++ text ∧
      (c.finalized = false → (feedDisabled c text final polled).1.finalized = final) := by
  unfold feedDisabled
  by_cases hne : text = []
  · refine ⟨[], by simp [hne], ?_⟩
    rw [List.append_nil]
    cases final with
    | false =>
        simp only [hne, if_true, Bool.false_eq_true, if_false, List.append_nil]
        exact ⟨h, trivial, id⟩
    | true =>
        simp only [hne, if_true, List.append_nil]
        exact ⟨h.setFinalized true, trivial, fun _ => trivial⟩
  · refine ⟨[(c.commitLiteral text).2], by simp [hne], ?_⟩
    have hmade := h.commitLiteral hskip hoff text
    cases final with
    | false =>
        simp only [hne, Bool.false_eq_true, if_false]
        exact ⟨hmade, rfl, id⟩
    | true =>
        simp only [hne, if_true, if_false]
        exact ⟨hmade.setFinalized true, rfl, fun _ => trivial⟩

end

section
variable [Zero F] [Add F] [Sub F] [LT F] [DecidableLT F] {e : Env F} {exact cover : Prop}
  {skip : Text → Nat → Prop} {past : List TextCommit} {c : Committer F}

/-- The packets of a call meet the condition of their characters. -/
def CallOk (exact cover : Prop) (e : Env F) (c : Committer F) : Call F → Prop
  | .feed text _ now metadata => c.finalized = false → e.config.enabled = true →
      TextOk exact cover e now ((c.withMetadata metadata).accept text) text c.raw.length
  | .poll _ => True

theorem poll_settled (h : Settled e exact skip past c) (now : F) :
    Settled e exact skip (past ++ (poll e c now).2.commits) (poll e c now).1 ∧
      (poll e c now).1.raw = c.raw ∧ (poll e c now).1.finalized = c.finalized := by
  have hsame : Settled e exact skip (past ++ []) c ∧ c.raw = c.raw ∧ c.finalized = c.finalized := by
    rw [List.append_nil]
    exact ⟨h, rfl, rfl⟩
  unfold poll
  split
  · exact hsame
  split
  · next deadline hdeadline =>
    have hopen := open_of_nextDeadline hdeadline
    split
    · exact hsame
    · -- the span is closed by its deadline
      obtain ⟨hinv, hraw⟩ := h.inv.closed (e := e) .timeout
      obtain ⟨hframe, -⟩ := closePending_frame e c .timeout
      refine ⟨⟨?_, rfl, fun hoff => absurd (h.disabled hoff).1 hopen⟩, hraw, hframe.finalized⟩
      rw [← hraw] at hinv
      exact hinv.release _ _ true (some (closePending e c .timeout).committedRawEnd)
  · exact hsame

theorem feed_settled (hskip : Skips e.u skip) (hloose : ¬ cover → ∀ src i, skip src i)
    (h : Settled e exact skip past c) (text : Text) (final : Bool) (now : F)
    (metadata : TextInputMetadata) (hok : CallOk exact cover e c (.feed text final now metadata)) :
    Settled e exact skip (past ++ (feed e c text final now metadata).2.commits)
        (feed e c text final now metadata).1 ∧
      (c.finalized = false → (feed e c text final now metadata).1.raw = c.raw ++ text ∧
        (feed e c text final now metadata).1.finalized = final) := by
  unfold feed
  split
  · next hfinal =>
    refine ⟨?_, fun hopen => absurd (hfinal.symm.trans hopen) (by simp)⟩
    rw [List.append_nil]
    exact h
  next hopen =>
  have hopen' : c.finalized = false := Bool.eq_false_iff.2 hopen
  -- an empty packet polls first
  have hpolled : Settled e exact skip
      (past ++ (if text = [] then poll e c now else (c, {})).2.commits)
        (if text = [] then poll e c now else (c, {})).1 ∧
      (if text = [] then poll e c now else (c, {})).1.raw = c.raw ∧
      (if text = [] then poll e c now else (c, {})).1.finalized = c.finalized ∧
      (text ≠ [] → (if text = [] then poll e c now else (c, {})).1 = c) := by
    split
    · next hempty =>
      obtain ⟨h₁, h₂, h₃⟩ := poll_settled h now
      exact ⟨h₁, h₂, h₃, fun hne => absurd hempty hne⟩
    · refine ⟨?_, rfl, rfl, fun _ => rfl⟩
      rw [List.append_nil]
      exact h
  dsimp only
  generalize (if text = [] then poll e c now else (c, {})) = polled at *
  obtain ⟨d, decision⟩ := polled
  obtain ⟨hd, hraw, hfinalized, hsame⟩ := hpolled
  dsimp only at hd hraw hfinalized hsame ⊢
  split
  · next hoff =>
    obtain ⟨made, hcommits, hmade, hraw', hfinal⟩ :=
      feedDisabled_settled hd hskip hoff text final decision.commits
    rw [hcommits, ← List.append_assoc]
    exact ⟨hmade, fun _ => ⟨by rw [hraw', hraw], hfinal (hfinalized.trans hopen')⟩⟩
  next hon =>
  have hon' : e.config.enabled = true := by simpa using hon
  have hscanned := hd.scanned hskip hloose now metadata text
    (fun hne => by
      rw [hsame hne]
      exact hok hopen' hon')
  generalize (if text = [] then d.withMetadata metadata else
    append e now ((d.withMetadata metadata).accept text) text (d.withMetadata metadata).raw.length) = g at *
  obtain ⟨hg, hgraw⟩ := hscanned
  rw [← List.append_assoc]
  refine ⟨settled_of_inv hon' hg metadata final, fun _ => ⟨?_, rfl⟩⟩
  exact (hg.settle metadata final).2.trans (by rw [hgraw, hraw])

/-- A final packet leaves nothing uncommitted. -/
theorem feed_final (hopen : c.finalized = false) (hon : e.config.enabled = true) (text : Text) (now : F)
    (metadata : TextInputMetadata) :
    (feed e c text true now metadata).1.Closed ∧ (feed e c text true now metadata).1.plainBuffer = [] ∧
      (feed e c text true now metadata).1.terminatorBuffer = [] := by
  unfold feed
  rw [if_neg (by simp [hopen])]
  dsimp only
  rw [if_neg (by simp [hon])]
  exact settle_final e _ metadata

/-- One call. -/
theorem step_settled (hskip : Skips e.u skip) (hloose : ¬ cover → ∀ src i, skip src i)
    (h : Settled e exact skip past c) (call : Call F) (hok : CallOk exact cover e c call) :
    Settled e exact skip (past ++ (step e c call).2) (step e c call).1 ∧
      (c.finalized = false → (step e c call).1.raw = c.raw ++ call.text ∧
        (step e c call).1.finalized = call.isFinal) := by
  cases call with
  | feed text final now metadata => exact feed_settled hskip hloose h text final now metadata hok
  | poll now =>
      obtain ⟨hsettled, hraw, hfinal⟩ := poll_settled h now
      refine ⟨hsettled, fun hopen => ⟨?_, hfinal.trans hopen⟩⟩
      rw [Call.text, List.append_nil]
      exact hraw

/-! ## Histories -/

/-- A history of calls whose packets meet the condition. -/
theorem run_settled (hskip : Skips e.u skip) (hloose : ¬ cover → ∀ src i, skip src i)
    (h : Settled e exact skip past c) {calls : List (Call F)}
    (hok : Along (fun c call => (step e c call).1) (CallOk exact cover e) c calls) :
    Settled e exact skip (past ++ outputs (step e) c calls)
      (Lib.run (fun c call => (step e c call).1) c calls) := by
  induction calls generalizing c past with
  | nil =>
      rw [Lib.outputs_nil, List.append_nil]
      exact h
  | cons call calls ih =>
      rw [Lib.outputs_cons, ← List.append_assoc]
      exact ih (step_settled hskip hloose h call hok.1).1 hok.2

/-- The source is the text of the packets, as long as none of them is final. -/
theorem run_raw (hskip : Skips e.u skip) (hloose : ¬ cover → ∀ src i, skip src i)
    (h : Settled e exact skip past c) (hopen : c.finalized = false) {calls : List (Call F)}
    (hnone : ∀ call ∈ calls, call.isFinal = false)
    (hok : Along (fun c call => (step e c call).1) (CallOk exact cover e) c calls) :
    (Lib.run (fun c call => (step e c call).1) c calls).raw = c.raw ++ calls.flatMap Call.text ∧
      (Lib.run (fun c call => (step e c call).1) c calls).finalized = false := by
  induction calls generalizing c past with
  | nil => exact ⟨by simp, hopen⟩
  | cons call calls ih =>
      obtain ⟨hstep, hraw⟩ := step_settled hskip hloose h call hok.1
      obtain ⟨hraw, hfinal⟩ := hraw hopen
      obtain ⟨h₁, h₂⟩ := ih hstep (hfinal.trans (hnone call (by simp)))
        (fun call hmem => hnone call (List.mem_cons_of_mem _ hmem)) hok.2
      refine ⟨?_, h₂⟩
      rw [Lib.run_cons, h₁, hraw, List.flatMap_cons, List.append_assoc]

end

end Committer

end StreamingTts.Frontend
