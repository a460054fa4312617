import StreamingTts.Lib.Tiling
import StreamingTts.Frontend.Scan

/-!
# How the committer lays out its source

At any time the source up to the scanned position is cut into the commits made so far, one run of
plain text or terminators that is not committed yet, and the open span with the text deferred behind
it. `Core` says that this layout is a sound cut, and the lemmas of this module say what the
operations of the committer do to it: flushing keeps it, opening, extending and emitting take the
next character, and closing turns the open span into commits.

`exact` says whether every commit must hold the very text of its interval, and `skip` which
positions of a source may be left out.
-/

namespace StreamingTts.Frontend

open Lib (Piece Tiles)

/-- The interval of a commit. -/
def TextCommit.piece (t : TextCommit) : Piece Char := ⟨t.rawStart, t.rawEnd, t.rawText⟩

namespace Committer

variable {F : Type}

/-! ## The layout -/

/-- A text that is not committed yet. -/
def run (start : Nat) (text : Text) : List (Piece Char) :=
  if text = [] then [] else [⟨start, start + text.length, text⟩]

@[simp] theorem run_nil (start : Nat) : run start [] = [] := rfl

theorem run_of_ne {start : Nat} {text : Text} (h : text ≠ []) :
    run start text = [⟨start, start + text.length, text⟩] := if_neg h

/-- The text behind the commits. -/
def tail (c : Committer F) : List (Piece Char) :=
  run c.plainStart c.plainBuffer ++ run c.terminatorStart c.terminatorBuffer ++
    run c.pending.start (c.pending.raw ++ c.gapText)

/-- The cut of the source, behind the commits that earlier calls returned. -/
def layout (past : List TextCommit) (c : Committer F) : List (Piece Char) :=
  (past ++ c.outbox).map TextCommit.piece ++ c.tail

/-- The commits are numbered one after another, up to the last fence. -/
structure Numbered (commits : List TextCommit) (commitFence nextCommitId : Nat) : Prop where
  fence : commits.map (·.fence) = List.range' 1 commitFence
  commitId : commits.map (·.commitId) = List.range' 1 commitFence
  next : nextCommitId = commitFence + 1

/-- The next commit takes the next number. -/
theorem Numbered.snoc {commits : List TextCommit} {commitFence nextCommitId : Nat}
    (h : Numbered commits commitFence nextCommitId) {t : TextCommit} (hfence : t.fence = commitFence + 1)
    (hid : t.commitId = nextCommitId) :
    Numbered (commits ++ [t]) (commitFence + 1) (nextCommitId + 1) := by
  obtain ⟨h₁, h₂, h₃⟩ := h
  refine ⟨?_, ?_, by omega⟩
  · rw [List.map_append, h₁, List.range'_concat, Nat.one_mul, Nat.add_comm 1, ← hfence]
    rfl
  · rw [List.map_append, h₂, List.range'_concat, Nat.one_mul, Nat.add_comm 1, ← h₃, ← hid]
    rfl

/-- The kinds of spans that characters are deferred behind. -/
def Deferring (kind : SpanKind) : Prop := kind = .number ∨ kind = .ordinal ∨ kind = .math

/-- The layout is a sound cut up to `pos`, and at most one part of it is open. -/
structure Core (exact : Prop) (skip : Text → Nat → Prop) (past : List TextCommit) (c : Committer F)
    (pos : Nat) : Prop where
  tiles : Tiles c.raw exact (skip c.raw) (layout past c) pos
  numbered : Numbered (past ++ c.outbox) c.commitFence c.nextCommitId
  stop : c.pending.raw ≠ [] → c.pending.stop = c.pending.start + c.pending.raw.length
  gapAt : c.pendingGap.map (·.2) = List.range' c.pending.stop c.pendingGap.length
  gapOpen : c.pendingGap ≠ [] → c.pending.raw ≠ [] ∧ Deferring c.pending.kind
  alone : c.pending.raw ≠ [] → c.plainBuffer = [] ∧ c.terminatorBuffer = []
  single : c.plainBuffer = [] ∨ c.terminatorBuffer = []
  plainReach : c.plainBuffer ≠ [] → c.plainStart + c.plainBuffer.length = pos

/-- The open span and the text deferred behind it end at `pos`. -/
def Reach (c : Committer F) (pos : Nat) : Prop :=
  c.pending.raw ≠ [] → c.pending.start + (c.pending.raw ++ c.gapText).length = pos

/-- A run of terminators ends at `pos`. -/
def Tight (c : Committer F) (pos : Nat) : Prop :=
  c.terminatorBuffer = [] ∨ c.terminatorStart + c.terminatorBuffer.length = pos

section
variable {exact : Prop} {skip : Text → Nat → Prop} {past : List TextCommit} {c : Committer F}
  {pos : Nat}

/-- Nothing is deferred where no span is open. -/
theorem Core.gap_of_closed (h : Core exact skip past c pos) (hc : c.Closed) : c.pendingGap = [] := by
  by_contra hg
  exact (h.gapOpen hg).1 hc

theorem Core.tail_of_open (h : Core exact skip past c pos) (hc : ¬ c.Closed) :
    c.tail = [⟨c.pending.start, c.pending.start + (c.pending.raw ++ c.gapText).length,
      c.pending.raw ++ c.gapText⟩] := by
  obtain ⟨hp, ht⟩ := h.alone hc
  have hne : c.pending.raw ++ c.gapText ≠ [] := by
    intro he
    exact hc (List.append_eq_nil_iff.1 he).1
  simp only [tail, hp, ht, run_nil, List.nil_append, run_of_ne hne]

theorem Core.tail_of_closed (h : Core exact skip past c pos) (hc : c.Closed) :
    c.tail = run c.plainStart c.plainBuffer ++ run c.terminatorStart c.terminatorBuffer := by
  have hraw : c.pending.raw = [] := hc
  simp [tail, gapText, h.gap_of_closed hc, hraw]

/-! ## Flushing -/

theorem Core.numbered_commitPlain (h : Core exact skip past c pos) (raw : Text) (start : Nat) :
    Numbered (past ++ (c.commitPlain raw start).outbox) (c.commitPlain raw start).commitFence
      (c.commitPlain raw start).nextCommitId := by
  simp only [commitPlain, makeCommit]
  rw [← List.append_assoc]
  exact h.numbered.snoc rfl rfl

theorem layout_commitPlain (raw : Text) (start : Nat) :
    ((past ++ (c.commitPlain raw start).outbox).map TextCommit.piece) =
      (past ++ c.outbox).map TextCommit.piece ++ [⟨start, start + raw.length, raw⟩] := by
  simp [commitPlain, makeCommit, TextCommit.piece]

/-- A flush of the plain text only moves it behind the commits. -/
theorem Core.flushPlain (h : Core exact skip past c pos) : Core exact skip past c.flushPlain pos := by
  unfold Committer.flushPlain
  split
  · exact h
  · next hne =>
    have hraw : c.pending.raw = [] := by
      by_contra hraw
      exact hne (h.alone hraw).1
    have hterm : c.terminatorBuffer = [] := h.single.resolve_left hne
    have hgap := h.gap_of_closed hraw
    have htiles := h.tiles
    refine ⟨?_, h.numbered_commitPlain _ _, h.stop, h.gapAt, h.gapOpen, ?_, .inl rfl, ?_⟩
    · have hlayout : layout past { c.commitPlain c.plainBuffer c.plainStart with plainBuffer := [] } =
          layout past c := by
        simp only [layout, h.tail_of_closed hraw, hterm, run_nil, List.append_nil, run_of_ne hne]
        rw [← layout_commitPlain]
        simp [tail, commitPlain, makeCommit, gapText, hterm, hraw, hgap]
      rw [hlayout]
      exact htiles
    · intro _
      exact ⟨rfl, hterm⟩
    · intro hp
      exact absurd rfl hp

/-- So does a flush of the terminators. -/
theorem Core.flushTerminatorRun (h : Core exact skip past c pos) :
    Core exact skip past c.flushTerminatorRun pos := by
  unfold Committer.flushTerminatorRun
  split
  · exact h
  · next hne =>
    have hraw : c.pending.raw = [] := by
      by_contra hraw
      exact hne (h.alone hraw).2
    have hplain : c.plainBuffer = [] := h.single.resolve_right hne
    have hgap := h.gap_of_closed hraw
    have htiles := h.tiles
    refine ⟨?_, h.numbered_commitPlain _ _, h.stop, h.gapAt, h.gapOpen, ?_, .inr rfl, ?_⟩
    · have hlayout : layout past { c.commitPlain c.terminatorBuffer c.terminatorStart with
          terminatorBuffer := [] } = layout past c := by
        simp only [layout, h.tail_of_closed hraw, hplain, run_nil, List.nil_append, run_of_ne hne]
        rw [← layout_commitPlain]
        simp [tail, commitPlain, makeCommit, gapText, hplain, hraw, hgap]
      rw [hlayout]
      exact htiles
    · intro _
      exact ⟨hplain, rfl⟩
    · intro hp
      exact absurd hplain hp

end

/-- The source and the flags that stand outside of a span are the same. -/
structure Frame (c d : Committer F) : Prop where
  raw : d.raw = c.raw
  leadingDecimal : d.leadingDecimal = c.leadingDecimal
  inlineHashGap : d.inlineHashGap = c.inlineHashGap
  finalized : d.finalized = c.finalized

theorem Frame.trans {a b d : Committer F} (h : Frame a b) (h' : Frame b d) : Frame a d :=
  ⟨h'.raw.trans h.raw, h'.leadingDecimal.trans h.leadingDecimal,
    h'.inlineHashGap.trans h.inlineHashGap, h'.finalized.trans h.finalized⟩

/-- Only the plain text and the commits change. -/
structure Kept (c d : Committer F) : Prop extends Frame c d where
  pending : d.pending = c.pending
  pendingGap : d.pendingGap = c.pendingGap
  candidates : d.candidates = c.candidates

theorem Kept.refl (c : Committer F) : Kept c c := ⟨⟨rfl, rfl, rfl, rfl⟩, rfl, rfl, rfl⟩

theorem Kept.trans {a b d : Committer F} (h : Kept a b) (h' : Kept b d) : Kept a d :=
  ⟨h.toFrame.trans h'.toFrame, h'.pending.trans h.pending, h'.pendingGap.trans h.pendingGap,
    h'.candidates.trans h.candidates⟩

theorem Kept.closed {c d : Committer F} (h : Kept c d) (hc : c.Closed) : d.Closed := by
  unfold Closed
  rw [h.pending]
  exact hc

theorem kept_flushPlain (c : Committer F) : Kept c c.flushPlain := by
  unfold Committer.flushPlain
  split
  · exact .refl c
  · exact ⟨⟨rfl, rfl, rfl, rfl⟩, rfl, rfl, rfl⟩

theorem kept_flushTerminatorRun (c : Committer F) : Kept c c.flushTerminatorRun := by
  unfold Committer.flushTerminatorRun
  split
  · exact .refl c
  · exact ⟨⟨rfl, rfl, rfl, rfl⟩, rfl, rfl, rfl⟩

theorem kept_emitPlain (e : Env F) (c : Committer F) (ch : Char) (pos : Nat) :
    Kept c (c.emitPlain e ch pos) := by
  have h := kept_flushTerminatorRun c
  unfold Committer.emitPlain
  split
  · dsimp only
    split
    · exact ⟨⟨h.raw, h.leadingDecimal, h.inlineHashGap, h.finalized⟩, h.pending, h.pendingGap, h.candidates⟩
    · exact ⟨⟨rfl, rfl, rfl, rfl⟩, rfl, rfl, rfl⟩
  · exact ⟨⟨h.raw, h.leadingDecimal, h.inlineHashGap, h.finalized⟩, h.pending, h.pendingGap, h.candidates⟩

theorem kept_emitGap (e : Env F) (gap : List (Char × Nat)) (c : Committer F) : Kept c (c.emitGap e gap) := by
  induction gap generalizing c with
  | nil => exact .refl c
  | cons item gap ih => exact (kept_emitPlain e c item.1 item.2).trans (ih _)

@[simp] theorem flushPlain_plainBuffer (c : Committer F) : c.flushPlain.plainBuffer = [] := by
  unfold Committer.flushPlain
  split
  · next h => exact h
  · rfl

@[simp] theorem flushPlain_terminatorBuffer (c : Committer F) :
    c.flushPlain.terminatorBuffer = c.terminatorBuffer := by
  unfold Committer.flushPlain
  split <;> rfl

@[simp] theorem flushPlain_terminatorStart (c : Committer F) :
    c.flushPlain.terminatorStart = c.terminatorStart := by
  unfold Committer.flushPlain
  split <;> rfl

@[simp] theorem flushTerminatorRun_terminatorBuffer (c : Committer F) :
    c.flushTerminatorRun.terminatorBuffer = [] := by
  unfold Committer.flushTerminatorRun
  split
  · next h => exact h
  · rfl

@[simp] theorem flushTerminatorRun_plainBuffer (c : Committer F) :
    c.flushTerminatorRun.plainBuffer = c.plainBuffer := by
  unfold Committer.flushTerminatorRun
  split <;> rfl

section
variable {exact : Prop} {skip : Text → Nat → Prop} {past : List TextCommit} {c : Committer F}
  {pos : Nat}

/-! ## The next character -/

/-- The one open part of the layout takes the next character, or the character opens one. -/
theorem Core.tiles_push (h : Core exact skip past c pos) {ch : Char} (hlt : pos < c.raw.length)
    (hch : exact → c.raw[pos]? = some ch) (d : Committer F) (hraw : d.raw = c.raw)
    (hout : d.outbox = c.outbox) (start : Nat) {start' : Nat} {text : Text}
    (htail : c.tail = run start text)
    (hdtail : d.tail = run start' (text ++ [ch]))
    (hstart : start' = if text = [] then pos else start)
    (hend : text ≠ [] → start + text.length = pos) :
    Tiles d.raw exact (skip d.raw) (layout past d) (pos + 1) := by
  have htiles := h.tiles
  rw [layout, htail] at htiles
  rw [layout, hdtail, hout, hraw, run_of_ne (by simp)]
  by_cases hempty : text = []
  · rw [hempty, run_nil, List.append_nil] at htiles
    rw [hstart, if_pos hempty, hempty]
    exact htiles.snoc ch hlt hch
  · rw [run_of_ne hempty, hend hempty] at htiles
    have hgrow := htiles.grow ch hlt hch
    rw [hstart, if_neg hempty, List.length_append, List.length_singleton, ← Nat.add_assoc, hend hempty]
    exact hgrow

/-- The character joins the run of terminators. -/
theorem Core.pushTerminator (h : Core exact skip past c pos) (hc : c.Closed) {ch : Char}
    (hlt : pos < c.raw.length) (hch : exact → c.raw[pos]? = some ch) (hplain : c.plainBuffer = [])
    (htight : Tight c pos) {d : Committer F} (hkept : Kept c d) (hout : d.outbox = c.outbox)
    (hfence : d.commitFence = c.commitFence) (hid : d.nextCommitId = c.nextCommitId)
    (hdplain : d.plainBuffer = []) (hdterm : d.terminatorBuffer = c.terminatorBuffer ++ [ch])
    (hdstart : d.terminatorStart = if c.terminatorBuffer = [] then pos else c.terminatorStart) :
    Core exact skip past d (pos + 1) ∧ Tight d (pos + 1) := by
  have hdraw : d.pending.raw = [] := hkept.closed hc
  have hdgap : d.pendingGap = [] := hkept.pendingGap.trans (h.gap_of_closed hc)
  have htiles := h.tiles_push hlt hch d hkept.raw hout c.terminatorStart
    (by simp [h.tail_of_closed hc, hplain]) (by simp [tail, gapText, hdplain, hdterm, hdraw, hdgap])
    hdstart (fun hne => htight.resolve_left hne)
  refine ⟨⟨htiles, by rw [hout, hfence, hid]; exact h.numbered, fun hne => absurd hdraw hne,
    by simp [hdgap], fun hne => absurd hdgap hne, fun hne => absurd hdraw hne, .inl hdplain,
    fun hne => absurd hdplain hne⟩, .inr ?_⟩
  rw [hdterm, hdstart, List.length_append, List.length_singleton]
  split
  · next hempty => simp [hempty]
  · next hne =>
    have := htight.resolve_left hne
    omega

/-- The character joins the plain text. -/
theorem Core.pushPlain (h : Core exact skip past c pos) (hc : c.Closed) {ch : Char}
    (hlt : pos < c.raw.length) (hch : exact → c.raw[pos]? = some ch) (hterm : c.terminatorBuffer = [])
    {d : Committer F} (hkept : Kept c d) (hout : d.outbox = c.outbox)
    (hfence : d.commitFence = c.commitFence) (hid : d.nextCommitId = c.nextCommitId)
    (hdterm : d.terminatorBuffer = []) (hdplain : d.plainBuffer = c.plainBuffer ++ [ch])
    (hdstart : d.plainStart = if c.plainBuffer = [] then pos else c.plainStart) :
    Core exact skip past d (pos + 1) ∧ Tight d (pos + 1) := by
  have hdraw : d.pending.raw = [] := hkept.closed hc
  have hdgap : d.pendingGap = [] := hkept.pendingGap.trans (h.gap_of_closed hc)
  have htiles := h.tiles_push hlt hch d hkept.raw hout c.plainStart
    (by simp [h.tail_of_closed hc, hterm]) (by simp [tail, gapText, hdplain, hdterm, hdraw, hdgap])
    hdstart h.plainReach
  refine ⟨⟨htiles, by rw [hout, hfence, hid]; exact h.numbered, fun hne => absurd hdraw hne,
    by simp [hdgap], fun hne => absurd hdgap hne, fun hne => absurd hdraw hne, .inr hdterm,
    fun _ => ?_⟩, .inl hdterm⟩
  rw [hdplain, hdstart, List.length_append, List.length_singleton]
  split
  · next hempty => simp [hempty]
  · next hne =>
    have := h.plainReach hne
    omega

/-- The character may join the run of terminators: it is none, or the run ends right before it, or it
starts a run of its own. -/
def Glues (c : Committer F) (ch : Char) (pos : Nat) : Prop :=
  isTerminatorChar ch = true → (endsWith c.terminatorBuffer "!" && ch = '?') = false → Tight c pos

theorem Tight.glues (h : Tight c pos) (ch : Char) : Glues c ch pos := fun _ _ => h

/-- A character is emitted behind the plain text. -/
theorem Core.emitPlain (h : Core exact skip past c pos) (hc : c.Closed) (e : Env F) {ch : Char}
    (hlt : pos < c.raw.length) (hch : exact → c.raw[pos]? = some ch) (hglue : Glues c ch pos) :
    Core exact skip past (c.emitPlain e ch pos) (pos + 1) ∧ Tight (c.emitPlain e ch pos) (pos + 1) := by
  have hkept := kept_flushTerminatorRun c
  have hflush := h.flushTerminatorRun
  have hclosed := hkept.closed hc
  rw [← hkept.raw] at hlt hch
  unfold Committer.emitPlain
  split
  · next hterm =>
    simp only [Bool.and_eq_true, decide_eq_true_eq] at hterm
    dsimp only
    split
    · exact hflush.pushTerminator hclosed hlt hch (by rw [flushTerminatorRun_plainBuffer]; exact hterm.2)
        (.inl (flushTerminatorRun_terminatorBuffer c)) ⟨⟨rfl, rfl, rfl, rfl⟩, rfl, rfl, rfl⟩ rfl rfl rfl
        (by rw [flushTerminatorRun_plainBuffer]; exact hterm.2) rfl rfl
    · next hrule =>
      rw [hkept.raw] at hlt hch
      exact h.pushTerminator hc hlt hch hterm.2 (hglue hterm.1 (by simpa using hrule))
        ⟨⟨rfl, rfl, rfl, rfl⟩, rfl, rfl, rfl⟩ rfl rfl rfl hterm.2 rfl rfl
  · exact hflush.pushPlain hclosed hlt hch (flushTerminatorRun_terminatorBuffer c)
      ⟨⟨rfl, rfl, rfl, rfl⟩, rfl, rfl, rfl⟩ rfl rfl rfl (flushTerminatorRun_terminatorBuffer c) rfl rfl

/-! ## The open span -/

/-- The open span, with what is deferred behind it, takes the next character. -/
theorem Core.pushOpen (h : Core exact skip past c pos) (hc : ¬ c.Closed) (hreach : Reach c pos)
    {ch : Char} (hlt : pos < c.raw.length) (hch : exact → c.raw[pos]? = some ch) {d : Committer F}
    (hraw : d.raw = c.raw) (hout : d.outbox = c.outbox) (hfence : d.commitFence = c.commitFence)
    (hid : d.nextCommitId = c.nextCommitId) (hplain : d.plainBuffer = c.plainBuffer)
    (hterm : d.terminatorBuffer = c.terminatorBuffer) (hstart : d.pending.start = c.pending.start)
    (htext : d.pending.raw ++ d.gapText = c.pending.raw ++ c.gapText ++ [ch])
    (hopen : d.pending.raw ≠ []) (hstop : d.pending.stop = d.pending.start + d.pending.raw.length)
    (hgapAt : d.pendingGap.map (·.2) = List.range' d.pending.stop d.pendingGap.length)
    (hgapKind : d.pendingGap ≠ [] → Deferring d.pending.kind) :
    Core exact skip past d (pos + 1) ∧ Reach d (pos + 1) := by
  obtain ⟨hp, ht⟩ := h.alone hc
  have hne : c.pending.raw ++ c.gapText ≠ [] := by
    intro he
    exact hc (List.append_eq_nil_iff.1 he).1
  have hend := hreach hc
  have htail : c.tail = run c.pending.start (c.pending.raw ++ c.gapText) := by
    simp [tail, hp, ht]
  have hdtail : d.tail = run c.pending.start (c.pending.raw ++ c.gapText ++ [ch]) := by
    simp only [tail, hplain, hterm, hp, ht, run_nil, List.nil_append, hstart, htext]
  have htiles := h.tiles_push hlt hch d hraw hout _ htail hdtail (by rw [if_neg hne]) (fun _ => hend)
  refine ⟨⟨htiles, by rw [hout, hfence, hid]; exact h.numbered, fun _ => hstop, hgapAt,
    fun hne => ⟨hopen, hgapKind hne⟩,
    fun _ => ⟨hplain.trans hp, hterm.trans ht⟩, .inl (hplain.trans hp),
    fun hne => absurd (hplain.trans hp) hne⟩, fun _ => ?_⟩
  rw [htext, hstart, List.length_append, List.length_singleton, ← Nat.add_assoc, hend]

/-- A character is deferred behind the span. -/
theorem Core.defer (h : Core exact skip past c pos) (hc : ¬ c.Closed) (hreach : Reach c pos)
    (hkind : Deferring c.pending.kind) {ch : Char} (hlt : pos < c.raw.length) (hch : exact → c.raw[pos]? = some ch) (now : F) :
    Core exact skip past (c.defer ch pos now) (pos + 1) ∧ Reach (c.defer ch pos now) (pos + 1) := by
  have hend := hreach hc
  have hstop := h.stop hc
  refine h.pushOpen hc hreach hlt hch rfl rfl rfl rfl rfl rfl rfl ?_ hc hstop ?_
    (fun _ => hkind)
  · simp [Committer.defer, gapText]
  · have hpos : c.pending.stop + c.pendingGap.length = pos := by
      simp only [gapText, List.length_append, List.length_map] at hend
      omega
    simp only [Committer.defer, List.map_append, List.map_cons, List.map_nil, h.gapAt,
      List.length_append, List.length_singleton]
    rw [List.range'_concat, Nat.one_mul, hpos]

/-- The span takes what was deferred and the next character. -/
theorem Core.extendOverGap (h : Core exact skip past c pos) (hc : ¬ c.Closed) (hreach : Reach c pos)
    {ch : Char} (hlt : pos < c.raw.length) (hch : exact → c.raw[pos]? = some ch) (now : F) :
    Core exact skip past (c.extendOverGap ch pos now) (pos + 1) ∧
      Reach (c.extendOverGap ch pos now) (pos + 1) := by
  have hend := hreach hc
  refine h.pushOpen hc hreach hlt hch rfl rfl rfl rfl rfl rfl rfl ?_ ?_ ?_ ?_
    (fun hne => absurd rfl hne)
  · simp [Committer.extendOverGap, gapText]
  · simp [Committer.extendOverGap]
  · simp only [Committer.extendOverGap, List.length_append, List.length_singleton] at hend ⊢
    omega
  · simp [Committer.extendOverGap]

end

section
variable {exact : Prop} {skip : Text → Nat → Prop} {past : List TextCommit} {c : Committer F}
  {pos : Nat}

/-! ## Opening -/

/-- The marker of a late extension is not part of the layout. -/
theorem Core.setLate (h : Core exact skip past c pos) (forceLiteralNext : Bool)
    (lateExtensionAnchor : Option Nat) :
    Core exact skip past { c with forceLiteralNext, lateExtensionAnchor } pos :=
  ⟨h.tiles, h.numbered, h.stop, h.gapAt, h.gapOpen, h.alone, h.single, h.plainReach⟩

/-- Opening flushes the terminators and replaces the open span. -/
theorem openPending_split (c : Committer F) (raw : Text) (start stop : Nat) (kind : SpanKind) (now : F)
    (hint : Option LanguageKind) (force : Option Bool) :
    ∃ (f : Committer F) (span : Pending F) (next : Nat),
      c.openPending raw start stop kind now hint force = { f with pending := span, nextSpanId := next } ∧
      (span.raw = raw ∧ span.start = start ∧ span.stop = stop ∧ span.kind = kind) ∧
      Kept c f ∧ f.plainBuffer = c.plainBuffer ∧ f.terminatorBuffer = [] ∧
      ∀ exact skip past pos, Core exact skip past c pos → Core exact skip past f pos := by
  unfold Committer.openPending
  dsimp only
  split
  · have hkept := kept_flushTerminatorRun { c with forceLiteralNext := false, lateExtensionAnchor := none }
    refine ⟨_, _, _, rfl, ⟨rfl, rfl, rfl, rfl⟩,
      ⟨⟨hkept.raw, hkept.leadingDecimal, hkept.inlineHashGap, hkept.finalized⟩, hkept.pending,
        hkept.pendingGap, hkept.candidates⟩, flushTerminatorRun_plainBuffer _, flushTerminatorRun_terminatorBuffer _, ?_⟩
    intro exact skip past pos h
    exact (h.setLate false none).flushTerminatorRun
  · exact ⟨_, _, _, rfl, ⟨rfl, rfl, rfl, rfl⟩, kept_flushTerminatorRun c, flushTerminatorRun_plainBuffer _,
      flushTerminatorRun_terminatorBuffer _, fun exact skip past pos h => h.flushTerminatorRun⟩

/-- What the span looks like that the next character opened. -/
structure Opened (c d : Committer F) (ch : Char) (pos : Nat) (kind : SpanKind) : Prop where
  source : d.raw = c.raw
  raw : d.pending.raw = [ch]
  start : d.pending.start = pos
  kind : d.pending.kind = kind
  pendingGap : d.pendingGap = c.pendingGap
  candidates : d.candidates = c.candidates
  leadingDecimal : d.leadingDecimal = c.leadingDecimal
  inlineHashGap : d.inlineHashGap = c.inlineHashGap
  plain : d.plainBuffer = []
  terminator : d.terminatorBuffer = []

/-- The next character opens a span. -/
theorem Core.openSpan (h : Core exact skip past c pos) (hc : c.Closed) {ch : Char}
    (hlt : pos < c.raw.length) (hch : exact → c.raw[pos]? = some ch) (kind : SpanKind) (now : F) :
    Core exact skip past (c.openSpan ch pos kind now) (pos + 1) ∧
      Reach (c.openSpan ch pos kind now) (pos + 1) ∧ Opened c (c.openSpan ch pos kind now) ch pos kind := by
  have hkept := kept_flushPlain c
  obtain ⟨f, span, next, heq, ⟨hraw, hstart, hstop, hkind⟩, hkept', hplain, hterm, hcore⟩ :=
    openPending_split c.flushPlain [ch] pos (pos + 1) kind now none none
  have hf := hcore exact skip past pos h.flushPlain
  have hall := hkept.trans hkept'
  rw [flushPlain_plainBuffer] at hplain
  have hgap : f.pendingGap = [] := hall.pendingGap.trans (h.gap_of_closed hc)
  rw [← hall.raw] at hlt hch
  unfold Committer.openSpan
  rw [heq]
  have htail : f.tail = run 0 [] := by simp [hf.tail_of_closed (hall.closed hc), hplain, hterm]
  have hdtail : ({ f with pending := span, nextSpanId := next } : Committer F).tail =
      run pos ([] ++ [ch]) := by
    simp [tail, gapText, hplain, hterm, hgap, hraw, hstart]
  have htiles : Tiles f.raw exact (skip f.raw)
      (layout past { f with pending := span, nextSpanId := next }) (pos + 1) :=
    hf.tiles_push hlt hch { f with pending := span, nextSpanId := next } rfl rfl 0 htail hdtail rfl (fun hne => absurd rfl hne)
  refine ⟨⟨htiles, hf.numbered, fun _ => ?_, ?_, fun hne => absurd hgap hne,
    fun _ => ⟨hplain, hterm⟩, .inl hplain, fun hne => absurd hplain hne⟩, fun _ => ?_,
    ⟨hall.raw, hraw, hstart, hkind, hall.pendingGap, hall.candidates, hall.leadingDecimal,
      hall.inlineHashGap, hplain, hterm⟩⟩
  · simp [hraw, hstart, hstop]
  · simp [hgap]
  · simp [gapText, hraw, hstart, hgap]

/-- Opening leaves the rest of the state alone. -/
theorem openPending_frame (c : Committer F) (raw : Text) (start stop : Nat) (kind : SpanKind) (now : F)
    (hint : Option LanguageKind) (force : Option Bool) :
    Frame c (c.openPending raw start stop kind now hint force) ∧
      (c.openPending raw start stop kind now hint force).pending.raw = raw ∧
      (c.openPending raw start stop kind now hint force).pendingGap = c.pendingGap := by
  obtain ⟨f, span, next, heq, ⟨hraw, -, -, -⟩, hkept, -, -, -⟩ :=
    openPending_split c raw start stop kind now hint force
  rw [heq]
  exact ⟨⟨hkept.raw, hkept.leadingDecimal, hkept.inlineHashGap, hkept.finalized⟩, hraw, hkept.pendingGap⟩

/-- A part of the text is opened as a span of its own, where no plain text waits. -/
theorem Core.openPart (h : Core exact skip past c pos) (hc : c.Closed) (hplain : c.plainBuffer = [])
    {raw : Text} (hne : raw ≠ []) (hfit : pos + raw.length ≤ c.raw.length)
    (htext : exact → raw <+: c.raw.drop pos) (kind : SpanKind) (now : F) (hint : Option LanguageKind)
    (force : Option Bool) :
    Core exact skip past (c.openPending raw pos (pos + raw.length) kind now hint force)
        (pos + raw.length) ∧
      Reach (c.openPending raw pos (pos + raw.length) kind now hint force) (pos + raw.length) := by
  obtain ⟨f, span, next, heq, ⟨hraw, hstart, hstop, hkind⟩, hkept, hplain', hterm, hcore⟩ :=
    openPending_split c raw pos (pos + raw.length) kind now hint force
  have hf := hcore exact skip past pos h
  have hgap : f.pendingGap = [] := hkept.pendingGap.trans (h.gap_of_closed hc)
  rw [hplain] at hplain'
  rw [← hkept.raw] at hfit htext
  rw [heq]
  have htail : f.tail = [] := by simp [hf.tail_of_closed (hkept.closed hc), hplain', hterm]
  have htiles := hf.tiles
  rw [layout, htail, List.append_nil] at htiles
  have hlayout : layout past { f with pending := span, nextSpanId := next } =
      (past ++ f.outbox).map TextCommit.piece ++ [⟨pos, pos + raw.length, raw⟩] := by
    simp [layout, tail, gapText, hplain', hterm, hgap, hraw, hstart, run_of_ne hne]
  refine ⟨⟨?_, hf.numbered, fun _ => ?_, by simp [hgap], fun hg => absurd hgap hg,
    fun _ => ⟨hplain', hterm⟩, .inl hplain', fun hp => absurd hplain' hp⟩, fun _ => ?_⟩
  · rw [hlayout]
    exact htiles.snocText raw hfit htext
  · simp [hraw, hstart, hstop]
  · simp [gapText, hraw, hstart, hgap]

/-- The open span is given up: the layout ends where it began. -/
theorem Core.abandon [Zero F] (h : Core exact skip past c pos) (hc : ¬ c.Closed) :
    Core exact skip past ({ c with pending := .empty, pendingGap := [] } : Committer F)
      c.pending.start := by
  obtain ⟨hp, ht⟩ := h.alone hc
  have htiles := h.tiles
  rw [layout, h.tail_of_open hc] at htiles
  have hle : c.pending.start + (c.pending.raw ++ c.gapText).length ≤ pos :=
    htiles.bounded _ (List.mem_append_right _ (List.mem_singleton.2 rfl))
  have hcut := (htiles.cut (t := []) (q := c.pending.start) (Nat.le_refl _) (by omega)
    (fun i hi hi' => absurd hi' (by simp at hi; omega))).unsnoc
    (fun i hi => absurd (Nat.lt_of_le_of_lt hi.1 hi.2) (by simp))
  have hlayout : layout past ({ c with pending := .empty, pendingGap := [] } : Committer F) =
      (past ++ c.outbox).map TextCommit.piece := by
    simp [layout, tail, gapText, Pending.empty, hp, ht]
  refine ⟨?_, h.numbered, fun hne => absurd rfl hne, rfl, fun hne => absurd rfl hne,
    fun hne => absurd rfl hne, .inl hp, fun hne => absurd hp hne⟩
  rw [hlayout]
  exact hcut

/-- The open span of `c` was cut back to the text `t`, and nothing else of the layout changed. -/
structure Cut (c d : Committer F) (t : Text) : Prop where
  source : d.raw = c.raw
  raw : d.pending.raw = t
  start : d.pending.start = c.pending.start
  stop : d.pending.stop = c.pending.start + t.length
  pendingGap : d.pendingGap = []
  plain : d.plainBuffer = c.plainBuffer
  terminator : d.terminatorBuffer = c.terminatorBuffer
  outbox : d.outbox = c.outbox
  commitFence : d.commitFence = c.commitFence
  nextCommitId : d.nextCommitId = c.nextCommitId
  leadingDecimal : d.leadingDecimal = c.leadingDecimal
  inlineHashGap : d.inlineHashGap = c.inlineHashGap

/-- The open span is cut back to the text `t` at its beginning, which may be spelled `t'` if no text
has to be exact; the position goes back with it as far as what is left out may not be skipped. -/
theorem Core.cut (h : Core exact skip past c pos) (hc : ¬ c.Closed) (hgap : c.pendingGap = [])
    {t t' rest : Text} (hraw : c.pending.raw = t ++ rest) (hne : t' ≠ []) (hlen : t'.length = t.length)
    (hexact : exact → t' = t) {q : Nat} (hle : c.pending.start + t.length ≤ q) (hq : q ≤ pos)
    (hskip : ∀ i, c.pending.start + t.length ≤ i → i < q → skip c.raw i) {d : Committer F}
    (hcut : Cut c d t') : Core exact skip past d q := by
  obtain ⟨hp, ht⟩ := h.alone hc
  have htiles := h.tiles
  rw [layout, h.tail_of_open hc] at htiles
  simp only [gapText, hgap, List.map_nil, List.append_nil] at htiles
  rw [hraw] at htiles
  have hpieces := (htiles.cut hle hq hskip).retext hlen hexact
  have hdp : d.plainBuffer = [] := hcut.plain.trans hp
  have hdt : d.terminatorBuffer = [] := hcut.terminator.trans ht
  have hlayout : layout past d = (past ++ c.outbox).map TextCommit.piece ++
      [⟨c.pending.start, c.pending.start + t.length, t'⟩] := by
    simp [layout, tail, gapText, hcut.pendingGap, hcut.raw, hcut.start, hcut.outbox, hdp, hdt,
      run_of_ne hne, hlen]
  refine ⟨?_, ?_, fun _ => ?_, ?_, fun hg => absurd hcut.pendingGap hg, fun _ => ⟨hdp, hdt⟩, .inl hdp,
    fun hpl => absurd hdp hpl⟩
  · rw [hlayout, hcut.source]
    exact hpieces
  · rw [hcut.outbox, hcut.commitFence, hcut.nextCommitId]
    exact h.numbered
  · rw [hcut.stop, hcut.start, hcut.raw]
  · simp [hcut.pendingGap]

/-! ## Closing -/

/-- The deferred characters are emitted one after another. -/
theorem Core.emitGap (e : Env F) (gap : List (Char × Nat)) (h : Core exact skip past c pos)
    (hc : c.Closed) (htight : Tight c pos) (hat : gap.map (·.2) = List.range' pos gap.length)
    (hfit : pos + gap.length ≤ c.raw.length)
    (htext : exact → gap.map (·.1) <+: c.raw.drop pos) :
    Core exact skip past (c.emitGap e gap) (pos + gap.length) ∧
      Tight (c.emitGap e gap) (pos + gap.length) := by
  induction gap generalizing c pos with
  | nil => exact ⟨h, htight⟩
  | cons item gap ih =>
      obtain ⟨ch, at_⟩ := item
      simp only [List.map_cons, List.length_cons, List.range'_succ, List.cons.injEq] at hat
      obtain ⟨rfl, hat⟩ := hat
      simp only [List.length_cons] at hfit
      have hlt : at_ < c.raw.length := by omega
      -- the first deferred character stands at the position reached so far
      have hdrop : exact → c.raw[at_]? = some ch ∧ gap.map (·.1) <+: c.raw.drop (at_ + 1) := by
        intro he
        have hp := htext he
        rw [List.drop_eq_getElem_cons hlt, List.map_cons, List.cons_prefix_cons] at hp
        exact ⟨by rw [List.getElem?_eq_getElem hlt, ← hp.1], hp.2⟩
      obtain ⟨hcore, htight'⟩ := h.emitPlain hc e hlt (fun he => (hdrop he).1) (htight.glues ch)
      have hkept := kept_emitPlain e c ch at_
      obtain ⟨h₁, h₂⟩ := ih hcore (hkept.closed hc) htight' hat (by rw [hkept.raw]; omega)
        (by rw [hkept.raw]; exact fun he => (hdrop he).2)
      rw [List.length_cons, Nat.add_comm gap.length, ← Nat.add_assoc]
      exact ⟨h₁, h₂⟩

end

section
variable [Zero F] [Sub F] [LT F] [DecidableLT F] {exact : Prop} {skip : Text → Nat → Prop}
  {past : List TextCommit} {c : Committer F} {pos : Nat}

/-- The state behind a close. -/
structure ClosedAt (exact : Prop) (skip : Text → Nat → Prop) (past : List TextCommit)
    (c d : Committer F) (pos : Nat) : Prop where
  core : Core exact skip past d pos
  source : d.raw = c.raw
  closed : d.Closed
  candidates : d.candidates = {}
  leadingDecimal : d.leadingDecimal = c.leadingDecimal
  inlineHashGap : d.inlineHashGap = c.inlineHashGap
  tight : Tight d pos
  quiet : c.pendingGap = [] → d.plainBuffer = [] ∧ d.terminatorBuffer = []

/-- The span becomes a commit that ends at `q` or before. -/
theorem Core.commitSpan (h : Core exact skip past c pos) (hc : ¬ c.Closed) (e : Env F)
    (reason : CloseReason) {q : Nat}
    (htiles : Tiles c.raw exact (skip c.raw) ((past ++ c.outbox).map TextCommit.piece ++
      [⟨c.pending.start, c.pending.start + c.pending.raw.length, c.pending.raw⟩]) q) :
    Core exact skip past (Committer.commitSpan e c reason) q := by
  obtain ⟨hp, ht⟩ := h.alone hc
  have hstop := h.stop hc
  refine ⟨?_, ?_, fun hne => absurd rfl hne, rfl, fun hne => absurd rfl hne, fun hne => absurd rfl hne,
    .inl hp, fun hne => absurd hp hne⟩
  · have hlayout : layout past (Committer.commitSpan e c reason) =
        (past ++ c.outbox).map TextCommit.piece ++
          [⟨c.pending.start, c.pending.start + c.pending.raw.length, c.pending.raw⟩] := by
      simp [layout, tail, Committer.commitSpan, makeCommit, gapText, Pending.empty, TextCommit.piece, hp,
        ht, hstop]
    rw [hlayout]
    exact htiles
  · simp only [Committer.commitSpan, makeCommit]
    rw [← List.append_assoc]
    exact h.numbered.snoc rfl rfl

/-- A close leaves no open span, in any state. -/
theorem closeSpan_frame (e : Env F) (c : Committer F) (reason : CloseReason) :
    Frame c (closeSpan e c reason) ∧ (closeSpan e c reason).Closed := by
  have hkept := kept_emitGap e c.pendingGap (commitSpan e c reason)
  exact ⟨⟨hkept.raw, hkept.leadingDecimal, hkept.inlineHashGap, hkept.finalized⟩, hkept.closed rfl⟩

theorem closePending_frame (e : Env F) (c : Committer F) (reason : CloseReason) :
    Frame c (closePending e c reason) ∧ (closePending e c reason).Closed := by
  unfold closePending
  dsimp only
  split
  · next hc => exact ⟨⟨rfl, rfl, rfl, rfl⟩, hc⟩
  · split
    · next word numeric _ =>
      have hgap : Frame c { c with pendingGap := [] } := ⟨rfl, rfl, rfl, rfl⟩
      have hfirst := hgap.trans (openPending_frame { c with pendingGap := [] } word c.pending.start
        (c.pending.start + word.length) .englishWord c.pending.firstAt c.pending.languageHint
        (some c.pending.forceLiteral)).1
      generalize { c with pendingGap := [] }.openPending word c.pending.start
        (c.pending.start + word.length) .englishWord c.pending.firstAt c.pending.languageHint
        (some c.pending.forceLiteral) = first at *
      have hsecond := (hfirst.trans (closeSpan_frame e first reason).1).trans
        (openPending_frame (closeSpan e first reason) numeric (c.pending.start + word.length)
          c.pending.stop .number c.pending.lastAt c.pending.languageHint
          (some c.pending.forceLiteral)).1
      generalize (closeSpan e first reason).openPending numeric (c.pending.start + word.length)
        c.pending.stop .number c.pending.lastAt c.pending.languageHint
        (some c.pending.forceLiteral) = second at *
      obtain ⟨hframe, hclosed⟩ := closeSpan_frame e second reason
      have hall := hsecond.trans hframe
      exact ⟨⟨hall.raw, hall.leadingDecimal, hall.inlineHashGap, hall.finalized⟩, hclosed⟩
    · exact closeSpan_frame e c reason

/-- A close without the split of a percentage. -/
theorem Core.closeSpan (h : Core exact skip past c pos) (hc : ¬ c.Closed) (e : Env F)
    (reason : CloseReason) (hreach : c.pendingGap = [] ∨ Reach c pos) :
    ClosedAt exact skip past c (Committer.closeSpan e c reason) pos := by
  obtain ⟨hp, ht⟩ := h.alone hc
  have htiles := h.tiles
  rw [layout, h.tail_of_open hc] at htiles
  by_cases hgap : c.pendingGap = []
  · simp only [gapText, hgap, List.map_nil, List.append_nil] at htiles
    have hcore := h.commitSpan hc e reason htiles
    have heq : Committer.closeSpan e c reason = Committer.commitSpan e c reason := by
      simp [Committer.closeSpan, Committer.emitGap, hgap]
    rw [heq]
    exact ⟨hcore, rfl, rfl, rfl, rfl, rfl, .inl ht, fun _ => ⟨hp, ht⟩⟩
  · have hend := hreach.resolve_left hgap hc
    have hstop := h.stop hc
    rw [List.length_append] at hend
    have hlen : c.gapText.length = c.pendingGap.length := List.length_map _
    -- the commit ends where the deferred text begins
    have hcut := htiles.cut (Nat.le_refl _) (by omega) (fun i hi hi' => absurd hi' (by omega))
    have hcore := h.commitSpan hc e reason hcut
    have hpos : c.pending.start + c.pending.raw.length + c.pendingGap.length = pos := by omega
    have h₃ := kept_emitGap e c.pendingGap (Committer.commitSpan e c reason)
    obtain ⟨h₁, h₂⟩ := hcore.emitGap e c.pendingGap rfl (.inl ht) (by rw [← hstop]; exact h.gapAt)
      (by
        have := htiles.within
        simp only [Committer.commitSpan, makeCommit]
        omega)
      (fun he => by
        obtain ⟨rest, hrest⟩ := htiles.text he _ (List.mem_append_right _ (List.mem_singleton.2 rfl))
        refine ⟨rest, ?_⟩
        simp only [Committer.commitSpan, makeCommit]
        rw [← List.drop_drop, ← hrest, List.append_assoc, List.drop_left]
        rfl)
    rw [hpos] at h₁ h₂
    exact ⟨h₁, h₃.raw, h₃.closed rfl, h₃.candidates, h₃.leadingDecimal, h₃.inlineHashGap, h₂,
      fun hg => absurd hg hgap⟩

end

/-- An embedded percentage cuts the text in two. -/
theorem embeddedNumericPercent_some {u : UnicodeData} {raw word numeric : Text}
    (h : embeddedNumericPercent u raw = some (word, numeric)) :
    raw = word ++ numeric ∧ word ≠ [] ∧ numeric ≠ [] := by
  have hmem := List.mem_of_find?_eq_some h
  have hmatch := List.find?_some h
  obtain ⟨k, hk, heq⟩ := List.mem_map.1 hmem
  obtain ⟨rfl, rfl⟩ := Prod.mk.inj heq
  rw [List.mem_range] at hk
  refine ⟨(List.take_append_drop (k + 1) raw).symm, ?_, ?_⟩
  · intro hnil
    have := congrArg List.length hnil
    rw [List.length_take, List.length_nil] at this
    omega
  · intro hnil
    simp only [Bool.and_eq_true] at hmatch
    rw [hnil] at hmatch
    exact absurd hmatch.2 (by simp [percentPattern, UnicodeData.sign, UnicodeData.decimal,
      UnicodeData.digits, lit, Lib.Regex.seqs, Lib.Regex.text, Lib.Regex.plus, Lib.Regex.fullmatch,
      Lib.Regex.nullable])

section
variable [Zero F] [Sub F] [LT F] [DecidableLT F] {exact : Prop} {skip : Text → Nat → Prop}
  {past : List TextCommit} {c : Committer F} {pos : Nat}

/-- The two parts of an embedded percentage are opened and closed one after the other. -/
theorem Core.closeParts (h : Core exact skip past c pos) (hc : ¬ c.Closed) (e : Env F)
    (reason : CloseReason) (hgap : c.pendingGap = [])
    (hend : c.pending.start + (c.pending.raw ++ c.gapText).length = pos) {word numeric : Text}
    (hraw : c.pending.raw = word ++ numeric) (hw : word ≠ []) (hn : numeric ≠ []) :
    ClosedAt exact skip past c
      { Committer.closeSpan e ((Committer.closeSpan e ({ c with pendingGap := [] }.openPending word
          c.pending.start (c.pending.start + word.length) .englishWord c.pending.firstAt
          c.pending.languageHint (some c.pending.forceLiteral)) reason).openPending numeric
          (c.pending.start + word.length) c.pending.stop .number c.pending.lastAt
          c.pending.languageHint (some c.pending.forceLiteral)) reason with
        pendingGap := c.pendingGap } pos := by
  obtain ⟨hp, ht⟩ := h.alone hc
  have htiles := h.tiles
  rw [layout, h.tail_of_open hc] at htiles
  have hfit : pos ≤ c.raw.length := htiles.within
  simp only [gapText, hgap, List.map_nil, List.append_nil] at hend htiles
  have hstop : c.pending.stop = c.pending.start + word.length + numeric.length := by
    rw [h.stop hc, hraw, List.length_append, Nat.add_assoc]
  rw [hraw, List.length_append] at hend
  have htext : exact → word ++ numeric <+: c.raw.drop c.pending.start := by
    intro he
    rw [← hraw]
    exact htiles.text he _ (List.mem_append_right _ (List.mem_singleton.2 rfl))
  -- the word
  have hopen : { c with pendingGap := [] }.openPending word c.pending.start
      (c.pending.start + word.length) .englishWord c.pending.firstAt c.pending.languageHint
      (some c.pending.forceLiteral) =
      { c with pending := .empty, pendingGap := [] }.openPending word c.pending.start
      (c.pending.start + word.length) .englishWord c.pending.firstAt c.pending.languageHint
      (some c.pending.forceLiteral) := by
    simp [Committer.openPending, Committer.flushTerminatorRun, ht]
  rw [hopen, hstop, hgap]
  obtain ⟨hcore, hreach⟩ := (h.abandon hc).openPart rfl hp hw (by simp only; omega)
    (fun he => (List.prefix_append word numeric).trans (htext he)) .englishWord c.pending.firstAt
    c.pending.languageHint (some c.pending.forceLiteral)
  obtain ⟨⟨h₁, h₄, h₅, -⟩, h₂, h₃⟩ := openPending_frame
    ({ c with pending := .empty, pendingGap := [] } : Committer F) word c.pending.start
    (c.pending.start + word.length) .englishWord c.pending.firstAt c.pending.languageHint
    (some c.pending.forceLiteral)
  have hclose := hcore.closeSpan (by unfold Closed; rw [h₂]; exact hw) e reason (.inl h₃)
  obtain ⟨hplain, -⟩ := hclose.quiet h₃
  have hsource := hclose.source.trans h₁
  have hdecimal := hclose.leadingDecimal.trans h₄
  have hhash := hclose.inlineHashGap.trans h₅
  generalize Committer.closeSpan e _ reason = d at *
  -- the percentage
  obtain ⟨hcore', hreach'⟩ := hclose.core.openPart hclose.closed hplain hn (by rw [hsource]; simp only; omega)
    (fun he => by
      obtain ⟨rest, hrest⟩ := htext he
      refine ⟨rest, ?_⟩
      rw [hsource]
      simp only
      rw [← List.drop_drop, ← hrest, List.append_assoc, List.drop_left])
    .number c.pending.lastAt c.pending.languageHint (some c.pending.forceLiteral)
  obtain ⟨⟨g₁, g₄, g₅, -⟩, g₂, g₃⟩ := openPending_frame d numeric (c.pending.start + word.length)
    (c.pending.start + word.length + numeric.length) .number c.pending.lastAt c.pending.languageHint
    (some c.pending.forceLiteral)
  have hgap' := g₃.trans (hclose.core.gap_of_closed hclose.closed)
  have hclose' := hcore'.closeSpan (by unfold Closed; rw [g₂]; exact hn) e reason (.inl hgap')
  have hend' : c.pending.start + word.length + numeric.length = pos := by omega
  rw [hend'] at hclose' ⊢
  have hfinal := hclose'.core.gap_of_closed hclose'.closed
  have heta : ∀ x : Committer F, x.pendingGap = [] → { x with pendingGap := [] } = x := by
    intro x hx
    cases x
    simp_all
  rw [heta _ hfinal]
  exact ⟨hclose'.core, hclose'.source.trans (g₁.trans hsource), hclose'.closed, hclose'.candidates,
    hclose'.leadingDecimal.trans (g₄.trans hdecimal), hclose'.inlineHashGap.trans (g₅.trans hhash),
    hclose'.tight, fun _ => hclose'.quiet hgap'⟩

/-- A close turns the open span into commits. -/
theorem Core.closePending (h : Core exact skip past c pos) (hc : ¬ c.Closed) (e : Env F)
    (reason : CloseReason)
    (hreach : Reach c pos ∨ c.pendingGap = [] ∧ c.pending.kind ≠ .englishWord) :
    ClosedAt exact skip past c (Committer.closePending e c reason) pos := by
  have hne : c.pending.raw ≠ [] := hc
  unfold Committer.closePending
  dsimp only
  rw [if_neg hne]
  split
  · next word numeric hsplit =>
    split at hsplit
    · next hword =>
      obtain ⟨hraw, hw, hn⟩ := embeddedNumericPercent_some hsplit
      have hgap : c.pendingGap = [] := by
        by_contra hg
        have := (h.gapOpen hg).2
        rw [hword.1] at this
        rcases this with h | h | h <;> cases h
      have hend : c.pending.start + (c.pending.raw ++ c.gapText).length = pos :=
        hreach.resolve_right (fun hr => hr.2 hword.1) hc
      exact h.closeParts hc e reason hgap hend hraw hw hn
    · cases hsplit
  · exact h.closeSpan hc e reason (hreach.symm.imp_left (·.1))

end

end Committer

end StreamingTts.Frontend
