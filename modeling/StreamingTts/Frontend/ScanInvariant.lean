import StreamingTts.Frontend.Layout

/-!
# The invariant of the character loop

`Inv` holds of the committer between two characters: the layout is sound up to the position, the open
span reaches it and holds the text of the source, and the candidate flags fit the open span. `CharOk`
is what a character must meet for the loop body to keep it; the places where the loop body goes wrong
are exactly the ones it excludes. The lemmas go block by block through the loop body.
-/

namespace StreamingTts.Frontend

/-! ## Candidate flags -/

namespace Candidates

/-- The flags of Markdown spans. -/
def markdown (k : Candidates) : Candidates := { k with leadingParen := false, bang := false }

/-- At most one flag of a Markdown span is set. -/
def Solo (k : Candidates) : Prop :=
  k.markdown = {} ∨ k.markdown = { bracket := true } ∨ k.markdown = { bracketClosed := true } ∨
    k.markdown = { lineMarker := true } ∨ k.markdown = { orderedMarker := true } ∨
    k.markdown = { image := true } ∨ k.markdown = { autolink := true }

end Candidates

namespace Committer

open Lib (Piece Tiles)

variable {F : Type}

/-- The candidate flags fit the open span. -/
structure Flags (c : Committer F) : Prop where
  solo : c.candidates.Solo
  kind : c.candidates.markdown ≠ {} → c.pending.kind = .markdown ∧ ¬ c.Closed
  opener : ∀ x, c.pending.raw = [x] → isKeycapBase x = true → c.candidates.markdown = {}
  image : c.candidates.image = true → c.pending.raw.length = 1
  line : c.candidates.lineMarker = true →
    c.pending.raw.length = 1 ∨ c.pending.raw.all (fun x => x = '-') = true
  ordered : c.candidates.orderedMarker = true → 2 ≤ c.pending.raw.length ∧ '.' ∉ c.pending.raw.dropLast
  bang : c.candidates.bang = true → c.pending.kind = .englishWord ∧ 2 ≤ c.pending.raw.length
  paren : c.candidates.leadingParen = true → c.pending.kind = .math → c.pendingGap = []
  decimal : c.leadingDecimal = true → c.pendingGap = [] ∧ c.plainBuffer = [] ∧
    c.terminatorBuffer = [] ∧ (¬ c.Closed → c.pending.kind = .number)

/-- Flags without a Markdown span. -/
theorem Flags.of_markdown_eq {c : Committer F} (hmark : c.candidates.markdown = {})
    (hbang : c.candidates.bang = false)
    (hparen : c.candidates.leadingParen = true → c.pending.kind = .math → c.pendingGap = [])
    (hdecimal : c.leadingDecimal = true → c.pendingGap = [] ∧ c.plainBuffer = [] ∧
      c.terminatorBuffer = [] ∧ (¬ c.Closed → c.pending.kind = .number)) : Flags c where
  solo := .inl hmark
  kind := fun h => absurd hmark h
  opener := fun _ _ _ => hmark
  image := fun h => absurd h (by rw [show c.candidates.image = false from congrArg (·.image) hmark]; simp)
  line := fun h =>
    absurd h (by rw [show c.candidates.lineMarker = false from congrArg (·.lineMarker) hmark]; simp)
  ordered := fun h =>
    absurd h (by rw [show c.candidates.orderedMarker = false from congrArg (·.orderedMarker) hmark]; simp)
  bang := fun h => absurd h (by rw [hbang]; simp)
  paren := hparen
  decimal := hdecimal

/-! ## The invariant -/

/-- An inline hash: one that is not the first of its line. -/
def InlineHash (u : UnicodeData) (src : Text) (i : Nat) : Prop :=
  (src[i]?).any (fun x => u.lexChar x = '#') = true ∧ atLineStart src i = false

/-- The positions that may be skipped: emoji and their components, the base of a keycap, an inline
hash and the whitespace behind it. -/
structure Skips (u : UnicodeData) (skip : Text → Nat → Prop) : Prop where
  emoji : ∀ {src i x}, src[i]? = some x → u.filtered x = true → skip src i
  keycap : ∀ {src i x y}, src[i]? = some x → isKeycapBase x = true → src[i + 1]? = some y →
    isKeycapMark y = true → skip src i
  hash : ∀ {src i}, InlineHash u src i → skip src i
  space : ∀ {src i x}, InlineHash u src i → src[i + 1]? = some x → u.isSpace (u.lexChar x) = true →
    skip src (i + 1)
  grow : ∀ {src i} (more : Text), i < src.length → skip src i → skip (src ++ more) i

/-- The invariant between two characters. -/
structure Inv (u : UnicodeData) (exact : Prop) (skip : Text → Nat → Prop) (past : List TextCommit)
    (c : Committer F) (pos : Nat) : Prop where
  core : Core exact skip past c pos
  reach : Reach c pos
  flags : Flags c
  text : c.pending.raw ++ c.gapText <+: c.raw.drop c.pending.start
  hash : c.inlineHashGap = true →
    0 < pos ∧ InlineHash u c.raw (pos - 1) ∧ c.Closed ∧ c.plainBuffer = []

section
variable {u : UnicodeData} {exact : Prop} {skip : Text → Nat → Prop} {past : List TextCommit}
  {c : Committer F} {pos : Nat}

/-- A span that is no Markdown span has none of its flags. -/
theorem Inv.markdown_eq (h : Inv u exact skip past c pos) (hk : c.pending.kind ≠ .markdown ∨ c.Closed) :
    c.candidates.markdown = {} := by
  by_contra hne
  obtain ⟨h₁, h₂⟩ := h.flags.kind hne
  rcases hk with hk | hk
  · exact hk h₁
  · exact h₂ hk

theorem Inv.bang_eq (h : Inv u exact skip past c pos) (hk : c.pending.kind ≠ .englishWord ∨ c.Closed) :
    c.candidates.bang = false := by
  cases hb : c.candidates.bang with
  | false => rfl
  | true =>
      obtain ⟨h₁, h₂⟩ := h.flags.bang hb
      rcases hk with hk | hk
      · exact absurd h₁ hk
      · have hraw : c.pending.raw = [] := hk
        rw [hraw] at h₂
        simp at h₂

/-- Two states with the same layout and the same flags. -/
structure Alike (c d : Committer F) : Prop where
  raw : d.raw = c.raw
  spanRaw : d.pending.raw = c.pending.raw
  start : d.pending.start = c.pending.start
  stop : d.pending.stop = c.pending.stop
  kind : d.pending.kind = c.pending.kind
  pendingGap : d.pendingGap = c.pendingGap
  candidates : d.candidates = c.candidates
  leadingDecimal : d.leadingDecimal = c.leadingDecimal
  inlineHashGap : d.inlineHashGap = c.inlineHashGap
  plainBuffer : d.plainBuffer = c.plainBuffer
  plainStart : d.plainStart = c.plainStart
  terminatorBuffer : d.terminatorBuffer = c.terminatorBuffer
  terminatorStart : d.terminatorStart = c.terminatorStart
  outbox : d.outbox = c.outbox
  commitFence : d.commitFence = c.commitFence
  nextCommitId : d.nextCommitId = c.nextCommitId

/-- The invariant depends on nothing else. -/
theorem Inv.alike (h : Inv u exact skip past c pos) {d : Committer F} (ha : Alike c d) :
    Inv u exact skip past d pos := by
  rcases c with ⟨raw, ⟨spanRaw, start, stop, kind, _, _, _, _, _⟩, _⟩
  rcases d with ⟨raw', ⟨spanRaw', start', stop', kind', _, _, _, _, _⟩, _⟩
  obtain ⟨h₁, h₂, h₃, h₄, h₅, h₆, h₇, h₈, h₉, h₁₀, h₁₁, h₁₂, h₁₃, h₁₄, h₁₅, h₁₆⟩ := ha
  dsimp only at h₁ h₂ h₃ h₄ h₅ h₆ h₇ h₈ h₉ h₁₀ h₁₁ h₁₂ h₁₃ h₁₄ h₁₅ h₁₆
  subst h₁ h₂ h₃ h₄ h₅ h₆ h₇ h₈ h₉ h₁₀ h₁₁ h₁₂ h₁₃ h₁₄ h₁₅ h₁₆
  exact ⟨⟨h.core.tiles, h.core.numbered, h.core.stop, h.core.gapAt, h.core.gapOpen, h.core.alone,
      h.core.single, h.core.plainReach⟩, h.reach,
    ⟨h.flags.solo, h.flags.kind, h.flags.opener, h.flags.image, h.flags.line, h.flags.ordered,
      h.flags.bang, h.flags.paren, h.flags.decimal⟩, h.text, h.hash⟩

/-- What the layout does not depend on. -/
theorem Inv.setAside (h : Inv u exact skip past c pos) (jsonInString jsonEscape limitFallback : Bool)
    (jsonDepth committedRawEnd : Nat) (currentLang : LanguageKind) :
    Inv u exact skip past { c with jsonInString, jsonEscape, limitFallback, jsonDepth, committedRawEnd,
                                   currentLang } pos :=
  h.alike ⟨rfl, rfl, rfl, rfl, rfl, rfl, rfl, rfl, rfl, rfl, rfl, rfl, rfl, rfl, rfl, rfl⟩

/-- The next character of the source. -/
theorem Inv.next_lt {ch : Char} (hget : c.raw[pos]? = some ch) : pos < c.raw.length :=
  (List.getElem?_eq_some_iff.1 hget).1

/-- The open span and the next character are the text of the source. -/
theorem Inv.text_snoc (h : Inv u exact skip past c pos) (hc : ¬ c.Closed) {ch : Char}
    (hget : c.raw[pos]? = some ch) :
    c.pending.raw ++ c.gapText ++ [ch] <+: c.raw.drop c.pending.start := by
  obtain ⟨rest, hrest⟩ := h.text
  have hend := h.reach hc
  have hdrop : c.raw.drop pos = rest := by
    rw [← hend, ← List.drop_drop, ← hrest, List.drop_left]
  obtain ⟨hlt, hch⟩ := List.getElem?_eq_some_iff.1 hget
  rw [List.drop_eq_getElem_cons hlt, hch] at hdrop
  exact ⟨c.raw.drop (pos + 1), by rw [← hrest, ← hdrop, List.append_assoc]; rfl⟩

/-- The open span of `c` took the next character, and nothing else of the layout changed. -/
structure Extended (c d : Committer F) (ch : Char) (pos : Nat) : Prop where
  source : d.raw = c.raw
  raw : d.pending.raw = c.pending.raw ++ [ch]
  start : d.pending.start = c.pending.start
  stop : d.pending.stop = pos + 1
  pendingGap : d.pendingGap = []
  plain : d.plainBuffer = c.plainBuffer
  terminator : d.terminatorBuffer = c.terminatorBuffer
  outbox : d.outbox = c.outbox
  commitFence : d.commitFence = c.commitFence
  nextCommitId : d.nextCommitId = c.nextCommitId
  inlineHashGap : d.inlineHashGap = c.inlineHashGap

/-- The layout behind a character that the open span took. -/
theorem Inv.extendedCore (h : Inv u exact skip past c pos) (hc : ¬ c.Closed) (hgap : c.pendingGap = [])
    {ch : Char} (hget : c.raw[pos]? = some ch) {d : Committer F} (hx : Extended c d ch pos) :
    Core exact skip past d (pos + 1) ∧ Reach d (pos + 1) := by
  have hend := h.reach hc
  simp only [gapText, hgap, List.map_nil, List.append_nil] at hend
  exact h.core.pushOpen hc h.reach (Inv.next_lt hget) (fun _ => hget) hx.source
    hx.outbox hx.commitFence hx.nextCommitId hx.plain hx.terminator hx.start
    (by simp [gapText, hx.raw, hx.pendingGap, hgap]) (by simp [hx.raw])
    (by rw [hx.stop, hx.start, hx.raw, List.length_append, List.length_singleton]; omega)
    (by simp [hx.pendingGap]) (fun hg => absurd hx.pendingGap hg)

/-- The open span takes the next character, with flags that fit what it becomes. -/
theorem Inv.extended (h : Inv u exact skip past c pos) (hc : ¬ c.Closed) (hgap : c.pendingGap = [])
    {ch : Char} (hget : c.raw[pos]? = some ch) (hash : c.inlineHashGap = false) {d : Committer F}
    (hx : Extended c d ch pos) (hflags : Flags d) : Inv u exact skip past d (pos + 1) := by
  have htext := h.text_snoc hc hget
  simp only [gapText, hgap, List.map_nil, List.append_nil] at htext
  obtain ⟨hcore, hreach⟩ := h.extendedCore hc hgap hget hx
  refine ⟨hcore, hreach, hflags, ?_, ?_⟩
  · rw [hx.raw, hx.start, hx.source]
    simpa [gapText, hx.pendingGap] using htext
  · intro hh
    rw [hx.inlineHashGap, hash] at hh
    cases hh

/-- A character is emitted where no span is open. -/
theorem Inv.emitPlain (h : Inv u exact skip past c pos) (hc : c.Closed) {ch : Char}
    (e : Env F) (hlt : pos < c.raw.length) (hch : exact → c.raw[pos]? = some ch)
    (hglue : Glues c ch pos) (hdecimal : c.leadingDecimal = false) (hash : c.inlineHashGap = false) :
    Inv u exact skip past (c.emitPlain e ch pos) (pos + 1) ∧ Tight (c.emitPlain e ch pos) (pos + 1) := by
  obtain ⟨hcore, htight⟩ := h.core.emitPlain hc e hlt hch hglue
  have hkept := kept_emitPlain e c ch pos
  have hclosed := hkept.closed hc
  have hraw : (c.emitPlain e ch pos).pending.raw = [] := hclosed
  have hgap := hcore.gap_of_closed hclosed
  refine ⟨⟨hcore, fun hne => absurd hclosed hne, ?_, by simp [gapText, hraw, hgap], ?_⟩, htight⟩
  · refine .of_markdown_eq ?_ ?_ (fun _ _ => hgap) ?_
    · rw [hkept.candidates]
      exact h.markdown_eq (.inr hc)
    · rw [hkept.candidates]
      exact h.bang_eq (.inr hc)
    · intro hd
      rw [hkept.leadingDecimal, hdecimal] at hd
      cases hd
  · intro hh
    rw [hkept.inlineHashGap, hash] at hh
    cases hh

/-- A step that only moves waiting text to the commits keeps the invariant. -/
theorem Inv.kept (h : Inv u exact skip past c pos) {d : Committer F} (hkept : Kept c d)
    (hcore : Core exact skip past d pos) (hplain : c.plainBuffer = [] → d.plainBuffer = [])
    (hterm : c.terminatorBuffer = [] → d.terminatorBuffer = []) : Inv u exact skip past d pos := by
  have hgapText : d.gapText = c.gapText := by simp only [gapText, hkept.pendingGap]
  have hclosed : d.Closed ↔ c.Closed := by unfold Closed; rw [hkept.pending]
  refine ⟨hcore, ?_, ⟨?_, ?_, ?_, ?_, ?_, ?_, ?_, ?_, ?_⟩, ?_, ?_⟩
  · unfold Reach
    rw [hkept.pending, hgapText]
    exact h.reach
  · rw [hkept.candidates]; exact h.flags.solo
  · rw [hkept.candidates, hkept.pending, hclosed]; exact h.flags.kind
  · rw [hkept.candidates, hkept.pending]; exact h.flags.opener
  · rw [hkept.candidates, hkept.pending]; exact h.flags.image
  · rw [hkept.candidates, hkept.pending]; exact h.flags.line
  · rw [hkept.candidates, hkept.pending]; exact h.flags.ordered
  · rw [hkept.candidates, hkept.pending]; exact h.flags.bang
  · rw [hkept.candidates, hkept.pending, hkept.pendingGap]; exact h.flags.paren
  · rw [hkept.leadingDecimal, hkept.pendingGap, hkept.pending, hclosed]
    intro hd
    obtain ⟨h₁, h₂, h₃, h₄⟩ := h.flags.decimal hd
    exact ⟨h₁, hplain h₂, hterm h₃, h₄⟩
  · rw [hkept.pending, hgapText, hkept.raw]; exact h.text
  · rw [hkept.inlineHashGap, hkept.raw, hclosed]
    intro hh
    obtain ⟨h₁, h₂, h₃, h₄⟩ := h.hash hh
    exact ⟨h₁, h₂, h₃, hplain h₄⟩

/-- The plain text is flushed. -/
theorem Inv.flushPlain (h : Inv u exact skip past c pos) : Inv u exact skip past c.flushPlain pos :=
  h.kept (kept_flushPlain c) h.core.flushPlain (fun _ => flushPlain_plainBuffer c)
    (fun ht => (flushPlain_terminatorBuffer c).trans ht)

/-- The terminators are flushed. -/
theorem Inv.flushTerminatorRun (h : Inv u exact skip past c pos) :
    Inv u exact skip past c.flushTerminatorRun pos :=
  h.kept (kept_flushTerminatorRun c) h.core.flushTerminatorRun
    (fun hp => (flushTerminatorRun_plainBuffer c).trans hp)
    (fun _ => flushTerminatorRun_terminatorBuffer c)

/-- A character is skipped where nothing waits for it. -/
theorem Inv.pass (h : Inv u exact skip past c pos) (hc : c.Closed) (hplain : c.plainBuffer = [])
    (hlt : pos < c.raw.length) (hskip : skip c.raw pos) {d : Committer F}
    (hd : d = { c with inlineHashGap := false, committedRawEnd := d.committedRawEnd }) :
    Inv u exact skip past d (pos + 1) := by
  have hcore := h.core
  rw [hd]
  exact ⟨⟨hcore.tiles.pass hlt hskip, hcore.numbered, hcore.stop, hcore.gapAt, hcore.gapOpen,
      hcore.alone, hcore.single, fun hne => absurd hplain hne⟩, fun hne => absurd hc hne,
    ⟨h.flags.solo, h.flags.kind, h.flags.opener, h.flags.image, h.flags.line, h.flags.ordered,
      h.flags.bang, h.flags.paren, h.flags.decimal⟩, h.text, fun hh => (by cases hh)⟩

/-- Behind a close the invariant holds again. -/
theorem ClosedAt.inv {d : Committer F} [Zero F] [Sub F] [LT F] [DecidableLT F]
    (h : ClosedAt exact skip past c d pos) (hdecimal : c.leadingDecimal = true → c.pendingGap = [])
    (hash : c.inlineHashGap = false) : Inv u exact skip past d pos := by
  have hraw : d.pending.raw = [] := h.closed
  have hgap := h.core.gap_of_closed h.closed
  refine ⟨h.core, fun hne => absurd h.closed hne, ?_, by simp [gapText, hraw, hgap], ?_⟩
  · refine .of_markdown_eq (by rw [h.candidates]; rfl) (by rw [h.candidates]) (fun _ _ => hgap) ?_
    intro hd
    rw [h.leadingDecimal] at hd
    obtain ⟨hp, ht⟩ := h.quiet (hdecimal hd)
    exact ⟨hgap, hp, ht, fun hne => absurd h.closed hne⟩
  · intro hh
    rw [h.inlineHashGap, hash] at hh
    cases hh

end

/-! ## What a character must meet -/

/-- An autolink that the character ends without a link. -/
def autolinkFails (e : Env F) (raw : Text) (ch : Char) : Prop :=
  autolinkCloses e (raw ++ [ch]) ch = false ∧ autolinkOpen e (raw ++ [ch]) = false

/-- A leading parenthesis that the character makes ordinary prose. -/
def parenFails (e : Env F) (raw : Text) (ch : Char) : Prop :=
  parenKeeps e raw ch = false ∧ parenPromotes e ch = false ∧ parenClosesCode e raw ch = false

/-- The condition on a character and the state it is scanned in. `decimal`: a digit meets the flag of
a decimal point only with its span still open. `ordered`: the dot of an ordered marker is the ASCII
one. `glue`: a terminator does not join a run that ends before the previous character. `bang`,
`image`, `autolink`: the marker that is rolled back is the ASCII one, where texts are exact.
`autolinkKept`, `parenKept`: a rolled back autolink or parenthesis holds nothing but its opener, where
no text may be lost. -/
structure CharOk (exact cover : Prop) (e : Env F) (c : Committer F) (ch : Char) (pos : Nat) : Prop where
  decimal : c.leadingDecimal = true → e.u.digitLike ch = true → ¬ c.Closed
  ordered : c.candidates.orderedMarker = true → e.u.filtered ch = false → '.' ∈ c.pending.raw
  glue : c.Closed → opensLeadingDecimal e c ch pos = false → Glues c ch pos
  bang : exact → c.candidates.bang = true → e.u.filtered ch = false → ch ≠ '[' →
    c.pending.raw.getLast? = some '!'
  image : exact → c.candidates.image = true → e.u.filtered ch = false → c.pending.raw = ['!']
  autolink : exact → c.candidates.autolink = true → e.u.filtered ch = false →
    autolinkFails e c.pending.raw ch → c.pending.raw.head? = some '<'
  autolinkKept : cover → c.candidates.autolink = true → e.u.filtered ch = false →
    autolinkFails e c.pending.raw ch → c.pending.raw.length = 1
  parenKept : cover → ¬ c.Closed → c.candidates.leadingParen = true → c.pending.kind = .math →
    e.u.filtered ch = false → parenFails e c.pending.raw ch → c.pending.raw.length = 1

/-- The outcome of a block that is not the next block's business: done with the character, or ready
to scan it again. -/
def Good (u : UnicodeData) (exact : Prop) (skip : Text → Nat → Prop) (past : List TextCommit) (src : Text)
    (pos : Nat) : Outcome F → Prop
  | .done d => d.raw = src ∧ Inv u exact skip past d (pos + 1)
  | .rescan d => d.raw = src ∧ Inv u exact skip past d pos ∧ d.Closed ∧ Tight d pos ∧
      d.leadingDecimal = false ∧ d.inlineHashGap = false
  | .next _ => False

theorem Good.andThen {u : UnicodeData} {exact : Prop} {skip : Text → Nat → Prop} {past : List TextCommit}
    {src : Text} {pos : Nat} {o : Outcome F} (h : Good u exact skip past src pos o)
    (block : Committer F → Outcome F) : Good u exact skip past src pos (o.andThen block) := by
  cases o with
  | done d => exact h
  | rescan d => exact h
  | next d => exact h.elim

section
variable [Zero F] [Sub F] [LT F] [DecidableLT F] {u : UnicodeData} {exact : Prop}
  {skip : Text → Nat → Prop} {past : List TextCommit} {c : Committer F} {pos : Nat}

/-- The open span is closed. -/
theorem Inv.close (h : Inv u exact skip past c pos) (hc : ¬ c.Closed) (e : Env F) (reason : CloseReason) :
    ClosedAt exact skip past c (closePending e c reason) pos :=
  h.core.closePending hc e reason (.inl h.reach)

/-- A close without an open span does nothing. -/
theorem closePending_of_closed (hc : c.Closed) (e : Env F) (reason : CloseReason) :
    closePending e c reason = c := by
  have hraw : c.pending.raw = [] := hc
  simp [closePending, hraw]

/-- The span is closed and the character scanned again. -/
theorem ClosedAt.rescan {d : Committer F} (h : ClosedAt exact skip past c d pos)
    (hdecimal : c.leadingDecimal = false) (hash : c.inlineHashGap = false) :
    Good u exact skip past c.raw pos (.rescan d) :=
  ⟨h.source, h.inv (fun hd => absurd hd (by rw [hdecimal]; simp)) hash, h.closed, h.tight,
    h.leadingDecimal.trans hdecimal, h.inlineHashGap.trans hash⟩

/-- The span is closed and the character emitted behind it. -/
theorem ClosedAt.emitPlain {d : Committer F} (h : ClosedAt exact skip past c d pos)
    (hdecimal : c.leadingDecimal = false) (hash : c.inlineHashGap = false) {ch : Char} (e : Env F)
    (hget : c.raw[pos]? = some ch) :
    Good u exact skip past c.raw pos (.done (d.emitPlain e ch pos)) := by
  have hinv : Inv u exact skip past d pos := h.inv (fun hd => absurd hd (by rw [hdecimal]; simp)) hash
  rw [← h.source] at hget
  have hemit := hinv.emitPlain h.closed e (Inv.next_lt hget) (fun _ => hget) (h.tight.glues ch)
    (h.leadingDecimal.trans hdecimal) (h.inlineHashGap.trans hash)
  exact ⟨(kept_emitPlain e d ch pos).raw.trans h.source, hemit.1⟩

end

end Committer

end StreamingTts.Frontend
