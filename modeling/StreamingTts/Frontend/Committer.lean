import StreamingTts.Frontend.Language

/-!
# The state of the text committer

`IncrementalTextCommitter` of `engine/frontend/text_commitment/committer.py` without its character
loop: the open span, the two buffers of plain text, and how spans and buffers become commits. The
floats of the clock and of the candidate costs are a type `F` with the operations the code applies
to them, about which nothing is assumed. The normalizer is a parameter (`Adapter`), and so are the
pure functions that choose the spoken form of structured text; what a commit says about alignment,
candidates and costs is left out, and so is the spoken frontier, which sees every commit appended to
the ones before and therefore never objects.
-/

namespace StreamingTts.Frontend

open Lib (Regex)
open Lib.Regex (seqs alts opt plus between)

/-! ## Data -/

/-- `CommitKind`. -/
inductive CommitKind
  | normalized
  | fallback
  | literal
  deriving DecidableEq, Repr

/-- `FallbackPolicy`. -/
inductive FallbackPolicy
  | cardinalOrLiteral
  | literal
  deriving DecidableEq, Repr

/-- Why a span was closed (`reason`). -/
inductive CloseReason
  | boundary
  | metadataClosed
  | final
  | maxPending
  | timeout
  deriving DecidableEq, Repr

/-- `TextCommit`. -/
structure TextCommit where
  rawStart : Nat
  rawEnd : Nat
  ttsText : Text
  spanKind : SpanKind
  commitKind : CommitKind
  fence : Nat
  rawText : Text
  language : LanguageKind
  commitId : Nat
  spanId : Nat
  semanticFamily : SemanticFamily
  closureReason : Option CloseReason
  fallbackReason : Option CloseReason
  deriving DecidableEq, Repr

/-- `TextNormalizationConfig`: the waits are in seconds, and `familyMarginThresholds` holds the
entries that name a family. -/
structure Config (F : Type) where
  enabled : Bool := true
  language : Text := "mixed_zh_en".toList
  semanticMaxWait : F
  semanticIdleWait : F
  fallback : FallbackPolicy := .cardinalOrLiteral
  maxPendingChars : Nat := 512
  candidateNbest : Int := 8
  marginThreshold : Option F := none
  familyMarginThresholds : List (SemanticFamily × F) := []

/-- What `normalize_closed_result` gave: a result with or without a text, nothing, or the text of an
adapter that only has `normalize_closed_stream`. -/
inductive ClosedOutcome
  | result (value : Option Text)
  | missing
  | stream (value : Option Text)

/-- The normalizer with its backend, and the projection of structured text. -/
structure Adapter (F : Type) where
  normalizeClosed : Text → LanguageKind → SpanKind → ClosedOutcome
  normalize : Text → LanguageKind → SpanKind → Option Text
  normalizeClosedStream : Text → LanguageKind → SpanKind → Option Text
  normalizeIdCard : Text → LanguageKind → Option Text
  normalizeDigitSequence : Text → LanguageKind → Option Text
  normalizePhone : Text → LanguageKind → Option Text
  fallback : Text → LanguageKind → SpanKind → FallbackPolicy → Text
  candidateCosts : Text → LanguageKind → SpanKind → Nat → List (Option F)
  unescape : Text → Text
  sanitizeUrl : Text → Text
  projectReadable : Text → Text
  isMarkdownStructured : Text → Bool

/-- What a committer is built from. -/
structure Env (F : Type) where
  u : UnicodeData
  config : Config F
  adapter : Adapter F

/-- `_Pending`, the open span. -/
structure Pending (F : Type) where
  raw : Text
  start : Nat
  stop : Nat
  kind : SpanKind
  firstAt : F
  lastAt : F
  spanId : Nat
  languageHint : Option LanguageKind
  forceLiteral : Bool

/-- The one-shot candidate flags that every close resets. -/
structure Candidates where
  bracket : Bool := false
  bracketClosed : Bool := false
  lineMarker : Bool := false
  orderedMarker : Bool := false
  leadingParen : Bool := false
  image : Bool := false
  autolink : Bool := false
  bang : Bool := false
  deriving DecidableEq, Repr

/-- The state of an `IncrementalTextCommitter`; `raw_cursor` is the length of `raw`. -/
structure Committer (F : Type) where
  raw : Text
  pending : Pending F
  pendingGap : List (Char × Nat)
  candidates : Candidates
  leadingDecimal : Bool
  inlineHashGap : Bool
  jsonInString : Bool
  jsonEscape : Bool
  jsonDepth : Nat
  plainBuffer : Text
  plainStart : Nat
  terminatorBuffer : Text
  terminatorStart : Nat
  outbox : List TextCommit
  committedRawEnd : Nat
  commitFence : Nat
  nextCommitId : Nat
  nextSpanId : Nat
  lateExtension : Bool
  forceLiteralNext : Bool
  lateExtensionAnchor : Option Nat
  limitFallback : Bool
  finalized : Bool
  currentLang : LanguageKind
  activeLangHint : Option LanguageKind
  languageResolver : LanguageResolver

variable {F : Type}

/-- `_Pending()`. -/
def Pending.empty [Zero F] : Pending F :=
  ⟨[], 0, 0, .plain, 0, 0, 0, none, false⟩

namespace Committer

/-- `IncrementalTextCommitter.__init__`. -/
def new [Zero F] (e : Env F) : Committer F where
  raw := []
  pending := .empty
  pendingGap := []
  candidates := {}
  leadingDecimal := false
  inlineHashGap := false
  jsonInString := false
  jsonEscape := false
  jsonDepth := 0
  plainBuffer := []
  plainStart := 0
  terminatorBuffer := []
  terminatorStart := 0
  outbox := []
  committedRawEnd := 0
  commitFence := 0
  nextCommitId := 1
  nextSpanId := 1
  lateExtension := false
  forceLiteralNext := false
  lateExtensionAnchor := none
  limitFallback := false
  finalized := false
  currentLang :=
    if e.config.language = "mixed_zh_en".toList then .unknown
    else if startsWith e.config.language "zh" then .zh else .en
  activeLangHint := none
  languageResolver := e.u.languageResolver e.config.language

/-! ## Commits -/

/-- `_make_commit`. -/
def makeCommit (c : Committer F) (raw : Text) (start stop : Nat) (spanKind : SpanKind)
    (commitKind : CommitKind) (value : Text) (language : LanguageKind) (family : SemanticFamily)
    (closureReason fallbackReason : Option CloseReason) : Committer F × TextCommit :=
  ({ c with commitFence := c.commitFence + 1, nextCommitId := c.nextCommitId + 1 },
    { rawStart := start, rawEnd := stop, ttsText := value, spanKind, commitKind,
      fence := c.commitFence + 1, rawText := raw, language, commitId := c.nextCommitId,
      spanId := c.pending.spanId, semanticFamily := family, closureReason, fallbackReason })

/-- A commit of plain text, put into the outbox. -/
def commitPlain (c : Committer F) (raw : Text) (start : Nat) : Committer F :=
  let made := c.makeCommit raw start (start + raw.length) .plain .literal raw c.currentLang .prose
    none none
  { made.1 with outbox := made.1.outbox ++ [made.2] }

/-- `_flush_plain`. -/
def flushPlain (c : Committer F) : Committer F :=
  if c.plainBuffer = [] then c
  else { c.commitPlain c.plainBuffer c.plainStart with plainBuffer := [] }

/-- `_flush_terminator_run`. -/
def flushTerminatorRun (c : Committer F) : Committer F :=
  if c.terminatorBuffer = [] then c
  else { c.commitPlain c.terminatorBuffer c.terminatorStart with terminatorBuffer := [] }

/-- `_emit_plain`. -/
def emitPlain (e : Env F) (c : Committer F) (ch : Char) (sourceStart : Nat) : Committer F :=
  if isTerminatorChar ch && c.plainBuffer = [] then
    let c := if endsWith c.terminatorBuffer "!" && ch = '?' then c.flushTerminatorRun else c
    { c with
      terminatorStart := if c.terminatorBuffer = [] then sourceStart else c.terminatorStart
      terminatorBuffer := c.terminatorBuffer ++ [ch]
      committedRawEnd := max c.committedRawEnd (sourceStart + 1) }
  else
    let c := c.flushTerminatorRun
    { c with
      plainStart := if c.plainBuffer = [] then sourceStart else c.plainStart
      plainBuffer := c.plainBuffer ++ [ch]
      committedRawEnd := max c.committedRawEnd (sourceStart + 1)
      languageResolver := e.u.observe c.languageResolver [ch] none }

/-! ## The open span -/

/-- `_open_pending`: the span is assigned by every caller. A `forceLiteral` of `none` takes the
one-shot late-extension marker. -/
def openPending (c : Committer F) (raw : Text) (start stop : Nat) (kind : SpanKind) (now : F)
    (languageHint : Option LanguageKind) (forceLiteral : Option Bool) : Committer F :=
  let force := forceLiteral.getD (c.forceLiteralNext && c.lateExtensionAnchor = some start)
  let c := if forceLiteral.isNone && c.forceLiteralNext then
      { c with forceLiteralNext := false, lateExtensionAnchor := none }
    else c
  let c := c.flushTerminatorRun
  { c with
    pending := ⟨raw, start, stop, kind, now, now, c.nextSpanId,
      languageHint.orElse fun _ => c.activeLangHint, force⟩
    nextSpanId := c.nextSpanId + 1 }

/-- The open span takes a character (`raw += ch`, `end = source_pos + 1`, `last_at = now`). -/
def extend (c : Committer F) (ch : Char) (pos : Nat) (now : F) : Committer F :=
  { c with pending :=
      { c.pending with raw := c.pending.raw ++ [ch], stop := pos + 1, lastAt := now } }

/-- The open span gets another kind. -/
def setKind (c : Committer F) (kind : SpanKind) : Committer F :=
  { c with pending := { c.pending with kind } }

/-- The open span is classified anew. -/
def reclassify (e : Env F) (c : Committer F) : Committer F :=
  c.setKind (e.u.classify c.pending.raw)

/-- The open span is cut back to another text. -/
def truncate (c : Committer F) (raw : Text) (stop : Nat) : Committer F :=
  { c with pending := { c.pending with raw, stop } }

/-- A character is deferred behind the open span (`_pending_gap.append`). -/
def defer (c : Committer F) (ch : Char) (pos : Nat) (now : F) : Committer F :=
  { c with pendingGap := c.pendingGap ++ [(ch, pos)], pending := { c.pending with lastAt := now } }

/-- The deferred text. -/
def gapText (c : Committer F) : Text := c.pendingGap.map (·.1)

/-- The open span takes the deferred text and a character. -/
def extendOverGap (c : Committer F) (ch : Char) (pos : Nat) (now : F) : Committer F :=
  { c with
    pending := { c.pending with
      raw := c.pending.raw ++ (c.gapText ++ [ch]), stop := pos + 1, lastAt := now }
    pendingGap := [] }

/-! ## The language of the open span -/

/-- `_resolve_language`, without a hint of its own. -/
def resolveLanguage (e : Env F) (c : Committer F) (p : Pending F) : LanguageKind :=
  let resolution := c.languageResolver.resolve e.u p.raw p.kind
    (p.languageHint.orElse fun _ => c.activeLangHint) (c.raw.take p.start) (c.raw.drop p.stop)
  match resolution.hypotheses.find? fun h => h.language = resolution.selected with
  | some h => if resolution.selected ≠ .unknown ∧ 70 ≤ h.confidence then resolution.selected else .unknown
  | none => .unknown

/-! ## The spoken form of a span -/

/-- `_tn_input`. -/
def tnInput (e : Env F) (raw : Text) : SpanKind → Text
  | .plain => raw
  | .markdown => raw
  | .json => raw
  | .emoji => raw
  | .literal => raw
  | _ => e.u.compatibilitySpelling raw

/-- `_margin_threshold`. -/
def marginThreshold (e : Env F) (family : SemanticFamily) : Option F :=
  match e.config.familyMarginThresholds.find? fun entry => entry.1 = family with
  | some entry => some entry.2
  | none => e.config.marginThreshold

/-- Whether the policy sends a closed span to its fallback (`CandidateResolver.resolve` and
`CommitPolicy.decide` with `closed`). -/
def policyFallback [Sub F] [LT F] [DecidableLT F] (e : Env F) (backendRaw : Text)
    (lang : LanguageKind) (kind : SpanKind) (reason : CloseReason) : Bool :=
  let nbest := (max 1 (min e.config.candidateNbest 16)).toNat
  let costs := e.adapter.candidateCosts backendRaw lang kind nbest
  reason = .final && (costs.isEmpty ||
    match costs.filterMap id, marginThreshold e (familyForKind kind) with
    | best :: second :: _, some threshold => decide (second - best < threshold)
    | _, _ => false)

/-- `DomainResolver.ordered_marker`. -/
def orderedMarkerText (e : Env F) (number : Text) (lang : LanguageKind) : Text :=
  let pause := if lang = .en then ", ".toList else "、".toList
  let spoken := number ++ pause
  match e.adapter.normalizeClosedStream spoken lang .number with
  | some value => if value ≠ [] ∧ value ≠ spoken then value
      else e.adapter.fallback number lang .number .cardinalOrLiteral ++ pause
  | none => e.adapter.fallback number lang .number .cardinalOrLiteral ++ pause

/-- `value or text` of a domain route, replaced by the fallback if nothing was normalized. -/
def domainText (e : Env F) (value : Option Text) (backendRaw : Text) (lang : LanguageKind)
    (kind : SpanKind) : Text :=
  match value with
  | some v => if v = [] ∨ v = backendRaw then e.adapter.fallback backendRaw lang kind e.config.fallback
      else v
  | none => e.adapter.fallback backendRaw lang kind e.config.fallback

/-- The kind of a commit whose value may have changed. -/
def changedKind (value raw : Text) : CommitKind := if value ≠ raw then .normalized else .fallback

/-- `_HTML_ENTITY`. -/
def htmlEntity (e : Env F) : Pattern :=
  seqs [lit "&", alts [seqs [lit "#", e.u.digits],
    seqs [lit "#x", plus (.cls fun c => c.isDigit || oneOf "ABCDEFabcdef" c)],
    seqs [asciiLetter, plus (.cls Char.isAlphanum)]], lit ";"]

/-- `_QUALIFIED_NUMBER.search`. -/
def qualifiedNumber (e : Env F) (text : Text) : Bool :=
  (alts [chars "$€￥£¥", lit "A$", lit "HKD"]).search text
    || e.u.datePattern.search text
    || (seqs [Regex.times e.u.digit 4, lit "年", between e.u.digit 1 2, lit "月"]).search text
    || (seqs [.star e.u.digit, chars vulgarFractionChars]).search text
    || (alts [e.u.timePattern, e.u.rangePattern, UnicodeData.unitPattern]).searchEnd text

/-- The generic route: the adapter, then its older interface, then the fallbacks. -/
def genericForm (e : Env F) (p : Pending F) (backendRaw : Text) (route : Option LanguageKind) :
    Text × CommitKind :=
  let numeric := p.kind = .number ∨ p.kind = .ordinal
  let outcome := match route with
    | some lang => e.adapter.normalizeClosed backendRaw lang p.kind
    | none => .stream (some p.raw)
  let first := match outcome with
    | .result value => value.filter fun v => v ≠ []
    | .missing => none
    | .stream value => value
  let hasResult := match outcome with
    | .result _ => true
    | _ => false
  let unchanged := first = some backendRaw
  let value := match route with
    | some lang =>
        if (first = none ∨ unchanged) ∧ numeric then
          (if unchanged ∧ hasResult then none else e.adapter.normalize backendRaw lang p.kind).filter
            fun v => v ≠ [] ∧ v ≠ backendRaw
        else first
    | none => first
  match value with
  | none =>
      if numeric then
        (e.adapter.fallback backendRaw (route.getD .zh) p.kind e.config.fallback, .fallback)
      else if p.kind = .url ∨ p.kind = .email then
        let spoken := e.adapter.fallback backendRaw (route.getD .en) p.kind e.config.fallback
        (spoken, if spoken ≠ p.raw then .fallback else .literal)
      else (p.raw, .literal)
  | some value =>
      if unchanged ∧ (p.kind = .url ∨ p.kind = .email) then
        let spoken := e.adapter.fallback backendRaw (route.getD .en) p.kind e.config.fallback
        (spoken, if spoken ≠ p.raw then .fallback else .literal)
      else if unchanged then (p.raw, .literal)
      else (value, .normalized)

/-- The spoken form of a span that is being closed: its text, and the kinds of its commit. -/
def spokenForm [Sub F] [LT F] [DecidableLT F] (e : Env F) (c : Committer F) (p : Pending F)
    (reason : CloseReason) (lang : LanguageKind) : Text × CommitKind × SpanKind :=
  let route := if lang = .unknown then none else some lang
  let spelled := tnInput e p.raw p.kind
  let backendRaw := if p.kind = .url then e.adapter.sanitizeUrl spelled else spelled
  let numeric := p.kind = .number ∨ p.kind = .ordinal
  let orderId := (p.kind = .number ∨ p.kind = .identifier) ∧
    (seqs [lit "订单号", opt (chars "为是"), e.u.spaces]).searchEnd (c.raw.take p.start)
  let marker := (seqs [between e.u.digit 1 4, chars ".)", e.u.spaces]).fullmatch p.raw
  let projected := e.adapter.isMarkdownStructured p.raw ∨
    (p.kind = .markdown ∧ (marker ∨ (seqs [chars "-+>", e.u.spaces]).fullmatch p.raw))
  let outKind := if projected then .markdown else p.kind
  let form : Text × CommitKind :=
    if p.kind = .idCard then
      let idLang := if (c.raw.take p.start).any e.u.isHan then .zh else route.getD .zh
      let value := domainText e (e.adapter.normalizeIdCard backendRaw idLang) backendRaw idLang .idCard
      (value, changedKind value p.raw)
    else if (htmlEntity e).fullmatch p.raw then (e.adapter.unescape p.raw, .literal)
    else if orderId then
      let value := domainText e (e.adapter.normalizeDigitSequence backendRaw (route.getD .zh)) backendRaw
        (route.getD .zh) .identifier
      (value, changedKind value p.raw)
    else if p.kind = .phone then
      let value := domainText e (e.adapter.normalizePhone backendRaw (route.getD .zh)) backendRaw
        (route.getD .zh) .phone
      (value, changedKind value p.raw)
    else if p.kind = .json ∨ projected then
      (if marker then orderedMarkerText e (p.raw.takeWhile e.u.isDecimal) (route.getD .zh)
        else e.adapter.projectReadable p.raw,
        if p.forceLiteral then .fallback else .literal)
    else if p.forceLiteral then (p.raw, .fallback)
    else if p.kind = .markdown then (p.raw, .fallback)
    else if route = none ∧ numeric then
      (if (reason = .final ∨ reason = .timeout) ∧ qualifiedNumber e backendRaw then
          e.adapter.fallback backendRaw .zh p.kind e.config.fallback
        else p.raw, .fallback)
    else if p.kind = .math then
      let spoken := e.adapter.fallback backendRaw (route.getD .zh) .math .cardinalOrLiteral
      let value := if spoken = [] then backendRaw else spoken
      (value, changedKind value p.raw)
    else if p.kind = .identifier ∨ p.kind = .version then
      let value := match route with
        | some lang => e.adapter.fallback backendRaw lang p.kind e.config.fallback
        | none => p.raw
      (value, changedKind value p.raw)
    else genericForm e p backendRaw route
  let form : Text × CommitKind := match route with
    | some lang =>
        if numeric ∧ policyFallback e backendRaw lang p.kind reason then
          (e.adapter.fallback backendRaw lang p.kind e.config.fallback, .fallback)
        else form
    | none => form
  (form.1, if reason = .maxPending then .fallback else form.2, outKind)

/-! ## Closing the open span -/

/-- The span becomes a commit, and the candidate flags are reset. -/
def commitSpan [Zero F] [Sub F] [LT F] [DecidableLT F] (e : Env F) (c : Committer F)
    (reason : CloseReason) : Committer F :=
  let p := c.pending
  let lang := resolveLanguage e c p
  let form := spokenForm e c p reason lang
  let stop := if p.stop = 0 then p.start + p.raw.length else p.stop
  let made := c.makeCommit p.raw p.start stop form.2.2 form.2.1 form.1 lang (familyForKind p.kind)
    (some reason) (if form.2.1 = .fallback then some reason else none)
  { made.1 with
    committedRawEnd := max c.committedRawEnd stop
    pending := .empty
    candidates := {}
    jsonDepth := 0
    jsonInString := false
    jsonEscape := false
    currentLang := lang
    languageResolver := if lang = .unknown then c.languageResolver
      else e.u.observe c.languageResolver p.raw (some lang)
    outbox := c.outbox ++ [made.2]
    pendingGap := [] }

/-- Deferred characters are emitted one after another. -/
def emitGap (e : Env F) (c : Committer F) (gap : List (Char × Nat)) : Committer F :=
  gap.foldl (fun c item => c.emitPlain e item.1 item.2) c

/-- `_close_pending` behind the split of an embedded percentage: the deferred text is emitted behind
the commit. -/
def closeSpan [Zero F] [Sub F] [LT F] [DecidableLT F] (e : Env F) (c : Committer F)
    (reason : CloseReason) : Committer F :=
  (commitSpan e c reason).emitGap e c.pendingGap

/-- The numeric part of `_EMBEDDED_NUMERIC_PERCENT`. -/
def percentPattern (u : UnicodeData) : Pattern := seqs [UnicodeData.sign, u.decimal, lit "%"]

/-- `_EMBEDDED_NUMERIC_PERCENT.fullmatch`: the shortest word with a percentage behind it. -/
def embeddedNumericPercent (u : UnicodeData) (raw : Text) : Option (Text × Text) :=
  ((List.range raw.length).map fun k => (raw.take (k + 1), raw.drop (k + 1))).find? fun parts =>
    (seqs [asciiLetter, .star (.cls fun c => c.isAlpha || c = '-')]).fullmatch parts.1 &&
      (percentPattern u).fullmatch parts.2

/-- `_close_pending`. -/
def closePending [Zero F] [Sub F] [LT F] [DecidableLT F] (e : Env F) (c : Committer F)
    (reason : CloseReason) : Committer F :=
  let p := c.pending
  if p.raw = [] then c
  else
    match if p.kind = .englishWord ∧ c.forceLiteralNext = false then embeddedNumericPercent e.u p.raw
        else none with
    | some (word, numeric) =>
        let gap := c.pendingGap
        let split := p.start + word.length
        let c := { c with pendingGap := [] }
        let c := c.openPending word p.start split .englishWord p.firstAt p.languageHint
          (some p.forceLiteral)
        let c := closeSpan e c reason
        let c := c.openPending numeric split p.stop .number p.lastAt p.languageHint
          (some p.forceLiteral)
        { closeSpan e c reason with pendingGap := gap }
    | none => closeSpan e c reason

end Committer

end StreamingTts.Frontend
