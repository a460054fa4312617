import StreamingTts.Frontend.Committer

/-!
# The character loop of the text committer

`IncrementalTextCommitter._append`, `feed` and `poll`. The loop body is a chain of blocks, in the
order of the source; each of them is done with the character, scans it again (the recursive
`_append(ch, now, source_pos)`), or leaves it to the next block. A character is scanned again only
behind a close, when no span is open, and then it is never scanned a third time (`scanOnce_rescan`).
-/

namespace StreamingTts.Frontend

open Lib (Regex)
open Lib.Regex (seqs alts opt plus times between)

variable {F : Type}

/-- How a block of the loop body leaves a character. -/
inductive Outcome (F : Type)
  | done (c : Committer F)
  | rescan (c : Committer F)
  | next (c : Committer F)

namespace Outcome

/-- The next block, for a character that is left to it. -/
def andThen (o : Outcome F) (block : Committer F → Outcome F) : Outcome F :=
  match o with
  | .next c => block c
  | .done c => .done c
  | .rescan c => .rescan c

theorem next_andThen (c : Committer F) (block : Committer F → Outcome F) :
    (Outcome.next c).andThen block = block c := rfl

/-- The state a block leaves. -/
def state : Outcome F → Committer F
  | .done c => c
  | .rescan c => c
  | .next c => c

end Outcome

namespace Committer

section
variable [Zero F] [Sub F] [LT F] [DecidableLT F] (e : Env F)

/-- No span is open. -/
def Closed (c : Committer F) : Prop := c.pending.raw = []

instance (c : Committer F) : Decidable c.Closed := inferInstanceAs (Decidable (c.pending.raw = []))

/-- A span is opened by one character, behind the plain text before it. -/
def openSpan (c : Committer F) (ch : Char) (pos : Nat) (kind : SpanKind) (now : F) : Committer F :=
  c.flushPlain.openPending [ch] pos (pos + 1) kind now none none

/-- The span is closed and the character emitted behind it. -/
def closeAndEmit (c : Committer F) (ch : Char) (pos : Nat) : Committer F :=
  (closePending e c .boundary).emitPlain e ch pos

/-- The bases of a keycap. -/
def isKeycapBase (ch : Char) : Bool := oneOf "0123456789#*" ch

/-- VS-16 and the combining keycap. -/
def isKeycapMark (ch : Char) : Bool := ch.toNat = 0xFE0F || ch.toNat = 0x20E3

/-! ## The blocks before the open span is looked at -/

/-- The one whitespace behind an inline hash is swallowed. -/
def scanHashGap (c : Committer F) (ch : Char) (pos : Nat) : Outcome F :=
  if c.inlineHashGap then
    let c := { c with inlineHashGap := false }
    if e.u.isSpace (e.u.lexChar ch) then
      .done { c with committedRawEnd := max c.committedRawEnd (pos + 1) }
    else .next c
  else .next c

/-- Emoji are dropped, and a keycap takes its base with it. -/
def scanEmoji (c : Committer F) (ch : Char) (pos : Nat) : Outcome F :=
  if e.u.filtered ch then
    if ¬ c.Closed ∧ c.pendingGap = [] ∧ c.pending.raw.getLast?.any isKeycapBase ∧ isKeycapMark ch then
      let c :=
        if 1 < c.pending.raw.length then
          closePending e
            (c.truncate c.pending.raw.dropLast (max c.pending.start (c.pending.stop - 1))) .boundary
        else { c with pending := .empty }
      .done { c with committedRawEnd := max c.committedRawEnd (pos + 1) }.flushPlain
    else .done (closePending e c .boundary).flushPlain
  else .next c

/-- The character behind a provisional decimal point. -/
def scanLeadingDecimal (c : Committer F) (ch : Char) (pos : Nat) (now : F) : Outcome F :=
  if c.leadingDecimal then
    if e.u.digitLike ch then
      .done { (c.extend ch pos now).setKind .number with leadingDecimal := false }
    else if isTerminatorChar ch then
      -- the provisional dot joins the run of terminators
      .rescan { c with
        leadingDecimal := false
        pending := .empty
        terminatorStart := c.pending.start
        terminatorBuffer := c.terminatorBuffer ++ c.pending.raw
        committedRawEnd := max c.committedRawEnd (c.pending.start + c.pending.raw.length) }
    else .rescan (closePending e { c with leadingDecimal := false } .boundary)
  else .next c

/-- The character behind an exclamation mark that follows a word. -/
def scanBang (c : Committer F) (ch : Char) (pos : Nat) (now : F) : Outcome F :=
  if ¬ c.Closed ∧ c.pending.kind = .englishWord ∧ c.candidates.bang then
    let off := { c.candidates with bang := false }
    if ch = '[' then .done { c.extend ch pos now with candidates := off }
    else
      let marker := c.pending.stop - 1
      let c := { c.truncate c.pending.raw.dropLast marker with candidates := off }
      .rescan ((closePending e c .boundary).emitPlain e '!' marker)
  else .next c

/-- Whether a formatting delimiter belongs to an open number or formula. -/
def keepsDelimiter (c : Committer F) (ch : Char) : Bool :=
  let raw := c.pending.raw
  (c.pending.kind = .number || c.pending.kind = .math) &&
    ((ch = '*' && e.u.looksLikeMath (raw ++ [ch]))
      || ch = '!'
      || (ch = '_' && c.pending.kind = .number)
      || (ch = '~' && (seqs [UnicodeData.sign, e.u.decimal, e.u.spaces]).searchEnd
        (e.u.compatibilitySpelling raw)))

/-- A formatting delimiter closes the spans it does not belong to. -/
def scanDelimiter (c : Committer F) (ch : Char) : Outcome F :=
  let kind := c.pending.kind
  if ¬ c.Closed ∧ kind ≠ .markdown ∧ kind ≠ .json ∧ oneOf "*_~`[!" ch ∧ kind ≠ .englishWord then
    if !keepsDelimiter e c ch && kind ≠ .url && kind ≠ .email && kind ≠ .identifier && kind ≠ .version
    then .rescan (closePending e c .boundary)
    else .next c
  else .next c

/-! ## An open Markdown span

The character is part of the span already when these blocks look at it. -/

/-- A provisional marker of an ordered list (`1.`). -/
def scanOrderedMarker (c : Committer F) : Outcome F :=
  if c.candidates.orderedMarker then
    let raw := c.pending.raw
    let off := { c with candidates := { c.candidates with orderedMarker := false } }
    let afterDot := (raw.idxOf? '.').bind fun i => raw[i + 1]?
    if afterDot.any e.u.isSpace then .done (closePending e off .boundary)
    else if afterDot.any fun d => e.u.isDigit d || e.u.isDigits (e.u.compatibilitySpelling [d]) then
      .done (off.reclassify e)
    else if 2 < raw.length then
      let marker := match raw.idxOf? '.' with
        | some i => raw.take (i + 1)
        | none => raw
      .rescan (closePending e (off.truncate marker (c.pending.start + marker.length)) .boundary)
    else .next c
  else .next c

/-- The quote and escape state of a provisional bracket. -/
def trackBracketQuote (c : Committer F) (ch : Char) (first : Option Char) : Committer F :=
  if c.jsonEscape then { c with jsonEscape := false }
  else if ch = '\\' ∧ c.jsonInString then { c with jsonEscape := true }
  else if ch = '"' ∧ (c.jsonInString ∨ first = some '"') then { c with jsonInString := !c.jsonInString }
  else c

/-- A provisional bracket: a link label, or an array. -/
def scanBracket (c : Committer F) (ch : Char) (pos : Nat) : Outcome F :=
  if c.candidates.bracket then
    let first := (c.pending.raw.tail.dropWhile e.u.isSpace).head?
    let c := c.trackBracketQuote ch first
    if c.jsonInString = false ∧ oneOf "[\x7b" ch then
      .done { c.setKind .json with
        candidates := { c.candidates with bracket := false, bracketClosed := false }
        jsonDepth := 2
        jsonEscape := false }
    else if c.jsonInString = false ∧ ch = ']' then
      .done { c with candidates := { c.candidates with bracket := false, bracketClosed := true } }
    else if first.any fun d => !oneOf "\"0123456789-tfn" d then
      .next { c with candidates := { c.candidates with bracket := false } }
    else .next c
  else if c.candidates.bracketClosed then
    let off := { c.candidates with bracket := false, bracketClosed := false }
    if ch = '(' then .next { c with candidates := off }
    else
      .rescan (closePending e { (c.truncate c.pending.raw.dropLast pos).setKind .json with
        candidates := off
        jsonDepth := 0
        jsonInString := false
        jsonEscape := false } .boundary)
  else .next c

/-- A provisional image opener. -/
def scanImage (c : Committer F) : Outcome F :=
  if c.candidates.image then
    let off := { c with candidates := { c.candidates with image := false } }
    if c.pending.raw = "![".toList then .next off
    else if 1 < c.pending.raw.length then
      .rescan (closePending e (off.truncate ['!'] (c.pending.start + 1)) .boundary)
    else .next c
  else .next c

/-- The schemes of an autolink. -/
def autolinkPrefixes : List Text :=
  ["http://".toList, "https://".toList, "mailto:".toList, "www.".toList]

/-- The text of a provisional autolink without its brackets. -/
def autolinkInner (raw : Text) : Text :=
  if endsWith raw ">" then raw.tail.dropLast else raw.tail

/-- The autolink is complete. -/
def autolinkCloses (raw : Text) (ch : Char) : Bool :=
  ch = '>' && autolinkPrefixes.any fun pre =>
    pre.isPrefixOf (e.u.lowerText (autolinkInner raw)) && pre.length < (autolinkInner raw).length

/-- The text can still become an autolink. -/
def autolinkOpen (raw : Text) : Bool :=
  autolinkPrefixes.any fun pre =>
    (e.u.lowerText (autolinkInner raw)).isPrefixOf pre || pre.isPrefixOf (e.u.lowerText (autolinkInner raw))

/-- A provisional autolink. -/
def scanAutolink (c : Committer F) (ch : Char) : Outcome F :=
  if c.candidates.autolink then
    let off := { c with candidates := { c.candidates with autolink := false } }
    if autolinkCloses e c.pending.raw ch then .next off
    else if autolinkOpen e c.pending.raw then .done c
    else .rescan (closePending e (off.truncate ['<'] (c.pending.start + 1)) .boundary)
  else .next c

/-- A marker at the start of a line. -/
def scanLineMarker (c : Committer F) (ch : Char) : Outcome F :=
  if c.candidates.lineMarker then
    let raw := c.pending.raw
    let off := { c with candidates := { c.candidates with lineMarker := false } }
    let hyphen := raw.head? = some '-'
    let rule := raw.all (· = '-')
    let second := raw[1]?
    if hyphen ∧ rule ∧ raw.length < 3 then .done c
    else if hyphen ∧ rule ∧ (e.u.isSpace ch || oneOf "\r\n" ch) then .done (closePending e off .boundary)
    else if hyphen ∧ rule ∧ ch = '-' then .done c
    else if hyphen ∧ startsWith raw "--" ∧ ¬ rule then .done (off.setKind .englishWord)
    else if raw.head?.any (oneOf "-+>") ∧ second.any e.u.isSpace then
      .done (closePending e off .boundary)
    else if raw.head?.any (oneOf "-+") ∧
        second.any (fun d => e.u.isDigit d || e.u.isDigits (e.u.compatibilitySpelling [d])) then
      .done (off.reclassify e)
    else if 2 ≤ raw.length then
      .rescan (closePending e (off.truncate (raw.take 1) (c.pending.start + 1)) .boundary)
    else .next c
  else .next c

/-- Whether a Markdown span is complete. -/
def markdownClosed (raw : Text) (ch : Char) : Bool :=
  (startsWith raw "***" && endsWith raw "***" && 6 < raw.length)
    || (startsWith raw "___" && endsWith raw "___" && 6 < raw.length)
    || (startsWith raw "~~" && endsWith raw "~~" && 4 < raw.length)
    || (startsWith raw "**" && !startsWith raw "***" && endsWith raw "**" && 4 < raw.length)
    || (startsWith raw "__" && !startsWith raw "___" && endsWith raw "__" && 4 < raw.length)
    || (startsWith raw "*" && !startsWith raw "**" && endsWith raw "*" && 2 < raw.length)
    || (startsWith raw "_" && !startsWith raw "__" && endsWith raw "_" && 2 < raw.length)
    || (startsWith raw "```" && 2 ≤ count raw "```")
    || (startsWith raw "`" && !startsWith raw "``" && 2 ≤ count raw "`")
    || (startsWith raw "[" && raw.contains ')')
    || (startsWith raw "![" && raw.contains ')')
    || (startsWith raw "#" && oneOf "\r\n" ch)

/-- A span at the lexical bound is closed. -/
def closeAtLimit (c : Committer F) : Committer F :=
  if e.config.maxPendingChars ≤ c.pending.raw.length then
    closePending e { c with limitFallback := true } .maxPending
  else c

/-- An open Markdown span takes the character. -/
def scanMarkdown (c : Committer F) (ch : Char) (pos : Nat) (now : F) : Outcome F :=
  if ¬ c.Closed ∧ c.pending.kind = .markdown then
    (scanOrderedMarker e (c.extend ch pos now)).andThen fun c =>
    (scanBracket e c ch pos).andThen fun c =>
    (scanImage e c).andThen fun c =>
    (scanAutolink e c ch).andThen fun c =>
    (scanLineMarker e c ch).andThen fun c =>
      if markdownClosed c.pending.raw ch then .done (closePending e c .boundary)
      else .done (c.closeAtLimit e)
  else .next c

/-! ## The other open spans -/

/-- An open JSON span takes the character. -/
def scanJson (c : Committer F) (ch : Char) (pos : Nat) (now : F) : Outcome F :=
  if ¬ c.Closed ∧ c.pending.kind = .json then
    let c := c.extend ch pos now
    let c :=
      if c.jsonEscape then { c with jsonEscape := false }
      else if ch = '\\' ∧ c.jsonInString then { c with jsonEscape := true }
      else if ch = '"' then { c with jsonInString := !c.jsonInString }
      else if c.jsonInString = false ∧ oneOf "[\x7b" ch then { c with jsonDepth := c.jsonDepth + 1 }
      else if c.jsonInString = false ∧ oneOf "]\x7d" ch then
        let c := { c with jsonDepth := c.jsonDepth - 1 }
        if c.jsonDepth = 0 then closePending e c .boundary else c
      else c
    .done (c.closeAtLimit e)
  else .next c

/-- `_OPEN_MARKDOWN_LINK.search`. -/
def openMarkdownLink (raw : Text) : Bool :=
  (seqs [lit "[", .star (.cls (· ≠ ']')), lit "](", .star (.cls (· ≠ ')'))]).searchEnd raw

/-- An open link keeps every character up to its closing parenthesis. -/
def scanOpenLink (c : Committer F) (ch : Char) (pos : Nat) (now : F) : Outcome F :=
  let kind := c.pending.kind
  if ¬ c.Closed ∧ (kind = .englishWord ∨ kind = .url ∨ kind = .email ∨ kind = .identifier) ∧
      openMarkdownLink c.pending.raw then
    .done (c.extend ch pos now)
  else .next c

/-- Whether a provisional parenthesis keeps the character and stays provisional. -/
def parenKeeps (raw : Text) (ch : Char) : Bool :=
  e.u.isSpace (e.u.lexChar ch) || (ch = '+' && raw = ['('])
    || (e.u.digitLike ch && startsWith raw "(+" && !raw.contains ')')

/-- Whether the character makes a provisional parenthesis a formula. -/
def parenPromotes (ch : Char) : Bool := e.u.digitLike ch || oneOf "+-(" ch

/-- Whether the character closes a country code. -/
def parenClosesCode (raw : Text) (ch : Char) : Bool :=
  ch = ')' && startsWith raw "(+" && e.u.isDigits (raw.drop 2)

/-- A provisional leading parenthesis. -/
def scanLeadingParen (c : Committer F) (ch : Char) (pos : Nat) (now : F) : Outcome F :=
  if ¬ c.Closed ∧ c.pending.kind = .math ∧ c.candidates.leadingParen then
    let off := { c.candidates with leadingParen := false }
    if parenKeeps e c.pending.raw ch then .done (c.extend ch pos now)
    else if parenPromotes e ch then
      .done { (c.extend ch pos now).setKind .math with candidates := off }
    else if parenClosesCode e c.pending.raw ch then .done ((c.extend ch pos now).reclassify e)
    else
      .rescan (closePending e { c.truncate (c.pending.raw.take 1) (c.pending.start + 1) with
        candidates := off } .boundary)
  else .next c

/-! ## No open span -/

/-- Whether a dot opens a decimal. -/
def opensLeadingDecimal (c : Committer F) (ch : Char) (pos : Nat) : Bool :=
  e.u.lexChar ch = '.' && (pos = 0 || (c.raw[pos - 1]?).any isLeadingDecimalBoundary)

/-- A span is opened with a flag. -/
def openFlagged (c : Committer F) (ch : Char) (pos : Nat) (kind : SpanKind) (now : F)
    (candidates : Candidates) : Committer F :=
  { c.openSpan ch pos kind now with candidates }

/-- A JSON object is opened. -/
def openJson (c : Committer F) (ch : Char) (pos : Nat) (now : F) : Committer F :=
  { c.openSpan ch pos .json now with jsonDepth := 1, jsonInString := false, jsonEscape := false }

/-- A decimal is opened by its point. -/
def openDecimal (c : Committer F) (ch : Char) (pos : Nat) (now : F) : Committer F :=
  { c.openSpan ch pos .number now with leadingDecimal := true }

/-- An inline hash is dropped, and with it the whitespace behind it. -/
def dropHash (c : Committer F) (pos : Nat) : Committer F :=
  { c.flushPlain with
    committedRawEnd := max c.flushPlain.committedRawEnd (pos + 1)
    inlineHashGap := true }

/-- A Chinese character is emitted. -/
def emitHan (c : Committer F) (ch : Char) (pos : Nat) : Committer F :=
  { c with currentLang := .zh }.emitPlain e ch pos

/-- A character with no open span that opens no construct starts a span of text, or is emitted. -/
def freshText (c : Committer F) (ch : Char) (pos : Nat) (now : F) : Committer F :=
  let lex := e.u.lexChar ch
  if opensLeadingDecimal e c ch pos then c.openDecimal ch pos now
  else if oneOf "$€￥£¥+-" lex then c.openSpan ch pos .number now
  else if oneOf vulgarFractionChars ch then c.openSpan ch pos .number now
  else if oneOf "≤≥≠" ch then c.openSpan ch pos .math now
  else if ch = '℃' then c.openSpan ch pos .number now
  else if ch = '&' then c.openSpan ch pos .englishWord now
  else if e.u.isSpace lex || (e.u.isPunctuation lex && !oneOf "%$@#" lex) then c.emitPlain e ch pos
  else if e.u.isCombining ch then c.emitPlain e ch pos
  else if e.u.isHan ch then c.emitHan e ch pos
  else if e.u.isAlpha ch || e.u.isDigit ch || e.u.isAlpha lex || e.u.isDigit lex then
    c.openSpan ch pos (e.u.classify [ch]) now
  else if !isAscii ch then c.emitPlain e ch pos
  else c.openSpan ch pos (e.u.classify [ch]) now

/-- A character with no open span: the openers of constructs. -/
def fresh (c : Committer F) (ch : Char) (pos : Nat) (now : F) : Committer F :=
  let lex := e.u.lexChar ch
  if e.u.isEmoji ch then c
  else if lex = '(' then c.openFlagged ch pos .math now { c.candidates with leadingParen := true }
  else if lex = '\x7b' then c.openJson ch pos now
  else if lex = '[' then c.openFlagged ch pos .markdown now { c.candidates with bracket := true }
  else if lex = '!' ∧ c.terminatorBuffer = [] then
    c.openFlagged ch pos .markdown now { c.candidates with image := true }
  else if lex = '<' then c.openFlagged ch pos .markdown now { c.candidates with autolink := true }
  else if oneOf "*_~`" lex || (lex = '#' && atLineStart c.raw pos) then c.openSpan ch pos .markdown now
  else if lex = '#' then c.dropHash pos
  else if oneOf "-+>" lex && (atLineStart c.raw pos || lex = '-') then
    c.openFlagged ch pos .markdown now { c.candidates with lineMarker := true }
  else c.freshText e ch pos now

/-- A character with no open span. -/
def scanFresh (c : Committer F) (ch : Char) (pos : Nat) (now : F) : Outcome F :=
  if c.Closed then .done (fresh e c ch pos now) else .next c

/-! ## The general rules of an open span -/

/-- Whitespace is deferred behind a number or formula, and closes the others. -/
def scanSpace (c : Committer F) (ch : Char) (pos : Nat) (now : F) : Outcome F :=
  if e.u.isSpace (e.u.lexChar ch) then
    if c.pending.kind = .math ∨ c.pending.kind = .number then .done (c.defer ch pos now)
    else .done (c.closeAndEmit e ch pos)
  else .next c

/-- The separators that do not close a number of unknown language. -/
def isSeparator (ch : Char) : Bool := oneOf "，,。！？!?；;：:" ch

/-- The character behind a deferred gap continues a unit. -/
def continuesUnit (c : Committer F) (ch : Char) : Bool :=
  let gap := c.gapText
  let suffix := e.u.lowerText ((c.pending.raw ++ gap ++ [ch]).filter fun d => !e.u.isSpace d)
  let unitSuffix := suffix.dropWhile (oneOf "+-0123456789.,")
  c.pending.kind = .number && !gap.isEmpty && gap.all (oneOf " \t") &&
    (e.u.alphaLike ch || oneOf "°μµ" ch) &&
    spacedUnits.any fun unit => unitSuffix.isPrefixOf unit.toList

/-- The character behind a deferred gap continues a formula (`can_extend_math`). -/
def canExtendMath (c : Committer F) (ch : Char) : Bool :=
  let lex := e.u.lexChar ch
  let raw := c.pending.raw
  (c.pending.kind = .number &&
    (oneOf "+*/×÷=<>≤≥!xX-~" lex ||
      (e.u.digitLike ch && (seqs [chars "+-*/×÷=<>≤≥!xX~", e.u.spaces]).searchEnd raw))) ||
  (c.pending.kind = .math &&
    (e.u.digitLike ch || oneOf "+*/×÷=<>≤≥!xX-(~" lex ||
      (oneOf mathClosers lex && count raw ")" < count raw "(")))

/-- The character behind a deferred gap. -/
def scanGap (c : Committer F) (ch : Char) (pos : Nat) (now : F) : Outcome F :=
  let kind := c.pending.kind
  if c.pendingGap ≠ [] ∧ (kind = .number ∨ kind = .ordinal ∨ kind = .math) then
    if (kind = .number ∨ kind = .ordinal) ∧ isSeparator ch ∧ resolveLanguage e c c.pending = .unknown then
      .done (c.defer ch pos now)
    else if continuesUnit e c ch then .done ((c.extendOverGap ch pos now).reclassify e)
    else if canExtendMath e c ch then
      if kind = .number then .done ((c.extendOverGap ch pos now).reclassify e)
      else .done ((c.extendOverGap ch pos now).setKind .math)
    else .rescan (closePending e c .boundary)
  else .next c

/-- Closing punctuation ends a span, unless it belongs to a link or a formula. -/
def scanRightBoundary (c : Committer F) (ch : Char) (pos : Nat) (now : F) : Outcome F :=
  let lex := e.u.lexChar ch
  let kind := c.pending.kind
  let raw := c.pending.raw
  if oneOf rightBoundaryChars lex ∧ kind ≠ .json ∧ kind ≠ .markdown ∧ kind ≠ .url ∧ kind ≠ .phone then
    if kind = .englishWord ∧ raw.contains '[' ∧
        (count raw "]" ≤ count raw "[" ∨ count raw ")" < count raw "(") then
      .done (c.extend ch pos now)
    else if kind = .math ∧ oneOf mathClosers lex ∧ count raw ")" < count raw "(" then
      .done ((c.extend ch pos now).reclassify e)
    else .done (c.closeAndEmit e ch pos)
  else .next c

/-- Whether the character continues a Chinese date. -/
def continuesHanDate (raw : Text) (ch : Char) : Bool :=
  oneOf "年月日" ch &&
    (alts [seqs [times e.u.digit 4, lit "年", opt (seqs [between e.u.digit 1 2, opt (lit "月")])],
      seqs [times e.u.digit 4, lit "年", between e.u.digit 1 2, lit "月", between e.u.digit 1 2,
        opt (lit "日")]]).fullmatch (raw ++ [ch])

/-- Whether the character continues a currency suffix. -/
def continuesCurrency (raw : Text) (ch : Char) : Bool :=
  match (seqs [UnicodeData.sign, e.u.digits, opt (seqs [chars ".,", e.u.digits])]).matchLength
      (raw ++ [ch]) with
  | some n =>
      let suffix := (raw ++ [ch]).drop n
      !suffix.isEmpty && currencySuffixes.any fun currency => suffix.isPrefixOf currency.toList
  | none => false

/-- A character outside ASCII. -/
def scanNonAscii (c : Committer F) (ch : Char) (pos : Nat) (now : F) : Outcome F :=
  let lex := e.u.lexChar ch
  let kind := c.pending.kind
  let raw := c.pending.raw
  if isAscii lex = false ∧ e.u.isEmoji ch = false then
    .done <|
    if e.u.isCombining ch then c.extend ch pos now
    else if (kind = .number ∨ kind = .math) ∧ oneOf "×÷≤≥≠<>" lex then (c.extend ch pos now).reclassify e
    else if kind = .number ∧ continuesHanDate e raw ch then (c.extend ch pos now).setKind .number
    else if kind = .number ∧ continuesCurrency e raw ch then (c.extend ch pos now).setKind .number
    else if kind = .number ∧ oneOf vulgarFractionChars ch then (c.extend ch pos now).setKind .number
    else if e.u.isHan ch then { closePending e c .boundary with currentLang := .zh }.emitPlain e ch pos
    else if e.u.alphaLike ch then (c.extend ch pos now).reclassify e
    else if (kind = .number ∨ kind = .englishWord) ∧
        (seqs [UnicodeData.sign, e.u.digit]).matchesPrefix (e.u.compatibilitySpelling raw) ∧
        oneOf "°²³℃μµ" lex then
      (c.extend ch pos now).reclassify e
    else c.closeAndEmit e ch pos
  else .next c

/-- The last character of the compatibility spelling is a digit. -/
def endsInDigit (raw : Text) : Bool := (e.u.compatibilitySpelling raw).getLast?.any e.u.isDigit

/-- Punctuation and everything else. -/
def scanRest (c : Committer F) (ch : Char) (pos : Nat) (now : F) : Outcome F :=
  let lex := e.u.lexChar ch
  let kind := c.pending.kind
  let raw := c.pending.raw
  let extended := c.extend ch pos now
  .done <|
  if lex = '!' ∧ (kind = .number ∨ kind = .math) then extended.reclassify e
  else if ch = ';' ∧ startsWith raw "&" then closePending e extended .boundary
  else if isSeparator lex ∧ (kind = .number ∨ kind = .ordinal) ∧
      resolveLanguage e c c.pending = .unknown then
    c.defer ch pos now
  else if oneOf "。！？；,，.!?;:" lex ∧ kind ≠ .url then
    if lex = '!' ∧ kind = .englishWord then
      { extended with candidates := { c.candidates with bang := true } }
    else if lex = '.' ∧ kind = .number ∧ atInlineOrderedListStart c.raw c.pending.start ∧
        e.u.isDigits (e.u.compatibilitySpelling raw) then
      { extended.setKind .markdown with candidates := { c.candidates with orderedMarker := true } }
    else if lex = '.' ∧ kind = .number ∧ endsInDigit e raw then { extended with leadingDecimal := true }
    else if lex = '.' ∧ (kind = .englishWord ∨ kind = .email ∨ kind = .identifier ∨ kind = .version) then
      extended
    else if (kind = .number ∨ kind = .math ∨ kind = .englishWord) ∧ oneOf ".:" lex ∧ endsInDigit e raw then
      extended
    else c.closeAndEmit e ch pos
  else (extended.reclassify e).closeAtLimit e

/-! ## The loop -/

/-- The body of the loop. -/
def scanOnce (c : Committer F) (ch : Char) (pos : Nat) (now : F) : Outcome F :=
  (scanHashGap e c ch pos).andThen fun c =>
  (scanEmoji e c ch pos).andThen fun c =>
  (scanLeadingDecimal e c ch pos now).andThen fun c =>
  (scanBang e c ch pos now).andThen fun c =>
  (scanDelimiter e c ch).andThen fun c =>
  (scanMarkdown e c ch pos now).andThen fun c =>
  (scanJson e c ch pos now).andThen fun c =>
  (scanOpenLink c ch pos now).andThen fun c =>
  (scanLeadingParen e c ch pos now).andThen fun c =>
  (scanFresh e c ch pos now).andThen fun c =>
  (scanSpace e c ch pos now).andThen fun c =>
  (scanGap e c ch pos now).andThen fun c =>
  (scanRightBoundary e c ch pos now).andThen fun c =>
  (scanNonAscii e c ch pos now).andThen fun c =>
  scanRest e c ch pos now

/-- One character, scanned once or twice. -/
def scan (c : Committer F) (ch : Char) (pos : Nat) (now : F) : Committer F :=
  match scanOnce e c ch pos now with
  | .rescan c => (scanOnce e c ch pos now).state
  | o => o.state

/-- `_append`. -/
def append (now : F) : Committer F → Text → Nat → Committer F
  | c, [], _ => c
  | c, ch :: text, pos => append now (scan e c ch pos now) text (pos + 1)

end

/-! ## feed and poll -/

/-- `CommitmentState`, as far as the decisions use it. -/
inductive CommitmentState
  | scan
  | opened
  | commit
  | fallback
  | done
  deriving DecidableEq, Repr

/-- `CommitDecision`. -/
structure CommitDecision where
  commits : List TextCommit := []
  pendingRaw : Text := []
  pendingKind : Option SpanKind := none
  reason : String := ""
  fallback : Bool := false
  events : List String := []
  state : CommitmentState := .scan
  committedRawEnd : Nat := 0
  deriving DecidableEq, Repr

/-- The part of `TextInputMetadata` the committer reads. -/
structure TextInputMetadata where
  languageHint : LanguageKind := .unknown
  closed : Bool := false
  deriving DecidableEq, Repr

/-- `pending_kind`. -/
def pendingKind (c : Committer F) : Option SpanKind :=
  if c.pending.raw = [] then none else some c.pending.kind

section
variable [Zero F] [Add F] [Sub F] [LT F] [DecidableLT F] (e : Env F)

/-- `_is_provisional_single_digit`. -/
def isProvisionalSingleDigit (c : Committer F) : Bool :=
  let raw := e.u.strip (e.u.compatibilitySpelling c.pending.raw)
  (c.pending.kind = .number || c.pending.kind = .ordinal) && raw.length = 1 && e.u.isDigits raw

/-- `next_deadline`. -/
def nextDeadline (c : Committer F) : Option F :=
  if c.pending.raw = [] then none
  else if isProvisionalSingleDigit e c then none
  else
    let byFirst := c.pending.firstAt + e.config.semanticMaxWait
    let byLast := c.pending.lastAt + e.config.semanticIdleWait
    some (if byLast < byFirst then byLast else byFirst)

/-- `poll`. -/
def poll (c : Committer F) (now : F) : Committer F × CommitDecision :=
  if c.finalized then
    (c, { reason := "after_final", state := .done, committedRawEnd := c.committedRawEnd })
  else
    match nextDeadline e c with
    | some deadline =>
        if now < deadline then
          (c, { pendingRaw := c.pending.raw, pendingKind := c.pendingKind, state := .opened,
                committedRawEnd := c.committedRawEnd })
        else
          let c := closePending e c .timeout
          let c := { c with lateExtension := true, lateExtensionAnchor := some c.committedRawEnd }
          ({ c with outbox := [] },
            { commits := c.outbox, pendingRaw := c.pending.raw, pendingKind := c.pendingKind,
              reason := "timeout", fallback := true, events := ["text.fallback"], state := .fallback,
              committedRawEnd := c.committedRawEnd })
    | none =>
        (c, { pendingRaw := c.pending.raw, pendingKind := c.pendingKind,
              state := if c.pending.raw = [] then .scan else .opened,
              committedRawEnd := c.committedRawEnd })

/-- A packet of a disabled committer becomes one literal commit. -/
def commitLiteral (c : Committer F) (text : Text) : Committer F × TextCommit :=
  let start := c.raw.length
  let made := { c with raw := c.raw ++ text }.makeCommit text start (start + text.length) .literal
    .literal text c.currentLang .prose none none
  ({ made.1 with committedRawEnd := start + text.length }, made.2)

/-- `feed` of a disabled committer. -/
def feedDisabled (c : Committer F) (text : Text) (final : Bool) (polled : List TextCommit) :
    Committer F × CommitDecision :=
  let fed :=
    if text = [] then (c, polled)
    else ((c.commitLiteral text).1, polled ++ [(c.commitLiteral text).2])
  let c := if final then { fed.1 with finalized := true } else fed.1
  (c, { commits := fed.2, reason := "disabled", state := if final then .done else .scan,
        committedRawEnd := c.committedRawEnd })

/-- The metadata of a packet. -/
def withMetadata (c : Committer F) (metadata : TextInputMetadata) : Committer F :=
  let hint := if metadata.languageHint = .unknown then none else some metadata.languageHint
  let pending := if c.pending.raw ≠ [] ∧ hint ≠ none ∧ c.pending.languageHint = none then
      { c.pending with languageHint := hint }
    else c.pending
  { c with activeLangHint := hint, pending }

/-- The text of a packet joins the source, and a late extension is marked. -/
def accept (c : Committer F) (text : Text) : Committer F :=
  { c with
    raw := c.raw ++ text
    lateExtension := false
    forceLiteralNext := c.forceLiteralNext || c.lateExtension }

/-- `_flush_pending` of the final packet. -/
def flushPending (c : Committer F) : Committer F :=
  if c.pending.raw = [] then c
  else
    let c :=
      if c.candidates.bracketClosed ∧ c.pending.kind = .markdown then
        { c.setKind .json with candidates := { c.candidates with bracketClosed := false } }
      else c
    closePending e c .final

/-- The closes and flushes at the end of a packet. -/
def settle (c : Committer F) (metadata : TextInputMetadata) (final : Bool) : Committer F :=
  let c := if metadata.closed ∧ c.pending.raw ≠ [] ∧ final = false then
      closePending e c .metadataClosed
    else c
  let c := if final then c.flushPending e else c
  let c := c.flushPlain
  if final then c.flushTerminatorRun else c

/-- `feed`. -/
def feed (c : Committer F) (text : Text) (final : Bool) (now : F) (metadata : TextInputMetadata) :
    Committer F × CommitDecision :=
  if c.finalized then
    (c, { reason := "after_final", state := .done,
          events := if text = [] then [] else ["text.input.after_final"],
          committedRawEnd := c.committedRawEnd })
  else
    let polled := if text = [] then poll e c now else (c, {})
    let c := polled.1
    if e.config.enabled = false then feedDisabled c text final polled.2.commits
    else
      let lateEvent := c.lateExtension
      let c := c.withMetadata metadata
      let c := if text = [] then c
        else append e now (c.accept text) text c.raw.length
      let c := c.settle e metadata final
      let commits := polled.2.commits ++ c.outbox
      let fallback := polled.2.fallback || c.limitFallback ||
        commits.any fun commit => commit.commitKind = .fallback
      let events := (if fallback then ["text.fallback"] else []) ++
        (if lateEvent then ["text.span.late_extension"] else [])
      let state := if final && c.pending.raw = [] then CommitmentState.done
        else if c.pending.raw ≠ [] then .opened
        else if fallback then .fallback else .commit
      ({ c with outbox := [], limitFallback := false, finalized := final },
        { commits, pendingRaw := c.pending.raw, pendingKind := c.pendingKind,
          reason := if final then "final" else "feed", fallback, events, state,
          committedRawEnd := c.committedRawEnd })

/-- A call of the committer. -/
inductive Call (F : Type)
  | feed (text : Text) (final : Bool) (now : F) (metadata : TextInputMetadata)
  | poll (now : F)

/-- One call: the new state and the commits of its decision. -/
def step (c : Committer F) : Call F → Committer F × List TextCommit
  | .feed text final now metadata =>
      ((feed e c text final now metadata).1, (feed e c text final now metadata).2.commits)
  | .poll now => ((poll e c now).1, (poll e c now).2.commits)

end

end Committer

end StreamingTts.Frontend
