import StreamingTts.Frontend.Text

/-!
# The kinds of spans

`SpanKind`, `SemanticFamily` and `IncrementalTextCommitter._classify` with the patterns it uses, from
`engine/frontend/text_commitment`. The patterns are written with the classes of the Unicode database;
a pattern compiled with `re.I` takes the letters that fold to its own.
-/

namespace StreamingTts.Frontend

open Lib (Regex)
open Lib.Regex (seqs alts opt plus times upTo between atLeast)

/-- `SpanKind`. -/
inductive SpanKind
  | plain
  | number
  | englishWord
  | ordinal
  | math
  | url
  | email
  | identifier
  | version
  | phone
  | idCard
  | markdown
  | json
  | emoji
  | literal
  deriving DecidableEq, Repr

/-- `SemanticFamily`. -/
inductive SemanticFamily
  | quantity
  | identifier
  | contact
  | formula
  | structured
  | prose
  deriving DecidableEq, Repr

/-- `family_for_kind`. -/
def familyForKind : SpanKind → SemanticFamily
  | .number => .quantity
  | .ordinal => .quantity
  | .identifier => .identifier
  | .version => .identifier
  | .idCard => .identifier
  | .phone => .contact
  | .email => .contact
  | .url => .contact
  | .math => .formula
  | .markdown => .structured
  | .json => .structured
  | .literal => .structured
  | _ => .prose

/-! ## Patterns -/

/-- A pattern over characters. -/
abbrev Pattern := Regex Char

/-- A fixed text. -/
def lit (s : String) : Pattern := Regex.text s.toList

/-- One of the characters. -/
def chars (s : String) : Pattern := Regex.oneOf s.toList

/-- `[A-Za-z]`. -/
def asciiLetter : Pattern := .cls Char.isAlpha

/-- `[A-Za-z]` under `re.I`. -/
def letterI : Pattern := .cls fun c => c.isAlpha || oneOf "İıſ\u212a" c

/-- A character of `[A-Za-z0-9._-]`. -/
def nameChar : Pattern := .cls fun c => c.isAlphanum || oneOf "._-" c

namespace UnicodeData

variable (u : UnicodeData)

/-- `\d`. -/
def digit : Pattern := .cls u.isDecimal

/-- `\d+`. -/
def digits : Pattern := plus u.digit

/-- `\s*`. -/
def spaces : Pattern := .star (.cls u.isSpace)

/-- `\d+(?:\.\d+)?`. -/
def decimal : Pattern := seqs [u.digits, opt (seqs [lit ".", u.digits])]

/-- `[+\-]?`. -/
def sign : Pattern := opt (chars "+-")

/-- `_NUMERIC`. -/
def numericPattern : Pattern :=
  seqs [sign, u.digits, opt (seqs [chars ".,", u.digits]), opt (.alt (lit "%") (between asciiLetter 1 8))]

/-- `_ORDINAL`. -/
def ordinalPattern : Pattern :=
  seqs [between u.digit 1 6, alts [seqs [chars "sSſ", chars "tT"], seqs [chars "nN", chars "dD"],
    seqs [chars "rR", chars "dD"], seqs [chars "tT", chars "hH"]]]

/-- `_VERSION`. -/
def versionPattern : Pattern :=
  seqs [opt (chars "vV"), u.digits, plus (seqs [chars "._-", u.digits]),
    opt (seqs [plus letterI, .star u.digit])]

/-- `_IDENTIFIER`. -/
def identifierPattern : Pattern :=
  seqs [asciiLetter, .star nameChar, lit "@", .cls Char.isDigit, .star nameChar]

/-- `_MODEL_CODE`. -/
def modelCodePattern : Pattern := seqs [plus asciiLetter, lit "-", u.digits]

/-- `_PHONE_SEGMENT`. -/
def phoneSegment : Pattern :=
  let gap := Regex.cls fun c => c = '-' || u.isSpace c
  alts [seqs [lit "+", between u.digit 1 3, opt gap, atLeast u.digit 6],
    seqs [lit "(+", between u.digit 1 3, lit ")", u.spaces, atLeast u.digit 6],
    seqs [lit "0", between u.digit 2 3, gap, between u.digit 3 4, gap, times u.digit 4],
    seqs [lit "0", atLeast u.digit 9]]

/-- `_PHONE`. -/
def phonePattern : Pattern :=
  seqs [u.phoneSegment, opt (seqs [u.spaces, lit "/", u.spaces, u.phoneSegment])]

/-- `_ID_CARD`. -/
def idCardPattern : Pattern := seqs [times u.digit 17, .cls fun c => c.isDigit || oneOf "Xx" c]

/-- `_TIME`. -/
def timePattern : Pattern :=
  seqs [between u.digit 1 2, lit ":", times u.digit 2, opt (seqs [lit ":", times u.digit 2]),
    opt (seqs [chars "AaPp", chars "Mm"])]

/-- `_RANGE`. -/
def rangePattern : Pattern := seqs [u.decimal, u.spaces, chars "-~", u.spaces, u.decimal]

/-- A calendar date with separators. -/
def datePattern : Pattern :=
  seqs [times u.digit 4, chars "-/.", between u.digit 1 2,
    opt (seqs [chars "-/.", between u.digit 1 2])]

/-- A Chinese date up to the day. -/
def hanDatePattern : Pattern :=
  seqs [times u.digit 4, lit "年", between u.digit 1 2, lit "月",
    opt (seqs [between u.digit 1 2, opt (lit "日")])]

/-- The units of a quantity. -/
def unitPattern : Pattern :=
  alts [lit "m²", lit "km/h", lit "km", lit "kg", lit "ms", lit "°C", lit "℃", lit "m", lit "mm",
    lit "cm", seqs [chars "μµ", lit "g/m³"]]

/-! ## Arithmetic -/

/-- `re.sub` of `c\s*=` by `new`; `held` is the whitespace behind a `c`. -/
def joinComparison (c new : Char) : Option Text → Text → Text
  | none, [] => []
  | some held, [] => c :: held
  | none, x :: t => if x = c then joinComparison c new (some []) t else x :: joinComparison c new none t
  | some held, x :: t =>
      if x = '=' then new :: joinComparison c new none t
      else if u.isSpace x then joinComparison c new (some (held ++ [x])) t
      else if x = c then c :: held ++ joinComparison c new (some []) t
      else c :: held ++ x :: joinComparison c new none t

/-- `text.replace("==", "=")`. -/
def joinEquals : Text → Text
  | '=' :: '=' :: t => '=' :: joinEquals t
  | x :: t => x :: joinEquals t
  | [] => []

/-- `_canonical_math_spelling`. -/
def canonicalMathSpelling (text : Text) : Text :=
  let canonical := u.compatibilitySpelling text
  let canonical := u.joinComparison '!' '≠' none canonical
  let canonical := u.joinComparison '>' '≥' none canonical
  let canonical := u.joinComparison '<' '≤' none canonical
  joinEquals canonical

/-- `_MATH_CHARS`. -/
def mathChars : String := "0123456789.+-*/=^×÷()<>≤≥!≠xX"

/-- `_MATH_BINARY_OPERATORS`. -/
def mathBinaryOperators : String := "+*/=^×÷<>≤≥≠xX"

/-- `_looks_like_math`. -/
def looksLikeMath (raw : Text) : Bool :=
  let raw := u.canonicalMathSpelling raw
  let operator := seqs [u.digit, u.spaces, chars mathBinaryOperators]
  raw.any (oneOf mathChars) &&
    ((seqs [operator, u.spaces, sign, u.spaces, u.digit]).search raw
      || (seqs [operator, u.spaces, lit "("]).search raw
      || ((seqs [u.digit, u.spaces, lit "-", u.spaces, u.digit]).search raw
          && (raw.contains '=' || operator.search raw))
      || (seqs [operator, u.spaces]).searchEnd raw
      || (seqs [operator, u.spaces, chars "+-", u.spaces]).searchEnd raw
      || (seqs [u.digit, u.spaces, lit "!", u.spaces]).searchEnd raw
      || (seqs [asciiLetter, u.spaces, lit "^", u.spaces, u.digit]).search raw)

/-! ## Classification -/

/-- `_classify`. -/
def classify (source : Text) : SpanKind :=
  let raw := u.compatibilitySpelling source
  if u.idCardPattern.fullmatch raw then .idCard
  else if u.phonePattern.fullmatch raw then .phone
  else if raw.contains '@' then
    if identifierPattern.fullmatch raw then .identifier else .email
  else if contains raw "://".toList || startsWith raw "www." || startsWith raw "http" then .url
  else if u.modelCodePattern.fullmatch raw then .identifier
  else if (seqs [alts [lit "A$", lit "HKD", chars "$€￥£¥"], u.decimal]).fullmatch raw then .number
  else if (seqs [sign, u.decimal, alts [lit "元", seqs [lit "块", opt (lit "钱")], lit "人民币"]]).fullmatch
      raw then .number
  else if u.timePattern.fullmatch raw || u.rangePattern.fullmatch raw then .number
  else if u.datePattern.fullmatch raw || u.hanDatePattern.fullmatch raw then .number
  else if (seqs [times u.digit 4, lit "年", upTo u.digit 2, opt (lit "月")]).fullmatch raw then .number
  else if u.rangePattern.fullmatch raw
      || (seqs [sign, u.decimal, u.spaces, chars "-~", u.spaces, .star u.digit]).fullmatch raw then
    .number
  else if u.looksLikeMath raw then .math
  else if contains "≤≥≠".toList raw then .math
  else if (seqs [sign, u.digits, lit ".", u.digits]).fullmatch raw then .number
  else if u.versionPattern.fullmatch raw then .version
  else if (seqs [sign, u.decimal, unitPattern]).fullmatch raw then .number
  else if raw = "℃".toList then .number
  else if (seqs [.star u.digit, .cls fun c => u.isDecimal c || oneOf vulgarFractionChars c]).fullmatch raw
      && raw.any (oneOf vulgarFractionChars) then .number
  else if u.ordinalPattern.fullmatch raw then .ordinal
  else if u.numericPattern.fullmatch raw then .number
  else .englishWord

end UnicodeData

end StreamingTts.Frontend
