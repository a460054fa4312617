import StreamingTts.Lib.Regex

/-!
# Characters and texts of the text frontend

The helpers of `engine/frontend/text_commitment/committer.py` and `engine/text_normalization.py` that
look at characters and plain texts. A text is a list of code points. The Unicode database is a
parameter `UnicodeData`: the functions below are those of Python's `str` and `unicodedata`, and the
laws are the ones ASCII characters obey in every version of the database.
-/

namespace StreamingTts.Frontend

open Lib (Regex)

/-- A Python string, as its code points. -/
abbrev Text := List Char

/-- The Unicode database as `str` methods and `unicodedata` read it. -/
structure UnicodeData where
  /-- `unicodedata.normalize("NFKC", ch)`. -/
  nfkc : Char → Text
  /-- `str.isspace`, which is also the class `\s` of a pattern. -/
  isSpace : Char → Bool
  /-- `str.isdigit`. -/
  isDigit : Char → Bool
  /-- The class `\d` of a pattern. -/
  isDecimal : Char → Bool
  /-- `str.isalpha`. -/
  isAlpha : Char → Bool
  /-- `str.lower` of one character. -/
  lower : Char → Text
  /-- The category starts with `P`. -/
  isPunctuation : Char → Bool
  /-- `_is_combining`: a combining class, or a category that starts with `M`. -/
  isCombining : Char → Bool
  /-- `_is_han`: a CJK unified or compatibility ideograph by name. -/
  isHan : Char → Bool
  /-- `_is_latin`: a letter with `LATIN` in its name. -/
  isLatin : Char → Bool
  /-- `EMOJI` is in the name. -/
  namedEmoji : Char → Bool
  nfkc_ascii : ∀ c : Char, c.toNat < 128 → nfkc c = [c]
  isDigit_ascii : ∀ c : Char, c.toNat < 128 → isDigit c = c.isDigit

/-! ## Emoji -/

/-- `is_emoji_char` of `text_normalization`. -/
def isEmojiChar (ch : Char) : Bool :=
  let n := ch.toNat
  [0x00A9, 0x00AE, 0x203C, 0x2049, 0x2122, 0x2139, 0x3030, 0x303D, 0x3297, 0x3299].contains n
    || [0x200D, 0x20E3].contains n
    || (0x1F000 ≤ n && n ≤ 0x1FAFF) || (0x2600 ≤ n && n ≤ 0x27BF)
    || (0xFE00 ≤ n && n ≤ 0xFE0F) || (0xE0020 ≤ n && n ≤ 0xE007F) || (0xE0100 ≤ n && n ≤ 0xE01EF)

namespace UnicodeData

variable (u : UnicodeData)

/-- `_is_emoji`. -/
def isEmoji (ch : Char) : Bool :=
  u.namedEmoji ch || (0x1F000 ≤ ch.toNat && ch.toNat < 0x1FAFF)

/-- The guard of the lexer: an emoji, or a component of one. -/
def filtered (ch : Char) : Bool := u.isEmoji ch || isEmojiChar ch

/-- The one-character compatibility view of a character. -/
def lexChar (ch : Char) : Char :=
  match u.nfkc ch with
  | [c] => c
  | _ => ch

theorem lexChar_ascii {ch : Char} (h : ch.toNat < 128) : u.lexChar ch = ch := by
  simp [lexChar, u.nfkc_ascii ch h]

/-- A digit, or one in the compatibility view. -/
def digitLike (ch : Char) : Bool := u.isDigit ch || u.isDigit (u.lexChar ch)

/-- A letter, or one in the compatibility view. -/
def alphaLike (ch : Char) : Bool := u.isAlpha ch || u.isAlpha (u.lexChar ch)

/-- The superscripts, subscripts and fractions that keep their spelling. -/
def preserved : Text := "⁰¹²³⁴⁵⁶⁷⁸⁹₀₁₂₃₄₅₆₇₈₉½⅓⅔¼¾⅕⅖⅗⅘⅙⅚⅛⅜⅝⅞⅐⅑⅒".toList

/-- `_compatibility_spelling`. -/
def compatibilitySpelling (text : Text) : Text :=
  text.flatMap fun ch => if preserved.contains ch then [ch] else u.nfkc ch

/-- `str.isdigit` of a text. -/
def isDigits (text : Text) : Bool := !text.isEmpty && text.all u.isDigit

/-- `str.strip` of whitespace. -/
def strip (text : Text) : Text :=
  ((text.dropWhile u.isSpace).reverse.dropWhile u.isSpace).reverse

/-- `str.lower`. -/
def lowerText (text : Text) : Text := text.flatMap u.lower

end UnicodeData

/-! ## Plain text -/

/-- `str.isascii` of one character. -/
def isAscii (ch : Char) : Bool := ch.toNat < 128

/-- `ch in "..."` of one character. -/
def oneOf (chars : String) (ch : Char) : Bool := chars.toList.contains ch

/-- `text.startswith(...)`. -/
def startsWith (text : Text) (pre : String) : Bool := pre.toList.isPrefixOf text

/-- `text.endswith(...)`. -/
def endsWith (text : Text) (suffix : String) : Bool := suffix.toList.isSuffixOf text

/-- `part in text`. -/
def contains (text part : Text) : Bool := text.tails.any part.isPrefixOf

/-- `text.count(...)` of a text of `n` characters, without overlaps. -/
def countFrom (part : Text) : Nat → Text → Nat
  | _, [] => 0
  | 0, c :: text =>
      if part.isPrefixOf (c :: text) then countFrom part (part.length - 1) text + 1
      else countFrom part 0 text
  | n + 1, _ :: text => countFrom part n text

/-- `text.count(...)`. -/
def count (text : Text) (part : String) : Nat := countFrom part.toList 0 text

/-- The part behind the last line break (`rsplit` by `\n`, then by `\r`). -/
def lastLine (text : Text) : Text :=
  (text.reverse.takeWhile fun c => c ≠ '\n' && c ≠ '\r').reverse

/-- `_at_line_start`. -/
def atLineStart (text : Text) (position : Nat) : Bool :=
  (lastLine (text.take position)).all fun c => c = ' ' || c = '\t'

/-- `_at_inline_ordered_list_start`. -/
def atInlineOrderedListStart (text : Text) (position : Nat) : Bool :=
  atLineStart text position ||
    match (text.take position).reverse.dropWhile fun c => c = ' ' || c = '\t' with
    | [] => false
    | c :: _ => oneOf "：:，,。！？!?；;" c

/-- `_VULGAR_FRACTION_CHARS`. -/
def vulgarFractionChars : String := "½⅓⅔¼¾⅕⅖⅗⅘⅙⅚⅛⅜⅝⅞⅐⅑⅒"

/-- `_RIGHT_BOUNDARY_CHARS`. -/
def rightBoundaryChars : String := ")]\x7d" ++ "）】》」』〉»”’"

/-- `_MATH_CLOSERS`. -/
def mathClosers : String := ")]\x7d"

/-- `_TERMINATOR_CHARS`. -/
def isTerminatorChar (ch : Char) : Bool := oneOf ".!?。！？；;…" ch

/-- `_LEADING_DECIMAL_BOUNDARIES`. -/
def isLeadingDecimalBoundary (ch : Char) : Bool := oneOf " \t\r\n,，。！？!?；;：:" ch

/-- `_SPACED_UNITS`. -/
def spacedUnits : List String := ["m", "mm", "cm", "km", "kg", "ms", "°c", "℃", "μg/m³", "µg/m³"]

/-- `_CURRENCY_SUFFIXES`. -/
def currencySuffixes : List String := ["元", "块", "块钱", "人民币"]

/-! ## ASCII -/

/-- The Unicode database on ASCII characters. -/
def asciiData : UnicodeData where
  nfkc c := [c]
  isSpace c := c = ' ' || (9 ≤ c.toNat && c.toNat ≤ 13) || (28 ≤ c.toNat && c.toNat ≤ 31)
  isDigit c := c.isDigit
  isDecimal c := c.isDigit
  isAlpha c := c.isAlpha
  lower c := [c.toLower]
  isPunctuation c := oneOf "!\"#%&'()*,-./:;?@[\\]_\x7b\x7d" c
  isCombining _ := false
  isHan _ := false
  isLatin c := c.isAlpha
  namedEmoji _ := false
  nfkc_ascii _ _ := rfl
  isDigit_ascii _ _ := rfl

end StreamingTts.Frontend
