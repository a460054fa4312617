import StreamingTts.Frontend.Classify

/-!
# The language of a span

`engine/frontend/text_commitment/language.py`. Confidences are counted in hundredths. The score
counter of the resolver is left out, since nothing reads it.
-/

namespace StreamingTts.Frontend

/-- `LanguageKind`. -/
inductive LanguageKind
  | unknown
  | zh
  | en
  deriving DecidableEq, Repr

/-- `LanguageEvidence`. -/
inductive LanguageEvidence
  | explicit
  | session
  | hanScript
  | latinScript
  | context
  | lid
  | fallback
  deriving DecidableEq, Repr

/-- `LanguageHypothesis`. -/
structure LanguageHypothesis where
  language : LanguageKind
  confidence : Nat
  evidence : List LanguageEvidence := []
  deriving DecidableEq, Repr

/-- `LanguageResolution`. -/
structure LanguageResolution where
  hypotheses : List LanguageHypothesis
  selected : LanguageKind := .unknown
  deriving DecidableEq, Repr

/-- `_SENTENCE_BREAKS`. -/
def isSentenceBreak (c : Char) : Bool := oneOf "。！？!?;；\n\r" c

/-- `LanguageResolver`: its mode and the language it confirmed last. -/
structure LanguageResolver where
  mode : Text
  lastConfirmed : LanguageKind := .unknown
  deriving DecidableEq, Repr

namespace UnicodeData

variable (u : UnicodeData)

/-- `script_evidence`. -/
def scriptEvidence (text : Text) : List LanguageEvidence :=
  (if text.any u.isHan then [.hanScript] else []) ++ (if text.any u.isLatin then [.latinScript] else [])

/-- `_clause_context`: the current clause, and at most 128 characters of it on each side. -/
def clauseContext (before after : Text) : Text × Text :=
  (((before.reverse.takeWhile fun c => !isSentenceBreak c).take 128).reverse,
    (after.takeWhile fun c => !isSentenceBreak c).take 128)

/-- `_nearest_script` of a text read away from the span. -/
def nearestScript : Text → Nat → Option (LanguageKind × Nat)
  | [], _ => none
  | c :: text, distance =>
      if u.isHan c then some (.zh, distance)
      else if u.isLatin c then some (.en, distance)
      else nearestScript text (distance + 1)

/-- `_local_script_resolution`. -/
def localScriptResolution (contextBefore contextAfter : Text) : Option (LanguageKind × Nat) :=
  let context := clauseContext contextBefore contextAfter
  let confidence := fun distance : Nat => if distance ≤ 1 then 96 else 82
  match u.nearestScript context.1.reverse 0, u.nearestScript context.2 0 with
  | none, none => none
  | some (language, distance), none => some (language, confidence distance)
  | none, some (language, distance) => some (language, confidence distance)
  | some (language, distance), some (language', distance') =>
      if distance < distance' then some (language, confidence distance)
      else if distance' < distance then some (language', confidence distance')
      else if language = language' then some (language, confidence distance)
      else none

/-- `LanguageResolver.__init__`. -/
def languageResolver (mode : Text) : LanguageResolver :=
  { mode := u.lowerText (u.strip (if mode = [] then "mixed_zh_en".toList else mode)) }

/-- `LanguageResolver.observe`. -/
def observe (r : LanguageResolver) (text : Text) (language : Option LanguageKind) : LanguageResolver :=
  if text = [] then r
  else
    let r := if text.any isSentenceBreak then { r with lastConfirmed := .unknown } else r
    match language with
    | some .zh => { r with lastConfirmed := .zh }
    | some .en => { r with lastConfirmed := .en }
    | _ =>
        match u.scriptEvidence text with
        | [.hanScript] => { r with lastConfirmed := .zh }
        | [.latinScript] => { r with lastConfirmed := .en }
        | _ => r

end UnicodeData

/-- `LanguageResolver._configured`. -/
def LanguageResolver.configured (r : LanguageResolver) : Option LanguageKind :=
  if startsWith r.mode "zh" then some .zh
  else if startsWith r.mode "en" then some .en
  else none

/-- A resolution that one hypothesis decides. -/
def LanguageResolution.single (language : LanguageKind) (confidence : Nat)
    (evidence : LanguageEvidence) : LanguageResolution :=
  ⟨[⟨language, confidence, [evidence]⟩], language⟩

/-- The two languages alike, and none selected. -/
def LanguageResolution.undecided (r : LanguageResolver) : LanguageResolution :=
  match r.lastConfirmed with
  | .zh => ⟨[⟨.zh, 60, [.context]⟩, ⟨.en, 40, [.context]⟩], .unknown⟩
  | .en => ⟨[⟨.en, 60, [.context]⟩, ⟨.zh, 40, [.context]⟩], .unknown⟩
  | .unknown => ⟨[⟨.zh, 50, []⟩, ⟨.en, 50, []⟩], .unknown⟩

/-- `LanguageResolver.resolve`. -/
def LanguageResolver.resolve (u : UnicodeData) (r : LanguageResolver) (raw : Text) (kind : SpanKind)
    (hint : Option LanguageKind) (contextBefore contextAfter : Text) : LanguageResolution :=
  match r.configured, hint with
  | some language, _ => .single language 100 .session
  | none, some .zh => .single .zh 100 .explicit
  | none, some .en => .single .en 100 .explicit
  | none, _ =>
      let hasHan := raw.any u.isHan
      let hasLatin := raw.any u.isLatin
      let nearby := u.localScriptResolution contextBefore contextAfter
      -- identifiers and words with digits ask the surrounding script before their own letters
      let embedded := kind = .identifier || kind = .version ||
        (kind = .englishWord && raw.any u.isDigit)
      if hasHan && !hasLatin then .single .zh 98 .hanScript
      else
        match nearby, embedded with
        | some (language, confidence), true => .single language confidence .context
        | _, _ =>
            if hasLatin && !hasHan && kind ≠ .number && kind ≠ .math then
              .single .en
                (if kind = .englishWord || kind = .ordinal || kind = .url || kind = .email then 90 else 75)
                .latinScript
            else
              match nearby with
              | some (language, confidence) => .single language confidence .context
              | none => .undecided r

end StreamingTts.Frontend
