import StreamingTts.Frontend.TtsText

/-!
# The canonical text journal

`CanonicalTextJournal` of `engine/core/text_journal.py`: the raw text of a session, the text that is
spoken, and the boundaries of the one in the other. `append` and `finish` project the raw text again and
walk along both texts for the boundaries; `append_spoken` puts a commit behind the spoken text;
`install_projection` takes a finished map. Offsets are those of code points.
-/

namespace StreamingTts.Frontend

/-! ## Boundaries -/

/-- `_monotonic` behind the value `last`. -/
def monotonicFrom : Int → List Int → List Int
  | _, [] => []
  | last, value :: values => max last value :: monotonicFrom (max last value) values

/-- `_monotonic`. -/
def monotonic (values : List Int) : List Int := monotonicFrom 0 values

/-- `bisect_left` on a list in order. -/
def bisectLeft (values : List Int) (x : Int) : Nat := (values.takeWhile fun v => decide (v < x)).length

/-- The entry of `_inverse_boundaries` at a raw boundary. -/
def inverseAt (normalizedToRaw : List Int) (rawBoundary : Nat) : Nat :=
  let index := bisectLeft normalizedToRaw rawBoundary
  if normalizedToRaw[index]? = some (rawBoundary : Int) then index else index - 1

/-- `_inverse_boundaries`. -/
def inverseBoundaries (raw : Text) (normalizedToRaw : List Int) : List Nat :=
  (List.range (raw.length + 1)).map (inverseAt normalizedToRaw)

/-- The last entry of a list of boundaries is replaced. -/
def setLast (boundaries : List Int) (value : Int) : List Int := boundaries.dropLast ++ [value]

/-! ## The walk along both texts -/

/-- The text behind the sequence that `_removed_sequence_end` finds at its head: a keycap sequence, or a
run of emoji that may go on with keycap sequences. -/
def behindRemoved : Text → Text
  | [] => []
  | ch :: rest =>
      if keycapSequenceLen (ch :: rest) ≠ 0 then
        (ch :: rest).drop (keycapSequenceLen (ch :: rest))
      else if !isEmojiChar ch then ch :: rest
      else skipEmoji 0 rest

/-- `_removed_sequence_end`. -/
def removedSequenceEnd (raw : Text) (start : Nat) : Nat :=
  start + ((raw.drop start).length - (behindRemoved (raw.drop start)).length)

/-- The variables of the loop of `_provenance_maps`. -/
structure ProvenanceWalk where
  charSpans : List (Nat × Nat) := []
  rawCursor : Nat := 0
  pendingDeletedStart : Option Nat := none

namespace ProvenanceWalk

variable (raw : Text) (w : ProvenanceWalk)

/-- Where the span of the next character begins: with what was deleted before it. -/
def start : Nat := w.pendingDeletedStart.getD w.rawCursor

/-- A character has the raw text up to `stop`. -/
def span (stop : Nat) : ProvenanceWalk where
  charSpans := w.charSpans ++ [(w.start, stop)]
  rawCursor := stop
  pendingDeletedStart := none

/-- Raw text up to `stop` is deleted. -/
def delete (stop : Nat) : ProvenanceWalk :=
  { w with rawCursor := stop, pendingDeletedStart := some w.start }

/-- The turn of the loop behind the removed sequences. -/
def consume (ch : Char) : ProvenanceWalk :=
  if raw[w.rawCursor]? = some ch then w.span (w.rawCursor + 1)
  else
    match (raw.drop w.rawCursor).findIdx? (· = ch) with
    | some n => w.span (w.rawCursor + n + 1)
    | none =>
        if raw[w.rawCursor]?.any (fun c => ch ≠ ' ' || isSpaceChar c || isEmojiChar c) then
          w.span (w.rawCursor + 1)
        else
          -- an inserted separator has no width
          { w with charSpans := w.charSpans ++ [(w.start, w.start)], pendingDeletedStart := none }

/-- One turn of the loop. -/
def step (ch : Char) : ProvenanceWalk :=
  let removedEnd := removedSequenceEnd raw w.rawCursor
  if w.rawCursor < removedEnd then
    if ch = ' ' && separates (raw.take w.rawCursor).getLast? raw[removedEnd]? then w.span removedEnd
    else (w.delete removedEnd).consume raw ch
  else w.consume raw ch

/-- What is left of the raw text is deleted. -/
def finish : ProvenanceWalk := if w.rawCursor < raw.length then w.delete raw.length else w

/-- A folded run of whitespace belongs to its normalized space. -/
def foldSpan (ch : Char) (s : Nat × Nat) : Nat × Nat :=
  if isSpaceChar ch && raw[s.1]?.any isSpaceChar then
    (s.1, s.2 + ((raw.drop s.2).takeWhile isSpaceChar).length)
  else s

/-- The right edges of spans, none of them before `last`. -/
def edgesFrom : Int → List (Nat × Nat) → List Int
  | _, [] => []
  | last, s :: spans =>
      let stop := max (max last s.1) s.2
      stop :: edgesFrom stop spans

end ProvenanceWalk

/-- `_provenance_maps`, its first map; the second one is the inverse of it. -/
def provenanceMap (raw normalized : Text) (includeTrailingDeleted : Bool) : List Int :=
  let walk := (normalized.foldl (ProvenanceWalk.step raw) {}).finish raw
  let spans := List.zipWith (ProvenanceWalk.foldSpan raw) normalized walk.charSpans
  let edges := 0 :: ProvenanceWalk.edgesFrom 0 spans
  let closed :=
    if normalized ≠ [] then
      if includeTrailingDeleted then setLast edges raw.length
      else
        match walk.pendingDeletedStart with
        | some start => setLast edges (max (edges.dropLast.getLast?.getD 0) start)
        | none => edges
    else if includeTrailingDeleted then [(raw.length : Int)]
    else edges
  monotonic closed

/-! ## The journal -/

/-- `CanonicalTextJournal`. -/
structure CanonicalTextJournal where
  normalize : Text → Text
  stripLeadingWhitespace : Bool := false
  rawText : Text := []
  normalizedText : Text := []
  normalizedToRaw : List Int := [0]
  rawToNormalized : List Nat := [0]
  inputFinal : Bool := false

namespace CanonicalTextJournal

/-- A new journal. -/
def new (normalize : Text → Text) (stripLeadingWhitespace : Bool) : CanonicalTextJournal where
  normalize := normalize
  stripLeadingWhitespace := stripLeadingWhitespace

variable (j : CanonicalTextJournal)

/-- A map of boundaries is installed with its inverse. -/
def withMap (rawText normalizedText : Text) (normalizedToRaw : List Int) : CanonicalTextJournal :=
  { j with
    rawText := rawText
    normalizedText := normalizedText
    normalizedToRaw := normalizedToRaw
    rawToNormalized := inverseBoundaries rawText normalizedToRaw }

/-- The whitespace that begins a text, if the journal strips it. -/
def leading (text : Text) : Nat :=
  if j.stripLeadingWhitespace then text.length - (lstrip text).length else 0

/-- `_project`: the spoken text and its map. -/
def project (committedRaw : Text) (includeTrailingDeleted : Bool) : Text × List Int :=
  let rawPrefix := j.leading j.rawText
  let untrimmed := j.normalize (committedRaw.drop rawPrefix)
  let normalizedPrefix := j.leading untrimmed
  let untrimmedToRaw := provenanceMap (j.rawText.drop rawPrefix) untrimmed includeTrailingDeleted
  (untrimmed.drop normalizedPrefix,
    (untrimmedToRaw.drop normalizedPrefix).map fun boundary => (rawPrefix : Int) + boundary)

/-- The raw text that `append` projects: a suffix that may begin a keycap sequence is held back, unless
the input is final. -/
def committedRaw : Text := if j.inputFinal then j.rawText else (splitPendingEmoji j.rawText).1

/-- `append`. -/
def append (rawDelta : Text) : Except String CanonicalTextJournal :=
  let grown := { j with rawText := j.rawText ++ rawDelta }
  let projected := grown.project grown.committedRaw grown.inputFinal
  if ¬ j.normalizedText <+: projected.1 then
    .error "canonical text normalization rewrote committed text"
  else .ok (grown.withMap grown.rawText projected.1 projected.2)

/-- `finish`. -/
def finish : CanonicalTextJournal :=
  let final := { j with inputFinal := true }
  let projected := final.project final.rawText true
  final.withMap final.rawText projected.1 projected.2

/-- The map of `install_projection`, before it is checked. -/
def installedBoundaries (rawText normalizedText : Text) :
    Option (List Int) → Except String (List Int)
  | none =>
      if rawText.length ≠ normalizedText.length then
        .error "normalized_to_raw is required when raw and spoken lengths differ"
      else .ok ((List.range (normalizedText.length + 1)).map Int.ofNat)
  | some boundaries =>
      if boundaries.length ≠ normalizedText.length + 1 then
        .error "normalized_to_raw must have len(normalized_text) + 1 entries"
      else .ok boundaries

/-- `install_projection`. -/
def installProjection (rawText normalizedText : Text) (normalizedToRaw : Option (List Int)) :
    Except String CanonicalTextJournal := do
  let boundaries ← installedBoundaries rawText normalizedText normalizedToRaw
  if boundaries.head?.any (· < 0) || boundaries.getLast?.any ((rawText.length : Int) < ·) then
    .error "normalized_to_raw boundaries exceed raw text"
  else if (boundaries.zip boundaries.tail).any fun p => p.2 < p.1 then
    .error "normalized_to_raw boundaries must be monotonic"
  else
    .ok ({ j with inputFinal := true }.withMap rawText normalizedText
      (if boundaries = [] then [(rawText.length : Int)] else boundaries))

/-- A position inside a text. -/
def clamp (source : Text) (value : Int) : Int := max 0 (min source.length value)

/-- The map, or the one of an empty text. -/
def boundaries : List Int := if j.normalizedToRaw = [] then [0] else j.normalizedToRaw

/-- `update_raw_source`. -/
def updateRawSource (rawText : Text) : Except String CanonicalTextJournal :=
  if j.inputFinal then .error "cannot update a finalized text projection"
  else .ok (j.withMap rawText j.normalizedText (monotonic (j.boundaries.map (clamp rawText))))

/-! ## Commits -/

/-- The boundaries of detailed output spans, before the gaps are filled. -/
def placeSpans (length : Nat) (join stop : Int) :
    List (Option Int) → List (Int × Int × Int × Int) → Option (List (Option Int))
  | placed, [] => some placed
  | placed, (rawStart, rawEnd, outputStart, outputEnd) :: items =>
      if ¬ ((0 ≤ outputStart ∧ outputStart < outputEnd ∧ outputEnd ≤ length)
          ∧ join ≤ rawStart ∧ rawStart ≤ rawEnd ∧ rawEnd ≤ stop) then none
      else
        placeSpans length join stop
          ((placed.set outputStart.toNat (some rawStart)).set outputEnd.toNat (some rawEnd)) items

/-- A boundary that is not given is the largest one before it. -/
def fillFrom : Int → List (Option Int) → List Int
  | _, [] => []
  | current, none :: rest => current :: fillFrom current rest
  | current, some value :: rest => max current value :: fillFrom (max current value) rest

/-- `_boundaries_from_output_mapping`. -/
def boundariesFromOutputMapping (delta : Text) (join stop : Int)
    (outputMapping : List (Int × Int × Int × Int)) : Option (List Int) :=
  if outputMapping = [] ∨ delta = [] then none
  else do
    let placed ← placeSpans delta.length join stop
      (some join :: List.replicate delta.length none) outputMapping
    let filled := fillFrom join placed
    let last := filled.getLast?.getD 0
    some (setLast filled (max (if last = 0 then join else last) stop))

/-- The raw interval of a commit, inside its source. -/
def commitSpan (source : Text) (rawStart rawEnd : Int) (mapping : List (Int × Int)) : Int × Int :=
  if mapping = [] then
    let start := clamp source rawStart
    (start, max start (min source.length rawEnd))
  else
    let start := clamp source (((mapping.map fun m => max 0 m.1).min?).getD 0)
    (start, max start (min source.length (((mapping.map fun m => max 0 m.2).max?).getD 0)))

/-- What a commit adds to the spoken text. -/
def spokenDelta (spokenText : Text) : Text :=
  let delta := if spokenText = [] then [] else j.normalize spokenText
  if j.stripLeadingWhitespace ∧ j.normalizedText = [] then lstrip delta
  else if j.normalizedText.getLast?.any isSpaceChar then lstrip delta
  else delta

/-- The boundaries of what a commit adds, from the one it joins on. -/
def commitBoundaries (source spokenText delta : Text) (start stop join : Int)
    (outputMapping : List (Int × Int × Int × Int)) : List Int :=
  match boundariesFromOutputMapping delta join stop outputMapping with
  | some detailed => detailed
  | none =>
      if spokenText = (source.drop start.toNat).take (stop - start).toNat
          ∧ delta.length = spokenText.length then
        join :: (List.range spokenText.length).map fun i : Nat => start + i + 1
      else List.replicate delta.length join ++ [stop]

/-- `append_spoken`: the text it adds, where that begins, and the journal behind it. -/
def appendSpoken (rawText : Text) (rawStart rawEnd : Int) (spokenText : Text)
    (mapping : List (Int × Int)) (outputMapping : List (Int × Int × Int × Int)) :
    Except String ((Text × Nat) × CanonicalTextJournal) :=
  if j.inputFinal then .error "cannot append to a finalized text projection"
  else if j.boundaries.length ≠ j.normalizedText.length + 1 then
    .error "normalized_to_raw is out of sync with normalized_text"
  else
    let delta := j.spokenDelta spokenText
    let (start, stop) := commitSpan rawText rawStart rawEnd mapping
    let last := j.boundaries.getLast?.getD 0
    let boundaries :=
      if delta ≠ [] then
        j.boundaries.dropLast
          ++ commitBoundaries rawText spokenText delta start stop (max last start) outputMapping
      else setLast j.boundaries (max last stop)
    .ok ((delta, j.normalizedText.length),
      j.withMap rawText (j.normalizedText ++ delta) (monotonic (boundaries.map (clamp rawText))))

/-- `finalize_projection`. -/
def finalizeProjection : CanonicalTextJournal :=
  { j with inputFinal := true }.withMap j.rawText j.normalizedText
    (if j.normalizedToRaw = [] then []
    else setLast j.normalizedToRaw (max (j.normalizedToRaw.getLast?.getD 0) j.rawText.length))

/-- `trim_normalized`. -/
def trimNormalized : Except String CanonicalTextJournal :=
  let start := j.normalizedText.length - (lstrip j.normalizedText).length
  let stop := (rstrip j.normalizedText).length
  if start = 0 ∧ stop = j.normalizedText.length then .ok j
  else
    match j.normalizedToRaw[start]?, j.normalizedToRaw[stop]? with
    | some rawStart, some rawEnd =>
        .ok (j.withMap j.rawText ((j.normalizedText.take stop).drop start)
          (((j.normalizedToRaw.take (stop + 1)).drop start).map fun value =>
            max rawStart (min rawEnd value)))
    | _, _ => .error "list index out of range"

end CanonicalTextJournal

/-! ## Operations -/

/-- An operation of the journal. -/
inductive JournalOp
  | append (rawDelta : Text)
  | finish
  | appendSpoken (rawText : Text) (rawStart rawEnd : Int) (spokenText : Text)
      (mapping : List (Int × Int)) (outputMapping : List (Int × Int × Int × Int))
  | updateRawSource (rawText : Text)
  | installProjection (rawText normalizedText : Text) (normalizedToRaw : Option (List Int))
  | finalizeProjection
  | trimNormalized

/-- The journal after an operation. -/
def CanonicalTextJournal.step (j : CanonicalTextJournal) :
    JournalOp → Except String CanonicalTextJournal
  | .append rawDelta => j.append rawDelta
  | .finish => .ok j.finish
  | .appendSpoken rawText rawStart rawEnd spokenText mapping outputMapping =>
      (j.appendSpoken rawText rawStart rawEnd spokenText mapping outputMapping).map (·.2)
  | .updateRawSource rawText => j.updateRawSource rawText
  | .installProjection rawText normalizedText normalizedToRaw =>
      j.installProjection rawText normalizedText normalizedToRaw
  | .finalizeProjection => .ok j.finalizeProjection
  | .trimNormalized => j.trimNormalized

end StreamingTts.Frontend
