import StreamingTts.Frontend.InputRouting

/-!
# The text that is spoken

`strip_emoji` of `engine/text_normalization.py` and `_normalize_tts_text` of
`engine/frontend/interface.py`, with the readings the proofs use. A position of a text is `Silent` if a
keycap sequence or an emoji stands there; `speak` keeps what is not silent and puts a space for a silent
run between two ASCII words; `squeeze` keeps the first space of every run. `normalizeTtsText_eq` says
that the normalizer is the one after the other.
-/

namespace StreamingTts.Frontend

open Committer (isKeycapBase)

/-! ## Characters -/

/-- `str.isspace` of one character. -/
def isSpaceChar (ch : Char) : Bool :=
  let n := ch.toNat
  (0x09 ≤ n && n ≤ 0x0D) || (0x1C ≤ n && n ≤ 0x20) || (0x2000 ≤ n && n ≤ 0x200A)
    || [0x85, 0xA0, 0x1680, 0x2028, 0x2029, 0x202F, 0x205F, 0x3000].contains n

/-- `str.lstrip` of whitespace. -/
def lstrip (text : Text) : Text := text.dropWhile isSpaceChar

/-- `str.rstrip` of whitespace. -/
def rstrip (text : Text) : Text := (text.reverse.dropWhile isSpaceChar).reverse

/-- A run that a character ends is not longer than what is before that character. -/
theorem length_takeWhile_le {p : Char → Bool} {text : Text} {i : Nat} {c : Char}
    (h : text[i]? = some c) (hc : p c = false) : (text.takeWhile p).length ≤ i := by
  induction text generalizing i with
  | nil => exact Nat.zero_le _
  | cons a text ih =>
      cases i with
      | zero =>
          cases h
          rw [List.takeWhile_cons_of_neg (by simp [hc])]
          exact Nat.le_refl _
      | succ i =>
          by_cases ha : p a = true
          · rw [List.takeWhile_cons_of_pos ha, List.length_cons]
            exact Nat.succ_le_succ (ih h)
          · rw [List.takeWhile_cons_of_neg ha]
            exact Nat.zero_le _

/-- What is left of a text behind a run, in lengths. -/
theorem length_dropWhile (p : Char → Bool) (text : Text) :
    (text.takeWhile p).length + (text.dropWhile p).length = text.length := by
  rw [← List.length_append, List.takeWhile_append_dropWhile]

/-- `_is_ascii_word_char`. -/
def isAsciiWordChar (ch : Char) : Bool := isAscii ch && ch.isAlphanum

/-- Whether a space separates the character before a silent run from the one behind it. -/
def separates (last next : Option Char) : Bool :=
  last.any isAsciiWordChar && next.any isAsciiWordChar

/-! ## Emoji -/

/-- The combining keycap. -/
def isKeycap (ch : Char) : Bool := ch.toNat = 0x20E3

/-- VS-16. -/
def isVariation (ch : Char) : Bool := ch.toNat = 0xFE0F

/-- `_keycap_sequence_len` at the head of a text. -/
def keycapSequenceLen : Text → Nat
  | ch :: a :: rest =>
      if !isKeycapBase ch then 0
      else if isKeycap a then 2
      else if isVariation a && rest.head?.any isKeycap then 3
      else 0
  | _ => 0

/-- The loop of `_next_non_emoji_char`, when the given number of characters is still to be skipped. -/
def skipEmoji : Nat → Text → Text
  | _, [] => []
  | n + 1, _ :: rest => skipEmoji n rest
  | 0, ch :: rest =>
      match keycapSequenceLen (ch :: rest) with
      | k + 1 => skipEmoji k rest
      | 0 => if isEmojiChar ch then skipEmoji 0 rest else ch :: rest

/-- `_next_non_emoji_char`. -/
def nextNonEmojiChar (text : Text) : Option Char := (skipEmoji 0 text).head?

/-- The output with a separator, if one belongs there. -/
def separated (out : Text) (next : Option Char) : Text :=
  if separates out.getLast? next then out ++ [' '] else out

/-- The loops of `strip_emoji`: the outer one, and with `inRun` the inner one over a run of emoji. The
given number of characters is still to be skipped. -/
def stripEmojiLoop : Nat → Bool → Text → Text → Text
  | _, _, out, [] => out
  | n + 1, inRun, out, _ :: rest => stripEmojiLoop n inRun out rest
  | 0, inRun, out, ch :: rest =>
      match keycapSequenceLen (ch :: rest) with
      | k + 1 =>
          if inRun then stripEmojiLoop k true out rest
          else stripEmojiLoop k false (separated out (nextNonEmojiChar (rest.drop k))) rest
      | 0 =>
          if !isEmojiChar ch then stripEmojiLoop 0 false (out ++ [ch]) rest
          else if inRun then stripEmojiLoop 0 true out rest
          else stripEmojiLoop 0 true (separated out (nextNonEmojiChar rest)) rest

/-- `strip_emoji`. -/
def stripEmoji (text : Text) : Text := stripEmojiLoop 0 false [] text

/-! ## Whitespace -/

/-- One character under `_WHITESPACE_TO_STRIP`. -/
def translateChar (ch : Char) : Text :=
  if ch = '\n' ∨ ch = '\r' ∨ ch = '\u3000' then [] else if ch = '\t' then [' '] else [ch]

/-- `text.translate(_WHITESPACE_TO_STRIP)`. -/
def translate (text : Text) : Text := text.flatMap translateChar

/-- `text.replace("  ", " ")`. -/
def replaceDoubleSpace : Text → Text
  | [] => []
  | [c] => [c]
  | c :: d :: rest =>
      if c = ' ' ∧ d = ' ' then ' ' :: replaceDoubleSpace rest
      else c :: replaceDoubleSpace (d :: rest)

/-- The loop that replaces double spaces, for the given number of turns; each makes the text shorter. -/
def collapseSpaces : Nat → Text → Text
  | 0, text => text
  | turns + 1, text =>
      if contains text [' ', ' '] then collapseSpaces turns (replaceDoubleSpace text) else text

/-- `_normalize_tts_text`. -/
def normalizeTtsText (text : Text) : Text :=
  let stripped := stripEmoji (translate text)
  collapseSpaces stripped.length stripped

example : normalizeTtsText "a😀1\nb  1️⃣ c".toList = "a 1b c".toList := by decide +kernel

/-! ## What is silent -/

/-- A keycap sequence or an emoji stands at the head of the text. -/
def Silent (text : Text) : Prop := keycapSequenceLen text ≠ 0 ∨ text.head?.any isEmojiChar = true

instance (text : Text) : Decidable (Silent text) := inferInstanceAs (Decidable (_ ∨ _))

/-- The first character that is not silent. -/
def firstSpoken : Text → Option Char
  | [] => none
  | ch :: rest => if Silent (ch :: rest) then firstSpoken rest else some ch

/-- The text without what is silent, behind the character `last`. -/
def speak : Option Char → Text → Text
  | _, [] => []
  | last, ch :: rest =>
      if Silent (ch :: rest) then
        if separates last (firstSpoken rest) then ' ' :: speak (some ' ') rest else speak last rest
      else ch :: speak (some ch) rest

section
variable {ch : Char} {rest text out : Text}

theorem isEmojiChar_of_mark (h : isKeycap ch = true ∨ isVariation ch = true) :
    isEmojiChar ch = true := by
  simp only [isKeycap, isVariation, decide_eq_true_eq] at h
  rcases h with h | h <;> simp [isEmojiChar, h]

/-- A keycap sequence of the given length is at the head of the text. -/
inductive Keycap : Text → Nat → Prop
  | short {base mark : Char} {rest : Text} :
      isKeycapBase base = true → isKeycap mark = true → Keycap (base :: mark :: rest) 2
  | long {base variation mark : Char} {rest : Text} :
      isKeycapBase base = true → isVariation variation = true → isKeycap mark = true →
      Keycap (base :: variation :: mark :: rest) 3

theorem isKeycap_of_isVariation (h : isVariation ch = true) : isKeycap ch = false := by
  simp only [isVariation, decide_eq_true_eq] at h
  simp [isKeycap, h]

theorem Keycap.len {n : Nat} (h : Keycap text n) : keycapSequenceLen text = n := by
  cases h with
  | short hbase hmark => simp [keycapSequenceLen, hbase, hmark]
  | long hbase hvariation hmark =>
      simp [keycapSequenceLen, hbase, hvariation, hmark, isKeycap_of_isVariation hvariation]

theorem keycap_of_len (h : keycapSequenceLen text ≠ 0) : Keycap text (keycapSequenceLen text) := by
  unfold keycapSequenceLen at h ⊢
  split at h
  · next base a rest =>
    split at h
    · exact absurd rfl h
    · next hbase =>
      rw [Bool.not_eq_true', Bool.not_eq_false] at hbase
      rw [if_neg (by simp [hbase])]
      split at h
      · next hmark =>
        rw [if_pos hmark]
        exact .short hbase hmark
      · next hmark =>
        rw [if_neg hmark]
        split at h
        · next hmarks =>
          rw [if_pos hmarks]
          rw [Bool.and_eq_true] at hmarks
          cases rest with
          | nil => cases hmarks.2
          | cons b rest => exact .long hbase hmarks.1 hmarks.2
        · exact absurd rfl h
  · exact absurd rfl h

/-- The characters behind the base of a keycap sequence are emoji. -/
theorem keycap_marks {k : Nat} (h : keycapSequenceLen (ch :: rest) = k + 1) :
    ∀ c ∈ rest.take k, isEmojiChar c = true := by
  have hkeycap : Keycap (ch :: rest) (keycapSequenceLen (ch :: rest)) :=
    keycap_of_len (by rw [h]; exact Nat.succ_ne_zero k)
  rw [h] at hkeycap
  intro c hc
  cases hkeycap with
  | short _ hmark =>
      cases List.mem_singleton.1 hc
      exact isEmojiChar_of_mark (.inl hmark)
  | long _ hvariation hmark =>
      rcases List.mem_cons.1 hc with rfl | hc
      · exact isEmojiChar_of_mark (.inr hvariation)
      · cases List.mem_singleton.1 hc
        exact isEmojiChar_of_mark (.inl hmark)

theorem silent_of_emoji (h : isEmojiChar ch = true) : Silent (ch :: rest) := .inr h

/-- Emoji at the head of a text are passed over. -/
theorem firstSpoken_drop {n : Nat} (h : ∀ c ∈ text.take n, isEmojiChar c = true) :
    firstSpoken (text.drop n) = firstSpoken text := by
  induction n generalizing text with
  | zero => rfl
  | succ n ih =>
      cases text with
      | nil => rfl
      | cons c text =>
          rw [List.take_succ_cons] at h
          rw [List.drop_succ_cons, ih fun c' hc' => h c' (List.mem_cons_of_mem _ hc'), firstSpoken,
            if_pos (silent_of_emoji (h c List.mem_cons_self))]

/-- The loop of `_next_non_emoji_char` passes over what is silent. -/
theorem head_skipEmoji {n : Nat} (h : ∀ c ∈ text.take n, isEmojiChar c = true) :
    (skipEmoji n text).head? = firstSpoken text := by
  induction text generalizing n with
  | nil => cases n <;> rfl
  | cons ch rest ih =>
      cases n with
      | succ n =>
          rw [List.take_succ_cons] at h
          rw [skipEmoji, ih fun c hc => h c (List.mem_cons_of_mem _ hc), firstSpoken,
            if_pos (silent_of_emoji (h ch List.mem_cons_self))]
      | zero =>
          rw [skipEmoji, firstSpoken]
          split
          · next k hk =>
            have hsilent : Silent (ch :: rest) := .inl (by rw [hk]; exact Nat.succ_ne_zero k)
            rw [if_pos hsilent, ih (keycap_marks hk)]
          · next hk =>
            split
            · next hemoji =>
              rw [if_pos (silent_of_emoji hemoji)]
              exact ih fun c hc => absurd hc List.not_mem_nil
            · next hemoji =>
              rw [if_neg (by rintro (hne | hany); exacts [hne hk, hemoji hany])]
              rfl

theorem nextNonEmojiChar_eq (text : Text) : nextNonEmojiChar text = firstSpoken text :=
  head_skipEmoji fun _ hc => absurd hc List.not_mem_nil

/-- Where the character before is not separated from the next one, what is silent leaves no trace. -/
theorem speak_skip {last : Option Char} (hsilent : Silent (ch :: rest))
    (h : separates last (firstSpoken (ch :: rest)) = false) :
    speak last (ch :: rest) = speak last rest ∧ separates last (firstSpoken rest) = false := by
  rw [firstSpoken, if_pos hsilent] at h
  rw [speak, if_pos hsilent, h]
  exact ⟨rfl, rfl⟩

/-- A separator ends the matter of separating. -/
theorem separates_separated (out : Text) (next : Option Char) :
    separates (separated out next).getLast? next = false := by
  unfold separated
  split
  · rw [List.getLast?_concat]
    rfl
  · next h => simpa using h

/-- The output with its separator, before the rest. -/
theorem separated_speak (hsilent : Silent (ch :: rest)) :
    separated out (firstSpoken rest) ++ speak (separated out (firstSpoken rest)).getLast? rest
      = out ++ speak out.getLast? (ch :: rest) := by
  rw [speak, if_pos hsilent]
  unfold separated
  split
  · rw [List.getLast?_concat, List.append_assoc]
    rfl
  · rfl

/-- The loops of `strip_emoji`. Inside a run, and while a keycap sequence is skipped, the separator is
already there. -/
theorem stripEmojiLoop_eq {n : Nat} {inRun : Bool} (hskip : ∀ c ∈ text.take n, isEmojiChar c = true)
    (hrun : 0 < n ∨ inRun = true → separates out.getLast? (firstSpoken text) = false) :
    stripEmojiLoop n inRun out text = out ++ speak out.getLast? text := by
  induction text generalizing n inRun out with
  | nil => cases n <;> simp [stripEmojiLoop, speak]
  | cons ch rest ih =>
      cases n with
      | succ n =>
          rw [List.take_succ_cons] at hskip
          obtain ⟨hspeak, hsep⟩ := speak_skip (silent_of_emoji (hskip ch List.mem_cons_self))
            (hrun (.inl (Nat.succ_pos n)))
          rw [stripEmojiLoop, hspeak]
          exact ih (fun c hc => hskip c (List.mem_cons_of_mem _ hc)) fun _ => hsep
      | zero =>
          rw [stripEmojiLoop]
          split
          · next k hk =>
            have hsilent : Silent (ch :: rest) := .inl (by rw [hk]; exact Nat.succ_ne_zero k)
            have hmarks := keycap_marks hk
            split
            · next hin =>
              obtain ⟨hspeak, hsep⟩ := speak_skip hsilent (hrun (.inr hin))
              rw [hspeak]
              exact ih hmarks fun _ => hsep
            · rw [nextNonEmojiChar_eq, firstSpoken_drop hmarks, ← separated_speak hsilent]
              exact ih hmarks fun _ => separates_separated out _
          · next hk =>
            split
            · next hchar =>
              rw [Bool.not_eq_true'] at hchar
              have hloud : ¬ Silent (ch :: rest) := by
                rintro (hne | hemoji)
                · exact hne hk
                · exact absurd (hchar.symm.trans hemoji) (by decide)
              rw [speak, if_neg hloud, ih (fun _ hc => absurd hc List.not_mem_nil) (by simp),
                List.getLast?_concat, List.append_assoc]
              rfl
            · next hchar =>
              rw [Bool.not_eq_true', Bool.not_eq_false] at hchar
              have hsilent : Silent (ch :: rest) := silent_of_emoji hchar
              split
              · next hin =>
                obtain ⟨hspeak, hsep⟩ := speak_skip hsilent (hrun (.inr hin))
                rw [hspeak]
                exact ih (fun _ hc => absurd hc List.not_mem_nil) fun _ => hsep
              · rw [nextNonEmojiChar_eq, ← separated_speak hsilent]
                exact ih (fun _ hc => absurd hc List.not_mem_nil) fun _ => separates_separated out _

theorem stripEmoji_eq (text : Text) : stripEmoji text = speak none text := by
  unfold stripEmoji
  rw [stripEmojiLoop_eq (fun _ hc => absurd hc List.not_mem_nil) (by simp)]
  rfl

/-! ## Spaces -/

/-- The text without the spaces behind a space; `afterSpace` is whether a space is before it. -/
def squeeze : Bool → Text → Text
  | _, [] => []
  | afterSpace, c :: rest =>
      if c = ' ' ∧ afterSpace = true then squeeze true rest
      else c :: squeeze (decide (c = ' ')) rest

theorem squeeze_replaceDoubleSpace (afterSpace : Bool) (text : Text) :
    squeeze afterSpace (replaceDoubleSpace text) = squeeze afterSpace text := by
  induction text using replaceDoubleSpace.induct generalizing afterSpace with
  | case1 => rfl
  | case2 c => rfl
  | case3 c d rest h ih =>
      obtain ⟨rfl, rfl⟩ := h
      rw [replaceDoubleSpace, if_pos ⟨rfl, rfl⟩]
      cases afterSpace <;> simp [squeeze, ih]
  | case4 c d rest h ih =>
      rw [replaceDoubleSpace, if_neg h, squeeze, squeeze, ih, ih]

theorem contains_double_cons {c : Char} {text : Text} :
    contains (c :: text) [' ', ' '] = ((c = ' ' && text.head? = some ' ') || contains text [' ', ' ']) := by
  unfold contains
  rw [show (c :: text).tails = (c :: text) :: text.tails from rfl, List.any_cons]
  congr 1
  cases text with
  | nil => simp [List.isPrefixOf]
  | cons d text => simp [List.isPrefixOf, beq_eq_decide, eq_comm]

/-- Without a double space there is nothing to drop. -/
theorem squeeze_eq_self {text : Text} {afterSpace : Bool} (h : contains text [' ', ' '] = false)
    (hhead : afterSpace = true → text.head? ≠ some ' ') : squeeze afterSpace text = text := by
  induction text generalizing afterSpace with
  | nil => rfl
  | cons c text ih =>
      rw [contains_double_cons, Bool.or_eq_false_iff] at h
      rw [squeeze, if_neg (fun hc => hhead hc.2 (by rw [hc.1]; rfl)), ih h.2]
      intro hc hsome
      simp [of_decide_eq_true hc, hsome] at h

/-- A replacement makes the text shorter. -/
theorem length_replaceDoubleSpace {text : Text} :
    (replaceDoubleSpace text).length ≤ text.length ∧
      (contains text [' ', ' '] = true → (replaceDoubleSpace text).length < text.length) := by
  induction text using replaceDoubleSpace.induct with
  | case1 => exact ⟨Nat.le_refl _, by decide⟩
  | case2 c =>
      refine ⟨Nat.le_refl _, fun h => ?_⟩
      rw [contains_double_cons] at h
      simp [contains, List.isPrefixOf] at h
  | case3 c d rest h ih =>
      rw [replaceDoubleSpace, if_pos h]
      simp only [List.length_cons]
      omega
  | case4 c d rest h ih =>
      rw [replaceDoubleSpace, if_neg h]
      simp only [List.length_cons] at ih ⊢
      refine ⟨by omega, fun hc => ?_⟩
      rw [contains_double_cons, Bool.or_eq_true] at hc
      rcases hc with hc | hc
      · refine absurd ?_ h
        simpa using hc
      · have := ih.2 hc
        omega

theorem collapseSpaces_eq {turns : Nat} {text : Text} (h : text.length ≤ turns) :
    collapseSpaces turns text = squeeze false text := by
  induction turns generalizing text with
  | zero =>
      cases List.eq_nil_of_length_eq_zero (Nat.le_zero.1 h)
      rfl
  | succ turns ih =>
      rw [collapseSpaces]
      split
      · next hdouble =>
        have := length_replaceDoubleSpace.2 hdouble
        rw [ih (by omega), squeeze_replaceDoubleSpace]
      · next hdouble =>
        rw [Bool.not_eq_true] at hdouble
        exact (squeeze_eq_self hdouble (by simp)).symm

/-- `_normalize_tts_text` leaves out what is silent, then spaces behind a space. -/
theorem normalizeTtsText_eq (text : Text) :
    normalizeTtsText text = squeeze false (speak none (translate text)) := by
  unfold normalizeTtsText
  rw [stripEmoji_eq]
  exact collapseSpaces_eq (Nat.le_refl _)

end

end StreamingTts.Frontend
