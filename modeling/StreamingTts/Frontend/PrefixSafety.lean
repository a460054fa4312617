import Mathlib.Data.List.TakeWhile
import StreamingTts.Frontend.SpokenSeams
import StreamingTts.Frontend.TextJournal
import StreamingTts.Lib.Transition

/-!
# Appending to a journal

`append` refuses to take back what it has published. It holds back a suffix that may begin a keycap
sequence, so that the sequence is not spoken in part. The characters that `_WHITESPACE_TO_STRIP` deletes
are not seen by the hold: a sequence that is one only without them (`Broken`) is published in part and
then taken back. `append_safe_iff` says that this is the only way.
-/

namespace StreamingTts.Frontend

open Committer (isKeycapBase)
open Lib (bind_eq_ok)

/-! ## Broken sequences -/

/-- The text has a keycap sequence that deleted characters stand inside. -/
def Broken (raw : Text) : Prop :=
  ∃ front base middle mark behind, raw = front ++ base :: (middle ++ mark :: behind) ∧
    isKeycapBase base = true ∧ isKeycap mark = true ∧ Selector (translate middle) ∧ ¬ Selector middle

section
variable {base mark m : Char} {a b middle text : Text}

theorem translateChar_mark (h : isKeycap m = true ∨ isVariation m = true) :
    translateChar m = [m] ∧ m ≠ ' ' := by
  simp only [isKeycap, isVariation, decide_eq_true_eq] at h
  have hne : ∀ c : Char, c.toNat ≠ 0x20E3 → c.toNat ≠ 0xFE0F → m ≠ c := by
    rintro c h1 h2 rfl
    exact h.elim h1 h2
  unfold translateChar
  rw [if_neg, if_neg (hne _ (by decide) (by decide))]
  · exact ⟨rfl, hne _ (by decide) (by decide)⟩
  · rintro (rfl | rfl | rfl)
    · exact hne _ (by decide) (by decide) rfl
    · exact hne _ (by decide) (by decide) rfl
    · exact hne _ (by decide) (by decide) rfl

theorem translate_selector (h : Selector middle) : translate middle = middle := by
  rcases h with rfl | ⟨m, hm, rfl⟩
  · rfl
  · rw [translate_cons, (translateChar_mark (.inr hm)).1]
    rfl

/-- The first deleted character inside a sequence stands behind the base, or behind its selector. -/
theorem first_deleted (h : Selector (translate middle)) (hm : ¬ Selector middle) :
    ∃ w d behind, middle = w ++ d :: behind ∧ translateChar d = [] ∧ Selector w := by
  cases middle with
  | nil => exact absurd (.inl rfl) hm
  | cons a middle =>
      rw [translate_cons] at h
      rcases translateChar_cases a with ha | ha | ha
      · exact ⟨[], a, middle, rfl, ha, .inl rfl⟩
      · rw [ha] at h
        rcases h with h | ⟨m, hvariation, h⟩
        · cases h
        · obtain ⟨rfl, -⟩ := List.cons.inj h
          exact absurd hvariation (by decide)
      · rw [ha] at h
        rcases h with h | ⟨m, hvariation, h⟩
        · cases h
        · obtain ⟨rfl, hrest⟩ := List.cons.inj h
          cases middle with
          | nil => exact absurd (.inr ⟨a, hvariation, rfl⟩) hm
          | cons d behind =>
              refine ⟨[a], d, behind, rfl, ?_, .inr ⟨a, hvariation, rfl⟩⟩
              have hnil : translate (d :: behind) = [] := hrest
              rw [translate_cons] at hnil
              exact (List.append_eq_nil_iff.1 hnil).1

/-- A sequence across a cut of the translated text is one across the cut of the text, and broken unless
nothing is deleted from it. -/
theorem straddles_translate (h : Straddles (translate a) (translate b)) :
    ∃ front base v v' mark behind, a = front ++ base :: v ∧ b = v' ++ mark :: behind ∧
      isKeycapBase base = true ∧ isKeycap mark = true ∧ Selector (translate (v ++ v')) := by
  obtain ⟨front, base, v, v', mark, behind, ha, hb, hbase, hmark, hv⟩ := h
  have hspace : base ≠ ' ' := by
    rintro rfl
    exact absurd hbase (by decide)
  obtain ⟨x, y, rfl, rfl, hy⟩ := translate_eq_append ha
  obtain ⟨deleted, v, rfl, hdeleted, rfl⟩ := translate_eq_cons hspace hy
  obtain ⟨x', y', rfl, rfl, hy'⟩ := translate_eq_append hb
  obtain ⟨deleted', behind, rfl, hdeleted', rfl⟩ :=
    translate_eq_cons (translateChar_mark (.inl hmark)).2 hy'
  refine ⟨x ++ deleted, base, v, x' ++ deleted', mark, behind, by simp, by simp, hbase, hmark, ?_⟩
  rwa [translate_append, translate_append, hdeleted', List.append_nil]

end

/-! ## The hold -/

section
variable {raw p q : Text} {base m : Char}

/-- The text ends in what may be the beginning of a keycap sequence. -/
def Unfinished (raw front : Text) (base : Char) (v : Text) : Prop :=
  raw = front ++ base :: v ∧ isKeycapBase base = true ∧ Selector v

theorem splitPendingEmoji_of_unfinished {front v : Text} (h : Unfinished raw front base v) :
    splitPendingEmoji raw = (front, base :: v) := by
  obtain ⟨rfl, hbase, rfl | ⟨m, hm, rfl⟩⟩ := h
  · have hlen : incompleteEmojiSuffixLen (front ++ [base]) = 1 := by
      simp [incompleteEmojiSuffixLen, hbase]
    simp [splitPendingEmoji, hlen]
  · have hlen : incompleteEmojiSuffixLen (front ++ [base, m]) = 2 := by
      have hplain : isKeycapBase m = false := by
        refine Bool.eq_false_iff.2 fun hb => ?_
        exact absurd ((keycapBase_plain hb).2.2.1.symm.trans hm) (by decide)
      simp only [isVariation, decide_eq_true_eq] at hm
      simp [incompleteEmojiSuffixLen, hplain, hbase, hm]
    simp [splitPendingEmoji, hlen]

/-- Nothing else is held. -/
theorem splitPendingEmoji_cases (raw : Text) :
    (∃ front base v, Unfinished raw front base v) ∨ splitPendingEmoji raw = (raw, []) := by
  refine or_iff_not_imp_left.2 fun hnone => ?_
  have hlen : incompleteEmojiSuffixLen raw = 0 := by
    rcases List.eq_nil_or_concat raw with rfl | ⟨front, c, rfl⟩
    · rfl
    rw [List.concat_eq_append] at hnone ⊢
    have hc : isKeycapBase c = false :=
      Bool.eq_false_iff.2 fun hc => hnone ⟨front, c, [], rfl, hc, .inl rfl⟩
    have hheld : ¬ (c.toNat = 0xFE0F ∧ front.reverse.head?.any isKeycapBase = true) := by
      rintro ⟨hvariation, hany⟩
      rcases List.eq_nil_or_concat front with rfl | ⟨front, base, rfl⟩
      · cases hany
      · refine hnone ⟨front, base, [c], by simp, by simpa using hany, .inr ⟨c, ?_, rfl⟩⟩
        simpa [isVariation] using hvariation
    unfold incompleteEmojiSuffixLen
    rw [List.reverse_append, List.reverse_singleton, List.singleton_append]
    simp only [hc, if_neg hheld]
    rfl
  simp [splitPendingEmoji, hlen]

/-- The beginning of a selector is one. -/
theorem Selector.of_prefix {v w : Text} (hw : Selector w) (h : v <+: w) : Selector v := by
  rcases hw with rfl | ⟨m, hm, rfl⟩
  · exact .inl (List.prefix_nil.1 h)
  · rcases List.prefix_cons_iff.1 h with rfl | ⟨v', rfl, hv'⟩
    · exact .inl rfl
    · obtain rfl := List.prefix_nil.1 hv'
      exact .inr ⟨m, hm, rfl⟩

/-- What a longer text emits is not shorter. -/
theorem splitPendingEmoji_prefix (h : p <+: q) :
    (splitPendingEmoji p).1 <+: (splitPendingEmoji q).1 := by
  have hp := splitPendingEmoji_append p
  have hfirst : (splitPendingEmoji p).1 <+: q := .trans ⟨_, hp⟩ h
  rcases splitPendingEmoji_cases q with ⟨front, base, v, hq⟩ | hq
  · rw [splitPendingEmoji_of_unfinished hq]
    obtain ⟨rfl, hbase, hv⟩ := hq
    rcases List.prefix_or_prefix_of_prefix hfirst (List.prefix_append front _) with hle | ⟨w, hw⟩
    · exact hle
    rw [← hw, List.append_assoc] at hp
    cases w with
    | nil =>
        have hsame : (splitPendingEmoji p).1 = front := by rw [← hw, List.append_nil]
        exact hsame ▸ List.prefix_rfl
    | cons c w =>
        -- then the shorter text ends in the beginning of the same sequence
        rw [← hp, List.prefix_append_right_inj, List.cons_append, List.cons_prefix_cons] at h
        obtain ⟨rfl, hprefix⟩ := h
        have hunfinished : Unfinished p front c (w ++ (splitPendingEmoji p).2) :=
          ⟨hp.symm, hbase, hv.of_prefix hprefix⟩
        have hsame : (splitPendingEmoji p).1 = front := by
          rw [splitPendingEmoji_of_unfinished hunfinished]
        exact hsame ▸ List.prefix_rfl
  · rw [hq]
    exact hfirst

/-- Without a broken sequence none is cut by the hold. -/
theorem not_straddles_hold (h : ¬ Broken raw) {behind : Text}
    (hraw : raw = (splitPendingEmoji p).1 ++ behind) (hheld : (splitPendingEmoji p).2 <+: behind) :
    ¬ Straddles (translate (splitPendingEmoji p).1) (translate behind) := by
  intro hs
  obtain ⟨front, base, v, v', mark, rest, hfront, hbehind, hbase, hmark, hv⟩ :=
    straddles_translate hs
  have hplain : Selector (v ++ v') := by
    refine not_not.1 fun hbroken => h ⟨front, base, v ++ v', mark, rest, ?_, hbase, hmark, hv, hbroken⟩
    rw [hraw, hfront, hbehind]
    simp
  have hend : Unfinished (splitPendingEmoji p).1 front base v :=
    ⟨hfront, hbase, hplain.of_prefix (List.prefix_append _ _)⟩
  rcases splitPendingEmoji_cases p with ⟨front', base', w, hp⟩ | hp
  · -- what is held begins with a base, and the rest of the sequence does not
    rw [splitPendingEmoji_of_unfinished hp, hbehind] at hheld
    obtain ⟨-, hkeycap, hvariation, -⟩ := keycapBase_plain hp.2.1
    cases v' with
    | nil =>
        obtain ⟨rfl, -⟩ := List.cons_prefix_cons.1 hheld
        exact absurd (hmark.symm.trans hkeycap) (by decide)
    | cons m v' =>
        obtain ⟨rfl, -⟩ := List.cons_prefix_cons.1 hheld
        have hm : isVariation base' = true := hplain.isVariation (by simp)
        exact absurd (hm.symm.trans hvariation) (by decide)
  · rw [hp] at hend
    have := splitPendingEmoji_of_unfinished hend
    rw [hp] at this
    cases this

end

/-! ## What a journal publishes -/

namespace CanonicalTextJournal

/-- The whitespace that begins the raw text, in a journal that strips it. -/
def leadingCount (strip : Bool) (raw : Text) : Nat :=
  if strip then (raw.takeWhile isSpaceChar).length else 0

/-- A spoken text, without the whitespace that begins it if the journal strips it. -/
def trimLeading (strip : Bool) (text : Text) : Text := if strip then lstrip text else text

/-- What a journal has published when it was given the raw text. -/
def published (strip : Bool) (raw : Text) : Text :=
  ({ new normalizeTtsText strip with rawText := raw }.project (splitPendingEmoji raw).1 false).1

variable {strip : Bool} {raw p q : Text} {j : CanonicalTextJournal}

theorem leading_eq (j : CanonicalTextJournal) (text : Text) :
    j.leading text = leadingCount j.stripLeadingWhitespace text := by
  have := length_dropWhile isSpaceChar text
  unfold leading leadingCount lstrip
  split
  · omega
  · rfl

theorem drop_leading (text : Text) :
    text.drop (leadingCount strip text) = trimLeading strip text := by
  unfold leadingCount trimLeading
  split
  · calc text.drop (text.takeWhile isSpaceChar).length
        = (text.takeWhile isSpaceChar ++ lstrip text).drop (text.takeWhile isSpaceChar).length := by
          rw [lstrip, List.takeWhile_append_dropWhile]
      _ = lstrip text := List.drop_left
  · rfl

theorem published_eq (strip : Bool) (raw : Text) : published strip raw = trimLeading strip
    (normalizeTtsText ((splitPendingEmoji raw).1.drop (leadingCount strip raw))) := by
  unfold published project
  simp only [leading_eq]
  exact drop_leading _

/-- The whitespace that begins a text is not more in a longer one, unless the text is nothing else. -/
theorem leadingCount_append (h : ∃ c ∈ p, isSpaceChar c = false) (q : Text) :
    leadingCount strip (p ++ q) = leadingCount strip p := by
  unfold leadingCount
  split
  · rw [List.takeWhile_append, if_neg]
    obtain ⟨c, hc, hspace⟩ := h
    intro hlen
    have hall := List.takeWhile_eq_self_iff.1 (List.IsPrefix.eq_of_length
      (List.takeWhile_prefix _) hlen)
    exact absurd ((hall c hc).symm.trans hspace) (by decide)
  · rfl

theorem trimLeading_prefix (h : p <+: q) : trimLeading strip p <+: trimLeading strip q := by
  unfold trimLeading
  split
  · exact lstrip_prefix h
  · exact h

theorem count_trimLeading {c : Char} (hc : isSpaceChar c = false) (text : Text) :
    (trimLeading strip text).count c = text.count c := by
  unfold trimLeading
  split
  · exact count_lstrip hc text
  · rfl

/-- A text cut where nothing straddles is normalized first. -/
theorem normalizeTtsText_prefix (h : ¬ Straddles (translate p) (translate q)) :
    normalizeTtsText p <+: normalizeTtsText (p ++ q) := by
  rw [normalizeTtsText_eq, normalizeTtsText_eq, translate_append, speak_append h]
  refine squeeze_prefix ?_
  rcases speakBefore_eq (firstSpoken (translate q)) none (translate p) with heq | heq <;> rw [heq]
  · exact List.prefix_append _ _
  · rw [List.append_assoc]
    exact List.prefix_append _ _

/-- A raw text of whitespace publishes nothing if the journal strips it. -/
theorem published_blank (h : ∀ c ∈ raw, isSpaceChar c = true) : published true raw = [] := by
  rw [published_eq]
  have hlen : leadingCount true raw = raw.length := by
    unfold leadingCount
    rw [if_pos rfl, List.takeWhile_eq_self_iff.2 h]
  have hle := (show (splitPendingEmoji raw).1 <+: raw from ⟨_, splitPendingEmoji_append raw⟩).length_le
  rw [hlen, List.drop_eq_nil_of_le hle]
  rfl

/-- **What is published grows**, unless a sequence is broken. -/
theorem published_prefix (h : ¬ Broken raw) (hpq : p <+: q) (hq : q <+: raw) :
    published strip p <+: published strip q := by
  by_cases hspeaks : strip = false ∨ ∃ c ∈ p, isSpaceChar c = false
  · -- both are cut at the same place
    obtain ⟨r, rfl⟩ := hpq
    have hleading : leadingCount strip (p ++ r) = leadingCount strip p := by
      rcases hspeaks with rfl | hspeaks
      · rfl
      · exact leadingCount_append hspeaks r
    obtain ⟨behind, hbehind⟩ := splitPendingEmoji_prefix (List.prefix_append p r)
    rw [published_eq, published_eq, hleading, ← hbehind, List.drop_append]
    refine trimLeading_prefix ( normalizeTtsText_prefix ?_)
    rcases Nat.lt_or_ge (splitPendingEmoji p).1.length (leadingCount strip p) with hlt | hle
    · rw [List.drop_eq_nil_of_le (Nat.le_of_lt hlt)]
      exact not_straddles_nil _
    rw [Nat.sub_eq_zero_of_le hle, List.drop_zero]
    intro hs
    obtain ⟨t, rfl⟩ := hq
    have hp := splitPendingEmoji_append p
    have hraw : p ++ r ++ t = (splitPendingEmoji p).1 ++ ((splitPendingEmoji p).2 ++ r ++ t) := by
      conv_lhs => rw [← hp]
      simp only [List.append_assoc]
    have hrest : behind <+: (splitPendingEmoji p).2 ++ r ++ t := by
      rw [← List.prefix_append_right_inj (splitPendingEmoji p).1, hbehind, ← hraw]
      exact .trans ⟨_, splitPendingEmoji_append (p ++ r)⟩ (List.prefix_append _ _)
    refine not_straddles_hold h hraw ((List.prefix_append _ _).trans (List.prefix_append _ _)) ?_
    obtain ⟨more, hmore⟩ := hrest
    rw [← hmore, translate_append]
    refine Straddles.append_right ?_ _
    obtain ⟨front, hfront⟩ := List.drop_suffix (leadingCount strip p) (splitPendingEmoji p).1
    rw [← hfront, translate_append]
    exact hs.append_left _
  · obtain ⟨hstrip, hblank⟩ := not_or.1 hspeaks
    rw [Bool.not_eq_false] at hstrip
    rw [hstrip, published_blank fun c hc => ?_]
    · exact List.nil_prefix
    · exact Bool.of_not_eq_false fun hspace => hblank ⟨c, hc, hspace⟩

/-- Nothing is held of a text that ends in another character. -/
theorem splitPendingEmoji_concat (text : Text) {c : Char} (hbase : isKeycapBase c = false)
    (hvariation : isVariation c = false) :
    splitPendingEmoji (text ++ [c]) = (text ++ [c], []) := by
  rcases splitPendingEmoji_cases (text ++ [c]) with ⟨front, base, v, heq, hb, rfl | ⟨m, hm, rfl⟩⟩ | h
  · obtain ⟨-, hlast⟩ := List.append_inj' heq rfl
    rw [List.singleton_inj.1 hlast] at hbase
    exact absurd (hb.symm.trans hbase) (by decide)
  · have hsplit : text ++ [c] = (front ++ [base]) ++ [m] := by simpa using heq
    obtain ⟨-, hlast⟩ := List.append_inj' hsplit rfl
    rw [List.singleton_inj.1 hlast] at hvariation
    exact absurd (hm.symm.trans hvariation) (by decide)
  · exact h

section
variable {front v w rest : Text} {base mark : Char} {last : Option Char}

/-- A sequence is silent throughout. -/
theorem firstSpoken_sequence (hbase : isKeycapBase base = true) (hmark : isKeycap mark = true)
    (hv : Selector v) : firstSpoken (base :: (v ++ [mark])) = none := by
  have hsilent : Silent (base :: (v ++ [mark])) :=
    .inl (keycapSequenceLen_ne_zero.2 ⟨base, v, mark, [], rfl, hbase, hmark, hv⟩)
  have hlast : firstSpoken [mark] = none := by
    rw [firstSpoken, if_pos (silent_of_emoji (isEmojiChar_of_mark (.inl hmark)))]
    rfl
  rw [firstSpoken, if_pos hsilent]
  rcases hv with rfl | ⟨m, hm, rfl⟩
  · exact hlast
  · rw [List.singleton_append, firstSpoken,
      if_pos (silent_of_emoji (isEmojiChar_of_mark (.inr hm)))]
    exact hlast

/-- Nothing straddles a cut before a base. -/
theorem not_straddles_base (hbase : isKeycapBase base = true) : ¬ Straddles front (base :: rest) := by
  obtain ⟨-, hkeycap, hvariation, -⟩ := keycapBase_plain hbase
  rintro ⟨_, _, v, v', mark, behind, -, hb, -, hmark, hv⟩
  cases v' with
  | nil =>
      obtain ⟨rfl, -⟩ := List.cons.inj hb
      exact absurd (hmark.symm.trans hkeycap) (by decide)
  | cons m v' =>
      obtain ⟨rfl, -⟩ := List.cons.inj hb
      have hm : isVariation base = true := hv.isVariation (by simp)
      exact absurd (hm.symm.trans hvariation) (by decide)

/-- The base is spoken as long as the mark is not there. -/
theorem count_unfinished (front : Text) {d : Char} (hbase : isKeycapBase base = true)
    (hw : Selector w) (hd : translateChar d = []) :
    (speak none (translate front)).count base + 1
      ≤ (normalizeTtsText (front ++ base :: (w ++ [d]))).count base := by
  obtain ⟨-, -, -, hspace, htranslate⟩ := keycapBase_plain hbase
  have hne : base ≠ ' ' := by
    rintro rfl
    exact absurd hspace (by decide)
  have htext : translate (front ++ base :: (w ++ [d])) = translate front ++ base :: w := by
    rw [translate_append, translate_cons, htranslate, translate_append, translate_cons, hd,
      translate_selector hw]
    simp [translate]
  rw [normalizeTtsText_eq, htext, speak_append (not_straddles_base hbase), count_squeeze hne,
    speak, if_neg (not_silent_unfinished hbase hw), List.count_append, List.count_cons_self]
  rcases speakBefore_eq (firstSpoken (base :: w)) none (translate front) with heq | heq <;> rw [heq]
  · omega
  · rw [List.count_append]
    omega

/-- With the mark it is not. -/
theorem count_sequence (front : Text) {middle : Text} (hbase : isKeycapBase base = true)
    (hmark : isKeycap mark = true) (hmiddle : Selector (translate middle)) :
    (normalizeTtsText (front ++ base :: (middle ++ [mark]))).count base
      = (speak none (translate front)).count base := by
  obtain ⟨-, -, -, hspace, htranslate⟩ := keycapBase_plain hbase
  have hne : base ≠ ' ' := by
    rintro rfl
    exact absurd hspace (by decide)
  have htext : translate (front ++ base :: (middle ++ [mark]))
      = translate front ++ base :: (translate middle ++ [mark]) := by
    rw [translate_append, translate_cons, htranslate, translate_append, translate_cons,
      (translateChar_mark (.inl hmark)).1]
    rfl
  have hsilent := firstSpoken_sequence hbase hmark hmiddle
  rw [normalizeTtsText_eq, htext, speak_append (not_straddles_base hbase), count_squeeze hne,
    speak_silent hsilent, hsilent, List.append_nil, ← speak_eq_speakBefore]

end

/-- A broken sequence is published up to its first deleted character, and taken back at its mark. -/
theorem published_broken (strip : Bool) (h : Broken raw) :
    ∃ p q, p <+: q ∧ q <+: raw ∧ ¬ published strip p <+: published strip q := by
  obtain ⟨front, base, middle, mark, behind, rfl, hbase, hmark, hmiddle, hbroken⟩ := h
  obtain ⟨w, d, rest, rfl, hd, hw⟩ := first_deleted hmiddle hbroken
  obtain ⟨-, -, -, hspace, htranslate⟩ := keycapBase_plain hbase
  refine ⟨front ++ base :: (w ++ [d]), front ++ base :: (w ++ d :: rest ++ [mark]), ?_, ?_, ?_⟩
  · exact ⟨rest ++ [mark], by simp⟩
  · exact ⟨behind, by simp⟩
  have hdbase : isKeycapBase d = false := by
    refine Bool.eq_false_iff.2 fun hb => ?_
    rw [(keycapBase_plain hb).2.2.2.2] at hd
    cases hd
  have hdvariation : isVariation d = false := by
    refine Bool.eq_false_iff.2 fun hm => ?_
    rw [(translateChar_mark (.inr hm)).1] at hd
    cases hd
  have hmbase : isKeycapBase mark = false :=
    Bool.eq_false_iff.2 fun hb => absurd (hmark.symm.trans (keycapBase_plain hb).2.1) (by decide)
  have hmvariation : isVariation mark = false :=
    Bool.eq_false_iff.2 fun hm => absurd (hmark.symm.trans (isKeycap_of_isVariation hm)) (by decide)
  -- both are cut before the base
  have hcut : ∀ tail : Text, leadingCount strip (front ++ base :: tail)
      = leadingCount strip (front ++ [base]) := by
    intro tail
    rw [← leadingCount_append (p := front ++ [base]) ⟨base, by simp, hspace⟩ tail,
      List.append_assoc, List.singleton_append]
  have hle : leadingCount strip (front ++ [base]) ≤ front.length := by
    unfold leadingCount
    split
    · exact length_takeWhile_le (by simp) hspace
    · exact Nat.zero_le _
  have hdrop : ∀ tail : Text, (front ++ base :: tail).drop (leadingCount strip (front ++ [base]))
      = front.drop (leadingCount strip (front ++ [base])) ++ base :: tail :=
    fun tail => List.drop_append_of_le_length hle
  have hp : splitPendingEmoji (front ++ base :: (w ++ [d])) = (front ++ base :: (w ++ [d]), []) := by
    simpa using splitPendingEmoji_concat (front ++ base :: w) hdbase hdvariation
  have hq : splitPendingEmoji (front ++ base :: (w ++ d :: rest ++ [mark]))
      = (front ++ base :: (w ++ d :: rest ++ [mark]), []) := by
    simpa using splitPendingEmoji_concat (front ++ base :: (w ++ d :: rest)) hmbase hmvariation
  intro hprefix
  have hcount := hprefix.sublist.count_le base
  rw [published_eq, published_eq, hp, hq, hcut (w ++ [d]), hcut (w ++ d :: rest ++ [mark]),
    count_trimLeading hspace, count_trimLeading hspace, hdrop, hdrop] at hcount
  have hfirst := count_unfinished (front.drop (leadingCount strip (front ++ [base]))) hbase hw hd
  have hsecond := count_sequence (front.drop (leadingCount strip (front ++ [base]))) hbase hmark hmiddle
  omega

/-! ## Packets -/

/-- The packets are appended one behind the other. -/
def appendAll (j : CanonicalTextJournal) (packets : List Text) : Except String CanonicalTextJournal :=
  List.foldlM append j packets

/-- The journal was given the raw text, and nothing else. -/
structure Given (strip : Bool) (raw : Text) (j : CanonicalTextJournal) : Prop where
  normalize : j.normalize = normalizeTtsText
  strips : j.stripLeadingWhitespace = strip
  rawText : j.rawText = raw
  normalized : j.normalizedText = published strip raw
  open_ : j.inputFinal = false

theorem given_new (strip : Bool) : Given strip [] (new normalizeTtsText strip) :=
  ⟨rfl, rfl, rfl, by cases strip <;> rfl, rfl⟩

/-- A packet is taken if what has been published stays. -/
theorem append_given (h : Given strip p j) (delta : Text) :
    (published strip p <+: published strip (p ++ delta) →
        ∃ j', j.append delta = .ok j' ∧ Given strip (p ++ delta) j') ∧
      (¬ published strip p <+: published strip (p ++ delta) →
        j.append delta = .error "canonical text normalization rewrote committed text") := by
  obtain ⟨hnormalize, hstrips, hraw, hnormalized, hopen⟩ := h
  have hproject : ({ j with rawText := j.rawText ++ delta }.project
      { j with rawText := j.rawText ++ delta }.committedRaw j.inputFinal).1
        = published strip (p ++ delta) := by
    unfold published project committedRaw leading new
    simp only [hnormalize, hstrips, hraw, hopen]
    rfl
  unfold append
  simp only
  rw [hproject, hnormalized]
  refine ⟨fun hprefix => ?_, fun hprefix => ?_⟩
  · rw [if_neg (not_not.2 hprefix)]
    refine ⟨_, rfl, hnormalize, hstrips, ?_, rfl, hopen⟩
    show j.rawText ++ delta = _
    rw [hraw]
  · rw [if_pos hprefix]

/-- Without a broken sequence every packet is taken. -/
theorem appendAll_ok (h : ¬ Broken raw) {packets : List Text} (hj : Given strip p j)
    (hraw : p ++ packets.flatten = raw) : ∃ j', appendAll j packets = .ok j' := by
  induction packets generalizing p j with
  | nil => exact ⟨j, rfl⟩
  | cons delta packets ih =>
      rw [List.flatten_cons, ← List.append_assoc] at hraw
      have hprefix : published strip p <+: published strip (p ++ delta) :=
        published_prefix h (List.prefix_append _ _) ⟨packets.flatten, hraw⟩
      obtain ⟨j', hok, hj'⟩ := (append_given hj delta).1 hprefix
      obtain ⟨j'', hall⟩ := ih hj' hraw
      exact ⟨j'', bind_eq_ok.2 ⟨j', hok, hall⟩⟩

/-- A cut at which what has been published is taken back. -/
theorem appendAll_error {rest : Text} (h : ¬ published strip p <+: published strip (p ++ q)) :
    ¬ ∃ j, appendAll (new normalizeTtsText strip) [p, q, rest] = .ok j := by
  rintro ⟨j, hall⟩
  have hnil : published strip [] <+: published strip ([] ++ p) := by
    cases strip <;> exact List.nil_prefix
  obtain ⟨j₁, hok₁, hj₁⟩ := (append_given (given_new strip) p).1 hnil
  obtain ⟨j₁', hok₁', hall⟩ := bind_eq_ok.1 hall
  obtain rfl := Except.ok.inj (hok₁.symm.trans hok₁')
  obtain ⟨j₂, hok₂, -⟩ := bind_eq_ok.1 hall
  rw [(append_given hj₁ q).2 h] at hok₂
  cases hok₂

/-- **A journal never takes back what it has published**, for the raw texts without a broken sequence
and for no others: its packets are all taken, however the text is cut, and what is published of a prefix
is a prefix of what is published of every longer one. -/
theorem append_safe_iff (strip : Bool) (raw : Text) :
    ((∀ packets : List Text, packets.flatten = raw →
        ∃ j, appendAll (new normalizeTtsText strip) packets = .ok j) ↔ ¬ Broken raw) ∧
      ((∀ p q, p <+: q → q <+: raw → published strip p <+: published strip q) ↔ ¬ Broken raw) := by
  refine ⟨⟨fun hall hbroken => ?_, fun h packets hraw => appendAll_ok h (given_new strip) hraw⟩,
    ⟨fun hall hbroken => ?_, fun h p q hpq hq => published_prefix h hpq hq⟩⟩
  · obtain ⟨p, q, ⟨r, rfl⟩, ⟨rest, rfl⟩, hnot⟩ := published_broken strip hbroken
    exact appendAll_error hnot (hall [p, r, rest] (by simp))
  · obtain ⟨p, q, hpq, hq, hnot⟩ := published_broken strip hbroken
    exact hnot (hall p q hpq hq)

/-- A digit, a line break, and the mark in the next packet. -/
theorem line_break_keycap_rewrites :
    appendAll (new normalizeTtsText false) ["1\n".toList, "\u20E3".toList]
        = .error "canonical text normalization rewrote committed text" ∧
      published false "1\n".toList = "1".toList ∧ published false "1\n\u20E3".toList = [] :=
  ⟨rfl, by decide +kernel, by decide +kernel⟩

end CanonicalTextJournal

end StreamingTts.Frontend
