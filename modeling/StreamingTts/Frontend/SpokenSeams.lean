import StreamingTts.Frontend.TtsText

/-!
# The spoken text of two texts behind each other

What `_normalize_tts_text` makes of a text cut in two. Unless a keycap sequence has its base before the
cut and its mark behind it (`Straddles`), the first part is spoken as by itself, up to the separator that
the character behind the cut may ask for (`speak_append`); the second part is spoken behind the last
character of the first. Spaces are squeezed across the cut (`squeeze_append`).
-/

namespace StreamingTts.Frontend

open Committer (isKeycapBase)

/-! ## Keycap sequences -/

/-- What stands between the base of a keycap sequence and its mark. -/
def Selector (middle : Text) : Prop := middle = [] ∨ ∃ m, isVariation m = true ∧ middle = [m]

theorem Selector.isVariation {middle : Text} (h : Selector middle) {ch : Char} (hch : ch ∈ middle) :
    isVariation ch = true := by
  rcases h with rfl | ⟨m, hm, rfl⟩
  · cases hch
  · rwa [List.mem_singleton.1 hch]

/-- A keycap sequence has its base in the first text and its mark in the second. -/
def Straddles (a b : Text) : Prop :=
  ∃ front base v v' mark behind, a = front ++ base :: v ∧ b = v' ++ mark :: behind ∧
    isKeycapBase base = true ∧ isKeycap mark = true ∧ Selector (v ++ v')

section
variable {a b text rest : Text} {ch base mark : Char} {last next : Option Char}

theorem isKeycapBase_iff : isKeycapBase base = true ↔ base ∈ "0123456789#*".toList := by
  unfold isKeycapBase oneOf
  exact List.contains_iff_mem

/-- A base is an ordinary character of its own. -/
theorem keycapBase_plain (h : isKeycapBase base = true) : isEmojiChar base = false ∧
    isKeycap base = false ∧ isVariation base = false ∧ isSpaceChar base = false ∧
    translateChar base = [base] := by
  have hlist : "0123456789#*".toList
      = ['0', '1', '2', '3', '4', '5', '6', '7', '8', '9', '#', '*'] := rfl
  have hmem := isKeycapBase_iff.1 h
  rw [hlist] at hmem
  simp only [List.mem_cons, List.not_mem_nil, or_false] at hmem
  rcases hmem with rfl | rfl | rfl | rfl | rfl | rfl | rfl | rfl | rfl | rfl | rfl | rfl <;>
    exact ⟨by decide +kernel, by decide +kernel, by decide +kernel, by decide +kernel,
      by decide +kernel⟩

/-- A keycap sequence is a base, at most a selector, and the mark. -/
theorem keycapSequenceLen_ne_zero : keycapSequenceLen text ≠ 0 ↔
    ∃ base v mark behind, text = base :: (v ++ mark :: behind) ∧ isKeycapBase base = true ∧
      isKeycap mark = true ∧ Selector v := by
  refine ⟨fun h => ?_, ?_⟩
  · obtain ⟨n, hkeycap⟩ : ∃ n, Keycap text n := ⟨_, keycap_of_len h⟩
    cases hkeycap with
    | short hbase hmark => exact ⟨_, [], _, _, rfl, hbase, hmark, .inl rfl⟩
    | long hbase hvariation hmark =>
        exact ⟨_, [_], _, _, rfl, hbase, hmark, .inr ⟨_, hvariation, rfl⟩⟩
  · rintro ⟨base, v, mark, behind, rfl, hbase, hmark, rfl | ⟨m, hm, rfl⟩⟩
    · rw [List.nil_append, (Keycap.short hbase hmark).len]
      decide
    · rw [List.singleton_append, (Keycap.long hbase hm hmark).len]
      decide

/-- A base is not silent before the mark is there. -/
theorem not_silent_unfinished (hbase : isKeycapBase base = true) {w : Text} (hw : Selector w) :
    ¬ Silent (base :: w) := by
  obtain ⟨hemoji, -⟩ := keycapBase_plain hbase
  rintro (hkeycap | hhead)
  · obtain ⟨base', v, mark, behind, heq, -, hmark, -⟩ := keycapSequenceLen_ne_zero.1 hkeycap
    obtain ⟨rfl, rfl⟩ := List.cons.inj heq
    have hvariation : isVariation mark = true := hw.isVariation (by simp)
    exact absurd (hmark.symm.trans (isKeycap_of_isVariation hvariation)) (by decide)
  · exact absurd (hhead.symm.trans hemoji) (by decide)

theorem Straddles.append_left (h : Straddles a b) (front : Text) : Straddles (front ++ a) b := by
  obtain ⟨front', base, v, v', mark, behind, rfl, hb, hrest⟩ := h
  exact ⟨front ++ front', base, v, v', mark, behind, (List.append_assoc _ _ _).symm, hb, hrest⟩

theorem Straddles.append_right (h : Straddles a b) (more : Text) : Straddles a (b ++ more) := by
  obtain ⟨front, base, v, v', mark, behind, ha, rfl, hrest⟩ := h
  exact ⟨front, base, v, v', mark, behind ++ more, ha, by simp, hrest⟩

theorem not_straddles_nil (b : Text) : ¬ Straddles [] b := by
  rintro ⟨front, base, v, v', mark, behind, ha, -⟩
  simp at ha

/-- Without a keycap sequence across the cut, what is behind it does not matter to what is silent. -/
theorem silent_append (hne : a ≠ []) (h : ¬ Straddles a b) : Silent (a ++ b) ↔ Silent a := by
  have hhead : (a ++ b).head? = a.head? := List.head?_append_of_ne_nil _ hne
  unfold Silent
  rw [hhead, keycapSequenceLen_ne_zero, keycapSequenceLen_ne_zero]
  refine or_congr_left ⟨?_, ?_⟩
  · rintro ⟨base, v, mark, behind, heq, hbase, hmark, hv⟩
    obtain ⟨ch, rest, rfl⟩ := List.exists_cons_of_ne_nil hne
    rw [List.cons_append, List.cons.injEq] at heq
    obtain ⟨rfl, heq⟩ := heq
    rcases List.append_eq_append_iff.1 heq with ⟨v', rfl, hb⟩ | ⟨rest', rfl, hb⟩
    · exact absurd ⟨[], ch, rest, v', mark, behind, rfl, hb, hbase, hmark, hv⟩ h
    · cases rest' with
      | nil =>
          refine absurd ⟨[], ch, v ++ [], [], mark, behind, rfl, hb.symm, hbase, hmark, ?_⟩ h
          rwa [List.append_nil, List.append_nil]
      | cons m rest' =>
          rw [List.cons_append, List.cons.injEq] at hb
          obtain ⟨rfl, -⟩ := hb
          exact ⟨ch, v, mark, rest', rfl, hbase, hmark, hv⟩
  · rintro ⟨base, v, mark, behind, rfl, hbase, hmark, hv⟩
    exact ⟨base, v, mark, behind ++ b, by simp, hbase, hmark, hv⟩

/-- What is spoken first of two texts. -/
theorem firstSpoken_append (h : ¬ Straddles a b) :
    firstSpoken (a ++ b) = (firstSpoken a).or (firstSpoken b) := by
  induction a with
  | nil => rfl
  | cons ch rest ih =>
      have hrest : ¬ Straddles rest b := fun hs => h (hs.append_left [ch])
      have hsilent := silent_append (List.cons_ne_nil ch rest) h
      rw [List.cons_append] at hsilent ⊢
      rw [firstSpoken, firstSpoken]
      by_cases hs : Silent (ch :: rest)
      · rw [if_pos hs, if_pos (hsilent.2 hs), ih hrest]
      · rw [if_neg hs, if_neg (mt hsilent.1 hs)]
        rfl

/-! ## The first part -/

/-- `speak` of a text that the character `next` is spoken behind. -/
def speakBefore (next : Option Char) : Option Char → Text → Text
  | _, [] => []
  | last, ch :: rest =>
      if Silent (ch :: rest) then
        if separates last ((firstSpoken rest).or next) then ' ' :: speakBefore next (some ' ') rest
        else speakBefore next last rest
      else ch :: speakBefore next (some ch) rest

/-- The last character of a text that stands behind `last`. -/
def lastOr (last : Option Char) (text : Text) : Option Char := text.getLast?.or last

@[simp] theorem lastOr_nil : lastOr last [] = last := rfl

theorem lastOr_cons : lastOr last (ch :: rest) = lastOr (some ch) rest := by
  unfold lastOr
  rw [List.getLast?_cons]
  cases rest.getLast? <;> rfl

/-- Two texts are spoken one behind the other. -/
theorem speak_append (h : ¬ Straddles a b) :
    speak last (a ++ b) = speakBefore (firstSpoken b) last a
      ++ speak (lastOr last (speakBefore (firstSpoken b) last a)) b := by
  induction a generalizing last with
  | nil => rfl
  | cons ch rest ih =>
      have hrest : ¬ Straddles rest b := fun hs => h (hs.append_left [ch])
      have hsilent := silent_append (List.cons_ne_nil ch rest) h
      rw [List.cons_append] at hsilent ⊢
      rw [speak, speakBefore, firstSpoken_append hrest]
      by_cases hs : Silent (ch :: rest)
      · rw [if_pos hs, if_pos (hsilent.2 hs)]
        split
        · rw [lastOr_cons, List.cons_append, ih hrest]
        · exact ih hrest
      · rw [if_neg hs, if_neg (mt hsilent.1 hs), lastOr_cons, List.cons_append, ih hrest]

theorem speak_eq_speakBefore (text : Text) : speak last text = speakBefore none last text := by
  induction text generalizing last with
  | nil => rfl
  | cons ch rest ih => rw [speak, speakBefore, Option.or_none, ih, ih, ih]

/-- A text of which nothing is spoken first is silent throughout. -/
theorem speakBefore_silent (h : firstSpoken text = none) (hsep : separates last next = false) :
    speakBefore next last text = [] := by
  induction text with
  | nil => rfl
  | cons ch rest ih =>
      rw [firstSpoken] at h
      split at h
      · next hs =>
        rw [speakBefore, if_pos hs, h, Option.none_or, hsep]
        exact ih h
      · cases h

theorem speak_silent (h : firstSpoken text = none) : speak last text = [] := by
  rw [speak_eq_speakBefore]
  refine speakBefore_silent h ?_
  unfold separates
  rw [Option.any_none, Bool.and_false]

/-- A character behind a text adds a separator to what is spoken of it, or nothing. -/
theorem speakBefore_eq (next last : Option Char) (text : Text) :
    speakBefore next last text = speak last text ∨
      speakBefore next last text = speak last text ++ [' '] := by
  induction text generalizing last with
  | nil => exact .inl rfl
  | cons ch rest ih =>
      rw [speak, speakBefore]
      split
      · cases hfirst : firstSpoken rest with
        | none =>
            rw [speak_silent hfirst, speak_silent hfirst, Option.none_or]
            have hnone : separates last none = false := by
              unfold separates
              rw [Option.any_none, Bool.and_false]
            rw [hnone]
            split
            · rw [speakBefore_silent hfirst rfl]
              exact .inr rfl
            · next hsep =>
              rw [Bool.not_eq_true] at hsep
              rw [speakBefore_silent hfirst hsep]
              exact .inl rfl
        | some c =>
            rw [Option.some_or]
            split
            · rcases ih (some ' ') with h | h <;> rw [h]
              · exact .inl rfl
              · exact .inr rfl
            · exact ih last
      · rcases ih (some ch) with h | h <;> rw [h]
        · exact .inl rfl
        · exact .inr rfl

end

/-! ## Spaces across the cut -/

section
variable {afterSpace : Bool} {a b : Text}

/-- Whether a space is at the end of a text behind a space, or behind none. -/
def spaceBehind : Bool → Text → Bool
  | afterSpace, [] => afterSpace
  | _, c :: rest => spaceBehind (decide (c = ' ')) rest

theorem squeeze_append (a b : Text) :
    squeeze afterSpace (a ++ b) = squeeze afterSpace a ++ squeeze (spaceBehind afterSpace a) b := by
  induction a generalizing afterSpace with
  | nil => rfl
  | cons c a ih =>
      rw [List.cons_append, squeeze, squeeze, spaceBehind]
      split
      · next h =>
        rw [ih, decide_eq_true h.1]
      · rw [ih, List.cons_append]

theorem squeeze_prefix (h : a <+: b) : squeeze afterSpace a <+: squeeze afterSpace b := by
  obtain ⟨c, rfl⟩ := h
  rw [squeeze_append]
  exact List.prefix_append _ _

/-- Other characters than the space are all kept. -/
theorem count_squeeze {c : Char} (hc : c ≠ ' ') (afterSpace : Bool) (text : Text) :
    (squeeze afterSpace text).count c = text.count c := by
  induction text generalizing afterSpace with
  | nil => rfl
  | cons d text ih =>
      rw [squeeze]
      split
      · next h =>
        rw [ih, h.1, List.count_cons_of_ne (Ne.symm hc)]
      · rw [List.count_cons, List.count_cons, ih]

/-! ## Leading whitespace -/

theorem lstrip_prefix (h : a <+: b) : lstrip a <+: lstrip b := by
  obtain ⟨c, rfl⟩ := h
  unfold lstrip
  rw [List.dropWhile_append]
  split
  · next hnil =>
    rw [List.isEmpty_iff.1 hnil]
    exact List.nil_prefix
  · exact List.prefix_append _ _

theorem count_lstrip {c : Char} (hc : isSpaceChar c = false) (text : Text) :
    (lstrip text).count c = text.count c := by
  unfold lstrip
  induction text with
  | nil => rfl
  | cons d text ih =>
      by_cases hd : isSpaceChar d = true
      · have hne : d ≠ c := by
          rintro rfl
          exact absurd (hd.symm.trans hc) (by decide)
        rw [List.dropWhile_cons_of_pos hd, ih, List.count_cons_of_ne hne]
      · rw [List.dropWhile_cons_of_neg hd]

end

/-! ## Deleted characters -/

section
variable {a b text : Text} {c : Char}

theorem translate_append (a b : Text) : translate (a ++ b) = translate a ++ translate b :=
  List.flatMap_append

theorem translate_cons (c : Char) (text : Text) :
    translate (c :: text) = translateChar c ++ translate text := List.flatMap_cons

/-- A character is deleted, becomes a space or stays. -/
theorem translateChar_cases (c : Char) :
    translateChar c = [] ∨ translateChar c = [' '] ∨ translateChar c = [c] := by
  unfold translateChar
  split
  · exact .inl rfl
  · split
    · exact .inr (.inl rfl)
    · exact .inr (.inr rfl)

/-- A cut of the translated text is one of the text. -/
theorem translate_eq_append (h : translate text = a ++ b) :
    ∃ front behind, text = front ++ behind ∧ translate front = a ∧ translate behind = b := by
  induction text generalizing a with
  | nil =>
      obtain ⟨rfl, rfl⟩ := List.append_eq_nil_iff.1 h.symm
      exact ⟨[], [], rfl, rfl, rfl⟩
  | cons ch text ih =>
      cases a with
      | nil => exact ⟨[], ch :: text, rfl, rfl, h⟩
      | cons d a =>
          rw [translate_cons] at h
          obtain ⟨a', hhead, htail⟩ : ∃ a', d :: a = translateChar ch ++ a' ∧ translate text = a' ++ b := by
            rcases translateChar_cases ch with hch | hch | hch <;> rw [hch] at h ⊢
            · exact ⟨d :: a, rfl, h⟩
            · obtain ⟨rfl, hrest⟩ := List.cons.inj h
              exact ⟨a, rfl, hrest⟩
            · obtain ⟨rfl, hrest⟩ := List.cons.inj h
              exact ⟨a, rfl, hrest⟩
          obtain ⟨front, behind, rfl, hfront, hbehind⟩ := ih htail
          exact ⟨ch :: front, behind, rfl, by rw [translate_cons, hfront, hhead], hbehind⟩

/-- A character of the translated text that is no space stands in the text, behind deleted ones. -/
theorem translate_eq_cons (hc : c ≠ ' ') (h : translate text = c :: b) :
    ∃ deleted behind, text = deleted ++ c :: behind ∧ translate deleted = [] ∧
      translate behind = b := by
  induction text with
  | nil => cases h
  | cons ch text ih =>
      rw [translate_cons] at h
      rcases translateChar_cases ch with hch | hch | hch <;> rw [hch] at h
      · obtain ⟨deleted, behind, rfl, hdeleted, hbehind⟩ := ih h
        exact ⟨ch :: deleted, behind, rfl, by rw [translate_cons, hch, hdeleted]; rfl, hbehind⟩
      · exact absurd (List.cons.inj h).1.symm hc
      · obtain ⟨rfl, hrest⟩ := List.cons.inj h
        exact ⟨[], text, rfl, rfl, hrest⟩

end

end StreamingTts.Frontend
