import Mathlib.Data.List.DropRight
import StreamingTts.Frontend.Text

/-!
# The causal frontier

`engine/frontend/text_commitment/causal.py`: `spoken_units` cuts a spoken text into the units that may
be committed, `CausalFrontier.advance` commits the units that all candidates of a span share, and
`observe_committed` takes over a commit that was chosen elsewhere. The units are the matches of one
pattern, and `findall` passes over a character at which none starts: a word character that is neither an
ASCII letter nor a decimal digit nor an ideograph of the listed blocks is lost
(`spokenUnits_lossless_iff`). On texts without such characters the frontier emits only prefixes of
its candidates.
-/

namespace StreamingTts.Frontend

open Lib (Regex)
open Lib.Regex (plus opt Over Matches StartsIn startsIn_cls matches_plus_cls matchLength_some
  matchLength_isSome)

/-! ## Units -/

/-- The character classes of a pattern, over the Unicode database. -/
structure PatternClasses where
  /-- `\s`, and `str.isspace` of one character. -/
  isSpace : Char → Bool
  /-- `\d` -/
  isDecimal : Char → Bool
  /-- `\w` -/
  isWord : Char → Bool
  isWord_ascii : ∀ c : Char, c.toNat < 128 → isWord c = (c.isAlphanum || c == '_')
  isWord_quote : isWord '’' = false

namespace PatternClasses

/-- `[A-Za-z]` -/
def isLetter (c : Char) : Bool := c.isAlpha

/-- The ideographs of the pattern. -/
def isIdeograph (c : Char) : Bool :=
  let n := c.toNat
  (0x3400 ≤ n && n ≤ 0x4dbf) || (0x4e00 ≤ n && n ≤ 0x9fff) || (0x20000 ≤ n && n ≤ 0x323af)

variable (w : PatternClasses)

/-- `[^\w\s]` -/
def isMark (c : Char) : Bool := !w.isWord c && !w.isSpace c

/-- `_UNIT_RE`, one alternative after the other. -/
def unitRe : List (Regex Char) :=
  [ .seq (plus (.cls isLetter)) (opt (.seq (Regex.oneOf ['\'', '’']) (plus (.cls isLetter)))),
    .seq (plus (.cls w.isDecimal)) (opt (.seq (Regex.oneOf ['.', ',']) (plus (.cls w.isDecimal)))),
    .cls isIdeograph,
    plus (.cls w.isSpace),
    .cls w.isMark ]

/-- The length of the unit at the start of a text. -/
def unitLength (text : Text) : Option Nat := w.unitRe.findSome? (·.matchLength text)

/-- `_UNIT_RE.findall` for the given number of turns: a unit is taken, or a character is passed over. -/
def findUnits : Nat → Text → List Text
  | 0, _ => []
  | _ + 1, [] => []
  | turns + 1, c :: text =>
      match w.unitLength (c :: text) with
      | some (n + 1) => (c :: text.take n) :: findUnits turns (text.drop n)
      | _ => findUnits turns text

/-- `spoken_units`. -/
def spokenUnits (text : Text) : List Text := w.findUnits text.length text

/-- `str.isspace` of a unit. -/
def isSpaceUnit (unit : Text) : Bool := !unit.isEmpty && unit.all w.isSpace

end PatternClasses

/-- The columns in which a row agrees with all the others (`zip` ends with the shortest). -/
def commonColumns : List Text → List (List Text) → List Text
  | [], _ => []
  | unit :: row, rows =>
      if rows.all (·.head? == some unit) then unit :: commonColumns row (rows.map List.tail) else []

/-- `longest_common_unit_prefix`: the common units, without the separators at their end. -/
def longestCommonUnitPrefix (w : PatternClasses) (outputs : List Text) : List Text :=
  match outputs.map w.spokenUnits with
  | [] => []
  | row :: rows => (commonColumns row rows).rdropWhile w.isSpaceUnit

/-! ## The frontier -/

/-- `FrontierUpdate`. -/
structure FrontierUpdate where
  stableDelta : Text := []
  stableText : Text := []
  pendingText : Text := []
  extendable : Bool := true
  closed : Bool := false
  deriving DecidableEq, Repr

/-- `CausalFrontier`. -/
structure CausalFrontier where
  committedUnits : List Text := []
  committedText : Text := []
  deriving DecidableEq, Repr

/-- `observe_committed`. -/
def CausalFrontier.observeCommitted (w : PatternClasses) (f : CausalFrontier) (text : Text) :
    Except String (CausalFrontier × FrontierUpdate) :=
  if !f.committedText.isPrefixOf text then
    .error "committed text retracts an already committed spoken prefix"
  else
    .ok
      ({ committedUnits := w.spokenUnits text, committedText := text },
        { stableDelta := text.drop f.committedText.length
          stableText := text
          extendable := false
          closed := true })

/-- The arguments of `advance`; a candidate may be `None`. -/
structure Advance where
  candidates : List (Option Text)
  pendingText : Text := []
  extendable : Bool := true
  closed : Bool := false

/-- The candidates that are given. -/
def Advance.values (a : Advance) : List Text := a.candidates.reduceOption

/-- The units an advance commits: the common ones, or all of the first candidate when the span is closed
and there are none. -/
def Advance.units (w : PatternClasses) (a : Advance) : List Text :=
  let common := longestCommonUnitPrefix w a.values
  if a.closed && common.isEmpty then w.spokenUnits (a.values.headD []) else common

/-- `advance`. -/
def CausalFrontier.advance (w : PatternClasses) (f : CausalFrontier) (a : Advance) :
    Except String (CausalFrontier × FrontierUpdate) :=
  if a.values = [] then
    .ok (f,
      { stableText := f.committedText
        pendingText := a.pendingText
        extendable := a.extendable
        closed := a.closed })
  else
    let common := longestCommonUnitPrefix w a.values
    let old := f.committedUnits
    if common.length < old.length ∨ common.take old.length ≠ old then
      .error "candidate frontier retracts an already committed spoken prefix"
    else
      let units := a.units w
      .ok
        ({ committedUnits := units, committedText := units.flatten },
          { stableDelta := (units.drop old.length).flatten
            stableText := units.flatten
            pendingText := a.pendingText
            extendable := a.extendable
            closed := a.closed })

/-- A call of the frontier. -/
inductive FrontierCall
  | advance (a : Advance)
  | observeCommitted (text : Text)

/-- The frontier and the update after a call that does not raise. -/
def CausalFrontier.call (w : PatternClasses) (f : CausalFrontier) :
    FrontierCall → Except String (CausalFrontier × FrontierUpdate)
  | .advance a => f.advance w a
  | .observeCommitted text => f.observeCommitted w text

/-- The frontier and the updates after a sequence of calls none of which raises. -/
def CausalFrontier.run (w : PatternClasses) :
    CausalFrontier → List FrontierCall → Except String (CausalFrontier × List FrontierUpdate)
  | f, [] => .ok (f, [])
  | f, x :: calls => do
      let (f', update) ← f.call w x
      let (f'', updates) ← run w f' calls
      .ok (f'', update :: updates)

/-! ## What the units keep -/

namespace PatternClasses
section
variable {w : PatternClasses}

/-- A character at which a unit starts. -/
def Covered (w : PatternClasses) (c : Char) : Prop :=
  isLetter c = true ∨ w.isDecimal c = true ∨ isIdeograph c = true ∨ w.isSpace c = true ∨
    w.isMark c = true

/-- What joins the parts of a word or a number is covered by itself. -/
theorem covered_joint {c : Char} (h : ['\'', '’', '.', ','].contains c = true) : w.Covered c := by
  have hword : w.isWord c = false := by
    rw [List.contains_iff_mem] at h
    simp only [List.mem_cons, List.not_mem_nil, or_false] at h
    rcases h with rfl | rfl | rfl | rfl
    · rw [w.isWord_ascii _ (by decide)]
      decide
    · exact w.isWord_quote
    · rw [w.isWord_ascii _ (by decide)]
      decide
    · rw [w.isWord_ascii _ (by decide)]
      decide
  cases hspace : w.isSpace c with
  | true => exact .inr (.inr (.inr (.inl hspace)))
  | false => exact .inr (.inr (.inr (.inr (by simp [isMark, hword, hspace]))))

/-- Every alternative of the pattern matches covered characters only. -/
theorem over_unitRe : ∀ r ∈ w.unitRe, Over w.Covered r := by
  have hletter : ∀ c, isLetter c = true → w.Covered c := fun c h => .inl h
  have hdecimal : ∀ c, w.isDecimal c = true → w.Covered c := fun c h => .inr (.inl h)
  have hideograph : ∀ c, isIdeograph c = true → w.Covered c := fun c h => .inr (.inr (.inl h))
  have hspace : ∀ c, w.isSpace c = true → w.Covered c := fun c h => .inr (.inr (.inr (.inl h)))
  have hmark : ∀ c, w.isMark c = true → w.Covered c := fun c h => .inr (.inr (.inr (.inr h)))
  have hquote : ∀ c, ['\'', '’'].contains c = true → w.Covered c := fun c h =>
    covered_joint (by simp only [List.contains_iff_mem, List.mem_cons] at h ⊢; tauto)
  have hpoint : ∀ c, ['.', ','].contains c = true → w.Covered c := fun c h =>
    covered_joint (by simp only [List.contains_iff_mem, List.mem_cons] at h ⊢; tauto)
  intro r hr
  simp only [unitRe, List.mem_cons, List.not_mem_nil, or_false] at hr
  rcases hr with rfl | rfl | rfl | rfl | rfl
  · exact ⟨⟨hletter, hletter⟩, ⟨hquote, hletter, hletter⟩, trivial⟩
  · exact ⟨⟨hdecimal, hdecimal⟩, ⟨hpoint, hdecimal, hdecimal⟩, trivial⟩
  · exact hideograph
  · exact ⟨hspace, hspace⟩
  · exact hmark

/-- No alternative matches the empty text. -/
theorem unitRe_ne_nil : ∀ r ∈ w.unitRe, ¬ Matches r [] := by
  have hstarts : ∀ {P : Char → Prop} {r : Regex Char}, StartsIn P r → ¬ Matches r [] := by
    intro P r h hmatch
    obtain ⟨c, t, ht, -⟩ := h _ hmatch
    cases ht
  intro r hr
  simp only [unitRe, List.mem_cons, List.not_mem_nil, or_false] at hr
  rcases hr with rfl | rfl | rfl | rfl | rfl
  · exact hstarts (((startsIn_cls _).seq _).seq _)
  · exact hstarts (((startsIn_cls _).seq _).seq _)
  · exact hstarts (startsIn_cls _)
  · exact hstarts ((startsIn_cls _).seq _)
  · exact hstarts (startsIn_cls _)

/-- A covered character is a match by itself. -/
theorem Covered.matches {c : Char} (h : w.Covered c) : ∃ r ∈ w.unitRe, Matches r [c] := by
  unfold unitRe
  rcases h with h | h | h | h | h
  · exact ⟨_, .head _, (matches_plus_cls h).seq_opt _⟩
  · exact ⟨_, .tail _ (.head _), (matches_plus_cls h).seq_opt _⟩
  · exact ⟨_, .tail _ (.tail _ (.head _)), .cls h⟩
  · exact ⟨_, .tail _ (.tail _ (.tail _ (.head _))), matches_plus_cls h⟩
  · exact ⟨_, .tail _ (.tail _ (.tail _ (.tail _ (.head _)))), .cls h⟩

/-- A unit at the start of a text is not empty and consists of covered characters. -/
theorem unitLength_some {text : Text} {n : Nat} (h : w.unitLength text = some n) :
    0 < n ∧ ∀ c ∈ text.take n, w.Covered c := by
  obtain ⟨r, hr, hlen⟩ := List.exists_of_findSome?_eq_some h
  obtain ⟨-, hmatch⟩ := matchLength_some hlen
  refine ⟨?_, hmatch.over (over_unitRe r hr)⟩
  rcases Nat.eq_zero_or_pos n with rfl | hpos
  · exact absurd hmatch (unitRe_ne_nil r hr)
  · exact hpos

/-- No unit starts at a character that is not covered. -/
theorem unitLength_none {c : Char} {text : Text} (h : w.unitLength (c :: text) = none) :
    ¬ w.Covered c := by
  intro hc
  obtain ⟨r, hr, hmatch⟩ := hc.matches
  have hsome : (r.matchLength (c :: text)).isSome = true := matchLength_isSome hmatch
  rw [List.findSome?_eq_none_iff.1 h r hr] at hsome
  cases hsome

/-- One turn over a text: a unit of covered characters, or a character that is passed over. -/
theorem findUnits_cons (turns : Nat) (c : Char) (text : Text) :
    (∃ n, w.findUnits (turns + 1) (c :: text) =
        (c :: text.take n) :: w.findUnits turns (text.drop n) ∧
        ∀ d ∈ c :: text.take n, w.Covered d) ∨
      (w.findUnits (turns + 1) (c :: text) = w.findUnits turns text ∧ ¬ w.Covered c) := by
  cases hlen : w.unitLength (c :: text) with
  | none =>
      right
      refine ⟨?_, unitLength_none hlen⟩
      rw [findUnits, hlen]
  | some n =>
      obtain ⟨hpos, hcovered⟩ := unitLength_some hlen
      obtain ⟨m, rfl⟩ := Nat.exists_eq_succ_of_ne_zero hpos.ne'
      left
      refine ⟨m, ?_, hcovered⟩
      rw [findUnits, hlen]

/-- The units are no longer than the text. -/
theorem findUnits_length_le (turns : Nat) (text : Text) :
    (w.findUnits turns text).flatten.length ≤ text.length := by
  induction turns generalizing text with
  | zero => exact Nat.zero_le _
  | succ turns ih =>
      cases text with
      | nil => exact Nat.zero_le _
      | cons c text =>
          rcases w.findUnits_cons turns c text with ⟨n, hunits, -⟩ | ⟨hunits, -⟩
          · have := ih (text.drop n)
            rw [hunits, List.flatten_cons, List.length_append, List.length_cons, List.length_take,
              List.length_cons]
            rw [List.length_drop] at this
            omega
          · have := ih text
            rw [hunits, List.length_cons]
            omega

theorem findUnits_lossless_iff {turns : Nat} {text : Text} (h : text.length ≤ turns) :
    (w.findUnits turns text).flatten = text ↔ ∀ c ∈ text, w.Covered c := by
  induction turns generalizing text with
  | zero =>
      obtain rfl := List.length_eq_zero_iff.1 (Nat.le_zero.1 h)
      simp [findUnits]
  | succ turns ih =>
      cases text with
      | nil => simp [findUnits]
      | cons c text =>
          rw [List.length_cons] at h
          rcases w.findUnits_cons turns c text with ⟨n, hunits, hcovered⟩ | ⟨hunits, hc⟩
          · have hrest := @ih (text.drop n) (by rw [List.length_drop]; omega)
            have hsplit : (c :: text.take n) ++ text.drop n = c :: text := by
              rw [List.cons_append, List.take_append_drop]
            rw [hunits, List.flatten_cons]
            calc (c :: text.take n) ++ (w.findUnits turns (text.drop n)).flatten = c :: text
                ↔ (c :: text.take n) ++ (w.findUnits turns (text.drop n)).flatten =
                    (c :: text.take n) ++ text.drop n := by rw [hsplit]
              _ ↔ (w.findUnits turns (text.drop n)).flatten = text.drop n :=
                  List.append_right_inj _
              _ ↔ ∀ d ∈ text.drop n, w.Covered d := hrest
              _ ↔ ∀ d ∈ c :: text, w.Covered d := by
                  rw [← hsplit]
                  constructor
                  · intro hd d hmem
                    rcases List.mem_append.1 hmem with hmem | hmem
                    · exact hcovered d hmem
                    · exact hd d hmem
                  · intro hd d hmem
                    exact hd d (List.mem_append_right _ hmem)
          · -- the character is lost, so the units are shorter than the text
            have hle := w.findUnits_length_le turns text
            constructor
            · intro hjoin
              rw [hunits] at hjoin
              rw [hjoin, List.length_cons] at hle
              omega
            · intro hall
              exact absurd (hall c List.mem_cons_self) hc

/-- Joining the units of a text gives back the text exactly when all its characters are covered. -/
theorem spokenUnits_lossless_iff {text : Text} :
    (w.spokenUnits text).flatten = text ↔ ∀ c ∈ text, w.Covered c :=
  findUnits_lossless_iff le_rfl

end
end PatternClasses

/-! ## What the frontier keeps -/

section
variable {w : PatternClasses}

/-- The columns in which the rows agree start each of them. -/
theorem commonColumns_prefix (row : List Text) (rows : List (List Text)) :
    commonColumns row rows <+: row ∧ ∀ r ∈ rows, commonColumns row rows <+: r := by
  induction row generalizing rows with
  | nil => exact ⟨List.nil_prefix, fun _ _ => List.nil_prefix⟩
  | cons unit row ih =>
      rw [commonColumns]
      split
      · next hall =>
        obtain ⟨hrow, hrows⟩ := ih (rows.map List.tail)
        refine ⟨(List.prefix_cons_inj unit).2 hrow, ?_⟩
        intro r hr
        have hhead : r.head? = some unit := by
          simpa using List.all_eq_true.1 hall r hr
        obtain ⟨t, rfl⟩ := List.head?_eq_some_iff.1 hhead
        exact (List.prefix_cons_inj unit).2 (hrows t (List.mem_map.2 ⟨_, hr, rfl⟩))
      · exact ⟨List.nil_prefix, fun _ _ => List.nil_prefix⟩

/-- The common units start the units of every output. -/
theorem longestCommonUnitPrefix_prefix {outputs : List Text} {v : Text} (hv : v ∈ outputs) :
    longestCommonUnitPrefix w outputs <+: w.spokenUnits v := by
  cases outputs with
  | nil => cases hv
  | cons first others =>
      obtain ⟨hrow, hrows⟩ := commonColumns_prefix (w.spokenUnits first) (others.map w.spokenUnits)
      refine (List.rdropWhile_prefix _ _).trans ?_
      rcases List.mem_cons.1 hv with rfl | hv
      · exact hrow
      · exact hrows _ (List.mem_map.2 ⟨v, hv, rfl⟩)

/-- Every character of the text is one at which a unit starts. -/
def CoveredText (w : PatternClasses) (text : Text) : Prop := ∀ c ∈ text, w.Covered c

/-- What a caller has to keep to: texts of covered characters, and, where a closed span's candidates
share no unit, a first candidate that all of them start with (one candidate does). -/
def FrontierCall.Proper (w : PatternClasses) : FrontierCall → Prop
  | .advance a =>
      (∀ v ∈ a.values, CoveredText w v) ∧
        (a.closed = true → longestCommonUnitPrefix w a.values = [] →
          ∀ v ∈ a.values, a.values.headD [] <+: v)
  | .observeCommitted text => CoveredText w text

/-- The text of a frontier is that of its units. -/
def CausalFrontier.Joined (f : CausalFrontier) : Prop := f.committedUnits.flatten = f.committedText

/-- What a call does: it adds its delta to the text, and an advance stays within every candidate. -/
structure Extends (f f' : CausalFrontier) (x : FrontierCall) (update : FrontierUpdate) : Prop where
  text : f'.committedText = f.committedText ++ update.stableDelta
  stable : update.stableText = f'.committedText
  within : ∀ a, x = .advance a → ∀ v ∈ a.values, f'.committedText <+: v

theorem observeCommitted_spec {f f' : CausalFrontier} {text : Text} {update : FrontierUpdate}
    (hcovered : CoveredText w text) (h : f.observeCommitted w text = .ok (f', update)) :
    f'.Joined ∧ Extends f f' (.observeCommitted text) update := by
  unfold CausalFrontier.observeCommitted at h
  split at h
  · cases h
  · next hstarts =>
    cases h
    have hstart : f.committedText <+: text := by
      simpa using hstarts
    obtain ⟨delta, rfl⟩ := hstart
    refine ⟨PatternClasses.spokenUnits_lossless_iff.2 hcovered, ?_, rfl, ?_⟩
    · rw [List.drop_left]
    · intro a ha
      cases ha

/-- The units an advance commits start with those before and stay within every candidate. -/
theorem Advance.units_spec {f : CausalFrontier} {a : Advance} (hproper : (FrontierCall.advance a).Proper w)
    (hvalues : a.values ≠ []) (hold : f.committedUnits <+: longestCommonUnitPrefix w a.values) :
    f.committedUnits <+: a.units w ∧ ∀ v ∈ a.values, (a.units w).flatten <+: v := by
  obtain ⟨hcovered, hclosed⟩ := hproper
  have hjoin : ∀ v ∈ a.values, (w.spokenUnits v).flatten = v := fun v hv =>
    PatternClasses.spokenUnits_lossless_iff.2 (hcovered v hv)
  unfold Advance.units
  simp only
  split
  · next hnone =>
    rw [Bool.and_eq_true, List.isEmpty_iff] at hnone
    obtain ⟨hclosed', hnil⟩ := hnone
    have hfirst : a.values.headD [] ∈ a.values := by
      cases hcases : a.values with
      | nil => exact absurd hcases hvalues
      | cons v vs => exact List.mem_cons_self
    refine ⟨?_, ?_⟩
    · -- nothing was committed before, as the common units are none
      rw [hnil, List.prefix_nil] at hold
      rw [hold]
      exact List.nil_prefix
    · intro v hv
      rw [hjoin _ hfirst]
      exact hclosed hclosed' hnil v hv
  · refine ⟨hold, ?_⟩
    intro v hv
    obtain ⟨rest, hrest⟩ := longestCommonUnitPrefix_prefix (w := w) hv
    refine ⟨rest.flatten, ?_⟩
    rw [← List.flatten_append, hrest]
    exact hjoin v hv

theorem advance_spec {f f' : CausalFrontier} {a : Advance} {update : FrontierUpdate} (hf : f.Joined)
    (hproper : (FrontierCall.advance a).Proper w) (h : f.advance w a = .ok (f', update)) :
    f'.Joined ∧ Extends f f' (.advance a) update := by
  unfold CausalFrontier.advance at h
  split at h
  · next hvalues =>
    cases h
    refine ⟨hf, (List.append_nil _).symm, rfl, ?_⟩
    intro a' ha' v hv
    cases ha'
    rw [hvalues] at hv
    cases hv
  · next hvalues =>
    simp only at h
    split at h
    · cases h
    · next hkept =>
      cases h
      have hold : f.committedUnits <+: longestCommonUnitPrefix w a.values := by
        rw [not_or, not_not] at hkept
        exact List.prefix_iff_eq_take.2 hkept.2.symm
      obtain ⟨⟨more, hmore⟩, hwithin⟩ := Advance.units_spec hproper hvalues hold
      refine ⟨rfl, ?_, rfl, ?_⟩
      · show (a.units w).flatten =
          f.committedText ++ ((a.units w).drop f.committedUnits.length).flatten
        rw [← hmore, List.drop_left, List.flatten_append, hf]
      · intro a' ha'
        cases ha'
        exact hwithin

/-- A proper call keeps the text that of the units, and adds its delta to it. -/
theorem call_spec {f f' : CausalFrontier} {x : FrontierCall} {update : FrontierUpdate} (hf : f.Joined)
    (hproper : x.Proper w) (h : f.call w x = .ok (f', update)) : f'.Joined ∧ Extends f f' x update := by
  cases x with
  | advance a => exact advance_spec hf hproper h
  | observeCommitted text => exact observeCommitted_spec hproper h

/-- A run of proper calls adds the deltas it returns to the text. -/
theorem run_spec {f f' : CausalFrontier} {calls : List FrontierCall} {updates : List FrontierUpdate}
    (hf : f.Joined) (hproper : ∀ x ∈ calls, x.Proper w) (h : f.run w calls = .ok (f', updates)) :
    f'.Joined ∧ f'.committedText = f.committedText ++ (updates.map (·.stableDelta)).flatten := by
  induction calls generalizing f updates with
  | nil =>
      cases h
      exact ⟨hf, (List.append_nil _).symm⟩
  | cons x calls ih =>
      rw [CausalFrontier.run] at h
      cases hcall : f.call w x with
      | error e =>
          rw [hcall] at h
          cases h
      | ok out =>
          obtain ⟨f₁, update⟩ := out
          rw [hcall] at h
          cases hrun : f₁.run w calls with
          | error e =>
              simp only [bind, Except.bind, hrun] at h
              cases h
          | ok out =>
              obtain ⟨f₂, updates'⟩ := out
              simp only [bind, Except.bind, hrun] at h
              cases h
              obtain ⟨hf₁, hextends⟩ := call_spec hf (hproper x List.mem_cons_self) hcall
              obtain ⟨hf₂, htext⟩ := ih hf₁ (fun y hy => hproper y (List.mem_cons_of_mem _ hy)) hrun
              refine ⟨hf₂, ?_⟩
              rw [htext, hextends.text, List.append_assoc]
              rfl

/-- Joining the units of a text gives it back exactly when no character of it is lost. In a run of
calls that pass such texts, the deltas make up the committed text, and every further such call only adds
its delta to it and, if it is an advance, leaves it a prefix of every candidate. -/
theorem frontier_emits_prefixes (w : PatternClasses) :
    (∀ text : Text, (w.spokenUnits text).flatten = text ↔ CoveredText w text) ∧
    ∀ calls f updates, (∀ x ∈ calls, x.Proper w) → CausalFrontier.run w {} calls = .ok (f, updates) →
      f.committedText = (updates.map (·.stableDelta)).flatten ∧
      ∀ x f' update, x.Proper w → f.call w x = .ok (f', update) → Extends f f' x update := by
  refine ⟨fun text => PatternClasses.spokenUnits_lossless_iff, ?_⟩
  intro calls f updates hproper hrun
  have hempty : CausalFrontier.Joined {} := rfl
  obtain ⟨hf, htext⟩ := run_spec hempty hproper hrun
  exact ⟨htext, fun x f' update hx hcall => (call_spec hf hx hcall).2⟩

end

/-! ## A lost letter -/

/-- The classes on ASCII, the accented letters of Latin-1 and the kana. -/
def latinAndKana : PatternClasses where
  isSpace c := asciiData.isSpace c
  isDecimal c := c.isDigit
  isWord c := c.isAlphanum || c == '_' || (0xC0 ≤ c.toNat && c.toNat ≤ 0xFF && c.toNat != 0xD7
    && c.toNat != 0xF7) || (0x3041 ≤ c.toNat && c.toNat ≤ 0x30FF)
  isWord_ascii c h := by
    have h₁ : ¬ 0xC0 ≤ c.toNat := by omega
    have h₂ : ¬ 0x3041 ≤ c.toNat := by omega
    simp [h₁, h₂]
  isWord_quote := by decide

/-- Two candidates of a span, then the one that is chosen. -/
theorem frontier_emits_prefixes_chosen :
    Extends { committedUnits := ["a".toList], committedText := "a".toList }
      { committedUnits := ["a".toList, " ".toList, "b".toList], committedText := "a b".toList }
      (.advance { candidates := [some "a b".toList], closed := true })
      { stableDelta := " b".toList, stableText := "a b".toList, closed := true } := by
  have hletter : ∀ c, PatternClasses.isLetter c = true → latinAndKana.Covered c := fun c h => .inl h
  have hspace : latinAndKana.Covered ' ' := .inr (.inr (.inr (.inl rfl)))
  have hcovered : ∀ v ∈ ["a b".toList, "a c".toList], CoveredText latinAndKana v := by
    have hfirst : "a b".toList = ['a', ' ', 'b'] := rfl
    have hsecond : "a c".toList = ['a', ' ', 'c'] := rfl
    intro v hv c hc
    rw [hfirst, hsecond] at hv
    simp only [List.mem_cons, List.not_mem_nil, or_false] at hv
    rcases hv with rfl | rfl
    · simp only [List.mem_cons, List.not_mem_nil, or_false] at hc
      rcases hc with rfl | rfl | rfl
      · exact hletter _ rfl
      · exact hspace
      · exact hletter _ rfl
    · simp only [List.mem_cons, List.not_mem_nil, or_false] at hc
      rcases hc with rfl | rfl | rfl
      · exact hletter _ rfl
      · exact hspace
      · exact hletter _ rfl
  have hproper : ∀ x ∈ [FrontierCall.advance { candidates := [some "a b".toList, some "a c".toList] }],
      x.Proper latinAndKana := by
    intro x hx
    cases List.mem_singleton.1 hx
    exact ⟨hcovered, fun hclosed => by cases hclosed⟩
  have hlast : (FrontierCall.advance { candidates := [some "a b".toList], closed := true }).Proper
      latinAndKana := by
    refine ⟨fun v hv => hcovered v ?_, ?_⟩
    · rw [List.mem_singleton.1 hv]
      exact List.mem_cons_self
    · intro _ hnone
      exact absurd hnone (by decide)
  have hruns := (frontier_emits_prefixes latinAndKana).2
    [.advance { candidates := [some "a b".toList, some "a c".toList] }] _ _ hproper rfl
  exact hruns.2 _ _ _ hlast rfl

/-- Of the only candidate `école` the frontier commits `cole`, which is no prefix of it; the letter is
lost because no unit starts at it. -/
theorem accented_letter_lost :
    ∃ f update, CausalFrontier.advance latinAndKana {}
        { candidates := [some "école".toList], closed := true } = .ok (f, update) ∧
      f.committedText = "cole".toList ∧ ¬ f.committedText <+: "école".toList ∧
      (latinAndKana.spokenUnits "a_b".toList).flatten ≠ "a_b".toList ∧
      (latinAndKana.spokenUnits "かな".toList).flatten ≠ "かな".toList :=
  ⟨_, _, rfl, by decide, by decide, by decide, by decide⟩

end StreamingTts.Frontend
