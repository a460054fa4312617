import Mathlib
import StreamingTts.Frontend.Calls

/-!
# Where the commits of a run come from

The commits of a run are numbered one after another and lie behind one another in the source, and
each of them holds the text of its interval, in every run whose characters meet the condition for
exact texts (`commits_are_slices`). The condition excludes what the loop body gets wrong: a digit behind
a decimal point that a timer or an emoji has closed, an ordered marker with a full-width dot, a
terminator that joins a run behind a dropped character, and full-width markers that are rolled back as
ASCII ones.

Nothing is lost of the source in every run whose characters meet the condition for complete texts
(`committed_once`). It excludes the first three of these, and the rollbacks of an autolink or a
parenthesis that took more than its opener.
-/

namespace StreamingTts.Frontend

namespace Committer

open Lib (Along outputs Tiles)

variable {F : Type}

/-! ## Conditions that can be evaluated -/

section
variable {exact cover : Prop} {e : Env F} {c : Committer F} {ch : Char} {pos : Nat}

instance : Decidable (Tight c pos) :=
  inferInstanceAs (Decidable (_ ∨ _))

instance : Decidable (Glues c ch pos) :=
  inferInstanceAs (Decidable (_ → _ → _))

instance (raw : Text) : Decidable (autolinkFails e raw ch) :=
  inferInstanceAs (Decidable (_ ∧ _))

instance (raw : Text) : Decidable (parenFails e raw ch) :=
  inferInstanceAs (Decidable (_ ∧ _ ∧ _))

set_option synthInstance.maxSize 512 in
instance [Decidable exact] [Decidable cover] : Decidable (CharOk exact cover e c ch pos) :=
  decidable_of_iff
    ((c.leadingDecimal = true → e.u.digitLike ch = true → ¬ c.Closed) ∧
      (c.candidates.orderedMarker = true → e.u.filtered ch = false → '.' ∈ c.pending.raw) ∧
      (c.Closed → opensLeadingDecimal e c ch pos = false → Glues c ch pos) ∧
      (exact → c.candidates.bang = true → e.u.filtered ch = false → ch ≠ '[' →
        c.pending.raw.getLast? = some '!') ∧
      (exact → c.candidates.image = true → e.u.filtered ch = false → c.pending.raw = ['!']) ∧
      (exact → c.candidates.autolink = true → e.u.filtered ch = false →
        autolinkFails e c.pending.raw ch → c.pending.raw.head? = some '<') ∧
      (cover → c.candidates.autolink = true → e.u.filtered ch = false →
        autolinkFails e c.pending.raw ch → c.pending.raw.length = 1) ∧
      (cover → ¬ c.Closed → c.candidates.leadingParen = true → c.pending.kind = .math →
        e.u.filtered ch = false → parenFails e c.pending.raw ch → c.pending.raw.length = 1))
    ⟨fun ⟨h₁, h₂, h₃, h₄, h₅, h₆, h₇, h₈⟩ => ⟨h₁, h₂, h₃, h₄, h₅, h₆, h₇, h₈⟩,
      fun h => ⟨h.decimal, h.ordered, h.glue, h.bang, h.image, h.autolink, h.autolinkKept, h.parenKept⟩⟩

variable [Zero F] [Sub F] [LT F] [DecidableLT F]

instance TextOk.decidable [Decidable exact] [Decidable cover] (now : F) :
    (c : Committer F) → (text : Text) → (pos : Nat) → Decidable (TextOk exact cover e now c text pos)
  | _, [], _ => .isTrue trivial
  | c, ch :: text, pos =>
      have := TextOk.decidable now (scan e c ch pos now) text (pos + 1)
      inferInstanceAs (Decidable (CharOk exact cover e c ch pos ∧ TextOk exact cover e now _ text (pos + 1)))

instance [Decidable exact] [Decidable cover] : (call : Call F) → Decidable (CallOk exact cover e c call)
  | .feed text _ now metadata => inferInstanceAs (Decidable (c.finalized = false →
      e.config.enabled = true →
      TextOk exact cover e now ((c.withMetadata metadata).accept text) text c.raw.length))
  | .poll _ => .isTrue trivial

end

/-! ## A committer of ASCII texts

A normalizer that leaves every text as it is. -/

/-- A normalizer that changes nothing. -/
def literalAdapter : Adapter Int where
  normalizeClosed text _ _ := .result (some text)
  normalize _ _ _ := none
  normalizeClosedStream _ _ _ := none
  normalizeIdCard _ _ := none
  normalizeDigitSequence _ _ := none
  normalizePhone _ _ := none
  fallback text _ _ _ := text
  candidateCosts _ _ _ _ := []
  unescape text := text
  sanitizeUrl text := text
  projectReadable text := text
  isMarkdownStructured _ := false

/-- The default configuration, with a clock of milliseconds. -/
def asciiEnv : Env Int :=
  ⟨asciiData, { semanticMaxWait := 1000, semanticIdleWait := 120 }, literalAdapter⟩

/-! ## Exact coordinates -/

/-- Everything may be skipped. -/
theorem skips_all (u : UnicodeData) : Skips u fun _ _ => True :=
  ⟨fun _ _ => trivial, fun _ _ _ _ => trivial, fun _ => trivial, fun _ _ _ => trivial,
    fun _ _ _ => trivial⟩

section
variable [Zero F] [Add F] [Sub F] [LT F] [DecidableLT F]

/-- The commits of a run are numbered upwards, lie behind one another in the source, and hold the text
of their intervals, if the characters of the run meet the condition for exact texts. -/
theorem commits_are_slices (e : Env F) (calls : List (Call F))
    (hok : Along (fun c call => (step e c call).1) (CallOk True False e) (new e) calls) :
    (outputs (step e) (new e) calls).Pairwise (fun s t => s.fence < t.fence) ∧
      (outputs (step e) (new e) calls).Pairwise (fun s t => s.commitId < t.commitId) ∧
      (outputs (step e) (new e) calls).Pairwise (fun s t => s.rawEnd ≤ t.rawStart) ∧
      ∀ t ∈ outputs (step e) (new e) calls, t.rawText =
        ((Lib.run (fun c call => (step e c call).1) (new e) calls).raw.drop t.rawStart).take
          (t.rawEnd - t.rawStart) := by
  have hsettled := run_settled (skips_all e.u) (fun _ _ _ => trivial)
    (new_settled e True fun _ _ => True) hok
  rw [List.nil_append] at hsettled
  generalize outputs (step e) (new e) calls = commits at *
  generalize Lib.run (fun c call => (step e c call).1) (new e) calls = c at *
  have hnumbered := hsettled.inv.core.numbered
  have htiles := hsettled.inv.core.tiles
  rw [layout, hsettled.outbox, List.append_nil] at htiles
  rw [hsettled.outbox, List.append_nil] at hnumbered
  refine ⟨?_, ?_, ?_, ?_⟩
  · rw [← List.pairwise_map (f := fun t : TextCommit => t.fence) (R := (· < ·)), hnumbered.fence]
    exact List.pairwise_lt_range'
  · rw [← List.pairwise_map (f := fun t : TextCommit => t.commitId) (R := (· < ·)), hnumbered.commitId]
    exact List.pairwise_lt_range'
  · have hpieces := (List.pairwise_append.1 htiles.ordered).1
    exact List.pairwise_map.1 hpieces
  · intro t ht
    exact htiles.slice trivial (List.mem_append_left _ (List.mem_map_of_mem ht))

end

/-- Two packets with a timer between them meet the condition. -/
theorem commits_are_slices_greeting :
    (outputs (step asciiEnv) (new asciiEnv) [.feed "no. 3".toList false 0 {}, .poll 500,
      .feed " *ok*".toList true 600 {}]).Pairwise (fun s t => s.rawEnd ≤ t.rawStart) :=
  (commits_are_slices asciiEnv [.feed "no. 3".toList false 0 {}, .poll 500,
    .feed " *ok*".toList true 600 {}] (by decide +kernel)).2.2.1

/-- A decimal point that the timer has closed leaves its flag behind: the digit of the next packet
becomes a commit that starts at the beginning of the source. -/
theorem timed_out_point_overlaps :
    ¬ (outputs (step asciiEnv) (new asciiEnv) [.feed ".".toList false 0 {}, .poll 500,
        .feed "5".toList true 600 {}]).Pairwise (fun s t => s.rawEnd ≤ t.rawStart) ∧
      ¬ ∀ t ∈ outputs (step asciiEnv) (new asciiEnv) [.feed ".".toList false 0 {}, .poll 500,
        .feed "5".toList true 600 {}], t.rawText =
          ((Lib.run (fun c call => (step asciiEnv c call).1) (new asciiEnv) [.feed ".".toList false 0 {},
            .poll 500, .feed "5".toList true 600 {}]).raw.drop t.rawStart).take
              (t.rawEnd - t.rawStart) := by
  decide +kernel

/-! ## Complete texts -/

/-- The positions that need not be committed: emoji and their components, the base of a keycap, an
inline hash and the whitespace behind it. -/
def Skippable (u : UnicodeData) (src : Text) (i : Nat) : Prop :=
  (src[i]?).any u.filtered = true ∨
    ((src[i]?).any isKeycapBase = true ∧ (src[i + 1]?).any isKeycapMark = true) ∨
    InlineHash u src i ∨
    (0 < i ∧ InlineHash u src (i - 1) ∧ (src[i]?).any (fun x => u.isSpace (u.lexChar x)) = true)

instance (u : UnicodeData) (src : Text) (i : Nat) : Decidable (InlineHash u src i) :=
  inferInstanceAs (Decidable (_ ∧ _))

instance (u : UnicodeData) (src : Text) (i : Nat) : Decidable (Skippable u src i) :=
  inferInstanceAs (Decidable (_ ∨ _ ∨ _ ∨ _))

theorem skips_skippable (u : UnicodeData) : Skips u (Skippable u) where
  emoji := fun hx hfilter => .inl (by rw [hx]; exact hfilter)
  keycap := fun hx hbase hy hmark => .inr (.inl ⟨by rw [hx]; exact hbase, by rw [hy]; exact hmark⟩)
  hash := fun h => .inr (.inr (.inl h))
  space := fun h hx hspace =>
    .inr (.inr (.inr ⟨Nat.succ_pos _, h, by rw [hx]; exact hspace⟩))
  grow := by
    intro src i more hlt h
    have hsame : (src ++ more)[i]? = src[i]? := List.getElem?_append_left hlt
    rcases h with h | ⟨h, hnext⟩ | h | ⟨hpos, h, hspace⟩
    · exact .inl (by rw [hsame]; exact h)
    · refine .inr (.inl ⟨by rw [hsame]; exact h, ?_⟩)
      have hlt' : i + 1 < src.length := by
        by_contra hge
        rw [List.getElem?_eq_none (by omega)] at hnext
        cases hnext
      rw [List.getElem?_append_left hlt']
      exact hnext
    · exact .inr (.inr (.inl (h.grow more)))
    · exact .inr (.inr (.inr ⟨hpos, h.grow more, by rw [hsame]; exact hspace⟩))

section
variable [Zero F] [Add F] [Sub F] [LT F] [DecidableLT F]

/-- Behind the final packet every character that may not be skipped lies in the interval of exactly
one commit, if the characters of the run meet the condition for complete texts. -/
theorem committed_once (e : Env F) (calls : List (Call F))
    (hnone : ∀ call ∈ calls, call.isFinal = false) (text : Text) (now : F) (metadata : TextInputMetadata)
    (hok : Along (fun c call => (step e c call).1) (CallOk False True e) (new e)
      (calls ++ [.feed text true now metadata])) :
    ∀ i < (calls.flatMap Call.text ++ text).length, ¬ Skippable e.u (calls.flatMap Call.text ++ text) i →
      (outputs (step e) (new e) (calls ++ [.feed text true now metadata])).countP
        (fun t => t.rawStart ≤ i ∧ i < t.rawEnd) = 1 := by
  have hskip := skips_skippable e.u
  have hloose : ¬ True → ∀ src i, Skippable e.u src i := fun h => absurd trivial h
  have hnew := new_settled e False (Skippable e.u)
  have hsettled := run_settled hskip hloose hnew hok
  obtain ⟨hbefore, hlast⟩ := (Lib.along_append _ _ _ _).1 hok
  obtain ⟨hraw, hopen⟩ := run_raw hskip hloose hnew rfl hnone hbefore
  have hstart := run_settled hskip hloose hnew hbefore
  rw [Lib.run_append] at hsettled
  generalize outputs (step e) (new e) (calls ++ [.feed text true now metadata]) = commits at *
  generalize Lib.run (fun c call => (step e c call).1) (new e) calls = c at *
  -- the final packet
  obtain ⟨hraw', -⟩ := (step_settled hskip hloose hstart _ hlast.1).2 hopen
  have hfinal : (step e c (.feed text true now metadata)).1.Closed ∧
      (step e c (.feed text true now metadata)).1.plainBuffer = [] ∧
      (step e c (.feed text true now metadata)).1.terminatorBuffer = [] := by
    cases hon : e.config.enabled with
    | true => exact feed_final hopen hon text now metadata
    | false =>
        obtain ⟨h₁, h₂, h₃, -⟩ := hsettled.disabled hon
        exact ⟨h₁, h₂, h₃⟩
  have hdraw : (step e c (.feed text true now metadata)).1.raw = calls.flatMap Call.text ++ text := by
    rw [hraw', hraw]
    rfl
  rw [List.nil_append, Lib.run_cons, Lib.run_nil] at hsettled
  generalize (step e c (.feed text true now metadata)).1 = d at *
  obtain ⟨hc, hplain, hterm⟩ := hfinal
  have htiles := hsettled.inv.core.tiles
  rw [layout, hsettled.inv.core.tail_of_closed hc, hplain, hterm, hsettled.outbox, hdraw] at htiles
  simp only [run_nil, List.append_nil] at htiles
  intro i hi hnot
  have hcount := htiles.countP_eq_one hi hnot
  rw [List.countP_map] at hcount
  exact hcount

end

/-- The space behind a number that the timer has closed is committed once, with the next packet. -/
theorem committed_once_greeting :
    (outputs (step asciiEnv) (new asciiEnv) [.feed "no. 3".toList false 0 {}, .poll 500,
      .feed " *ok*".toList true 600 {}]).countP (fun t => t.rawStart ≤ 5 ∧ 5 < t.rawEnd) = 1 :=
  committed_once asciiEnv [.feed "no. 3".toList false 0 {}, .poll 500] (by decide) " *ok*".toList 600 {}
    (by decide +kernel) 5 (by decide +kernel) (by decide +kernel)

/-- The space that a leading parenthesis took is lost when the parenthesis is rolled back. -/
theorem rolled_back_paren_loses_space :
    ¬ ∀ i < "( a".toList.length, ¬ Skippable asciiData "( a".toList i →
      (outputs (step asciiEnv) (new asciiEnv) [.feed "( a".toList true 0 {}]).countP
        (fun t => t.rawStart ≤ i ∧ i < t.rawEnd) = 1 := by
  decide +kernel

end Committer

end StreamingTts.Frontend
