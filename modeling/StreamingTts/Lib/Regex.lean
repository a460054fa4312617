import Mathlib.Data.List.Basic

/-!
# Regular expressions over character classes

The patterns of the lexers are regular expressions whose atoms are classes of characters, some of
them as large as the decimal digits of Unicode. A text is matched by taking derivatives, one
character at a time; `Matches` is the meaning of an expression as a set of texts, and
`fullmatch_iff` ties the two together.
-/

namespace StreamingTts.Lib

/-- A regular expression whose atoms are classes of symbols. -/
inductive Regex (α : Type _)
  | none
  | eps
  | cls (p : α → Bool)
  | seq (r s : Regex α)
  | alt (r s : Regex α)
  | star (r : Regex α)

namespace Regex

variable {α : Type _}

/-- The texts an expression describes. -/
inductive Matches : Regex α → List α → Prop
  | eps : Matches .eps []
  | cls {p : α → Bool} {c : α} (h : p c = true) : Matches (.cls p) [c]
  | seq {r s : Regex α} {t u : List α} (hr : Matches r t) (hs : Matches s u) :
      Matches (.seq r s) (t ++ u)
  | altL {r s : Regex α} {t : List α} (h : Matches r t) : Matches (.alt r s) t
  | altR {r s : Regex α} {t : List α} (h : Matches s t) : Matches (.alt r s) t
  | starNil {r : Regex α} : Matches (.star r) []
  | starCons {r : Regex α} {t u : List α} (h : Matches r t) (hs : Matches (.star r) u) :
      Matches (.star r) (t ++ u)

/-- Whether an expression describes the empty text. -/
def nullable : Regex α → Bool
  | .none => false
  | .eps => true
  | .cls _ => false
  | .seq r s => nullable r && nullable s
  | .alt r s => nullable r || nullable s
  | .star _ => true

/-- What may follow `c` in the texts of an expression. -/
def deriv (c : α) : Regex α → Regex α
  | .none => .none
  | .eps => .none
  | .cls p => if p c then .eps else .none
  | .seq r s => if nullable r then .alt (.seq (deriv c r) s) (deriv c s) else .seq (deriv c r) s
  | .alt r s => .alt (deriv c r) (deriv c s)
  | .star r => .seq (deriv c r) (.star r)

/-- The whole text matches (`re.fullmatch`). -/
def fullmatch (r : Regex α) : List α → Bool
  | [] => r.nullable
  | c :: t => (r.deriv c).fullmatch t

/-- The length of the longest prefix that matches; the greedy patterns it is used for find it. -/
def matchLength (r : Regex α) : List α → Option Nat
  | [] => if r.nullable then some 0 else Option.none
  | c :: t =>
      match (r.deriv c).matchLength t with
      | some n => some (n + 1)
      | Option.none => if r.nullable then some 0 else Option.none

/-- A prefix of the text matches (`re.match`). -/
def matchesPrefix (r : Regex α) (t : List α) : Bool := (r.matchLength t).isSome

/-- Some part of the text matches (`re.search`). -/
def search (r : Regex α) (t : List α) : Bool := t.tails.any r.matchesPrefix

/-- Some suffix of the text matches (`re.search` of a pattern anchored at the end). -/
def searchEnd (r : Regex α) (t : List α) : Bool := t.tails.any r.fullmatch

/-! ## Derived forms -/

/-- One expression after the other. -/
def seqs : List (Regex α) → Regex α
  | [] => .eps
  | [r] => r
  | r :: rs => .seq r (seqs rs)

/-- One of the expressions. -/
def alts : List (Regex α) → Regex α
  | [] => .none
  | [r] => r
  | r :: rs => .alt r (alts rs)

def opt (r : Regex α) : Regex α := .alt r .eps

def plus (r : Regex α) : Regex α := .seq r (.star r)

/-- Exactly `n` times. -/
def times (r : Regex α) : Nat → Regex α
  | 0 => .eps
  | n + 1 => .seq r (times r n)

/-- At most `n` times. -/
def upTo (r : Regex α) : Nat → Regex α
  | 0 => .eps
  | n + 1 => opt (.seq r (upTo r n))

/-- Between `m` and `n` times. -/
def between (r : Regex α) (m n : Nat) : Regex α := .seq (times r m) (upTo r (n - m))

/-- At least `n` times. -/
def atLeast (r : Regex α) (n : Nat) : Regex α := .seq (times r n) (.star r)

/-- A fixed text. -/
def text [BEq α] (t : List α) : Regex α := seqs (t.map fun c => .cls (· == c))

/-- One symbol of a list. -/
def oneOf [BEq α] (cs : List α) : Regex α := .cls cs.contains

/-! ## Matching by derivatives -/

theorem nullable_iff (r : Regex α) : r.nullable = true ↔ Matches r [] := by
  induction r with
  | none => exact ⟨fun h => (by cases h), fun h => (by cases h)⟩
  | eps => exact ⟨fun _ => .eps, fun _ => rfl⟩
  | cls p => exact ⟨fun h => (by cases h), fun h => (by cases h)⟩
  | seq r s ihr ihs =>
      simp only [nullable, Bool.and_eq_true, ihr, ihs]
      constructor
      · intro h
        exact .seq h.1 h.2
      · intro h
        generalize ht : ([] : List α) = t at h
        cases h with
        | seq hr hs =>
            obtain ⟨rfl, rfl⟩ := List.append_eq_nil_iff.1 ht.symm
            exact ⟨hr, hs⟩
  | alt r s ihr ihs =>
      simp only [nullable, Bool.or_eq_true, ihr, ihs]
      constructor
      · intro h
        rcases h with h | h
        · exact .altL h
        · exact .altR h
      · intro h
        cases h with
        | altL h => exact .inl h
        | altR h => exact .inr h
  | star r _ => exact ⟨fun _ => .starNil, fun _ => rfl⟩

/-- A repetition of a text that starts with `c` starts with a repetition that does. -/
theorem Matches.star_cons {r : Regex α} {c : α} {t : List α} (h : Matches (.star r) (c :: t)) :
    ∃ u v, t = u ++ v ∧ Matches r (c :: u) ∧ Matches (.star r) v := by
  generalize hs : Regex.star r = s at h
  generalize ht : c :: t = w at h
  induction h with
  | starNil => cases ht
  | @starCons r' t' u' hr hs' _ ih =>
      cases hs
      cases t' with
      | nil => exact ih rfl ht
      | cons d t' =>
          obtain ⟨rfl, rfl⟩ := List.cons.inj ht
          exact ⟨t', u', rfl, hr, hs'⟩
  | _ => cases hs

theorem deriv_iff (c : α) (r : Regex α) (t : List α) :
    Matches (r.deriv c) t ↔ Matches r (c :: t) := by
  induction r generalizing t with
  | none => exact ⟨fun h => (by cases h), fun h => (by cases h)⟩
  | eps => exact ⟨fun h => (by cases h), fun h => (by cases h)⟩
  | cls p =>
      simp only [deriv]
      constructor
      · intro h
        split at h
        · next hp => cases h; exact .cls hp
        · cases h
      · intro h
        cases h with
        | cls hp => rw [if_pos hp]; exact .eps
  | seq r s ihr ihs =>
      have hseq : Matches (.seq (r.deriv c) s) t ↔
          ∃ u v, t = u ++ v ∧ Matches r (c :: u) ∧ Matches s v := by
        constructor
        · intro h
          cases h with
          | seq hr hs => exact ⟨_, _, rfl, (ihr _).1 hr, hs⟩
        · rintro ⟨u, v, rfl, hr, hs⟩
          exact .seq ((ihr u).2 hr) hs
      have hcons : Matches (.seq r s) (c :: t) ↔
          (∃ u v, t = u ++ v ∧ Matches r (c :: u) ∧ Matches s v) ∨
            (Matches r [] ∧ Matches s (c :: t)) := by
        constructor
        · intro h
          generalize hw : c :: t = w at h
          cases h with
          | @seq _ _ t' u' hr hs =>
              cases t' with
              | nil =>
                  have hw' : c :: t = u' := hw
                  exact .inr ⟨hr, hw' ▸ hs⟩
              | cons d t' =>
                  obtain ⟨rfl, rfl⟩ := List.cons.inj hw
                  exact .inl ⟨t', u', rfl, hr, hs⟩
        · rintro (⟨u, v, rfl, hr, hs⟩ | ⟨hr, hs⟩)
          · exact .seq hr hs
          · exact .seq hr hs
      rw [hcons, ← nullable_iff]
      simp only [deriv]
      split
      · next hn =>
        constructor
        · intro h
          cases h with
          | altL h => exact .inl (hseq.1 h)
          | altR h => exact .inr ⟨hn, (ihs t).1 h⟩
        · rintro (h | ⟨-, h⟩)
          · exact .altL (hseq.2 h)
          · exact .altR ((ihs t).2 h)
      · next hn =>
        rw [hseq]
        exact ⟨.inl, fun h => h.resolve_right fun h' => hn h'.1⟩
  | alt r s ihr ihs =>
      constructor
      · intro h
        cases h with
        | altL h => exact .altL ((ihr t).1 h)
        | altR h => exact .altR ((ihs t).1 h)
      · intro h
        cases h with
        | altL h => exact .altL ((ihr t).2 h)
        | altR h => exact .altR ((ihs t).2 h)
  | star r ih =>
      constructor
      · intro h
        cases h with
        | seq hr hs => exact .starCons ((ih _).1 hr) hs
      · intro h
        obtain ⟨u, v, rfl, hr, hs⟩ := h.star_cons
        exact .seq ((ih u).2 hr) hs

/-- Matching by derivatives finds the texts of the expression. -/
theorem fullmatch_iff (r : Regex α) (t : List α) : r.fullmatch t = true ↔ Matches r t := by
  induction t generalizing r with
  | nil => exact nullable_iff r
  | cons c t ih => exact (ih (r.deriv c)).trans (deriv_iff c r t)

/-! ## What a match consists of -/

/-- The length found is that of a prefix the expression describes. -/
theorem matchLength_some {r : Regex α} {t : List α} {n : Nat} (h : r.matchLength t = some n) :
    n ≤ t.length ∧ Matches r (t.take n) := by
  induction t generalizing r n with
  | nil =>
      unfold matchLength at h
      split at h
      · next hn =>
        cases h
        exact ⟨Nat.le_refl _, (nullable_iff r).1 hn⟩
      · cases h
  | cons c t ih =>
      unfold matchLength at h
      split at h
      · next m hm =>
        cases h
        obtain ⟨hle, hmatch⟩ := ih hm
        exact ⟨Nat.succ_le_succ hle, (deriv_iff c r _).1 hmatch⟩
      · split at h
        · next hn =>
          cases h
          exact ⟨Nat.zero_le _, (nullable_iff r).1 hn⟩
        · cases h

/-- A length is found where the expression describes a prefix. -/
theorem matchLength_isSome {r : Regex α} {p t : List α} (h : Matches r p) :
    (r.matchLength (p ++ t)).isSome = true := by
  induction p generalizing r with
  | nil =>
      have hn := (nullable_iff r).2 h
      cases t with
      | nil => simp [matchLength, hn]
      | cons c t =>
          rw [List.nil_append, matchLength]
          split
          · rfl
          · rw [if_pos hn]
            rfl
  | cons c p ih =>
      rw [List.cons_append, matchLength]
      obtain ⟨n, hn⟩ := Option.isSome_iff_exists.1 (ih ((deriv_iff c r p).2 h))
      rw [hn]
      rfl

/-- Every class of an expression is inside `P`. -/
def Over (P : α → Prop) : Regex α → Prop
  | .none => True
  | .eps => True
  | .cls p => ∀ c, p c = true → P c
  | .seq r s => Over P r ∧ Over P s
  | .alt r s => Over P r ∧ Over P s
  | .star r => Over P r

/-- The symbols of a match are in the classes of the expression. -/
theorem Matches.over {P : α → Prop} {r : Regex α} {t : List α} (h : Matches r t) (hr : Over P r) :
    ∀ c ∈ t, P c := by
  induction h with
  | eps => exact fun c hc => by cases hc
  | cls hp =>
      intro c hc
      rw [List.mem_singleton.1 hc]
      exact hr _ hp
  | seq _ _ ih₁ ih₂ =>
      intro c hc
      rcases List.mem_append.1 hc with hc | hc
      · exact ih₁ hr.1 c hc
      · exact ih₂ hr.2 c hc
  | altL _ ih => exact ih hr.1
  | altR _ ih => exact ih hr.2
  | starNil => exact fun c hc => by cases hc
  | starCons _ _ ih₁ ih₂ =>
      intro c hc
      rcases List.mem_append.1 hc with hc | hc
      · exact ih₁ hr c hc
      · exact ih₂ hr c hc

/-- The texts of an expression start with a symbol of `P`. -/
def StartsIn (P : α → Prop) (r : Regex α) : Prop := ∀ t, Matches r t → ∃ c u, t = c :: u ∧ P c

theorem startsIn_cls (p : α → Bool) : StartsIn (p · = true) (.cls p) := by
  intro t h
  cases h with
  | cls hp => exact ⟨_, _, rfl, hp⟩

theorem StartsIn.seq {P : α → Prop} {r : Regex α} (h : StartsIn P r) (s : Regex α) :
    StartsIn P (.seq r s) := by
  intro t hmatch
  cases hmatch with
  | seq hr hs =>
      obtain ⟨c, u, rfl, hc⟩ := h _ hr
      exact ⟨c, _, List.cons_append, hc⟩

/-- One symbol of a class is a repetition of it. -/
theorem matches_plus_cls {p : α → Bool} {c : α} (h : p c = true) : Matches (plus (.cls p)) [c] :=
  .seq (.cls h) .starNil

/-- What is optional may be left out. -/
theorem Matches.seq_opt {r : Regex α} {t : List α} (h : Matches r t) (s : Regex α) :
    Matches (.seq r (opt s)) t := by
  have := Matches.seq h (.altR (r := s) .eps)
  rwa [List.append_nil] at this

end Regex

end StreamingTts.Lib
