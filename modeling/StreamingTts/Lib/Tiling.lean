import Mathlib.Data.List.Basic

/-!
# Pieces of a source

A component that cuts a growing source into pieces says of each piece where it came from. `Tiles`
is what makes such a cut sound up to a position: the pieces are as long as their intervals, lie
behind one another, hold the text of their interval (if `exact`), and leave out only positions that
may be skipped. The rules say how the cut changes when its last piece is opened, grown, split or
shrunk, when a position is skipped, and when the source grows.
-/

namespace StreamingTts.Lib

/-- A piece of text and the interval of the source it is said to come from. -/
structure Piece (α : Type _) where
  start : Nat
  stop : Nat
  text : List α

/-- The interval of the piece holds the position. -/
def Piece.Holds {α : Type _} (p : Piece α) (i : Nat) : Prop := p.start ≤ i ∧ i < p.stop

/-- The pieces cut the source up to `pos`. -/
structure Tiles {α : Type _} (src : List α) (exact : Prop) (skip : Nat → Prop) (ps : List (Piece α))
    (pos : Nat) : Prop where
  long : ∀ p ∈ ps, p.start + p.text.length = p.stop
  text : exact → ∀ p ∈ ps, p.text <+: src.drop p.start
  ordered : ps.Pairwise fun p q => p.stop ≤ q.start
  bounded : ∀ p ∈ ps, p.stop ≤ pos
  within : pos ≤ src.length
  covered : ∀ i, i < pos → skip i ∨ ∃ p ∈ ps, p.Holds i

section
variable {α : Type _} {src : List α} {exact : Prop} {skip : Nat → Prop} {ps : List (Piece α)}
  {pos : Nat}

theorem Tiles.nil : Tiles src exact skip [] 0 :=
  ⟨fun _ h => (by cases h), fun _ _ h => (by cases h), .nil, fun _ h => (by cases h), Nat.zero_le _,
    fun _ h => (by cases h)⟩

/-- The source grows. -/
theorem Tiles.source (h : Tiles src exact skip ps pos) (more : List α) {skip' : Nat → Prop}
    (hskip : ∀ i, i < pos → skip i → skip' i) : Tiles (src ++ more) exact skip' ps pos where
  long := h.long
  text := fun he p hp =>
    (h.text he p hp).trans (by rw [List.drop_append]; exact List.prefix_append _ _)
  ordered := h.ordered
  bounded := h.bounded
  within := by rw [List.length_append]; exact Nat.le_add_right_of_le h.within
  covered := fun i hi => (h.covered i hi).imp_left (hskip i hi)

/-- A position is skipped. -/
theorem Tiles.pass (h : Tiles src exact skip ps pos) (hlt : pos < src.length) (hskip : skip pos) :
    Tiles src exact skip ps (pos + 1) where
  long := h.long
  text := h.text
  ordered := h.ordered
  bounded := fun p hp => Nat.le_succ_of_le (h.bounded p hp)
  within := hlt
  covered := fun i hi => by
    rcases Nat.lt_succ_iff_lt_or_eq.1 hi with hi | rfl
    · exact h.covered i hi
    · exact .inl hskip

/-- The next symbols become a piece of their own. -/
theorem Tiles.snocText (h : Tiles src exact skip ps pos) (t : List α)
    (hfit : pos + t.length ≤ src.length) (htext : exact → t <+: src.drop pos) :
    Tiles src exact skip (ps ++ [⟨pos, pos + t.length, t⟩]) (pos + t.length) where
  long := by
    intro p hp
    rcases List.mem_append.1 hp with hp | hp
    · exact h.long p hp
    · obtain rfl := List.mem_singleton.1 hp
      rfl
  text := by
    intro he p hp
    rcases List.mem_append.1 hp with hp | hp
    · exact h.text he p hp
    · obtain rfl := List.mem_singleton.1 hp
      exact htext he
  ordered := by
    refine List.pairwise_append.2 ⟨h.ordered, List.pairwise_singleton _ _, fun p hp q hq => ?_⟩
    obtain rfl := List.mem_singleton.1 hq
    exact h.bounded p hp
  bounded := by
    intro p hp
    rcases List.mem_append.1 hp with hp | hp
    · exact Nat.le_add_right_of_le (h.bounded p hp)
    · obtain rfl := List.mem_singleton.1 hp
      exact Nat.le_refl _
  within := hfit
  covered := by
    intro i hi
    rcases Nat.lt_or_ge i pos with hlt | hge
    · exact (h.covered i hlt).imp_right fun ⟨p, hp, hpi⟩ => ⟨p, List.mem_append_left _ hp, hpi⟩
    · exact .inr ⟨_, List.mem_append_right _ (List.mem_singleton.2 rfl), hge, hi⟩

/-- The next symbol becomes a piece of its own. -/
theorem Tiles.snoc (h : Tiles src exact skip ps pos) (c : α) (hlt : pos < src.length)
    (hc : exact → src[pos]? = some c) :
    Tiles src exact skip (ps ++ [⟨pos, pos + 1, [c]⟩]) (pos + 1) := by
  refine h.snocText [c] hlt fun he => ?_
  have hget := hc he
  rw [List.getElem?_eq_getElem hlt, Option.some.injEq] at hget
  rw [List.drop_eq_getElem_cons hlt, hget]
  exact ⟨src.drop (pos + 1), rfl⟩

/-- Two pieces that meet are one. -/
theorem Tiles.join {a b c : Nat} {t u : List α}
    (h : Tiles src exact skip (ps ++ [⟨a, b, t⟩, ⟨b, c, u⟩]) pos) :
    Tiles src exact skip (ps ++ [⟨a, c, t ++ u⟩]) pos := by
  have ht : a + t.length = b := h.long ⟨a, b, t⟩ (by simp)
  have hu : b + u.length = c := h.long ⟨b, c, u⟩ (by simp)
  obtain ⟨hps, -, hcross⟩ := List.pairwise_append.1 h.ordered
  refine ⟨?_, ?_, ?_, ?_, h.within, ?_⟩
  · intro p hp
    rcases List.mem_append.1 hp with hp | hp
    · exact h.long p (List.mem_append_left _ hp)
    · obtain rfl := List.mem_singleton.1 hp
      simp only [List.length_append]
      omega
  · intro he p hp
    rcases List.mem_append.1 hp with hp | hp
    · exact h.text he p (List.mem_append_left _ hp)
    · obtain rfl := List.mem_singleton.1 hp
      obtain ⟨rest, hrest⟩ := h.text he ⟨a, b, t⟩ (by simp)
      obtain ⟨rest', hrest'⟩ := h.text he ⟨b, c, u⟩ (by simp)
      have hdrop : src.drop b = rest := by
        rw [← ht, ← List.drop_drop, ← hrest, List.drop_left]
      exact ⟨rest', by rw [List.append_assoc, hrest', hdrop, hrest]⟩
  · refine List.pairwise_append.2 ⟨hps, List.pairwise_singleton _ _, fun p hp q hq => ?_⟩
    obtain rfl := List.mem_singleton.1 hq
    exact hcross p hp ⟨a, b, t⟩ (by simp)
  · intro p hp
    rcases List.mem_append.1 hp with hp | hp
    · exact h.bounded p (List.mem_append_left _ hp)
    · obtain rfl := List.mem_singleton.1 hp
      exact h.bounded ⟨b, c, u⟩ (by simp)
  · intro i hi
    rcases h.covered i hi with hs | ⟨p, hp, hpi⟩
    · exact .inl hs
    · refine .inr ?_
      rcases List.mem_append.1 hp with hp | hp
      · exact ⟨p, List.mem_append_left _ hp, hpi⟩
      · refine ⟨⟨a, c, t ++ u⟩, by simp, ?_⟩
        simp only [List.mem_cons, List.not_mem_nil, or_false] at hp
        rcases hp with rfl | rfl
        · exact ⟨hpi.1, by have := hpi.2; simp only at this ⊢; omega⟩
        · exact ⟨by have := hpi.1; simp only at this ⊢; omega, hpi.2⟩

/-- The last piece takes the next symbol. -/
theorem Tiles.grow {a : Nat} {t : List α} (h : Tiles src exact skip (ps ++ [⟨a, pos, t⟩]) pos)
    (c : α) (hlt : pos < src.length) (hc : exact → src[pos]? = some c) :
    Tiles src exact skip (ps ++ [⟨a, pos + 1, t ++ [c]⟩]) (pos + 1) := by
  have hsnoc := h.snoc c hlt hc
  rw [List.append_assoc] at hsnoc
  exact hsnoc.join

/-- The last piece is cut in two. -/
theorem Tiles.split {a b : Nat} {t u : List α}
    (h : Tiles src exact skip (ps ++ [⟨a, b, t ++ u⟩]) pos) :
    Tiles src exact skip (ps ++ [⟨a, a + t.length, t⟩, ⟨a + t.length, b, u⟩]) pos := by
  have hlong : a + (t ++ u).length = b := h.long ⟨a, b, t ++ u⟩ (by simp)
  rw [List.length_append] at hlong
  have hb : b ≤ pos := h.bounded ⟨a, b, t ++ u⟩ (by simp)
  obtain ⟨hps, -, hcross⟩ := List.pairwise_append.1 h.ordered
  have hbefore : ∀ p ∈ ps, p.stop ≤ a := fun p hp => hcross p hp ⟨a, b, t ++ u⟩ (by simp)
  refine ⟨?_, ?_, ?_, ?_, h.within, ?_⟩
  · intro p hp
    rcases List.mem_append.1 hp with hp | hp
    · exact h.long p (List.mem_append_left _ hp)
    · simp only [List.mem_cons, List.not_mem_nil, or_false] at hp
      rcases hp with rfl | rfl
      · rfl
      · simp only; omega
  · intro he p hp
    rcases List.mem_append.1 hp with hp | hp
    · exact h.text he p (List.mem_append_left _ hp)
    · obtain ⟨rest, hrest⟩ := h.text he ⟨a, b, t ++ u⟩ (by simp)
      simp only [List.mem_cons, List.not_mem_nil, or_false] at hp
      rcases hp with rfl | rfl
      · exact ⟨u ++ rest, by rw [← List.append_assoc, hrest]⟩
      · refine ⟨rest, ?_⟩
        simp only
        rw [← List.drop_drop, ← hrest, List.append_assoc, List.drop_left]
  · refine List.pairwise_append.2 ⟨hps, ?_, fun p hp q hq => ?_⟩
    · simp
    · simp only [List.mem_cons, List.not_mem_nil, or_false] at hq
      have := hbefore p hp
      rcases hq with rfl | rfl
      · exact this
      · simp only; omega
  · intro p hp
    rcases List.mem_append.1 hp with hp | hp
    · exact h.bounded p (List.mem_append_left _ hp)
    · simp only [List.mem_cons, List.not_mem_nil, or_false] at hp
      rcases hp with rfl | rfl
      · simp only; omega
      · exact hb
  · intro i hi
    rcases h.covered i hi with hs | ⟨p, hp, hpi⟩
    · exact .inl hs
    · refine .inr ?_
      rcases List.mem_append.1 hp with hp | hp
      · exact ⟨p, List.mem_append_left _ hp, hpi⟩
      · obtain rfl := List.mem_singleton.1 hp
        rcases Nat.lt_or_ge i (a + t.length) with hlt | hge
        · exact ⟨⟨a, a + t.length, t⟩, by simp, hpi.1, hlt⟩
        · exact ⟨⟨a + t.length, b, u⟩, by simp, hge, hpi.2⟩

/-- The last piece is cut back and the position with it, where what is left out may be skipped. -/
theorem Tiles.cut {a b : Nat} {t u : List α} (h : Tiles src exact skip (ps ++ [⟨a, b, t ++ u⟩]) pos)
    {q : Nat} (hle : a + t.length ≤ q) (hq : q ≤ pos) (hskip : ∀ i, a + t.length ≤ i → i < q → skip i) :
    Tiles src exact skip (ps ++ [⟨a, a + t.length, t⟩]) q := by
  have hsplit := h.split
  have hmem : ∀ p ∈ ps ++ [⟨a, a + t.length, t⟩],
      p ∈ ps ++ [⟨a, a + t.length, t⟩, ⟨a + t.length, b, u⟩] := by
    intro p hp
    rcases List.mem_append.1 hp with hp | hp
    · exact List.mem_append_left _ hp
    · obtain rfl := List.mem_singleton.1 hp
      simp
  obtain ⟨hps, -, hcross⟩ := List.pairwise_append.1 hsplit.ordered
  have hbefore : ∀ p ∈ ps, p.stop ≤ a := fun p hp => hcross p hp ⟨a, a + t.length, t⟩ (by simp)
  refine ⟨fun p hp => hsplit.long p (hmem p hp), fun he p hp => hsplit.text he p (hmem p hp), ?_, ?_,
    Nat.le_trans hq h.within, ?_⟩
  · refine List.pairwise_append.2 ⟨hps, List.pairwise_singleton _ _, fun p hp q hq => ?_⟩
    obtain rfl := List.mem_singleton.1 hq
    exact hbefore p hp
  · intro p hp
    rcases List.mem_append.1 hp with hp | hp
    · have := hbefore p hp
      omega
    · obtain rfl := List.mem_singleton.1 hp
      exact hle
  · intro i hi
    rcases hsplit.covered i (by omega) with hs | ⟨p, hp, hpi⟩
    · exact .inl hs
    · rcases List.mem_append.1 hp with hp | hp
      · exact .inr ⟨p, List.mem_append_left _ hp, hpi⟩
      · simp only [List.mem_cons, List.not_mem_nil, or_false] at hp
        rcases hp with rfl | rfl
        · exact .inr ⟨_, List.mem_append_right _ (List.mem_singleton.2 rfl), hpi⟩
        · exact .inl (hskip i hpi.1 hi)

/-- The last piece is said to hold another text of the same length, which it may only if no text has
to be exact. -/
theorem Tiles.retext {a b : Nat} {t u : List α} (h : Tiles src exact skip (ps ++ [⟨a, b, t⟩]) pos)
    (hlen : u.length = t.length) (hexact : exact → u = t) :
    Tiles src exact skip (ps ++ [⟨a, b, u⟩]) pos := by
  have hlong : a + t.length = b := h.long ⟨a, b, t⟩ (by simp)
  obtain ⟨hps, -, hcross⟩ := List.pairwise_append.1 h.ordered
  refine ⟨?_, ?_, ?_, ?_, h.within, ?_⟩
  · intro p hp
    rcases List.mem_append.1 hp with hp | hp
    · exact h.long p (List.mem_append_left _ hp)
    · obtain rfl := List.mem_singleton.1 hp
      simp only
      omega
  · intro he
    rw [hexact he]
    exact h.text he
  · refine List.pairwise_append.2 ⟨hps, List.pairwise_singleton _ _, fun p hp q hq => ?_⟩
    obtain rfl := List.mem_singleton.1 hq
    exact hcross p hp ⟨a, b, t⟩ (by simp)
  · intro p hp
    rcases List.mem_append.1 hp with hp | hp
    · exact h.bounded p (List.mem_append_left _ hp)
    · obtain rfl := List.mem_singleton.1 hp
      exact h.bounded ⟨a, b, t⟩ (by simp)
  · intro i hi
    refine (h.covered i hi).imp_right fun ⟨p, hp, hpi⟩ => ?_
    rcases List.mem_append.1 hp with hp | hp
    · exact ⟨p, List.mem_append_left _ hp, hpi⟩
    · obtain rfl := List.mem_singleton.1 hp
      exact ⟨⟨a, b, u⟩, by simp, hpi⟩

/-- The last piece is given up, where its positions may be skipped. -/
theorem Tiles.unsnoc {p : Piece α} (h : Tiles src exact skip (ps ++ [p]) pos)
    (hskip : ∀ i, p.Holds i → skip i) : Tiles src exact skip ps pos where
  long := fun q hq => h.long q (List.mem_append_left _ hq)
  text := fun he q hq => h.text he q (List.mem_append_left _ hq)
  ordered := (List.pairwise_append.1 h.ordered).1
  bounded := fun q hq => h.bounded q (List.mem_append_left _ hq)
  within := h.within
  covered := by
    intro i hi
    rcases h.covered i hi with hs | ⟨q, hq, hqi⟩
    · exact .inl hs
    · rcases List.mem_append.1 hq with hq | hq
      · exact .inr ⟨q, hq, hqi⟩
      · obtain rfl := List.mem_singleton.1 hq
        exact .inl (hskip i hqi)

/-- A piece that holds the text of its interval is the slice of the source there. -/
theorem Tiles.slice (h : Tiles src exact skip ps pos) (he : exact) {p : Piece α} (hp : p ∈ ps) :
    p.text = (src.drop p.start).take (p.stop - p.start) := by
  have hlen : p.text.length = p.stop - p.start := by
    have := h.long p hp
    omega
  rw [← hlen]
  exact List.prefix_iff_eq_take.1 (h.text he p hp)

/-- Pieces that lie behind one another never share a position. -/
theorem countP_holds_le_one (h : ps.Pairwise fun p q => p.stop ≤ q.start) (i : Nat) :
    ps.countP (fun p => p.start ≤ i ∧ i < p.stop) ≤ 1 := by
  induction ps with
  | nil => exact Nat.zero_le _
  | cons p ps ih =>
      obtain ⟨hp, hps⟩ := List.pairwise_cons.1 h
      rw [List.countP_cons]
      split
      · next hpi =>
        have hrest : ps.countP (fun q => q.start ≤ i ∧ i < q.stop) = 0 := by
          refine List.countP_eq_zero.2 fun q hq => ?_
          have := hp q hq
          simp only [decide_eq_true_eq] at hpi ⊢
          omega
        omega
      · have := ih hps
        omega

/-- A position that may not be skipped lies in exactly one piece. -/
theorem Tiles.countP_eq_one (h : Tiles src exact skip ps pos) {i : Nat} (hi : i < pos)
    (hskip : ¬ skip i) : ps.countP (fun p => p.start ≤ i ∧ i < p.stop) = 1 := by
  obtain ⟨p, hp, hpi⟩ := (h.covered i hi).resolve_left hskip
  have hpos : 0 < ps.countP (fun p => p.start ≤ i ∧ i < p.stop) :=
    List.countP_pos_iff.2 ⟨p, hp, decide_eq_true (show p.start ≤ i ∧ i < p.stop from hpi)⟩
  have hle := countP_holds_le_one h.ordered i
  omega

end

end StreamingTts.Lib
