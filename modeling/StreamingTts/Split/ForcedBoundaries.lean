import StreamingTts.Split.Runs

/-!
# Forced boundaries

A boundary that an input operation asks for is a position of the text, a cut: the number of tokens fed
before it. While the tokens around a cut wait in the queue, the flags of `Flagged` tell where it is;
every change of the queue keeps them, planning it again included. Once the cut is at the end of what
was emitted, the flag or the end of the active segment bars the next token from joining it. So no
segment has tokens on both sides of a cut (`forced_boundaries_honoured`).
-/

namespace StreamingTts.Split

open Lib

section
variable {F : Type}

/-! ## The flags of the queue -/

/-- There is a forced boundary after the first `c` tokens of the queue. -/
inductive Flagged : List (PendingToken F) → Nat → Prop
  | before {pt : PendingToken F} {rest : List (PendingToken F)} :
      pt.boundaryBefore = true → Flagged (pt :: rest) 0
  | after {pt : PendingToken F} {rest : List (PendingToken F)} :
      pt.boundary = true → pt.forcedBoundary = true → Flagged (pt :: rest) 1
  | later {pt : PendingToken F} {rest : List (PendingToken F)} {c : Nat} :
      Flagged rest c → Flagged (pt :: rest) (c + 1)

variable {pending rest : List (PendingToken F)} {c : Nat}

/-- Tokens that join the queue behind a boundary leave it where it is. -/
theorem Flagged.append (h : Flagged pending c) (more : List (PendingToken F)) :
    Flagged (pending ++ more) c := by
  induction h with
  | before hb => exact .before hb
  | after hb hf => exact .after hb hf
  | later _ ih => exact .later ih

/-- Tokens before a boundary move it. -/
theorem Flagged.prepend (h : Flagged rest c) (pending : List (PendingToken F)) :
    Flagged (pending ++ rest) (pending.length + c) := by
  induction pending with
  | nil =>
      rw [List.nil_append, List.length_nil, Nat.zero_add]
      exact h
  | cons pt pending ih =>
      rw [List.length_cons, Nat.add_right_comm]
      exact .later ih

/-- Where the boundaries are if no forced boundary lies inside the tokens at the head of the queue. -/
theorem Flagged.unforced {begun : Prop} {taken : List (PendingToken F)}
    (h : Flagged (taken ++ rest) c) (hunforced : Unforced begun taken) :
    (c = 0 ∧ taken ≠ [] ∧ ¬ begun) ∨ (c = taken.length ∧ ∃ pt ∈ taken, pt.boundary = true) ∨
      ∃ c', c = taken.length + c' ∧ Flagged rest c' := by
  induction taken generalizing begun c with
  | nil => exact .inr (.inr ⟨c, by simp, h⟩)
  | cons pt taken ih =>
      cases h with
      | before hb =>
          refine .inl ⟨rfl, by simp, ?_⟩
          intro hbegun
          have := hunforced.1 hbegun pt rfl
          rw [hb] at this
          cases this
      | after hb _ =>
          cases taken with
          | nil => exact .inr (.inl ⟨rfl, pt, List.mem_cons_self, hb⟩)
          | cons a taken =>
              have := hunforced.2.2 pt (by simp)
              rw [hb] at this
              cases this
      | later h =>
          rcases ih h hunforced.tail with ⟨-, -, hfalse⟩ | ⟨hc, pt', hpt', hb⟩ | ⟨c', hc, hrest⟩
          · exact absurd trivial hfalse
          · exact .inr (.inl ⟨by rw [hc, List.length_cons], pt', List.mem_cons_of_mem _ hpt', hb⟩)
          · refine .inr (.inr ⟨c', ?_, hrest⟩)
            rw [hc, List.length_cons]
            omega

/-- The second token has the forced boundaries of the first one. -/
structure PendingToken.Grown (a b : PendingToken F) : Prop where
  before : a.boundaryBefore = true → b.boundaryBefore = true
  after : a.boundary = true → a.forcedBoundary = true →
    b.boundary = true ∧ b.forcedBoundary = true

theorem PendingToken.Grown.refl (a : PendingToken F) : a.Grown a := ⟨id, fun hb hf => ⟨hb, hf⟩⟩

theorem Flagged.grown {pending' : List (PendingToken F)} (h : Flagged pending c)
    (hg : List.Forall₂ PendingToken.Grown pending pending') : Flagged pending' c := by
  induction hg generalizing c with
  | nil => exact h
  | cons hab _ ih =>
      cases h with
      | before hb => exact .before (hab.before hb)
      | after hb hf => exact .after (hab.after hb hf).1 (hab.after hb hf).2
      | later h => exact .later (ih h)

/-! ## Marks -/

theorem markBefore_grown (pt : PendingToken F) : pt.Grown (Spliter.markBefore pt) :=
  ⟨fun _ => rfl, fun hb hf => ⟨hb, hf⟩⟩

theorem markAfter_grown (pt : PendingToken F) : pt.Grown (Spliter.markAfter pt) :=
  ⟨id, fun _ _ => ⟨rfl, rfl⟩⟩

section
variable {mark : PendingToken F → PendingToken F}

/-- A mark on a token leaves the boundaries there are. -/
theorem Flagged.setMark (hmark : ∀ pt, PendingToken.Grown pt (mark pt)) (h : Flagged pending c)
    (i : Int) : Flagged (Spliter.setMark mark pending i) c := by
  have hmodify : ∀ n, Flagged (pending.modify n mark) c := by
    intro n
    induction h generalizing n with
    | before hb =>
        cases n with
        | zero => exact .before ((hmark _).before hb)
        | succ n => exact .before hb
    | after hb hf =>
        cases n with
        | zero => exact .after ((hmark _).after hb hf).1 ((hmark _).after hb hf).2
        | succ n => exact .after hb hf
    | later h ih =>
        cases n with
        | zero => exact .later h
        | succ n => exact .later (ih n)
  unfold Spliter.setMark
  split
  · exact hmodify _
  · exact h

theorem Flagged.setMarks (hmark : ∀ pt, PendingToken.Grown pt (mark pt)) (h : Flagged pending c)
    (is : List Int) : Flagged (is.foldl (Spliter.setMark mark) pending) c := by
  induction is generalizing pending with
  | nil => exact h
  | cons i is ih => exact ih (h.setMark hmark i)

theorem flagged_modify {offset n : Nat}
    (hnew : ∀ (pt : PendingToken F) rest, Flagged (mark pt :: rest) offset) (hlt : n < pending.length) :
    Flagged (pending.modify n mark) (n + offset) := by
  induction pending generalizing n with
  | nil => exact absurd hlt (Nat.not_lt_zero n)
  | cons pt pending ih =>
      cases n with
      | zero =>
          rw [Nat.zero_add]
          exact hnew pt pending
      | succ n =>
          rw [Nat.add_right_comm]
          exact .later (ih (Nat.lt_of_succ_lt_succ hlt))

theorem length_setMark (pending : List (PendingToken F)) (i : Int) :
    (Spliter.setMark mark pending i).length = pending.length := by
  unfold Spliter.setMark
  split
  · exact List.length_modify _ _ _
  · rfl

theorem length_setMarks (pending : List (PendingToken F)) (is : List Int) :
    (is.foldl (Spliter.setMark mark) pending).length = pending.length := by
  induction is generalizing pending with
  | nil => rfl
  | cons i is ih => exact (ih _).trans (length_setMark pending i)

/-- A mark that makes a boundary of a token makes one of every token of a list of indices. -/
theorem flagged_setMarks (hmark : ∀ pt, PendingToken.Grown pt (mark pt)) {offset : Nat}
    (hnew : ∀ (pt : PendingToken F) rest, Flagged (mark pt :: rest) offset) {is : List Int} {n : Nat}
    (hn : (n : Int) ∈ is) (hlt : n < pending.length) :
    Flagged (is.foldl (Spliter.setMark mark) pending) (n + offset) := by
  induction is generalizing pending with
  | nil => exact absurd hn List.not_mem_nil
  | cons i is ih =>
      rcases List.mem_cons.1 hn with hi | hmem
      · refine Flagged.setMarks hmark ?_ is
        unfold Spliter.setMark
        rw [← hi, if_pos ⟨Int.natCast_nonneg n, Int.ofNat_lt.2 hlt⟩]
        exact flagged_modify hnew hlt
      · exact ih hmem (by rw [length_setMark]; exact hlt)

end

/-! ## The cuts an operation asks for -/

/-- The indices of a list that are those of one of `n` tokens. -/
def indicesBelow (n : Nat) (is : List Int) : List Nat :=
  (is.filter fun i : Int => decide (0 ≤ i ∧ i < n)).map Int.toNat

theorem mem_indicesBelow {n j : Nat} {is : List Int} (h : j ∈ indicesBelow n is) :
    (j : Int) ∈ is ∧ j < n := by
  obtain ⟨i, hi, rfl⟩ := List.mem_map.1 h
  obtain ⟨hmem, hbounds⟩ := List.mem_filter.1 hi
  rw [decide_eq_true_eq] at hbounds
  rw [Int.toNat_of_nonneg hbounds.1]
  exact ⟨hmem, by omega⟩

/-- The boundaries that two lists of indices ask for among `n` tokens: after the tokens of the one and
before those of the other. -/
def indexCuts (after before : List Int) (n : Nat) : List Nat :=
  indicesBelow n before ++ (indicesBelow n after).map (· + 1)

/-- The boundaries that the arguments of an input operation ask for among its `n` tokens. -/
def BoundaryMarks.cuts (m : BoundaryMarks) (n : Nat) : List Nat :=
  (if m.forceBoundaryBefore = true ∧ 0 < n then [0] else [])
    ++ (if m.forceBoundary = true ∧ 0 < n then [n] else [])
    ++ indexCuts m.forceBoundaryIndices m.forceBoundaryBeforeIndices n

theorem flagged_markBefore (pt : PendingToken F) (rest : List (PendingToken F)) :
    Flagged (Spliter.markBefore pt :: rest) 0 := .before rfl

theorem flagged_markAfter (pt : PendingToken F) (rest : List (PendingToken F)) :
    Flagged (Spliter.markAfter pt :: rest) 1 := .after rfl rfl

/-- The marks of two lists of indices, in the one order or the other. -/
theorem flagged_indexCuts {after before : List Int} {j : Nat}
    (hj : j ∈ indexCuts after before pending.length) :
    Flagged (after.foldl (Spliter.setMark Spliter.markAfter)
        (before.foldl (Spliter.setMark Spliter.markBefore) pending)) j ∧
      Flagged (before.foldl (Spliter.setMark Spliter.markBefore)
        (after.foldl (Spliter.setMark Spliter.markAfter) pending)) j := by
  rcases List.mem_append.1 hj with hj | hj
  · obtain ⟨hmem, hlt⟩ := mem_indicesBelow hj
    refine ⟨(flagged_setMarks markBefore_grown flagged_markBefore hmem hlt).setMarks
      markAfter_grown after, ?_⟩
    exact flagged_setMarks markBefore_grown flagged_markBefore hmem (by rwa [length_setMarks])
  · obtain ⟨i, hi, rfl⟩ := List.mem_map.1 hj
    obtain ⟨hmem, hlt⟩ := mem_indicesBelow hi
    refine ⟨?_, (flagged_setMarks markAfter_grown flagged_markAfter hmem hlt).setMarks
      markBefore_grown before⟩
    exact flagged_setMarks markAfter_grown flagged_markAfter hmem (by rwa [length_setMarks])

/-- Without tokens there is nothing to cut. -/
theorem cuts_zero (m : BoundaryMarks) : m.cuts 0 = [] := by
  have hnone : ∀ is, indicesBelow 0 is = [] := by
    intro is
    refine List.eq_nil_iff_forall_not_mem.2 fun j hj => ?_
    exact absurd (mem_indicesBelow hj).2 (Nat.not_lt_zero j)
  simp [BoundaryMarks.cuts, indexCuts, hnone]

/-- The boundary arguments of an input operation set the flags of their cuts. -/
theorem applyMarks_flagged {m : BoundaryMarks} {j : Nat} (hj : j ∈ m.cuts pending.length) :
    Flagged (Spliter.applyMarks m pending) j := by
  -- the indices are marked last, so they keep the flags of the two other arguments
  have hindices : ∀ {added : List (PendingToken F)} {c : Nat}, Flagged added c →
      Flagged (m.forceBoundaryIndices.foldl (Spliter.setMark Spliter.markAfter)
        (m.forceBoundaryBeforeIndices.foldl (Spliter.setMark Spliter.markBefore) added)) c := by
    intro added c h
    exact (h.setMarks markBefore_grown _).setMarks markAfter_grown _
  unfold Spliter.applyMarks
  simp only
  generalize hfirst : (if m.forceBoundaryBefore = true then
    Spliter.setMark Spliter.markBefore pending 0 else pending) = first
  generalize hsecond : (if m.forceBoundary = true then
    Spliter.setMark Spliter.markAfter first ((first.length : Int) - 1) else first) = second
  have hlenFirst : first.length = pending.length := by
    rw [← hfirst]
    split
    · exact length_setMark _ _
    · rfl
  have hlenSecond : second.length = pending.length := by
    rw [← hsecond, ← hlenFirst]
    split
    · exact length_setMark _ _
    · rfl
  unfold BoundaryMarks.cuts at hj
  rcases List.mem_append.1 hj with hj | hj
  · rcases List.mem_append.1 hj with hj | hj
    · split at hj
      · next hbefore =>
        cases List.mem_singleton.1 hj
        refine hindices ?_
        have hflag : Flagged first 0 := by
          rw [← hfirst, if_pos hbefore.1]
          unfold Spliter.setMark
          rw [if_pos ⟨le_refl _, Int.natCast_pos.2 hbefore.2⟩]
          have hmodify := flagged_modify flagged_markBefore hbefore.2
          exact hmodify
        rw [← hsecond]
        split
        · exact hflag.setMark markAfter_grown _
        · exact hflag
      · cases hj
    · split at hj
      · next hafter =>
        cases List.mem_singleton.1 hj
        refine hindices ?_
        obtain ⟨n, hn⟩ : ∃ n, pending.length = n + 1 := ⟨pending.length - 1, by omega⟩
        rw [← hsecond, if_pos hafter.1]
        unfold Spliter.setMark
        rw [hlenFirst, hn, if_pos (by omega)]
        have hindex : (((n + 1 : Nat) : Int) - 1).toNat = n := by omega
        rw [hindex]
        exact flagged_modify flagged_markAfter (by omega)
      · cases hj
  · rw [← hlenSecond] at hj
    exact (flagged_indexCuts hj).1

/-! ## Planning the queue again -/

/-- The marks carried over are those of the old tokens. -/
theorem keepMarks_grown {olds news : List (PendingToken F)} (hlen : news.length = olds.length) :
    List.Forall₂ PendingToken.Grown olds (keepMarks olds news) := by
  induction olds generalizing news with
  | nil =>
      cases news with
      | nil => exact .nil
      | cons => cases hlen
  | cons old olds ih =>
      cases news with
      | nil => cases hlen
      | cons new news =>
          refine .cons ⟨id, fun _ hf => ⟨?_, hf⟩⟩ (ih (Nat.succ.inj hlen))
          show (old.forcedBoundary || new.boundary) = true
          rw [hf, Bool.true_or]

theorem rekey_grown (plan : PresplitPlan F) (key : Nat) (group : List (PendingToken F)) :
    List.Forall₂ PendingToken.Grown group (rekey plan key group) := by
  induction group with
  | nil => exact .nil
  | cons pt pts ih =>
      refine .cons ⟨id, fun _ hf => ⟨?_, hf⟩⟩ ih
      show (pts.isEmpty || pt.forcedBoundary) = true
      rw [hf, Bool.or_true]

theorem regroup_grown {plan : PresplitPlan F} {key : Nat} {group block : List (PendingToken F)}
    {res : List (PendingToken F) × Nat} (h : regroup plan key group block = .ok res) :
    List.Forall₂ PendingToken.Grown (group ++ block) res.1 := by
  induction block generalizing key group res with
  | nil =>
      unfold regroup at h
      cases group with
      | nil =>
          cases h
          exact .nil
      | cons => cases h
  | cons pt block ih =>
      unfold regroup at h
      rw [List.append_cons]
      split at h
      · exact ih h
      · obtain ⟨more, hmore, hres⟩ := bind_eq_ok.1 h
        cases hres
        exact List.rel_append (rekey_grown plan key _) (ih hmore)

section
variable [DecidableEq F] {live : PresplitPlan F}

omit [DecidableEq F] in
theorem replanBlock_grown {old : PresplitPlan F} {planId key : Nat} {block : List (PendingToken F)}
    {res : List (PendingToken F) × Nat} (hlive : 1 ≤ live.cap)
    (h : replanBlock live old planId key block = .ok res) :
    List.Forall₂ PendingToken.Grown block res.1 := by
  unfold replanBlock at h
  split at h
  · obtain ⟨news, key', hok, -, -, htokens⟩ :=
      buildPlannedPending_queue { live with id := planId } (block.map (·.token)) key hlive
    rw [hok] at h
    cases h
    refine keepMarks_grown ?_
    have hlen := congrArg List.length htokens
    rw [tokensOf, List.length_map, List.length_map] at hlen
    exact hlen
  · exact regroup_grown h

/-- The re-planner keeps the forced boundaries of the queue. -/
theorem replan_grown {turns planId key : Nat} {res : List (PendingToken F) × Nat × Nat}
    (hlive : 1 ≤ live.cap) (h : replan live turns planId key pending = .ok res)
    (hturns : pending.length ≤ turns) : List.Forall₂ PendingToken.Grown pending res.1 := by
  induction turns generalizing planId key pending res with
  | zero =>
      cases List.eq_nil_of_length_eq_zero (Nat.le_zero.1 hturns)
      cases h
      exact .nil
  | succ turns ih =>
      cases pending with
      | nil =>
          cases h
          exact .nil
      | cons head pending =>
          unfold replan at h
          split at h
          · obtain ⟨more, hmore, hres⟩ := bind_eq_ok.1 h
            cases hres
            exact .cons (PendingToken.Grown.refl head) (ih hmore (Nat.le_of_succ_le_succ hturns))
          · cases h
          · next old hkey hplan =>
            have hhead : PendingToken.inPacket old head = true := by
              simp [PendingToken.inPacket, hkey, hplan]
            have hshorter : ((head :: pending).dropWhile
                (PendingToken.inPacket old)).length ≤ turns := by
              rw [List.dropWhile_cons_of_pos hhead]
              have := (List.dropWhile_sublist (l := pending) (PendingToken.inPacket old)).length_le
              simp only [List.length_cons] at hturns
              omega
            obtain ⟨built, hbuilt, h⟩ := bind_eq_ok.1 h
            obtain ⟨more, hmore, hres⟩ := bind_eq_ok.1 h
            cases hres
            have happend : List.Forall₂ PendingToken.Grown
                ((head :: pending).takeWhile (PendingToken.inPacket old)
                  ++ (head :: pending).dropWhile (PendingToken.inPacket old)) (built.1 ++ more.1) :=
              List.rel_append (replanBlock_grown hlive hbuilt) (ih hmore hshorter)
            rwa [List.takeWhile_append_dropWhile] at happend

end

/-! ## Segments apart from a cut -/

/-- No segment lies on both sides of the cut `k`, for segments of the given lengths in a row. -/
def Apart (lens : List Nat) (k : Nat) : Prop :=
  ∀ older n newer, lens = older ++ n :: newer → k ≤ older.sum ∨ older.sum + n ≤ k

theorem Apart.of_le {lens : List Nat} {k : Nat} (h : lens.sum ≤ k) : Apart lens k := by
  intro older n newer hlens
  rw [hlens, List.sum_append, List.sum_cons] at h
  exact .inr (by omega)

/-- One more segment. -/
theorem apart_snoc {lens : List Nat} {n k : Nat} :
    Apart (lens ++ [n]) k ↔ Apart lens k ∧ (k ≤ lens.sum ∨ lens.sum + n ≤ k) := by
  constructor
  · intro h
    refine ⟨fun older m newer hlens => h older m (newer ++ [n]) ?_, h lens n [] rfl⟩
    rw [hlens, List.append_assoc, List.cons_append]
  · rintro ⟨hold, hlast⟩ older m newer hlens
    rcases List.eq_nil_or_concat newer with rfl | ⟨newer', a, rfl⟩
    · obtain ⟨rfl, heq⟩ := List.append_inj' hlens rfl
      cases heq
      exact hlast
    · have hsplit : lens ++ [n] = (older ++ m :: newer') ++ [a] := by
        rw [hlens]
        simp
      obtain ⟨hlens', -⟩ := List.append_inj' hsplit rfl
      exact hold older m newer' hlens'

/-- The lengths of segments. -/
def lengths (segs : List SegmentLog) : List Nat := segs.map (·.tokens.length)

theorem lengths_snoc (segs : List SegmentLog) (seg : SegmentLog) :
    lengths (segs ++ [seg]) = lengths segs ++ [seg.tokens.length] := by
  simp [lengths]

theorem sum_lengths (segs : List SegmentLog) : (lengths segs).sum = (emittedTokens segs).length := by
  simp [lengths, emittedTokens, List.length_flatMap]

/-- No segment is open, or the one that is gets none of the queue and is about to be closed. -/
def Barred (s : Spliter F) : Prop :=
  s.activeDriverIdx = none ∨
    (s.inputComplete = true ∧ ∀ pt ∈ s.pending.head?, pt.groupKey ≠ none)

/-- The splitter, which has emitted segments of the given lengths, honours the cut `k`. -/
structure Honoured (s : Spliter F) (lens : List Nat) (k : Nat) : Prop where
  apart : Apart lens k
  waits : lens.sum ≤ k → Flagged s.pending (k - lens.sum) ∨ (k = lens.sum ∧ Barred s)

variable {s s' : Spliter F} {segs segs₀ : List SegmentLog} {seg : SegmentLog} {base k : Nat}
  {out : List SegmentAction} {taken : List (PendingToken F)} {flushed : Bool}

/-- A cut at the end of what was emitted stays honoured while the newest segment takes its turn: it is
empty when the turn begins, or it takes nothing and is closed. -/
def Yields (seg : SegmentLog) (taken : List (PendingToken F)) (flushed : Bool) : Prop :=
  (seg.tokens = [] ∧ taken ≠ []) ∨ (taken = [] ∧ flushed = true)

/-- The turn of the newest segment honours a cut. -/
theorem Advanced.honoured (h : Advanced s s' segs₀ seg base out taken flushed)
    (hunforced : Unforced (0 < seg.tokens.length) taken)
    (hopen : flushed = false → ∀ pt ∈ taken, pt.boundary = false)
    (hapart : Apart (lengths (segs₀ ++ [seg])) k)
    (hwaits : (lengths (segs₀ ++ [seg])).sum ≤ k →
      Flagged s.pending (k - (lengths (segs₀ ++ [seg])).sum) ∨
        (k = (lengths (segs₀ ++ [seg])).sum ∧ Yields seg taken flushed)) :
    Honoured s' (lengths (segs₀ ++ [seg.took taken flushed])) k := by
  have htook : lengths (segs₀ ++ [seg.took taken flushed])
      = lengths segs₀ ++ [seg.tokens.length + taken.length] := by
    rw [lengths_snoc]
    simp [SegmentLog.took, tokensOf]
  rw [lengths_snoc] at hapart hwaits
  rw [htook]
  obtain ⟨hold, hlast⟩ := apart_snoc.1 hapart
  simp only [List.sum_append, List.sum_singleton] at hwaits
  have hclosed : flushed = true → Barred s' := by
    rintro rfl
    exact .inl h.active
  -- the new segment, and what the next one sees of the cut
  suffices hnew : (k ≤ (lengths segs₀).sum ∨
        (lengths segs₀).sum + (seg.tokens.length + taken.length) ≤ k) ∧
      ((lengths segs₀).sum + (seg.tokens.length + taken.length) ≤ k →
        Flagged s'.pending (k - ((lengths segs₀).sum + (seg.tokens.length + taken.length))) ∨
          (k = (lengths segs₀).sum + (seg.tokens.length + taken.length) ∧ Barred s')) by
    refine ⟨apart_snoc.2 ⟨hold, hnew.1⟩, ?_⟩
    rw [List.sum_append, List.sum_singleton]
    exact hnew.2
  rcases Nat.lt_or_ge k ((lengths segs₀).sum + seg.tokens.length) with hlt | hge
  · refine ⟨.inl ?_, fun hle => ?_⟩ <;> omega
  rcases hwaits hge with hflag | ⟨heq, hyields⟩
  · rw [h.pending] at hflag
    rcases hflag.unforced hunforced with ⟨hc, hne, hbegun⟩ | ⟨hc, pt, hpt, hb⟩ | ⟨c', hc, hrest⟩
    · have hpos := List.length_pos_iff.2 hne
      refine ⟨.inl ?_, fun hle => ?_⟩ <;> omega
    · refine ⟨.inr (by omega), fun _ => .inr ⟨by omega, hclosed ?_⟩⟩
      cases hf : flushed with
      | true => rfl
      | false =>
          have := hopen hf pt hpt
          rw [hb] at this
          cases this
    · refine ⟨.inr (by omega), fun _ => .inl ?_⟩
      have hrest' : k - ((lengths segs₀).sum + (seg.tokens.length + taken.length)) = c' := by
        omega
      rw [hrest']
      exact hrest
  · rcases hyields with ⟨hnil, hne⟩ | ⟨rfl, hf⟩
    · have hpos := List.length_pos_iff.2 hne
      rw [hnil, List.length_nil] at heq ⊢
      refine ⟨.inl ?_, fun hle => ?_⟩ <;> omega
    · rw [List.length_nil, Nat.add_zero]
      exact ⟨.inr hge, fun _ => .inr ⟨heq, hclosed hf⟩⟩

/-! ## What a segment takes in its turn -/

theorem Unforced.cons {begun : Prop} {pt : PendingToken F} {toks : List (PendingToken F)}
    (hbefore : begun → pt.boundaryBefore = false) (hafter : pt.boundary = false)
    (h : Unforced True toks) : Unforced begun (pt :: toks) := by
  refine ⟨fun hbegun pt' hpt' => ?_, ?_, ?_⟩
  · cases hpt'
    exact hbefore hbegun
  · intro pt' hpt'
    cases toks with
    | nil => cases hpt'
    | cons a toks =>
        rcases List.mem_cons.1 hpt' with rfl | hmem
        · exact h.1 trivial pt' rfl
        · exact h.2.1 pt' hmem
  · intro pt' hpt'
    cases toks with
    | nil => cases hpt'
    | cons a toks =>
        rw [List.dropLast_cons_of_ne_nil (by simp)] at hpt'
        rcases List.mem_cons.1 hpt' with rfl | hmem
        · exact hafter
        · exact h.2.2 pt' hmem

theorem unforced_nil {begun : Prop} : Unforced begun ([] : List (PendingToken F)) :=
  ⟨fun _ _ hpt => (nomatch hpt), fun _ hpt => (nomatch hpt), fun _ hpt => (nomatch hpt)⟩

theorem unforced_singleton {begun : Prop} {pt : PendingToken F}
    (h : begun → pt.boundaryBefore = false) : Unforced begun [pt] := by
  refine ⟨fun hbegun pt' hpt' => ?_, fun _ hpt => (nomatch hpt), fun _ hpt => (nomatch hpt)⟩
  cases hpt'
  exact h hbegun

section
variable {entry : SegmentEntry F} {idx n : Nat} {d : StreamingDriver}

/-- `END` closes the segment of a turn that has taken a token. -/
theorem endTurn_flushes {turn : SegmentTurn F} (h : Ready turn.driver n) (hn : 0 < n) :
    (entry.endTurn idx turn).out.any (·.action.isFlush) = true := by
  obtain ⟨a, hacts, ha⟩ := entry.actions_flush idx none
  unfold SegmentEntry.endTurn
  simp only [(h.feed_end hn).1, hacts, List.any_append, List.any_cons, ha.isFlush, Bool.true_or,
    Bool.or_true]

/-- No forced boundary lies inside the tokens that a turn takes, and the segment stays open only if
none of them has a boundary after it. -/
theorem feedPending_unforced (entry : SegmentEntry F) (idx : Nat) (pending : List (PendingToken F))
    (h : Ready d n) :
    ∃ taken, pending = taken ++ (entry.feedPending idx d pending).pending ∧
      Unforced (0 < n) taken ∧
      ((entry.feedPending idx d pending).out.any (·.action.isFlush) = false →
        ∀ pt ∈ taken, pt.boundary = false) := by
  induction pending generalizing d n with
  | nil => exact ⟨[], rfl, unforced_nil, fun _ _ hpt => (nomatch hpt)⟩
  | cons pt rest ih =>
      unfold SegmentEntry.feedPending
      split
      · exact ⟨[], rfl, unforced_nil, fun _ _ hpt => (nomatch hpt)⟩
      split
      · exact ⟨[], rfl, unforced_nil, fun _ _ hpt => (nomatch hpt)⟩
      · next hbefore =>
        have hbegun : 0 < n → pt.boundaryBefore = false := by
          intro hn
          rw [Bool.eq_false_iff]
          intro hb
          rw [h.tokenCount] at hbefore
          exact hbefore ⟨hb, Int.natCast_pos.2 hn⟩
        have htext : (entry.actions idx (some pt.token)
            [⟨textType n, pt.token.tokenId⟩]).any (·.action.isFlush) = false := by
          rw [entry.actions_text]
          exact textActions_noFlush (entry.stamp idx) n [pt.token]
        rcases h.feed pt.token with ⟨-, hresults, -⟩ | ⟨-, hresults, -, hready⟩
        · -- the driver closes the segment
          have hflush : (d.feed (makeEvent pt.token)).2.any (·.isFlush) = true := by
            rw [hresults]
            simp [ActionResult.isFlush]
          simp only [hflush, if_true]
          refine ⟨[pt], rfl, unforced_singleton hbegun, fun hopen => ?_⟩
          obtain ⟨a, hacts, ha⟩ := entry.actions_flush idx (some pt.token)
          rw [hresults, ← List.singleton_append, entry.actions_append, hacts, List.any_append,
            List.any_cons, ha.isFlush, Bool.true_or, Bool.or_true] at hopen
          cases hopen
        · have hflush : (d.feed (makeEvent pt.token)).2.any (·.isFlush) = false := by
            rw [hresults]
            unfold textType
            split <;> rfl
          simp only [hflush]
          cases hb : pt.boundary with
          | true =>
              refine ⟨[pt], rfl, unforced_singleton hbegun, fun hopen => ?_⟩
              have hend : (entry.endTurn idx
                  ⟨entry.actions idx (some pt.token) (d.feed (makeEvent pt.token)).2,
                    (d.feed (makeEvent pt.token)).1, rest, none⟩).out.any (·.action.isFlush) = true :=
                endTurn_flushes hready (Nat.succ_pos n)
              have hboth : true = false := hend.symm.trans hopen
              cases hboth
          | false =>
              obtain ⟨taken, htaken, hunforced, hopen⟩ := ih hready
              refine ⟨pt :: taken, ?_, ?_, ?_⟩
              · rw [List.cons_append]
                exact congrArg (pt :: ·) htaken
              · exact Unforced.cons hbegun hb ⟨fun _ => hunforced.1 (Nat.succ_pos n), hunforced.2⟩
              · intro hnone pt' hpt'
                rcases List.mem_cons.1 hpt' with rfl | hmem
                · exact hb
                · refine hopen ?_ pt' hmem
                  have hboth : (entry.actions idx (some pt.token) (d.feed (makeEvent pt.token)).2
                      ++ (entry.feedPending idx (d.feed (makeEvent pt.token)).1 rest).out).any
                        (·.action.isFlush) = false := hnone
                  rw [List.any_append, Bool.or_eq_false_iff] at hboth
                  exact hboth.2

/-- The hand-off and the end of the input close the segment, and leave the queue as it is. -/
theorem closeTurn_keeps (entry : SegmentEntry F) (idx : Nat) (inputComplete : Bool)
    (turn : SegmentTurn F) :
    (entry.closeTurn idx inputComplete turn).pending = turn.pending ∧
      turn.out <+: (entry.closeTurn idx inputComplete turn).out := by
  have hend : ∀ turn : SegmentTurn F, (entry.endTurn idx turn).pending = turn.pending ∧
      turn.out <+: (entry.endTurn idx turn).out :=
    fun turn => ⟨rfl, List.prefix_append _ _⟩
  have hlast : ∀ handed : SegmentTurn F, handed.pending = turn.pending → turn.out <+: handed.out →
      (if handed.flushed.isNone ∧ inputComplete ∧ handed.pending.isEmpty then
          entry.endTurn idx handed else handed).pending = turn.pending ∧
        turn.out <+: (if handed.flushed.isNone ∧ inputComplete ∧ handed.pending.isEmpty then
          entry.endTurn idx handed else handed).out := by
    intro handed hpending hout
    split
    · exact ⟨(hend handed).1.trans hpending, hout.trans (hend handed).2⟩
    · exact ⟨hpending, hout⟩
  unfold SegmentEntry.closeTurn
  refine hlast _ ?_ ?_
  · split
    · split
      · exact (hend turn).1
      · rfl
    · rfl
  · split
    · split
      · exact (hend turn).2
      · exact List.prefix_refl _
    · exact List.prefix_refl _

/-- The end of a turn that closed its segment leaves the queue as it is. -/
theorem finalizeSegment_keeps (s : Spliter F) (entry : SegmentEntry F) (out : List SegmentAction)
    (exhausted : Bool) :
    (s.finalizeSegment entry out exhausted).2.pending = s.pending ∧
      (s.finalizeSegment entry out exhausted).1.any (·.action.isFlush)
        = out.any (·.action.isFlush) := by
  have hstamped : (out.map fun a =>
      { a with groupFinal := entry.groupKey.isNone || exhausted }).any (·.action.isFlush)
        = out.any (·.action.isFlush) := by
    rw [List.any_map]
    rfl
  unfold Spliter.finalizeSegment
  split
  · exact ⟨rfl, hstamped⟩
  · split
    · exact ⟨rfl, hstamped⟩
    · exact ⟨rfl, hstamped⟩

/-- What the turn of a segment leaves in the queue, and whether its actions close it. -/
theorem advanceSegment_turn (hlookup : s.segments.lookup idx = some entry)
    (hok : s.advanceSegment idx [] = .ok (out, s')) :
    s'.pending = (entry.turn idx s.inputComplete s.pending).pending ∧
      out.any (·.action.isFlush)
        = (entry.turn idx s.inputComplete s.pending).out.any (·.action.isFlush) := by
  unfold Spliter.advanceSegment at hok
  rw [hlookup] at hok
  simp only [List.nil_append] at hok
  split at hok
  · cases hok
    exact ⟨rfl, rfl⟩
  · next exhausted hflushed =>
    have hkeeps : ∀ (t : Spliter F) (acts : List SegmentAction),
        t.finalizeSegment entry acts exhausted = (out, s') →
        s'.pending = t.pending ∧ out.any (·.action.isFlush) = acts.any (·.action.isFlush) := by
      intro t acts heq
      have := finalizeSegment_keeps t entry acts exhausted
      rw [heq] at this
      exact this
    exact hkeeps _ _ (Except.ok.inj hok)

/-- No forced boundary lies inside the tokens that a segment took, and it stays open only if none of
them has a boundary after it. -/
theorem Advanced.unforced (h : Advanced s s' segs₀ seg base out taken flushed)
    (hlookup : s.segments.lookup segs₀.length = some entry)
    (hok : s.advanceSegment segs₀.length [] = .ok (out, s'))
    (hready : Ready entry.driver seg.tokens.length) :
    Unforced (0 < seg.tokens.length) taken ∧
      (flushed = false → ∀ pt ∈ taken, pt.boundary = false) := by
  obtain ⟨hpending, hany⟩ := advanceSegment_turn hlookup hok
  obtain ⟨hclosed, hout⟩ := closeTurn_keeps entry segs₀.length s.inputComplete
    (entry.feedPending segs₀.length entry.driver s.pending)
  obtain ⟨taken', htaken, hunforced, hopen⟩ :=
    feedPending_unforced entry segs₀.length s.pending hready
  have heq : taken' = taken := by
    have hboth := h.pending
    rw [hpending] at hboth
    unfold SegmentEntry.turn at hboth
    rw [hclosed] at hboth
    exact List.append_cancel_right (htaken.symm.trans hboth)
  subst heq
  refine ⟨hunforced, fun hf => hopen ?_⟩
  subst hf
  have hnone : out.any (·.action.isFlush) = false := by
    cases h.emits
    exact textActions_noFlush _ _ _
  rw [hany] at hnone
  obtain ⟨more, hmore⟩ := hout
  unfold SegmentEntry.turn at hnone
  rw [← hmore, List.any_append, Bool.or_eq_false_iff] at hnone
  exact hnone.1

end

/-! ## The loop -/

variable [RatioArith F]

/-- A turn of the loop honours the cuts honoured before it. -/
theorem Inv.driveOneSegment_honoured (h : Inv s segs base)
    (hturn : s.driveOneSegment = .ok (out, s')) :
    ∃ segs', Turned s s' segs segs' base out ∧
      ∀ k, Honoured s (lengths segs) k → Honoured s' (lengths segs') k := by
  unfold Spliter.driveOneSegment at hturn
  cases ha : s.activeDriverIdx with
  | some idx =>
      obtain ⟨segs₀, seg, out', s'', taken, flushed, rfl, hopen, hok, hadvanced, hkeys⟩ :=
        h.advance_active ha
      obtain ⟨segs₁, seg₁, entry, heq, rfl, -, -, hlookup, hentry⟩ := h.active_some ha
      obtain ⟨rfl, hseg⟩ := List.append_inj' heq rfl
      cases hseg
      rw [ha] at hturn
      rw [show s.advanceSegment segs₀.length [] = .ok (out, s') from hturn] at hok
      cases hok
      obtain ⟨hunforced, hboundary⟩ := hadvanced.unforced hlookup hturn hentry.ready
      refine ⟨_, hadvanced.turned_active hopen, fun k hk => ?_⟩
      refine hadvanced.honoured hunforced hboundary hk.apart fun hle => ?_
      refine (hk.waits hle).imp id fun hbarred => ⟨hbarred.1, .inr ?_⟩
      rcases hbarred.2 with hnone | ⟨hcomplete, hhead⟩
      · rw [ha] at hnone
        cases hnone
      · refine ⟨?_, ?_⟩
        · cases taken with
          | nil => rfl
          | cons pt taken =>
              rw [hadvanced.pending] at hhead
              exact absurd (hkeys pt List.mem_cons_self) (hhead pt rfl)
        · cases hf : flushed with
          | true => rfl
          | false =>
              have := (hadvanced.waits hf).2
              rw [hcomplete] at this
              cases this
  | none =>
      rw [ha] at hturn
      cases hpending : s.pending with
      | nil =>
          rw [hpending] at hturn
          cases hturn
          exact ⟨segs, Turned.refl h, fun _ hk => hk⟩
      | cons head tail =>
          rw [hpending] at hturn
          simp only at hturn
          split at hturn
          · cases hturn
            exact ⟨segs, Turned.refl h, fun _ hk => hk⟩
          · next hroom =>
            rcases h.open_spec ha hpending (not_le.1 hroom) with ⟨e, -, he⟩ | ⟨s₁, seg, entry, hopened, ho⟩
            · rw [he] at hturn
              cases hturn
            · obtain ⟨out', s'', taken, flushed, hok, hadvanced, -⟩ := ho.advance h hpending
              rw [hopened] at hturn
              have hadvance : s₁.advanceSegment segs.length [] = .ok (out, s') := hturn
              rw [hadvance] at hok
              cases hok
              obtain ⟨hunforced, hboundary⟩ :=
                hadvanced.unforced ho.lookup hadvance ho.opened.ready
              refine ⟨_, ho.turned h.next hadvanced, fun k hk => ?_⟩
              -- the segment that was opened has no token before its turn
              have hlens : lengths (segs ++ [seg]) = lengths segs ++ [0] := by
                rw [lengths_snoc, ho.fresh.1, List.length_nil]
              have hsum : (lengths (segs ++ [seg])).sum = (lengths segs).sum := by
                rw [hlens, List.sum_append, List.sum_singleton, Nat.add_zero]
              refine hadvanced.honoured hunforced hboundary ?_ fun hle => ?_
              · rw [hlens]
                exact apart_snoc.2 ⟨hk.apart, by omega⟩
              · rw [hsum] at hle ⊢
                rw [ho.pending]
                exact (hk.waits hle).imp id fun hbarred =>
                  ⟨hbarred.1, .inl ⟨ho.fresh.1, ho.took hadvanced⟩⟩

/-- The loop honours the cuts honoured before it. -/
theorem Inv.driveTurns_honoured (h : Inv s segs base) {turns : Nat}
    (hturns : s.driveTurns turns = .ok (out, s')) :
    ∃ segs', Turned s s' segs segs' base out ∧
      ∀ k, Honoured s (lengths segs) k → Honoured s' (lengths segs') k := by
  induction turns generalizing s segs out with
  | zero =>
      cases hturns
      exact ⟨segs, Turned.refl h, fun _ hk => hk⟩
  | succ turns ih =>
      unfold Spliter.driveTurns at hturns
      obtain ⟨⟨acts, mid⟩, hone, hturns⟩ := bind_eq_ok.1 hturns
      obtain ⟨segs', hturned, hhonoured⟩ := h.driveOneSegment_honoured hone
      cases acts with
      | nil =>
          cases hturns
          exact ⟨segs', hturned, hhonoured⟩
      | cons a acts =>
          obtain ⟨⟨more, last⟩, hmore, hres⟩ := bind_eq_ok.1 hturns
          cases hres
          obtain ⟨segs'', hturned', hhonoured'⟩ := ih hturned.inv hmore
          exact ⟨segs'', hturned.trans hturned', fun k hk => hhonoured' k (hhonoured k hk)⟩

/-! ## The operations -/

/-- The cuts after an operation, when `fed` tokens were fed before it and `queued` of them are in the
queue. Those of the tokens that `set_full_text` drops go with them. -/
def SpliterOp.cutsAfter (cuts : List Nat) (fed queued : Nat) : SpliterOp F → List Nat
  | .feedTokens tokens m => cuts ++ (m.cuts tokens.length).map (fed + ·)
  | .feedAuto tokens m => cuts ++ (m.cuts tokens.length).map (fed + ·)
  | .pushGroupTokens tokens m => cuts ++ (m.cuts tokens.length).map (fed + ·)
  | .setFullText tokens after before =>
      (cuts.filter fun k => decide (k ≤ fed - queued))
        ++ (indexCuts after before tokens.length).map (fed - queued + ·)
  | .reset => []
  | .inputDone => cuts
  | .onSegmentDone _ => cuts
  | .setDurationRatio _ => cuts
  | .observeSegment _ _ _ _ => cuts

section
variable {p : Spliter F} {lens : List Nat}

omit [RatioArith F] in
/-- An operation that keeps the boundaries of the queue and opens no segment honours a cut. -/
theorem Honoured.kept (hk : Honoured s lens k) (hquiet : Quiescent s)
    (hactive : s.activeDriverIdx = none → p.activeDriverIdx = none)
    (hflags : ∀ c, Flagged s.pending c → Flagged p.pending c) : Honoured p lens k := by
  refine ⟨hk.apart, fun hle => ?_⟩
  refine (hk.waits hle).imp (hflags _) fun hbarred => ⟨hbarred.1, .inl (hactive ?_)⟩
  exact hbarred.2.elim id fun hcomplete => hquiet.closed hcomplete.1

omit [RatioArith F] in
/-- A boundary in the queue. -/
theorem honoured_of_flagged {c : Nat} (h : Flagged p.pending c) : Honoured p lens (lens.sum + c) := by
  refine ⟨Apart.of_le (Nat.le_add_right _ _), fun _ => .inl ?_⟩
  rw [Nat.add_sub_cancel_left]
  exact h

omit [RatioArith F] in
/-- Tokens that join the queue with their marks. -/
theorem honoured_enqueue {m : BoundaryMarks} {added : List (PendingToken F)} {n : Nat} {cuts : List Nat}
    (hlen : added.length = n) (hpending : p.pending = s.pending ++ Spliter.applyMarks m added)
    (hactive : p.activeDriverIdx = s.activeDriverIdx) (hquiet : Quiescent s)
    (hcuts : ∀ k ∈ cuts, Honoured s lens k) :
    ∀ k ∈ cuts ++ (m.cuts n).map (lens.sum + s.pending.length + ·), Honoured p lens k := by
  intro k hk
  rcases List.mem_append.1 hk with hk | hk
  · refine (hcuts k hk).kept hquiet (fun ha => hactive.trans ha) fun c hc => ?_
    rw [hpending]
    exact hc.append _
  · obtain ⟨j, hj, rfl⟩ := List.mem_map.1 hk
    rw [Nat.add_assoc]
    refine honoured_of_flagged ?_
    rw [hpending]
    rw [← hlen] at hj
    exact (applyMarks_flagged hj).prepend s.pending

omit [RatioArith F] in
/-- The tokens of planned groups have the keys of their groups. -/
theorem groupsPending_grouped {plan : PresplitPlan F} {groups : List (List SegmentToken)} {key : Nat}
    {res : List (PendingToken F) × Nat} (h : groupsPending plan key groups = .ok res) :
    ∀ pt ∈ res.1, pt.groupKey ≠ none := by
  have hgroup : ∀ (tokens : List SegmentToken) (key : Nat),
      ∀ pt ∈ groupPending plan key tokens, pt.groupKey ≠ none := by
    intro tokens key
    induction tokens with
    | nil => exact fun pt hpt => absurd hpt List.not_mem_nil
    | cons token tokens ih =>
        intro pt hpt
        cases tokens with
        | nil =>
            cases List.mem_singleton.1 hpt
            simp
        | cons token' tokens =>
            rcases List.mem_cons.1 hpt with rfl | hpt
            · simp
            · exact ih pt hpt
  induction groups generalizing key res with
  | nil =>
      cases h
      exact fun pt hpt => absurd hpt List.not_mem_nil
  | cons g groups ih =>
      unfold groupsPending at h
      split at h
      · exact ih h
      split at h
      · cases h
      · obtain ⟨more, hmore, hres⟩ := bind_eq_ok.1 h
        cases hres
        intro pt hpt
        rcases List.mem_append.1 hpt with hpt | hpt
        · exact hgroup g key pt hpt
        · exact ih hmore pt hpt

omit [RatioArith F] in
/-- Marks leave the tokens in their groups. -/
theorem marked_grouped {a b : List (PendingToken F)} (hm : List.Forall₂ PendingToken.Marked a b)
    (h : ∀ pt ∈ a, pt.groupKey ≠ none) : ∀ pt ∈ b, pt.groupKey ≠ none := by
  induction hm with
  | nil => exact h
  | cons hab _ ih =>
      obtain ⟨hhead, htail⟩ := List.forall_mem_cons.1 h
      refine List.forall_mem_cons.2 ⟨?_, ih htail⟩
      rw [hab.2.1]
      exact hhead

/-- Planned groups join the queue with their marks. -/
theorem enqueuePresplitGroups_eq {tokens : List SegmentToken} {m : BoundaryMarks}
    (h : s.enqueuePresplitGroups tokens m = .ok p) :
    ∃ added, added.length = tokens.length ∧ (∀ pt ∈ added, pt.groupKey ≠ none) ∧
      p.pending = s.pending ++ Spliter.applyMarks m added ∧
      p.activeDriverIdx = s.activeDriverIdx := by
  unfold Spliter.enqueuePresplitGroups Spliter.makePresplitPlan at h
  obtain ⟨planned, hplanned, h⟩ := bind_eq_ok.1 h
  obtain ⟨built, hbuilt, hres⟩ := bind_eq_ok.1 h
  obtain ⟨thresholds, hth, hplan⟩ := bind_eq_ok.1 hplanned
  cases hplan
  cases hres
  obtain ⟨pending, key, hok, -, -, htokens⟩ := buildPlannedPending_queue
    { id := s.nextPlanId, safetyRatio := s.ratios.safetyRatio, thresholds := thresholds } tokens
    s.nextGroupKey (computeThresholds_pos hth)
  have hkeys := groupsPending_grouped hbuilt
  rw [hok] at hbuilt
  cases hbuilt
  refine ⟨pending, ?_, hkeys, rfl, rfl⟩
  rw [← htokens, tokensOf, List.length_map]

/-- Planning the queue again keeps its forced boundaries. -/
theorem tighten_grown (h : s.tightenPendingPresplitPlans = .ok p) :
    List.Forall₂ PendingToken.Grown s.pending p.pending ∧ p.activeDriverIdx = s.activeDriverIdx := by
  have hsame : List.Forall₂ PendingToken.Grown s.pending s.pending :=
    List.forall₂_same.2 fun pt _ => PendingToken.Grown.refl pt
  unfold Spliter.tightenPendingPresplitPlans Spliter.makePresplitPlan at h
  split at h
  · cases h
    exact ⟨hsame, rfl⟩
  · obtain ⟨planned, hplanned, h⟩ := bind_eq_ok.1 h
    obtain ⟨thresholds, hth, hplan⟩ := bind_eq_ok.1 hplanned
    cases hplan
    simp only at h
    split at h
    · cases h
      exact ⟨hsame, rfl⟩
    · obtain ⟨rebuilt, hrebuilt, hres⟩ := bind_eq_ok.1 h
      cases hres
      have hcap : 1 ≤ PresplitPlan.cap
          { id := s.nextPlanId, safetyRatio := s.ratios.safetyRatio, thresholds := thresholds } :=
        computeThresholds_pos hth
      exact ⟨replan_grown hcap hrebuilt (Nat.le_refl _), rfl⟩

/-- Planning the queue again after a change of the ratios honours a cut. -/
theorem Honoured.tightened (hk : Honoured s lens k) (hquiet : Quiescent s)
    {ratios : SplitRatioController F}
    (h : ({ s with ratios := ratios } : Spliter F).tightenPendingPresplitPlans = .ok p) :
    Honoured p lens k := by
  obtain ⟨hgrown, hactive⟩ := tighten_grown h
  exact hk.kept hquiet (fun ha => hactive.trans ha) fun c hc => hc.grown hgrown

/-- What an operation does before it drives honours the cuts there were and those it asks for. -/
theorem Inv.prepare_honoured (h : Inv s segs base) (hquiet : Quiescent s) {cuts : List Nat}
    (hcuts : ∀ k ∈ cuts, Honoured s (lengths segs) k) {op : SpliterOp F}
    (hprepare : s.prepare op = .ok p) :
    ∀ k ∈ op.cutsAfter cuts ((lengths segs).sum + s.pending.length) s.pending.length,
      Honoured p (lengths (op.segsAfter segs)) k := by
  cases op with
  | feedTokens tokens marks =>
      cases hprepare
      exact honoured_enqueue (List.length_map _) rfl rfl hquiet hcuts
  | feedAuto tokens marks =>
      have henqueue : s.enqueueAuto tokens marks = .ok p := hprepare
      unfold Spliter.enqueueAuto at henqueue
      cases tokens with
      | nil =>
          cases henqueue
          intro k hk
          refine hcuts k ?_
          simpa [SpliterOp.cutsAfter, cuts_zero] using hk
      | cons token tokens =>
          obtain ⟨room, -, henqueue⟩ := bind_eq_ok.1 henqueue
          split at henqueue
          · obtain ⟨added, hlen, -, hpending, hactive⟩ := enqueuePresplitGroups_eq henqueue
            exact honoured_enqueue hlen hpending hactive hquiet hcuts
          · cases henqueue
            exact honoured_enqueue (List.length_map _) rfl rfl hquiet hcuts
  | pushGroupTokens tokens marks =>
      cases tokens with
      | nil =>
          cases hprepare
          intro k hk
          refine hcuts k ?_
          simpa [SpliterOp.cutsAfter, cuts_zero] using hk
      | cons token tokens =>
          obtain ⟨added, hlen, -, hpending, hactive⟩ := enqueuePresplitGroups_eq hprepare
          exact honoured_enqueue hlen hpending hactive hquiet hcuts
  | setFullText tokens after before =>
      have hreplace : s.replaceText tokens after before = .ok p := hprepare
      unfold Spliter.replaceText at hreplace
      obtain ⟨queued, hqueued, hres⟩ := bind_eq_ok.1 hreplace
      cases hres
      obtain ⟨added, hlen, hgroups, hpending, hactive⟩ := enqueuePresplitGroups_eq hqueued
      have hadded : queued.pending = added := hpending
      intro k hk
      have hfed : (lengths segs).sum + s.pending.length - s.pending.length = (lengths segs).sum :=
        Nat.add_sub_cancel _ _
      rcases List.mem_append.1 hk with hk | hk
      · obtain ⟨hk, hle⟩ := List.mem_filter.1 hk
        rw [decide_eq_true_eq, hfed] at hle
        refine ⟨(hcuts k hk).apart, fun hge => .inr ⟨le_antisymm hle hge, .inr ⟨rfl, ?_⟩⟩⟩
        -- a segment that is still open gets no token of the new groups
        rw [← hadded] at hgroups
        have hmarked := marked_trans (setMarks_marked markAfter_marked queued.pending after)
          (setMarks_marked markBefore_marked _ before)
        exact fun pt hpt => marked_grouped hmarked hgroups pt (List.mem_of_mem_head? hpt)
      · obtain ⟨j, hj, rfl⟩ := List.mem_map.1 hk
        rw [hfed]
        refine honoured_of_flagged ?_
        rw [← hlen, ← hadded] at hj
        exact (flagged_indexCuts hj).2
  | inputDone =>
      cases hprepare
      exact fun k hk => (hcuts k hk).kept hquiet id fun _ hc => hc
  | onSegmentDone idx =>
      cases hprepare
      refine fun k hk => (hcuts k hk).kept hquiet (fun ha => ?_) fun _ hc => hc
      cases ha' : (s.releaseSegment idx).activeDriverIdx with
      | none => rfl
      | some i =>
          obtain ⟨segs₀, seg, -, rfl, rfl, hopen, hdone, -⟩ := (h.releaseSegment idx).active_some ha'
          have hnotDone : segs₀.length ∉ s.done := fun hmem => hdone (Finset.mem_insert_of_mem hmem)
          have hlast : (segs₀ ++ [seg])[segs₀.length]? = some seg := by simp
          rw [h.active_of_taking hlast hopen hnotDone] at ha
          cases ha
  | setDurationRatio ratio =>
      have hset : s.setDurationRatio ratio = .ok p := hprepare
      unfold Spliter.setDurationRatio at hset
      obtain ⟨ratios, -, hset⟩ := bind_eq_ok.1 hset
      intro k hk
      split at hset
      · exact (hcuts k hk).tightened hquiet hset
      · cases hset
        exact (hcuts k hk).kept hquiet id fun _ hc => hc
  | observeSegment audioSteps textTokens outcome segmentIdx =>
      obtain ⟨seen, hseen, hres⟩ := bind_eq_ok.1 hprepare
      cases hres
      unfold Spliter.observeSegment at hseen
      simp only at hseen
      intro k hk
      split at hseen
      · next htightened =>
        obtain ⟨tightened, htighten, hres⟩ := bind_eq_ok.1 hseen
        cases hres
        exact (hcuts k hk).tightened hquiet htighten
      · cases hseen
        exact (hcuts k hk).kept hquiet id fun _ hc => hc
  | reset => exact fun k hk => absurd hk List.not_mem_nil

end

/-! ## Histories with their cuts -/

/-- A history of the splitter with the cuts its input asked for. -/
structure MarkedHistory (F : Type) where
  run : History F
  cuts : List Nat

/-- An operation, with the cuts it asks for. -/
def MarkedHistory.step (r : MarkedHistory F) (op : SpliterOp F) : Except String (MarkedHistory F) := do
  let run ← r.run.step op
  .ok { run := run, cuts := op.cutsAfter r.cuts r.run.fed.length r.run.state.pending.length }

/-- The invariant of such a history. -/
structure MarkedHistory.Ok (r : MarkedHistory F) (segs : List SegmentLog) : Prop where
  run : r.run.Ok segs
  honoured : ∀ k ∈ r.cuts, Honoured r.run.state (lengths segs) k

omit [RatioArith F] in
/-- The lengths of the segments, read off their actions. -/
theorem Emission.lengths_eq {acts : List SegmentAction} (h : Emission segs acts) :
    lengths segs = (List.range segs.length).map fun i => (textOf (actionsOf acts i)).length := by
  refine List.ext_getElem (by simp [lengths]) fun i hi hi' => ?_
  have hlt : i < segs.length := by
    rw [lengths, List.length_map] at hi
    exact hi
  have htext := (h.filter (List.getElem?_eq_getElem hlt)).text
  rw [List.getElem_map, List.getElem_range]
  unfold actionsOf
  rw [htext, List.length_map]
  exact List.getElem_map _

/-- An operation of the splitter honours the cuts there were and those it asks for. -/
theorem Inv.step_honoured (h : Inv s segs base) (hquiet : Quiescent s) {cuts : List Nat}
    (hcuts : ∀ k ∈ cuts, Honoured s (lengths segs) k) {op : SpliterOp F}
    (hstep : s.step op = .ok (out, s')) :
    ∃ segs', segs'.length = s'.nextSegmentIdx ∧
      (∀ acts, Emission (op.segsAfter segs) acts → Emission segs' (acts ++ out)) ∧
      ∀ k ∈ op.cutsAfter cuts ((lengths segs).sum + s.pending.length) s.pending.length,
        Honoured s' (lengths segs') k := by
  obtain ⟨p, hprepare, hdrive⟩ := bind_eq_ok.1 hstep
  have hbefore := h.prepare_honoured hquiet hcuts hprepare
  rcases h.prepare op with ⟨e, he, -⟩ | ⟨p', hok, hprepared⟩
  · rw [hprepare] at he
    cases he
  · rw [hprepare] at hok
    cases hok
    split at hdrive
    · obtain ⟨segs', hturned, hhonoured⟩ := hprepared.inv.driveTurns_honoured hdrive
      exact ⟨segs', hturned.inv.next.symm, hturned.emits, fun k hk => hhonoured k (hbefore k hk)⟩
    · cases hdrive
      refine ⟨_, hprepared.inv.next.symm, fun acts hacts => ?_, hbefore⟩
      rw [List.append_nil]
      exact hacts

/-- Every operation on such a history keeps the invariant. -/
theorem MarkedHistory.Ok.step {r r' : MarkedHistory F} (h : r.Ok segs) {op : SpliterOp F}
    (hstep : r.step op = .ok r') : ∃ segs', r'.Ok segs' := by
  obtain ⟨run, hrun, hmarked⟩ := bind_eq_ok.1 hstep
  cases hmarked
  rcases h.run.step op with ⟨e, he, -⟩ | ⟨run', -, segs', -, hok, hr', -⟩
  · rw [hrun] at he
    cases he
  rw [hrun] at hok
  cases hok
  refine ⟨segs', hr', ?_⟩
  obtain ⟨⟨out, s'⟩, hspliter, hres⟩ := bind_eq_ok.1 hrun
  cases hres
  obtain ⟨segs'', hlen, hemits, hhonoured⟩ :=
    h.run.inv.step_honoured h.run.quiescent h.honoured hspliter
  -- both lists of segments have emitted the actions of the history
  have hemission : Emission segs'' (op.keep r.run.actions ++ out) := by
    refine hemits _ ?_
    cases op <;> first | exact h.run.emits | exact .nil
  have hlengths : lengths segs' = lengths segs'' := by
    have hcount : segs'.length = segs''.length := hr'.inv.next.symm.trans hlen.symm
    rw [hr'.emits.lengths_eq, hemission.lengths_eq, hcount]
  have hfed : r.run.fed.length = (lengths segs).sum + r.run.state.pending.length := by
    rw [← h.run.conserved, List.length_append, sum_lengths, tokensOf, List.length_map]
  rw [hlengths]
  simp only [hfed]
  exact hhonoured

/-- The number of tokens that the segments before the `i`-th one emitted. -/
def emittedBefore (acts : List SegmentAction) (i : Nat) : Nat :=
  ((List.range i).map fun j => (textOf (actionsOf acts j)).length).sum

/-- In every run of operations on a new splitter each segment is a part of the text that was fed, and no
cut is inside: the tokens of a segment are all before or all after every boundary that was asked for
with the input that supplied its tokens. -/
theorem forced_boundaries_honoured {config : SpliterConfig F} {settings : RatioSettings F}
    {r : MarkedHistory F} (hnew : Spliter.new config settings = .ok s)
    (hr : Reaches MarkedHistory.step (fun _ _ => True) ⟨History.start s, []⟩ r) :
    ∀ i < r.run.state.nextSegmentIdx,
      textOf (actionsOf r.run.actions i)
        = ((r.run.fed.drop (emittedBefore r.run.actions i)).take
            (textOf (actionsOf r.run.actions i)).length).map (·.bare) ∧
      ∀ k ∈ r.cuts, k ≤ emittedBefore r.run.actions i ∨
        emittedBefore r.run.actions i + (textOf (actionsOf r.run.actions i)).length ≤ k := by
  obtain ⟨hfresh, -⟩ := new_spec hnew
  obtain ⟨segs, hok⟩ : ∃ segs, r.Ok segs := by
    have hstart : (⟨History.start s, []⟩ : MarkedHistory F).Ok [] :=
      ⟨hfresh.ok, fun k hk => absurd hk List.not_mem_nil⟩
    refine hr.invariant (I := fun r => ∃ segs, r.Ok segs) ⟨[], hstart⟩ ?_
    rintro r op r' ⟨segs, hr⟩ - hstep
    exact hr.step hstep
  intro i hi
  rw [hok.run.inv.next] at hi
  have hseg := List.getElem?_eq_getElem hi
  have hsplit : segs = segs.take i ++ segs[i] :: segs.drop (i + 1) := by
    rw [List.cons_getElem_drop_succ, List.take_append_drop]
  have htext := (hok.run.emits.filter hseg).text
  have hlen : (textOf (actionsOf r.run.actions i)).length = segs[i].tokens.length := by
    unfold actionsOf
    rw [htext, List.length_map]
  have hbefore : emittedBefore r.run.actions i = (lengths (segs.take i)).sum := by
    have htake : (lengths segs).take i = lengths (segs.take i) := List.map_take.symm
    rw [← htake, hok.run.emits.lengths_eq, ← List.map_take, List.take_range,
      Nat.min_eq_left (le_of_lt hi)]
    rfl
  -- the text fed: the segments before this one, this one, and the rest
  have hfed : r.run.fed = emittedTokens (segs.take i) ++ (segs[i].tokens
      ++ (emittedTokens (segs.drop (i + 1)) ++ tokensOf r.run.state.pending)) := by
    have hemitted := congrArg emittedTokens hsplit
    rw [emittedTokens, emittedTokens, List.flatMap_append, List.flatMap_cons] at hemitted
    rw [← hok.run.conserved, ← List.append_assoc segs[i].tokens, ← List.append_assoc]
    exact congrArg (· ++ _) hemitted
  have hstart : emittedBefore r.run.actions i = (emittedTokens (segs.take i)).length := by
    rw [hbefore, sum_lengths]
  refine ⟨?_, fun k hk => ?_⟩
  · rw [hlen, hstart, hfed, List.drop_left, List.take_left]
    exact htext
  · rw [hlen, hbefore]
    refine (hok.honoured k hk).apart (lengths (segs.take i)) _ (lengths (segs.drop (i + 1))) ?_
    have hlengths := congrArg lengths hsplit
    rw [lengths, lengths, List.map_append, List.map_cons] at hlengths
    exact hlengths

end

section

/-- Ten tokens, the last seven of them as planned groups, with three boundaries inside; then the capacity
shrinks, so what is queued is planned again, and a last token follows behind a boundary. -/
def markedOps : List (SpliterOp Rat) :=
  [.feedTokens (smallTokens 3) { forceBoundaryIndices := [0] },
    .pushGroupTokens (smallTokens 7) { forceBoundary := true, forceBoundaryBeforeIndices := [1] },
    .observeSegment 30 5 .kvOverflow (some 0), .onSegmentDone 0, .onSegmentDone 1, .onSegmentDone 2,
    .feedTokens (smallTokens 1) { forceBoundaryBefore := true }, .onSegmentDone 3, .onSegmentDone 4,
    .onSegmentDone 5, .onSegmentDone 6]

/-- The history of the small splitter after these operations. -/
def markedRun : Option (MarkedHistory Rat) :=
  match Spliter.new (smallConfig 1) smallSettings with
  | .ok s => tries MarkedHistory.step (fun _ _ => True) ⟨History.start s, []⟩ markedOps
  | .error _ => none

theorem forced_boundaries_honoured_tightened :
    ∃ r, markedRun = some r ∧ r.cuts = [1, 10, 4, 10] ∧
      (List.range r.run.state.nextSegmentIdx).map
        (fun i => (textOf (actionsOf r.run.actions i)).length) = [1, 2, 1, 1, 2, 2, 1, 1] ∧
      ∀ i < r.run.state.nextSegmentIdx, ∀ k ∈ r.cuts, k ≤ emittedBefore r.run.actions i ∨
        emittedBefore r.run.actions i + (textOf (actionsOf r.run.actions i)).length ≤ k := by
  have hsome : markedRun.map (fun r : MarkedHistory Rat =>
      (r.cuts, (List.range r.run.state.nextSegmentIdx).map
        fun i => (textOf (actionsOf r.run.actions i)).length))
      = some ([1, 10, 4, 10], [1, 2, 1, 1, 2, 2, 1, 1]) := by
    decide +kernel
  obtain ⟨r, hrun, hfacts⟩ := Option.map_eq_some_iff.1 hsome
  rw [Prod.mk.injEq] at hfacts
  refine ⟨r, hrun, hfacts.1, hfacts.2, fun i hi => ?_⟩
  unfold markedRun at hrun
  split at hrun
  · next s hnew => exact (forced_boundaries_honoured hnew (reaches_of_tries .start hrun) i hi).2
  · cases hrun

end

end StreamingTts.Split
