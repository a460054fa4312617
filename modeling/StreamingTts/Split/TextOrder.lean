import Mathlib.Data.List.Range
import StreamingTts.Lib.Transition
import StreamingTts.Split.Reorder

/-!
# The reorder buffer plays text order

What a caller of the buffer promises is said about the history of its calls. The segments are
those of a layout: `n` groups, of which group `g` has the local indices `0 .. last g`. The chunks of
a segment that survive a history are those pushed after its last discard. The invariant `Placed`
relates the buffer to a history through the list of the segments passed so far: the playhead is the
next segment of the layout, and what is buffered for a segment ahead of it is all that survives of
that segment. A turn of the drain moves one segment from the front of the layout to the passed ones
(`Placed.pass`); the drain repeats that (`drain_placed`), and each call keeps the invariant with an
empty buffer under the playhead (`Settled`).
-/

namespace StreamingTts.Split

/-! ## The layout -/

section
variable (last : Nat → Nat) (n : Nat)

/-- The segments of one group, in order. -/
def groupSegments (g : Nat) : List Key := (List.range (last g + 1)).map (Prod.mk g)

/-- The segments of `n` groups, in text order. -/
def segments : List Key := (List.range n).flatMap (groupSegments last)

/-- The segment after `k`: the next one of its group, or the first one of the next group. -/
def Key.succ (k : Key) : Key := if k.2 = last k.1 then (k.1 + 1, 0) else (k.1, k.2 + 1)

/-- The keys the playhead goes through: the segments, and the first key after them. -/
def playPath : List Key := segments last n ++ [(n, 0)]

variable {last n}

theorem Key.before_succ (k : Key) : k.before (Key.succ last k) := by
  unfold Key.succ Key.before
  split <;> simp

theorem mem_segments {k : Key} : k ∈ segments last n ↔ k.1 < n ∧ k.2 ≤ last k.1 := by
  obtain ⟨g, l⟩ := k
  simp only [segments, groupSegments, List.mem_flatMap, List.mem_range, List.mem_map,
    Prod.mk.injEq]
  constructor
  · rintro ⟨g', hg', l', hl', rfl, rfl⟩
    exact ⟨hg', by omega⟩
  · rintro ⟨hg, hl⟩
    exact ⟨g, hg, l, by omega, rfl, rfl⟩

theorem segments_succ : segments last (n + 1) = segments last n ++ groupSegments last n := by
  simp [segments, List.range_succ]

variable (last) in
/-- A group and the key after it follow each other. -/
theorem groupSegments_chain (g : Nat) :
    (groupSegments last g ++ [(g + 1, 0)]).IsChain (fun a b => b = Key.succ last a) := by
  refine List.isChain_append.2 ⟨?_, List.isChain_singleton _, ?_⟩
  · refine (List.isChain_map _).2 ((List.isChain_range_succ _ _).2 ?_)
    intro m hm
    simp [Key.succ, Nat.ne_of_lt hm]
  · intro a ha b hb
    simp only [groupSegments, List.range_succ, List.map_append, List.map_cons, List.map_nil,
      List.getLast?_append, List.getLast?_singleton, Option.some_or, Option.mem_def,
      Option.some.injEq] at ha
    cases ha
    cases hb
    simp [Key.succ]

variable (last n) in
/-- The playhead's keys follow each other. -/
theorem playPath_chain : (playPath last n).IsChain (fun a b => b = Key.succ last a) := by
  induction n with
  | zero => exact List.isChain_singleton _
  | succ n ih =>
      have hgroup : groupSegments last n ++ [(n + 1, 0)]
          = (n, 0) :: ((List.range (last n)).map (fun l => (n, l + 1)) ++ [(n + 1, 0)]) := by
        simp [groupSegments, List.range_succ_eq_map, Function.comp_def]
      have h := groupSegments_chain last n
      rw [playPath, segments_succ, List.append_assoc, hgroup]
      rw [hgroup] at h
      exact List.isChain_split.2 ⟨ih, h⟩

variable (last n) in
/-- The playhead's keys are in the order of tuples. -/
theorem playPath_pairwise : (playPath last n).Pairwise Key.before := by
  refine List.isChain_iff_pairwise.1 ((playPath_chain last n).imp ?_)
  rintro a b rfl
  exact Key.before_succ a

end

/-! ## What a history of calls promises -/

section
variable {τ β : Type}

/-- The surviving chunks of `k` after a call. -/
def keepCall (k : Key) (chunks : List β) : ReorderCall τ β → List β
  | .push _ k' audio => if k' = k then chunks ++ [audio] else chunks
  | .markDone _ _ _ => chunks
  | .discard _ k' => if k' = k then [] else chunks

/-- The surviving chunks of `k`: those pushed after its last discard. -/
def survivors (h : List (ReorderCall τ β)) (k : Key) : List β := h.foldl (keepCall k) []

/-- A call of `mark_done` for `k`. -/
def ReorderCall.marks (k : Key) : ReorderCall τ β → Bool
  | .markDone _ k' _ => k' = k
  | _ => false

/-- Whether `mark_done` was called for `k`. -/
def isDone (h : List (ReorderCall τ β)) (k : Key) : Bool := h.any (·.marks k)

/-- The buffer after a history. -/
def replay (h : List (ReorderCall τ β)) : AudioReorder τ β :=
  Lib.run ReorderCall.next AudioReorder.init h

/-- Everything the calls of a history returned. -/
def emitted (h : List (ReorderCall τ β)) : List β :=
  Lib.outputs (fun s c => (ReorderCall.next s c, ReorderCall.returned s c)) AudioReorder.init h

/-- Everything the calls of `mark_done_ex` in a history reported. -/
def reported (h : List (ReorderCall τ β)) : List (Drained β) :=
  Lib.outputs (fun s c => (ReorderCall.next s c, ReorderCall.report s c)) AudioReorder.init h

variable (last : Nat → Nat) (n : Nat)

/-- The calls allowed after a history: the chunks of a segment come before its `mark_done`, which
comes once and says whether the segment is the last of its group, and only segments the playhead
has not reached are discarded. -/
def Allowed (h : List (ReorderCall τ β)) : ReorderCall τ β → Prop
  | .push _ k _ => k ∈ segments last n ∧ isDone h k = false
  | .markDone _ k groupFinal =>
      k ∈ segments last n ∧ isDone h k = false ∧ groupFinal = decide (k.2 = last k.1)
  | .discard _ k => (replay h).nextEmitSegment.before k

/-- The histories all of whose calls are allowed. -/
inductive Admissible : List (ReorderCall τ β) → Prop
  | nil : Admissible []
  | snoc {h : List (ReorderCall τ β)} {c : ReorderCall τ β} :
      Admissible h → Allowed last n h c → Admissible (h ++ [c])

instance Allowed.decidable (h : List (ReorderCall τ β)) :
    (c : ReorderCall τ β) → Decidable (Allowed last n h c)
  | .push _ k _ => inferInstanceAs (Decidable (k ∈ segments last n ∧ isDone h k = false))
  | .markDone _ k groupFinal =>
      inferInstanceAs (Decidable (k ∈ segments last n ∧ isDone h k = false ∧
        groupFinal = decide (k.2 = last k.1)))
  | .discard _ k => inferInstanceAs (Decidable ((replay h).nextEmitSegment.before k))

/-- The check, call by call, that a history goes on with allowed calls. -/
def allowedFrom (h : List (ReorderCall τ β)) : List (ReorderCall τ β) → Bool
  | [] => true
  | c :: cs => decide (Allowed last n h c) && allowedFrom (h ++ [c]) cs

variable {last n} in
/-- A history that passes the check is admissible. -/
theorem Admissible.extend {pre post : List (ReorderCall τ β)} (hpre : Admissible last n pre)
    (hpost : allowedFrom last n pre post = true) : Admissible last n (pre ++ post) := by
  induction post generalizing pre with
  | nil => rwa [List.append_nil]
  | cons c cs ih =>
      simp only [allowedFrom, Bool.and_eq_true, decide_eq_true_eq] at hpost
      rw [List.append_cons]
      exact ih (.snoc hpre hpost.1) hpost.2

@[simp] theorem survivors_snoc (h : List (ReorderCall τ β)) (c : ReorderCall τ β) (k : Key) :
    survivors (h ++ [c]) k = keepCall k (survivors h k) c := by
  simp [survivors]

@[simp] theorem isDone_snoc (h : List (ReorderCall τ β)) (c : ReorderCall τ β) (k : Key) :
    isDone (h ++ [c]) k = (isDone h k || c.marks k) := by
  simp [isDone]

@[simp] theorem replay_snoc (h : List (ReorderCall τ β)) (c : ReorderCall τ β) :
    replay (h ++ [c]) = ReorderCall.next (replay h) c := by
  simp [replay, Lib.run_append]

@[simp] theorem emitted_snoc (h : List (ReorderCall τ β)) (c : ReorderCall τ β) :
    emitted (h ++ [c]) = emitted h ++ ReorderCall.returned (replay h) c := by
  simp [emitted, Lib.outputs_append, replay]

@[simp] theorem reported_snoc (h : List (ReorderCall τ β)) (c : ReorderCall τ β) :
    reported (h ++ [c]) = reported h ++ ReorderCall.report (replay h) c := by
  simp [reported, Lib.outputs_append, replay]

end

/-! ## The invariant of the buffer -/

section
variable {τ β : Type} {last : Nat → Nat} {n : Nat} {surv : Key → List β} {closed : Key → Bool}
  {p : List Key} {s : AudioReorder τ β}

/-- The buffer after the segments `p` were passed, where `surv` are the surviving chunks and `closed`
the segments marked done. -/
structure Placed (last : Nat → Nat) (n : Nat) (surv : Key → List β) (closed : Key → Bool)
    (p : List Key) (s : AudioReorder τ β) : Prop where
  known : ∀ k, closed k = true → k ∈ segments last n
  silent : ∀ k, k ∉ segments last n → surv k = []
  path : ∃ rest, playPath last n = p ++ s.nextEmitSegment :: rest
  marked : ∀ k ∈ p, closed k = true
  done : ∀ k, k ∈ s.done ↔ closed k = true ∧ k ∉ p
  finals : ∀ g, s.finalLocals.lookup g
    = if closed (g, last g) = true ∧ (g, last g) ∉ p then some (last g) else none
  ahead : ∀ k, k ∉ p → k ≠ s.nextEmitSegment → s.buffered k = surv k

/-- The buffer between two calls: nothing is left under the playhead, whose segment is not done. -/
structure Settled (last : Nat → Nat) (n : Nat) (surv : Key → List β) (closed : Key → Bool)
    (p : List Key) (s : AudioReorder τ β) : Prop
    extends Placed last n surv closed p s where
  drained : s.buffered s.nextEmitSegment = []
  pending : closed s.nextEmitSegment = false

/-- The stall clock does not touch what is placed. -/
theorem Placed.refresh (h : Placed last n surv closed p s) (now : τ) :
    Placed last n surv closed p (s.refreshStallClock now) := by
  unfold AudioReorder.refreshStallClock
  split
  · split
    · exact ⟨h.known, h.silent, h.path, h.marked, h.done, h.finals, h.ahead⟩
    · exact h
  · exact ⟨h.known, h.silent, h.path, h.marked, h.done, h.finals, h.ahead⟩

/-- The stall clock moves no playhead and no chunk. -/
theorem refreshStallClock_frame (now : τ) :
    (s.refreshStallClock now).nextEmitSegment = s.nextEmitSegment ∧
      (s.refreshStallClock now).buffered = s.buffered := by
  unfold AudioReorder.refreshStallClock
  split
  · split <;> exact ⟨rfl, rfl⟩
  · exact ⟨rfl, rfl⟩

/-- The stall clock does not touch a settled buffer. -/
theorem Settled.refresh (h : Settled last n surv closed p s) (now : τ) :
    Settled last n surv closed p (s.refreshStallClock now) := by
  obtain ⟨hnext, hbuffered⟩ := refreshStallClock_frame (s := s) now
  refine ⟨h.toPlaced.refresh now, ?_, ?_⟩
  · rw [hnext, hbuffered]
    exact h.drained
  · rw [hnext]
    exact h.pending

/-- The passed segments come before the playhead. -/
theorem Placed.before_next (h : Placed last n surv closed p s) {k : Key} (hk : k ∈ p) :
    k.before s.nextEmitSegment := by
  obtain ⟨rest, hpath⟩ := h.path
  have hsorted := playPath_pairwise last n
  rw [hpath] at hsorted
  exact (List.pairwise_append.1 hsorted).2.2 k hk _ List.mem_cons_self

theorem Placed.next_notMem (h : Placed last n surv closed p s) : s.nextEmitSegment ∉ p :=
  fun hmem => Key.before_irrefl _ (h.before_next hmem)

/-- A segment the playhead comes before was neither passed nor reached. -/
theorem Placed.notMem_of_before (h : Placed last n surv closed p s) {k : Key}
    (hk : s.nextEmitSegment.before k) : k ∉ p ∧ k ≠ s.nextEmitSegment := by
  constructor
  · intro hmem
    exact Key.before_irrefl _ (Key.before_trans (h.before_next hmem) hk)
  · rintro rfl
    exact Key.before_irrefl _ hk

/-- A segment of the layout under the playhead is followed by its successor. -/
theorem Placed.path_pass (h : Placed last n surv closed p s)
    (hk : s.nextEmitSegment ∈ segments last n) :
    ∃ rest, playPath last n = (p ++ [s.nextEmitSegment]) ++ s.nextEmitSegment.succ last :: rest := by
  obtain ⟨rest, hpath⟩ := h.path
  cases rest with
  | nil =>
      -- the last key of the path is not a segment
      have hlast := congrArg List.getLast? hpath
      simp only [playPath, List.getLast?_append, List.getLast?_singleton, Option.some_or,
        Option.some.injEq] at hlast
      rw [← hlast] at hk
      exact absurd (mem_segments.1 hk).1 (Nat.lt_irrefl n)
  | cons k rest =>
      have hchain := playPath_chain last n
      rw [hpath] at hchain
      obtain rfl : k = s.nextEmitSegment.succ last := (List.isChain_append_cons_cons.1 hchain).2.1
      exact ⟨rest, by rw [hpath, List.append_assoc]; rfl⟩

/-- Clearing a buffer leaves it empty, and the other buffers as they are. -/
theorem buffered_clearBuffer (k k' : Key) :
    (s.clearBuffer k).buffered k' = if k' = k then [] else s.buffered k' := by
  unfold AudioReorder.clearBuffer AudioReorder.buffered
  split
  · split
    · next h => rw [h, AList.lookup_insert]; rfl
    · next h => rw [AList.lookup_insert_ne h]
  · next hempty =>
    split
    · next h =>
      subst h
      cases hl : s.buffers.lookup k' with
      | none => rfl
      | some chunks =>
          cases chunks with
          | nil => rfl
          | cons a as => exact absurd hl (hempty a as)
    · rfl

/-- Clearing a buffer touches nothing but the buffers. -/
theorem clearBuffer_frame (k : Key) :
    (s.clearBuffer k).nextEmitSegment = s.nextEmitSegment ∧ (s.clearBuffer k).done = s.done ∧
      (s.clearBuffer k).finalLocals = s.finalLocals := by
  unfold AudioReorder.clearBuffer
  split <;> exact ⟨rfl, rfl, rfl⟩

/-- The chunks under the playhead are taken. -/
theorem Placed.clear (h : Placed last n surv closed p s) :
    Placed last n surv closed p (s.clearBuffer s.nextEmitSegment) := by
  obtain ⟨hnext, hdone, hfinals⟩ := clearBuffer_frame (s := s) s.nextEmitSegment
  refine ⟨h.known, h.silent, ?_, h.marked, ?_, ?_, ?_⟩
  · rw [hnext]
    exact h.path
  · rw [hdone]
    exact h.done
  · rw [hfinals]
    exact h.finals
  · intro k hk hne
    rw [hnext] at hne
    rw [buffered_clearBuffer, if_neg hne, h.ahead k hk hne]

/-- Moving the playhead touches neither the buffers nor the done segments. -/
theorem advance_frame : s.advance.buffers = s.buffers ∧ s.advance.done = s.done := by
  unfold AudioReorder.advance
  split
  · split <;> exact ⟨rfl, rfl⟩
  · exact ⟨rfl, rfl⟩

/-- Passing a segment erases its buffer, and no other. -/
theorem buffered_pass (k k' : Key) :
    (s.pass k).buffered k' = if k' = k then [] else s.buffered k' := by
  unfold AudioReorder.buffered AudioReorder.pass
  rw [advance_frame.1]
  split
  · next h => rw [h, AList.lookup_erase]; rfl
  · next h => rw [AList.lookup_erase_ne h]

theorem done_pass (k : Key) : (s.pass k).done = s.done.erase k := advance_frame.2

/-- Passing the segment under the playhead, which is done, moves the playhead to the next segment,
and forgets the last index of its group with the last segment of the group. -/
theorem Placed.pass_next (h : Placed last n surv closed p s)
    (hclosed : closed s.nextEmitSegment = true) :
    (s.pass s.nextEmitSegment).nextEmitSegment = s.nextEmitSegment.succ last ∧
      (s.pass s.nextEmitSegment).finalLocals
        = if s.nextLocal = last s.nextGroup then s.finalLocals.erase s.nextGroup
          else s.finalLocals := by
  have hle : s.nextLocal ≤ last s.nextGroup := (mem_segments.1 (h.known _ hclosed)).2
  have hfinal := h.finals s.nextGroup
  unfold AudioReorder.pass AudioReorder.advance Key.succ AudioReorder.nextEmitSegment
  simp only
  rcases Nat.eq_or_lt_of_le hle with heq | hlt
  · have hk : (s.nextGroup, last s.nextGroup) = s.nextEmitSegment := by
      rw [← heq]
      rfl
    rw [hk, if_pos ⟨hclosed, h.next_notMem⟩] at hfinal
    simp [hfinal, heq]
  · have hne : s.nextLocal ≠ last s.nextGroup := Nat.ne_of_lt hlt
    rw [if_neg hne, if_neg hne]
    split at hfinal
    · simp [hfinal, Nat.not_le.2 hlt]
    · simp [hfinal]

/-- A turn of the drain that passes a segment. -/
theorem Placed.pass (h : Placed last n surv closed p s) (hclosed : closed s.nextEmitSegment = true) :
    Placed last n surv closed (p ++ [s.nextEmitSegment]) (s.pass s.nextEmitSegment) ∧
      (s.pass s.nextEmitSegment).buffered (s.pass s.nextEmitSegment).nextEmitSegment
        = surv (s.pass s.nextEmitSegment).nextEmitSegment := by
  obtain ⟨hnext, hfinals⟩ := h.pass_next hclosed
  obtain ⟨rest, hpath⟩ := h.path_pass (h.known _ hclosed)
  have hsorted := playPath_pairwise last n
  rw [hpath] at hsorted
  have hfresh : s.nextEmitSegment.succ last ∉ p ++ [s.nextEmitSegment] := by
    intro hmem
    exact Key.before_irrefl _ ((List.pairwise_append.1 hsorted).2.2 _ hmem _ List.mem_cons_self)
  have hahead : ∀ k, k ∉ p ++ [s.nextEmitSegment] →
      (s.pass s.nextEmitSegment).buffered k = surv k := by
    intro k hk
    simp only [List.mem_append, List.mem_singleton, not_or] at hk
    rw [buffered_pass, if_neg hk.2, h.ahead k hk.1 hk.2]
  refine ⟨⟨h.known, h.silent, ⟨rest, by rw [hnext, hpath]⟩, ?_, ?_, ?_, fun k hk _ => hahead k hk⟩,
    ?_⟩
  · intro k hk
    rcases List.mem_append.1 hk with hk | hk
    · exact h.marked k hk
    · rwa [List.mem_singleton.1 hk]
  · intro k
    rw [done_pass, Finset.mem_erase, h.done k]
    simp only [List.mem_append, List.mem_singleton, not_or]
    tauto
  · intro g
    rw [hfinals]
    split
    · next heq =>
      have hk : (s.nextGroup, last s.nextGroup) = s.nextEmitSegment := by
        rw [← heq]
        rfl
      rcases eq_or_ne g s.nextGroup with rfl | hg
      · simp [hk]
      · have hne : (g, last g) ≠ s.nextEmitSegment := fun he => hg (congrArg Prod.fst he)
        rw [AList.lookup_erase_ne hg, h.finals g]
        simp [hne]
    · next hneq =>
      have hne : (g, last g) ≠ s.nextEmitSegment := by
        intro he
        obtain rfl : g = s.nextGroup := congrArg Prod.fst he
        exact hneq (congrArg Prod.snd he).symm
      rw [h.finals g]
      simp [hne]
  · rw [hnext]
    exact hahead _ hfresh

/-- A segment under the playhead that is not done, with its chunks taken. -/
theorem Placed.settle (h : Placed last n surv closed p s)
    (hpending : s.nextEmitSegment ∉ s.done) :
    Settled last n surv closed p (s.clearBuffer s.nextEmitSegment) := by
  have hnext := (clearBuffer_frame (s := s) s.nextEmitSegment).1
  refine ⟨h.clear, ?_, ?_⟩
  · rw [hnext, buffered_clearBuffer, if_pos rfl]
  · rw [hnext]
    cases hclosed : closed s.nextEmitSegment with
    | false => rfl
    | true => exact absurd ((h.done _).2 ⟨hclosed, h.next_notMem⟩) hpending

/-- A drain reports a passed segment after all that survives of the segments before it and the part
`take m` of its own chunks that was returned before, with the rest of them. `p` are the segments
passed before the drain and `out` is what was returned before it. -/
def Reports (surv : Key → List β) (p : List Key) (out : List β) (es : List (Drained β)) : Prop :=
  ∀ a e b, es = a ++ e :: b → e.fullyPassed = true →
    ∃ m, out ++ chunksOf a = (p ++ passedOf a).flatMap surv ++ (surv e.key).take m ∧
      e.chunks = (surv e.key).drop m

theorem Reports.nil {out : List β} : Reports surv p out [] := by
  intro a e b h
  exact absurd h (by simp)

/-- A drain that returns a part of a segment passes nothing. -/
theorem Reports.part {out : List β} {k : Key} {chunks : List β} :
    Reports surv p out [⟨k, chunks, false⟩] := by
  intro a e b h hpassed
  cases a with
  | nil =>
      cases h
      cases hpassed
  | cons e' a => exact absurd (congrArg List.length h) (by simp)

/-- A passed segment before a further drain. -/
theorem Reports.cons {out u chunks : List β} {k : Key} {es : List (Drained β)}
    (hout : out = p.flatMap surv ++ u) (hchunks : u ++ chunks = surv k)
    (h : Reports surv (p ++ [k]) (out ++ chunks) es) :
    Reports surv p out (⟨k, chunks, true⟩ :: es) := by
  intro a e b hes hpassed
  cases a with
  | nil =>
      cases hes
      refine ⟨u.length, ?_, ?_⟩
      · simp [hout, ← hchunks]
      · simp [← hchunks]
  | cons e' a =>
      rw [List.cons_append] at hes
      cases hes
      obtain ⟨m, hm, hrest⟩ := h a e b rfl hpassed
      refine ⟨m, ?_, hrest⟩
      rw [chunksOf_cons, ← List.append_assoc, hm]
      simp [passedOf]

/-- The drain passes the done segments that follow each other from the playhead and stops at a
segment that is not done, with all that it has so far. The induction is on the number of turns. -/
theorem drain_settled (turns : Nat) {u : List β} (h : Placed last n surv closed p s)
    (hu : u ++ s.buffered s.nextEmitSegment = surv s.nextEmitSegment)
    (hturns : s.done.card < turns) :
    Settled last n surv closed (p ++ passedOf (s.drain turns).1) (s.drain turns).2 ∧
      p.flatMap surv ++ u ++ chunksOf (s.drain turns).1
        = (p ++ passedOf (s.drain turns).1).flatMap surv
          ++ surv (s.drain turns).2.nextEmitSegment ∧
      Reports surv p (p.flatMap surv ++ u) (s.drain turns).1 := by
  induction turns generalizing p s u with
  | zero => exact absurd hturns (Nat.not_lt_zero _)
  | succ turns ih =>
      obtain ⟨hnext, hdone, -⟩ := clearBuffer_frame (s := s) s.nextEmitSegment
      unfold AudioReorder.drain
      simp only [hdone]
      split
      · next hidle =>
        -- nothing was pushed for the segment under the playhead
        have hempty : s.buffered s.nextEmitSegment = [] := by
          rw [AudioReorder.buffered, Option.isNone_iff_eq_none.1 hidle.1]
          rfl
        refine ⟨⟨by simpa using h, hempty, ?_⟩, ?_, .nil⟩
        · have := (h.settle hidle.2).pending
          rwa [hnext] at this
        · rw [hempty, List.append_nil] at hu
          simp [hu]
      · split
        · next hmem =>
          have hclosed := ((h.done _).1 hmem).1
          have hstep := h.clear.pass (hnext.symm ▸ hclosed)
          rw [hnext] at hstep
          obtain ⟨hpassed, hbuffered⟩ := hstep
          have hcard : ((s.clearBuffer s.nextEmitSegment).pass s.nextEmitSegment).done.card
              < turns := by
            rw [done_pass, hdone, Finset.card_erase_of_mem hmem]
            have := Finset.card_pos.2 ⟨_, hmem⟩
            omega
          obtain ⟨hsettled, hout, hreports⟩ := ih (u := []) hpassed hbuffered hcard
          have hall : p.flatMap surv ++ u ++ s.buffered s.nextEmitSegment
              = (p ++ [s.nextEmitSegment]).flatMap surv := by
            simp [List.append_assoc, hu]
          rw [List.append_nil, ← hall] at hout hreports
          refine ⟨?_, ?_, .cons rfl hu hreports⟩
          · simpa [passedOf] using hsettled
          · rw [chunksOf_cons, ← List.append_assoc, hout]
            simp [passedOf]
        · next hmem =>
          split
          · refine ⟨?_, ?_, .part⟩
            · simpa [passedOf] using h.settle hmem
            · simp [passedOf, chunksOf, hnext, hu]
          · next hempty =>
            rw [not_not.1 hempty, List.append_nil] at hu
            refine ⟨?_, ?_, .nil⟩
            · simpa using h.settle hmem
            · simp [hnext, hu]

/-- A drain passes nothing while the segment under the playhead is not done. -/
theorem drain_pending (turns : Nat) (h : s.nextEmitSegment ∉ s.done) :
    passedOf (s.drain turns).1 = [] := by
  cases turns with
  | zero => rfl
  | succ turns =>
      have hdone := (clearBuffer_frame (s := s) s.nextEmitSegment).2.1
      unfold AudioReorder.drain
      simp only [hdone, h, not_false_eq_true, and_true, if_false]
      split
      · rfl
      · split <;> rfl

/-- The playhead does not move while its segment is not done. -/
theorem Settled.next_notMem_done (h : Settled last n surv closed p s) :
    s.nextEmitSegment ∉ s.done := by
  intro hmem
  have := ((h.done _).1 hmem).1
  rw [h.pending] at this
  cases this

/-- A segment that is not done was not passed. -/
theorem Placed.notMem_of_pending (h : Placed last n surv closed p s) {k : Key}
    (hk : closed k = false) : k ∉ p := by
  intro hmem
  rw [h.marked k hmem] at hk
  cases hk

/-! ## One call -/

variable {k : Key} {audio : β}

/-- The chunks a push adds. -/
def withChunk (surv : Key → List β) (k : Key) (audio : β) (k' : Key) : List β :=
  if k = k' then surv k' ++ [audio] else surv k'

/-- A chunk goes to the end of the buffer of its segment. -/
theorem buffered_append (k' : Key) : (s.append k audio).buffered k' = withChunk s.buffered k audio k' := by
  unfold withChunk AudioReorder.append AudioReorder.buffered
  split
  · next h => rw [← h, AList.lookup_insert]; rfl
  · next h => rw [AList.lookup_insert_ne (Ne.symm h)]

/-- A pushed chunk is placed with its segment. -/
theorem Placed.append (h : Placed last n surv closed p s) (hk : k ∈ segments last n) :
    Placed last n (withChunk surv k audio) closed p (s.append k audio) := by
  refine ⟨h.known, ?_, h.path, h.marked, h.done, h.finals, ?_⟩
  · intro k' hk'
    have hne : k ≠ k' := by
      rintro rfl
      exact hk' hk
    rw [withChunk, if_neg hne, h.silent k' hk']
  · intro k' hk' hne
    rw [buffered_append, withChunk, withChunk, h.ahead k' hk' hne]

/-- A chunk for a segment that was not passed changes nothing about the passed ones. -/
theorem flatMap_withChunk (h : k ∉ p) : p.flatMap (withChunk surv k audio) = p.flatMap surv := by
  refine List.flatMap_congr ?_
  intro k' hk'
  have hne : k ≠ k' := by
    rintro rfl
    exact h hk'
  rw [withChunk, if_neg hne]

/-- `_try_drain_ex` settles a buffer. -/
theorem tryDrainEx_settled {u : List β} (now : τ) (h : Placed last n surv closed p s)
    (hu : u ++ s.buffered s.nextEmitSegment = surv s.nextEmitSegment) :
    Settled last n surv closed (p ++ passedOf (s.tryDrainEx now).1) (s.tryDrainEx now).2 ∧
      p.flatMap surv ++ u ++ chunksOf (s.tryDrainEx now).1
        = (p ++ passedOf (s.tryDrainEx now).1).flatMap surv
          ++ surv (s.tryDrainEx now).2.nextEmitSegment ∧
      Reports surv p (p.flatMap surv ++ u) (s.tryDrainEx now).1 := by
  obtain ⟨hsettled, hout, hreports⟩ := drain_settled _ h hu (Nat.lt_succ_self _)
  refine ⟨hsettled.refresh now, ?_, hreports⟩
  rw [AudioReorder.tryDrainEx, (refreshStallClock_frame now).1]
  exact hout

/-- What a push does to a settled buffer: the playhead stays where it is, and the chunk is returned
if it is for the segment under the playhead. -/
theorem Settled.push (now : τ) (audio : β) (h : Settled last n surv closed p s) (hk : k ∈ segments last n)
    (hpending : closed k = false) :
    Settled last n (withChunk surv k audio) closed p (s.push now k audio).2 ∧
      p.flatMap surv ++ surv s.nextEmitSegment ++ (s.push now k audio).1
        = p.flatMap (withChunk surv k audio)
          ++ withChunk surv k audio (s.push now k audio).2.nextEmitSegment := by
  have hpassed : p.flatMap (withChunk surv k audio) = p.flatMap surv :=
    flatMap_withChunk (h.notMem_of_pending hpending)
  have hplaced : Placed last n (withChunk surv k audio) closed p (s.append k audio) :=
    h.toPlaced.append hk
  have hnext : (s.append k audio).nextEmitSegment = s.nextEmitSegment := rfl
  unfold AudioReorder.push
  split
  · next heq =>
    have hu : surv s.nextEmitSegment
          ++ (s.append k audio).buffered (s.append k audio).nextEmitSegment
        = withChunk surv k audio (s.append k audio).nextEmitSegment := by
      rw [buffered_append, hnext, withChunk, if_pos heq, h.drained, withChunk, if_pos heq]
      rfl
    have hstill : passedOf ((s.append k audio).tryDrainEx now).1 = [] :=
      drain_pending _ h.next_notMem_done
    obtain ⟨hsettled, hout, -⟩ := tryDrainEx_settled now hplaced hu
    rw [hstill, List.append_nil] at hsettled hout
    rw [hpassed] at hout ⊢
    exact ⟨hsettled, hout⟩
  · next hne =>
    have hsettled : Settled last n (withChunk surv k audio) closed p (s.append k audio) := by
      refine ⟨hplaced, ?_, h.pending⟩
      rw [buffered_append, hnext, withChunk, if_neg hne, h.drained]
    refine ⟨hsettled.refresh now, ?_⟩
    rw [(refreshStallClock_frame now).1, hnext, hpassed, withChunk, if_neg hne, List.append_nil]

/-- A segment is recorded as done. -/
theorem Placed.recordDone (h : Placed last n surv closed p s) (hk : k ∈ segments last n)
    (hpending : closed k = false) :
    Placed last n surv (fun k' => closed k' || decide (k = k')) p
      (s.recordDone k (decide (k.2 = last k.1))) := by
  have hnotMem := h.notMem_of_pending hpending
  refine ⟨?_, h.silent, h.path, ?_, ?_, ?_, h.ahead⟩
  · intro k' hk'
    simp only [Bool.or_eq_true, decide_eq_true_eq] at hk'
    rcases hk' with hk' | rfl
    · exact h.known k' hk'
    · exact hk
  · intro k' hk'
    rw [h.marked k' hk', Bool.true_or]
  · intro k'
    simp only [AudioReorder.recordDone, Finset.mem_insert, h.done k', Bool.or_eq_true,
      decide_eq_true_eq]
    constructor
    · rintro (rfl | ⟨hk', hp⟩)
      · exact ⟨.inr rfl, hnotMem⟩
      · exact ⟨.inl hk', hp⟩
    · rintro ⟨hk' | rfl, hp⟩
      · exact .inr ⟨hk', hp⟩
      · exact .inl rfl
  · intro g
    simp only [AudioReorder.recordDone, Bool.or_eq_true, decide_eq_true_eq]
    rcases eq_or_ne k (g, last g) with rfl | hne
    · simp [hnotMem]
    · have hkeep : (if k.2 = last k.1 then s.finalLocals.insert k.1 k.2 else s.finalLocals).lookup g
          = s.finalLocals.lookup g := by
        split
        · next heq =>
          have hg : g ≠ k.1 := by
            rintro rfl
            exact hne (Prod.ext rfl heq)
          rw [AList.lookup_insert_ne hg]
        · rfl
      rw [hkeep, h.finals g]
      simp [hne]

/-- What a `mark_done` does to a settled buffer. -/
theorem Settled.markDone (now : τ) (h : Settled last n surv closed p s) (hk : k ∈ segments last n)
    (hpending : closed k = false) :
    Settled last n surv (fun k' => closed k' || decide (k = k'))
        (p ++ passedOf (s.markDoneEx now k (decide (k.2 = last k.1))).1)
        (s.markDoneEx now k (decide (k.2 = last k.1))).2 ∧
      p.flatMap surv ++ surv s.nextEmitSegment
          ++ chunksOf (s.markDoneEx now k (decide (k.2 = last k.1))).1
        = (p ++ passedOf (s.markDoneEx now k (decide (k.2 = last k.1))).1).flatMap surv
          ++ surv (s.markDoneEx now k (decide (k.2 = last k.1))).2.nextEmitSegment ∧
      Reports surv p (p.flatMap surv ++ surv s.nextEmitSegment)
        (s.markDoneEx now k (decide (k.2 = last k.1))).1 := by
  refine tryDrainEx_settled now (h.toPlaced.recordDone hk hpending) ?_
  have hdrained : (s.recordDone k (decide (k.2 = last k.1))).buffered
      (s.recordDone k (decide (k.2 = last k.1))).nextEmitSegment = [] := h.drained
  rw [hdrained, List.append_nil]
  rfl

/-- The chunks a discard leaves. -/
def withoutChunks (surv : Key → List β) (k k' : Key) : List β := if k = k' then [] else surv k'

/-- What a discard of a segment ahead of the playhead does to a settled buffer. -/
theorem Settled.discard (now : τ) (h : Settled last n surv closed p s) (hk : s.nextEmitSegment.before k) :
    Settled last n (withoutChunks surv k) closed p (s.discard now k).2 ∧
      p.flatMap (withoutChunks surv k) = p.flatMap surv ∧
      withoutChunks surv k (s.discard now k).2.nextEmitSegment = surv s.nextEmitSegment := by
  obtain ⟨hnotMem, hne⟩ := h.notMem_of_before hk
  have hbuffered : ∀ k', ({ s with buffers := s.buffers.erase k } : AudioReorder τ β).buffered k'
      = withoutChunks s.buffered k k' := by
    intro k'
    unfold withoutChunks AudioReorder.buffered
    split
    · next heq => rw [← heq, AList.lookup_erase]; rfl
    · next hne => rw [AList.lookup_erase_ne (Ne.symm hne)]
  have hsettled : Settled last n (withoutChunks surv k) closed p
      { s with buffers := s.buffers.erase k } := by
    refine ⟨⟨h.known, ?_, h.path, h.marked, h.done, h.finals, ?_⟩, ?_, h.pending⟩
    · intro k' hk'
      rw [withoutChunks, h.silent k' hk', ite_self]
    · intro k' hk' hne'
      rw [hbuffered, withoutChunks, withoutChunks, h.ahead k' hk' hne']
    · rw [hbuffered]
      exact (if_neg hne).trans h.drained
  refine ⟨hsettled.refresh now, ?_, ?_⟩
  · refine List.flatMap_congr ?_
    intro k' hk'
    have hne' : k ≠ k' := by
      rintro rfl
      exact hnotMem hk'
    rw [withoutChunks, if_neg hne']
  · rw [AudioReorder.discard, (refreshStallClock_frame now).1]
    exact if_neg hne

end

/-! ## Every history -/

section
variable {τ β : Type} {last : Nat → Nat} {n : Nat} {h : List (ReorderCall τ β)}
  {c : ReorderCall τ β}

theorem survivors_push (now : τ) (k : Key) (audio : β) :
    survivors (h ++ [.push now k audio]) = withChunk (survivors h) k audio := by
  funext k'
  rw [survivors_snoc]
  rfl

theorem survivors_markDone (now : τ) (k : Key) (groupFinal : Bool) :
    survivors (h ++ [.markDone now k groupFinal]) = survivors h := by
  funext k'
  rw [survivors_snoc]
  rfl

theorem survivors_discard (now : τ) (k : Key) :
    survivors (h ++ [.discard now k]) = withoutChunks (survivors h) k := by
  funext k'
  rw [survivors_snoc]
  rfl

theorem isDone_markDone (now : τ) (k : Key) (groupFinal : Bool) :
    isDone (h ++ [.markDone now k groupFinal]) = fun k' => isDone h k' || decide (k = k') := by
  funext k'
  rw [isDone_snoc]
  rfl

/-- A call other than `mark_done` marks nothing. -/
theorem isDone_other (hc : ∀ k, c.marks k = false) : isDone (h ++ [c]) = isDone h := by
  funext k
  rw [isDone_snoc, hc, Bool.or_false]

/-- The last call of an admissible history is allowed after the rest. -/
theorem Admissible.snoc_inv (hadm : Admissible last n (h ++ [c])) :
    Admissible last n h ∧ Allowed last n h c := by
  generalize hh : h ++ [c] = h' at hadm
  cases hadm with
  | nil => exact absurd hh (by simp)
  | snoc hpre hc =>
      obtain ⟨rfl, heq⟩ := List.append_inj' hh rfl
      cases heq
      exact ⟨hpre, hc⟩

/-- The calls before a point of an admissible history are admissible. -/
theorem Admissible.of_append {pre post : List (ReorderCall τ β)}
    (hadm : Admissible last n (pre ++ post)) : Admissible last n pre := by
  induction post using List.reverseRecOn with
  | nil => rwa [List.append_nil] at hadm
  | append_singleton post c ih =>
      rw [← List.append_assoc] at hadm
      exact ih hadm.snoc_inv.1

/-- The buffer after an admissible history, and what its calls returned. -/
theorem Admissible.settled (hadm : Admissible last n h) :
    Settled last n (survivors h) (isDone h) (passedOf (reported h)) (replay h) ∧
      emitted h = (passedOf (reported h)).flatMap (survivors h)
        ++ survivors h (replay h).nextEmitSegment := by
  induction hadm with
  | nil =>
      refine ⟨⟨⟨?_, ?_, ?_, ?_, ?_, ?_, ?_⟩, rfl, rfl⟩, rfl⟩
      · intro k hk
        cases hk
      · intro k _
        rfl
      · have hchain : ∀ m, ∃ rest, playPath last m = (0, 0) :: rest := by
          intro m
          cases m with
          | zero => exact ⟨[], rfl⟩
          | succ m =>
              simp [playPath, segments, groupSegments, List.range_succ_eq_map]
        exact hchain n
      · intro k hk
        cases hk
      · intro k
        simp [replay, AudioReorder.init, isDone]
      · intro g
        simp [replay, AudioReorder.init, isDone]
      · intro k _ _
        rfl
  | @snoc pre c _ hc ih =>
      obtain ⟨hsettled, hout⟩ := ih
      cases c with
      | push now k audio =>
          obtain ⟨hnext, heq⟩ := hsettled.push now audio hc.1 hc.2
          rw [survivors_push, isDone_other (fun _ => rfl), emitted_snoc, reported_snoc, replay_snoc,
            hout]
          simp only [ReorderCall.report, List.append_nil]
          exact ⟨hnext, heq⟩
      | markDone now k groupFinal =>
          obtain ⟨hk, hpending, rfl⟩ := hc
          obtain ⟨hnext, heq, -⟩ := hsettled.markDone now hk hpending
          rw [survivors_markDone, isDone_markDone, emitted_snoc, reported_snoc, replay_snoc, hout,
            passedOf_append]
          exact ⟨hnext, heq⟩
      | discard now k =>
          obtain ⟨hnext, hpassed, hkept⟩ := hsettled.discard now hc
          rw [survivors_discard, isDone_other (fun _ => rfl), emitted_snoc, reported_snoc,
            replay_snoc, hout]
          simp only [ReorderCall.report, ReorderCall.returned, ReorderCall.next, List.append_nil]
          exact ⟨hnext, by rw [hpassed, hkept]⟩

/-- The passed segments are the layout up to the playhead, which is at a segment or at the end. -/
theorem Placed.split {surv : Key → List β} {closed : Key → Bool} {p : List Key}
    {s : AudioReorder τ β} (hp : Placed last n surv closed p s) :
    segments last n = p ∧ s.nextEmitSegment = (n, 0) ∨
      ∃ rest, segments last n = p ++ s.nextEmitSegment :: rest := by
  obtain ⟨rest, hpath⟩ := hp.path
  unfold playPath at hpath
  rcases List.eq_nil_or_concat rest with rfl | ⟨rest, k, rfl⟩
  · obtain ⟨hseg, hnext⟩ := List.append_inj' hpath rfl
    exact .inl ⟨hseg, (List.singleton_inj.1 hnext).symm⟩
  · rw [List.concat_eq_append, ← List.cons_append, ← List.append_assoc] at hpath
    exact .inr ⟨rest, (List.append_inj' hpath rfl).1⟩

/-- The segments before the playhead are the passed ones. -/
theorem Placed.filter_before {surv : Key → List β} {closed : Key → Bool} {p : List Key}
    {s : AudioReorder τ β} (hp : Placed last n surv closed p s) :
    (segments last n).filter (·.before s.nextEmitSegment) = p := by
  have hbefore : p.filter (·.before s.nextEmitSegment) = p :=
    List.filter_eq_self.2 fun k hk => decide_eq_true (hp.before_next hk)
  obtain ⟨hseg, -⟩ | ⟨rest, hseg⟩ := hp.split
  · rw [hseg, hbefore]
  · have hsorted := playPath_pairwise last n
    rw [playPath, hseg, List.append_assoc] at hsorted
    have hafter : (s.nextEmitSegment :: rest).filter (·.before s.nextEmitSegment) = [] := by
      refine List.filter_eq_nil_iff.2 ?_
      intro k hk hlt
      rcases List.mem_cons.1 hk with rfl | hk
      · exact Key.before_irrefl _ (of_decide_eq_true hlt)
      · have := (List.pairwise_cons.1 (List.pairwise_append.1 hsorted).2.1).1 k
          (List.mem_append_left _ hk)
        exact Key.before_irrefl _ (Key.before_trans (of_decide_eq_true hlt) this)
    rw [hseg, List.filter_append, hbefore, hafter, List.append_nil]

/-- The reorder buffer plays text order. Over every admissible history, what the calls returned is a
prefix of the surviving chunks of the segments in the order of the layout, and all of them once every
segment is done; the segments reported as passed are those before the playhead, once each and in
order; and each call of `mark_done_ex` reports a passed segment with exactly those of its chunks that
were not returned before. -/
theorem audioReorder_emits_text_order (hadm : Admissible last n h) :
    emitted h <+: (segments last n).flatMap (survivors h) ∧
    ((∀ k ∈ segments last n, isDone h k = true) →
      emitted h = (segments last n).flatMap (survivors h)) ∧
    passedOf (reported h)
      = (segments last n).filter (·.before (replay h).nextEmitSegment) ∧
    (segments last n).Nodup ∧
    ∀ pre now k groupFinal post, h = pre ++ .markDone now k groupFinal :: post →
      Reports (survivors pre) (passedOf (reported pre)) (emitted pre)
        ((replay pre).markDoneEx now k groupFinal).1 := by
  obtain ⟨hsettled, hout⟩ := hadm.settled
  have hend : ∀ hseg : segments last n = passedOf (reported h) ∧ (replay h).nextEmitSegment = (n, 0),
      emitted h = (segments last n).flatMap (survivors h) := by
    rintro ⟨hseg, hnext⟩
    have hlast : survivors h (n, 0) = [] :=
      hsettled.silent _ fun hmem => Nat.lt_irrefl n (mem_segments.1 hmem).1
    rw [hout, hnext, hlast, List.append_nil, ← hseg]
  refine ⟨?_, ?_, hsettled.filter_before.symm, ?_, ?_⟩
  · rcases hsettled.split with hseg | ⟨rest, hseg⟩
    · rw [hend hseg]
    · refine ⟨rest.flatMap (survivors h), ?_⟩
      rw [hout, hseg, List.flatMap_append, List.flatMap_cons, List.append_assoc]
  · intro hall
    rcases hsettled.split with hseg | ⟨rest, hseg⟩
    · exact hend hseg
    · have hmem : (replay h).nextEmitSegment ∈ segments last n := by
        rw [hseg]
        exact List.mem_append_right _ List.mem_cons_self
      have hdone := hall _ hmem
      rw [hsettled.pending] at hdone
      cases hdone
  · have hsorted := List.Pairwise.sublist (List.sublist_append_left _ _)
      (playPath_pairwise last n)
    refine hsorted.imp ?_
    rintro a b hab rfl
    exact Key.before_irrefl a hab
  · rintro pre now k groupFinal post rfl
    rw [List.append_cons] at hadm
    obtain ⟨hpre, hk, hpending, rfl⟩ := hadm.of_append.snoc_inv
    obtain ⟨hsettled', hout'⟩ := hpre.settled
    rw [hout']
    exact (hsettled'.markDone now hk hpending).2.2

/-- Two groups, of which the first has two segments: the first attempt at the second segment is
discarded, the second group is done before the first one begins, and the last `mark_done` passes all
that is left. -/
def lookaheadCalls : List (ReorderCall Unit Nat) :=
  [.push () (0, 1) 9, .push () (1, 0) 30, .markDone () (1, 0) true, .discard () (0, 1),
    .push () (0, 1) 20, .push () (0, 0) 10, .markDone () (0, 1) true, .push () (0, 0) 11,
    .markDone () (0, 0) false]

theorem audioReorder_emits_text_order_lookahead :
    Admissible (fun g => 1 - g) 2 lookaheadCalls ∧
      emitted lookaheadCalls = [10, 11, 20, 30] ∧
      emitted lookaheadCalls = (segments (fun g => 1 - g) 2).flatMap (survivors lookaheadCalls) := by
  have hadm : Admissible (fun g => 1 - g) 2 lookaheadCalls :=
    Admissible.nil.extend (by decide +kernel)
  have hdone : ∀ k ∈ segments (fun g => 1 - g) 2, isDone lookaheadCalls k = true := by decide
  exact ⟨hadm, by decide +kernel, (audioReorder_emits_text_order hadm).2.1 hdone⟩

end

end StreamingTts.Split
