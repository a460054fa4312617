import Mathlib.Data.List.TakeWhile
import StreamingTts.Split.Presplit

/-!
# The shape of the pending queue

The queue of the splitter is a sequence of streaming tokens and of groups. A group is a run of tokens
under one key, at most as long as the capacity of its plan, whose last token bears a boundary; keys
rise along the queue. Every way of building the queue gives this shape, and marking further
boundaries keeps it. The re-planner keeps the tokens of the queue in order and gives it this shape
again (`replan_queue`), and so never raises.
-/

namespace StreamingTts.Split

section
variable {F : Type}

/-- The last token of the list, which there is, bears a boundary. -/
def Closed : List (PendingToken F) → Prop
  | [] => False
  | [pt] => pt.boundary = true
  | _ :: pt :: pts => Closed (pt :: pts)

/-- The queued tokens of a group, or what is left of them. -/
structure IsGroup (key : Nat) (plan : PresplitPlan F) (toks : List (PendingToken F)) : Prop where
  member : ∀ pt ∈ toks, pt.groupKey = some key ∧ pt.plan = some plan
  closed : Closed toks
  size : (toks.length : Int) ≤ plan.cap

/-- A queue whose keys are in `lo .. hi`. -/
inductive Queue : Nat → Nat → List (PendingToken F) → Prop
  | nil {lo hi : Nat} : Queue lo hi []
  | stream {lo hi : Nat} {pt : PendingToken F} {rest : List (PendingToken F)} :
      pt.groupKey = none → Queue lo hi rest → Queue lo hi (pt :: rest)
  | group {lo hi key : Nat} {plan : PresplitPlan F} {toks rest : List (PendingToken F)} :
      lo ≤ key → key < hi → IsGroup key plan toks → Queue (key + 1) hi rest →
      Queue lo hi (toks ++ rest)

/-- The tokens of a queue. -/
def tokensOf (pending : List (PendingToken F)) : List SegmentToken := pending.map (·.token)

@[simp] theorem tokensOf_nil : tokensOf ([] : List (PendingToken F)) = [] := rfl

@[simp] theorem tokensOf_cons (pt : PendingToken F) (pending : List (PendingToken F)) :
    tokensOf (pt :: pending) = pt.token :: tokensOf pending := rfl

@[simp] theorem tokensOf_append (a b : List (PendingToken F)) :
    tokensOf (a ++ b) = tokensOf a ++ tokensOf b := List.map_append

variable {key lo hi : Nat} {plan : PresplitPlan F} {toks pending : List (PendingToken F)}

theorem Closed.ne_nil (h : Closed toks) : toks ≠ [] := by
  rintro rfl
  exact h

/-- What is left after the first token. -/
theorem Closed.tail {pt : PendingToken F} (h : Closed (pt :: toks)) (hne : toks ≠ []) :
    Closed toks := by
  cases toks with
  | nil => exact absurd rfl hne
  | cons a toks => exact h

/-- A first token without a boundary is not the last one. -/
theorem Closed.tail_ne_nil {pt : PendingToken F} (h : Closed (pt :: toks))
    (hb : pt.boundary = false) : toks ≠ [] := by
  rintro rfl
  have : pt.boundary = true := h
  rw [hb] at this
  cases this

/-- What is left of a group after its first token. -/
theorem IsGroup.tail {pt : PendingToken F} (h : IsGroup key plan (pt :: toks)) (hne : toks ≠ []) :
    IsGroup key plan toks := by
  refine ⟨fun pt hpt => h.member pt (List.mem_cons_of_mem _ hpt), h.closed.tail hne, ?_⟩
  have := h.size
  rw [List.length_cons] at this
  omega

/-- A queue fits in wider bounds. -/
theorem Queue.mono (h : Queue lo hi pending) {lo' hi' : Nat} (hlo : lo' ≤ lo) (hhi : hi ≤ hi') :
    Queue lo' hi' pending := by
  induction h generalizing lo' with
  | nil => exact .nil
  | stream hkey _ ih => exact .stream hkey (ih hlo hhi)
  | group hle hlt hgroup _ ih =>
      exact .group (hlo.trans hle) (Nat.lt_of_lt_of_le hlt hhi) hgroup (ih (Nat.le_refl _) hhi)

/-- A queue goes on with later keys. -/
theorem Queue.append {mid : Nat} {a b : List (PendingToken F)} (ha : Queue lo mid a)
    (hb : Queue mid hi b) (hlo : lo ≤ mid) (hmid : mid ≤ hi) : Queue lo hi (a ++ b) := by
  induction ha with
  | nil => exact hb.mono hlo (Nat.le_refl _)
  | stream hkey _ ih => exact .stream hkey (ih hb hlo hmid)
  | group hle hlt hgroup _ ih =>
      rw [List.append_assoc]
      exact .group hle (Nat.lt_of_lt_of_le hlt hmid) hgroup (ih hb hlt hmid)

/-! ## Further boundaries -/

/-- The second token is the first one, with more boundaries. -/
def PendingToken.Marked (a b : PendingToken F) : Prop :=
  b.token = a.token ∧ b.groupKey = a.groupKey ∧ b.plan = a.plan ∧
    (a.boundary = true → b.boundary = true)

theorem PendingToken.Marked.refl (a : PendingToken F) : a.Marked a := ⟨rfl, rfl, rfl, id⟩

variable {pending' : List (PendingToken F)}

theorem Closed.marked (h : Closed pending) (hm : List.Forall₂ PendingToken.Marked pending pending') :
    Closed pending' := by
  induction hm with
  | nil => exact h
  | @cons a b as bs hab hrest ih =>
      cases hrest with
      | nil => exact hab.2.2.2 h
      | cons => exact ih h

/-- A marked group is a group. -/
theorem IsGroup.marked (h : IsGroup key plan pending)
    (hm : List.Forall₂ PendingToken.Marked pending pending') : IsGroup key plan pending' := by
  refine ⟨?_, h.closed.marked hm, by rw [← hm.length_eq]; exact h.size⟩
  have hmember := h.member
  clear h
  induction hm with
  | nil => exact fun pt hpt => absurd hpt List.not_mem_nil
  | cons hab _ ih =>
      obtain ⟨-, hkey, hplan, -⟩ := hab
      obtain ⟨hk, hp⟩ := hmember _ List.mem_cons_self
      intro pt hpt
      rcases List.mem_cons.1 hpt with rfl | hpt
      · exact ⟨hkey.trans hk, hplan.trans hp⟩
      · exact ih (fun pt hpt => hmember pt (List.mem_cons_of_mem _ hpt)) pt hpt

/-- Marking boundaries keeps the shape of a queue. -/
theorem Queue.marked (h : Queue lo hi pending)
    (hm : List.Forall₂ PendingToken.Marked pending pending') : Queue lo hi pending' := by
  induction h generalizing pending' with
  | nil =>
      cases hm
      exact .nil
  | stream hkey _ ih =>
      cases hm with
      | cons hab hrest => exact .stream (hab.2.1.trans hkey) (ih hrest)
  | @group lo hi key plan toks rest hle hlt hgroup _ ih =>
      have htake := List.forall₂_take toks.length hm
      have hdrop := List.forall₂_drop toks.length hm
      rw [List.take_left] at htake
      rw [List.drop_left] at hdrop
      rw [← List.take_append_drop toks.length pending']
      exact .group hle hlt (hgroup.marked htake) (ih hdrop)

/-- Marking boundaries keeps the tokens. -/
theorem tokensOf_marked (hm : List.Forall₂ PendingToken.Marked pending pending') :
    tokensOf pending' = tokensOf pending := by
  induction hm with
  | nil => rfl
  | cons hab _ ih => rw [tokensOf_cons, tokensOf_cons, hab.1, ih]

/-! ## Planned groups -/

theorem tokensOf_groupPending (plan : PresplitPlan F) (key : Nat) (tokens : List SegmentToken) :
    tokensOf (groupPending plan key tokens) = tokens := by
  induction tokens with
  | nil => rfl
  | cons token tokens ih =>
      cases tokens with
      | nil => rfl
      | cons token' tokens => exact congrArg (token :: ·) ih

/-- The tokens of a planned group are one. -/
theorem isGroup_groupPending {tokens : List SegmentToken} (hne : tokens ≠ [])
    (hsize : (tokens.length : Int) ≤ plan.cap) :
    IsGroup key plan (groupPending plan key tokens) := by
  refine ⟨?_, ?_, ?_⟩
  · clear hne hsize
    induction tokens with
    | nil => exact fun pt hpt => absurd hpt List.not_mem_nil
    | cons token tokens ih =>
        cases tokens with
        | nil =>
            intro pt hpt
            cases List.mem_singleton.1 hpt
            exact ⟨rfl, rfl⟩
        | cons token' tokens =>
            intro pt hpt
            rcases List.mem_cons.1 hpt with rfl | hpt
            · exact ⟨rfl, rfl⟩
            · exact ih pt hpt
  · clear hsize
    induction tokens with
    | nil => exact absurd rfl hne
    | cons token tokens ih =>
        cases tokens with
        | nil => rfl
        | cons token' tokens =>
            have := ih (by simp)
            cases tokens with
            | nil => exact this
            | cons => exact this
  · have hlen := congrArg List.length (tokensOf_groupPending plan key tokens)
    rw [tokensOf, List.length_map] at hlen
    rw [hlen]
    exact hsize

/-- `_build_planned_pending` does not raise, keeps the tokens, and gives a queue. -/
theorem groupsPending_queue (groups : List (List SegmentToken)) (key : Nat)
    (h : ∀ g ∈ groups, g ≠ [] ∧ (g.length : Int) ≤ plan.cap) :
    ∃ pending key', groupsPending plan key groups = .ok (pending, key') ∧ key ≤ key' ∧
      Queue key key' pending ∧ tokensOf pending = groups.flatten := by
  induction groups generalizing key with
  | nil => exact ⟨[], key, rfl, Nat.le_refl _, .nil, rfl⟩
  | cons g groups ih =>
      obtain ⟨hne, hsize⟩ := h g List.mem_cons_self
      obtain ⟨pending, key', hok, hle, hqueue, htokens⟩ :=
        ih (key + 1) fun g' hg' => h g' (List.mem_cons_of_mem _ hg')
      refine ⟨groupPending plan key g ++ pending, key', ?_, by omega, ?_, ?_⟩
      · rw [groupsPending, if_neg hne, if_neg (not_lt.2 hsize), hok]
        rfl
      · exact .group (Nat.le_refl _) hle (isGroup_groupPending hne hsize) hqueue
      · rw [tokensOf_append, tokensOf_groupPending, htokens, List.flatten_cons]

/-- The queue of a planned text. -/
theorem buildPlannedPending_queue (plan : PresplitPlan F) (tokens : List SegmentToken) (key : Nat)
    (hcap : 1 ≤ plan.cap) :
    ∃ pending key', buildPlannedPending tokens plan key = .ok (pending, key') ∧ key ≤ key' ∧
      Queue key key' pending ∧ tokensOf pending = tokens := by
  obtain ⟨hflat, hgroups⟩ := preSplit_spec hcap tokens
  obtain ⟨pending, key', hok, hle, hqueue, htokens⟩ := groupsPending_queue _ key hgroups
  exact ⟨pending, key', hok, hle, hqueue, htokens.trans hflat⟩

/-! ## Planning again -/

/-- The marks carried over are further boundaries. -/
theorem keepMarks_marked (olds news : List (PendingToken F)) :
    List.Forall₂ PendingToken.Marked news (keepMarks olds news) := by
  induction olds generalizing news with
  | nil =>
      cases news with
      | nil => exact .nil
      | cons new news => exact List.forall₂_same.2 fun x _ => PendingToken.Marked.refl x
  | cons old olds ih =>
      cases news with
      | nil => exact .nil
      | cons new news =>
          refine .cons ⟨rfl, rfl, rfl, ?_⟩ (ih news)
          intro hb
          show (old.forcedBoundary || new.boundary) = true
          rw [hb, Bool.or_true]

theorem tokensOf_rekey (plan : PresplitPlan F) (key : Nat) (group : List (PendingToken F)) :
    tokensOf (rekey plan key group) = tokensOf group := by
  induction group with
  | nil => rfl
  | cons pt pts ih => exact congrArg (pt.token :: ·) ih

/-- A group under a new key is one. -/
theorem isGroup_rekey {group : List (PendingToken F)} (hne : group ≠ [])
    (hsize : (group.length : Int) ≤ plan.cap) : IsGroup key plan (rekey plan key group) := by
  refine ⟨?_, ?_, ?_⟩
  · clear hne hsize
    induction group with
    | nil => exact fun pt hpt => absurd hpt List.not_mem_nil
    | cons pt pts ih =>
        intro pt' hpt'
        rcases List.mem_cons.1 hpt' with rfl | hpt'
        · exact ⟨rfl, rfl⟩
        · exact ih pt' hpt'
  · clear hsize
    induction group with
    | nil => exact absurd rfl hne
    | cons pt pts ih =>
        cases pts with
        | nil => rfl
        | cons pt' pts => exact ih (by simp)
  · have hlen := congrArg List.length (tokensOf_rekey plan key group)
    rw [tokensOf, tokensOf, List.length_map, List.length_map] at hlen
    rw [hlen]
    exact hsize

/-- Regrouping a list of closed runs, the first of which has begun with `group`. -/
theorem regroup_closed {group toks rest : List (PendingToken F)} (key : Nat) (hclosed : Closed toks)
    (hsize : ((group ++ toks).length : Int) ≤ plan.cap)
    (hrest : ∀ key, ∃ out key', regroup plan key [] rest = .ok (out, key') ∧ key ≤ key' ∧
      Queue key key' out ∧ tokensOf out = tokensOf rest) :
    ∃ out key', regroup plan key group (toks ++ rest) = .ok (out, key') ∧ key ≤ key' ∧
      Queue key key' out ∧ tokensOf out = tokensOf (group ++ toks ++ rest) := by
  induction toks generalizing key group with
  | nil => exact absurd hclosed id
  | cons pt toks ih =>
      rw [List.cons_append, regroup]
      cases hb : pt.boundary with
      | false =>
          have hne := hclosed.tail_ne_nil hb
          rw [Bool.not_false, if_pos rfl]
          have hsize' : ((group ++ [pt] ++ toks).length : Int) ≤ plan.cap := by
            rwa [List.append_assoc]
          obtain ⟨out, key', hok, hle, hqueue, htokens⟩ := ih key (hclosed.tail hne) hsize'
          refine ⟨out, key', hok, hle, hqueue, ?_⟩
          rw [htokens, List.append_assoc group, List.singleton_append]
      | true =>
          rw [Bool.not_true, if_neg (by simp)]
          have hgroup : ((group ++ [pt]).length : Int) ≤ plan.cap := by
            simp only [List.length_append, List.length_cons, List.length_nil] at hsize ⊢
            push_cast at hsize ⊢
            omega
          -- the run ends here; the rest of the tokens begins a new one
          have hrun : ∃ out key', regroup plan (key + 1) [] (toks ++ rest) = .ok (out, key') ∧
              key + 1 ≤ key' ∧ Queue (key + 1) key' out ∧ tokensOf out = tokensOf (toks ++ rest) := by
            cases toks with
            | nil => exact hrest (key + 1)
            | cons pt' toks =>
                have hsize' : (([] ++ pt' :: toks).length : Int) ≤ plan.cap := by
                  simp only [List.length_append, List.length_cons, List.nil_append] at hsize ⊢
                  push_cast at hsize ⊢
                  omega
                exact ih (key + 1) hclosed hsize'
          obtain ⟨out, key', hok, hle, hqueue, htokens⟩ := hrun
          refine ⟨rekey plan key (group ++ [pt]) ++ out, key', ?_, by omega, ?_, ?_⟩
          · rw [hok]
            rfl
          · exact .group (Nat.le_refl _) hle (isGroup_rekey (by simp) hgroup) hqueue
          · rw [tokensOf_append, tokensOf_rekey, htokens]
            simp

/-- A packet of the queue whose groups are regrouped. -/
theorem regroup_queue (h : Queue lo hi pending)
    (hpacket : ∀ pt ∈ pending, pt.groupKey ≠ none ∧ pt.plan = some plan) (key : Nat) :
    ∃ out key', regroup plan key [] pending = .ok (out, key') ∧ key ≤ key' ∧
      Queue key key' out ∧ tokensOf out = tokensOf pending := by
  induction h generalizing key with
  | nil => exact ⟨[], key, rfl, Nat.le_refl _, .nil, rfl⟩
  | stream hkey _ _ => exact absurd hkey (hpacket _ List.mem_cons_self).1
  | @group lo hi key₀ plan₀ toks rest _ _ hgroup _ ih =>
      have hplan : plan₀ = plan := by
        obtain ⟨pt, hpt⟩ := List.exists_mem_of_ne_nil toks hgroup.closed.ne_nil
        have h₁ := (hgroup.member pt hpt).2
        have h₂ := (hpacket pt (List.mem_append_left _ hpt)).2
        rw [h₁] at h₂
        exact Option.some.inj h₂
      subst hplan
      have hrest := ih fun pt hpt => hpacket pt (List.mem_append_right _ hpt)
      exact regroup_closed key hgroup.closed hgroup.size hrest

section
variable [DecidableEq F]

/-- The tokens of a packet at the head of a queue, and what follows them, are queues. -/
theorem Queue.packet (h : Queue lo hi pending) (plan : PresplitPlan F) :
    Queue lo hi (pending.takeWhile (PendingToken.inPacket plan)) ∧
      Queue lo hi (pending.dropWhile (PendingToken.inPacket plan)) := by
  induction h with
  | nil => exact ⟨.nil, .nil⟩
  | @stream lo hi pt rest hkey hrest ih =>
      have hout : PendingToken.inPacket plan pt = false := by
        simp [PendingToken.inPacket, hkey]
      rw [List.takeWhile_cons_of_neg (by simp [hout]), List.dropWhile_cons_of_neg (by simp [hout])]
      exact ⟨.nil, .stream hkey hrest⟩
  | @group lo hi key plan₀ toks rest hle hlt hgroup hrest ih =>
      rcases eq_or_ne plan₀ plan with rfl | hne
      · have hin : ∀ pt ∈ toks, PendingToken.inPacket plan₀ pt = true := by
          intro pt hpt
          obtain ⟨hk, hp⟩ := hgroup.member pt hpt
          simp [PendingToken.inPacket, hk, hp]
        rw [List.takeWhile_append_of_pos hin, List.dropWhile_append_of_pos hin]
        exact ⟨.group hle hlt hgroup ih.1, ih.2.mono (by omega) (Nat.le_refl _)⟩
      · cases htoks : toks with
        | nil => exact absurd htoks hgroup.closed.ne_nil
        | cons pt toks' =>
            have hout : PendingToken.inPacket plan pt = false := by
              obtain ⟨-, hp⟩ := hgroup.member pt (by rw [htoks]; exact List.mem_cons_self)
              simp [PendingToken.inPacket, hp, hne]
            rw [List.cons_append, List.takeWhile_cons_of_neg (by simp [hout]),
              List.dropWhile_cons_of_neg (by simp [hout]), ← List.cons_append, ← htoks]
            exact ⟨.nil, .group hle hlt hgroup hrest⟩

omit [DecidableEq F] in
/-- A packet is planned again without raising, with its tokens in order. -/
theorem replanBlock_queue {live old : PresplitPlan F} (hlive : 1 ≤ live.cap) (planId key : Nat)
    (h : Queue lo hi pending)
    (hpacket : ∀ pt ∈ pending, pt.groupKey ≠ none ∧ pt.plan = some old) :
    ∃ out key', replanBlock live old planId key pending = .ok (out, key') ∧ key ≤ key' ∧
      Queue key key' out ∧ tokensOf out = tokensOf pending := by
  unfold replanBlock
  split
  · obtain ⟨out, key', hok, hle, hqueue, htokens⟩ :=
      buildPlannedPending_queue { live with id := planId } (pending.map (·.token)) key hlive
    refine ⟨keepMarks pending out, key', ?_, hle, hqueue.marked (keepMarks_marked pending out), ?_⟩
    · rw [hok]
      rfl
    · rw [tokensOf_marked (keepMarks_marked pending out), htokens]
      rfl
  · exact regroup_queue h hpacket key

/-- The re-planner does not raise; it keeps the tokens of the queue in order, and gives a queue. -/
theorem replan_queue {live : PresplitPlan F} (hlive : 1 ≤ live.cap) (turns planId key : Nat)
    (h : Queue lo hi pending) (hturns : pending.length ≤ turns) :
    ∃ out key' planId', replan live turns planId key pending = .ok (out, key', planId') ∧
      key ≤ key' ∧ Queue key key' out ∧ tokensOf out = tokensOf pending := by
  induction turns generalizing pending lo planId key with
  | zero =>
      cases List.eq_nil_of_length_eq_zero (Nat.le_zero.1 hturns)
      exact ⟨[], key, planId, rfl, Nat.le_refl _, .nil, rfl⟩
  | succ turns ih =>
      cases h with
      | nil => exact ⟨[], key, planId, rfl, Nat.le_refl _, .nil, rfl⟩
      | @stream _ _ pt rest hkey hrest =>
          obtain ⟨out, key', planId', hok, hle, hqueue, htokens⟩ :=
            ih planId key hrest (Nat.le_of_succ_le_succ hturns)
          refine ⟨pt :: out, key', planId', ?_, hle, .stream hkey hqueue, ?_⟩
          · simp only [replan, hkey, hok]
            rfl
          · rw [tokensOf_cons, tokensOf_cons, htokens]
      | @group _ _ key₀ old toks rest hle hlt hgroup hrest =>
          have hq : Queue lo hi (toks ++ rest) := .group hle hlt hgroup hrest
          cases htoks : toks with
          | nil => exact absurd htoks hgroup.closed.ne_nil
          | cons head toks' =>
              obtain ⟨hk, hp⟩ := hgroup.member head (by rw [htoks]; exact List.mem_cons_self)
              rw [htoks, List.cons_append] at hq hturns
              rw [List.cons_append]
              obtain ⟨hblock, hafter⟩ := hq.packet old
              have hpacket : ∀ pt ∈ (head :: (toks' ++ rest)).takeWhile (PendingToken.inPacket old),
                  pt.groupKey ≠ none ∧ pt.plan = some old := by
                intro pt hpt
                have := List.mem_takeWhile_imp hpt
                simp only [PendingToken.inPacket, Bool.and_eq_true, decide_eq_true_eq] at this
                exact ⟨Option.isSome_iff_ne_none.1 this.1, this.2⟩
              obtain ⟨out₁, key₁, hok₁, hle₁, hqueue₁, htokens₁⟩ :=
                replanBlock_queue hlive planId key hblock hpacket
              have hhead : PendingToken.inPacket old head = true := by
                simp [PendingToken.inPacket, hk, hp]
              have hshorter : ((head :: (toks' ++ rest)).dropWhile
                  (PendingToken.inPacket old)).length ≤ turns := by
                rw [List.dropWhile_cons_of_pos hhead]
                have := (List.dropWhile_sublist (l := toks' ++ rest)
                  (PendingToken.inPacket old)).length_le
                simp only [List.length_cons] at hturns
                omega
              obtain ⟨out₂, key₂, planId₂, hok₂, hle₂, hqueue₂, htokens₂⟩ :=
                ih (planId + 1) key₁ hafter hshorter
              refine ⟨out₁ ++ out₂, key₂, planId₂, ?_, by omega,
                hqueue₁.append hqueue₂ hle₁ hle₂, ?_⟩
              · simp only [replan, hk, hp]
                rw [hok₁]
                simp only [Except.bind, bind]
                rw [hok₂]
              · rw [tokensOf_append, htokens₁, htokens₂, ← tokensOf_append,
                  List.takeWhile_append_dropWhile]

end

end

end StreamingTts.Split
