import StreamingTts.Engine.CursorPlan
import StreamingTts.Lib.Transition

/-!
# Extending a cursor plan against building it anew

`Projection.after` puts a projection behind the labels, the owners and the ids of another one, and
`project_after` says when the loop of `build` gets there: what a list of commits adds behind a
projection is what it adds to an empty one, provided that no owner id is taken twice. The incremental
path compares the ids that own a span, and the loop all the ids it has taken, a split commit's own
among them; `HiddenCollision` is an id that only the second comparison sees.

`incremental_eq_rebuild` is about every history of calls that meets no such collision: the plan that
the next call returns is the plan of a new adapter exactly when the next call does not meet one either.
-/

namespace StreamingTts.Engine.Cursor

open Frontend (Text SpanKind)
open Lib

/-! ## Owner spans -/

/-- The constructor gives a span with the fields it was given. -/
theorem CursorOwnerSpan.new_fields {f : OwnerFields} {owner : CursorOwnerSpan}
    (h : CursorOwnerSpan.new f = .ok owner) : owner.toOwnerFields = f := by
  unfold CursorOwnerSpan.new at h
  split_ifs at h
  cases h
  rfl

/-- The constructor accepts the fields of a span. -/
theorem CursorOwnerSpan.new_toOwnerFields (owner : CursorOwnerSpan) :
    CursorOwnerSpan.new owner.toOwnerFields = .ok owner := by
  obtain ⟨f, hlabel, hstart, hnormalized, hraw, hend⟩ := owner
  have h₁ : ¬ f.labelEnd < f.labelStart := by omega
  have h₂ : ¬ (f.normalizedStart < 0 ∨ f.normalizedEnd < f.normalizedStart) := by omega
  have h₃ : ¬ (f.rawStart < 0 ∨ f.rawEnd < f.rawStart) := by omega
  simp only [CursorOwnerSpan.new, h₁, h₂, h₃, dite_false]

/-- The constructor accepts exactly the fields of spans. -/
theorem CursorOwnerSpan.new_eq_ok {f : OwnerFields} {owner : CursorOwnerSpan} :
    CursorOwnerSpan.new f = .ok owner ↔ owner.toOwnerFields = f := by
  constructor
  · exact CursorOwnerSpan.new_fields
  · rintro rfl
    exact owner.new_toOwnerFields

theorem CursorOwnerSpan.toOwnerFields_injective {o o' : CursorOwnerSpan}
    (h : o.toOwnerFields = o'.toOwnerFields) : o = o' := by
  cases o
  cases o'
  cases h
  rfl

/-- The owner behind `offset` more labels. -/
def CursorOwnerSpan.shift (offset : Nat) (owner : CursorOwnerSpan) : CursorOwnerSpan :=
  { owner with
    labelStart := owner.labelStart + offset
    labelEnd := owner.labelEnd + offset
    label_le := Nat.add_le_add_right owner.label_le offset }

@[simp] theorem CursorOwnerSpan.shift_ownerId (offset : Nat) (owner : CursorOwnerSpan) :
    (owner.shift offset).ownerId = owner.ownerId := rfl

/-- `replace` with the labels moved keeps every check. -/
theorem CursorOwnerSpan.replaceLabels_eq (offset : Nat) (owner : CursorOwnerSpan) :
    owner.replaceLabels offset = .ok (owner.shift offset) :=
  CursorOwnerSpan.new_eq_ok.2 rfl

theorem mapM_replaceLabels (offset : Nat) (owners : List CursorOwnerSpan) :
    owners.mapM (CursorOwnerSpan.replaceLabels offset) =
      (.ok (owners.map (·.shift offset)) : Except String _) := by
  induction owners with
  | nil => rfl
  | cons owner owners ih =>
      simp only [List.mapM_cons, CursorOwnerSpan.replaceLabels_eq, ih]
      rfl

/-- An owner of a span that starts `offset` labels later is the owner moved. -/
theorem CursorOwnerSpan.new_shift {f : OwnerFields} {offset : Nat} {owner : CursorOwnerSpan} :
    CursorOwnerSpan.new { f with
        labelStart := offset + f.labelStart, labelEnd := offset + f.labelEnd } = .ok owner ↔
      ∃ o, CursorOwnerSpan.new f = .ok o ∧ owner = o.shift offset := by
  constructor
  · intro h
    have hfields := CursorOwnerSpan.new_fields h
    have hlabel : f.labelStart ≤ f.labelEnd := by
      have hle := owner.label_le
      rw [hfields] at hle
      exact Nat.le_of_add_le_add_left hle
    have h₁ := owner.normalized_nonneg
    have h₂ := owner.normalized_le
    have h₃ := owner.raw_nonneg
    have h₄ := owner.raw_le
    rw [hfields] at h₁ h₂ h₃ h₄
    refine ⟨⟨f, hlabel, h₁, h₂, h₃, h₄⟩, CursorOwnerSpan.new_eq_ok.2 rfl,
      CursorOwnerSpan.toOwnerFields_injective ?_⟩
    rw [hfields]
    simp only [CursorOwnerSpan.shift, Nat.add_comm]
  · rintro ⟨o, ho, rfl⟩
    refine CursorOwnerSpan.new_eq_ok.2 ?_
    rw [← CursorOwnerSpan.new_fields ho]
    simp only [CursorOwnerSpan.shift, Nat.add_comm]

/-! ## A projection behind another -/

/-- The projection `p` behind the labels, the owners and the ids of `q`. -/
def Projection.after (q p : Projection) : Projection :=
  { labelIds := q.labelIds ++ p.labelIds
    labelSpans := q.labelSpans ++ p.labelSpans
    owners := q.owners ++ p.owners.map (·.shift q.labelIds.length)
    seenOwnerIds := q.seenOwnerIds ++ p.seenOwnerIds
    normalizedCursor := p.normalizedCursor }

/-- No id is taken in both projections. -/
def Projection.Apart (q p : Projection) : Prop := q.seenOwnerIds.Disjoint p.seenOwnerIds

theorem Projection.notMem_after {q p : Projection} {id : Nat} :
    id ∉ (q.after p).seenOwnerIds ↔ id ∉ q.seenOwnerIds ∧ id ∉ p.seenOwnerIds := by
  simp [Projection.after]

theorem Projection.apart_snoc {q p p' : Projection} {id : Nat}
    (hseen : p'.seenOwnerIds = p.seenOwnerIds ++ [id]) :
    q.Apart p' ↔ q.Apart p ∧ id ∉ q.seenOwnerIds := by
  simp only [Projection.Apart, hseen, List.disjoint_append_right, List.disjoint_singleton]

/-- The ids of the owners of a split commit. -/
def literalIds (ownerId i n : Nat) : List Nat := (List.range' i n).map (literalOwnerId ownerId)

theorem literalIds_succ (ownerId i n : Nat) :
    literalIds ownerId i (n + 1) = literalOwnerId ownerId i :: literalIds ownerId (i + 1) n := by
  simp [literalIds, List.range'_succ]

/-- The loop over a split commit returns when every id is free and every owner is a span. -/
theorem addLiteralOwners_cons {origin : OwnerOrigin} {i : Nat} {span : Int × Int}
    {spans : List (Int × Int)} {p p' : Projection} :
    addLiteralOwners origin i (span :: spans) p = .ok p' ↔
      literalOwnerId origin.ownerId i ∉ p.seenOwnerIds ∧
      ∃ owner, CursorOwnerSpan.new (origin.literal i span) = .ok owner ∧
        addLiteralOwners origin (i + 1) spans (p.addLiteral owner) = .ok p' := by
  rw [addLiteralOwners]
  by_cases hid : literalOwnerId origin.ownerId i ∈ p.seenOwnerIds
  · simp [hid]
  · simp only [hid, if_false, not_false_eq_true, true_and]
    exact bind_eq_ok

/-- A split commit adds one owner for each of its label spans, under an id of its own. -/
theorem addLiteralOwners_spec {origin : OwnerOrigin} {i : Nat} {spans : List (Int × Int)}
    {p p' : Projection} (h : addLiteralOwners origin i spans p = .ok p') :
    ∃ owners, p' = { p with
        seenOwnerIds := p.seenOwnerIds ++ literalIds origin.ownerId i spans.length
        owners := p.owners ++ owners } ∧
      owners.map (·.ownerId) = literalIds origin.ownerId i spans.length := by
  induction spans generalizing i p with
  | nil =>
      cases h
      exact ⟨[], by simp [literalIds], rfl⟩
  | cons span spans ih =>
      obtain ⟨-, owner, howner, hrest⟩ := addLiteralOwners_cons.1 h
      have hid : owner.ownerId = literalOwnerId origin.ownerId i := by
        rw [CursorOwnerSpan.new_fields howner]
        rfl
      obtain ⟨owners, rfl, hids⟩ := ih hrest
      refine ⟨owner :: owners, ?_, ?_⟩
      · simp only [Projection.addLiteral, hid, List.length_cons, literalIds_succ, List.append_assoc,
          List.singleton_append]
      · simp only [List.map_cons, List.length_cons, literalIds_succ, hids, hid]

/-- The commit of an owner, `offset` labels later. -/
def OwnerOrigin.shift (offset : Nat) (origin : OwnerOrigin) : OwnerOrigin :=
  { origin with labelStart := offset + origin.labelStart }

theorem OwnerOrigin.shift_literal (offset : Nat) (origin : OwnerOrigin) (i : Nat)
    (span : Int × Int) :
    (origin.shift offset).literal i span = { origin.literal i span with
      labelStart := offset + (origin.literal i span).labelStart
      labelEnd := offset + (origin.literal i span).labelEnd } := by
  simp only [OwnerOrigin.literal, OwnerOrigin.shift, Nat.add_assoc]
  rfl

theorem Projection.after_addLiteral (q p : Projection) (owner : CursorOwnerSpan) :
    (q.after p).addLiteral (owner.shift q.labelIds.length) = q.after (p.addLiteral owner) := by
  simp [Projection.addLiteral, Projection.after]

/-- Behind another projection a split commit adds what it adds to its own, unless an id is taken
there. -/
theorem addLiteralOwners_after {q : Projection} {origin : OwnerOrigin} {i : Nat}
    {spans : List (Int × Int)} {p r : Projection} (hapart : q.Apart p) :
    addLiteralOwners (origin.shift q.labelIds.length) i spans (q.after p) = .ok r ↔
      ∃ p', addLiteralOwners origin i spans p = .ok p' ∧ q.Apart p' ∧ q.after p' = r := by
  induction spans generalizing i p with
  | nil =>
      constructor
      · intro h
        cases h
        exact ⟨p, rfl, hapart, rfl⟩
      · rintro ⟨p', hp', -, rfl⟩
        cases hp'
        rfl
  | cons span spans ih =>
      rw [addLiteralOwners_cons, OwnerOrigin.shift_literal, Projection.notMem_after]
      constructor
      · rintro ⟨⟨hq, hp⟩, owner, howner, hrest⟩
        obtain ⟨o, ho, rfl⟩ := CursorOwnerSpan.new_shift.1 howner
        have hid : o.ownerId = literalOwnerId origin.ownerId i := by
          rw [CursorOwnerSpan.new_fields ho]
          rfl
        rw [Projection.after_addLiteral] at hrest
        obtain ⟨p', hp', hapart', rfl⟩ :=
          (ih ((Projection.apart_snoc rfl).2 ⟨hapart, hid ▸ hq⟩)).1 hrest
        exact ⟨p', addLiteralOwners_cons.2 ⟨hp, o, ho, hp'⟩, hapart', rfl⟩
      · rintro ⟨p', hp', hapart', rfl⟩
        obtain ⟨hp, o, ho, hrest⟩ := addLiteralOwners_cons.1 hp'
        have hid : o.ownerId = literalOwnerId origin.ownerId i := by
          rw [CursorOwnerSpan.new_fields ho]
          rfl
        -- what the rest of the loop leaves apart was apart here
        obtain ⟨owners, rfl, -⟩ := addLiteralOwners_spec hrest
        have hnext : q.Apart (p.addLiteral o) := (List.disjoint_append_right.1 hapart').1
        have hq := ((Projection.apart_snoc rfl).1 hnext).2
        refine ⟨⟨hid ▸ hq, hp⟩, o.shift q.labelIds.length, CursorOwnerSpan.new_shift.2 ⟨o, ho, rfl⟩, ?_⟩
        rw [Projection.after_addLiteral]
        exact (ih hnext).2 ⟨_, hrest, hapart', rfl⟩

/-- Behind another projection a commit gets the owners it gets in its own. -/
theorem addOwners_after {q : Projection} {splits : Bool} {origin : OwnerOrigin} {labels : List Int}
    {spans : List (Int × Int)} {p r : Projection} (hapart : q.Apart p) :
    addOwners splits (origin.shift q.labelIds.length) labels spans (q.after p) = .ok r ↔
      ∃ p', addOwners splits origin labels spans p = .ok p' ∧ q.Apart p' ∧ q.after p' = r := by
  unfold addOwners
  by_cases hlabels : labels = []
  · simp only [if_pos hlabels]
    constructor
    · intro h
      cases h
      exact ⟨p, rfl, hapart, rfl⟩
    · rintro ⟨p', hp', -, rfl⟩
      cases hp'
      rfl
  · simp only [if_neg hlabels]
    by_cases hsplits : splits = true ∧ spans ≠ []
    · simp only [if_pos hsplits]
      exact addLiteralOwners_after hapart
    · simp only [if_neg hsplits]
      have hwhole : (origin.shift q.labelIds.length).whole (q.after p).labelIds.length
          (q.after p).normalizedCursor =
          { origin.whole p.labelIds.length p.normalizedCursor with
            labelStart := q.labelIds.length
              + (origin.whole p.labelIds.length p.normalizedCursor).labelStart
            labelEnd := q.labelIds.length
              + (origin.whole p.labelIds.length p.normalizedCursor).labelEnd } := by
        simp [OwnerOrigin.whole, OwnerOrigin.shift, Projection.after]
      rw [hwhole]
      constructor
      · intro h
        obtain ⟨owner, howner, hr⟩ := bind_eq_ok.1 h
        obtain ⟨o, ho, rfl⟩ := CursorOwnerSpan.new_shift.1 howner
        cases hr
        refine ⟨_, bind_eq_ok.2 ⟨o, ho, rfl⟩, hapart, ?_⟩
        simp [Projection.after]
      · rintro ⟨p', hp', -, rfl⟩
        obtain ⟨o, ho, hp'⟩ := bind_eq_ok.1 hp'
        cases hp'
        refine bind_eq_ok.2 ⟨_, CursorOwnerSpan.new_shift.2 ⟨o, ho, rfl⟩, ?_⟩
        simp [Projection.after, pure, Except.pure]

/-- The ids of the owners a commit gets, and the ones it takes while it gets them. -/
theorem addOwners_spec {splits : Bool} {origin : OwnerOrigin} {labels : List Int}
    {spans : List (Int × Int)} {p p' : Projection}
    (h : addOwners splits origin labels spans p = .ok p') :
    ∃ owners, p' = { p with
        seenOwnerIds := p.seenOwnerIds ++ (if labels = [] ∨ ¬ (splits = true ∧ spans ≠ []) then []
          else literalIds origin.ownerId 0 spans.length)
        owners := p.owners ++ owners } ∧
      owners.map (·.ownerId) = if labels = [] then []
        else if splits = true ∧ spans ≠ [] then literalIds origin.ownerId 0 spans.length
        else [origin.ownerId] := by
  unfold addOwners at h
  by_cases hlabels : labels = []
  · rw [if_pos hlabels] at h
    cases h
    exact ⟨[], by simp [hlabels], by simp [hlabels]⟩
  · rw [if_neg hlabels] at h
    by_cases hsplits : splits = true ∧ spans ≠ []
    · rw [if_pos hsplits] at h
      obtain ⟨owners, rfl, hids⟩ := addLiteralOwners_spec h
      exact ⟨owners, by simp [hlabels, hsplits], by rw [if_neg hlabels, if_pos hsplits, hids]⟩
    · rw [if_neg hsplits] at h
      obtain ⟨owner, howner, hp'⟩ := bind_eq_ok.1 h
      cases hp'
      refine ⟨[owner], by simp [hsplits], ?_⟩
      rw [if_neg hlabels, if_neg hsplits, List.map_singleton, CursorOwnerSpan.new_fields howner]
      rfl

/-! ## Commits -/

variable {γ : Type}

/-- The ids that are taken for a commit with a text, and those of them that own a span. There are none
where the raw span or the labels are not valid. -/
def commitIds (labelize : Labelizer) (commit : CommitRecord γ) (spoken : Text) :
    Option (List Nat × List Nat) :=
  match rawSpan commit, labelize.labels spoken with
  | .ok (rawStart, rawEnd), .ok (labels, spans) =>
      let id := commit.commitId.toNat
      let literal := literalIds id 0 spans.length
      if labels = [] then some ([id], [])
      else if splitsCharacterOwners commit spoken rawStart rawEnd = true ∧ spans ≠ [] then
        some (id :: literal, literal)
      else some ([id], [id])
  | _, _ => none

/-- The ids that the loop of `build` takes for a commit: its own, and one for each label where it is
split. -/
def takenIds (labelize : Labelizer) (entry : CommitRecord γ × Text) : List Nat :=
  if entry.2 = [] then [] else ((commitIds labelize entry.1 entry.2).map Prod.fst).getD []

/-- The ids that own a span in the plan of a commit: its own, or where it is split those of its
labels. -/
def ownedIds (labelize : Labelizer) (entry : CommitRecord γ × Text) : List Nat :=
  if entry.2 = [] then [] else ((commitIds labelize entry.1 entry.2).map Prod.snd).getD []

theorem ownerId_of_pos {commit : CommitRecord γ} (hpos : 0 < commit.commitId) (ordinal : Nat) :
    ownerId commit ordinal = commit.commitId.toNat := if_pos hpos

/-- The owner of a commit before it is cut. -/
def origin (id : Nat) (raw : Int × Int) (spans : List (Int × Int)) (p : Projection) : OwnerOrigin :=
  { ownerId := id, rawStart := raw.1, rawEnd := raw.2, normalizedStart := p.normalizedCursor
    labelStart := p.labelIds.length, count := spans.length }

/-- A round of the loop returns when the id is free, the raw span and the labels are valid, and the
owners are spans. -/
theorem addCommit_eq_ok {labelize : Labelizer} {ordinal : Nat} {commit : CommitRecord γ}
    {spoken : Text} {p p' : Projection} (hspoken : spoken ≠ []) :
    addCommit labelize ordinal commit spoken p = .ok p' ↔
      ownerId commit ordinal ∉ p.seenOwnerIds ∧
      ∃ raw, rawSpan commit = .ok raw ∧ ∃ ls, labelize.labels spoken = .ok ls ∧
        ¬ ls.1.any (· < 0) ∧
        addOwners (splitsCharacterOwners commit spoken raw.1 raw.2)
          (origin (ownerId commit ordinal) raw ls.2 p) ls.1 ls.2
          (p.extend (ownerId commit ordinal) spoken ls.1 ls.2) = .ok p' := by
  rw [addCommit, if_neg hspoken]
  by_cases hid : ownerId commit ordinal ∈ p.seenOwnerIds
  · simp [hid]
  · simp only [hid, if_false, not_false_eq_true, true_and]
    rw [bind_eq_ok]
    refine exists_congr fun raw => and_congr_right fun _ => ?_
    rw [bind_eq_ok]
    exact exists_congr fun ls => and_congr_right fun _ => check_eq_ok

theorem addCommit_nil {labelize : Labelizer} {ordinal : Nat} {commit : CommitRecord γ}
    {p : Projection} : addCommit labelize ordinal commit [] p = .ok p := by
  rw [addCommit, if_pos rfl]

theorem Projection.after_extend (q p : Projection) (id : Nat) (spoken : Text) (labels : List Int)
    (spans : List (Int × Int)) :
    (q.after p).extend id spoken labels spans = q.after (p.extend id spoken labels spans) := by
  simp [Projection.after, Projection.extend]

theorem origin_after (id : Nat) (raw : Int × Int) (spans : List (Int × Int)) (q p : Projection) :
    origin id raw spans (q.after p) = (origin id raw spans p).shift q.labelIds.length := by
  simp [origin, OwnerOrigin.shift, Projection.after]

/-- What a round of the loop adds. -/
structure Added (labelize : Labelizer) (commits : List (CommitRecord γ × Text))
    (p p' : Projection) : Prop where
  taken : p'.seenOwnerIds = p.seenOwnerIds ++ commits.flatMap (takenIds labelize)
  owned : p'.owners.map (·.ownerId) = p.owners.map (·.ownerId) ++ commits.flatMap (ownedIds labelize)
  cursor : p'.normalizedCursor = p.normalizedCursor + (commits.map (·.2.length)).sum

theorem addCommit_spec {labelize : Labelizer} {ordinal : Nat} {commit : CommitRecord γ}
    {spoken : Text} {p p' : Projection} (hpos : 0 < commit.commitId)
    (h : addCommit labelize ordinal commit spoken p = .ok p') :
    Added labelize [(commit, spoken)] p p' := by
  by_cases hspoken : spoken = []
  · subst hspoken
    rw [addCommit_nil] at h
    cases h
    exact ⟨by simp [takenIds], by simp [ownedIds], by simp⟩
  · obtain ⟨-, raw, hraw, ls, hls, -, howners⟩ := (addCommit_eq_ok hspoken).1 h
    rw [ownerId_of_pos hpos] at howners
    obtain ⟨owners, rfl, hids⟩ := addOwners_spec howners
    have hcut : commitIds labelize commit spoken =
        if ls.1 = [] then some ([commit.commitId.toNat], [])
        else if splitsCharacterOwners commit spoken raw.1 raw.2 = true ∧ ls.2 ≠ [] then
          some (commit.commitId.toNat :: literalIds commit.commitId.toNat 0 ls.2.length,
            literalIds commit.commitId.toNat 0 ls.2.length)
        else some ([commit.commitId.toNat], [commit.commitId.toNat]) := by
      rw [commitIds, hraw, hls]
    simp only [origin] at hids
    by_cases hlabels : ls.1 = []
    · simp only [hlabels, if_true] at hids
      simp only [hlabels, if_true] at hcut
      constructor
      · simp [takenIds, hspoken, hcut, Projection.extend, hlabels]
      · simp [ownedIds, hspoken, hcut, Projection.extend, hids]
      · simp [Projection.extend]
    · by_cases hsplits : splitsCharacterOwners commit spoken raw.1 raw.2 = true ∧ ls.2 ≠ []
      · simp only [if_neg hlabels, if_pos hsplits] at hids hcut
        constructor
        · simp [takenIds, hspoken, hcut, Projection.extend, hlabels, hsplits, origin]
        · simp [ownedIds, hspoken, hcut, Projection.extend, hids]
        · simp [Projection.extend]
      · simp only [if_neg hlabels, if_neg hsplits] at hids hcut
        constructor
        · simp [takenIds, hspoken, hcut, Projection.extend, hsplits]
        · simp [ownedIds, hspoken, hcut, Projection.extend, hids]
        · simp [Projection.extend]

/-- Behind another projection a commit adds what it adds to its own, unless an id is taken there. -/
theorem addCommit_after {labelize : Labelizer} {i j : Nat} {commit : CommitRecord γ} {spoken : Text}
    {q p r : Projection} (hpos : 0 < commit.commitId) (hapart : q.Apart p) :
    addCommit labelize i commit spoken (q.after p) = .ok r ↔
      ∃ p', addCommit labelize j commit spoken p = .ok p' ∧ q.Apart p' ∧ q.after p' = r := by
  by_cases hspoken : spoken = []
  · subst hspoken
    simp only [addCommit_nil]
    constructor
    · intro h
      cases h
      exact ⟨p, rfl, hapart, rfl⟩
    · rintro ⟨p', hp', -, rfl⟩
      cases hp'
      rfl
  · rw [addCommit_eq_ok hspoken, ownerId_of_pos hpos, Projection.notMem_after]
    constructor
    · rintro ⟨⟨hq, hp⟩, raw, hraw, ls, hls, hneg, howners⟩
      rw [origin_after, Projection.after_extend] at howners
      obtain ⟨p', hp', hapart', rfl⟩ :=
        (addOwners_after ((Projection.apart_snoc rfl).2 ⟨hapart, hq⟩)).1 howners
      refine ⟨p', (addCommit_eq_ok hspoken).2 ?_, hapart', rfl⟩
      rw [ownerId_of_pos hpos]
      exact ⟨hp, raw, hraw, ls, hls, hneg, hp'⟩
    · rintro ⟨p', hp', hapart', rfl⟩
      obtain ⟨hp, raw, hraw, ls, hls, hneg, howners⟩ := (addCommit_eq_ok hspoken).1 hp'
      rw [ownerId_of_pos hpos] at hp howners
      -- what the owners leave apart was apart before them
      obtain ⟨owners, rfl, -⟩ := addOwners_spec howners
      have hnext : q.Apart (p.extend commit.commitId.toNat spoken ls.1 ls.2) :=
        (List.disjoint_append_right.1 hapart').1
      have hq := ((Projection.apart_snoc rfl).1 hnext).2
      refine ⟨⟨hq, hp⟩, raw, hraw, ls, hls, hneg, ?_⟩
      rw [origin_after, Projection.after_extend]
      exact (addOwners_after hnext).2 ⟨_, howners, hapart', rfl⟩

/-! ## Lists of commits -/

/-- Every commit has an id of its own to name its owners with. -/
def Named (commits : List (CommitRecord γ × Text)) : Prop := ∀ entry ∈ commits, 0 < entry.1.commitId

theorem project_cons_eq_ok {labelize : Labelizer} {i : Nat} {entry : CommitRecord γ × Text}
    {commits : List (CommitRecord γ × Text)} {p r : Projection} :
    project labelize i (entry :: commits) p = .ok r ↔
      ∃ p₁, addCommit labelize i entry.1 entry.2 p = .ok p₁ ∧
        project labelize (i + 1) commits p₁ = .ok r := by
  rw [project]
  exact bind_eq_ok

theorem project_spec {labelize : Labelizer} {i : Nat} {commits : List (CommitRecord γ × Text)}
    {p p' : Projection} (hnamed : Named commits) (h : project labelize i commits p = .ok p') :
    Added labelize commits p p' := by
  induction commits generalizing i p with
  | nil =>
      cases h
      exact ⟨by simp, by simp, by simp⟩
  | cons entry commits ih =>
      obtain ⟨p₁, hadd, hrest⟩ := project_cons_eq_ok.1 h
      have hfirst := addCommit_spec (hnamed _ List.mem_cons_self) hadd
      have hlast := ih (fun e he => hnamed e (List.mem_cons_of_mem _ he)) hrest
      constructor
      · rw [hlast.taken, hfirst.taken]
        simp
      · rw [hlast.owned, hfirst.owned]
        simp
      · rw [hlast.cursor, hfirst.cursor]
        simp [Int.add_assoc]

/-- The loop over two lists of commits is the loop over the first and then over the second. -/
theorem project_append_eq_ok {labelize : Labelizer} {i : Nat}
    {commits more : List (CommitRecord γ × Text)} {p r : Projection} :
    project labelize i (commits ++ more) p = .ok r ↔
      ∃ p₁, project labelize i commits p = .ok p₁ ∧
        project labelize (i + commits.length) more p₁ = .ok r := by
  induction commits generalizing i p with
  | nil => simp [project]
  | cons entry commits ih =>
      rw [List.cons_append, project_cons_eq_ok]
      simp only [ih, project_cons_eq_ok, List.length_cons]
      constructor
      · rintro ⟨p₁, hadd, p₂, hp₂, hmore⟩
        exact ⟨p₂, ⟨p₁, hadd, hp₂⟩, by rwa [Nat.add_comm commits.length 1, ← Nat.add_assoc]⟩
      · rintro ⟨p₂, ⟨p₁, hadd, hp₂⟩, hmore⟩
        exact ⟨p₁, hadd, p₂, hp₂, by rwa [Nat.add_comm commits.length 1, ← Nat.add_assoc] at hmore⟩

/-- Behind another projection a list of commits adds what it adds to its own, unless an id is taken
there. -/
theorem project_after {labelize : Labelizer} {i j : Nat} {commits : List (CommitRecord γ × Text)}
    {q p r : Projection} (hnamed : Named commits) (hapart : q.Apart p) :
    project labelize i commits (q.after p) = .ok r ↔
      ∃ p', project labelize j commits p = .ok p' ∧ q.Apart p' ∧ q.after p' = r := by
  induction commits generalizing i j p with
  | nil =>
      simp only [project]
      constructor
      · intro h
        cases h
        exact ⟨p, rfl, hapart, rfl⟩
      · rintro ⟨p', hp', -, rfl⟩
        cases hp'
        rfl
  | cons entry commits ih =>
      have hpos := hnamed _ List.mem_cons_self
      have hrest : Named commits := fun e he => hnamed e (List.mem_cons_of_mem _ he)
      rw [project_cons_eq_ok]
      constructor
      · rintro ⟨r₁, hadd, hr⟩
        obtain ⟨p₁, hp₁, hapart₁, rfl⟩ := (addCommit_after (j := j) hpos hapart).1 hadd
        obtain ⟨p', hp', hapart', rfl⟩ := (ih (j := j + 1) hrest hapart₁).1 hr
        exact ⟨p', project_cons_eq_ok.2 ⟨p₁, hp₁, hp'⟩, hapart', rfl⟩
      · rintro ⟨p', hp', hapart', rfl⟩
        obtain ⟨p₁, hp₁, hp'⟩ := project_cons_eq_ok.1 hp'
        have hapart₁ : q.Apart p₁ := by
          rw [Projection.Apart, (project_spec hrest hp').taken] at hapart'
          exact (List.disjoint_append_right.1 hapart').1
        exact ⟨q.after p₁, (addCommit_after hpos hapart).2 ⟨p₁, hp₁, hapart₁, rfl⟩,
          (ih hrest hapart₁).2 ⟨p', hp', hapart', rfl⟩⟩

theorem Projection.after_empty (q : Projection) :
    q.after { normalizedCursor := q.normalizedCursor } = q := by
  simp [Projection.after]

/-- The projection of a list of commits that starts with commits already projected. -/
theorem project_extend {labelize : Labelizer} {commits more : List (CommitRecord γ × Text)}
    {base : Int} {q r : Projection} (hmore : Named more)
    (hq : project labelize 0 commits { normalizedCursor := base } = .ok q) :
    project labelize 0 (commits ++ more) { normalizedCursor := base } = .ok r ↔
      ∃ p, project labelize 0 more { normalizedCursor := q.normalizedCursor } = .ok p ∧
        q.Apart p ∧ q.after p = r := by
  have hempty : q.Apart { normalizedCursor := q.normalizedCursor } := List.disjoint_nil_right _
  rw [← project_after (i := 0 + commits.length) hmore hempty, Projection.after_empty,
    project_append_eq_ok]
  constructor
  · rintro ⟨p₁, hp₁, hr⟩
    cases hq.symm.trans hp₁
    exact hr
  · intro hr
    exact ⟨q, hq, hr⟩

/-! ## The adapter -/

theorem CursorLabelPlan.new_eq_ok {f : PlanFields} {plan : CursorLabelPlan} :
    CursorLabelPlan.new f = .ok plan ↔ plan.toPlanFields = f := by
  unfold CursorLabelPlan.new
  constructor
  · intro h
    split at h
    · cases h
    · cases h
      rfl
  · rintro rfl
    split
    · rename_i hcheck
      exact nomatch hcheck.symm.trans plan.checked
    · rfl

/-- The fields of a plan that are those of a projection. -/
def Projection.fields (p : Projection) (revision : Int) (final : Bool) : PlanFields :=
  { labelIds := p.labelIds, ownerSpans := p.owners, revision, final
    labelNormalizedSpans := p.labelSpans }

/-- The commits of a request with their spoken texts. -/
def Request.entries (r : Request γ) : List (CommitRecord γ × Text) := r.commits.zip r.effectiveSpoken

/-- The commits an adapter holds a plan of, with their spoken texts. -/
def Adapter.cachedEntries (self : Adapter γ) : List (CommitRecord γ × Text) :=
  self.cachedCommits.zip self.cachedSpokenTexts

theorem rebuild_eq_ok {labelize : Labelizer} {r : Request γ} {plan : CursorLabelPlan} :
    rebuild labelize r = .ok plan ↔
      ∃ p, project labelize 0 r.entries { normalizedCursor := r.normalizedBase } = .ok p ∧
        plan.toPlanFields = p.fields r.revision r.final := by
  rw [rebuild, bind_eq_ok]
  exact exists_congr fun p => and_congr_right fun _ => CursorLabelPlan.new_eq_ok

/-- A request of the histories in question: the commits have distinct positive ids, and the text starts
at `base`. -/
structure Regular (base : Int) (r : Request γ) : Prop where
  positive : ∀ commit ∈ r.commits, 0 < commit.commitId
  distinct : (r.commits.map (·.commitId)).Nodup
  base : r.normalizedBase = base

/-- The plan that an adapter holds is the one of the commits it holds. -/
structure Adapter.Holds (labelize : Labelizer) (base : Int) (adapter : Adapter γ)
    (plan : CursorLabelPlan) (q : Projection) : Prop where
  aligned : adapter.cachedCommits.length = adapter.cachedSpokenTexts.length
  projected : project labelize 0 adapter.cachedEntries { normalizedCursor := base } = .ok q
  fields : plan.toPlanFields = q.fields plan.revision plan.final
  named : Named adapter.cachedEntries
  origin : adapter.cachedNormalizedOrigin = base
  length : adapter.cachedNormalizedLength = q.normalizedCursor

/-- What every call of `build` keeps. -/
structure Adapter.Inv (labelize : Labelizer) (base : Int) (adapter : Adapter γ) : Prop where
  revision : -1 ≤ adapter.lastRevision
  holds : ∀ plan, adapter.cachedPlan = some plan → ∃ q, adapter.Holds labelize base plan q

theorem Request.effectiveSpoken_length {self : Adapter γ} {r : Request γ}
    (h : self.checkArguments r = .ok ()) : r.effectiveSpoken.length = r.commits.length := by
  unfold Adapter.checkArguments at h
  obtain ⟨-, h⟩ := check_eq_ok.1 h
  obtain ⟨-, h⟩ := check_eq_ok.1 h
  cases htexts : r.spokenTexts with
  | none => simp [Request.effectiveSpoken, htexts]
  | some texts =>
      rw [htexts] at h
      simp only at h
      by_cases hlength : texts.length = r.commits.length
      · simpa [Request.effectiveSpoken, htexts] using hlength
      · rw [if_pos hlength] at h
        cases h

variable [DecidableEq γ]

section
variable {labelize : Labelizer} {self : Adapter γ} {r : Request γ} {plan : CursorLabelPlan}

theorem Adapter.extends?_eq_some {cached : CursorLabelPlan} (h : self.extends? r = some cached) :
    self.cachedPlan = some cached ∧ r.commits.take self.cachedCommits.length = self.cachedCommits ∧
      r.effectiveSpoken.take self.cachedCommits.length = self.cachedSpokenTexts := by
  unfold Adapter.extends? at h
  simp only at h
  split at h
  · rename_i cached' _ hcached _
    split_ifs at h with hchanged
    cases h
    push Not at hchanged
    exact ⟨hcached, hchanged.2.1, hchanged.2.2⟩
  · cases h

/-- The commits of a request that extends a plan are those of the plan and the new ones. -/
theorem Adapter.entries_of_extends {cached : CursorLabelPlan} (h : self.extends? r = some cached)
    (haligned : self.cachedCommits.length = self.cachedSpokenTexts.length) :
    r.entries = self.cachedEntries ++ (self.suffixRequest r).entries := by
  obtain ⟨-, hcommits, hspoken⟩ := Adapter.extends?_eq_some h
  calc r.entries
      = (r.commits.take self.cachedCommits.length ++ r.commits.drop self.cachedCommits.length).zip
          (r.effectiveSpoken.take self.cachedCommits.length
            ++ r.effectiveSpoken.drop self.cachedCommits.length) := by
        simp only [List.take_append_drop]
        rfl
    _ = self.cachedEntries ++ (self.suffixRequest r).entries := by
        rw [hcommits, hspoken, List.zip_append haligned]
        rfl

/-- The incremental path gave a plan: the one it held, and behind it the plan of the new commits. -/
theorem Adapter.buildIncremental_eq_some (h : self.buildIncremental labelize r = .ok (some plan)) :
    ∃ cached, self.extends? r = some cached ∧ ∃ suffixPlan,
      rebuild labelize (self.suffixRequest r) = .ok suffixPlan ∧
      (∀ owner ∈ suffixPlan.ownerSpans, owner.ownerId ∉ cached.ownerSpans.map (·.ownerId)) ∧
      plan.toPlanFields =
        { labelIds := cached.labelIds ++ suffixPlan.labelIds
          ownerSpans := cached.ownerSpans
            ++ suffixPlan.ownerSpans.map (·.shift cached.labelIds.length)
          revision := r.revision
          final := r.final
          labelNormalizedSpans := cached.labelNormalizedSpans ++ suffixPlan.labelNormalizedSpans } := by
  unfold Adapter.buildIncremental at h
  split at h
  · cases h
  · rename_i cached hcached
    obtain ⟨_, -, h⟩ := bind_eq_ok.1 h
    obtain ⟨suffixPlan, hsuffix, h⟩ := bind_eq_ok.1 h
    simp only at h
    split_ifs at h with hids
    · cases h
    · rw [mapM_replaceLabels] at h
      obtain ⟨shifted, hshifted, hnew⟩ := bind_eq_ok.1 h
      cases hshifted
      obtain ⟨built, hbuilt, hcommitted⟩ := bind_eq_ok.1 hnew
      obtain ⟨_, -, hplan⟩ := bind_eq_ok.1 hcommitted
      cases hplan
      refine ⟨cached, hcached, suffixPlan, hsuffix, ?_, CursorLabelPlan.new_eq_ok.1 hbuilt⟩
      simpa using hids

/-- The incremental path left the request to the full build: the plan it held is not extended, or an
owner of the new commits has the id of one that it held. -/
theorem Adapter.buildIncremental_eq_none (h : self.buildIncremental labelize r = .ok none) :
    self.extends? r = none ∨ ∃ cached, self.extends? r = some cached ∧ ∃ suffixPlan,
      rebuild labelize (self.suffixRequest r) = .ok suffixPlan ∧
      ∃ owner ∈ suffixPlan.ownerSpans, owner.ownerId ∈ cached.ownerSpans.map (·.ownerId) := by
  unfold Adapter.buildIncremental at h
  split at h
  · exact .inl ‹_›
  · rename_i cached hcached
    obtain ⟨_, -, h⟩ := bind_eq_ok.1 h
    obtain ⟨suffixPlan, hsuffix, h⟩ := bind_eq_ok.1 h
    simp only at h
    split_ifs at h with hids
    · refine .inr ⟨cached, hcached, suffixPlan, hsuffix, ?_⟩
      simpa using hids
    · obtain ⟨_, -, h⟩ := bind_eq_ok.1 h
      obtain ⟨_, -, h⟩ := bind_eq_ok.1 h
      obtain ⟨_, -, h⟩ := bind_eq_ok.1 h
      cases h

/-- A call of `build` that returns: its arguments are valid, the plan comes from one of the two paths,
and it is what the adapter holds from then on. -/
theorem Adapter.build_eq_ok (h : (self.build labelize r).1 = .ok plan) :
    self.checkArguments r = .ok () ∧
      ((self.buildIncremental labelize r = .ok (some plan) ∧
          self.step labelize r = self.cacheProjection r.revision r.commits r.effectiveSpoken plan
            self.cachedNormalizedOrigin) ∨
        (self.buildIncremental labelize r = .ok none ∧ rebuild labelize r = .ok plan ∧
          self.step labelize r = self.cacheProjection r.revision r.commits r.effectiveSpoken plan
            r.normalizedBase)) := by
  unfold Adapter.step
  unfold Adapter.build at h ⊢
  cases harguments : self.checkArguments r with
  | error message =>
      rw [harguments] at h
      cases h
  | ok _ =>
      refine ⟨rfl, ?_⟩
      simp only [harguments] at h ⊢
      cases hincremental : self.buildIncremental labelize r with
      | error message =>
          rw [hincremental] at h
          cases h
      | ok answer =>
          simp only [hincremental] at h ⊢
          cases answer with
          | some built =>
              cases h
              exact .inl ⟨rfl, rfl⟩
          | none =>
              simp only at h ⊢
              cases hrebuild : rebuild labelize r with
              | error message =>
                  rw [hrebuild] at h
                  cases h
              | ok built =>
                  simp only [hrebuild] at h ⊢
                  cases hcommitted : checkCommittedPrefix built (r.previous.plan self)
                      r.committedLabelCount with
                  | error message =>
                      rw [hcommitted] at h
                      cases h
                  | ok _ =>
                      simp only [hcommitted] at h ⊢
                      cases h
                      exact .inr ⟨trivial, rfl, rfl⟩

/-- A call of `build` that raises leaves the adapter as it was. -/
theorem Adapter.build_error {message : String} (h : (self.build labelize r).1 = .error message) :
    (self.build labelize r).2 = self := by
  unfold Adapter.build at h ⊢
  cases harguments : self.checkArguments r with
  | error _ => rfl
  | ok _ =>
      simp only [harguments] at h ⊢
      cases hincremental : self.buildIncremental labelize r with
      | error _ => rfl
      | ok answer =>
          simp only [hincremental] at h ⊢
          cases answer with
          | some built => cases h
          | none =>
              simp only at h ⊢
              cases hrebuild : rebuild labelize r with
              | error _ => rfl
              | ok built =>
                  simp only [hrebuild] at h ⊢
                  cases hcommitted : checkCommittedPrefix built (r.previous.plan self)
                      r.committedLabelCount with
                  | error _ => rfl
                  | ok _ =>
                      simp only [hcommitted] at h
                      cases h

end

/-! ## Histories -/

/-- An id that the loop of `build` finds taken twice and the incremental path does not: the request
extends the plan, an old commit and a new one take the same id, and none of them own the same one. -/
def Adapter.HiddenCollision (labelize : Labelizer) (self : Adapter γ) (r : Request γ) : Prop :=
  self.extends? r ≠ none ∧
    (∃ id ∈ self.cachedEntries.flatMap (takenIds labelize),
      id ∈ (self.suffixRequest r).entries.flatMap (takenIds labelize)) ∧
    ∀ id ∈ self.cachedEntries.flatMap (ownedIds labelize),
      id ∉ (self.suffixRequest r).entries.flatMap (ownedIds labelize)

instance (labelize : Labelizer) (self : Adapter γ) (r : Request γ) :
    Decidable (self.HiddenCollision labelize r) :=
  inferInstanceAs (Decidable (_ ∧ _ ∧ _))

/-- The same request to a new adapter, which has no earlier plan to compare. -/
def Request.fresh (r : Request γ) : Request γ :=
  { r with previous := .other none, committedLabelCount := 0 }

section
variable {labelize : Labelizer} {base : Int} {self : Adapter γ} {r : Request γ}
  {plan : CursorLabelPlan}

/-- A new adapter builds the plan of all the commits. -/
theorem Adapter.build_fresh (harguments : self.checkArguments r = .ok ())
    (hrevision : -1 ≤ self.lastRevision) :
    (({} : Adapter γ).build labelize r.fresh).1 = rebuild labelize r := by
  have hfresh : ({} : Adapter γ).checkArguments r.fresh = .ok () := by
    unfold Adapter.checkArguments at harguments ⊢
    obtain ⟨hbase, harguments⟩ := check_eq_ok.1 harguments
    obtain ⟨hlast, harguments⟩ := check_eq_ok.1 harguments
    refine check_eq_ok.2 ⟨hbase, check_eq_ok.2 ⟨?_, harguments⟩⟩
    change ¬ r.revision < -1
    omega
  have hincremental : ({} : Adapter γ).buildIncremental labelize r.fresh = .ok none := rfl
  have hcommitted (built : CursorLabelPlan) :
      checkCommittedPrefix built (r.fresh.previous.plan ({} : Adapter γ)) r.fresh.committedLabelCount
        = .ok () := rfl
  have hrebuild : rebuild labelize r.fresh = rebuild labelize r := rfl
  unfold Adapter.build
  simp only [hfresh, hincremental, hrebuild]
  cases rebuild labelize r with
  | error message => rfl
  | ok built => simp only [hcommitted]

omit [DecidableEq γ] in
theorem Regular.named (h : Regular base r) : Named r.entries := fun entry hentry =>
  h.positive entry.1 (List.of_mem_zip hentry).1

omit [DecidableEq γ] in
/-- An adapter that holds the plan of a projection of the request's commits keeps the invariant. -/
theorem Adapter.Inv.of_project {q : Projection} (hself : self.Inv labelize base)
    (hr : Regular base r) (harguments : self.checkArguments r = .ok ())
    (hproject : project labelize 0 r.entries { normalizedCursor := base } = .ok q)
    (hplan : plan.toPlanFields = q.fields r.revision r.final) :
    (self.cacheProjection r.revision r.commits r.effectiveSpoken plan base).Inv labelize base := by
  have haligned := Request.effectiveSpoken_length harguments
  constructor
  · unfold Adapter.checkArguments at harguments
    obtain ⟨-, harguments⟩ := check_eq_ok.1 harguments
    obtain ⟨hlast, -⟩ := check_eq_ok.1 harguments
    have hrevision := hself.revision
    change -1 ≤ r.revision
    omega
  · intro held hheld
    cases hheld
    refine ⟨q, haligned.symm, hproject, ?_, hr.named, rfl, ?_⟩
    · rw [hplan]
      rfl
    · have hcursor := (project_spec hr.named hproject).cursor
      change base + ((r.effectiveSpoken.map List.length).sum : Nat) = q.normalizedCursor
      rw [hcursor]
      have hsnd : r.entries.map Prod.snd = r.effectiveSpoken := List.map_snd_zip (Nat.le_of_eq haligned)
      have hlengths : r.entries.map (·.2.length) = (r.entries.map Prod.snd).map List.length := by
        rw [List.map_map]
        rfl
      rw [hlengths, hsnd]

/-- The commits of a request that extends a plan project to the plan's projection with the new commits'
projection behind it, unless an id is taken on both sides. -/
theorem Adapter.Holds.project_eq_ok {cached : CursorLabelPlan} {q p : Projection}
    (hholds : self.Holds labelize base cached q) (hr : Regular base r)
    (hextends : self.extends? r = some cached)
    (hp : project labelize 0 (self.suffixRequest r).entries
      { normalizedCursor := self.cachedNormalizedLength } = .ok p) (r' : Projection) :
    project labelize 0 r.entries { normalizedCursor := base } = .ok r' ↔
      q.Apart p ∧ q.after p = r' := by
  have hentries := Adapter.entries_of_extends hextends hholds.aligned
  have hsuffix : Named (self.suffixRequest r).entries := fun entry hentry =>
    hr.named entry (hentries ▸ List.mem_append_right _ hentry)
  rw [hentries, project_extend hsuffix hholds.projected]
  constructor
  · rintro ⟨p', hp', hapart, rfl⟩
    rw [← hholds.length, hp] at hp'
    cases hp'
    exact ⟨hapart, rfl⟩
  · rintro ⟨hapart, rfl⟩
    exact ⟨p, by rw [← hholds.length, hp], hapart, rfl⟩

/-- The ids of the plan an adapter holds and of the new commits, as lists of the commits. -/
theorem Adapter.Holds.ids {cached : CursorLabelPlan} {q p : Projection}
    (hholds : self.Holds labelize base cached q) (hr : Regular base r)
    (hextends : self.extends? r = some cached)
    (hp : project labelize 0 (self.suffixRequest r).entries
      { normalizedCursor := self.cachedNormalizedLength } = .ok p) :
    q.seenOwnerIds = self.cachedEntries.flatMap (takenIds labelize) ∧
    p.seenOwnerIds = (self.suffixRequest r).entries.flatMap (takenIds labelize) ∧
    q.owners.map (·.ownerId) = self.cachedEntries.flatMap (ownedIds labelize) ∧
    p.owners.map (·.ownerId) = (self.suffixRequest r).entries.flatMap (ownedIds labelize) := by
  have hentries := Adapter.entries_of_extends hextends hholds.aligned
  have hsuffix : Named (self.suffixRequest r).entries := fun entry hentry =>
    hr.named entry (hentries ▸ List.mem_append_right _ hentry)
  have hq := project_spec hholds.named hholds.projected
  have hp := project_spec hsuffix hp
  exact ⟨by simpa using hq.taken, by simpa using hp.taken, by simpa using hq.owned,
    by simpa using hp.owned⟩

/-- A call of `build` in a history: it returns the plan of a new adapter unless there is a hidden
collision, and then it does not. -/
theorem Adapter.Inv.build_ok (hself : self.Inv labelize base) (hr : Regular base r)
    (h : (self.build labelize r).1 = .ok plan) :
    ((({} : Adapter γ).build labelize r.fresh).1 = .ok plan ↔ ¬ self.HiddenCollision labelize r) ∧
      (¬ self.HiddenCollision labelize r → (self.step labelize r).Inv labelize base) := by
  obtain ⟨harguments, hpath⟩ := Adapter.build_eq_ok h
  rw [Adapter.build_fresh harguments hself.revision]
  obtain ⟨hincremental, hstep⟩ | ⟨hincremental, hrebuild, hstep⟩ := hpath
  · -- the plan was extended: the ids that own a span are apart, and the question is the other ones
    obtain ⟨cached, hextends, suffixPlan, hsuffix, howners, hplan⟩ :=
      Adapter.buildIncremental_eq_some hincremental
    obtain ⟨q, hholds⟩ := hself.holds cached (Adapter.extends?_eq_some hextends).1
    obtain ⟨p, hp, hsuffixPlan⟩ := rebuild_eq_ok.1 hsuffix
    obtain ⟨hqtaken, hptaken, hqowned, hpowned⟩ := hholds.ids hr hextends hp
    have hfields : plan.toPlanFields = (q.after p).fields r.revision r.final := by
      rw [hplan, hholds.fields, hsuffixPlan]
      rfl
    have hhidden : ¬ self.HiddenCollision labelize r ↔ q.Apart p := by
      constructor
      · intro hnot id hq hp
        refine hnot ⟨by simp [hextends], ⟨id, hqtaken ▸ hq, hptaken ▸ hp⟩, ?_⟩
        intro id hq hp
        rw [← hpowned, List.mem_map] at hp
        obtain ⟨owner, howner, rfl⟩ := hp
        rw [← hqowned] at hq
        refine howners owner ?_ ?_
        · rw [hsuffixPlan]
          exact howner
        · rw [hholds.fields]
          exact hq
      · rintro hapart ⟨-, ⟨id, hq, hp⟩, -⟩
        exact hapart (hqtaken ▸ hq) (hptaken ▸ hp)
    have hproject := hholds.project_eq_ok hr hextends hp
    constructor
    · rw [hhidden, rebuild_eq_ok, hr.base]
      constructor
      · rintro ⟨r', hr', -⟩
        exact ((hproject r').1 hr').1
      · intro hapart
        exact ⟨_, (hproject _).2 ⟨hapart, rfl⟩, hfields⟩
    · intro hnot
      rw [hstep, hholds.origin]
      exact hself.of_project hr harguments ((hproject _).2 ⟨hhidden.1 hnot, rfl⟩) hfields
  · -- all the commits were projected again, as a new adapter does
    have hnot : ¬ self.HiddenCollision labelize r := by
      rintro ⟨hsome, -, howned⟩
      obtain hnone | ⟨cached, hextends, suffixPlan, hsuffix, owner, howner, hid⟩ :=
        Adapter.buildIncremental_eq_none hincremental
      · exact hsome hnone
      · obtain ⟨q, hholds⟩ := hself.holds cached (Adapter.extends?_eq_some hextends).1
        obtain ⟨p, hp, hsuffixPlan⟩ := rebuild_eq_ok.1 hsuffix
        obtain ⟨-, -, hqowned, hpowned⟩ := hholds.ids hr hextends hp
        rw [hsuffixPlan] at howner
        rw [hholds.fields] at hid
        refine howned owner.ownerId (hqowned ▸ hid) ?_
        rw [← hpowned]
        exact List.mem_map_of_mem howner
    refine ⟨iff_of_true hrebuild hnot, fun _ => ?_⟩
    obtain ⟨q, hq, hfields⟩ := rebuild_eq_ok.1 hrebuild
    rw [hr.base] at hq
    rw [hstep, hr.base]
    exact hself.of_project hr harguments hq hfields

/-- A call of `build` in a history that meets no hidden collision keeps the invariant. -/
theorem Adapter.Inv.step (hself : self.Inv labelize base)
    (hr : ¬ self.HiddenCollision labelize r ∧ Regular base r) :
    (self.step labelize r).Inv labelize base := by
  cases hbuild : (self.build labelize r).1 with
  | error message =>
      rw [Adapter.step, Adapter.build_error hbuild]
      exact hself
  | ok plan => exact (hself.build_ok hr.2 hbuild).2 hr.1

end

omit [DecidableEq γ] in
theorem Adapter.new_inv (labelize : Labelizer) (base : Int) :
    ({} : Adapter γ).Inv labelize base :=
  ⟨Int.le_refl _, fun _ h => nomatch h⟩

/-- After every history of calls that meets no hidden collision, the plan that the next call returns is
the one a new adapter builds from the same commits, exactly when that call meets none either; and a call
that raises leaves the adapter as it was. -/
theorem incremental_eq_rebuild (labelize : Labelizer) (base : Int) (rs : List (Request γ))
    (hregular : ∀ r ∈ rs, Regular base r)
    (halong : Along (Adapter.step labelize) (fun self r => ¬ self.HiddenCollision labelize r) {} rs)
    (r : Request γ) (hr : Regular base r) :
    (∀ plan, ((run (Adapter.step labelize) {} rs).build labelize r).1 = .ok plan →
      ((({} : Adapter γ).build labelize r.fresh).1 = .ok plan ↔
        ¬ (run (Adapter.step labelize) {} rs).HiddenCollision labelize r)) ∧
    ∀ message, ((run (Adapter.step labelize) {} rs).build labelize r).1 = .error message →
      ((run (Adapter.step labelize) {} rs).build labelize r).2 = run (Adapter.step labelize) {} rs := by
  have hinv : (run (Adapter.step labelize) ({} : Adapter γ) rs).Inv labelize base :=
    run_induct (Adapter.new_inv labelize base) (fun _ _ hself hstep => hself.step hstep)
      (halong.and_mem hregular)
  exact ⟨fun plan hplan => (hinv.build_ok hr hplan).1, fun message => Adapter.build_error⟩

/-- A labelizer that gives every character the label 1. -/
def characterLabelizer : Labelizer where
  call text := .ok (text.map fun _ => 1)
  encodeWithSpans := some fun _ text =>
    .ok (text.map fun _ => 1, (List.range text.length).map fun i => ((i : Int), (i : Int) + 1))

/-- A literal commit of one character. -/
def characterCommit (commitId : Int) (ch : Char) (rawStart : Int) : CommitRecord Unit :=
  { commitId, rawStart, rawEnd := rawStart + 1, rawText := some [ch], ttsText := [ch], rest := () }

/-- One commit, and then the same one with a second. -/
def twoRequests (first second : Int) : Request Unit × Request Unit :=
  ({ commits := [characterCommit first 'a' 0], revision := 0 },
    { commits := [characterCommit first 'a' 0, characterCommit second 'b' 1], revision := 1
      previous := .cached, committedLabelCount := 1 })

/-- The commits 1 and 2: the incremental path gives the plan of a new adapter. -/
theorem incremental_eq_rebuild_twoRequests :
    (((({} : Adapter Unit).step characterLabelizer (twoRequests 1 2).1).build characterLabelizer
        (twoRequests 1 2).2).1).isOk = true ∧
      (({} : Adapter Unit).build characterLabelizer (twoRequests 1 2).2.fresh).1 =
        ((({} : Adapter Unit).step characterLabelizer (twoRequests 1 2).1).build characterLabelizer
          (twoRequests 1 2).2).1 := by
  have hfirst : Regular 0 (twoRequests 1 2).1 := ⟨by decide, by decide, rfl⟩
  have hsecond : Regular 0 (twoRequests 1 2).2 := ⟨by decide, by decide, rfl⟩
  have hhistory := incremental_eq_rebuild characterLabelizer 0 [(twoRequests 1 2).1]
    (by simpa using hfirst) (by decide +kernel) (twoRequests 1 2).2 hsecond
  cases hbuild : ((({} : Adapter Unit).step characterLabelizer (twoRequests 1 2).1).build
      characterLabelizer (twoRequests 1 2).2).1 with
  | error message =>
      have hok : ((({} : Adapter Unit).step characterLabelizer (twoRequests 1 2).1).build
        characterLabelizer (twoRequests 1 2).2).1.isOk = true := by decide +kernel
      rw [hbuild] at hok
      cases hok
  | ok plan => exact ⟨rfl, (hhistory.1 plan hbuild).2 (by decide +kernel)⟩

/-- The commits `2^32 + 1` and 1: the only label of the second takes the id of the first, which owns no
span because it is split too. The incremental path gives a plan, and a new adapter none. -/
theorem incremental_ne_rebuild :
    Regular 0 (twoRequests 4294967297 1).1 ∧ Regular 0 (twoRequests 4294967297 1).2 ∧
      ((({} : Adapter Unit).step characterLabelizer (twoRequests 4294967297 1).1).build
        characterLabelizer (twoRequests 4294967297 1).2).1.isOk = true ∧
      (({} : Adapter Unit).build characterLabelizer (twoRequests 4294967297 1).2.fresh).1 =
        .error "duplicate cursor owner id 4294967297" :=
  ⟨⟨by decide, by decide, rfl⟩, ⟨by decide, by decide, rfl⟩, by decide +kernel, by decide +kernel⟩

end StreamingTts.Engine.Cursor
