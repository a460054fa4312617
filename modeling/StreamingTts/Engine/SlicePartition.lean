import StreamingTts.Engine.CursorSlice

/-!
# The slices of a plan are a partition of its labels

A plan without label spans is cut between owners. Its owners, as the adapter makes them, are intervals of
the normalized text one after the other (`Laid`), so a window takes a section of them, and their labels are a
section of the labels. `Windows` is what both kinds of plans have: places `lo` and `hi` of the labels for the
start and the end of a window. `slice_partition` is about every history of an adapter and every two windows
in a row.
-/

namespace StreamingTts.Engine.Cursor

open Frontend (Text)
open Lib

/-! ## Owners one after the other -/

/-- The owners lie between two places of the normalized text, one after the other. -/
structure Laid (lo : Int) (owners : List CursorOwnerSpan) (hi : Int) : Prop where
  intervals : Intervals (·.normalizedStart) (·.normalizedEnd) owners
  within : ∀ owner ∈ owners, lo ≤ owner.normalizedStart ∧ owner.normalizedEnd ≤ hi
  le : lo ≤ hi

theorem Laid.nil {lo hi : Int} (h : lo ≤ hi) : Laid lo [] hi :=
  ⟨⟨fun _ h => absurd h List.not_mem_nil, .nil, .nil⟩, fun _ h => absurd h List.not_mem_nil, h⟩

theorem Laid.mono {lo hi hi' : Int} {owners : List CursorOwnerSpan} (h : Laid lo owners hi)
    (hle : hi ≤ hi') : Laid lo owners hi' :=
  ⟨h.intervals, fun owner howner => ⟨(h.within owner howner).1,
    Int.le_trans (h.within owner howner).2 hle⟩, Int.le_trans h.le hle⟩

theorem Laid.append {lo mid hi : Int} {owners more : List CursorOwnerSpan} (h : Laid lo owners mid)
    (h' : Laid mid more hi) : Laid lo (owners ++ more) hi := by
  refine ⟨⟨fun o ho => ?_, ?_, ?_⟩, fun o ho => ?_, Int.le_trans h.le h'.le⟩
  · rcases List.mem_append.1 ho with ho | ho
    · exact h.intervals.nonempty o ho
    · exact h'.intervals.nonempty o ho
  · refine List.pairwise_append.2 ⟨h.intervals.starts, h'.intervals.starts, fun o ho o' ho' => ?_⟩
    have hfirst := h.within o ho
    have hsecond := h'.within o' ho'
    have hnonempty := h.intervals.nonempty o ho
    omega
  · refine List.pairwise_append.2 ⟨h.intervals.ends, h'.intervals.ends, fun o ho o' ho' => ?_⟩
    have hfirst := h.within o ho
    have hsecond := h'.within o' ho'
    have hnonempty := h'.intervals.nonempty o' ho'
    omega
  · rcases List.mem_append.1 ho with ho | ho
    · exact ⟨(h.within o ho).1, Int.le_trans (h.within o ho).2 h'.le⟩
    · exact ⟨Int.le_trans h.le (h'.within o ho).1, (h'.within o ho).2⟩

/-- One more owner. -/
theorem Laid.single {owner : CursorOwnerSpan} (h : owner.normalizedStart < owner.normalizedEnd) :
    Laid owner.normalizedStart [owner] owner.normalizedEnd := by
  refine ⟨⟨fun o ho => ?_, List.pairwise_singleton _ _, List.pairwise_singleton _ _⟩, fun o ho => ?_,
    Int.le_of_lt h⟩
  · cases List.mem_singleton.1 ho
    exact h
  · cases List.mem_singleton.1 ho
    exact ⟨Int.le_refl _, Int.le_refl _⟩

/-- The owners with their labels moved. -/
theorem Laid.shift {lo hi : Int} {owners : List CursorOwnerSpan} (h : Laid lo owners hi)
    (offset : Nat) : Laid lo (owners.map (·.shift offset)) hi := by
  refine ⟨⟨?_, List.pairwise_map.2 h.intervals.starts, List.pairwise_map.2 h.intervals.ends⟩, ?_, h.le⟩
  · intro o ho
    obtain ⟨o', ho', rfl⟩ := List.mem_map.1 ho
    exact h.intervals.nonempty o' ho'
  · intro o ho
    obtain ⟨o', ho', rfl⟩ := List.mem_map.1 ho
    exact h.within o' ho'

/-! ## The plans of the adapter -/

section
variable {γ : Type} {labelize : Labelizer}

/-- A projection without label spans has whole owners. -/
def Projection.Whole (lo : Int) (p : Projection) : Prop :=
  p.labelSpans = [] → Laid lo p.owners p.normalizedCursor

theorem addCommit_whole {ordinal : Nat} {commit : CommitRecord γ} {spoken : Text} {lo : Int}
    {p p' : Projection} (hp : p.Whole lo) (h : addCommit labelize ordinal commit spoken p = .ok p') :
    p'.Whole lo ∧ p'.normalizedCursor = p.normalizedCursor + spoken.length := by
  by_cases hspoken : spoken = []
  · subst hspoken
    rw [addCommit_nil] at h
    cases h
    exact ⟨hp, (Int.add_zero _).symm⟩
  · obtain ⟨-, raw, -, ls, -, -, howners⟩ := (addCommit_eq_ok hspoken).1 h
    obtain ⟨owners, hp', -⟩ := addOwners_spec howners
    refine ⟨fun hspans => ?_, by rw [hp']; rfl⟩
    have hboth : p.labelSpans ++ ls.2.map (fun window =>
        (p.normalizedCursor + window.1, p.normalizedCursor + window.2)) = [] := by
      rw [hp'] at hspans
      exact hspans
    obtain ⟨hbefore, hspans'⟩ := List.append_eq_nil_iff.1 hboth
    have hlaid := hp hbefore
    have hpos : 0 < spoken.length := List.length_pos_of_ne_nil hspoken
    unfold addOwners at howners
    by_cases hlabels : ls.1 = []
    · rw [if_pos hlabels] at howners
      cases howners
      refine hlaid.mono ?_
      show p.normalizedCursor ≤ p.normalizedCursor + spoken.length
      omega
    · rw [if_neg hlabels, if_neg fun hsplits => hsplits.2 (List.map_eq_nil_iff.1 hspans')] at howners
      obtain ⟨owner, howner, hnext⟩ := bind_eq_ok.1 howners
      cases hnext
      have hfields := CursorOwnerSpan.new_fields howner
      have hstart : owner.normalizedStart = p.normalizedCursor := congrArg (·.normalizedStart) hfields
      have hend : owner.normalizedEnd = p.normalizedCursor + spoken.length :=
        congrArg (·.normalizedEnd) hfields
      have hsingle : Laid p.normalizedCursor [owner] (p.normalizedCursor + spoken.length) := by
        rw [← hstart, ← hend.trans (congrArg (· + (spoken.length : Int)) hstart.symm)]
        exact Laid.single (by omega)
      exact hlaid.append hsingle

theorem project_whole {i : Nat} {commits : List (CommitRecord γ × Text)} {lo : Int}
    {p p' : Projection} (hp : p.Whole lo) (h : project labelize i commits p = .ok p') :
    p'.Whole lo ∧
      p'.normalizedCursor = p.normalizedCursor + (commits.map (·.2.length)).sum := by
  induction commits generalizing i p with
  | nil =>
      cases h
      exact ⟨hp, (Int.add_zero _).symm⟩
  | cons entry commits ih =>
      obtain ⟨p₁, hadd, hrest⟩ := project_cons_eq_ok.1 h
      obtain ⟨hwhole, hcursor⟩ := addCommit_whole hp hadd
      obtain ⟨hwhole', hcursor'⟩ := ih hwhole hrest
      refine ⟨hwhole', ?_⟩
      rw [hcursor', hcursor, List.map_cons, List.sum_cons, Int.natCast_add, Int.add_assoc]

/-- The texts of the commits are among the spoken texts. -/
theorem sum_zip_le (commits : List (CommitRecord γ)) (spoken : List Text) :
    ((commits.zip spoken).map (·.2.length)).sum ≤ (spoken.map List.length).sum := by
  induction commits generalizing spoken with
  | nil => exact Nat.zero_le _
  | cons commit commits ih =>
      cases spoken with
      | nil => exact Nat.zero_le _
      | cons text spoken =>
          rw [List.zip_cons_cons, List.map_cons, List.sum_cons, List.map_cons, List.sum_cons]
          exact Nat.add_le_add_left (ih spoken) _

/-- The plan of all the commits of a request. -/
theorem rebuild_whole {r : Request γ} {plan : CursorLabelPlan}
    (h : rebuild labelize r = .ok plan) (hspans : plan.labelNormalizedSpans = []) :
    Laid r.normalizedBase plan.ownerSpans
      (r.normalizedBase + (r.effectiveSpoken.map List.length).sum) := by
  obtain ⟨p, hp, hfields⟩ := rebuild_eq_ok.1 h
  have hempty : Projection.Whole r.normalizedBase { normalizedCursor := r.normalizedBase } :=
    fun _ => Laid.nil (Int.le_refl _)
  obtain ⟨hwhole, hcursor⟩ := project_whole hempty hp
  rw [hfields] at hspans ⊢
  refine (hwhole hspans).mono ?_
  rw [hcursor]
  exact Int.add_le_add_left (Int.ofNat_le.2 (sum_zip_le r.commits r.effectiveSpoken)) _

/-- What an adapter holds: a plan without label spans has whole owners. -/
structure Adapter.HoldsWhole (adapter : Adapter γ) : Prop where
  whole : ∀ plan, adapter.cachedPlan = some plan → plan.labelNormalizedSpans = [] →
    Laid adapter.cachedNormalizedOrigin plan.ownerSpans adapter.cachedNormalizedLength
  length : adapter.cachedPlan.isSome = true → adapter.cachedNormalizedLength
    = adapter.cachedNormalizedOrigin + (adapter.cachedSpokenTexts.map List.length).sum

variable [DecidableEq γ] {self : Adapter γ} {r : Request γ} {plan : CursorLabelPlan}

/-- The plan that `build` gives, and what it lets the adapter hold. -/
theorem Adapter.HoldsWhole.build (h : self.HoldsWhole) (hbuild : (self.build labelize r).1 = .ok plan) :
    (self.step labelize r).HoldsWhole ∧ (self.step labelize r).cachedPlan = some plan := by
  obtain ⟨-, ⟨hincremental, hstep⟩ | ⟨-, hrebuild, hstep⟩⟩ := Adapter.build_eq_ok hbuild
  · rw [hstep]
    refine ⟨⟨fun built hbuilt hspans => ?_, fun _ => rfl⟩, rfl⟩
    cases hbuilt
    obtain ⟨cached, hextends, suffixPlan, hsuffix, -, hfields⟩ :=
      Adapter.buildIncremental_eq_some hincremental
    obtain ⟨hcached, -, hspoken⟩ := Adapter.extends?_eq_some hextends
    rw [hfields] at hspans ⊢
    obtain ⟨hbefore, hafter⟩ := List.append_eq_nil_iff.1 hspans
    have hlaid := h.whole cached hcached hbefore
    have hmore := rebuild_whole hsuffix hafter
    refine hlaid.append ((hmore.shift _).mono ?_)
    have hlength := h.length (by rw [hcached]; rfl)
    have hsplit := congrArg (fun texts : List Text => (texts.map List.length).sum)
      (List.take_append_drop self.cachedCommits.length r.effectiveSpoken)
    simp only [hspoken, List.map_append, List.sum_append] at hsplit
    show self.cachedNormalizedLength
        + ((r.effectiveSpoken.drop self.cachedCommits.length).map List.length).sum
      ≤ self.cachedNormalizedOrigin + (r.effectiveSpoken.map List.length).sum
    rw [hlength]
    omega
  · rw [hstep]
    refine ⟨⟨fun built hbuilt hspans => ?_, fun _ => rfl⟩, rfl⟩
    cases hbuilt
    exact rebuild_whole hrebuild hspans

theorem Adapter.HoldsWhole.step (h : self.HoldsWhole) (r : Request γ) :
    (self.step labelize r).HoldsWhole := by
  cases hbuild : (self.build labelize r).1 with
  | error message =>
      unfold Adapter.step
      rw [Adapter.build_error hbuild]
      exact h
  | ok plan => exact (h.build hbuild).1

/-- A plan that an adapter gives after some calls. -/
theorem build_whole {rs : List (Request γ)}
    (h : ((run (Adapter.step labelize) {} rs).build labelize r).1 = .ok plan)
    (hspans : plan.labelNormalizedSpans = []) :
    ∃ lo hi, Laid lo plan.ownerSpans hi := by
  have hrun : (run (Adapter.step labelize) ({} : Adapter γ) rs).HoldsWhole :=
    run_invariant ⟨(fun _ h => nomatch h), fun h => nomatch h⟩ (fun _ r h => h.step r) rs
  obtain ⟨hnext, hcached⟩ := hrun.build h
  exact ⟨_, _, hnext.whole plan hcached hspans⟩

end

/-! ## Slices of whole owners -/

section
variable {plan : CursorLabelPlan} {start stop : Int}

/-- The end of the labels of the first `k` owners. -/
def boundary (owners : List CursorOwnerSpan) (k : Nat) : Nat :=
  ((owners.take k).getLast?.map (·.labelEnd)).getD 0

theorem Covers.end_eq {p q : Nat} {owners : List CursorOwnerSpan}
    (h : Covers p (owners.map (·.toOwnerFields)) q) :
    q = (owners.getLast?.map (·.labelEnd)).getD p := by
  induction owners generalizing p with
  | nil => exact h.symm
  | cons owner owners ih =>
      obtain ⟨-, -, hrest⟩ := h
      rw [ih hrest]
      cases owners with
      | nil => rfl
      | cons owner' owners => rw [List.getLast?_cons_cons]; rfl

/-- The labels of a section of the owners. -/
theorem covers_window {q m n : Nat} {owners : List CursorOwnerSpan} (hmn : m ≤ n)
    (h : Covers 0 (owners.map (·.toOwnerFields)) q) :
    Covers (boundary owners m) ((window m n owners).map (·.toOwnerFields)) (boundary owners n) ∧
      boundary owners n ≤ q := by
  have hsplit : owners.take m ++ window m n owners = owners.take n := by
    have hzero := window_append (Nat.zero_le m) hmn owners
    unfold window at hzero ⊢
    simpa using hzero
  rw [← List.take_append_drop n owners, List.map_append, covers_append] at h
  obtain ⟨r, htaken, hdropped⟩ := h
  have hr : r = boundary owners n := htaken.end_eq
  rw [← hsplit, List.map_append, covers_append] at htaken
  obtain ⟨r', hbefore, hwindow⟩ := htaken
  have hr' : r' = boundary owners m := hbefore.end_eq
  rw [← hr, ← hr']
  exact ⟨hwindow, hdropped.le⟩

theorem boundary_mono {q m n : Nat} {owners : List CursorOwnerSpan} (hmn : m ≤ n)
    (h : Covers 0 (owners.map (·.toOwnerFields)) q) : boundary owners m ≤ boundary owners n :=
  (covers_window hmn h).1.le

/-- Owners that cover some labels, counted from the first of them. -/
theorem Covers.rebase {base p q : Nat} {owners : List CursorOwnerSpan} (hbase : base ≤ p)
    (h : Covers p (owners.map (·.toOwnerFields)) q) :
    Covers (p - base) (owners.map (·.rebase base)) (q - base) := by
  induction owners generalizing p with
  | nil => exact congrArg (· - base) h
  | cons owner owners ih =>
      obtain ⟨hstart, hlt, hrest⟩ := h
      dsimp only at hstart hlt hrest
      refine ⟨congrArg (· - base) hstart, ?_, ih (by omega) hrest⟩
      show p - base < owner.labelEnd - base
      omega

/-- The owners inside of the window are the ones that meet it, if it cuts none. -/
theorem selectOwners_eq {owners : List CursorOwnerSpan}
    (h : ∀ owner ∈ owners, owner.normalizedStart < owner.normalizedEnd) :
    (Uncut (·.normalizedStart) (·.normalizedEnd) owners start stop →
      selectOwners start stop owners = some (owners.filter fun owner =>
        owner.normalizedStart < stop && start < owner.normalizedEnd)) ∧
    (¬ Uncut (·.normalizedStart) (·.normalizedEnd) owners start stop →
      selectOwners start stop owners = none) := by
  induction owners with
  | nil =>
      refine ⟨fun _ => rfl, fun hcut => absurd (fun o ho => ?_) hcut⟩
      exact absurd ho List.not_mem_nil
  | cons owner owners ih =>
      obtain ⟨hrest, hrest'⟩ := ih fun o ho => h o (List.mem_cons_of_mem _ ho)
      have hnonempty := h owner List.mem_cons_self
      have huncut : Uncut (·.normalizedStart) (·.normalizedEnd) (owner :: owners) start stop ↔
          (owner.normalizedStart < stop → start < owner.normalizedEnd →
            start ≤ owner.normalizedStart ∧ owner.normalizedEnd ≤ stop) ∧
          Uncut (·.normalizedStart) (·.normalizedEnd) owners start stop := List.forall_mem_cons
      unfold selectOwners
      rw [huncut]
      by_cases hmeets : owner.normalizedStart < stop ∧ start < owner.normalizedEnd
      · have hfilter : (owner.normalizedStart < stop && start < owner.normalizedEnd) = true := by
          simpa using hmeets
        by_cases hinside : start ≤ owner.normalizedStart ∧ owner.normalizedEnd ≤ stop
        · have hinside' : (start ≤ owner.normalizedStart && owner.normalizedEnd ≤ stop) = true := by
            simpa using hinside
          simp only [hfilter, hinside', Bool.not_true, Bool.and_false, Bool.false_eq_true, if_false,
            if_true, List.filter_cons_of_pos]
          constructor
          · rintro ⟨-, hcut⟩
            rw [hrest hcut]
            rfl
          · intro hcut
            rw [hrest' fun hcut' => hcut ⟨fun _ _ => hinside, hcut'⟩]
            rfl
        · have hinside' : (start ≤ owner.normalizedStart && owner.normalizedEnd ≤ stop) = false := by
            simpa using hinside
          simp only [hfilter, hinside', Bool.not_false, Bool.and_true, if_true]
          exact ⟨fun hcut => absurd (hcut.1 hmeets.1 hmeets.2) hinside, fun _ => trivial⟩
      · have hfilter : (owner.normalizedStart < stop && start < owner.normalizedEnd) = false := by
          simpa using hmeets
        have hinside' : (start ≤ owner.normalizedStart && owner.normalizedEnd ≤ stop) = false := by
          have hnot : ¬ (start ≤ owner.normalizedStart ∧ owner.normalizedEnd ≤ stop) := by omega
          simpa using hnot
        simp only [hfilter, hinside', Bool.false_and, Bool.false_eq_true, if_false,
          List.filter_cons_of_neg, not_false_eq_true, Option.map_id']
        exact ⟨fun hcut => hrest hcut.2, fun hcut => hrest' fun hcut' =>
          hcut ⟨fun hleft hright => absurd ⟨hleft, hright⟩ hmeets, hcut'⟩⟩

/-- A slice of whole owners has a value when the window cuts none of them. -/
theorem sliceWhole_eq {lo hi : Int} (hlaid : Laid lo plan.ownerSpans hi)
    (hspans : plan.labelNormalizedSpans = []) :
    (Uncut (·.normalizedStart) (·.normalizedEnd) plan.ownerSpans start stop →
      ∃ u, sliceWhole plan start stop = .ok (some u) ∧
        Sliced plan u (boundary plan.ownerSpans (endsBy (·.normalizedEnd) start plan.ownerSpans))
          (boundary plan.ownerSpans (startsBefore (·.normalizedStart) stop plan.ownerSpans))) ∧
    (¬ Uncut (·.normalizedStart) (·.normalizedEnd) plan.ownerSpans start stop →
      sliceWhole plan start stop = .ok none) := by
  have hintervals := hlaid.intervals
  obtain ⟨hselected, hnone⟩ := @selectOwners_eq start stop _ hintervals.nonempty
  rw [hintervals.filter_meets] at hselected
  have hcovers := plan.valid.covers
  constructor
  · intro hcut
    unfold sliceWhole
    rw [hselected hcut]
    by_cases hlt : endsBy (·.normalizedEnd) start plan.ownerSpans
        < startsBefore (·.normalizedStart) stop plan.ownerSpans
    · obtain ⟨hwindow, hle⟩ := covers_window (Nat.le_of_lt hlt) hcovers
      have hne : window (endsBy (·.normalizedEnd) start plan.ownerSpans)
          (startsBefore (·.normalizedStart) stop plan.ownerSpans) plan.ownerSpans ≠ [] := by
        intro hnil
        have hlength := congrArg List.length hnil
        have hbound := startsBefore_le (·.normalizedStart) stop plan.ownerSpans
        rw [length_window, List.length_nil] at hlength
        omega
      generalize boundary plan.ownerSpans (endsBy (·.normalizedEnd) start plan.ownerSpans) = m
        at hwindow ⊢
      generalize boundary plan.ownerSpans (startsBefore (·.normalizedStart) stop plan.ownerSpans) = n
        at hwindow hle ⊢
      generalize window (endsBy (·.normalizedEnd) start plan.ownerSpans)
        (startsBefore (·.normalizedStart) stop plan.ownerSpans) plan.ownerSpans = selected
        at hwindow hne ⊢
      obtain ⟨first, hfirst⟩ := Option.isSome_iff_exists.1 (List.isSome_head?.2 hne)
      obtain ⟨last, hlast⟩ := Option.isSome_iff_exists.1 (List.getLast?_isSome.2 hne)
      simp only [hfirst, hlast]
      have hm : first.labelStart = m := by
        cases selected with
        | nil => cases hfirst
        | cons o os =>
            cases hfirst
            exact hwindow.1
      have hn : last.labelEnd = n := by
        have hend := hwindow.end_eq
        rw [hlast] at hend
        exact hend.symm
      have hmn := hwindow.le
      rw [hm, hn]
      obtain ⟨owners, howners, hfields⟩ := mapM_new (fun owner => owner.rebase m) selected (by
        intro owner howner
        refine ⟨⟨owner.rebase m, ?_, owner.normalized_nonneg, owner.normalized_le, owner.raw_nonneg,
          owner.raw_le⟩, CursorOwnerSpan.new_eq_ok.2 rfl⟩
        exact Nat.sub_le_sub_right owner.label_le m)
      have hrebased := hwindow.rebase (Nat.le_refl m)
      rw [Nat.sub_self, ← hfields] at hrebased
      obtain ⟨u, hu, hplan⟩ := CursorLabelPlan.new_of_valid (f :=
        { labelIds := window m n plan.labelIds
          ownerSpans := owners
          revision := plan.revision
          final := plan.final })
        { revision := plan.valid.revision
          labels := fun l hl => plan.valid.labels l ((window_sublist _ _ _).subset hl)
          covers := by
            have hlength : (window m n plan.labelIds).length = n - m := by
              rw [length_window, Nat.min_eq_left hle]
            rw [hlength]
            exact hrebased
          aligned := fun hne => absurd rfl hne
          nonneg := fun _ h => absurd h List.not_mem_nil
          intervals := ⟨fun _ h => absurd h List.not_mem_nil, .nil, .nil⟩
          inside := fun _ _ i s hs => by cases hs }
      refine ⟨u, ?_, by rw [hplan], ?_⟩
      · rw [howners]
        exact map_eq_ok.2 ⟨u, hu, rfl⟩
      · rw [hplan, hspans]
        exact (List.eq_nil_of_length_eq_zero (by rw [length_window, List.length_nil]; omega)).symm
    · rw [window_of_le (Nat.le_of_not_lt hlt)]
      exact emptySlice_eq (boundary_mono (Nat.le_of_not_lt hlt) hcovers)
  · intro hcut
    unfold sliceWhole
    rw [hnone hcut]

/-! ## Both kinds of plans -/

/-- What the windows of a plan are: `uncut` says which of them have a slice, and `lo` and `hi` where the
labels of the slice begin and end. -/
structure Windows (plan : CursorLabelPlan) (uncut : Int → Int → Prop) (lo hi : Int → Nat) : Prop where
  slices : ∀ {a b}, 0 ≤ a → a ≤ b → uncut a b →
    ∃ u, sliceCursorLabelPlan plan a b = .ok (some u) ∧ Sliced plan u (lo a) (hi b)
  refuses : ∀ {a b}, 0 ≤ a → a ≤ b → ¬ uncut a b → sliceCursorLabelPlan plan a b = .ok none
  trans : ∀ {a b c}, a ≤ b → b ≤ c → uncut a b → uncut b c → uncut a c
  meet : ∀ {a b}, a ≤ b → uncut a b → hi b = lo b
  mono : ∀ {a b}, a ≤ b → lo a ≤ lo b
  le : ∀ a, lo a ≤ hi a

/-- The windows of a plan that the adapter gives. -/
theorem windows_exist (h : plan.labelNormalizedSpans = [] → ∃ lo hi, Laid lo plan.ownerSpans hi) :
    ∃ uncut lo hi, Windows plan uncut lo hi := by
  have hargs : ∀ {a b : Int}, 0 ≤ a → a ≤ b → ¬ (a < 0 ∨ b < a) := fun ha hab => by omega
  by_cases howners : plan.ownerSpans = []
  · refine ⟨fun _ _ => True, fun _ => 0, fun _ => 0, ?_, ?_, fun _ _ _ _ => trivial, fun _ _ => rfl,
      fun _ => Nat.le_refl 0, fun _ => Nat.le_refl 0⟩
    · intro a b ha hab _
      unfold sliceCursorLabelPlan
      rw [if_neg (hargs ha hab), if_pos howners]
      exact emptySlice_eq (Nat.le_refl 0)
    · exact fun _ _ hcut => absurd trivial hcut
  · by_cases hspans : plan.labelNormalizedSpans = []
    · obtain ⟨lo, hi, hlaid⟩ := h hspans
      have hintervals := hlaid.intervals
      have hcovers := plan.valid.covers
      refine ⟨Uncut (·.normalizedStart) (·.normalizedEnd) plan.ownerSpans,
        fun a => boundary plan.ownerSpans (endsBy (·.normalizedEnd) a plan.ownerSpans),
        fun b => boundary plan.ownerSpans (startsBefore (·.normalizedStart) b plan.ownerSpans),
        ?_, ?_, hintervals.uncut_trans, ?_, ?_, ?_⟩
      · intro a b ha hab hcut
        unfold sliceCursorLabelPlan
        rw [if_neg (hargs ha hab), if_neg howners, if_neg (not_not.2 hspans)]
        exact (sliceWhole_eq hlaid hspans).1 hcut
      · intro a b ha hab hcut
        unfold sliceCursorLabelPlan
        rw [if_neg (hargs ha hab), if_neg howners, if_neg (not_not.2 hspans)]
        exact (sliceWhole_eq hlaid hspans).2 hcut
      · exact fun hab hcut => congrArg (boundary plan.ownerSpans) (hintervals.meet hab hcut)
      · exact fun hab => boundary_mono (hintervals.endsBy_mono hab) hcovers
      · exact fun a => boundary_mono (hintervals.endsBy_le_startsBefore a) hcovers
    · have hintervals := plan.valid.intervals
      refine ⟨Uncut Prod.fst Prod.snd plan.labelNormalizedSpans,
        fun a => endsBy Prod.snd a plan.labelNormalizedSpans,
        fun b => startsBefore Prod.fst b plan.labelNormalizedSpans, ?_, ?_, hintervals.uncut_trans,
        hintervals.meet, hintervals.endsBy_mono, hintervals.endsBy_le_startsBefore⟩
      · intro a b ha hab hcut
        unfold sliceCursorLabelPlan
        rw [if_neg (hargs ha hab), if_neg howners, if_pos hspans]
        exact (sliceExact_eq ha).1 hcut
      · intro a b ha hab hcut
        unfold sliceCursorLabelPlan
        rw [if_neg (hargs ha hab), if_neg howners, if_pos hspans]
        exact (sliceExact_eq ha).2 hcut

/-- The slices of two windows in a row. -/
theorem Windows.append {uncut : Int → Int → Prop} {lo hi : Int → Nat} (h : Windows plan uncut lo hi)
    {a b c : Int} {s t : CursorLabelPlan} (ha : 0 ≤ a) (hab : a ≤ b) (hbc : b ≤ c)
    (hs : sliceCursorLabelPlan plan a b = .ok (some s))
    (ht : sliceCursorLabelPlan plan b c = .ok (some t)) :
    ∃ u, sliceCursorLabelPlan plan a c = .ok (some u) ∧ u.labelIds = s.labelIds ++ t.labelIds ∧
      u.labelNormalizedSpans = s.labelNormalizedSpans ++ t.labelNormalizedSpans := by
  have huncut : ∀ {x y : Int} {v : CursorLabelPlan}, 0 ≤ x → x ≤ y →
      sliceCursorLabelPlan plan x y = .ok (some v) → uncut x y ∧ Sliced plan v (lo x) (hi y) := by
    intro x y v hx hxy hv
    by_cases hcut : uncut x y
    · obtain ⟨u, hu, hsliced⟩ := h.slices hx hxy hcut
      cases hv.symm.trans hu
      exact ⟨hcut, hsliced⟩
    · cases hv.symm.trans (h.refuses hx hxy hcut)
  obtain ⟨hcut, hs'⟩ := huncut ha hab hs
  obtain ⟨hcut', ht'⟩ := huncut (Int.le_trans ha hab) hbc ht
  obtain ⟨u, hu, hu'⟩ := h.slices ha (Int.le_trans hab hbc) (h.trans hab hbc hcut hcut')
  have hmeet := h.meet hab hcut
  have hleft : lo a ≤ lo b := h.mono hab
  have hright : lo b ≤ hi c := Nat.le_trans (h.mono hbc) (h.le c)
  refine ⟨u, hu, ?_, ?_⟩
  · rw [hu'.labels, hs'.labels, ht'.labels, hmeet, window_append hleft hright]
  · rw [hu'.spans, hs'.spans, ht'.spans, hmeet, window_append hleft hright]

/-- The owners of a slice cover its labels, and every label lies inside of its owner. -/
theorem slice_owners (u : CursorLabelPlan) :
    coverage 0 0 u.ownerSpans = .ok u.labelIds.length ∧
      u.ownerSpans.any (escapes u.labelNormalizedSpans) = false := by
  refine ⟨coverage_ok_iff.2 u.valid.covers, ?_⟩
  rw [List.any_eq_false]
  intro owner howner
  rw [escapes_eq_false_iff.2 (u.valid.inside owner howner)]
  exact Bool.false_ne_true

end

/-! ## The histories of an adapter -/

variable {γ : Type} [DecidableEq γ]

/-- After every history of calls, a slice of the plan that the next call returns never raises for a window
that does not start before zero; and where the slices of two windows in a row have a value, so has the slice
of the whole, with the labels and the label spans of the one and then of the other, and with owners that
cover its labels and hold each of them. -/
theorem slice_partition (labelize : Labelizer) (rs : List (Request γ)) (r : Request γ)
    (plan : CursorLabelPlan)
    (hplan : ((run (Adapter.step labelize) {} rs).build labelize r).1 = .ok plan)
    (a b c : Int) (ha : 0 ≤ a) (hab : a ≤ b) (hbc : b ≤ c) :
    (∃ slice, sliceCursorLabelPlan plan a b = .ok slice) ∧
    ∀ s t, sliceCursorLabelPlan plan a b = .ok (some s) →
      sliceCursorLabelPlan plan b c = .ok (some t) →
      ∃ u, sliceCursorLabelPlan plan a c = .ok (some u) ∧ u.labelIds = s.labelIds ++ t.labelIds ∧
        u.labelNormalizedSpans = s.labelNormalizedSpans ++ t.labelNormalizedSpans ∧
        coverage 0 0 u.ownerSpans = .ok u.labelIds.length ∧
        u.ownerSpans.any (escapes u.labelNormalizedSpans) = false := by
  obtain ⟨uncut, lo, hi, hwindows⟩ := windows_exist fun hspans => build_whole hplan hspans
  constructor
  · by_cases hcut : uncut a b
    · obtain ⟨u, hu, -⟩ := hwindows.slices ha hab hcut
      exact ⟨some u, hu⟩
    · exact ⟨none, hwindows.refuses ha hab hcut⟩
  · intro s t hs ht
    obtain ⟨u, hu, hlabels, hspans⟩ := hwindows.append ha hab hbc hs ht
    exact ⟨u, hu, hlabels, hspans, slice_owners u⟩

/-- The labels of two commits of one character each, cut between them. -/
theorem slices_twoRequests :
    (match ((run (Adapter.step characterLabelizer) ({} : Adapter Unit) []).build characterLabelizer
        (twoRequests 1 2).2.fresh).1 with
      | .error _ => none
      | .ok plan =>
          match sliceCursorLabelPlan plan 0 1, sliceCursorLabelPlan plan 1 2 with
          | .ok (some s), .ok (some t) => some (s.labelIds, t.labelIds)
          | _, _ => none) = some ([1], [1]) := by decide +kernel

/-- Two commits of one character each, cut between them. -/
theorem slice_partition_twoRequests :
    ∃ plan, ((run (Adapter.step characterLabelizer) ({} : Adapter Unit) []).build characterLabelizer
        (twoRequests 1 2).2.fresh).1 = .ok plan ∧
      (∃ slice, sliceCursorLabelPlan plan 0 1 = .ok slice) ∧
      ∃ s t u, sliceCursorLabelPlan plan 0 1 = .ok (some s) ∧
        sliceCursorLabelPlan plan 1 2 = .ok (some t) ∧
        sliceCursorLabelPlan plan 0 2 = .ok (some u) ∧ u.labelIds = s.labelIds ++ t.labelIds ∧
        s.labelIds ≠ [] ∧ t.labelIds ≠ [] := by
  cases hbuild : ((run (Adapter.step characterLabelizer) ({} : Adapter Unit) []).build
      characterLabelizer (twoRequests 1 2).2.fresh).1 with
  | error message =>
      have hok : ((run (Adapter.step characterLabelizer) ({} : Adapter Unit) []).build
        characterLabelizer (twoRequests 1 2).2.fresh).1.isOk = true := by decide +kernel
      rw [hbuild] at hok
      cases hok
  | ok plan =>
      have hspec := slice_partition characterLabelizer [] (twoRequests 1 2).2.fresh plan hbuild 0 1 2
        (by decide) (by decide) (by decide)
      have hslices := slices_twoRequests
      rw [hbuild] at hslices
      dsimp only at hslices
      split at hslices
      · rename_i s t hs ht
        obtain ⟨hone, htwo⟩ := Prod.mk.inj (Option.some.inj hslices)
        obtain ⟨u, hu, hlabels, -⟩ := hspec.2 s t hs ht
        refine ⟨plan, rfl, hspec.1, s, t, u, hs, ht, hu, hlabels, ?_, ?_⟩
        · rw [hone]
          exact List.cons_ne_nil _ _
        · rw [htwo]
          exact List.cons_ne_nil _ _
      · cases hslices

/-- A window that starts before zero raises, with no commits at all. -/
theorem slice_raises :
    ∃ plan, ((run (Adapter.step characterLabelizer) ({} : Adapter Unit) []).build characterLabelizer
        { commits := [], revision := 0 }).1 = .ok plan ∧
      sliceCursorLabelPlan plan (-1) 0 = .error "invalid normalized segment bounds" := by
  cases hbuild : ((run (Adapter.step characterLabelizer) ({} : Adapter Unit) []).build
      characterLabelizer { commits := [], revision := 0 }).1 with
  | error message =>
      have hok : ((run (Adapter.step characterLabelizer) ({} : Adapter Unit) []).build
        characterLabelizer { commits := [], revision := 0 }).1.isOk = true := by decide +kernel
      rw [hbuild] at hok
      cases hok
  | ok plan =>
      refine ⟨plan, rfl, ?_⟩
      unfold sliceCursorLabelPlan
      rw [if_pos (.inl (by decide))]

end StreamingTts.Engine.Cursor
