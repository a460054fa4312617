import Mathlib.Data.List.Induction
import StreamingTts.Client.AnchorSet

/-!
# The seam between what has been played and what has not

The ends of the anchors of a tracker are in the order of their sequence numbers, so the played ones stand
before the others. `Place` names the two anchors at the seam, the last one played and the first one that is
not, and `_recompute_locked` reads nothing else: `confirmed` is the end of the first, and `estimated` is
interpolated up to the end of the second. A report of the playback moves the seam forward
(`Place.forward_report`), and so does an anchor, unless it comes to stand at the seam with others behind it
(`Disturbs`, `Place.forward_anchor`).
-/

namespace StreamingTts.Client.Playback

open Lib
open Gateway.Output (Before)
open PlaybackProgressTracker (malformed)

/-! ## The rounded interpolation -/

/-- The value is one of the two integers around the number. -/
theorem floor_le_roundHalfEven (q : ℚ) : ⌊q⌋ ≤ roundHalfEven q ∧ roundHalfEven q ≤ ⌊q⌋ + 1 := by
  unfold roundHalfEven
  dsimp only
  split_ifs <;> omega

theorem roundHalfEven_intCast (n : Int) : roundHalfEven n = n := by
  unfold roundHalfEven
  simp

/-- Rounding keeps the order. -/
theorem roundHalfEven_mono {q q' : ℚ} (h : q ≤ q') : roundHalfEven q ≤ roundHalfEven q' := by
  have hfloor : ⌊q⌋ ≤ ⌊q'⌋ := Int.floor_le_floor h
  rcases lt_or_eq_of_le hfloor with hlt | heq
  · have hleft := (floor_le_roundHalfEven q).2
    have hright := (floor_le_roundHalfEven q').1
    omega
  · -- between the same two integers the distance to the lower one decides
    have hdist : q - (⌊q⌋ : ℚ) ≤ q' - (⌊q⌋ : ℚ) := by linarith
    unfold roundHalfEven
    rw [← heq]
    dsimp only
    split_ifs
    all_goals first
      | omega
      | (exfalso; linarith)

theorem interpolate_mono {left right : Int} (hle : left ≤ right) {r r' : ℚ} (h : r ≤ r') :
    interpolate left right r ≤ interpolate left right r' := by
  have hwidth : (0 : ℚ) ≤ (right : ℚ) - left := by
    have hcast : (left : ℚ) ≤ right := by exact_mod_cast hle
    linarith
  exact roundHalfEven_mono (by nlinarith)

theorem interpolate_zero (left right : Int) : interpolate left right 0 = left := by
  unfold interpolate
  rw [zero_mul, add_zero, roundHalfEven_intCast]

theorem interpolate_one (left right : Int) : interpolate left right 1 = right := by
  unfold interpolate
  rw [one_mul, add_sub_cancel, roundHalfEven_intCast]

theorem playedRatio_nonneg {played left : Int} (h : left ≤ played) (right : Int) :
    0 ≤ playedRatio played left right := by
  unfold playedRatio
  split_ifs with hwidth
  · exact zero_le_one
  · have hpart : (0 : ℚ) ≤ ((played - left : Int) : ℚ) := by exact_mod_cast Int.sub_nonneg.2 h
    have hall : (0 : ℚ) ≤ ((right - left : Int) : ℚ) := by exact_mod_cast (by omega : 0 ≤ right - left)
    exact div_nonneg hpart hall

theorem playedRatio_le_one {played right : Int} (h : played ≤ right) (left : Int) :
    playedRatio played left right ≤ 1 := by
  unfold playedRatio
  split_ifs with hwidth
  · exact le_refl _
  · have hpart : ((played - left : Int) : ℚ) ≤ ((right - left : Int) : ℚ) := by
      exact_mod_cast (by omega : played - left ≤ right - left)
    have hall : (0 : ℚ) < ((right - left : Int) : ℚ) := by exact_mod_cast (by omega : 0 < right - left)
    exact (div_le_one hall).2 hpart

/-- The whole of the range has been played. -/
theorem playedRatio_end (left right : Int) : playedRatio right left right = 1 := by
  unfold playedRatio
  split_ifs with hwidth
  · rfl
  · have hall : ((right - left : Int) : ℚ) ≠ 0 := by exact_mod_cast (by omega : right - left ≠ 0)
    exact div_self hall

theorem playedRatio_mono {played played' : Int} (h : played ≤ played') (left right : Int) :
    playedRatio played left right ≤ playedRatio played' left right := by
  unfold playedRatio
  split_ifs with hwidth
  · exact le_refl _
  · have hpart : ((played - left : Int) : ℚ) ≤ ((played' - left : Int) : ℚ) := by
      exact_mod_cast (by omega : played - left ≤ played' - left)
    have hall : (0 : ℚ) ≤ ((right - left : Int) : ℚ) := by exact_mod_cast (by omega : 0 ≤ right - left)
    exact div_le_div_of_nonneg_right hpart hall

/-- The place of the played sample lies between the two ends. -/
theorem le_interpolate {left right : Int} (hle : left ≤ right) {start played : Int}
    (h : start ≤ played) (stop : Int) : left ≤ interpolate left right (playedRatio played start stop) := by
  calc left = interpolate left right 0 := (interpolate_zero left right).symm
    _ ≤ _ := interpolate_mono hle (playedRatio_nonneg h stop)

theorem interpolate_le {left right : Int} (hle : left ≤ right) {stop played : Int}
    (h : played ≤ stop) (start : Int) :
    interpolate left right (playedRatio played start stop) ≤ right := by
  calc _ ≤ interpolate left right 1 := interpolate_mono hle (playedRatio_le_one h start)
    _ = right := interpolate_one left right

variable {γ : Type}

/-! ## The seam between what has been played and what has not -/

/-- The cursor at the end of an anchor. -/
def endCursor (a : ProgressAnchor γ) : TextCursor := ⟨a.rawEnd, a.normalizedEnd, a.anchorSeq, true⟩

/-- The confirmed cursor, by the last anchor played. -/
def confirmedAt : Option (ProgressAnchor γ) → TextCursor
  | none => {}
  | some l => endCursor l

/-- The estimated cursor, by the last anchor played and the first one that is not. -/
def estimatedAt (played : Int) : Option (ProgressAnchor γ) → Option (ProgressAnchor γ) → TextCursor
  | none, none => {}
  | none, some f =>
      if f.outputSampleStart ≤ played then
        let ratio := playedRatio played f.outputSampleStart f.outputSampleEnd
        ⟨interpolate f.rawStart f.rawEnd ratio, interpolate f.normalizedStart f.normalizedEnd ratio,
          f.anchorSeq, true⟩
      else {}
  | some l, none => endCursor l
  | some l, some f =>
      let ratio := playedRatio played l.outputSampleEnd f.outputSampleEnd
      ⟨interpolate l.rawEnd f.rawEnd ratio, interpolate l.normalizedEnd f.normalizedEnd ratio,
        f.anchorSeq, true⟩

/-- The estimate before the unplayed anchors are visited. -/
def playedEstimate (played : Int) : Option (ProgressAnchor γ) → TextCursor
  | none => {}
  | some l => if l.outputSampleEnd = played then endCursor l else {}

/-- The played anchors leave the last one. -/
theorem foldl_visit_played {played : Int} {fin : List (ProgressAnchor γ)}
    (hsorted : fin.Pairwise fun a b => Before a.toTextProgressAnchor b.toTextProgressAnchor)
    (hformed : ∀ a ∈ fin, malformed a.toTextProgressAnchor = false)
    (hplayed : ∀ a ∈ fin, a.outputSampleEnd ≤ played) :
    fin.foldl (Recompute.visit played) {} =
      ⟨fin.getLast?, confirmedAt fin.getLast?, playedEstimate played fin.getLast?⟩ := by
  induction fin using List.reverseRec with
  | nil => rfl
  | append_singleton fin l ih =>
      have hfin : ∀ {p : ProgressAnchor γ → Prop}, (∀ a ∈ fin ++ [l], p a) → ∀ a ∈ fin, p a :=
        fun h a ha => h a (List.mem_append_left _ ha)
      have hl : l ∈ fin ++ [l] := List.mem_append_right _ List.mem_cons_self
      obtain ⟨hsorted', -, hbefore⟩ := List.pairwise_append.1 hsorted
      rw [List.foldl_append, ih hsorted' (hfin hformed) (hfin hplayed), List.getLast?_concat]
      simp only [List.foldl_cons, List.foldl_nil]
      have hend := hplayed l hl
      unfold Recompute.visit
      rw [if_pos hend]
      congr 1
      cases hlast : fin.getLast? with
      | none =>
          dsimp only [playedEstimate]
          have hstart : l.outputSampleStart ≤ l.outputSampleEnd := by
            have hwell := hformed l hl
            simp only [malformed, Bool.or_eq_false_iff, decide_eq_false_iff_not] at hwell
            omega
          by_cases heq : l.outputSampleEnd = played
          · subst heq
            rw [if_pos ⟨hstart, le_refl _⟩, if_pos rfl, playedRatio_end, interpolate_one, interpolate_one]
            rfl
          · rw [if_neg (fun h => heq (le_antisymm hend h.2)), if_neg heq]
      | some previous =>
          have hprevious := List.mem_of_getLast? hlast
          have hpast := hplayed previous (List.mem_append_left _ hprevious)
          dsimp only [playedEstimate]
          by_cases heq : l.outputSampleEnd = played
          · subst heq
            rw [if_pos ⟨hpast, le_refl _⟩, if_pos rfl, playedRatio_end, interpolate_one, interpolate_one]
            rfl
          · -- an earlier anchor that ends at the played sample would end behind this one
            have horder := (hbefore previous hprevious l List.mem_cons_self).sampleEnd
            rw [if_neg (fun h => heq (le_antisymm hend h.2)), if_neg heq, if_neg (by omega)]

/-- The unplayed anchors behind the first one change only `previous`. -/
theorem foldl_visit_unplayed {played : Int} {unf : List (ProgressAnchor γ)}
    (hunplayed : ∀ a ∈ unf, played < a.outputSampleEnd) (r : Recompute γ) {f : ProgressAnchor γ}
    (hr : r.previous = some f) (hf : played < f.outputSampleEnd) :
    (unf.foldl (Recompute.visit played) r).confirmed = r.confirmed ∧
      (unf.foldl (Recompute.visit played) r).estimated = r.estimated := by
  induction unf generalizing r f with
  | nil => exact ⟨rfl, rfl⟩
  | cons a unf ih =>
      have ha := hunplayed a List.mem_cons_self
      obtain ⟨hconfirmed, hestimated⟩ := ih (fun b hb => hunplayed b (List.mem_cons_of_mem _ hb))
        (r.visit played a) rfl ha
      rw [List.foldl_cons, hconfirmed, hestimated]
      unfold Recompute.visit
      rw [hr]
      exact ⟨if_neg (by omega), if_neg (by omega)⟩

/-- The loop, over the played anchors and then over the others. -/
theorem foldl_visit {played : Int} {fin unf : List (ProgressAnchor γ)}
    (hsorted : fin.Pairwise fun a b => Before a.toTextProgressAnchor b.toTextProgressAnchor)
    (hformed : ∀ a ∈ fin, malformed a.toTextProgressAnchor = false)
    (hplayed : ∀ a ∈ fin, a.outputSampleEnd ≤ played)
    (hunplayed : ∀ a ∈ unf, played < a.outputSampleEnd) :
    let r := (fin ++ unf).foldl (Recompute.visit played) {}
    r.confirmed = confirmedAt fin.getLast? ∧
      (if !r.estimated.available && r.confirmed.available then r.confirmed else r.estimated)
        = estimatedAt played fin.getLast? unf.head? := by
  rw [List.foldl_append, foldl_visit_played hsorted hformed hplayed]
  cases unf with
  | nil =>
      dsimp only [List.foldl_nil, List.head?_nil]
      refine ⟨rfl, ?_⟩
      cases fin.getLast? with
      | none => rfl
      | some l =>
          dsimp only [playedEstimate, confirmedAt, estimatedAt]
          by_cases heq : l.outputSampleEnd = played
          · simp only [if_pos heq, endCursor, Bool.not_true, Bool.false_and, Bool.false_eq_true, if_false]
          · simp only [if_neg heq, endCursor, Bool.not_false, Bool.and_self, if_true]
  | cons f unf =>
      have hf := hunplayed f List.mem_cons_self
      have hrest := foldl_visit_unplayed (fun a ha => hunplayed a (List.mem_cons_of_mem _ ha))
        (Recompute.visit played
          ⟨fin.getLast?, confirmedAt fin.getLast?, playedEstimate played fin.getLast?⟩ f) rfl hf
      dsimp only [List.foldl_cons, List.head?_cons]
      rw [hrest.1, hrest.2]
      unfold Recompute.visit
      have hnot : ¬ f.outputSampleEnd ≤ played := by omega
      rw [if_neg hnot]
      refine ⟨rfl, ?_⟩
      cases hlast : fin.getLast? with
      | none =>
          dsimp only [confirmedAt, estimatedAt, playedEstimate]
          by_cases hstart : f.outputSampleStart ≤ played
          · have hbetween : f.outputSampleStart ≤ played ∧ played ≤ f.outputSampleEnd := ⟨hstart, by omega⟩
            simp only [if_pos hbetween, if_pos hstart, Bool.and_false, Bool.false_eq_true, if_false]
          · have hbetween : ¬ (f.outputSampleStart ≤ played ∧ played ≤ f.outputSampleEnd) :=
              fun h => hstart h.1
            simp only [if_neg hbetween, if_neg hstart, Bool.and_false, Bool.false_eq_true, if_false]
      | some l =>
          have hl := hplayed l (List.mem_of_getLast? hlast)
          dsimp only [confirmedAt, estimatedAt]
          have hbetween : l.outputSampleEnd ≤ played ∧ played ≤ f.outputSampleEnd := ⟨hl, by omega⟩
          simp only [if_pos hbetween, Bool.not_true, Bool.false_and, Bool.false_eq_true, if_false]

/-! ## One of the two texts

`s` and `e` are the coordinates of an anchor in one of the two texts, the raw or the normalized one.
-/

section
variable (s e : ProgressAnchor γ → Int)

/-- The confirmed position. -/
def confirmedPosition : Option (ProgressAnchor γ) → Int
  | none => 0
  | some l => e l

/-- The estimated position. -/
def estimatedPosition (played : Int) : Option (ProgressAnchor γ) → Option (ProgressAnchor γ) → Int
  | none, none => 0
  | none, some f =>
      if f.outputSampleStart ≤ played then
        interpolate (s f) (e f) (playedRatio played f.outputSampleStart f.outputSampleEnd)
      else 0
  | some l, none => e l
  | some l, some f =>
      interpolate (e l) (e f) (playedRatio played l.outputSampleEnd f.outputSampleEnd)

end

theorem confirmedAt_raw (l : Option (ProgressAnchor γ)) :
    (confirmedAt l).rawCodepoint = confirmedPosition (·.rawEnd) l := by
  cases l <;> rfl

theorem confirmedAt_normalized (l : Option (ProgressAnchor γ)) :
    (confirmedAt l).normalizedCodepoint = confirmedPosition (·.normalizedEnd) l := by
  cases l <;> rfl

theorem estimatedAt_raw (played : Int) (l f : Option (ProgressAnchor γ)) :
    (estimatedAt played l f).rawCodepoint
      = estimatedPosition (·.rawStart) (·.rawEnd) played l f := by
  rcases l with _ | l <;> rcases f with _ | f <;> dsimp only [estimatedAt, estimatedPosition] <;>
    first
      | rfl
      | (split_ifs <;> rfl)

theorem estimatedAt_normalized (played : Int) (l f : Option (ProgressAnchor γ)) :
    (estimatedAt played l f).normalizedCodepoint
      = estimatedPosition (·.normalizedStart) (·.normalizedEnd) played l f := by
  rcases l with _ | l <;> rcases f with _ | f <;> dsimp only [estimatedAt, estimatedPosition] <;>
    first
      | rfl
      | (split_ifs <;> rfl)

namespace Tracker

/-- The two anchors at the seam. -/
structure Place (t : Tracker γ) (l f : Option (ProgressAnchor γ)) : Prop where
  last : ∀ a, l = some a → a ∈ t.anchors.values ∧ a.outputSampleEnd ≤ t.playedSample
  first : ∀ a, f = some a → a ∈ t.anchors.values ∧ t.playedSample < a.outputSampleEnd
  played : ∀ a ∈ t.anchors.values, a.outputSampleEnd ≤ t.playedSample →
    ∃ b, l = some b ∧ (a = b ∨ Before a.toTextProgressAnchor b.toTextProgressAnchor)
  unplayed : ∀ a ∈ t.anchors.values, t.playedSample < a.outputSampleEnd →
    ∃ b, f = some b ∧ (a = b ∨ Before b.toTextProgressAnchor a.toTextProgressAnchor)

section
variable {t t' : Tracker γ} {l f l' f' : Option (ProgressAnchor γ)} {a b : ProgressAnchor γ}

theorem endLe_total (a b : ProgressAnchor γ) : (endLe a b || endLe b a) = true := by
  simp only [endLe, Bool.or_eq_true, Bool.and_eq_true, decide_eq_true_iff]
  omega

theorem endLe_trans (a b c : ProgressAnchor γ) (h : endLe a b = true) (h' : endLe b c = true) :
    endLe a c = true := by
  simp only [endLe, Bool.or_eq_true, Bool.and_eq_true, decide_eq_true_iff] at h h' ⊢
  omega

theorem mem_ordered : a ∈ t.ordered ↔ a ∈ t.anchors.values := (List.mergeSort_perm _ _).mem_iff

/-- The order of the ends is the order of the sequence numbers. -/
theorem Sound.ordered_pairwise (h : t.Sound) :
    t.ordered.Pairwise fun a b => Before a.toTextProgressAnchor b.toTextProgressAnchor := by
  have hperm := List.mergeSort_perm t.anchors.values endLe
  have hsorted : t.ordered.Pairwise fun a b => endLe a b = true :=
    List.pairwise_mergeSort endLe_trans endLe_total t.anchors.values
  have hnodup : (t.ordered.map (·.anchorSeq)).Nodup := (hperm.map _).nodup_iff.2 h.nodup
  refine (hsorted.and (List.pairwise_map.1 hnodup)).imp_of_mem fun {a b} ha hb hab => ?_
  obtain ⟨hle, hne⟩ := hab
  simp only [endLe, Bool.or_eq_true, Bool.and_eq_true, decide_eq_true_iff] at hle
  rcases h.agrees a (mem_ordered.1 ha) b (mem_ordered.1 hb) with rfl | hbefore | hbefore
  · exact absurd rfl hne
  · exact hbefore
  · have hseq := hbefore.seq
    have hend := hbefore.sampleEnd
    omega

/-- `_recompute_locked` reads the two anchors at the seam. -/
theorem Sound.progress_place (h : t.Sound) :
    ∃ l f, t.Place l f ∧ t.progress.confirmed = confirmedAt l ∧
      t.progress.estimated = estimatedAt t.playedSample l f := by
  have hsorted := h.ordered_pairwise
  -- the played anchors are the first ones
  have hsplit : ∃ fin unf, t.ordered = fin ++ unf ∧ (∀ a ∈ fin, a.outputSampleEnd ≤ t.playedSample) ∧
      ∀ a ∈ unf, t.playedSample < a.outputSampleEnd := by
    refine ⟨t.ordered.takeWhile (·.outputSampleEnd ≤ t.playedSample),
      t.ordered.dropWhile (·.outputSampleEnd ≤ t.playedSample), List.takeWhile_append_dropWhile.symm,
      fun a ha => by simpa using List.all_eq_true.1 List.all_takeWhile a ha, fun a ha => ?_⟩
    rcases hdrop : t.ordered.dropWhile (·.outputSampleEnd ≤ t.playedSample) with _ | ⟨f, unf⟩
    · rw [hdrop] at ha
      cases ha
    · have hf : t.playedSample < f.outputSampleEnd := by
        have hhead := List.head?_dropWhile_not (fun a : ProgressAnchor γ =>
          decide (a.outputSampleEnd ≤ t.playedSample)) t.ordered
        rw [hdrop] at hhead
        simpa using hhead
      have hpair : (f :: unf).Pairwise fun a b =>
          Before a.toTextProgressAnchor b.toTextProgressAnchor :=
        hdrop ▸ hsorted.sublist (List.dropWhile_sublist _)
      rw [hdrop] at ha
      rcases List.mem_cons.1 ha with rfl | ha
      · exact hf
      · have hend := ((List.pairwise_cons.1 hpair).1 a ha).sampleEnd
        omega
  obtain ⟨fin, unf, heq, hfin, hunf⟩ := hsplit
  have hmem : ∀ a, a ∈ t.anchors.values ↔ a ∈ fin ∨ a ∈ unf := by
    intro a
    rw [← mem_ordered, heq, List.mem_append]
  rw [heq] at hsorted
  obtain ⟨hfinSorted, hunfSorted, -⟩ := List.pairwise_append.1 hsorted
  have hfold := foldl_visit hfinSorted (fun a ha => h.wellFormed a ((hmem a).2 (.inl ha))) hfin hunf
  refine ⟨fin.getLast?, unf.head?, ⟨fun a ha => ?_, fun a ha => ?_, fun a ha hend => ?_,
    fun a ha hend => ?_⟩, ?_, ?_⟩
  · have ha' := List.mem_of_getLast? ha
    exact ⟨(hmem a).2 (.inl ha'), hfin a ha'⟩
  · have ha' := List.mem_of_head? ha
    exact ⟨(hmem a).2 (.inr ha'), hunf a ha'⟩
  · have ha' : a ∈ fin := by
      rcases (hmem a).1 ha with ha | ha
      · exact ha
      · exact absurd (hunf a ha) (by omega)
    rcases List.eq_nil_or_concat fin with rfl | ⟨fin, l, rfl⟩
    · cases ha'
    · rw [List.concat_eq_append] at ha' hfinSorted ⊢
      refine ⟨l, List.getLast?_concat, ?_⟩
      rcases List.mem_append.1 ha' with ha' | ha'
      · exact .inr ((List.pairwise_append.1 hfinSorted).2.2 a ha' l List.mem_cons_self)
      · exact .inl (List.mem_singleton.1 ha')
  · have ha' : a ∈ unf := by
      rcases (hmem a).1 ha with ha | ha
      · exact absurd (hfin a ha) (by omega)
      · exact ha
    cases unf with
    | nil => cases ha'
    | cons f unf =>
        refine ⟨f, rfl, ?_⟩
        rcases List.mem_cons.1 ha' with rfl | ha'
        · exact .inl rfl
        · exact .inr ((List.pairwise_cons.1 hunfSorted).1 a ha')
  · unfold progress
    rw [heq]
    exact hfold.1
  · unfold progress
    rw [heq]
    exact hfold.2

/-- A text in which the anchors of a tracker stand in their order. -/
structure Reads (t : Tracker γ) (s e : ProgressAnchor γ → Int) : Prop where
  wellFormed : ∀ a ∈ t.anchors.values, 0 ≤ s a ∧ s a ≤ e a
  mono : ∀ a b : ProgressAnchor γ, Before a.toTextProgressAnchor b.toTextProgressAnchor → e a ≤ e b

theorem Sound.reads_raw (h : t.Sound) : t.Reads (·.rawStart) (·.rawEnd) := by
  refine ⟨fun a ha => ?_, fun a b hab => hab.rawEnd⟩
  have hwell := h.wellFormed a ha
  simp only [malformed, Bool.or_eq_false_iff, decide_eq_false_iff_not] at hwell
  omega

theorem Sound.reads_normalized (h : t.Sound) : t.Reads (·.normalizedStart) (·.normalizedEnd) := by
  refine ⟨fun a ha => ?_, fun a b hab => hab.normalizedEnd⟩
  have hwell := h.wellFormed a ha
  simp only [malformed, Bool.or_eq_false_iff, decide_eq_false_iff_not] at hwell
  omega

variable {s e : ProgressAnchor γ → Int}

/-- The anchors at the seam are next to each other. -/
theorem Place.before (hp : t.Place (some a) (some b)) (h : t.Sound) :
    Before a.toTextProgressAnchor b.toTextProgressAnchor := by
  obtain ⟨ha, haend⟩ := hp.last a rfl
  obtain ⟨hb, hbend⟩ := hp.first b rfl
  rcases h.agrees a ha b hb with rfl | hbefore | hbefore
  · omega
  · exact hbefore
  · have hend := hbefore.sampleEnd
    omega

/-- There is one seam. -/
theorem Place.unique (hp : t.Place l f) (hp' : t.Place l' f') : l = l' ∧ f = f' := by
  constructor
  · cases l with
    | none =>
        cases l' with
        | none => rfl
        | some a =>
            obtain ⟨_, hb, -⟩ := hp.played a (hp'.last a rfl).1 (hp'.last a rfl).2
            cases hb
    | some a =>
        obtain ⟨b, rfl, hab⟩ := hp'.played a (hp.last a rfl).1 (hp.last a rfl).2
        obtain ⟨_, hc, hba⟩ := hp.played b (hp'.last b rfl).1 (hp'.last b rfl).2
        cases hc
        rcases hab with rfl | hab
        · rfl
        · rcases hba with rfl | hba
          · rfl
          · exact absurd (lt_trans hab.seq hba.seq) (lt_irrefl _)
  · cases f with
    | none =>
        cases f' with
        | none => rfl
        | some a =>
            obtain ⟨_, hb, -⟩ := hp.unplayed a (hp'.first a rfl).1 (hp'.first a rfl).2
            cases hb
    | some a =>
        obtain ⟨b, rfl, hab⟩ := hp'.unplayed a (hp.first a rfl).1 (hp.first a rfl).2
        obtain ⟨_, hc, hba⟩ := hp.unplayed b (hp'.first b rfl).1 (hp'.first b rfl).2
        cases hc
        rcases hab with rfl | hab
        · rfl
        · rcases hba with rfl | hba
          · rfl
          · exact absurd (lt_trans hab.seq hba.seq) (lt_irrefl _)

theorem Place.confirmed_nonneg (hp : t.Place l f) (hr : t.Reads s e) : 0 ≤ confirmedPosition e l := by
  cases l with
  | none => exact le_refl _
  | some a =>
      have hwell := hr.wellFormed a (hp.last a rfl).1
      exact hwell.1.trans hwell.2

/-- What is confirmed is not behind the estimate. -/
theorem Place.confirmed_le (hp : t.Place l f) (h : t.Sound) (hr : t.Reads s e) :
    confirmedPosition e l ≤ estimatedPosition s e t.playedSample l f := by
  cases l with
  | none =>
      cases f with
      | none => exact le_refl _
      | some b =>
          have hwell := hr.wellFormed b (hp.first b rfl).1
          dsimp only [confirmedPosition, estimatedPosition]
          split_ifs with hstart
          · exact hwell.1.trans (le_interpolate hwell.2 hstart _)
          · exact le_refl _
  | some a =>
      cases f with
      | none => exact le_refl _
      | some b => exact le_interpolate (hr.mono a b (hp.before h)) (hp.last a rfl).2 _

/-- The estimate is not behind the first anchor that is not played. -/
theorem Place.estimated_le (hp : t.Place l (some b)) (h : t.Sound) (hr : t.Reads s e) :
    estimatedPosition s e t.playedSample l (some b) ≤ e b := by
  have hend : t.playedSample ≤ b.outputSampleEnd := le_of_lt (hp.first b rfl).2
  have hwell := hr.wellFormed b (hp.first b rfl).1
  cases l with
  | none =>
      dsimp only [estimatedPosition]
      split_ifs with hstart
      · exact interpolate_le hwell.2 hend _
      · exact hwell.1.trans hwell.2
  | some a => exact interpolate_le (hr.mono a b (hp.before h)) hend _

/-- At one seam the estimate goes forward with the playback. -/
theorem Place.estimated_mono (hp : t.Place l f) (h : t.Sound) (hr : t.Reads s e) {played' : Int}
    (hle : t.playedSample ≤ played') :
    estimatedPosition s e t.playedSample l f ≤ estimatedPosition s e played' l f := by
  cases l with
  | none =>
      cases f with
      | none => exact le_refl _
      | some b =>
          have hwell := hr.wellFormed b (hp.first b rfl).1
          dsimp only [estimatedPosition]
          split_ifs with hstart hstart' hstart'
          · exact interpolate_mono hwell.2 (playedRatio_mono hle _ _)
          · omega
          · exact hwell.1.trans (le_interpolate hwell.2 hstart' _)
          · exact le_refl _
  | some a =>
      cases f with
      | none => exact le_refl _
      | some b => exact interpolate_mono (hr.mono a b (hp.before h)) (playedRatio_mono hle _ _)

/-- The confirmed position goes forward whenever anchors come or playback advances. -/
theorem Place.confirmed_mono (hp : t.Place l f) (hp' : t'.Place l' f') (hr' : t'.Reads s e)
    (hmem : ∀ a ∈ t.anchors.values, a ∈ t'.anchors.values) (hle : t.playedSample ≤ t'.playedSample) :
    confirmedPosition e l ≤ confirmedPosition e l' := by
  cases l with
  | none => exact hp'.confirmed_nonneg hr'
  | some a =>
      obtain ⟨ha, hend⟩ := hp.last a rfl
      obtain ⟨b, rfl, hab⟩ := hp'.played a (hmem a ha) (hend.trans hle)
      rcases hab with rfl | hab
      · exact le_refl _
      · exact hr'.mono a b hab

/-- A report of the playback moves the estimate forward. -/
theorem Place.forward_report (hp : t.Place l f) (hp' : t'.Place l' f') (h : t.Sound) (h' : t'.Sound)
    (hr : t.Reads s e) (hr' : t'.Reads s e) (hsame : t'.anchors = t.anchors)
    (hle : t.playedSample ≤ t'.playedSample) :
    estimatedPosition s e t.playedSample l f ≤ estimatedPosition s e t'.playedSample l' f' := by
  have hmem : ∀ a, a ∈ t'.anchors.values ↔ a ∈ t.anchors.values := fun a => by rw [hsame]
  have hconfirmed := hp.confirmed_mono hp' hr' (fun a ha => (hmem a).2 ha) hle
  have hshown := hp'.confirmed_le h' hr'
  cases f with
  | none =>
      have heq : estimatedPosition s e t.playedSample l none = confirmedPosition e l := by
        cases l <;> rfl
      rw [heq]
      exact hconfirmed.trans hshown
  | some b =>
      obtain ⟨hb, hbend⟩ := hp.first b rfl
      by_cases hpast : b.outputSampleEnd ≤ t'.playedSample
      · -- the seam has moved past the anchor up to which the estimate goes
        obtain ⟨c, rfl, hbc⟩ := hp'.played b ((hmem b).2 hb) hpast
        have hstop : e b ≤ e c := by
          rcases hbc with rfl | hbc
          · exact le_refl _
          · exact hr.mono b c hbc
        exact (hp.estimated_le h hr).trans (hstop.trans hshown)
      · have hplace : t'.Place l (some b) := by
          refine ⟨fun a ha => ?_, fun a ha => ?_, fun a ha hend => ?_, fun a ha hend => ?_⟩
          · exact ⟨(hmem a).2 (hp.last a ha).1, (hp.last a ha).2.trans hle⟩
          · cases ha
            exact ⟨(hmem b).2 hb, by omega⟩
          · by_cases hbefore : a.outputSampleEnd ≤ t.playedSample
            · exact hp.played a ((hmem a).1 ha) hbefore
            · obtain ⟨c, hc, hca⟩ := hp.unplayed a ((hmem a).1 ha) (by omega)
              cases hc
              rcases hca with rfl | hca
              · exact absurd hend hpast
              · exact absurd (hca.sampleEnd.trans hend) hpast
          · exact hp.unplayed a ((hmem a).1 ha) (by omega)
        obtain ⟨rfl, rfl⟩ := hplace.unique hp'
        exact hp.estimated_mono h hr hle

/-- The anchor comes to stand at the seam, with an anchor behind it. -/
def Disturbs (t : Tracker γ) (a : ProgressAnchor γ) : Prop :=
  (∃ b ∈ t.anchors.values, t.playedSample < b.outputSampleEnd ∧ a.anchorSeq < b.anchorSeq) ∧
    ∀ c ∈ t.anchors.values, c.outputSampleEnd ≤ t.playedSample → c.anchorSeq < a.anchorSeq

/-- So does an anchor that does not disturb the seam. -/
theorem Place.forward_anchor (hp : t.Place l f) (hp' : t'.Place l' f') (h' : t'.Sound)
    (hr' : t'.Reads s e) (hplayed : t'.playedSample = t.playedSample)
    (hmem : ∀ b, b ∈ t'.anchors.values ↔ b ∈ t.anchors.values ∨ b = a) (hnew : a ∉ t.anchors.values)
    (hquiet : ¬ t.Disturbs a) :
    estimatedPosition s e t.playedSample l f ≤ estimatedPosition s e t'.playedSample l' f' := by
  have hconfirmed := hp.confirmed_mono hp' hr' (fun b hb => (hmem b).2 (.inl hb)) hplayed.ge
  have hshown := hp'.confirmed_le h' hr'
  cases f with
  | none =>
      have heq : estimatedPosition s e t.playedSample l none = confirmedPosition e l := by
        cases l <;> rfl
      rw [heq]
      exact hconfirmed.trans hshown
  | some b =>
      obtain ⟨hb, hbend⟩ := hp.first b rfl
      have hside : ∀ c ∈ t.anchors.values, Before a.toTextProgressAnchor c.toTextProgressAnchor ∨
          Before c.toTextProgressAnchor a.toTextProgressAnchor := by
        intro c hc
        rcases h'.agrees a ((hmem a).2 (.inr rfl)) c ((hmem c).2 (.inl hc)) with rfl | hac
        · exact absurd hc hnew
        · exact hac
      -- the anchor stands behind the first unplayed one, or before one that has been played
      have hcases : Before b.toTextProgressAnchor a.toTextProgressAnchor ∨
          ∃ c ∈ t.anchors.values, c.outputSampleEnd ≤ t.playedSample ∧
            Before a.toTextProgressAnchor c.toTextProgressAnchor := by
        rcases hside b hb with hab | hba
        · refine .inr ?_
          by_contra hnone
          refine hquiet ⟨⟨b, hb, hbend, hab.seq⟩, fun c hc hend => ?_⟩
          rcases hside c hc with hac | hca
          · exact absurd ⟨c, hc, hend, hac⟩ hnone
          · exact hca.seq
        · exact .inl hba
      have hplace : t'.Place l (some b) := by
        refine ⟨fun c hc => ?_, fun c hc => ?_, fun c hc hend => ?_, fun c hc hend => ?_⟩
        · rw [hplayed]
          exact ⟨(hmem c).2 (.inl (hp.last c hc).1), (hp.last c hc).2⟩
        · rw [hplayed]
          exact ⟨(hmem c).2 (.inl (hp.first c hc).1), (hp.first c hc).2⟩
        · rw [hplayed] at hend
          rcases (hmem c).1 hc with hc | rfl
          · exact hp.played c hc hend
          · rcases hcases with hba | ⟨d, hd, hdend, hcd⟩
            · have hafter := hba.sampleEnd
              omega
            · obtain ⟨x, hx, hdx⟩ := hp.played d hd hdend
              refine ⟨x, hx, .inr ?_⟩
              rcases hdx with rfl | hdx
              · exact hcd
              · exact before_iff.2 ⟨lt_trans hcd.seq hdx.seq,
                  (before_iff.1 hcd).2.trans (before_iff.1 hdx).2⟩
        · rw [hplayed] at hend
          rcases (hmem c).1 hc with hc | rfl
          · exact hp.unplayed c hc hend
          · rcases hcases with hba | ⟨d, hd, hdend, hcd⟩
            · exact ⟨b, rfl, .inr hba⟩
            · have hbefore := hcd.sampleEnd
              omega
      obtain ⟨rfl, rfl⟩ := hplace.unique hp'
      rw [hplayed]

end

end Tracker

end StreamingTts.Client.Playback
