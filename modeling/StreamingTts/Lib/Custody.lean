import Mathlib.Data.Finset.Card
import Mathlib.Data.List.Basic

/-!
# Custody of pooled resources

A pool tracks resources and lends them out. A tracked resource is in one of three places: idle in the
pool, handed to someone who has not picked it up yet (by the name `τ` of that someone), or leased to an
owner `ο`. `Ok` says that the places are exclusive and cover every tracked resource; each way a resource
moves between them keeps it. A resource that is no longer tracked may still be in the hands of its last
owner, and `known` bounds the resources that were ever seen, so that a new one is in nobody's hands.
-/

namespace StreamingTts.Lib

/-- Where the resources of a pool are. -/
structure Custody (ρ τ ο : Type) where
  tracked : Finset ρ
  idle : List ρ
  handed : τ → Option ρ
  lessee : ρ → Option ο

namespace Custody
section
variable {ρ τ ο : Type} [DecidableEq ρ] [DecidableEq τ] {s : Custody ρ τ ο} {known : ρ → Prop}
  {r : ρ} {t : τ} {o o' : ο}

/-- The places of tracked resources are exclusive and cover them. -/
structure Ok (s : Custody ρ τ ο) (known : ρ → Prop) : Prop where
  idle_nodup : s.idle.Nodup
  idle_tracked : ∀ r ∈ s.idle, r ∈ s.tracked
  idle_unleased : ∀ r ∈ s.idle, s.lessee r = none
  idle_unhanded : ∀ r ∈ s.idle, ∀ t, s.handed t ≠ some r
  handed_unleased : ∀ t r, s.handed t = some r → s.lessee r = none
  handed_inj : ∀ t t' r, s.handed t = some r → s.handed t' = some r → t = t'
  placed : ∀ r ∈ s.tracked, r ∈ s.idle ∨ (∃ t, s.handed t = some r) ∨ (s.lessee r).isSome
  known_tracked : ∀ r ∈ s.tracked, known r
  known_handed : ∀ t r, s.handed t = some r → known r
  known_leased : ∀ r, (s.lessee r).isSome → known r

/-! ## The moves -/

/-- A resource is no longer tracked. -/
def drop (s : Custody ρ τ ο) (r : ρ) : Custody ρ τ ο :=
  { s with tracked := s.tracked.erase r, idle := s.idle.erase r }

/-- A new resource, leased from the start. -/
def track (s : Custody ρ τ ο) (r : ρ) (o : ο) : Custody ρ τ ο :=
  { s with tracked := insert r s.tracked, lessee := Function.update s.lessee r (some o) }

/-- An idle resource is leased. -/
def takeIdle (s : Custody ρ τ ο) (r : ρ) (o : ο) : Custody ρ τ ο :=
  { s with idle := s.idle.erase r, lessee := Function.update s.lessee r (some o) }

/-- A resource that was handed over is picked up. -/
def takeHanded (s : Custody ρ τ ο) (t : τ) (r : ρ) (o : ο) : Custody ρ τ ο :=
  { s with
    handed := Function.update s.handed t none
    lessee := Function.update s.lessee r (some o) }

/-- A leased resource becomes idle. -/
def giveIdle (s : Custody ρ τ ο) (r : ρ) : Custody ρ τ ο :=
  { s with idle := s.idle ++ [r], lessee := Function.update s.lessee r none }

/-- A leased resource is handed over. -/
def giveHanded (s : Custody ρ τ ο) (t : τ) (r : ρ) : Custody ρ τ ο :=
  { s with
    handed := Function.update s.handed t (some r)
    lessee := Function.update s.lessee r none }

/-- A lease changes its owner. -/
def transfer (s : Custody ρ τ ο) (r : ρ) (o : ο) : Custody ρ τ ο :=
  { s with lessee := Function.update s.lessee r (some o) }

/-- Of the idle resources, only some are kept. -/
def retain (s : Custody ρ τ ο) (kept : List ρ) : Custody ρ τ ο :=
  { s with tracked := s.tracked.filter fun r => r ∈ s.idle → r ∈ kept, idle := kept }

/-- The pool gives up everything it tracks. -/
def clear (s : Custody ρ τ ο) : Custody ρ τ ο :=
  { s with tracked := ∅, idle := [], handed := fun _ => none }

/-! ## Each move keeps the places -/

omit [DecidableEq ρ] [DecidableEq τ] in
theorem Ok.mono {known' : ρ → Prop} (h : s.Ok known) (hk : ∀ r, known r → known' r) :
    s.Ok known' :=
  { h with
    known_tracked := fun r hr => hk r (h.known_tracked r hr)
    known_handed := fun t r hr => hk r (h.known_handed t r hr)
    known_leased := fun r hr => hk r (h.known_leased r hr) }

omit [DecidableEq ρ] [DecidableEq τ] in
/-- A leased resource is in no other place. -/
theorem Ok.leased_elsewhere (h : s.Ok known) (hr : s.lessee r = some o) :
    r ∉ s.idle ∧ ∀ t, s.handed t ≠ some r := by
  refine ⟨fun hidle => ?_, fun t ht => ?_⟩
  · rw [h.idle_unleased r hidle] at hr
    cases hr
  · rw [h.handed_unleased t r ht] at hr
    cases hr

omit [DecidableEq τ] in
theorem Ok.drop (h : s.Ok known) (r : ρ) : (s.drop r).Ok known where
  idle_nodup := h.idle_nodup.erase r
  idle_tracked := by
    intro x hx
    obtain ⟨hne, hmem⟩ := h.idle_nodup.mem_erase_iff.1 hx
    exact Finset.mem_erase.2 ⟨hne, h.idle_tracked x hmem⟩
  idle_unleased x hx := h.idle_unleased x (List.mem_of_mem_erase hx)
  idle_unhanded x hx := h.idle_unhanded x (List.mem_of_mem_erase hx)
  handed_unleased := h.handed_unleased
  handed_inj := h.handed_inj
  placed := by
    intro x hx
    obtain ⟨hne, hmem⟩ := Finset.mem_erase.1 hx
    rcases h.placed x hmem with hidle | hhanded | hleased
    · exact .inl (h.idle_nodup.mem_erase_iff.2 ⟨hne, hidle⟩)
    · exact .inr (.inl hhanded)
    · exact .inr (.inr hleased)
  known_tracked x hx := h.known_tracked x (Finset.mem_of_mem_erase hx)
  known_handed := h.known_handed
  known_leased := h.known_leased

omit [DecidableEq τ] in
/-- Whatever an update of the leases at `r` does, other resources keep their place. -/
theorem update_lessee_of_ne {v : Option ο} {x : ρ} (hne : x ≠ r) :
    Function.update s.lessee r v x = s.lessee x := Function.update_of_ne hne v s.lessee

omit [DecidableEq τ] in
theorem isSome_update_of_ne {v : Option ο} {x : ρ} (hne : x ≠ r) :
    (Function.update s.lessee r v x).isSome = (s.lessee x).isSome :=
  congrArg Option.isSome (update_lessee_of_ne hne)

omit [DecidableEq τ] in
theorem Ok.track (h : s.Ok known) (hr : ¬ known r) (o : ο) :
    (s.track r o).Ok fun x => known x ∨ x = r where
  idle_nodup := h.idle_nodup
  idle_tracked x hx := Finset.mem_insert_of_mem (h.idle_tracked x hx)
  idle_unleased := by
    intro x hx
    have hne : x ≠ r := fun he => hr (he ▸ h.known_tracked x (h.idle_tracked x hx))
    exact (update_lessee_of_ne hne).trans (h.idle_unleased x hx)
  idle_unhanded := h.idle_unhanded
  handed_unleased := by
    intro t x hx
    have hne : x ≠ r := fun he => hr (he ▸ h.known_handed t x hx)
    exact (update_lessee_of_ne hne).trans (h.handed_unleased t x hx)
  handed_inj := h.handed_inj
  placed := by
    intro x hx
    by_cases hne : x = r
    · subst hne
      exact .inr (.inr (by simp [Custody.track]))
    · rcases h.placed x (Finset.mem_of_mem_insert_of_ne hx hne) with hidle | hhanded | hleased
      · exact .inl hidle
      · exact .inr (.inl hhanded)
      · exact .inr (.inr ((isSome_update_of_ne hne).trans hleased))
  known_tracked := by
    intro x hx
    rcases Finset.mem_insert.1 hx with rfl | hx
    · exact .inr rfl
    · exact .inl (h.known_tracked x hx)
  known_handed t x hx := .inl (h.known_handed t x hx)
  known_leased := by
    intro x hx
    by_cases hne : x = r
    · exact .inr hne
    · exact .inl (h.known_leased x ((isSome_update_of_ne hne).symm.trans hx))

omit [DecidableEq τ] in
theorem Ok.takeIdle (h : s.Ok known) (hr : r ∈ s.idle) (o : ο) : (s.takeIdle r o).Ok known where
  idle_nodup := h.idle_nodup.erase r
  idle_tracked x hx := h.idle_tracked x (List.mem_of_mem_erase hx)
  idle_unleased := by
    intro x hx
    obtain ⟨hne, hmem⟩ := h.idle_nodup.mem_erase_iff.1 hx
    exact (update_lessee_of_ne hne).trans (h.idle_unleased x hmem)
  idle_unhanded x hx := h.idle_unhanded x (List.mem_of_mem_erase hx)
  handed_unleased := by
    intro t x hx
    have hne : x ≠ r := fun he => h.idle_unhanded r hr t (he ▸ hx)
    exact (update_lessee_of_ne hne).trans (h.handed_unleased t x hx)
  handed_inj := h.handed_inj
  placed := by
    intro x hx
    by_cases hne : x = r
    · subst hne
      exact .inr (.inr (by simp [Custody.takeIdle]))
    · rcases h.placed x hx with hidle | hhanded | hleased
      · exact .inl (h.idle_nodup.mem_erase_iff.2 ⟨hne, hidle⟩)
      · exact .inr (.inl hhanded)
      · exact .inr (.inr ((isSome_update_of_ne hne).trans hleased))
  known_tracked := h.known_tracked
  known_handed := h.known_handed
  known_leased := by
    intro x hx
    by_cases hne : x = r
    · exact hne ▸ h.known_tracked r (h.idle_tracked r hr)
    · exact h.known_leased x ((isSome_update_of_ne hne).symm.trans hx)

theorem Ok.takeHanded (h : s.Ok known) (hr : s.handed t = some r) (o : ο) :
    (s.takeHanded t r o).Ok known := by
  have hother : ∀ t' x, Function.update s.handed t none t' = some x →
      s.handed t' = some x ∧ x ≠ r := by
    intro t' x hx
    by_cases htt : t' = t
    · rw [htt, Function.update_self] at hx
      cases hx
    · rw [Function.update_of_ne htt] at hx
      exact ⟨hx, fun he => htt (h.handed_inj t' t r (he ▸ hx) hr)⟩
  have hidle : ∀ x ∈ s.idle, x ≠ r := fun x hx he => h.idle_unhanded x hx t (he ▸ hr)
  constructor
  case idle_nodup => exact h.idle_nodup
  case idle_tracked => exact h.idle_tracked
  case idle_unleased =>
    intro x hx
    exact (update_lessee_of_ne (hidle x hx)).trans (h.idle_unleased x hx)
  case idle_unhanded =>
    intro x hx t' ht'
    exact h.idle_unhanded x hx t' (hother t' x ht').1
  case handed_unleased =>
    intro t' x hx
    obtain ⟨hx, hne⟩ := hother t' x hx
    exact (update_lessee_of_ne hne).trans (h.handed_unleased t' x hx)
  case handed_inj =>
    intro t₁ t₂ x h₁ h₂
    exact h.handed_inj t₁ t₂ x (hother t₁ x h₁).1 (hother t₂ x h₂).1
  case placed =>
    intro x hx
    by_cases hne : x = r
    · subst hne
      exact .inr (.inr (by simp [Custody.takeHanded]))
    · rcases h.placed x hx with hmem | ⟨t', ht'⟩ | hleased
      · exact .inl hmem
      · have htt : t' ≠ t := by
          rintro rfl
          exact hne (Option.some.inj (ht'.symm.trans hr))
        exact .inr (.inl ⟨t', (Function.update_of_ne htt _ _).trans ht'⟩)
      · exact .inr (.inr ((isSome_update_of_ne hne).trans hleased))
  case known_tracked => exact h.known_tracked
  case known_handed => exact fun t' x hx => h.known_handed t' x (hother t' x hx).1
  case known_leased =>
    intro x hx
    by_cases hne : x = r
    · exact hne ▸ h.known_handed t r hr
    · exact h.known_leased x ((isSome_update_of_ne hne).symm.trans hx)

omit [DecidableEq τ] in
theorem Ok.giveIdle (h : s.Ok known) (hr : s.lessee r = some o) (htracked : r ∈ s.tracked) :
    (s.giveIdle r).Ok known := by
  obtain ⟨hidle, hhanded⟩ := h.leased_elsewhere hr
  have hmem : ∀ x, x ∈ s.idle ++ [r] ↔ x ∈ s.idle ∨ x = r := by simp
  constructor
  case idle_nodup =>
    refine List.nodup_append.2 ⟨h.idle_nodup, by simp, ?_⟩
    intro x hx y hy hxy
    rw [List.mem_singleton] at hy
    exact hidle (hy ▸ hxy ▸ hx)
  case idle_tracked =>
    intro x hx
    rcases (hmem x).1 hx with hx | rfl
    · exact h.idle_tracked x hx
    · exact htracked
  case idle_unleased =>
    intro x hx
    rcases (hmem x).1 hx with hx | rfl
    · have hne : x ≠ r := fun he => hidle (he ▸ hx)
      exact (update_lessee_of_ne hne).trans (h.idle_unleased x hx)
    · simp [Custody.giveIdle]
  case idle_unhanded =>
    intro x hx
    rcases (hmem x).1 hx with hx | rfl
    · exact h.idle_unhanded x hx
    · exact hhanded
  case handed_unleased =>
    intro t x hx
    have hne : x ≠ r := fun he => hhanded t (he ▸ hx)
    exact (update_lessee_of_ne hne).trans (h.handed_unleased t x hx)
  case handed_inj => exact h.handed_inj
  case placed =>
    intro x hx
    by_cases hne : x = r
    · exact .inl ((hmem x).2 (.inr hne))
    · rcases h.placed x hx with hx | hx | hleased
      · exact .inl ((hmem x).2 (.inl hx))
      · exact .inr (.inl hx)
      · exact .inr (.inr ((isSome_update_of_ne hne).trans hleased))
  case known_tracked => exact h.known_tracked
  case known_handed => exact h.known_handed
  case known_leased =>
    intro x hx
    by_cases hne : x = r
    · exact hne ▸ h.known_tracked r htracked
    · exact h.known_leased x ((isSome_update_of_ne hne).symm.trans hx)

theorem Ok.giveHanded (h : s.Ok known) (hr : s.lessee r = some o) (ht : s.handed t = none) :
    (s.giveHanded t r).Ok known := by
  obtain ⟨hidle, hhanded⟩ := h.leased_elsewhere hr
  have hcases : ∀ t' x, Function.update s.handed t (some r) t' = some x →
      (t' = t ∧ x = r) ∨ (s.handed t' = some x ∧ x ≠ r) := by
    intro t' x hx
    by_cases htt : t' = t
    · rw [htt, Function.update_self] at hx
      exact .inl ⟨htt, (Option.some.inj hx).symm⟩
    · rw [Function.update_of_ne htt] at hx
      exact .inr ⟨hx, fun he => hhanded t' (he ▸ hx)⟩
  constructor
  case idle_nodup => exact h.idle_nodup
  case idle_tracked => exact h.idle_tracked
  case idle_unleased =>
    intro x hx
    have hne : x ≠ r := fun he => hidle (he ▸ hx)
    exact (update_lessee_of_ne hne).trans (h.idle_unleased x hx)
  case idle_unhanded =>
    intro x hx t' ht'
    rcases hcases t' x ht' with ⟨-, rfl⟩ | ⟨ht', -⟩
    · exact hidle hx
    · exact h.idle_unhanded x hx t' ht'
  case handed_unleased =>
    intro t' x hx
    rcases hcases t' x hx with ⟨-, rfl⟩ | ⟨hx, hne⟩
    · simp [Custody.giveHanded]
    · exact (update_lessee_of_ne hne).trans (h.handed_unleased t' x hx)
  case handed_inj =>
    intro t₁ t₂ x h₁ h₂
    rcases hcases t₁ x h₁ with ⟨rfl, rfl⟩ | ⟨h₁, hne⟩
    · rcases hcases t₂ x h₂ with ⟨rfl, -⟩ | ⟨-, hne⟩
      · rfl
      · exact absurd rfl hne
    · rcases hcases t₂ x h₂ with ⟨-, rfl⟩ | ⟨h₂, -⟩
      · exact absurd rfl hne
      · exact h.handed_inj t₁ t₂ x h₁ h₂
  case placed =>
    intro x hx
    by_cases hne : x = r
    · exact .inr (.inl ⟨t, by simp [Custody.giveHanded, hne]⟩)
    · rcases h.placed x hx with hx | ⟨t', ht'⟩ | hleased
      · exact .inl hx
      · have htt : t' ≠ t := by
          rintro rfl
          rw [ht] at ht'
          cases ht'
        exact .inr (.inl ⟨t', (Function.update_of_ne htt _ _).trans ht'⟩)
      · exact .inr (.inr ((isSome_update_of_ne hne).trans hleased))
  case known_tracked => exact h.known_tracked
  case known_handed =>
    intro t' x hx
    rcases hcases t' x hx with ⟨-, rfl⟩ | ⟨hx, -⟩
    · exact h.known_leased x (by simp [hr])
    · exact h.known_handed t' x hx
  case known_leased =>
    intro x hx
    by_cases hne : x = r
    · exact hne ▸ h.known_leased r (by simp [hr])
    · exact h.known_leased x ((isSome_update_of_ne hne).symm.trans hx)

omit [DecidableEq τ] in
theorem Ok.transfer (h : s.Ok known) (hr : s.lessee r = some o) (o' : ο) :
    (s.transfer r o').Ok known := by
  obtain ⟨hidle, hhanded⟩ := h.leased_elsewhere hr
  constructor
  case idle_nodup => exact h.idle_nodup
  case idle_tracked => exact h.idle_tracked
  case idle_unleased =>
    intro x hx
    have hne : x ≠ r := fun he => hidle (he ▸ hx)
    exact (update_lessee_of_ne hne).trans (h.idle_unleased x hx)
  case idle_unhanded => exact h.idle_unhanded
  case handed_unleased =>
    intro t x hx
    have hne : x ≠ r := fun he => hhanded t (he ▸ hx)
    exact (update_lessee_of_ne hne).trans (h.handed_unleased t x hx)
  case handed_inj => exact h.handed_inj
  case placed =>
    intro x hx
    by_cases hne : x = r
    · exact .inr (.inr (by simp [Custody.transfer, hne]))
    · rcases h.placed x hx with hx | hx | hleased
      · exact .inl hx
      · exact .inr (.inl hx)
      · exact .inr (.inr ((isSome_update_of_ne hne).trans hleased))
  case known_tracked => exact h.known_tracked
  case known_handed => exact h.known_handed
  case known_leased =>
    intro x hx
    by_cases hne : x = r
    · exact hne ▸ h.known_leased r (by simp [hr])
    · exact h.known_leased x ((isSome_update_of_ne hne).symm.trans hx)

omit [DecidableEq τ] in
theorem Ok.retain (h : s.Ok known) (kept : List ρ) (hsub : kept.Sublist s.idle) :
    (s.retain kept).Ok known where
  idle_nodup := hsub.nodup h.idle_nodup
  idle_tracked r hr := Finset.mem_filter.2 ⟨h.idle_tracked r (hsub.mem hr), fun _ => hr⟩
  idle_unleased r hr := h.idle_unleased r (hsub.mem hr)
  idle_unhanded r hr := h.idle_unhanded r (hsub.mem hr)
  handed_unleased := h.handed_unleased
  handed_inj := h.handed_inj
  placed := by
    intro r hr
    obtain ⟨htracked, hkept⟩ := Finset.mem_filter.1 hr
    rcases h.placed r htracked with hidle | hhanded | hleased
    · exact .inl (hkept hidle)
    · exact .inr (.inl hhanded)
    · exact .inr (.inr hleased)
  known_tracked r hr := h.known_tracked r (Finset.mem_filter.1 hr).1
  known_handed := h.known_handed
  known_leased := h.known_leased

omit [DecidableEq ρ] [DecidableEq τ] in
theorem Ok.clear (h : s.Ok known) : s.clear.Ok known where
  idle_nodup := List.nodup_nil
  idle_tracked := by simp [Custody.clear]
  idle_unleased := by simp [Custody.clear]
  idle_unhanded := by simp [Custody.clear]
  handed_unleased := by simp [Custody.clear]
  handed_inj := by simp [Custody.clear]
  placed := by simp [Custody.clear]
  known_tracked := by simp [Custody.clear]
  known_handed := by simp [Custody.clear]
  known_leased := h.known_leased

/-- The three places a tracked resource can be in. -/
def InOnePlace (s : Custody ρ τ ο) (r : ρ) : Prop :=
  (r ∈ s.idle ∧ (∀ t, s.handed t ≠ some r) ∧ s.lessee r = none)
    ∨ (r ∉ s.idle ∧ (∃ t, s.handed t = some r ∧ ∀ t', s.handed t' = some r → t' = t)
        ∧ s.lessee r = none)
    ∨ (r ∉ s.idle ∧ (∀ t, s.handed t ≠ some r) ∧ ∃ o, s.lessee r = some o)

omit [DecidableEq ρ] [DecidableEq τ] in
/-- A tracked resource is in exactly one place. -/
theorem Ok.inOnePlace (h : s.Ok known) (hr : r ∈ s.tracked) : s.InOnePlace r := by
  rcases h.placed r hr with hidle | ⟨t, ht⟩ | hleased
  · exact .inl ⟨hidle, h.idle_unhanded r hidle, h.idle_unleased r hidle⟩
  · refine .inr (.inl ⟨fun hidle => h.idle_unhanded r hidle t ht, ?_, h.handed_unleased t r ht⟩)
    exact ⟨t, ht, fun t' ht' => h.handed_inj t' t r ht' ht⟩
  · obtain ⟨o, ho⟩ := Option.isSome_iff_exists.1 hleased
    obtain ⟨hidle, hhanded⟩ := h.leased_elsewhere ho
    exact .inr (.inr ⟨hidle, hhanded, o, ho⟩)

end
end Custody

end StreamingTts.Lib
