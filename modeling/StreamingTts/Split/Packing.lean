import StreamingTts.Split.Presplit

/-!
# Packing is greedy

Where `pre_split` cuts. The first tokens of a group, as many as the capacity allows, are its window:
every group but the last ends at the latest token of the strongest punctuation tier of its window, and
takes the whole window when no token of it is punctuation (`preSplit_greedy`). The loop notes the latest
position of each tier as the tokens come and notes them anew for what a cut carries over, so the
positions always are those of the group being packed (`TierPositions.Exact`).
-/

namespace StreamingTts.Split

/-! ## Windows -/

/-- A token of one of the three tiers. -/
def SegmentToken.IsPunct (token : SegmentToken) : Prop :=
  1 ≤ token.punctLevel ∧ token.punctLevel ≤ 3

/-- The strongest tier that occurs in a window: 1 before 2 before 3. -/
structure Strongest (window : List SegmentToken) (tier : Int) : Prop where
  isTier : 1 ≤ tier ∧ tier ≤ 3
  occurs : ∃ token ∈ window, token.punctLevel = tier
  strongest : ∀ token ∈ window, token.IsPunct → tier ≤ token.punctLevel

/-- A group ends at the latest token of a tier of its window. -/
def EndsAtLatest (window : List SegmentToken) (tier : Int) (group : List SegmentToken) : Prop :=
  ∃ body token rest, window = body ++ token :: rest ∧ token.punctLevel = tier ∧
    (∀ t ∈ rest, t.punctLevel ≠ tier) ∧ group = body ++ [token]

/-- A group is cut greedily from its window. -/
structure GreedyCut (capacity : Int) (window group : List SegmentToken) : Prop where
  latest : ∀ tier, Strongest window tier → EndsAtLatest window tier group
  full : (∀ token ∈ window, ¬ token.IsPunct) → (group.length : Int) = capacity

/-! ## The tier positions -/

/-- The position noted for a tier. -/
def TierPositions.tier (last : TierPositions) (k : Int) : Option Nat :=
  if k = 1 then last.l1 else if k = 2 then last.l2 else if k = 3 then last.l3 else none

/-- A token is noted in its own tier. -/
theorem TierPositions.tier_note (last : TierPositions) (i : Nat) (token : SegmentToken) {k : Int}
    (hk : 1 ≤ k ∧ k ≤ 3) :
    (last.note i token).tier k = if token.punctLevel = k then some i else last.tier k := by
  unfold TierPositions.note TierPositions.tier
  obtain rfl | rfl | rfl : k = 1 ∨ k = 2 ∨ k = 3 := by omega
  · split <;> grind
  · split <;> grind
  · split <;> grind

/-- What a noted position says of a tier among the tokens. -/
def LatestAt (tokens : List SegmentToken) (k : Int) : Option Nat → Prop
  | none => ∀ t ∈ tokens, t.punctLevel ≠ k
  | some pos => ∃ body token rest, tokens = body ++ token :: rest ∧ body.length = pos ∧
      token.punctLevel = k ∧ ∀ t ∈ rest, t.punctLevel ≠ k

/-- The positions are the latest of each tier among the tokens. -/
def TierPositions.Exact (last : TierPositions) (tokens : List SegmentToken) : Prop :=
  ∀ k, 1 ≤ k ∧ k ≤ 3 → LatestAt tokens k (last.tier k)

theorem TierPositions.exact_nil : TierPositions.Exact {} [] := by
  intro k hk
  obtain rfl | rfl | rfl : k = 1 ∨ k = 2 ∨ k = 3 := by omega
  all_goals
    intro t ht
    cases ht

/-- A token of another tier leaves the latest one where it is. -/
theorem LatestAt.append {tokens : List SegmentToken} {k : Int} {pos : Option Nat}
    (h : LatestAt tokens k pos) {token : SegmentToken} (hne : token.punctLevel ≠ k) :
    LatestAt (tokens ++ [token]) k pos := by
  have hkept : ∀ {rest : List SegmentToken}, (∀ t ∈ rest, t.punctLevel ≠ k) →
      ∀ t ∈ rest ++ [token], t.punctLevel ≠ k := by
    intro rest hrest t ht
    rcases List.mem_append.1 ht with ht | ht
    · exact hrest t ht
    · rw [List.mem_singleton.1 ht]
      exact hne
  cases pos with
  | none => exact hkept h
  | some pos =>
      obtain ⟨body, latest, rest, rfl, hlen, hlevel, hrest⟩ := h
      exact ⟨body, latest, rest ++ [token], by rw [List.append_assoc, List.cons_append], hlen, hlevel,
        hkept hrest⟩

/-- Noting the next token keeps the positions exact. -/
theorem TierPositions.Exact.note {last : TierPositions} {tokens : List SegmentToken}
    (h : last.Exact tokens) (token : SegmentToken) :
    (last.note tokens.length token).Exact (tokens ++ [token]) := by
  intro k hk
  rw [last.tier_note tokens.length token hk]
  split
  · next hlevel =>
    refine ⟨tokens, token, [], rfl, rfl, hlevel, ?_⟩
    intro t ht
    cases ht
  · next hlevel => exact (h k hk).append hlevel

theorem TierPositions.Exact.scan {last : TierPositions} {tokens : List SegmentToken}
    (h : last.Exact tokens) (more : List SegmentToken) :
    (last.scan tokens.length more).Exact (tokens ++ more) := by
  induction more generalizing last tokens with
  | nil =>
      rw [List.append_nil]
      exact h
  | cons token more ih =>
      have hmore := ih (h.note token)
      rw [List.length_append, List.length_singleton, ← List.append_cons] at hmore
      exact hmore

/-- A full group is cut at the latest token of its strongest tier. -/
theorem TierPositions.Exact.cut_some {last : TierPositions} {tokens : List SegmentToken}
    (h : last.Exact tokens) {pos : Nat} (hcut : last.cut = some pos) :
    ∃ k, (1 ≤ k ∧ k ≤ 3) ∧ LatestAt tokens k (some pos) ∧
      ∀ j, 1 ≤ j ∧ j < k → LatestAt tokens j none := by
  have h₁ : LatestAt tokens 1 last.l1 := h 1 (by omega)
  have h₂ : LatestAt tokens 2 last.l2 := h 2 (by omega)
  have h₃ : LatestAt tokens 3 last.l3 := h 3 (by omega)
  unfold TierPositions.cut at hcut
  split at hcut
  · next hl₁ =>
    rw [hl₁, Option.some.inj hcut] at h₁
    exact ⟨1, by omega, h₁, fun j hj => absurd hj (by omega)⟩
  · next hl₁ hl₂ =>
    rw [hl₁] at h₁
    rw [hl₂, Option.some.inj hcut] at h₂
    refine ⟨2, by omega, h₂, ?_⟩
    intro j hj
    obtain rfl : j = 1 := by omega
    exact h₁
  · next hl₁ hl₂ =>
    rw [hl₁] at h₁
    rw [hl₂] at h₂
    rw [hcut] at h₃
    refine ⟨3, by omega, h₃, ?_⟩
    intro j hj
    obtain rfl | rfl : j = 1 ∨ j = 2 := by omega
    · exact h₁
    · exact h₂

/-- A full group without a position to cut at has no punctuation. -/
theorem TierPositions.Exact.cut_none {last : TierPositions} {tokens : List SegmentToken}
    (h : last.Exact tokens) (hcut : last.cut = none) : ∀ t ∈ tokens, ¬ t.IsPunct := by
  have h₁ : LatestAt tokens 1 last.l1 := h 1 (by omega)
  have h₂ : LatestAt tokens 2 last.l2 := h 2 (by omega)
  have h₃ : LatestAt tokens 3 last.l3 := h 3 (by omega)
  unfold TierPositions.cut at hcut
  split at hcut
  · cases hcut
  · cases hcut
  · next hl₁ hl₂ =>
    rw [hl₁] at h₁
    rw [hl₂] at h₂
    rw [hcut] at h₃
    intro t ht hpunct
    have := h₁ t ht
    have := h₂ t ht
    have := h₃ t ht
    unfold SegmentToken.IsPunct at hpunct
    omega

/-- Cutting a full window at its position is a greedy cut. -/
theorem greedyCut_take {capacity : Int} {last : TierPositions} {window : List SegmentToken}
    (h : last.Exact window) {pos : Nat} (hcut : last.cut = some pos) :
    GreedyCut capacity window (window.take (pos + 1)) := by
  obtain ⟨k, hk, ⟨body, token, rest, hwindow, hlen, hlevel, hrest⟩, hstronger⟩ := h.cut_some hcut
  have hmem : token ∈ window := by
    rw [hwindow]
    exact List.mem_append_right _ List.mem_cons_self
  have htake : window.take (pos + 1) = body ++ [token] := by
    rw [hwindow, ← hlen, List.append_cons, List.take_append_of_le_length (by simp)]
    exact List.take_of_length_le (by simp)
  refine ⟨?_, ?_⟩
  · intro tier htier
    -- a stronger tier has no token in the window, a weaker one is not the strongest
    have hle : tier ≤ k := hlevel ▸ htier.strongest token hmem ⟨hlevel ▸ hk.1, hlevel ▸ hk.2⟩
    obtain ⟨t, ht, hlevel'⟩ := htier.occurs
    have hge : k ≤ tier := by
      by_contra hlt
      exact hstronger tier ⟨htier.isTier.1, not_le.1 hlt⟩ t ht hlevel'
    obtain rfl := le_antisymm hle hge
    exact ⟨body, token, rest, hwindow, hlevel, hrest, htake⟩
  · intro hnone
    exact absurd ⟨hlevel ▸ hk.1, hlevel ▸ hk.2⟩ (hnone token hmem)

/-- Taking a whole window without punctuation is a greedy cut. -/
theorem greedyCut_full {capacity : Int} {window : List SegmentToken}
    (hnone : ∀ t ∈ window, ¬ t.IsPunct) (hlen : (window.length : Int) = capacity) :
    GreedyCut capacity window window := by
  refine ⟨?_, fun _ => hlen⟩
  intro tier htier
  obtain ⟨t, ht, hlevel⟩ := htier.occurs
  exact absurd ⟨hlevel ▸ htier.isTier.1, hlevel ▸ htier.isTier.2⟩ (hnone t ht)

/-! ## The loop -/

/-- A finished group was cut greedily from a full window, which the tokens after it continue. -/
def CutFromWindow (capacity : Int) (group after : List SegmentToken) : Prop :=
  ∃ window, (window.length : Int) = capacity ∧ window <+: group ++ after ∧
    GreedyCut capacity window group

theorem CutFromWindow.append {capacity : Int} {group after : List SegmentToken}
    (h : CutFromWindow capacity group after) (more : List SegmentToken) :
    CutFromWindow capacity group (after ++ more) := by
  obtain ⟨window, hlen, hwindow, hcut⟩ := h
  refine ⟨window, hlen, ?_, hcut⟩
  rw [← List.append_assoc]
  exact hwindow.trans (List.prefix_append _ _)

/-- What a turn of the packing keeps: exact tier positions, and finished groups that were cut
greedily. -/
structure Packing.Greedy (capacity : Int) (p : Packing) : Prop where
  exact : p.last.Exact p.current
  cut : ∀ before group after, p.segments = before ++ group :: after →
    CutFromWindow capacity group (after.flatten ++ p.current)

/-- A group finished by a cut joins the finished ones. -/
theorem Packing.Greedy.finish {capacity : Int} {p : Packing} (h : p.Greedy capacity)
    {token : SegmentToken} {group rest : List SegmentToken}
    (hparts : group ++ rest = p.current ++ [token]) (hcut : CutFromWindow capacity group rest) :
    ∀ before g after, p.segments ++ [group] = before ++ g :: after →
      CutFromWindow capacity g (after.flatten ++ rest) := by
  intro before g after hsegments
  rcases List.eq_nil_or_concat after with rfl | ⟨after', g', rfl⟩
  · obtain ⟨-, hg⟩ := List.append_inj' hsegments rfl
    rw [← (List.cons.inj hg).1]
    exact hcut
  · have hsplit : p.segments ++ [group] = (before ++ g :: after') ++ [g'] := by
      rw [hsegments, List.concat_eq_append, List.append_assoc, List.cons_append]
    obtain ⟨hbefore, hg'⟩ := List.append_inj' hsplit rfl
    obtain rfl := (List.cons.inj hg').1
    have hkept := (h.cut before g after' hbefore).append [token]
    rw [List.concat_eq_append, List.flatten_append, List.flatten_singleton, List.append_assoc, hparts,
      ← List.append_assoc]
    exact hkept

theorem Packing.Greedy.add {capacity : Int} {tokens : List SegmentToken} {p : Packing}
    (hok : p.Ok capacity tokens) (h : p.Greedy capacity) (token : SegmentToken) :
    (p.add capacity token).Greedy capacity := by
  have hexact := h.exact.note token
  unfold Packing.add
  simp only
  split
  · next hfull =>
    have hlen : ((p.current ++ [token]).length : Int) = capacity := by
      have := hok.room
      simp only [List.length_append, List.length_singleton] at hfull ⊢
      push_cast at hfull ⊢
      omega
    split
    · next pos hcut =>
      have hparts := List.take_append_drop (pos + 1) (p.current ++ [token])
      refine ⟨?_, h.finish hparts ?_⟩
      · exact TierPositions.exact_nil.scan _
      · refine ⟨_, hlen, ⟨[], ?_⟩, greedyCut_take hexact hcut⟩
        rw [List.append_nil, hparts]
    · next hcut =>
      refine ⟨TierPositions.exact_nil, h.finish (List.append_nil _) ?_⟩
      exact ⟨_, hlen, List.prefix_append _ _, greedyCut_full (hexact.cut_none hcut) hlen⟩
  · refine ⟨hexact, ?_⟩
    intro before group after hsegments
    have hkept := (h.cut before group after hsegments).append [token]
    rwa [List.append_assoc] at hkept

/-- The packing of a text. -/
theorem Packing.Greedy.foldl {capacity : Int} (hcap : 1 ≤ capacity) {tokens : List SegmentToken}
    {p : Packing} (hok : p.Ok capacity tokens) (h : p.Greedy capacity) (more : List SegmentToken) :
    (more.foldl (Packing.add capacity) p).Greedy capacity := by
  induction more generalizing tokens p with
  | nil => exact h
  | cons token more ih => exact ih (hok.add hcap token) (h.add hok token)

/-- Every group but the last was cut from its window. -/
theorem preSplit_cut {capacity : Int} (hcap : 1 ≤ capacity) {tokens : List SegmentToken}
    {before after : List (List SegmentToken)} {group : List SegmentToken}
    (hgroups : preSplit capacity tokens = before ++ group :: after) (hafter : after ≠ []) :
    CutFromWindow capacity group after.flatten := by
  have hempty : Packing.Greedy capacity { segments := [], current := [], last := {} } := by
    refine ⟨TierPositions.exact_nil, ?_⟩
    intro before group after h
    exact absurd h.symm (by simp)
  have h := hempty.foldl hcap (Packing.ok_empty hcap) tokens
  unfold preSplit at hgroups
  simp only at hgroups
  split at hgroups
  · next hnil =>
    have hcut := h.cut before group after hgroups
    rwa [hnil, List.append_nil] at hcut
  · obtain ⟨after', last, rfl⟩ : ∃ after' last, after = after' ++ [last] :=
      ⟨_, _, (List.dropLast_append_getLast hafter).symm⟩
    have hsplit : (before ++ group :: after') ++ [last] = before ++ group :: (after' ++ [last]) := by
      rw [List.append_assoc, List.cons_append]
    rw [← hsplit] at hgroups
    obtain ⟨hsegments, hlast⟩ := List.append_inj' hgroups rfl
    have hcut := h.cut before group after' hsegments
    rw [List.flatten_append, List.flatten_singleton, ← (List.cons.inj hlast).1]
    exact hcut

/-- `pre_split` is exact greedy packing: its groups are not empty, keep the tokens in order and fit the
capacity, and every group but the last ends at the latest token of the strongest tier among the first
`capacity` tokens from its start, or has `capacity` tokens when none of those is punctuation. -/
theorem preSplit_greedy {capacity : Int} (hcap : 1 ≤ capacity) (tokens : List SegmentToken) :
    (preSplit capacity tokens).flatten = tokens ∧
      (∀ g ∈ preSplit capacity tokens, g ≠ [] ∧ (g.length : Int) ≤ capacity) ∧
      ∀ before group after, preSplit capacity tokens = before ++ group :: after → after ≠ [] →
        GreedyCut capacity ((group ++ after.flatten).take capacity.toNat) group := by
  obtain ⟨htokens, hgroups⟩ := preSplit_spec hcap tokens
  refine ⟨htokens, hgroups, ?_⟩
  intro before group after h hafter
  obtain ⟨window, hlen, hwindow, hcut⟩ := preSplit_cut hcap h hafter
  have htoNat : capacity.toNat = window.length := by omega
  rw [htoNat, ← List.prefix_iff_eq_take.1 hwindow]
  exact hcut

/-- The comma of a full window is passed over for the full stop in front of it. -/
theorem preSplit_greedy_stop :
    GreedyCut 3 [⟨0, "", 1, 0, 0, 0, 0⟩, ⟨1, "", 2, 0, 0, 0, 0⟩, ⟨2, "", 0, 0, 0, 0, 0⟩]
      [⟨0, "", 1, 0, 0, 0, 0⟩] := by
  have h := @preSplit_greedy 3 (by decide)
    [⟨0, "", 1, 0, 0, 0, 0⟩, ⟨1, "", 2, 0, 0, 0, 0⟩, ⟨2, "", 0, 0, 0, 0, 0⟩]
  exact h.2.2 [] _ _ rfl (List.cons_ne_nil _ _)

end StreamingTts.Split
