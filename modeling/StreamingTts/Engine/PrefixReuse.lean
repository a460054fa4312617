import Mathlib
import StreamingTts.Engine.Prefill

/-!
# A prefix-cache hit and the miss it replaces

`_try_prefill_one` and `_admit_picked` of `engine/backend/engine_loop.py` admit a segment either from
an entry of the prefix cache or by a plan of its own. What the Talker reads then is a `TalkerInput`.
The key of an entry says everything about the stored prefix except the speaker's dialect, and a hit
always lays its text out for streaming: `hit_eq_miss_iff` says when the two inputs agree.
-/

namespace StreamingTts.Engine

open Frontend (Text UnicodeData)

/-- What the Talker reads for a segment: the positions of its prefill and of its first decode step,
and then one trailing row a step. -/
structure TalkerInput where
  positions : List Embed
  trailing : List Embed
  deriving DecidableEq

/-- The input of a cache hit: the stored prefix, and the suffix that was built for the tokens. -/
def hitInput (stored : List Embed) (suffix : List Embed × List Embed) : TalkerInput :=
  ⟨stored ++ suffix.1, suffix.2⟩

namespace PrefillPlan

/-- The input of a cache miss. -/
def missInput (plan : PrefillPlan) (taskType : TaskType) : TalkerInput :=
  if plan.splitPrefixPrefill taskType then
    ⟨plan.cacheablePrefixEmbeds.getD [] ++ plan.requestPrefillEmbeds.getD [], plan.trailing⟩
  else ⟨plan.prefillEmbeds, plan.trailing⟩

end PrefillPlan

namespace PrefillBuilder

variable {u : UnicodeData} (b : PrefillBuilder u)

/-- The instruction tokens of a configuration. -/
def instructIds (c : PromptConfig) : List Nat := b.normalizePromptTokenIds c.instructTokenIds c.instruct

/-- A digest prefix is made of hexadecimal digits. -/
structure HexDigests : Prop where
  ids : ∀ ids, b.idsDigest ids ≠ [] ∧ '|' ∉ b.idsDigest ids
  speaker : ∀ bytes, '|' ∉ b.speakerDigest bytes
  template : '|' ∉ b.templateKey

/-- The digests that the keys of two configurations are made of do not collide. -/
structure NoCollision (c₀ c : PromptConfig) : Prop where
  ids : b.idsDigest (b.instructIds c₀) = b.idsDigest (b.instructIds c) → b.instructIds c₀ = b.instructIds c
  speaker : ∀ bytes₀ bytes, c₀.spkEmbedding = some bytes₀ → c.spkEmbedding = some bytes →
    b.speakerDigest bytes₀ = b.speakerDigest bytes → bytes₀ = bytes

/-! ## The key -/

/-- The part of a key that stands for the speaker. -/
def speakerKey (taskType : TaskType) (speaker : Option Text) (spkEmbedding : Option (List UInt8)) :
    Option (List Text) :=
  match taskType with
  | .customVoice => (b.resolveCustomSpeaker speaker).1.map fun found =>
      ["custom_spk:".toList ++ (toString found.2).toList]
  | .voiceCloneXvec => spkEmbedding.map fun bytes => [b.speakerDigest bytes]
  | .voiceCloneIcl => none
  | .voiceDesign => some []

/-- The part of a key that stands for the instruction. -/
def instructKey (ids : List Nat) : Text := if ids ≠ [] then b.idsDigest ids else []

/-- A key is the join of its parts. -/
theorem prefixCacheKey_eq (taskType : TaskType) (language : Text) (speaker instruct : Option Text)
    (spkEmbedding : Option (List UInt8)) (instructTokenIds : Option (List Nat)) :
    b.prefixCacheKey taskType language speaker instruct spkEmbedding instructTokenIds
      = (b.speakerKey taskType speaker spkEmbedding).map fun parts =>
          joinKey ([b.w.variant, taskType.value, normalizeLanguageName u language,
            b.instructKey (b.normalizePromptTokenIds instructTokenIds instruct), b.templateKey]
            ++ parts) := by
  cases taskType with
  | customVoice =>
      cases h : (b.resolveCustomSpeaker speaker).1 with
      | none => simp [prefixCacheKey, speakerKey, h]
      | some found => simp [prefixCacheKey, speakerKey, instructKey, h]
  | voiceCloneXvec => cases spkEmbedding <;> simp [prefixCacheKey, speakerKey, instructKey]
  | voiceCloneIcl => simp [prefixCacheKey, speakerKey]
  | voiceDesign => simp [prefixCacheKey, speakerKey, instructKey]

theorem lookup_mem {α : Type} {dict : List (Text × α)} {key : Text} {value : α}
    (h : lookup dict key = some value) : (key, value) ∈ dict := by
  unfold lookup at h
  obtain ⟨entry, hfind, hvalue⟩ := Option.map_eq_some_iff.1 h
  have hkey : entry.1 = key := by simpa using List.find?_some hfind
  have hmem := List.mem_of_find?_eq_some hfind
  obtain ⟨k, v⟩ := entry
  subst hkey hvalue
  exact hmem

/-- A stand-in speaker is one of the map. -/
theorem standIn_mem (key : Text) (first : Text × Nat) (rest : List (Text × Nat)) :
    lookup (first :: rest) (standIn key (first :: rest) first).1
      = some (standIn key (first :: rest) first).2 := by
  unfold standIn
  cases h : lookup (first :: rest) key with
  | none => simp [lookup]
  | some id => simpa using h

/-- A resolved speaker has the id the map gives it. -/
theorem resolveCustomSpeaker_lookup {speaker : Option Text} {found : Text × Nat}
    (h : (b.resolveCustomSpeaker speaker).1 = some found) :
    lookup b.w.spkIdMap found.1 = some found.2 := by
  unfold resolveCustomSpeaker at h
  cases hmap : b.w.spkIdMap with
  | nil => simp [hmap] at h
  | cons first rest =>
      simp only [hmap] at h
      split at h
      · cases hraw : lookup (first :: rest) (u.lowerText (u.strip (speaker.getD []))) with
        | some id =>
            simp only [hraw, Option.some.injEq] at h
            rw [← h]
            exact hraw
        | none =>
            simp only [hraw, Option.some.injEq] at h
            rw [← h]
            exact standIn_mem _ first rest
      · simp only [Option.some.injEq] at h
        rw [← h]
        exact standIn_mem _ first rest

/-- A resolved speaker resolves to himself. -/
theorem resolveCustomSpeaker_resolved (speaker : Option Text) :
    (b.resolveCustomSpeaker ((b.resolveCustomSpeaker speaker).1.map Prod.fst)).1
      = (b.resolveCustomSpeaker speaker).1 := by
  cases h : (b.resolveCustomSpeaker speaker).1 with
  | none =>
      cases hmap : b.w.spkIdMap with
      | nil => simp [resolveCustomSpeaker, hmap]
      | cons first rest =>
          unfold resolveCustomSpeaker at h
          simp only [hmap] at h
          split at h
          · split at h <;> simp at h
          · simp at h
  | some found =>
      have hlookup := b.resolveCustomSpeaker_lookup h
      obtain ⟨hne, hnormal⟩ := b.w.normalized _ (lookup_mem hlookup)
      unfold resolveCustomSpeaker
      cases hmap : b.w.spkIdMap with
      | nil => simp [hmap, lookup] at hlookup
      | cons first rest =>
          rw [hmap] at hlookup
          simp [hnormal, hne, hlookup]

/-- The key a plan is stored under is the key that was probed before. -/
theorem planKey_eq_computeCacheKey (c : PromptConfig) : b.planKey c = b.computeCacheKey c := by
  have hids : b.normalizePromptTokenIds
      (some (b.normalizePromptTokenIds c.instructTokenIds c.instruct)) c.instruct
      = b.normalizePromptTokenIds c.instructTokenIds c.instruct := rfl
  have hspeaker : b.speakerKey c.taskType (b.planSpeaker c) c.spkEmbedding
      = b.speakerKey c.taskType c.speaker c.spkEmbedding := by
    unfold speakerKey planSpeaker
    cases c.taskType with
    | customVoice => simp only [b.resolveCustomSpeaker_resolved c.speaker]
    | voiceCloneXvec | voiceCloneIcl | voiceDesign => rfl
  rw [planKey, computeCacheKey, prefixCacheKey_eq, prefixCacheKey_eq, hids, hspeaker]

/-- No part of a speaker's key has a separator in it. -/
theorem HexDigests.speakerKey {b : PrefillBuilder u} (hhex : b.HexDigests) {taskType : TaskType}
    {speaker : Option Text} {spkEmbedding : Option (List UInt8)} {parts : List Text}
    (h : b.speakerKey taskType speaker spkEmbedding = some parts) : ∀ part ∈ parts, '|' ∉ part := by
  unfold PrefillBuilder.speakerKey at h
  cases taskType with
  | customVoice =>
      obtain ⟨found, _, rfl⟩ := Option.map_eq_some_iff.1 h
      intro part hpart hmem
      rw [List.mem_singleton.1 hpart, List.mem_append] at hmem
      rcases hmem with hmem | hmem
      · revert hmem
        decide
      · have hdigit := Nat.isDigit_of_mem_toDigits (by decide) (by decide)
          (show '|' ∈ Nat.toDigits 10 found.2 by simpa [toString, Nat.repr] using hmem)
        revert hdigit
        decide
  | voiceCloneXvec =>
      obtain ⟨bytes, _, rfl⟩ := Option.map_eq_some_iff.1 h
      intro part hpart
      rw [List.mem_singleton.1 hpart]
      exact hhex.speaker bytes
  | voiceCloneIcl => cases h
  | voiceDesign =>
      cases h
      intro part hpart
      cases hpart

theorem HexDigests.instructKey {b : PrefillBuilder u} (hhex : b.HexDigests) (ids : List Nat) :
    '|' ∉ b.instructKey ids := by
  unfold PrefillBuilder.instructKey
  split
  · exact (hhex.ids ids).2
  · exact List.not_mem_nil

/-- Two texts cut at their first separator. -/
theorem eq_of_first_separator {a : Char} {x x' y y' : Text} (hx : a ∉ x) (hx' : a ∉ x')
    (h : x ++ a :: y = x' ++ a :: y') : x = x' ∧ y = y' := by
  induction x generalizing x' with
  | nil =>
      cases x' with
      | nil => exact ⟨rfl, (List.cons.inj h).2⟩
      | cons c x' =>
          cases (List.cons.inj h).1
          exact absurd List.mem_cons_self hx'
  | cons c x ih =>
      cases x' with
      | nil =>
          cases (List.cons.inj h).1
          exact absurd List.mem_cons_self hx
      | cons c' x' =>
          obtain ⟨hc, htail⟩ := List.cons.inj h
          obtain ⟨hxs, hys⟩ := ih (fun hm => hx (List.mem_cons_of_mem _ hm))
            (fun hm => hx' (List.mem_cons_of_mem _ hm)) htail
          exact ⟨by rw [hc, hxs], hys⟩

/-- Two texts cut at their last separator. -/
theorem eq_of_last_separator {a : Char} {x x' y y' : Text} (hy : a ∉ y) (hy' : a ∉ y')
    (h : x ++ a :: y = x' ++ a :: y') : x = x' ∧ y = y' := by
  have hrev : y.reverse ++ a :: x.reverse = y'.reverse ++ a :: x'.reverse := by
    have := congrArg List.reverse h
    simpa using this
  obtain ⟨hys, hxs⟩ := eq_of_first_separator (by simpa using hy) (by simpa using hy') hrev
  exact ⟨List.reverse_injective hxs, List.reverse_injective hys⟩

theorem TaskType.value_inj {t t' : TaskType} (h : t.value = t'.value) : t = t' := by
  revert h
  cases t <;> cases t' <;> decide

theorem TaskType.value_no_separator (t : TaskType) : '|' ∉ t.value := by
  cases t <;> decide

/-- What two configurations with one key have in common. -/
structure SameKey (c₀ c : PromptConfig) : Prop where
  taskType : c₀.taskType = c.taskType
  language : normalizeLanguageName u c₀.language = normalizeLanguageName u c.language
  instruct : b.instructKey (b.instructIds c₀) = b.instructKey (b.instructIds c)
  speaker : b.speakerKey c₀.taskType c₀.speaker c₀.spkEmbedding
    = b.speakerKey c.taskType c.speaker c.spkEmbedding
  some : (b.speakerKey c.taskType c.speaker c.spkEmbedding).isSome

theorem joinKey_cons_cons (x y : Text) (xs : List Text) :
    joinKey (x :: y :: xs) = x ++ '|' :: joinKey (y :: xs) := by
  simp [joinKey, List.intercalate]

theorem joinKey_concat (x : Text) (xs : List Text) (y : Text) :
    joinKey (x :: xs ++ [y]) = joinKey (x :: xs) ++ '|' :: y := by
  induction xs generalizing x with
  | nil => simp [joinKey, List.intercalate]
  | cons x' xs ih =>
      have hassoc : x :: x' :: xs ++ [y] = x :: x' :: (xs ++ [y]) := rfl
      rw [hassoc, joinKey_cons_cons, joinKey_cons_cons, List.append_assoc, List.cons_append]
      exact congrArg _ (congrArg _ (ih x'))

/-- The speaker's part of a key has one piece or none, by the task type. -/
theorem speakerKey_cases {taskType : TaskType} {speaker : Option Text}
    {spkEmbedding : Option (List UInt8)} {parts : List Text}
    (h : b.speakerKey taskType speaker spkEmbedding = some parts) :
    (taskType = .voiceDesign ∧ parts = []) ∨ (taskType ≠ .voiceDesign ∧ ∃ part, parts = [part]) := by
  unfold speakerKey at h
  cases taskType with
  | customVoice =>
      obtain ⟨found, _, rfl⟩ := Option.map_eq_some_iff.1 h
      exact .inr ⟨by decide, _, rfl⟩
  | voiceCloneXvec =>
      obtain ⟨bytes, _, rfl⟩ := Option.map_eq_some_iff.1 h
      exact .inr ⟨by decide, _, rfl⟩
  | voiceCloneIcl => cases h
  | voiceDesign =>
      cases h
      exact .inl ⟨rfl, rfl⟩

/-- A key determines its parts: only the variant and the language can have a separator in them, and
the variant is the builder's. -/
theorem sameKey_of_computeCacheKey {b : PrefillBuilder u} (hhex : b.HexDigests) {c₀ c : PromptConfig}
    {key : Text} (h₀ : b.computeCacheKey c₀ = some key) (h : b.computeCacheKey c = some key) :
    b.SameKey c₀ c := by
  rw [computeCacheKey, prefixCacheKey_eq] at h₀ h
  obtain ⟨parts₀, hparts₀, hkey₀⟩ := Option.map_eq_some_iff.1 h₀
  obtain ⟨parts, hparts, hkey⟩ := Option.map_eq_some_iff.1 h
  have hjoin := hkey₀.trans hkey.symm
  simp only [List.cons_append, List.nil_append, joinKey_cons_cons] at hjoin
  -- the variant is common, and the task type ends at the next separator
  obtain ⟨htask, hbody⟩ := eq_of_first_separator (TaskType.value_no_separator _)
    (TaskType.value_no_separator _) (List.cons.inj (List.append_cancel_left hjoin)).2
  have htask : c₀.taskType = c.taskType := TaskType.value_inj htask
  simp only [← joinKey_cons_cons] at hbody
  have hrest : parts₀ = parts ∧
      joinKey [normalizeLanguageName u c₀.language, b.instructKey (b.instructIds c₀), b.templateKey]
        = joinKey [normalizeLanguageName u c.language, b.instructKey (b.instructIds c),
            b.templateKey] := by
    rcases b.speakerKey_cases hparts₀ with ⟨hdesign₀, rfl⟩ | ⟨hdesign₀, part₀, rfl⟩
    · rcases b.speakerKey_cases hparts with ⟨_, rfl⟩ | ⟨hdesign, _⟩
      · exact ⟨rfl, hbody⟩
      · exact absurd (htask.symm.trans hdesign₀) hdesign
    · rcases b.speakerKey_cases hparts with ⟨hdesign, _⟩ | ⟨_, part, rfl⟩
      · exact absurd (htask.trans hdesign) hdesign₀
      · have hcut := hbody
        rw [← List.nil_append [part₀], ← List.nil_append [part], ← List.cons_append,
          ← List.cons_append, ← List.cons_append, ← List.cons_append, ← List.cons_append,
          ← List.cons_append, joinKey_concat, joinKey_concat] at hcut
        obtain ⟨hfront, hpart⟩ := eq_of_last_separator
          (hhex.speakerKey hparts₀ part₀ List.mem_cons_self)
          (hhex.speakerKey hparts part List.mem_cons_self) hcut
        exact ⟨by rw [hpart], hfront⟩
  obtain ⟨hpartsEq, hfront⟩ := hrest
  simp only [joinKey_cons_cons] at hfront
  have htemplate : joinKey [b.templateKey] = b.templateKey := by simp [joinKey, List.intercalate]
  rw [htemplate, ← List.cons_append, ← List.append_assoc, ← List.cons_append, ← List.append_assoc]
    at hfront
  obtain ⟨hfront, -⟩ := eq_of_last_separator hhex.template hhex.template hfront
  obtain ⟨hlanguage, hinstruct⟩ :=
    eq_of_last_separator (hhex.instructKey _) (hhex.instructKey _) hfront
  exact
    { taskType := htask
      language := hlanguage
      instruct := hinstruct
      speaker := by rw [hparts₀, hparts, hpartsEq]
      some := by rw [hparts]; rfl }

/-! ## What the key says about the prefix -/

section
variable {b} {c₀ c : PromptConfig}

/-- The instructions of two configurations with one key. -/
theorem SameKey.instructIds (h : b.SameKey c₀ c) (hhex : b.HexDigests) (hcoll : b.NoCollision c₀ c) :
    b.instructIds c₀ = b.instructIds c := by
  have hkey := h.instruct
  unfold instructKey at hkey
  split at hkey
  · split at hkey
    · exact hcoll.ids hkey
    · exact absurd hkey (hhex.ids _).1
  · next hempty₀ =>
    split at hkey
    · exact absurd hkey.symm (hhex.ids _).1
    · next hempty => rw [not_not.1 hempty₀, not_not.1 hempty]

/-- The speaker rows of two configurations with one key. -/
theorem SameKey.speakerEmbed (h : b.SameKey c₀ c) (hcoll : b.NoCollision c₀ c) :
    b.speakerEmbed c₀ = b.speakerEmbed c := by
  have hkey := h.speaker
  have hsome := h.some
  unfold PrefillBuilder.speakerEmbed
  rw [h.taskType] at hkey ⊢
  unfold speakerKey at hkey hsome
  cases htask : c.taskType with
  | customVoice =>
      rw [htask] at hkey hsome
      obtain ⟨found, hfound⟩ := Option.isSome_iff_exists.1 (by simpa using hsome)
      simp only [hfound, Option.map_some] at hkey
      obtain ⟨found₀, hfound₀, hparts⟩ := Option.map_eq_some_iff.1 hkey
      have hid : found₀.2 = found.2 := by
        have hrepr := List.append_cancel_left (List.cons.inj hparts).1
        exact Nat.repr_injective (String.toList_injective hrepr)
      simp [hfound, hfound₀, hid]
  | voiceCloneXvec =>
      rw [htask] at hkey hsome
      obtain ⟨bytes, hbytes⟩ := Option.isSome_iff_exists.1 (by simpa using hsome)
      simp only [hbytes, Option.map_some] at hkey
      obtain ⟨bytes₀, hbytes₀, hparts⟩ := Option.map_eq_some_iff.1 hkey
      have hsame : bytes₀ = bytes := hcoll.speaker bytes₀ bytes hbytes₀ hbytes (List.cons.inj hparts).1
      simp [hbytes, hbytes₀, hsame]
  | voiceCloneIcl =>
      rw [htask] at hsome
      cases hsome
  | voiceDesign => rfl

/-- The instruction rows of two configurations with one key. -/
theorem SameKey.instructEmbed (h : b.SameKey c₀ c) (hhex : b.HexDigests)
    (hcoll : b.NoCollision c₀ c) : b.instructEmbed c₀ = b.instructEmbed c := by
  have hids := h.instructIds hhex hcoll
  unfold PrefillBuilder.instructIds at hids
  unfold PrefillBuilder.instructEmbed
  rw [hids, h.taskType]

end

/-- The codec half of a row. -/
def Embed.codecHalf : Embed → Embed
  | .add _ codec => codec
  | row => row

/-- The codec rows can be read back from the dual track. -/
theorem dualTrack_codecHalf {codec : List Embed} (hne : codec ≠ []) :
    (dualTrack codec).map Embed.codecHalf = codec := by
  have hlen : (List.replicate (codec.length - 1) Embed.ttsPad ++ [Embed.ttsBos]).length
      = codec.length := by
    have := List.length_pos_iff.2 hne
    simp only [List.length_append, List.length_replicate, List.length_singleton]
    omega
  unfold dualTrack
  refine List.ext_getElem ?_ ?_
  · rw [List.length_map, List.length_zipWith, hlen, Nat.min_self]
  · intro i _ _
    rw [List.getElem_map, List.getElem_zipWith]
    rfl

theorem tagIds_inj {w : EmbeddingWeights u} {l₀ l : Option Nat} {rest : List Embed}
    (h : (tagIds w l₀).map Embed.codec ++ rest = (tagIds w l).map Embed.codec ++ rest) : l₀ = l := by
  have hmap := List.append_cancel_right h
  cases l₀ <;> cases l <;> simp_all [tagIds]

/-- Configurations with one key have one prefix exactly if their language tags agree. -/
theorem SameKey.talkerPrefix_iff {b : PrefillBuilder u} {c₀ c : PromptConfig} (h : b.SameKey c₀ c)
    (hhex : b.HexDigests) (hcoll : b.NoCollision c₀ c) (role : List Nat) (l₀ l : Option Nat) :
    b.talkerPrefix c₀ role l₀ = b.talkerPrefix c role l ↔ l₀ = l := by
  have hspeaker := h.speakerEmbed hcoll
  unfold talkerPrefix
  rw [h.instructEmbed hhex hcoll]
  constructor
  · intro heq
    have htrack := congrArg (List.map Embed.codecHalf) (List.append_cancel_left heq)
    have hne : ∀ (c : PromptConfig) (l : Option Nat), b.codecInput c l ≠ [] := by
      intro c l
      simp [codecInput]
    rw [dualTrack_codecHalf (hne c₀ l₀), dualTrack_codecHalf (hne c l)] at htrack
    unfold codecInput at htrack
    rw [hspeaker, List.append_assoc, List.append_assoc] at htrack
    exact tagIds_inj htrack
  · rintro rfl
    unfold codecInput
    rw [hspeaker]

/-! ## The plan of a cacheable task -/

/-- A plan of a task with a cacheable prefix. -/
theorem buildPlanFromIds_eq {c : PromptConfig} (hcacheable : c.taskType.cacheable = true)
    (tokens : List Nat) (eos : Bool) :
    b.buildPlanFromIds c tokens eos = (do
      let role ← b.assistantRoleIds
      let language ← b.languageId c.language (b.planSpeaker c)
      let request :=
        if c.taskType = .voiceDesign then b.nonStreamingRequest tokens
        else [b.firstTextWithBos tokens]
      pure
        { prefillEmbeds := b.talkerPrefix c role language ++ request
          trailing := if c.taskType = .voiceDesign then [.ttsPad] else streamingTrailing tokens eos
          prefixCacheKey := b.planKey c
          cacheablePrefixEmbeds := some (b.talkerPrefix c role language)
          requestPrefillEmbeds := some request
          warnings := b.planWarnings c }) := by
  unfold buildPlanFromIds
  cases htask : c.taskType with
  | voiceCloneIcl =>
      rw [htask] at hcacheable
      cases hcacheable
  | voiceDesign | customVoice | voiceCloneXvec => simp

/-- A key is only given to a task with a cacheable prefix. -/
theorem cacheable_of_computeCacheKey {c : PromptConfig} {key : Text}
    (h : b.computeCacheKey c = some key) : c.taskType.cacheable = true := by
  unfold computeCacheKey prefixCacheKey at h
  cases htask : c.taskType with
  | voiceCloneIcl =>
      rw [htask] at h
      cases h
  | voiceDesign | customVoice | voiceCloneXvec => rfl

/-- What is known of a plan of a task with a cacheable prefix. -/
theorem plan_spec {c : PromptConfig} (hcacheable : c.taskType.cacheable = true) {tokens : List Nat}
    {eos : Bool} {plan : PrefillPlan} (h : b.buildPlanFromIds c tokens eos = .ok plan) :
    ∃ role language, b.assistantRoleIds = .ok role
      ∧ b.languageId c.language (b.planSpeaker c) = .ok language
      ∧ plan.prefixCacheKey = b.computeCacheKey c
      ∧ plan.cacheablePrefixEmbeds = some (b.talkerPrefix c role language)
      ∧ plan.requestPrefillEmbeds = some (if c.taskType = .voiceDesign then b.nonStreamingRequest tokens
          else [b.firstTextWithBos tokens]) := by
  rw [b.buildPlanFromIds_eq hcacheable] at h
  cases hrole : b.assistantRoleIds with
  | error e =>
      rw [hrole] at h
      cases h
  | ok role =>
      cases hlanguage : b.languageId c.language (b.planSpeaker c) with
      | error e =>
          rw [hrole, hlanguage] at h
          cases h
      | ok language =>
          rw [hrole, hlanguage] at h
          cases h
          exact ⟨role, language, rfl, rfl, b.planKey_eq_computeCacheKey c, rfl, rfl⟩

/-- Only a task with a cacheable prefix stores one. -/
theorem cacheable_of_stored {c : PromptConfig} {tokens : List Nat} {eos : Bool} {plan : PrefillPlan}
    {stored : List Embed} (h : b.buildPlanFromIds c tokens eos = .ok plan)
    (hstored : plan.cacheablePrefixEmbeds = some stored) : c.taskType.cacheable = true := by
  cases htask : c.taskType with
  | voiceDesign | customVoice | voiceCloneXvec => rfl
  | voiceCloneIcl =>
      unfold buildPlanFromIds at h
      rw [htask] at h
      cases hrole : b.assistantRoleIds with
      | error e =>
          rw [hrole] at h
          cases h
      | ok role =>
          cases hlanguage : b.languageId c.language (b.planSpeaker c) with
          | error e =>
              rw [hrole, hlanguage] at h
              cases h
          | ok language =>
              rw [hrole, hlanguage] at h
              cases href : c.refCodecSumVec with
              | none =>
                  rw [href] at h
                  cases h
                  cases hstored
              | some refCodecSum =>
                  rw [href] at h
                  simp only [bind, Except.bind] at h
                  split at h
                  · cases h
                  · cases h
                    cases hstored

/-! ## Hits -/

/-- The streaming suffix of a hit. -/
theorem buildSuffixFromIds_eq {tokens : List Nat} (hne : tokens ≠ []) (eos : Bool) :
    b.buildSuffixFromIds tokens eos = ([b.firstTextWithBos tokens], streamingTrailing tokens eos) := by
  cases tokens with
  | nil => exact absurd rfl hne
  | cons t rest =>
      cases rest <;> cases eos <;> simp [buildSuffixFromIds, firstTextWithBos, streamingTrailing]

/-- A batch builds the suffix of each segment as the serial path does. -/
theorem buildSuffixBatch_eq (lists : List (List Nat)) (flags : List Bool) :
    b.buildSuffixBatch lists flags = List.zipWith b.buildSuffixFromIds lists flags := by
  unfold buildSuffixBatch
  congr 1
  funext ids eos
  unfold buildSuffixFromIds
  rcases ids with _ | ⟨t, _ | ⟨t', rest⟩⟩ <;> cases eos <;> simp

/-- The input of a hit and the input of a miss are the same, whichever way the hit is admitted, and the
plan of the miss has the stored prefix and goes under the key that was probed. -/
def HitEqualsMiss (stored : List Embed) (c : PromptConfig) (tokens : List Nat) (eos : Bool) : Prop :=
  ∃ plan, b.buildPlanFromIds c tokens eos = .ok plan
    ∧ plan.prefixCacheKey = b.computeCacheKey c
    ∧ plan.cacheablePrefixEmbeds = some stored
    ∧ hitInput stored (b.buildSuffixFromIds tokens eos) = plan.missInput c.taskType
    ∧ ∀ (lists : List (List Nat)) (flags : List Bool) (i : Nat), lists[i]? = some tokens →
        flags[i]? = some eos →
        ((b.buildSuffixBatch lists flags)[i]?).map (hitInput stored)
          = some (plan.missInput c.taskType)

/-- A serial hit that equals the miss does so in a batch. -/
theorem batch_of_serial {stored : List Embed} {tokens : List Nat} {eos : Bool} {input : TalkerInput}
    (h : hitInput stored (b.buildSuffixFromIds tokens eos) = input) (lists : List (List Nat))
    (flags : List Bool) (i : Nat) (htokens : lists[i]? = some tokens) (heos : flags[i]? = some eos) :
    ((b.buildSuffixBatch lists flags)[i]?).map (hitInput stored) = some input := by
  rw [b.buildSuffixBatch_eq, List.getElem?_zipWith, htokens, heos]
  simp [h]

/-- The trailing rows of a hit are never the lone pad of the non-streaming layout. -/
theorem streamingTrailing_ne_pad (tokens : List Nat) (eos : Bool) :
    streamingTrailing tokens eos ≠ [.ttsPad] := by
  unfold streamingTrailing
  rcases tokens.tail with _ | ⟨t, _ | ⟨t', rest⟩⟩ <;> cases eos <;> simp

/-- The input of a miss of a task with a cacheable prefix, given its plan. -/
theorem missInput_eq {c : PromptConfig} (hcacheable : c.taskType.cacheable = true)
    (hdesign : c.taskType ≠ .voiceDesign) {role : List Nat} {language : Option Nat}
    (hrole : b.assistantRoleIds = .ok role)
    (hlanguage : b.languageId c.language (b.planSpeaker c) = .ok language) (tokens : List Nat)
    (eos : Bool) :
    ∃ plan, b.buildPlanFromIds c tokens eos = .ok plan
      ∧ plan.prefixCacheKey = b.computeCacheKey c
      ∧ plan.cacheablePrefixEmbeds = some (b.talkerPrefix c role language)
      ∧ plan.missInput c.taskType
        = ⟨b.talkerPrefix c role language ++ [b.firstTextWithBos tokens],
            streamingTrailing tokens eos⟩ := by
  rw [b.buildPlanFromIds_eq hcacheable, hrole, hlanguage]
  refine ⟨_, rfl, b.planKey_eq_computeCacheKey c, rfl, ?_⟩
  have hicl : c.taskType ≠ .voiceCloneIcl := by
    intro hicl
    rw [hicl] at hcacheable
    cases hcacheable
  simp [PrefillPlan.missInput, PrefillPlan.splitPrefixPrefill, hdesign, hicl]

/-- The key an entry is stored under: `plan.prefix_cache_key or cache_key`. -/
def effectiveKey (c : PromptConfig) (plan : PrefillPlan) : Option Text :=
  plan.prefixCacheKey.or (b.computeCacheKey c)

/-- A segment that is admitted from the entry of an earlier miss gets the input of a miss of its own
exactly if its task is not a voice design and its language and the dialect of its speaker give the
language tag of the session that stored the entry. -/
theorem hit_eq_miss_iff (hhex : b.HexDigests) {c₀ c : PromptConfig} (hcoll : b.NoCollision c₀ c)
    {tokens₀ tokens : List Nat} {eos₀ eos : Bool} {plan₀ : PrefillPlan} {stored : List Embed}
    {key : Text} (hplan : b.buildPlanFromIds c₀ tokens₀ eos₀ = .ok plan₀)
    (hstored : plan₀.cacheablePrefixEmbeds = some stored)
    (hput : b.effectiveKey c₀ plan₀ = some key) (hget : b.computeCacheKey c = some key)
    (htokens : tokens ≠ []) :
    b.HitEqualsMiss stored c tokens eos ↔
      c.taskType ≠ .voiceDesign
        ∧ b.languageId c₀.language (b.planSpeaker c₀) = b.languageId c.language (b.planSpeaker c) := by
  have hcacheable := b.cacheable_of_computeCacheKey hget
  have hcacheable₀ := b.cacheable_of_stored hplan hstored
  obtain ⟨role, language₀, hrole, hlanguage₀, hkey₀, hrows₀, -⟩ := b.plan_spec hcacheable₀ hplan
  have hstored : stored = b.talkerPrefix c₀ role language₀ :=
    Option.some.inj (hstored.symm.trans hrows₀)
  have hput : b.computeCacheKey c₀ = some key := by
    rw [effectiveKey, hkey₀, Option.or_self] at hput
    exact hput
  have hsame := sameKey_of_computeCacheKey hhex hput hget
  rw [hlanguage₀, hstored]
  constructor
  · rintro ⟨plan, hplan, -, hrows, hinput, -⟩
    obtain ⟨role', language, hrole', hlanguage, -, hrows', -⟩ := b.plan_spec hcacheable hplan
    obtain rfl : role = role' := Except.ok.inj (hrole.symm.trans hrole')
    have htags : language₀ = language := by
      rw [← hsame.talkerPrefix_iff hhex hcoll role]
      exact Option.some.inj (hrows.symm.trans hrows')
    refine ⟨?_, by rw [hlanguage, htags]⟩
    intro hdesign
    rw [b.buildPlanFromIds_eq hcacheable, hrole, hlanguage] at hplan
    cases hplan
    have htrailing := congrArg TalkerInput.trailing hinput
    rw [hitInput, b.buildSuffixFromIds_eq htokens] at htrailing
    refine streamingTrailing_ne_pad tokens eos (htrailing.trans ?_)
    unfold PrefillPlan.missInput
    split <;> simp [hdesign]
  · rintro ⟨hdesign, hlanguage⟩
    obtain ⟨plan, hplan, hkey, hrows, hinput⟩ :=
      b.missInput_eq hcacheable hdesign hrole hlanguage.symm tokens eos
    have htalker : b.talkerPrefix c₀ role language₀ = b.talkerPrefix c role language₀ :=
      (hsame.talkerPrefix_iff hhex hcoll role language₀ language₀).2 rfl
    have hhit : hitInput (b.talkerPrefix c₀ role language₀) (b.buildSuffixFromIds tokens eos)
        = plan.missInput c.taskType := by
      rw [hinput, hitInput, b.buildSuffixFromIds_eq htokens, htalker]
    exact ⟨plan, hplan, hkey, by rw [hrows, htalker], hhit, b.batch_of_serial hhit⟩

/-! ## A builder with two speakers -/

/-- The weights of a model with two speakers, one of whom speaks a dialect. -/
def smallWeights : EmbeddingWeights Frontend.asciiData where
  variant := "12hz-1.7b".toList
  codecBosId := 2149
  codecPadId := 2148
  codecNothinkId := 2155
  codecThinkId := 2154
  codecThinkBosId := 2156
  codecThinkEosId := 2157
  codecLanguageId := [("chinese".toList, 2055), ("sichuan_dialect".toList, 2062)]
  spkIdMap := [("serena".toList, 3066), ("eric".toList, 2875)]
  spkIsDialect := [("serena".toList, none), ("eric".toList, some "sichuan_dialect".toList)]
  defaultSpeaker := "serena".toList
  fallbackSpeaker := "serena".toList
  normalized := by decide

/-- A builder over them; the digests are those of an empty instruction and of the templates. -/
def smallBuilder : PrefillBuilder Frontend.asciiData where
  w := smallWeights
  encodeTextIds text :=
    if text = assistantPrompt then [151644, 77091, 198, 151645, 198, 151644, 77091, 198] else []
  normalizeTtsText text := text
  idsDigest _ := "da39a3ee5e6b4b0d".toList
  speakerDigest _ := "da39a3ee5e6b4b0d".toList
  templateKey := "aaff87897f9d6772".toList

theorem smallBuilder_hexDigests : smallBuilder.HexDigests where
  ids _ := by constructor <;> simp [smallBuilder]
  speaker _ := by simp [smallBuilder]
  template := by simp [smallBuilder]

/-- A session with the speaker without a dialect. -/
def serena : PromptConfig :=
  { taskType := .customVoice, language := "zh".toList, speaker := some "Serena".toList }

/-- A voice design. -/
def design : PromptConfig := { taskType := .voiceDesign, language := "zh".toList }

/-- The prefix a configuration stores. -/
def storedPrefix (c : PromptConfig) : List Embed :=
  match smallBuilder.buildPlanFromIds c [9707] true with
  | .ok plan => plan.cacheablePrefixEmbeds.getD []
  | .error _ => []

theorem hit_eq_miss_serena :
    smallBuilder.HitEqualsMiss (storedPrefix serena) serena [9707, 1879] true := by
  have hcoll : smallBuilder.NoCollision serena serena := by
    refine ⟨fun _ => rfl, ?_⟩
    intro _ _ h
    cases h
  refine (hit_eq_miss_iff smallBuilder smallBuilder_hexDigests hcoll
    (show smallBuilder.buildPlanFromIds serena [9707] true = .ok _ from rfl) rfl rfl rfl
    (by decide)).2 ⟨by decide, rfl⟩

/-- A voice design is not laid out the same way: its miss reads the whole text over codec pads, its hit
reads the first token over the BOS and the others one a step. -/
theorem voiceDesign_hit_ne_miss :
    ∃ plan key, smallBuilder.buildPlanFromIds design [9707] true = .ok plan
      ∧ plan.cacheablePrefixEmbeds = some (storedPrefix design)
      ∧ smallBuilder.effectiveKey design plan = some key
      ∧ smallBuilder.computeCacheKey design = some key
      ∧ ¬ smallBuilder.HitEqualsMiss (storedPrefix design) design [9707, 1879] true := by
  refine ⟨_, _, rfl, rfl, rfl, rfl, ?_⟩
  rintro ⟨plan, hplan, -, -, hinput, -⟩
  cases hplan
  revert hinput
  decide

end PrefillBuilder

end StreamingTts.Engine
