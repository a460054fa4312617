import StreamingTts.Frontend.Text

/-!
# The prefill builder

`PrefillBuilder` of `engine/backend/prefill.py`. A tensor of embeddings is the list of its rows, and a
row is kept as the expression that computes it (`Embed`): two inputs of the Talker are equal here when
they are equal for every set of weights. The tokenizer, the text normalizer and the SHA-1 prefixes are
parameters of the builder; a speaker vector is the list of its float32 bytes.
-/

namespace StreamingTts.Engine

open Frontend (Text UnicodeData)

/-- `TaskType`. -/
inductive TaskType
  | voiceCloneIcl
  | voiceCloneXvec
  | customVoice
  | voiceDesign
  deriving DecidableEq, Repr

namespace TaskType

/-- `TaskType.value`. -/
def value : TaskType → Text
  | voiceCloneIcl => "voice_clone_icl".toList
  | voiceCloneXvec => "voice_clone_xvec".toList
  | customVoice => "custom_voice".toList
  | voiceDesign => "voice_design".toList

/-- The task types `build_plan_from_ids` gives a cacheable prefix. -/
def cacheable : TaskType → Bool
  | voiceCloneIcl => false
  | _ => true

end TaskType

/-- `parse_task_type`; `none` is the `ValueError`. -/
def parseTaskType (taskType : Text) (xVectorOnly : Bool) : Option TaskType :=
  if taskType = "voice_clone".toList then
    some (if xVectorOnly then .voiceCloneXvec else .voiceCloneIcl)
  else if taskType = "custom_voice".toList then some .customVoice
  else if taskType = "voice_design".toList then some .voiceDesign
  else none

/-- One row of an embedding tensor. -/
inductive Embed
  /-- `text_embed` of a token -/
  | text (id : Nat)
  | ttsPad
  | ttsBos
  | ttsEos
  /-- `codec_embed` of a codec id -/
  | codec (id : Nat)
  /-- a speaker vector in the weights' type -/
  | speaker (bytes : List UInt8)
  /-- a frame of `ref_codec_sum_vec` -/
  | refFrame (i : Nat)
  /-- the `codec_sum` row that a step of the executor returned -/
  | codecSum (i : Nat)
  | add (a b : Embed)
  deriving DecidableEq, Repr

instance : Add Embed := ⟨Embed.add⟩

/-- The part of `EmbeddingWeights` the builder reads. The speakers' names are stripped and lowered when
the weights are loaded, and an empty name is left out. -/
structure EmbeddingWeights (u : UnicodeData) where
  variant : Text
  codecBosId : Nat
  codecPadId : Nat
  codecNothinkId : Nat
  codecThinkId : Nat
  codecThinkBosId : Nat
  codecThinkEosId : Nat
  codecLanguageId : List (Text × Nat)
  spkIdMap : List (Text × Nat)
  /-- `none` is the value `False`. -/
  spkIsDialect : List (Text × Option Text)
  defaultSpeaker : Text
  fallbackSpeaker : Text
  normalized : ∀ entry ∈ spkIdMap, entry.1 ≠ [] ∧ u.lowerText (u.strip entry.1) = entry.1

/-- `PrefillBuilder`, with the functions it calls in other packages. -/
structure PrefillBuilder (u : UnicodeData) where
  w : EmbeddingWeights u
  /-- `_encode_text_ids`: the tokenizer. -/
  encodeTextIds : Text → List Nat
  /-- `normalize_tts_text` -/
  normalizeTtsText : Text → Text
  /-- `hashlib.sha1(np.asarray(ids, dtype=np.int64).tobytes()).hexdigest()[:16]` -/
  idsDigest : List Nat → Text
  /-- `hashlib.sha1(arr.tobytes()).hexdigest()[:16]` of a speaker vector -/
  speakerDigest : List UInt8 → Text
  /-- the SHA-1 prefix of the prompt templates -/
  templateKey : Text

/-- What a session's configuration says about the prompt, as the engine passes it to the builder. -/
structure PromptConfig where
  taskType : TaskType
  language : Text := "auto".toList
  speaker : Option Text := none
  instruct : Option Text := none
  instructTokenIds : Option (List Nat) := none
  spkEmbedding : Option (List UInt8) := none
  refText : Option Text := none
  refTextTokenIds : Option (List Nat) := none
  /-- the frames of `ref_codec_sum_vec` -/
  refCodecSumVec : Option (List Embed) := none
  deriving DecidableEq

/-- `PrefillPlan`. -/
structure PrefillPlan where
  prefillEmbeds : List Embed
  trailing : List Embed
  prefixCacheKey : Option Text := none
  cacheablePrefixEmbeds : Option (List Embed) := none
  requestPrefillEmbeds : Option (List Embed) := none
  warnings : List Text := []
  deriving DecidableEq

/-- `split_prefix_prefill`: the prefix is prefilled alone and the request is decoded. -/
def PrefillPlan.splitPrefixPrefill (plan : PrefillPlan) (taskType : TaskType) : Bool :=
  taskType ≠ .voiceCloneIcl && plan.cacheablePrefixEmbeds.isSome
    && plan.requestPrefillEmbeds.any fun rows => rows.length = 1

/-- The errors of `build_plan_from_ids`. -/
inductive PlanError
  /-- `Language {language} not implemented` -/
  | languageNotImplemented (language : Text)
  /-- `Dialect language {dialect_key!r} not implemented` -/
  | dialectNotImplemented (dialect : Text)
  /-- `assistant prompt template produced fewer than 3 role tokens` -/
  | fewRoleTokens
  /-- `icl_ref_codec_collapsed` -/
  | refCodecCollapsed
  deriving DecidableEq, Repr

/-- A dictionary given by its items. -/
def lookup {α : Type} (dict : List (Text × α)) (key : Text) : Option α :=
  (dict.find? fun entry => entry.1 = key).map Prod.snd

/-- `_LANGUAGE_ALIASES`. -/
def languageAliases : List (Text × Text) :=
  [("zh".toList, "chinese".toList), ("zh-cn".toList, "chinese".toList),
   ("zh-hans".toList, "chinese".toList), ("zh-hant".toList, "chinese".toList),
   ("cn".toList, "chinese".toList), ("en".toList, "english".toList),
   ("en-us".toList, "english".toList), ("en-gb".toList, "english".toList)]

/-- `_normalize_language_name`. -/
def normalizeLanguageName (u : UnicodeData) (language : Text) : Text :=
  let value := u.lowerText (u.strip (if language = [] then "auto".toList else language))
  (lookup languageAliases value).getD value

namespace PrefillBuilder

variable {u : UnicodeData} (b : PrefillBuilder u)

/-- `OFFICIAL_ASSISTANT_FMT` for an empty text. -/
def assistantPrompt : Text := "<|im_start|>assistant\n<|im_end|>\n<|im_start|>assistant\n".toList

/-- `OFFICIAL_INSTRUCT_PREFIX`. -/
def instructPrefix : Text := "<|im_start|>user\n".toList

/-- `OFFICIAL_INSTRUCT_SUFFIX`. -/
def instructSuffix : Text := "<|im_end|>\n".toList

/-- `_assistant_role_ids_tensor`. -/
def assistantRoleIds : Except PlanError (List Nat) :=
  if (b.encodeTextIds assistantPrompt).length < 3 then .error .fewRoleTokens
  else .ok ((b.encodeTextIds assistantPrompt).take 3)

/-- `_normalize_prompt_token_ids`. -/
def normalizePromptTokenIds (tokenIds : Option (List Nat)) (text : Option Text) : List Nat :=
  match tokenIds with
  | some ids => ids
  | none =>
      let normalized := u.strip (b.normalizeTtsText (text.getD []))
      if normalized = [] then [] else b.encodeTextIds normalized

/-- `_wrap_prompt_ids_tensor` of an instruction. -/
def wrapPromptIds (ids : List Nat) : List Nat :=
  b.encodeTextIds instructPrefix ++ ids ++ b.encodeTextIds instructSuffix

/-- The key of `spk_id_map` that stands in for a name that is not there. -/
def standIn (key : Text) (entries : List (Text × Nat)) (first : Text × Nat) : Text × Nat :=
  match lookup entries key with
  | some id => (key, id)
  | none => first

/-- `_resolve_custom_speaker`: the speaker, its codec id and the warning (a name is quoted there by its
`repr`, which for a printable name is the name in single quotes). -/
def resolveCustomSpeaker (speaker : Option Text) : Option (Text × Nat) × Option Text :=
  match b.w.spkIdMap with
  | [] => (none, some "CustomVoice model has no spk_id map; continuing without speaker codec".toList)
  | first :: rest =>
      let raw := u.strip (speaker.getD [])
      let rawKey := u.lowerText raw
      if rawKey ≠ [] then
        match lookup (first :: rest) rawKey with
        | some id => (some (rawKey, id), none)
        | none =>
            let fallback := u.lowerText (u.strip b.w.fallbackSpeaker)
            let found := standIn fallback (first :: rest) first
            let label :=
              if (lookup (first :: rest) fallback).isSome then "fallback_speaker"
              else "first supported speaker"
            (some found, some ("Speaker '".toList ++ raw ++ "' not found, using ".toList
              ++ label.toList ++ " '".toList ++ found.1 ++ "'".toList))
      else
        let default := u.lowerText (u.strip b.w.defaultSpeaker)
        let found := standIn default (first :: rest) first
        (some found,
          if (lookup (first :: rest) default).isSome then none
          else some ("default_speaker not found, using first supported speaker '".toList
            ++ found.1 ++ "'".toList))

/-- The speaker the plan goes on with: a resolved one for a custom voice, else the one it was given. -/
def planSpeaker (c : PromptConfig) : Option Text :=
  match c.taskType with
  | .customVoice => (b.resolveCustomSpeaker c.speaker).1.map Prod.fst
  | _ => c.speaker

/-- The dialect the weights give a speaker, if there is a speaker and he has one. -/
def speakerDialect (speaker : Option Text) : Option Text :=
  match speaker with
  | none => none
  | some name => if name = [] then none else (lookup b.w.spkIsDialect (u.lowerText name)).join

/-- The codec id of the language: that of the language itself, or that of the speaker's dialect where
the language is Chinese or left open. -/
def languageId (language : Text) (speaker : Option Text) : Except PlanError (Option Nat) := do
  let langLower := normalizeLanguageName u language
  let base ←
    if langLower = "auto".toList then pure none
    else match lookup b.w.codecLanguageId langLower with
      | none => throw (.languageNotImplemented language)
      | some id => pure (some id)
  if langLower = "chinese".toList ∨ langLower = "auto".toList then
    match b.speakerDialect speaker with
    | none => pure base
    | some dialect =>
        match lookup b.w.codecLanguageId (u.lowerText dialect) with
        | none => throw (.dialectNotImplemented dialect)
        | some id => pure (some id)
  else pure base

/-- `tag_ids`. -/
def tagIds (w : EmbeddingWeights u) : Option Nat → List Nat
  | none => [w.codecNothinkId, w.codecThinkBosId, w.codecThinkEosId]
  | some id => [w.codecThinkId, w.codecThinkBosId, id, w.codecThinkEosId]

/-- `speaker_embed`. -/
def speakerEmbed (c : PromptConfig) : List Embed :=
  match c.taskType with
  | .customVoice =>
      match (b.resolveCustomSpeaker c.speaker).1 with
      | some (_, id) => [.codec id]
      | none => []
  | .voiceCloneIcl | .voiceCloneXvec =>
      match c.spkEmbedding with
      | some bytes => [.speaker bytes]
      | none => []
  | .voiceDesign => []

/-- `codec_input_embedding` without its last position, the codec BOS. -/
def codecInput (c : PromptConfig) (language : Option Nat) : List Embed :=
  (tagIds b.w language).map .codec ++ b.speakerEmbed c ++ [.codec b.w.codecPadId]

/-- `text_layer + codec_input_embedding[:, :-1]`. -/
def dualTrack (codecInput : List Embed) : List Embed :=
  List.zipWith (· + ·) (List.replicate (codecInput.length - 1) .ttsPad ++ [.ttsBos]) codecInput

/-- `instruct_embed`. -/
def instructEmbed (c : PromptConfig) : List Embed :=
  let ids := b.normalizePromptTokenIds c.instructTokenIds c.instruct
  if ids ≠ [] ∧ (c.taskType = .customVoice ∨ c.taskType = .voiceDesign) then
    (b.wrapPromptIds ids).map .text
  else []

/-- `talker_input_embed` before any text: the part of the prompt that no token has a share in. -/
def talkerPrefix (c : PromptConfig) (role : List Nat) (language : Option Nat) : List Embed :=
  b.instructEmbed c ++ role.map .text ++ dualTrack (b.codecInput c language)

/-- The codec BOS row. -/
def codecBos : Embed := .codec b.w.codecBosId

/-- The trailing rows of the streaming layout. -/
def streamingTrailing (tokenIds : List Nat) (includeEos : Bool) : List Embed :=
  tokenIds.tail.map .text ++ if includeEos then [.ttsEos] else []

/-- The first text row of the streaming layout. -/
def firstTextWithBos (tokenIds : List Nat) : Embed :=
  (match tokenIds with
   | t :: _ => .text t
   | [] => .ttsPad) + b.codecBos

/-- The request part of the non-streaming layout: the whole text over codec pads, then the BOS. -/
def nonStreamingRequest (tokenIds : List Nat) : List Embed :=
  (tokenIds.map Embed.text ++ [Embed.ttsEos]).map (fun row => row + Embed.codec b.w.codecPadId)
    ++ [Embed.ttsPad + b.codecBos]

/-- `_build_icl_path`. -/
def buildIclPath (textIds : List Nat) (talkerInput refCodecSum : List Embed) (refIds : List Nat)
    (includeEos : Bool) : Except PlanError (List Embed × List Embed) :=
  let codecIcl := b.codecBos :: refCodecSum
  let textIcl := (refIds ++ textIds).map .text ++ if includeEos then [.ttsEos] else []
  if refIds ≠ [] ∧ codecIcl.length ≤ refIds.length then .error .refCodecCollapsed
  else if codecIcl.length < textIcl.length then
    .ok (talkerInput ++ List.zipWith (· + ·) (textIcl.take codecIcl.length) codecIcl,
      textIcl.drop codecIcl.length)
  else
    let padded := textIcl ++ List.replicate (codecIcl.length - textIcl.length) .ttsPad
    .ok (talkerInput ++ List.zipWith (· + ·) padded codecIcl, if includeEos then [.ttsPad] else [])

/-- `"|".join(parts)`. -/
def joinKey (parts : List Text) : Text := List.intercalate ['|'] parts

/-- `_prefix_cache_key`. -/
def prefixCacheKey (taskType : TaskType) (language : Text) (speaker instruct : Option Text)
    (spkEmbedding : Option (List UInt8)) (instructTokenIds : Option (List Nat)) : Option Text :=
  let instructIds := b.normalizePromptTokenIds instructTokenIds instruct
  let instructKey := if instructIds ≠ [] then b.idsDigest instructIds else []
  let keyParts :=
    [b.w.variant, taskType.value, normalizeLanguageName u language, instructKey, b.templateKey]
  match taskType with
  | .customVoice =>
      match (b.resolveCustomSpeaker speaker).1 with
      | none => none
      | some (_, id) => some (joinKey (keyParts ++ ["custom_spk:".toList ++ (toString id).toList]))
  | .voiceCloneXvec =>
      match spkEmbedding with
      | none => none
      | some bytes => some (joinKey (keyParts ++ [b.speakerDigest bytes]))
  | .voiceCloneIcl => none
  | .voiceDesign => some (joinKey keyParts)

/-- `compute_cache_key`, as the engine calls it before it has a plan. -/
def computeCacheKey (c : PromptConfig) : Option Text :=
  b.prefixCacheKey c.taskType c.language c.speaker c.instruct c.spkEmbedding c.instructTokenIds

/-- The key `build_plan_from_ids` puts into the plan: the speaker is the resolved one and the
instruction is the list of its tokens. -/
def planKey (c : PromptConfig) : Option Text :=
  b.prefixCacheKey c.taskType c.language (b.planSpeaker c) c.instruct c.spkEmbedding
    (some (b.normalizePromptTokenIds c.instructTokenIds c.instruct))

/-- The warnings of a plan. -/
def planWarnings (c : PromptConfig) : List Text :=
  match c.taskType with
  | .customVoice => (b.resolveCustomSpeaker c.speaker).2.toList
  | _ => []

/-- `build_plan_from_ids`. -/
def buildPlanFromIds (c : PromptConfig) (tokenIds : List Nat) (includeEos : Bool) :
    Except PlanError PrefillPlan := do
  let role ← b.assistantRoleIds
  let language ← b.languageId c.language (b.planSpeaker c)
  let talkerInput := b.talkerPrefix c role language
  match c.taskType, c.refCodecSumVec with
  | .voiceCloneIcl, some refCodecSum => do
      let refIds := b.normalizePromptTokenIds c.refTextTokenIds c.refText
      let (prefill, trailing) ← b.buildIclPath tokenIds talkerInput refCodecSum refIds includeEos
      pure { prefillEmbeds := prefill, trailing := trailing, warnings := b.planWarnings c }
  | .voiceCloneIcl, none =>
      pure
        { prefillEmbeds := talkerInput ++ [b.firstTextWithBos tokenIds]
          trailing := streamingTrailing tokenIds includeEos
          warnings := b.planWarnings c }
  | .voiceDesign, _ =>
      pure
        { prefillEmbeds := talkerInput ++ b.nonStreamingRequest tokenIds
          trailing := [.ttsPad]
          prefixCacheKey := b.planKey c
          cacheablePrefixEmbeds := some talkerInput
          requestPrefillEmbeds := some (b.nonStreamingRequest tokenIds)
          warnings := b.planWarnings c }
  | _, _ =>
      pure
        { prefillEmbeds := talkerInput ++ [b.firstTextWithBos tokenIds]
          trailing := streamingTrailing tokenIds includeEos
          prefixCacheKey := b.planKey c
          cacheablePrefixEmbeds := some talkerInput
          requestPrefillEmbeds := some [b.firstTextWithBos tokenIds]
          warnings := b.planWarnings c }

/-- `build_suffix_from_ids`. -/
def buildSuffixFromIds (tokenIds : List Nat) (includeEos : Bool) : List Embed × List Embed :=
  let trailing :=
    match tokenIds.tail with
    | [] => if includeEos then [.ttsEos] else []
    | mid => if includeEos then mid.map .text ++ [.ttsEos] else mid.map .text
  ((tokenIds.take 1).map fun t => .text t + b.codecBos, trailing)

/-- `build_suffix_batch`. -/
def buildSuffixBatch (tokenLists : List (List Nat)) (includeEosFlags : List Bool) :
    List (List Embed × List Embed) :=
  List.zipWith
    (fun ids includeEos =>
      ((ids.take 1).map fun t => .text t + b.codecBos,
        (if 1 < ids.length then (ids.drop 1).map .text else [])
          ++ if includeEos then [.ttsEos] else []))
    tokenLists includeEosFlags

end PrefillBuilder

end StreamingTts.Engine
