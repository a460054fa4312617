import StreamingTts.Engine.CaptureBudget
import StreamingTts.Engine.RestoreFrame

/-!
# What a restore reads back

A bundle that was captured from one slot, restored into another one, gives it the decode state of the
first: every field but the ones of the owner, and the pooled histories and state buffers as they read
(`decodeState_restored`).
-/

namespace StreamingTts.Engine.Pooled

open Lib
open Frontend (Text)

variable {κ : Type} {ξ : Type}

namespace Executor

/-- The decode state of a slot: its fields but the ones of its owner, with the tensors that its buffers
read, and its columns of the pooled histories. -/
def decodeState (e : Executor κ ξ) (pool : KVCachePool κ ξ) (k : Nat) :
    SlotKVState κ ξ × Option (KV κ) × Option (KV κ) :=
  ({ pool.slots k with
      slotId := 0
      allocationEpoch := 0
      lastActiveTime := 0
      extensionState := []
      c2wStates := e.cloneStates (pool.slots k).c2wStates },
    talkerHistory pool k, c2wHistory pool k)

section
variable {e e' : Executor κ ξ} {pool : KVCachePool κ ξ} {k : Nat} {budget : Int}

/-! ## Captures -/

/-- The groups of the state buffers of a slot against its rows. -/
def viewGroups (e : Executor κ ξ) (states : C2WStates κ) (k : Nat) :
    List (Option (List (Buffer κ)) × List (Buffer κ)) :=
  [(states.conv, (e.arenaRowViews (!states.writeInA) k).1),
    (states.transconv, (e.arenaRowViews (!states.writeInA) k).2),
    (states.convWrite, (e.arenaRowViews states.writeInA k).1),
    (states.transconvWrite, (e.arenaRowViews states.writeInA k).2)]

/-- What a bundle that was captured from the slot `k` holds. -/
structure Captured (e : Executor κ ξ) (pool : KVCachePool κ ξ) (k : Nat) (bundle : Bundle κ ξ) :
    Prop where
  owned : (pool.slots k).isFree = false
  payload : (∃ n, bundle.slotPayload = .standalone (copied e pool k) n ∧ externalOf pool k = {}) ∨
    ∃ n, bundle.slotPayload = .owned (copied e pool k) (externalOf pool k) n
  pastLen : 0 ≤ (pool.slots k).pastLen
  c2wLen : 0 ≤ (pool.slots k).c2wLen
  talker : bundle.pooledTalkerPayload = talkerHistory pool k
  c2w : bundle.pooledC2wPayload = c2wHistory pool k
  c2wStored : (pool.slots k).c2wPooled = true → pool.c2wPool.isSome = true
  arena : bundle.arenaPayload = arenaRows e pool k
  views : (pool.slots k).c2wArenaBacked = true →
    e.validateC2wSnapshotTensors true (e.viewGroups (pool.slots k).c2wStates k) = .ok ()

/-- The fields that a capture holds, of a slot whose lengths are valid. -/
theorem ownedSnapshot_of_ok {external : External} {payload : SlotPayload κ ξ}
    (h : e.ownedSnapshot (pool.slots k) external budget = .ok payload) :
    0 ≤ (pool.slots k).pastLen ∧ 0 ≤ (pool.slots k).c2wLen ∧
      ∃ n, payload = .owned (copied e pool k) external n := by
  unfold ownedSnapshot at h
  obtain ⟨-, h⟩ := check_eq_ok.1 h
  obtain ⟨hlen, h⟩ := check_eq_ok.1 h
  obtain ⟨-, h⟩ := check_eq_ok.1 h
  obtain ⟨-, h⟩ := check_eq_ok.1 h
  obtain ⟨-, h⟩ := check_eq_ok.1 h
  cases h
  rw [not_or, Int.not_lt, Int.not_lt] at hlen
  exact ⟨hlen.1, hlen.2, _, rfl⟩

theorem validatePooledLength_of_ok {length : Int} {capacity : Nat} {kind : Kind} {valid : Nat}
    (h : KVCachePool.validatePooledLength length capacity kind = .ok valid) :
    valid = length.toNat := by
  unfold KVCachePool.validatePooledLength at h
  obtain ⟨-, h⟩ := check_eq_ok.1 h
  cases h
  rfl

theorem takeTalker_of_ok {talker : Option (KV κ)} (h : takeTalker pool k budget = .ok talker) :
    talker = talkerHistory pool k := by
  unfold takeTalker at h
  unfold talkerHistory
  cases ht : pool.talkerPool with
  | none =>
      rw [ht] at h
      cases h
      rfl
  | some t =>
      rw [if_pos (by rw [ht]; rfl)] at h
      replace h := ofPool_ok h
      unfold KVCachePool.snapshotPooledTalkerKv at h
      obtain ⟨slot, hslot, h⟩ := bind_eq_ok.1 h
      obtain ⟨-, -, -, rfl⟩ := KVCachePool.contract_ok hslot
      rw [ht] at h
      obtain ⟨valid, hvalid, h⟩ := bind_eq_ok.1 h
      cases validatePooledLength_of_ok hvalid
      obtain ⟨_, -, h⟩ := bind_eq_ok.1 h
      cases h
      rfl

theorem takeC2w_of_ok {history : Option (KV κ)} (h : takeC2w pool k budget = .ok history) :
    history = c2wHistory pool k ∧
      ((pool.slots k).c2wPooled = true → pool.c2wPool.isSome = true) := by
  unfold takeC2w at h
  unfold c2wHistory
  cases hpooled : (pool.slots k).c2wPooled with
  | false =>
      rw [hpooled] at h
      cases h
      exact ⟨rfl, fun h => nomatch h⟩
  | true =>
      rw [if_pos hpooled] at h
      replace h := ofPool_ok h
      unfold KVCachePool.snapshotPooledC2wKv at h
      obtain ⟨slot, hslot, h⟩ := bind_eq_ok.1 h
      obtain ⟨-, -, -, rfl⟩ := KVCachePool.contract_ok hslot
      rw [hpooled] at h
      cases ht : pool.c2wPool with
      | none =>
          rw [ht] at h
          cases h
      | some t =>
          rw [ht] at h
          obtain ⟨valid, hvalid, h⟩ := bind_eq_ok.1 h
          cases validatePooledLength_of_ok hvalid
          obtain ⟨_, -, h⟩ := bind_eq_ok.1 h
          cases h
          exact ⟨rfl, fun _ => rfl⟩

theorem takeArena_of_ok {arena : Option (C2WArenaSnapshot κ)}
    (h : e.takeArena pool k budget = .ok arena) :
    arena = arenaRows e pool k ∧ ((pool.slots k).c2wArenaBacked = true →
      e.validateC2wSnapshotTensors true (e.viewGroups (pool.slots k).c2wStates k) = .ok ()) := by
  unfold takeArena at h
  unfold arenaRows
  cases hbacked : (pool.slots k).c2wArenaBacked with
  | false =>
      rw [hbacked] at h
      cases h
      exact ⟨rfl, fun h => nomatch h⟩
  | true =>
      rw [if_pos hbacked] at h
      obtain ⟨snapshot, hsnapshot, rfl⟩ := map_eq_ok.1 h
      unfold snapshotC2wArena at hsnapshot
      obtain ⟨_, -, h⟩ := bind_eq_ok.1 hsnapshot
      obtain ⟨-, h⟩ := check_eq_ok.1 h
      obtain ⟨_, hviews, h⟩ := bind_eq_ok.1 h
      obtain ⟨-, h⟩ := check_eq_ok.1 h
      obtain ⟨-, h⟩ := check_eq_ok.1 h
      cases h
      exact ⟨rfl, fun _ => hviews⟩

/-- The payloads that are taken are the ones of the slot. -/
theorem payloads_of_ok (howned : (pool.slots k).isFree = false)
    {payloads : SlotPayload κ ξ × Option (KV κ) × Option (KV κ) × Option (C2WArenaSnapshot κ)}
    (h : e.payloads pool k budget = .ok payloads) {bundle : Bundle κ ξ}
    (hslot : bundle.slotPayload = payloads.1) (htalker : bundle.pooledTalkerPayload = payloads.2.1)
    (hc2w : bundle.pooledC2wPayload = payloads.2.2.1)
    (harena : bundle.arenaPayload = payloads.2.2.2) : Captured e pool k bundle := by
  unfold Executor.payloads at h
  by_cases hexternal : pool.talkerPool.isSome = true ∨ (pool.slots k).c2wPooled = true ∨
      (pool.slots k).c2wArenaBacked = true
  · rw [if_pos hexternal] at h
    unfold externalPayloads at h
    obtain ⟨slotPayload, hslotPayload, h⟩ := bind_eq_ok.1 h
    obtain ⟨hpast, hc2wLen, n, rfl⟩ := ownedSnapshot_of_ok hslotPayload
    obtain ⟨talker, htalkerOk, h⟩ := bind_eq_ok.1 h
    obtain ⟨-, h⟩ := check_eq_ok.1 h
    obtain ⟨history, hhistory, h⟩ := bind_eq_ok.1 h
    obtain ⟨hsame, hstored⟩ := takeC2w_of_ok hhistory
    obtain ⟨-, h⟩ := check_eq_ok.1 h
    obtain ⟨-, h⟩ := check_eq_ok.1 h
    obtain ⟨arena, harenaOk, h⟩ := bind_eq_ok.1 h
    obtain ⟨hrows, hviews⟩ := takeArena_of_ok harenaOk
    cases h
    exact ⟨howned, .inr ⟨n, hslot⟩, hpast, hc2wLen, htalker.trans (takeTalker_of_ok htalkerOk),
      hc2w.trans hsame, hstored, harena.trans hrows, hviews⟩
  · rw [if_neg hexternal] at h
    rw [not_or, not_or, Bool.not_eq_true, Bool.not_eq_true, Bool.not_eq_true] at hexternal
    obtain ⟨hpool, hpooled, hbacked⟩ := hexternal
    obtain ⟨payload, hpayload, rfl⟩ := map_eq_ok.1 h
    unfold standaloneSnapshot at hpayload
    obtain ⟨-, h⟩ := check_eq_ok.1 hpayload
    obtain ⟨-, h⟩ := check_eq_ok.1 h
    obtain ⟨hc2wLen, h⟩ := check_eq_ok.1 h
    obtain ⟨hpast, h⟩ := check_eq_ok.1 h
    obtain ⟨-, h⟩ := check_eq_ok.1 h
    obtain ⟨-, h⟩ := check_eq_ok.1 h
    cases h
    rw [not_or, Int.not_lt] at hc2wLen
    have hnone := Option.isNone_iff_eq_none.1 (Option.isSome_eq_false_iff.1 hpool)
    refine ⟨howned, .inl ⟨_, hslot, by rw [externalOf, hpool, hpooled, hbacked]⟩,
      Int.not_lt.1 hpast, hc2wLen.1, htalker.trans ?_, hc2w.trans ?_, fun h => ?_,
      harena.trans ?_, fun h => ?_⟩
    · rw [talkerHistory, hnone, Option.map_none]
    · rw [c2wHistory, if_neg (by rw [hpooled]; exact Bool.false_ne_true)]
    · rw [hpooled] at h
      cases h
    · rw [arenaRows, if_neg (by rw [hbacked]; exact Bool.false_ne_true)]
    · rw [hbacked] at h
      cases h

/-- A capture that returns. -/
theorem captured_of_ok (hp : e.kvPool = some pool) {metadata : SegmentMetadata}
    {expected : Option Text} {bundle : Bundle κ ξ}
    (h : e.captureSpeechStateBundle k metadata budget expected = .ok bundle) :
    Captured e pool k bundle := by
  unfold captureSpeechStateBundle at h
  rw [hp] at h
  obtain ⟨-, h⟩ := check_eq_ok.1 h
  obtain ⟨hfree, h⟩ := check_eq_ok.1 h
  obtain ⟨-, h⟩ := check_eq_ok.1 h
  obtain ⟨-, h⟩ := check_eq_ok.1 h
  obtain ⟨-, h⟩ := check_eq_ok.1 h
  obtain ⟨-, h⟩ := check_eq_ok.1 h
  obtain ⟨payloads, hpayloads, h⟩ := bind_eq_ok.1 h
  obtain ⟨-, h⟩ := check_eq_ok.1 h
  unfold Bundle.checked at h
  obtain ⟨-, h⟩ := check_eq_ok.1 h
  obtain ⟨-, h⟩ := check_eq_ok.1 h
  obtain ⟨-, h⟩ := check_eq_ok.1 h
  obtain ⟨-, h⟩ := check_eq_ok.1 h
  obtain ⟨-, h⟩ := check_eq_ok.1 h
  cases h
  exact payloads_of_ok (Bool.eq_false_iff.2 hfree) hpayloads rfl rfl rfl rfl

/-! ## State buffers -/

/-- Buffers that have the shape and the medium of their rows. -/
theorem checkBuffers_of_ok {requireViews : Bool} {pairs : List (Buffer κ × Buffer κ)}
    (h : e.checkBuffers requireViews pairs = .ok ()) : ∀ pair ∈ pairs, e.sameAbi pair.1 pair.2 = true := by
  induction pairs with
  | nil => exact fun _ hmem => absurd hmem List.not_mem_nil
  | cons pair rest ih =>
      obtain ⟨habi, h⟩ := check_eq_ok.1 h
      obtain ⟨-, h⟩ := check_eq_ok.1 h
      intro pair' hmem
      rcases List.mem_cons.1 hmem with rfl | hrest
      · simpa using habi
      · exact ih h pair' hrest

/-- Groups that fit their rows. -/
theorem groups_of_ok {requireViews : Bool}
    {groups : List (Option (List (Buffer κ)) × List (Buffer κ))}
    (h : e.validateC2wSnapshotTensors requireViews groups = .ok ()) :
    ∀ group ∈ groups, ∃ buffers, group.1 = some buffers ∧ buffers.length = group.2.length ∧
      ∀ (i : Nat) (b r : Buffer κ), buffers[i]? = some b → group.2[i]? = some r →
        e.sameAbi b r = true := by
  induction groups with
  | nil => exact fun _ hmem => absurd hmem List.not_mem_nil
  | cons group rest ih =>
      obtain ⟨_ | buffers, rows⟩ := group
      · cases h
      obtain ⟨hlength, h⟩ := check_eq_ok.1 h
      obtain ⟨_, hbuffers, h⟩ := bind_eq_ok.1 h
      intro group' hmem
      rcases List.mem_cons.1 hmem with rfl | hrest
      · refine ⟨buffers, rfl, Decidable.not_not.1 hlength, fun i b r hb hr => ?_⟩
        refine checkBuffers_of_ok hbuffers (b, r) (List.mem_of_getElem? (i := i) ?_)
        rw [List.getElem?_zip_eq_some]
        exact ⟨hb, hr⟩
      · exact ih h group' hrest

theorem sameAbi_iff {b r : Buffer κ} : e.sameAbi b r = true ↔
    ∃ t old, e.read b = some t ∧ e.read r = some old ∧ t.shape = old.shape ∧ t.medium = old.medium := by
  unfold sameAbi
  cases hb : e.read b with
  | none => exact iff_of_false Bool.false_ne_true fun ⟨_, _, h, _⟩ => by cases h
  | some t =>
      cases hr : e.read r with
      | none => exact iff_of_false Bool.false_ne_true fun ⟨_, _, _, h, _⟩ => by cases h
      | some old => simp

/-- The tensors that readable buffers hold are their clones. -/
theorem map_own_detach {buffers : List (Buffer κ)} (h : ∀ b ∈ buffers, (e.read b).isSome = true) :
    (e.detach (some buffers)).map Buffer.own = buffers.map e.cloneBuffer := by
  show (buffers.filterMap e.read).map Buffer.own = _
  induction buffers with
  | nil => rfl
  | cons b rest ih =>
      obtain ⟨t, ht⟩ := Option.isSome_iff_exists.1 (h b List.mem_cons_self)
      have hclone : e.cloneBuffer b = .own t := by rw [cloneBuffer, ht]
      rw [List.filterMap_cons_some ht, List.map_cons, List.map_cons, hclone,
        ih fun b' hb' => h b' (List.mem_cons_of_mem _ hb')]

/-- The clones of state buffers that are views of their rows. -/
theorem cloneStates_of_views {states : C2WStates κ}
    (h : e.validateC2wSnapshotTensors true (e.viewGroups states k) = .ok ()) :
    e.cloneStates states =
      { conv := some ((e.detach states.conv).map .own)
        transconv := some ((e.detach states.transconv).map .own)
        convWrite := some ((e.detach states.convWrite).map .own)
        transconvWrite := some ((e.detach states.transconvWrite).map .own)
        writeInA := states.writeInA } := by
  have hgroup : ∀ (group : Option (List (Buffer κ))) (rows : List (Buffer κ)),
      (group, rows) ∈ e.viewGroups states k →
      group.map (·.map e.cloneBuffer) = some ((e.detach group).map .own) := by
    intro group rows hmem
    obtain ⟨buffers, rfl, hlength, habi⟩ := groups_of_ok h _ hmem
    have hread : ∀ b ∈ buffers, (e.read b).isSome = true := by
      intro b hb
      obtain ⟨i, hi, rfl⟩ := List.mem_iff_getElem.1 hb
      obtain ⟨t, -, ht, -⟩ := sameAbi_iff.1 (habi i _ _ (List.getElem?_eq_getElem hi)
        (List.getElem?_eq_getElem (hlength ▸ hi)))
      rw [ht]
      rfl
    rw [Option.map_some, map_own_detach hread]
  unfold cloneStates
  rw [hgroup states.conv _ (.head _), hgroup states.transconv _ (.tail _ (.head _)),
    hgroup states.convWrite _ (.tail _ (.tail _ (.head _))),
    hgroup states.transconvWrite _ (.tail _ (.tail _ (.tail _ (.head _))))]

/-- Clones are tensors of their own, which another executor clones as they are. -/
theorem cloneStates_cloneStates (hA : e'.arenaA = e.arenaA) (hB : e'.arenaB = e.arenaB)
    (states : C2WStates κ) : e'.cloneStates (e.cloneStates states) = e.cloneStates states := by
  have hread : ∀ b, e'.read b = e.read b := by
    intro b
    cases b with
    | own t => rfl
    | row inA j i =>
        rw [read_row, read_row]
        unfold arena
        rw [hA, hB]
  have hclone : ∀ b, e'.cloneBuffer (e.cloneBuffer b) = e.cloneBuffer b := by
    intro b
    cases hb : e.read b with
    | none =>
        have hself : e.cloneBuffer b = b := by rw [cloneBuffer, hb]
        rw [hself, cloneBuffer, hread, hb]
    | some t =>
        have hown : e.cloneBuffer b = .own t := by rw [cloneBuffer, hb]
        rw [hown]
        rfl
  have hgroup : ∀ group : Option (List (Buffer κ)),
      (group.map (·.map e.cloneBuffer)).map (·.map e'.cloneBuffer) = group.map (·.map e.cloneBuffer) := by
    intro group
    cases group with
    | none => rfl
    | some buffers =>
        rw [Option.map_some, Option.map_some, List.map_map]
        exact congrArg some (List.map_congr_left fun b _ => hclone b)
  unfold cloneStates
  simp only [hgroup]

theorem getElem?_arenaRowViews_fst (e : Executor κ ξ) (inA : Bool) (k i : Nat) :
    (e.arenaRowViews inA k).1[i]? =
      if i < e.convShapes.length ∧ i < ((e.arena inA).getD []).length then some (.row inA k i)
      else none := by
  unfold arenaRowViews
  simp only [List.getElem?_take, List.getElem?_map]
  by_cases hconv : i < e.convShapes.length
  · by_cases hlen : i < ((e.arena inA).getD []).length
    · rw [if_pos hconv, if_pos ⟨hconv, hlen⟩, List.getElem?_range hlen, Option.map_some]
    · rw [if_pos hconv, if_neg fun h => hlen h.2, List.getElem?_eq_none (by
        rw [List.length_range]
        exact Nat.not_lt.1 hlen), Option.map_none]
  · rw [if_neg hconv, if_neg fun h => hconv h.1]

theorem getElem?_arenaRowViews_snd (e : Executor κ ξ) (inA : Bool) (k i : Nat) :
    (e.arenaRowViews inA k).2[i]? =
      if e.convShapes.length + i < ((e.arena inA).getD []).length then
        some (.row inA k (e.convShapes.length + i)) else none := by
  unfold arenaRowViews
  simp only [List.getElem?_drop, List.getElem?_map]
  by_cases hlen : e.convShapes.length + i < ((e.arena inA).getD []).length
  · rw [if_pos hlen, List.getElem?_range hlen, Option.map_some]
  · rw [if_neg hlen, List.getElem?_eq_none (by
      rw [List.length_range]
      exact Nat.not_lt.1 hlen), Option.map_none]

theorem length_arenaRowViews_fst (e : Executor κ ξ) (inA : Bool) (k : Nat) :
    (e.arenaRowViews inA k).1.length
      = min e.convShapes.length ((e.arena inA).getD []).length := by
  unfold arenaRowViews
  rw [List.length_take, List.length_map, List.length_range]

/-- Tensors that can be copied into rows. -/
structure FitRows (e : Executor κ ξ) (tensors : List (Tensor κ)) (rows : List (Buffer κ)) : Prop where
  length : tensors.length = rows.length
  abi : ∀ (i : Nat) (t : Tensor κ) (r : Buffer κ), tensors[i]? = some t → rows[i]? = some r →
    ∃ old, e.read r = some old ∧ t.shape = old.shape ∧ t.medium = old.medium

/-- A group of tensors that passes its check. -/
theorem fitRows_of_ok {requireViews : Bool}
    {groups : List (Option (List (Buffer κ)) × List (Buffer κ))}
    (h : e.validateC2wSnapshotTensors requireViews groups = .ok ()) {tensors : List (Tensor κ)}
    {rows : List (Buffer κ)} (hmem : (some (tensors.map Buffer.own), rows) ∈ groups) :
    FitRows e tensors rows := by
  obtain ⟨buffers, hbuffers, hlength, habi⟩ := groups_of_ok h _ hmem
  cases hbuffers
  rw [List.length_map] at hlength
  refine ⟨hlength, fun i t r ht hr => ?_⟩
  have hown : (tensors.map Buffer.own)[i]? = some (.own t) := by
    rw [List.getElem?_map, ht, Option.map_some]
  obtain ⟨t', old, ht', hold, hshape, hmedium⟩ := sameAbi_iff.1 (habi i _ r hown hr)
  cases ht'
  exact ⟨old, hold, hshape, hmedium⟩

variable (e') in
/-- The rows of an arena that have been written read back, for both groups. -/
theorem clones_written {inA : Bool} {conv transconv : List (Tensor κ)}
    (hconv : FitRows e conv (e.arenaRowViews inA k).1)
    (htransconv : FitRows e transconv (e.arenaRowViews inA k).2)
    (hread : ∀ i, e'.read (.row inA k i)
      = (e.writeArena inA k (conv ++ transconv)).read (.row inA k i)) :
    (e.arenaRowViews inA k).1.map e'.cloneBuffer = conv.map .own ∧
      (e.arenaRowViews inA k).2.map e'.cloneBuffer = transconv.map .own := by
  have hclone : ∀ (i : Nat) (t : Tensor κ), (conv ++ transconv)[i]? = some t →
      (∃ old, e.read (.row inA k i) = some old ∧ t.shape = old.shape ∧ t.medium = old.medium) →
      e'.cloneBuffer (.row inA k i) = .own t := by
    rintro i t ht ⟨old, hold, hshape, hmedium⟩
    rw [cloneBuffer, hread, read_writeArena_self e inA k ht hold hshape hmedium]
  constructor
  · refine List.ext_getElem? fun i => ?_
    rw [List.getElem?_map, List.getElem?_map]
    cases ht : conv[i]? with
    | none =>
        rw [List.getElem?_eq_none_iff, hconv.length] at ht
        rw [List.getElem?_eq_none ht, Option.map_none, Option.map_none]
    | some t =>
        have hlt : i < conv.length := (List.getElem?_eq_some_iff.1 ht).1
        have hrow := getElem?_arenaRowViews_fst e inA k i
        have hin : (e.arenaRowViews inA k).1[i]? = some (.row inA k i) := by
          rw [hconv.length, length_arenaRowViews_fst] at hlt
          rw [hrow, if_pos (by omega)]
        have happend : (conv ++ transconv)[i]? = some t := by
          rw [List.getElem?_append_left hlt, ht]
        rw [hin, Option.map_some, Option.map_some, hclone i t happend (hconv.abi i t _ ht hin)]
  · refine List.ext_getElem? fun i => ?_
    rw [List.getElem?_map, List.getElem?_map]
    cases ht : transconv[i]? with
    | none =>
        rw [List.getElem?_eq_none_iff, htransconv.length] at ht
        rw [List.getElem?_eq_none ht, Option.map_none, Option.map_none]
    | some t =>
        have hlt : i < (e.arenaRowViews inA k).2.length :=
          htransconv.length ▸ (List.getElem?_eq_some_iff.1 ht).1
        have hrow := getElem?_arenaRowViews_snd e inA k i
        by_cases hin : e.convShapes.length + i < ((e.arena inA).getD []).length
        · rw [if_pos hin] at hrow
          have hlength : conv.length = e.convShapes.length := by
            rw [hconv.length, length_arenaRowViews_fst]
            omega
          have happend : (conv ++ transconv)[e.convShapes.length + i]? = some t := by
            rw [← hlength, List.getElem?_append_right (Nat.le_add_right _ _),
              Nat.add_sub_cancel_left, ht]
          rw [hrow, Option.map_some, Option.map_some,
            hclone _ t happend (htransconv.abi i t _ ht hrow)]
        · rw [if_neg hin, List.getElem?_eq_none_iff] at hrow
          exact absurd hlt (Nat.not_lt.2 hrow)

/-- The state buffers of a slot whose arena rows have been restored. -/
theorem cloneStates_restored {arena : C2WArenaSnapshot κ}
    (h : e.validateC2wSnapshotTensors false (e.arenaGroups k arena) = .ok ())
    (hread : ∀ inA i, e'.read (.row inA k i)
      = ((e.writeArena (!arena.writeInA) k (arena.readConv ++ arena.readTransconv)).writeArena
        arena.writeInA k (arena.writeConv ++ arena.writeTransconv)).read (.row inA k i)) :
    e'.cloneStates
        { conv := some (e.arenaRowViews (!arena.writeInA) k).1
          transconv := some (e.arenaRowViews (!arena.writeInA) k).2
          convWrite := some (e.arenaRowViews arena.writeInA k).1
          transconvWrite := some (e.arenaRowViews arena.writeInA k).2
          writeInA := arena.writeInA } =
      { conv := some (arena.readConv.map .own)
        transconv := some (arena.readTransconv.map .own)
        convWrite := some (arena.writeConv.map .own)
        transconvWrite := some (arena.writeTransconv.map .own)
        writeInA := arena.writeInA } := by
  obtain ⟨hreadConv, hreadTransconv⟩ := clones_written e'
    (fitRows_of_ok h (.head _)) (fitRows_of_ok h (.tail _ (.head _))) fun i => by
      rw [hread, read_writeArena_of_ne _ _ (.inl (Bool.not_ne_self _))]
  have hside : ∀ i, e'.read (.row arena.writeInA k i)
      = (e.writeArena arena.writeInA k (arena.writeConv ++ arena.writeTransconv)).read
        (.row arena.writeInA k i) := by
    intro i
    have hcomm : (e.writeArena (!arena.writeInA) k (arena.readConv ++ arena.readTransconv)).writeArena
        arena.writeInA k (arena.writeConv ++ arena.writeTransconv)
        = (e.writeArena arena.writeInA k (arena.writeConv ++ arena.writeTransconv)).writeArena
          (!arena.writeInA) k (arena.readConv ++ arena.readTransconv) := by
      cases arena.writeInA <;> rfl
    rw [hread, hcomm, read_writeArena_of_ne _ _ (.inl (Bool.self_ne_not _))]
  obtain ⟨hwriteConv, hwriteTransconv⟩ := clones_written e'
    (fitRows_of_ok h (.tail _ (.tail _ (.head _)))) (fitRows_of_ok h (.tail _ (.tail _ (.tail _ (.head _)))))
    hside
  unfold cloneStates
  rw [Option.map_some, Option.map_some, Option.map_some, Option.map_some, hreadConv, hreadTransconv,
    hwriteConv, hwriteTransconv]

/-! ## Restores -/

/-- The fields that a restore copies as they are. -/
def carried (slot : SlotKVState κ ξ) : SlotKVState κ ξ :=
  { slot with
    slotId := 0
    allocationEpoch := 0
    lastActiveTime := 0
    extensionState := []
    c2wPooled := false
    c2wArenaBacked := false
    c2wStates := {} }

/-- The pooled histories of `q` are the ones of `p` but for a row. -/
structure SameTensors (p q : KVCachePool κ ξ) (t : Nat) : Prop where
  tensor : ∀ kind T, p.tensor kind = some T → ∃ row, q.tensor kind = some (T.write t row)
  noTensor : ∀ kind, p.tensor kind = none → q.tensor kind = none

theorem SameTensors.trans {p q r : KVCachePool κ ξ} {t : Nat} (h : SameTensors p q t)
    (h' : q.Elsewhere r t) : SameTensors p r t where
  tensor kind T hT := by
    obtain ⟨row, hrow⟩ := h.tensor kind T hT
    obtain ⟨row', hrow'⟩ := h'.tensor kind _ hrow
    exact ⟨row', by rw [hrow', KVCachePool.write_write]⟩
  noTensor kind hT := h'.noTensor kind (h.noTensor kind hT)

/-- The target `t` of a restore: it has just been handed out, and the rest is as it was. -/
structure Spare (e e' : Executor κ ξ) (p q : KVCachePool κ ξ) (t : Nat) : Prop where
  kvPool : e'.kvPool = some q
  arenaA : e'.arenaA = e.arenaA
  arenaB : e'.arenaB = e.arenaB
  tensors : SameTensors p q t
  isFree : (q.slots t).isFree = false
  talkerKv : (q.slots t).talkerKv = none
  c2wKv : (q.slots t).c2wKv = none
  c2wPooled : (q.slots t).c2wPooled = false
  c2wArenaBacked : (q.slots t).c2wArenaBacked = false

variable {pool' : KVCachePool κ ξ} {t : Nat} {bundle : Bundle κ ξ}

/-- The fields that a payload sets. -/
theorem carried_restoreInto (hc : Captured e pool k bundle) (hx : Exclusive pool (pool.slots k))
    {fresh slot : SlotKVState κ ξ} (hfree : fresh.isFree = false) (htalker : fresh.talkerKv = none)
    (hc2w : fresh.c2wKv = none) (hpooled : fresh.c2wPooled = false)
    (hbacked : fresh.c2wArenaBacked = false) {now : Int}
    (h : bundle.slotPayload.restoreInto fresh now = .ok slot) :
    carried slot = carried (pool.slots k) ∧ slot.c2wPooled = false ∧ slot.c2wArenaBacked = false ∧
      ((pool.slots k).c2wArenaBacked = false →
        slot.c2wStates = e.cloneStates (pool.slots k).c2wStates) := by
  have howned := hc.owned
  rcases hc.payload with ⟨n, hpayload, hexternal⟩ | ⟨n, hpayload⟩
  · rw [hpayload] at h
    obtain ⟨-, h⟩ := check_eq_ok.1 h
    obtain ⟨-, h⟩ := check_eq_ok.1 h
    cases h
    obtain ⟨-, hsame, hsame'⟩ := External.mk.inj hexternal
    refine ⟨?_, hsame, hsame', fun _ => rfl⟩
    unfold carried copied
    rw [howned]
  · rw [hpayload] at h
    obtain ⟨-, h⟩ := check_eq_ok.1 h
    cases h
    have htalkerKv : (if (externalOf pool k).pooledTalker then fresh.talkerKv
        else (copied e pool k).talkerKv) = (pool.slots k).talkerKv := by
      by_cases hsome : (externalOf pool k).pooledTalker = true
      · rw [if_pos hsome, htalker, hx.1 hsome]
      · rw [if_neg hsome]
        rfl
    have hc2wKv : (if (externalOf pool k).pooledC2w then fresh.c2wKv else (copied e pool k).c2wKv)
        = (pool.slots k).c2wKv := by
      by_cases hsome : (externalOf pool k).pooledC2w = true
      · rw [if_pos hsome, hc2w, hx.2 hsome]
      · rw [if_neg hsome]
        rfl
    refine ⟨?_, hpooled, hbacked, fun hplain => ?_⟩
    · unfold carried
      simp only [htalkerKv, hc2wKv, hfree]
      unfold copied
      rw [howned]
    · show (if (externalOf pool k).arenaBacked then _ else _) = _
      rw [if_neg (by rw [show (externalOf pool k).arenaBacked = false from hplain]; decide)]
      rfl

/-- A pool that an executor has already. -/
theorem setPool_self (hp : e.kvPool = some pool) : e.setPool pool = e := by
  unfold setPool
  rw [← hp]

/-- The Talker history of a slot whose row has been staged. -/
theorem talkerHistory_staged {q : KVCachePool κ ξ} {T : PoolTensor κ} {row : Nat → κ} {frames : List κ}
    (hT : q.talkerPool = some (T.write t row)) (slot : SlotKVState κ ξ)
    (hlen : slot.pastLen = frames.length) :
    talkerHistory ((q.writeRow .talker t (KVCachePool.stagedRow T.zero 0 frames)).setSlot t slot) t
      = some { column := T.column, frames := frames } := by
  have hwritten : ((q.writeRow .talker t (KVCachePool.stagedRow T.zero 0 frames)).setSlot t
      slot).talkerPool = some (T.write t (KVCachePool.stagedRow T.zero 0 frames)) := by
    show q.talkerPool.map (fun U => U.write t (KVCachePool.stagedRow T.zero 0 frames)) = _
    rw [hT, Option.map_some, KVCachePool.write_write]
  rw [talkerHistory, hwritten, Option.map_some, KVCachePool.setSlot_self, hlen, Int.toNat_natCast,
    KVCachePool.read_write_self, KVCachePool.map_stagedRow]
  rfl

/-- The Code2Wav history of a slot whose row has been staged. -/
theorem c2wHistory_staged {q : KVCachePool κ ξ} {T : PoolTensor κ} {row : Nat → κ} {frames : List κ}
    (hT : q.c2wPool = some (T.write t row)) (slot : SlotKVState κ ξ)
    (hlen : slot.c2wLen = frames.length) (hpooled : slot.c2wPooled = true) :
    c2wHistory ((q.writeRow .c2w t
      (KVCachePool.stagedRow T.zero (T.capacity - frames.length) frames)).setSlot t slot) t
      = some { column := T.column, frames := frames } := by
  have hwritten : ((q.writeRow .c2w t (KVCachePool.stagedRow T.zero (T.capacity - frames.length)
      frames)).setSlot t slot).c2wPool
      = some (T.write t (KVCachePool.stagedRow T.zero (T.capacity - frames.length) frames)) := by
    show q.c2wPool.map (fun U => U.write t
      (KVCachePool.stagedRow T.zero (T.capacity - frames.length) frames)) = _
    rw [hT, Option.map_some, KVCachePool.write_write]
  rw [c2wHistory, hwritten, Option.map_some, KVCachePool.setSlot_self, if_pos hpooled, hlen,
    Int.toNat_natCast, KVCachePool.read_write_self]
  show some (KV.mk 1 T.column ((List.range frames.length).map fun j => KVCachePool.stagedRow T.zero
    (T.capacity - frames.length) frames (T.capacity - frames.length + j))) = _
  rw [KVCachePool.map_stagedRow]

/-- The Talker history of the target. -/
theorem talker_restored (hc : Captured e pool k bundle) (hx : Exclusive pool (pool.slots k))
    {e₁ e₂ : Executor κ ξ} (hp : e₁.kvPool = some pool') (htensors : SameTensors pool pool' t)
    (hcarried : carried (pool'.slots t) = carried (pool.slots k)) {epoch : Int}
    (h : writeIfSome bundle.pooledTalkerPayload (fun kv e => e.restoreTalker t kv epoch) e₁
      = .ok e₂) :
    ∃ q, e₂ = e₁.setPool q ∧ q.slots t = pool'.slots t ∧ SameTensors pool q t ∧
      talkerHistory q t = talkerHistory pool k := by
  rw [hc.talker] at h
  have hlen : (pool'.slots t).pastLen = (pool.slots k).pastLen := by
    show (carried (pool'.slots t)).pastLen = (carried (pool.slots k)).pastLen
    rw [hcarried]
  have hkv : (pool'.slots t).talkerKv = (pool.slots k).talkerKv := by
    show (carried (pool'.slots t)).talkerKv = (carried (pool.slots k)).talkerKv
    rw [hcarried]
  cases hT : pool.talkerPool with
  | none =>
      have hnone : talkerHistory pool k = none := by rw [talkerHistory, hT, Option.map_none]
      have hnone' : pool'.talkerPool = none := htensors.noTensor .talker hT
      rw [hnone] at h
      cases h
      exact ⟨pool', (setPool_self hp).symm, rfl, htensors,
        by rw [hnone, talkerHistory, hnone', Option.map_none]⟩
  | some T =>
      obtain ⟨row, hrow⟩ := htensors.tensor .talker T hT
      replace hrow : pool'.talkerPool = some (T.write t row) := hrow
      have hsome : talkerHistory pool k
          = some { column := T.column, frames := T.read k 0 (pool.slots k).pastLen.toNat } := by
        rw [talkerHistory, hT, Option.map_some]
      rw [hsome] at h
      obtain ⟨T', hT', rfl⟩ := restoreTalker_written hp h
      rw [hrow] at hT'
      cases hT'
      refine ⟨_, rfl, ?_, htensors.trans ((KVCachePool.elsewhere_writeRow pool' .talker t _).trans
        (KVCachePool.elsewhere_setSlot rfl rfl rfl)), ?_⟩
      · rw [KVCachePool.setSlot_self, length_poolRead, Int.toNat_of_nonneg hc.pastLen, ← hlen,
          ← (hkv.trans (hx.1 (by rw [hT]; rfl)))]
      · rw [hsome]
        refine talkerHistory_staged hrow _ ?_
        rfl

/-- The Code2Wav history of the target. -/
theorem c2w_restored (hc : Captured e pool k bundle) (hx : Exclusive pool (pool.slots k))
    {e₁ e₂ : Executor κ ξ} (hp : e₁.kvPool = some pool') (htensors : SameTensors pool pool' t)
    (hcarried : carried (pool'.slots t) = carried (pool.slots k))
    (hplain : (pool'.slots t).c2wPooled = false) {epoch : Int}
    (h : writeIfSome bundle.pooledC2wPayload (fun kv e => e.restoreC2w t kv epoch) e₁ = .ok e₂) :
    ∃ q, e₂ = e₁.setPool q ∧
      q.slots t = { pool'.slots t with c2wPooled := (pool.slots k).c2wPooled } ∧
      talkerHistory q t = talkerHistory pool' t ∧ c2wHistory q t = c2wHistory pool k := by
  rw [hc.c2w] at h
  have hlen : (pool'.slots t).c2wLen = (pool.slots k).c2wLen := by
    show (carried (pool'.slots t)).c2wLen = (carried (pool.slots k)).c2wLen
    rw [hcarried]
  have hkv : (pool'.slots t).c2wKv = (pool.slots k).c2wKv := by
    show (carried (pool'.slots t)).c2wKv = (carried (pool.slots k)).c2wKv
    rw [hcarried]
  cases hpooled : (pool.slots k).c2wPooled with
  | false =>
      have hnone : c2wHistory pool k = none := by
        rw [c2wHistory, if_neg (by rw [hpooled]; exact Bool.false_ne_true)]
      rw [hnone] at h
      cases h
      refine ⟨pool', (setPool_self hp).symm, by rw [← hplain], rfl, ?_⟩
      rw [hnone, c2wHistory, if_neg (by rw [hplain]; exact Bool.false_ne_true)]
  | true =>
      obtain ⟨T, hT⟩ := Option.isSome_iff_exists.1 (hc.c2wStored hpooled)
      obtain ⟨row, hrow⟩ := htensors.tensor .c2w T hT
      replace hrow : pool'.c2wPool = some (T.write t row) := hrow
      have hsome : c2wHistory pool k = some
          { column := T.column
            frames := T.read k (T.capacity - (pool.slots k).c2wLen.toNat)
              (pool.slots k).c2wLen.toNat } := by
        rw [c2wHistory, if_pos hpooled, hT, Option.map_some]
      rw [hsome] at h
      obtain ⟨T', hT', rfl⟩ := restoreC2w_written hp h
      rw [hrow] at hT'
      cases hT'
      refine ⟨_, rfl, ?_, ?_, ?_⟩
      · rw [KVCachePool.setSlot_self, length_poolRead, Int.toNat_of_nonneg hc.c2wLen, ← hlen,
          ← (hkv.trans (hx.2 hpooled))]
      · rw [talkerHistory, KVCachePool.setSlot_self]
        rfl
      · rw [hsome]
        refine c2wHistory_staged hrow _ ?_ rfl
        rfl

/-- The arena rows of the target. -/
theorem arena_restored (hc : Captured e pool k bundle) (e₁ : Executor κ ξ) {e₂ : Executor κ ξ}
    (hp : e₁.kvPool = some pool') (hA : e₁.arenaA = e.arenaA) (hB : e₁.arenaB = e.arenaB)
    (hplain : (pool'.slots t).c2wArenaBacked = false)
    (hstates : (pool.slots k).c2wArenaBacked = false →
      (pool'.slots t).c2wStates = e.cloneStates (pool.slots k).c2wStates)
    {epoch : Int} (h : writeIfSome bundle.arenaPayload (fun arena e => e.restoreC2wArena t arena epoch
      bundle.sourceSlotId bundle.sourceAllocationEpoch) e₁ = .ok e₂) :
    ∃ q, e₂.kvPool = some q ∧ carried (q.slots t) = carried (pool'.slots t) ∧
      (q.slots t).c2wPooled = (pool'.slots t).c2wPooled ∧
      (q.slots t).c2wArenaBacked = (pool.slots k).c2wArenaBacked ∧
      e₂.cloneStates (q.slots t).c2wStates = e.cloneStates (pool.slots k).c2wStates ∧
      talkerHistory q t = talkerHistory pool' t ∧ c2wHistory q t = c2wHistory pool' t := by
  rw [hc.arena] at h
  cases hbacked : (pool.slots k).c2wArenaBacked with
  | false =>
      rw [arenaRows, if_neg (by rw [hbacked]; exact Bool.false_ne_true)] at h
      cases h
      refine ⟨pool', hp, rfl, rfl, hplain, ?_, rfl, rfl⟩
      rw [hstates hbacked, cloneStates_cloneStates hA hB]
  | true =>
      rw [arenaRows, if_pos hbacked] at h
      obtain ⟨htensors, rfl⟩ := restoreC2wArena_written hp h
      refine ⟨_, rfl, ?_, ?_, ?_, ?_, ?_, ?_⟩
      · rw [KVCachePool.setSlot_self]
        rfl
      · rw [KVCachePool.setSlot_self]
      · rw [KVCachePool.setSlot_self]
      · rw [KVCachePool.setSlot_self, cloneStates_of_views (hc.views hbacked)]
        exact cloneStates_restored htensors fun _ _ => rfl
      · rw [talkerHistory, KVCachePool.setSlot_self]
        rfl
      · rw [c2wHistory, KVCachePool.setSlot_self]
        rfl

theorem runWrites_cons_ok {write : Executor κ ξ → Except StateError (Executor κ ξ)}
    {writes : List (Executor κ ξ → Except StateError (Executor κ ξ))}
    (h : e.runWrites (write :: writes) = (e', .ok ())) :
    ∃ written, write e = .ok written ∧ written.runWrites writes = (e', .ok ()) := by
  unfold runWrites at h
  cases hwrite : write e with
  | error error =>
      rw [hwrite] at h
      cases h
  | ok written =>
      rw [hwrite] at h
      exact ⟨written, rfl, h⟩

/-- **A bundle that is restored gives the target the decode state of the source.** -/
theorem decodeState_restored (hc : Captured e pool k bundle) (hx : Exclusive pool (pool.slots k))
    {e₁ e₂ : Executor κ ξ} (hs : Spare e e₁ pool pool' t) {epoch now : Int}
    (h : e₁.restoreSpeechStateBundle t bundle epoch now = (e₂, .ok ())) :
    ∃ q, e₂.kvPool = some q ∧ e₂.decodeState q t = e.decodeState pool k := by
  unfold restoreSpeechStateBundle at h
  split at h
  · cases h
  obtain ⟨e₃, hwrite, h⟩ := runWrites_cons_ok h
  obtain ⟨slot, hslot, rfl⟩ := restoreSlot_ok hs.kvPool hwrite
  obtain ⟨hcarried, hpooled, hbacked, hstates⟩ := carried_restoreInto hc hx hs.isFree hs.talkerKv
    hs.c2wKv hs.c2wPooled hs.c2wArenaBacked hslot
  obtain ⟨e₄, htalker, h⟩ := runWrites_cons_ok h
  have hset : SameTensors pool (pool'.setSlot t slot) t :=
    ⟨fun kind T hT => by rw [KVCachePool.tensor_setSlot]; exact hs.tensors.tensor kind T hT,
      fun kind hT => by rw [KVCachePool.tensor_setSlot]; exact hs.tensors.noTensor kind hT⟩
  obtain ⟨q₁, rfl, hslot₁, htensors, htalker⟩ := talker_restored hc hx rfl hset
    (by rw [KVCachePool.setSlot_self, hcarried]) htalker
  rw [KVCachePool.setSlot_self] at hslot₁
  obtain ⟨e₅, hc2w, h⟩ := runWrites_cons_ok h
  obtain ⟨q₂, rfl, hslot₂, hsame, hc2w⟩ := c2w_restored hc hx rfl htensors
    (by rw [hslot₁, hcarried]) (by rw [hslot₁, hpooled]) hc2w
  rw [hslot₁] at hslot₂
  obtain ⟨e₆, harena, h⟩ := runWrites_cons_ok h
  cases h
  obtain ⟨q₃, hq₃, hcarried₃, hpooled₃, hbacked₃, hclone, hsame', hsame''⟩ :=
    arena_restored hc (((e₁.setPool (pool'.setSlot t slot)).setPool q₁).setPool q₂) rfl
      hs.arenaA hs.arenaB (by rw [hslot₂, hbacked])
      (fun hplain => by rw [hslot₂, hstates hplain]) harena
  refine ⟨q₃, hq₃, ?_⟩
  have hfields : carried (q₃.slots t) = carried (pool.slots k) := by
    rw [hcarried₃, hslot₂, ← hcarried]
    rfl
  have hpooled' : (q₃.slots t).c2wPooled = (pool.slots k).c2wPooled := by rw [hpooled₃, hslot₂]
  unfold decodeState
  rw [hsame', hsame, htalker, hsame'', hc2w, hclone]
  refine congrArg (·, _, _) ?_
  show ({ carried (q₃.slots t) with
      c2wPooled := (q₃.slots t).c2wPooled
      c2wArenaBacked := (q₃.slots t).c2wArenaBacked
      c2wStates := e.cloneStates (pool.slots k).c2wStates } : SlotKVState κ ξ) = _
  rw [hfields, hpooled', hbacked₃]
  rfl

end

end Executor

end StreamingTts.Engine.Pooled
