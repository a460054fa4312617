import Mathlib.Data.List.Nodup
import StreamingTts.Engine.SlotState
import StreamingTts.Lib.Transition

/-!
# Who owns a row

The free list of the pool is exactly its free slots, without duplicates, and every allocation of a slot
counts its epoch up by one (`slot_ownership`). An owner that has lost its slot therefore knows an epoch
that no later owner has, and every call that carries it raises or changes no slot that is owned
(`stale_call`).
-/

namespace StreamingTts.Engine.Pooled

open Lib
open Frontend (Text)

variable {κ : Type} {ξ : Type}

namespace KVCachePool

/-! ## Calls -/

/-- A call of the pool. -/
inductive Call (κ : Type)
  | allocate (sessionId : Text) (now : Int)
  | release (slot : Nat) (expectedAllocationEpoch : Option Int)
  | forceEvict (slot : Nat)
  | restoreTalker (slot : Nat) (kv : KV κ) (expectedAllocationEpoch : Int)
  | restoreC2w (slot : Nat) (kv : KV κ) (expectedAllocationEpoch : Int)
  | snapshotTalker (slot : Nat) (expectedAllocationEpoch : Int) (maxTensorBytes : Option Int)
  | snapshotC2w (slot : Nat) (expectedAllocationEpoch : Int) (maxTensorBytes : Option Int)

/-- The pool after a call, or what the call raises. -/
def call (p : KVCachePool κ ξ) : Call κ → Except PoolError (KVCachePool κ ξ)
  | .allocate sessionId now =>
      match p.allocate sessionId now with
      | none => .ok p
      | some (_, allocated) => .ok allocated
  | .release k epoch => p.release k epoch
  | .forceEvict k => Prod.snd <$> p.forceEvict k
  | .restoreTalker k kv epoch => Prod.snd <$> p.restorePooledTalkerKv k kv epoch
  | .restoreC2w k kv epoch => Prod.snd <$> p.restorePooledC2wKv k kv epoch
  | .snapshotTalker k epoch budget => (fun _ => p) <$> p.snapshotPooledTalkerKv k epoch budget
  | .snapshotC2w k epoch budget => (fun _ => p) <$> p.snapshotPooledC2wKv k epoch budget

/-- The pool after a call; one that raises has written nothing. -/
def apply (p : KVCachePool κ ξ) (c : Call κ) : KVCachePool κ ξ := (p.call c).toOption.getD p

/-- The pool after the calls. -/
def calls (p : KVCachePool κ ξ) (cs : List (Call κ)) : KVCachePool κ ξ := run apply p cs

/-- The call hands the slot out. -/
def hands (p : KVCachePool κ ξ) (c : Call κ) (k : Nat) : Bool :=
  match c with
  | .allocate _ _ => p.freeSlots.getLast? == some k
  | _ => false

/-- The call names the slot and an epoch of it. -/
def carries (c : Call κ) (k : Nat) (epoch : Int) : Prop :=
  match c with
  | .release j e => j = k ∧ e = some epoch
  | .restoreTalker j _ e | .restoreC2w j _ e => j = k ∧ e = epoch
  | .snapshotTalker j e _ | .snapshotC2w j e _ => j = k ∧ e = epoch
  | _ => False

/-- Every slot that is owned has its fields and its rows. -/
def SameOwned (p q : KVCachePool κ ξ) : Prop :=
  ∀ j, (p.slots j).isFree = false → q.slots j = p.slots j ∧
    ∀ kind, (q.tensor kind).map (·.rows j) = (p.tensor kind).map (·.rows j)

/-! ## What a call does -/

/-- What a call comes to: nothing, a slot that is handed out, one that is given back, or a row that is
written for its owner. -/
inductive Effect (p : KVCachePool κ ξ) : Call κ → KVCachePool κ ξ → Prop
  | stays {c : Call κ} (hands : ∀ k, p.hands c k = false) : Effect p c p
  | handsOut {sessionId : Text} {now : Int} {k : Nat} {q : KVCachePool κ ξ}
      (last : p.freeSlots.getLast? = some k)
      (slots : q.slots = Function.update p.slots k (freshSlot (p.slots k) sessionId now))
      (freeSlots : q.freeSlots = p.freeSlots.dropLast) (maxSlots : q.maxSlots = p.maxSlots) :
      Effect p (.allocate sessionId now) q
  | givesBack {c : Call κ} {k : Nat} {q : KVCachePool κ ξ} (hands : ∀ k, p.hands c k = false)
      (range : k < p.maxSlots) (owned : (p.slots k).isFree = false)
      (epoch : ∀ j e, carries c j e → j = k ∧ e = (p.slots k).allocationEpoch)
      (slots : q.slots = Function.update p.slots k (releasedSlot (p.slots k)))
      (freeSlots : q.freeSlots = p.freeSlots ++ [k]) (maxSlots : q.maxSlots = p.maxSlots) :
      Effect p c q
  | writes {c : Call κ} {k : Nat} {q : KVCachePool κ ξ} (slot : SlotKVState κ ξ)
      (hands : ∀ k, p.hands c k = false) (owned : (p.slots k).isFree = false)
      (epoch : ∀ j e, carries c j e → j = k ∧ e = (p.slots k).allocationEpoch)
      (slots : q.slots = Function.update p.slots k slot) (stillOwned : slot.isFree = false)
      (sameEpoch : slot.allocationEpoch = (p.slots k).allocationEpoch)
      (freeSlots : q.freeSlots = p.freeSlots) (maxSlots : q.maxSlots = p.maxSlots) :
      Effect p c q

section
variable {p q : KVCachePool κ ξ} {k : Nat}

theorem zeroRows_fields (p : KVCachePool κ ξ) (k : Nat) :
    (p.zeroRows k).slots = p.slots ∧ (p.zeroRows k).freeSlots = p.freeSlots ∧
      (p.zeroRows k).maxSlots = p.maxSlots := by
  unfold zeroRows
  split <;> exact ⟨rfl, rfl, rfl⟩

theorem writeRow_fields (p : KVCachePool κ ξ) (kind : Kind) (k : Nat) (row : Nat → κ) :
    (p.writeRow kind k row).slots = p.slots ∧ (p.writeRow kind k row).freeSlots = p.freeSlots ∧
      (p.writeRow kind k row).maxSlots = p.maxSlots := by
  cases kind <;> exact ⟨rfl, rfl, rfl⟩

/-- A release that returns. -/
theorem release_ok {epoch : Option Int} (h : p.release k epoch = .ok q) :
    k < p.maxSlots ∧ (∀ e, epoch = some e → e = (p.slots k).allocationEpoch) ∧
      (((p.slots k).isFree = true ∧ q = p) ∨ ((p.slots k).isFree = false ∧
        q = { p.setSlot k (releasedSlot (p.slots k)) with freeSlots := p.freeSlots ++ [k] })) := by
  unfold release at h
  obtain ⟨hrange, h⟩ := check_eq_ok.1 h
  refine ⟨Nat.lt_of_not_le hrange, ?_⟩
  have hfree : ∀ {q : KVCachePool κ ξ}, (if (p.slots k).isFree then (pure p : Except PoolError _)
      else pure { p.setSlot k (releasedSlot (p.slots k)) with freeSlots := p.freeSlots ++ [k] })
        = .ok q → ((p.slots k).isFree = true ∧ q = p) ∨ ((p.slots k).isFree = false ∧
        q = { p.setSlot k (releasedSlot (p.slots k)) with freeSlots := p.freeSlots ++ [k] }) := by
    intro q hq
    by_cases hf : (p.slots k).isFree
    · rw [if_pos hf] at hq
      cases hq
      exact .inl ⟨hf, rfl⟩
    · rw [if_neg hf] at hq
      cases hq
      exact .inr ⟨Bool.eq_false_iff.2 hf, rfl⟩
  cases epoch with
  | none => exact ⟨(fun _ he => by cases he), hfree h⟩
  | some expected =>
      obtain ⟨hepoch, h⟩ := check_eq_ok.1 h
      refine ⟨fun e he => ?_, hfree h⟩
      cases he
      exact Decidable.not_not.1 hepoch

/-- A call with the epoch of an owner that returns. -/
theorem contract_ok {epoch : Int} {kind : Kind} {requirePool : Bool} {slot : SlotKVState κ ξ}
    (h : p.validatePooledStateContract k epoch kind requirePool = .ok slot) :
    k < p.maxSlots ∧ (p.slots k).isFree = false ∧ epoch = (p.slots k).allocationEpoch ∧
      slot = p.slots k := by
  unfold validatePooledStateContract at h
  obtain ⟨hrange, h⟩ := check_eq_ok.1 h
  obtain ⟨-, h⟩ := check_eq_ok.1 h
  obtain ⟨howner, h⟩ := check_eq_ok.1 h
  obtain ⟨-, h⟩ := check_eq_ok.1 h
  rw [not_or] at howner
  cases h
  exact ⟨Nat.lt_of_not_le hrange, Bool.eq_false_iff.2 howner.1,
    (Decidable.not_not.1 howner.2).symm, rfl⟩

/-- What a restore writes: fields of the slot, which stays owned, and a row of it. -/
structure Restored (p : KVCachePool κ ξ) (k : Nat) (q : KVCachePool κ ξ) : Prop where
  slot : ∃ slot : SlotKVState κ ξ, q.slots = Function.update p.slots k slot ∧
    slot.isFree = false ∧ slot.allocationEpoch = (p.slots k).allocationEpoch
  freeSlots : q.freeSlots = p.freeSlots
  maxSlots : q.maxSlots = p.maxSlots

theorem restored_setSlot {kind : Kind} {row : Nat → κ} {slot : SlotKVState κ ξ}
    (hfree : slot.isFree = false) (hepoch : slot.allocationEpoch = (p.slots k).allocationEpoch) :
    Restored p k ((p.writeRow kind k row).setSlot k slot) := by
  obtain ⟨hslots, hfreeSlots, hmax⟩ := writeRow_fields p kind k row
  exact ⟨⟨slot, by unfold setSlot; rw [hslots], hfree, hepoch⟩, hfreeSlots, hmax⟩

theorem restoreTalker_ok {kv : KV κ} {epoch : Int} {valid : Nat}
    (h : p.restorePooledTalkerKv k kv epoch = .ok (valid, q)) :
    (p.slots k).isFree = false ∧ epoch = (p.slots k).allocationEpoch ∧ Restored p k q := by
  unfold restorePooledTalkerKv at h
  obtain ⟨slot, hslot, h⟩ := bind_eq_ok.1 h
  obtain ⟨-, hfree, hepoch, rfl⟩ := contract_ok hslot
  refine ⟨hfree, hepoch, ?_⟩
  cases hpool : p.talkerPool with
  | none =>
      rw [hpool] at h
      cases h
  | some pool =>
      rw [hpool] at h
      obtain ⟨valid', -, h⟩ := bind_eq_ok.1 h
      cases h
      exact restored_setSlot hfree rfl

theorem restoreC2w_ok {kv : KV κ} {epoch : Int} {valid : Nat}
    (h : p.restorePooledC2wKv k kv epoch = .ok (valid, q)) :
    (p.slots k).isFree = false ∧ epoch = (p.slots k).allocationEpoch ∧ Restored p k q := by
  unfold restorePooledC2wKv at h
  obtain ⟨slot, hslot, h⟩ := bind_eq_ok.1 h
  obtain ⟨-, hfree, hepoch, rfl⟩ := contract_ok hslot
  refine ⟨hfree, hepoch, ?_⟩
  cases hpool : p.c2wPool with
  | none =>
      rw [hpool] at h
      cases h
  | some pool =>
      rw [hpool] at h
      obtain ⟨valid', -, h⟩ := bind_eq_ok.1 h
      cases h
      exact restored_setSlot hfree rfl

/-- A call that returns. -/
theorem effect_of_call {c : Call κ} (h : p.call c = .ok q) : Effect p c q := by
  cases c with
  | allocate sessionId now =>
      unfold call allocate at h
      cases hlast : p.freeSlots.getLast? with
      | none =>
          rw [hlast] at h
          cases h
          refine .stays fun k => ?_
          unfold hands
          rw [hlast]
          rfl
      | some k =>
          rw [hlast] at h
          cases h
          obtain ⟨hslots, hfreeSlots, hmax⟩ := zeroRows_fields
            (setSlot { p with freeSlots := p.freeSlots.dropLast } k
              (freshSlot (p.slots k) sessionId now)) k
          exact .handsOut hlast hslots hfreeSlots hmax
  | release k epoch =>
      obtain ⟨hrange, hepoch, ⟨-, rfl⟩ | ⟨howned, rfl⟩⟩ := release_ok h
      · exact .stays fun _ => rfl
      · refine .givesBack (fun _ => rfl) hrange howned ?_ rfl rfl rfl
        rintro j e ⟨rfl, he⟩
        exact ⟨rfl, hepoch e he⟩
  | forceEvict k =>
      obtain ⟨⟨evicted, q'⟩, hevict, rfl⟩ := map_eq_ok.1 h
      unfold forceEvict at hevict
      obtain ⟨-, h⟩ := check_eq_ok.1 hevict
      by_cases hfree : (p.slots k).isFree
      · rw [if_pos hfree] at h
        cases h
        exact .stays fun _ => rfl
      · rw [if_neg hfree] at h
        obtain ⟨released, hreleased, h⟩ := bind_eq_ok.1 h
        cases h
        obtain ⟨hrange, -, ⟨hfree', -⟩ | ⟨howned, rfl⟩⟩ := release_ok hreleased
        · exact absurd hfree' hfree
        · exact .givesBack (fun _ => rfl) hrange howned (fun _ _ h => h.elim) rfl rfl rfl
  | restoreTalker k kv epoch =>
      obtain ⟨⟨valid, q'⟩, hrestore, rfl⟩ := map_eq_ok.1 h
      obtain ⟨howned, hepoch, ⟨slot, hslots, hfree, hsame⟩, hfreeSlots, hmax⟩ :=
        restoreTalker_ok hrestore
      refine .writes slot (fun _ => rfl) howned ?_ hslots hfree hsame hfreeSlots hmax
      rintro j e ⟨rfl, rfl⟩
      exact ⟨rfl, hepoch⟩
  | restoreC2w k kv epoch =>
      obtain ⟨⟨valid, q'⟩, hrestore, rfl⟩ := map_eq_ok.1 h
      obtain ⟨howned, hepoch, ⟨slot, hslots, hfree, hsame⟩, hfreeSlots, hmax⟩ :=
        restoreC2w_ok hrestore
      refine .writes slot (fun _ => rfl) howned ?_ hslots hfree hsame hfreeSlots hmax
      rintro j e ⟨rfl, rfl⟩
      exact ⟨rfl, hepoch⟩
  | snapshotTalker k epoch budget =>
      obtain ⟨_, -, rfl⟩ := map_eq_ok.1 h
      exact .stays fun _ => rfl
  | snapshotC2w k epoch budget =>
      obtain ⟨_, -, rfl⟩ := map_eq_ok.1 h
      exact .stays fun _ => rfl

/-- An allocation raises nothing. -/
theorem hands_of_error {c : Call κ} {error : PoolError} (h : p.call c = .error error) :
    p.hands c k = false := by
  cases c with
  | allocate sessionId now =>
      simp only [call] at h
      cases hhanded : p.allocate sessionId now with
      | none =>
          rw [hhanded] at h
          cases h
      | some handed =>
          rw [hhanded] at h
          cases h
  | release | forceEvict | restoreTalker | restoreC2w | snapshotTalker | snapshotC2w => rfl

/-- The pool after a call: as it was, or what the call comes to. -/
theorem apply_cases (p : KVCachePool κ ξ) (c : Call κ) :
    ((∃ e, p.call c = .error e) ∧ p.apply c = p) ∨ (p.call c = .ok (p.apply c) ∧
      Effect p c (p.apply c)) := by
  unfold apply
  cases h : p.call c with
  | error e => exact .inl ⟨⟨e, rfl⟩, rfl⟩
  | ok q => exact .inr ⟨rfl, effect_of_call h⟩

/-! ## What holds in every run -/

/-- The free list has the free slots, each of them once. -/
structure Ownership (p : KVCachePool κ ξ) : Prop where
  nodup : p.freeSlots.Nodup
  mem_iff : ∀ k, k ∈ p.freeSlots ↔ k < p.maxSlots ∧ (p.slots k).isFree = true

theorem ownership_new (maxSlots : Nat) (config : ModelConfig κ) (preallocate : Bool) :
    Ownership (new maxSlots config preallocate : KVCachePool κ ξ) := by
  refine ⟨List.nodup_range, fun k => ?_⟩
  show k ∈ List.range maxSlots ↔ k < maxSlots ∧ true = true
  rw [List.mem_range, and_iff_left rfl]

theorem Effect.ownership {c : Call κ} (h : Effect p c q) (hown : p.Ownership) : q.Ownership := by
  cases h with
  | stays => exact hown
  | @handsOut _ _ k _ hlast hslots hfreeSlots hmax =>
      obtain ⟨front, hfront⟩ := List.getLast?_eq_some_iff.1 hlast
      have hdrop : p.freeSlots.dropLast = front := by rw [hfront, List.dropLast_concat]
      have hnodup := hown.nodup
      rw [hfront, List.nodup_append] at hnodup
      have hnot : k ∉ front := fun hk => hnodup.2.2 k hk k List.mem_cons_self rfl
      refine ⟨by rw [hfreeSlots, hdrop]; exact hnodup.1, fun j => ?_⟩
      rw [hfreeSlots, hdrop, hmax, hslots]
      by_cases hj : j = k
      · subst hj
        rw [Function.update_self]
        exact iff_of_false hnot fun hfree => by cases hfree.2
      · rw [Function.update_of_ne hj, ← hown.mem_iff, hfront, List.mem_append,
          List.mem_singleton, or_iff_left hj]
  | @givesBack _ k _ _ hrange howned _ hslots hfreeSlots hmax =>
      have hnot : k ∉ p.freeSlots := by
        rw [hown.mem_iff, howned]
        exact fun hk => by cases hk.2
      refine ⟨?_, fun j => ?_⟩
      · rw [hfreeSlots]
        refine List.nodup_append.2 ⟨hown.nodup, List.nodup_singleton k, fun a ha b hb hab => ?_⟩
        rw [List.mem_singleton.1 hb] at hab
        exact hnot (hab ▸ ha)
      · rw [hfreeSlots, hmax, hslots, List.mem_append, List.mem_singleton]
        by_cases hj : j = k
        · subst hj
          rw [Function.update_self]
          exact iff_of_true (.inr rfl) ⟨hrange, rfl⟩
        · rw [Function.update_of_ne hj, ← hown.mem_iff, or_iff_left hj]
  | @writes _ k _ slot _ howned _ hslots hstill _ hfreeSlots hmax =>
      refine ⟨hfreeSlots ▸ hown.nodup, fun j => ?_⟩
      rw [hfreeSlots, hmax, hslots, hown.mem_iff]
      by_cases hj : j = k
      · subst hj
        rw [Function.update_self, hstill, howned]
      · rw [Function.update_of_ne hj]

theorem ownership_apply (hown : p.Ownership) (c : Call κ) : (p.apply c).Ownership := by
  rcases p.apply_cases c with ⟨-, hsame⟩ | ⟨-, heffect⟩
  · rw [hsame]
    exact hown
  · exact heffect.ownership hown

theorem ownership_calls (hown : p.Ownership) (cs : List (Call κ)) : (p.calls cs).Ownership :=
  run_invariant hown (fun _ c h => ownership_apply h c) cs

/-- The slots that are in use are the ones that are owned. -/
theorem Ownership.usedCount (hown : p.Ownership) : p.usedCount = p.activeSlots.length := by
  have hperm : p.freeSlots.Perm ((List.range p.maxSlots).filter fun k => (p.slots k).isFree) := by
    refine (List.perm_ext_iff_of_nodup hown.nodup (List.nodup_range.filter _)).2 fun k => ?_
    rw [hown.mem_iff, List.mem_filter, List.mem_range]
  have hsplit := List.length_eq_length_filter_add (l := List.range p.maxSlots)
    fun k => (p.slots k).isFree
  have hactive : p.activeSlots.length
      = ((List.range p.maxSlots).filter fun k => !(p.slots k).isFree).length := by
    unfold activeSlots
    rw [List.filter_map, List.length_map]
    rfl
  rw [List.length_range] at hsplit
  unfold KVCachePool.usedCount
  rw [hperm.length_eq, hactive]
  omega

/-- An allocation of a slot counts its epoch up, and nothing else does. -/
theorem Effect.epoch {c : Call κ} (h : Effect p c q) (k : Nat) :
    (q.slots k).allocationEpoch
      = (p.slots k).allocationEpoch + if p.hands c k then 1 else 0 := by
  have hnone : ∀ j, p.hands c k = false → (q.slots j).allocationEpoch = (p.slots j).allocationEpoch →
      j = k → (q.slots k).allocationEpoch
        = (p.slots k).allocationEpoch + if p.hands c k then 1 else 0 := by
    rintro j hhands hsame rfl
    rw [hhands, if_neg Bool.false_ne_true, Nat.add_zero, hsame]
  cases h with
  | stays hhands => exact hnone k (hhands k) rfl rfl
  | @handsOut sessionId now j _ hlast hslots =>
      have hhands : p.hands (.allocate sessionId now) k = decide (j = k) := by
        unfold hands
        rw [hlast]
        exact Option.some_beq_some
      rw [hhands, hslots]
      by_cases hk : j = k
      · subst hk
        rw [Function.update_self, decide_eq_true rfl, if_pos rfl]
        rfl
      · rw [Function.update_of_ne (Ne.symm hk), decide_eq_false hk, if_neg Bool.false_ne_true,
          Nat.add_zero]
  | @givesBack _ j _ hhands _ _ _ hslots =>
      refine hnone k (hhands k) ?_ rfl
      rw [hslots]
      by_cases hk : k = j
      · subst hk
        rw [Function.update_self]
        rfl
      · rw [Function.update_of_ne hk]
  | @writes _ j _ slot hhands _ _ hslots _ hsame =>
      refine hnone k (hhands k) ?_ rfl
      rw [hslots]
      by_cases hk : k = j
      · subst hk
        rw [Function.update_self, hsame]
      · rw [Function.update_of_ne hk]

/-! ## Owners that have lost their slot -/

/-- The owner that saw the epoch `e` of the slot `k` does not own it any more. -/
def Lost (k e : Nat) (p : KVCachePool κ ξ) : Prop :=
  e < (p.slots k).allocationEpoch ∨
    (e ≤ (p.slots k).allocationEpoch ∧ (p.slots k).isFree = true)

theorem epoch_mono_apply (p : KVCachePool κ ξ) (c : Call κ) (k : Nat) :
    (p.slots k).allocationEpoch ≤ ((p.apply c).slots k).allocationEpoch := by
  rcases p.apply_cases c with ⟨-, hsame⟩ | ⟨-, heffect⟩
  · exact Nat.le_of_eq (by rw [hsame])
  · exact Nat.le_trans (Nat.le_add_right _ _) (Nat.le_of_eq (heffect.epoch k).symm)

theorem epoch_mono (p : KVCachePool κ ξ) (cs : List (Call κ)) (k : Nat) :
    (p.slots k).allocationEpoch ≤ ((p.calls cs).slots k).allocationEpoch := by
  induction cs generalizing p with
  | nil => exact Nat.le_refl _
  | cons c cs ih => exact Nat.le_trans (p.epoch_mono_apply c k) (ih (p.apply c))

/-- A slot that is lost is free until it is handed out with a later epoch. -/
theorem Effect.lost {c : Call κ} {e : Nat} (h : Effect p c q) (hlost : Lost k e p) : Lost k e q := by
  cases h with
  | stays => exact hlost
  | @handsOut _ _ j _ _ hslots =>
      unfold Lost
      rw [hslots]
      by_cases hk : k = j
      · subst hk
        rw [Function.update_self]
        refine .inl (Nat.lt_succ_of_le ?_)
        rcases hlost with hlt | ⟨hle, -⟩
        · exact Nat.le_of_lt hlt
        · exact hle
      · rw [Function.update_of_ne hk]
        exact hlost
  | @givesBack _ j _ _ _ howned _ hslots =>
      unfold Lost
      rw [hslots]
      by_cases hk : k = j
      · subst hk
        rw [Function.update_self]
        rcases hlost with hlt | ⟨-, hfree⟩
        · exact .inl hlt
        · rw [howned] at hfree
          cases hfree
      · rw [Function.update_of_ne hk]
        exact hlost
  | @writes _ j _ slot _ howned _ hslots _ hsame =>
      unfold Lost
      rw [hslots]
      by_cases hk : k = j
      · subst hk
        rw [Function.update_self, hsame]
        rcases hlost with hlt | ⟨-, hfree⟩
        · exact .inl hlt
        · rw [howned] at hfree
          cases hfree
      · rw [Function.update_of_ne hk]
        exact hlost

theorem lost_calls {e : Nat} (h : Lost k e p) (cs : List (Call κ)) : Lost k e (p.calls cs) := by
  refine run_invariant h (fun q c hlost => ?_) cs
  rcases q.apply_cases c with ⟨-, hsame⟩ | ⟨-, heffect⟩
  · rw [hsame]
    exact hlost
  · exact heffect.lost hlost

/-- A call with the epoch of a slot that is lost raises, or changes no slot that is owned. -/
theorem stale_call {c : Call κ} {e : Nat} (hlost : Lost k e p) (hc : carries c k e) :
    (∃ error, p.call c = .error error) ∨ ∃ q, p.call c = .ok q ∧ SameOwned p q := by
  have howner : ∀ j, (p.slots j).isFree = false → k = j →
      (e : Int) ≠ (p.slots j).allocationEpoch := by
    rintro j howned rfl hepoch
    rcases hlost with hlt | ⟨-, hfree⟩
    · omega
    · rw [howned] at hfree
      cases hfree
  cases hcall : p.call c with
  | error error => exact .inl ⟨error, rfl⟩
  | ok q =>
      refine .inr ⟨q, rfl, ?_⟩
      cases effect_of_call hcall with
      | stays => exact fun _ _ => ⟨rfl, fun _ => rfl⟩
      | handsOut => exact hc.elim
      | @givesBack _ j _ _ _ howned hepoch =>
          obtain ⟨hk, he⟩ := hepoch k e hc
          exact absurd he (howner j howned hk)
      | @writes _ j _ slot _ howned hepoch =>
          obtain ⟨hk, he⟩ := hepoch k e hc
          exact absurd he (howner j howned hk)

/-- In every run of the pool the free list has exactly the free slots, once each, as many slots are in
use as are owned, an allocation of a slot counts its epoch up by one and nothing else changes it, and an
owner whose slot has been free since can neither free nor write a slot that is owned. -/
theorem slot_ownership (maxSlots : Nat) (config : ModelConfig κ) (preallocate : Bool)
    (cs : List (Call κ)) :
    let p := (new maxSlots config preallocate : KVCachePool κ ξ).calls cs
    p.freeSlots.Nodup ∧
      (∀ k, k ∈ p.freeSlots ↔ k < p.maxSlots ∧ (p.slots k).isFree = true) ∧
      p.usedCount = p.activeSlots.length ∧
      (∀ c k, ((p.apply c).slots k).allocationEpoch
        = (p.slots k).allocationEpoch + if p.hands c k then 1 else 0) ∧
      ∀ (k : Nat) (since later : List (Call κ)) (c : Call κ), (p.slots k).isFree = false →
        ((p.calls since).slots k).isFree = true → carries c k (p.slots k).allocationEpoch →
        let q := (p.calls since).calls later
        (∃ error, q.call c = .error error) ∨ ∃ q', q.call c = .ok q' ∧ SameOwned q q' := by
  intro p
  have hown : p.Ownership := ownership_calls (ownership_new maxSlots config preallocate) cs
  refine ⟨hown.nodup, hown.mem_iff, hown.usedCount, fun c k => ?_, ?_⟩
  · rcases p.apply_cases c with ⟨⟨error, herror⟩, hsame⟩ | ⟨-, heffect⟩
    · rw [hsame, hands_of_error herror, if_neg Bool.false_ne_true, Nat.add_zero]
    · exact heffect.epoch k
  · intro k since later c _ hfree hc
    exact stale_call (lost_calls (.inr ⟨p.epoch_mono since k, hfree⟩) later) hc

/-- The first owner of the only slot, behind the allocation of a second one: its release raises. -/
theorem slot_ownership_second :
    let p := (new 1 ⟨⟨1, 1, 1, ⟨⟨0, 2⟩, 0, 0⟩⟩, 1, ⟨1, 1, 1, ⟨⟨0, 2⟩, 0, 0⟩⟩, 1, 0⟩ true :
      KVCachePool Nat Nat).calls [.allocate ['a'] 0]
    let q := (p.calls [.release 0 (some 1)]).calls [.allocate ['b'] 1]
    (∃ error, q.call (.release 0 (some 1)) = .error error) ∨
      ∃ q', q.call (.release 0 (some 1)) = .ok q' ∧ SameOwned q q' :=
  (slot_ownership 1 _ true [.allocate ['a'] 0]).2.2.2.2 0 [.release 0 (some 1)]
    [.allocate ['b'] 1] (.release 0 (some 1)) rfl rfl ⟨rfl, rfl⟩

end

end KVCachePool

end StreamingTts.Engine.Pooled
