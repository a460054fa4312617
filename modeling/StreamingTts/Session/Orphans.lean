import StreamingTts.Session.PumpFailure

/-!
# Who ends a resumable session

A registered session that has not produced its terminal holds an execution slot. It is given up by
the handler that holds its attachment, by the grace task that a detach arms, or by the start call
that is still setting it up; `SlotInv` says that one of the three is there. Two kinds of step break
it. `ResumableLogicalSession.attach` cancels the grace task before the ledger is asked, so an attach
that is rejected while nobody is attached leaves the session without a timer, and an attach that
overflows a queue leaves an attachment nobody holds. And a handler may drop its attachment without
detaching it. `KeepsOwner` excludes these steps, and in the runs of the remaining ones
(`no_orphaned_session`) every session without an owner has its expiry pending.
-/

namespace StreamingTts.Session

open Lib (Along run run_induct)

/-- Some handler holds the current attachment. -/
def SessionSlot.Live (slot : SessionSlot) : Prop :=
  ∃ g ∈ slot.holders, slot.session.ledger.attachment = some g

namespace Registry

/-- No orphans: a registered, initialized session without a terminal, to which nobody is attached
and on which no start or resume call is in progress, has its expiry pending. -/
def NoOrphan (r : Registry) : Prop :=
  ∀ token id, r.registered token = some id → (r.slots id).session.ready = true →
    (r.slots id).session.initializationFailed = false →
    (r.slots id).session.ledger.terminal = none → ¬ (r.slots id).Live →
    (r.slots id).starting = false → (r.slots id).visitors = 0 →
    (r.slots id).session.graceTask = true

/-- The steps that leave a session without a terminal in somebody's hands: an attach is accepted and
fits, or its cursor is rejected while another attachment is live; a handler drops its attachment
only if it is not the current one. -/
def KeepsOwner (r : Registry) : Op → Prop
  | .attach id _ seq sample => (r.slots id).session.ledger.terminal = none →
      ((r.slots id).session.ledger.checkAttach seq sample = .ok () ∧
          ¬ (r.slots id).session.ledger.AttachOverflows seq) ∨
        ((r.slots id).session.ledger.checkAttach seq sample ≠ .ok () ∧ (r.slots id).Live)
  | .abandon id generation => (r.slots id).session.ledger.terminal = none →
      (r.slots id).session.ledger.attachment ≠ some generation
  | _ => True

/-! ## The owner of one session -/

/-- A session that is open and has no terminal is in somebody's hands, and its grace task is pending
only while nobody is attached. -/
structure SlotInv (slot : SessionSlot) : Prop where
  issued : slot.session.ledger.Issued
  grace : slot.session.graceTask = true → slot.session.ledger.attachment = none
  owned : slot.session.closed = false → slot.session.ready = true →
    slot.session.initializationFailed = false → slot.session.ledger.terminal = none →
    slot.Live ∨ slot.session.graceTask = true ∨ slot.starting = true

/-- What keeps the owner: the same attachment, tasks and calls, and no terminal taken back. -/
theorem SlotInv.frame {slot slot' : SessionSlot} (h : SlotInv slot)
    (hissued : slot'.session.ledger.Issued)
    (hatt : slot'.session.ledger.attachment = slot.session.ledger.attachment)
    (hterm : slot'.session.ledger.terminal = none → slot.session.ledger.terminal = none)
    (hsess : slot'.session.graceTask = slot.session.graceTask ∧
      slot'.session.closed = slot.session.closed ∧ slot'.session.ready = slot.session.ready ∧
      slot'.session.initializationFailed = slot.session.initializationFailed)
    (hheld : slot'.holders = slot.holders ∧ slot'.starting = slot.starting) : SlotInv slot' := by
  obtain ⟨hg, hc, hr, hi⟩ := hsess
  obtain ⟨hh, hs⟩ := hheld
  refine ⟨hissued, ?_, ?_⟩
  · rw [hg, hatt]
    exact h.grace
  · intro hc' hr' hi' ht'
    rw [SessionSlot.Live, hh, hatt, hg, hs]
    exact h.owned (hc ▸ hc') (hr ▸ hr') (hi ▸ hi') (hterm ht')

/-- The calls that found a session do not own it. -/
theorem SlotInv.visited {slot : SessionSlot} (h : SlotInv slot) (visitors : Nat) :
    SlotInv { slot with visitors } :=
  h.frame h.issued rfl (fun ht => ht) ⟨rfl, rfl, rfl, rfl⟩ ⟨rfl, rfl⟩

section
variable (jsonLen : SessionOutput → Nat)

/-- A detach arms the grace task, unless another attachment is the current one. -/
theorem SlotInv.detach {slot : SessionSlot} (h : SlotInv slot) (generation : Nat) :
    SlotInv { slot with
      session := (slot.session.detach generation).2
      holders := slot.holders.erase generation } := by
  by_cases ha : slot.session.ledger.attachment = some generation
  · have hd : slot.session.detach generation = (true, { slot.session with
        ledger := { slot.session.ledger with attachment := none }
        graceTask := if slot.session.ledger.terminal.isNone then true
          else slot.session.graceTask }) := by
      simp [LogicalSession.detach, DeliveryLedger.detach, ha]
    rw [hd]
    refine ⟨fun g hg => (by cases hg), fun _ => rfl, ?_⟩
    intro _ _ _ ht
    have ht' : slot.session.ledger.terminal = none := ht
    exact .inr (.inl (by simp [ht']))
  · have hd : slot.session.detach generation = (false, slot.session) := by
      simp [LogicalSession.detach, DeliveryLedger.detach, ha]
    rw [hd]
    refine ⟨h.issued, h.grace, fun hc hr hi ht => ?_⟩
    rcases h.owned hc hr hi ht with ⟨g, hg, hcur⟩ | h'
    · refine .inl ⟨g, ?_, hcur⟩
      have hne : g ≠ generation := fun heq => ha (by rw [hcur, heq])
      exact (List.mem_erase_of_ne hne).2 hg
    · exact .inr h'

/-- Dropping an attachment that is not the current one keeps the owner. -/
theorem SlotInv.abandon {slot : SessionSlot} (h : SlotInv slot) {generation : Nat}
    (hcur : slot.session.ledger.terminal = none →
      slot.session.ledger.attachment ≠ some generation) :
    SlotInv { slot with holders := slot.holders.erase generation } := by
  refine ⟨h.issued, h.grace, fun hc hr hi ht => ?_⟩
  rcases h.owned hc hr hi ht with ⟨g, hg, hatt⟩ | h'
  · refine .inl ⟨g, ?_, hatt⟩
    have hne : g ≠ generation := fun heq => hcur ht (by rw [← heq]; exact hatt)
    exact (List.mem_erase_of_ne hne).2 hg
  · exact .inr h'

/-- An attach that is accepted and fits makes its caller the owner; one whose cursor is rejected
leaves the live attachment as it was. -/
theorem SlotInv.attach {slot : SessionSlot} (h : SlotInv slot) (first : Bool) {seq sample : Int}
    (hk : slot.session.ledger.terminal = none →
      (slot.session.ledger.checkAttach seq sample = .ok () ∧
          ¬ slot.session.ledger.AttachOverflows seq) ∨
        (slot.session.ledger.checkAttach seq sample ≠ .ok () ∧ slot.Live)) :
    SlotInv (slot.attach first seq sample) := by
  have hissued : (slot.session.ledger.attach seq sample).2.Issued :=
    DeliveryLedger.step_issued (fun _ => 0) slot.session.ledger (.attach seq sample) h.issued
  have hterm := (slot.session.ledger.attach_sameTrace seq sample).1
  have hcall : (slot.endCall first).holders = slot.holders := by cases first <;> rfl
  by_cases hc : slot.session.closed = true
  · -- the session is gone, and the attach raises without a change
    have hs : slot.attach first seq sample = { slot.endCall first with session := slot.session } := by
      simp [SessionSlot.attach, LogicalSession.attach, hc]
    rw [hs]
    exact ⟨h.issued, h.grace, fun hc' => by simp [hc] at hc'⟩
  · have hsession : (slot.attach first seq sample).session = { slot.session with
        graceTask := false, ledger := (slot.session.ledger.attach seq sample).2 } := by
      rw [slotAttach_session, LogicalSession.attach, if_neg hc]
      split <;> next he => rw [he]
    refine ⟨by rw [hsession]; exact hissued, by rw [hsession]; simp, ?_⟩
    rw [hsession]
    intro _ _ _ ht
    rw [show slot.session.ledger.terminal = none from hterm.symm.trans ht] at hk
    left
    rcases hk rfl with ⟨hok, hroom⟩ | ⟨hrej, g, hg, hcur⟩
    · obtain ⟨queues, hatt, -⟩ := DeliveryLedger.attach_of_room h.issued hok hroom
      refine ⟨slot.session.ledger.generation + 1, ?_, ?_⟩
      · simp [SessionSlot.attach, LogicalSession.attach, hc, hatt]
      · rw [hsession, hatt]
        rfl
    · have hrefused : ∃ e, slot.session.ledger.checkAttach seq sample = .error e := by
        cases hcheck : slot.session.ledger.checkAttach seq sample with
        | error e => exact ⟨e, rfl⟩
        | ok u => exact absurd hcheck hrej
      obtain ⟨e, he⟩ := hrefused
      have hatt := DeliveryLedger.attach_of_refused he
      refine ⟨g, ?_, ?_⟩
      · simpa [SessionSlot.attach, LogicalSession.attach, hc, hatt, hcall] using hg
      · rw [hsession, hatt]
        exact hcur

/-- A turn of the pump keeps the owner. -/
theorem SlotInv.output {slot : SessionSlot} (h : SlotInv slot) (payload : SessionOutput) :
    SlotInv { slot with session := slot.session.pumpOutput jsonLen payload } := by
  have hissued := DeliveryLedger.step_issued jsonLen slot.session.ledger (.publish payload) h.issued
  have hatt := (DeliveryLedger.publish_attachment jsonLen slot.session.ledger payload).1
  have hterm : (slot.session.ledger.publish jsonLen payload).2.terminal = none →
      slot.session.ledger.terminal = none := by
    intro ht
    by_contra hsome
    have hs : slot.session.ledger.publish jsonLen payload =
        (.error ⟨.sessionTerminal, "cannot publish after terminal"⟩, slot.session.ledger) := by
      simp [DeliveryLedger.publish, Option.isSome_iff_ne_none.2 hsome]
    rw [hs] at ht
    exact hsome ht
  have hsession : (slot.session.pumpOutput jsonLen payload).ledger =
      (slot.session.ledger.publish jsonLen payload).2 ∧
      (slot.session.pumpOutput jsonLen payload).graceTask = slot.session.graceTask ∧
      (slot.session.pumpOutput jsonLen payload).closed = slot.session.closed ∧
      (slot.session.pumpOutput jsonLen payload).ready = slot.session.ready ∧
      (slot.session.pumpOutput jsonLen payload).initializationFailed =
        slot.session.initializationFailed := by
    unfold LogicalSession.pumpOutput
    split <;> next he => rw [he]; exact ⟨rfl, rfl, rfl, rfl, rfl⟩
  obtain ⟨hledger, hrest⟩ := hsession
  exact h.frame (by rw [hledger]; exact hissued) (by rw [hledger]; exact hatt)
    (by rw [hledger]; exact hterm) hrest ⟨rfl, rfl⟩

/-- The session an acknowledgement leaves differs only in the ledger, which keeps its attachment. -/
theorem acknowledge_session (s : LogicalSession) (generation : Nat) (seq sample : Int) :
    (s.acknowledge generation seq sample).2 =
      { s with ledger := (s.ledger.acknowledge generation seq sample).2 } := by
  unfold LogicalSession.acknowledge
  split <;> next h => rw [h]

theorem SlotInv.acknowledge {slot : SessionSlot} (h : SlotInv slot) (generation : Nat)
    (seq sample : Int) :
    SlotInv { slot with session := (slot.session.acknowledge generation seq sample).2 } := by
  rw [acknowledge_session]
  exact h.frame
    (DeliveryLedger.step_issued (fun _ => 0) _ (.acknowledge generation seq sample) h.issued)
    (slot.session.ledger.acknowledge_attachment generation seq sample).1
    (fun ht => ((slot.session.ledger.acknowledge_sameTrace generation seq sample).1 ▸ ht))
    ⟨rfl, rfl, rfl, rfl⟩ ⟨rfl, rfl⟩

theorem SlotInv.read {slot : SessionSlot} (h : SlotInv slot) (generation : Nat) :
    SlotInv { slot with session := { slot.session with
      ledger := slot.session.ledger.step jsonLen (.read generation) } } :=
  h.frame (DeliveryLedger.step_issued jsonLen _ (.read generation) h.issued) rfl (fun ht => ht)
    ⟨rfl, rfl, rfl, rfl⟩ ⟨rfl, rfl⟩

/-- The session a terminal acknowledgement leaves differs only in the ledger, which keeps its
attachment and its terminal. -/
theorem terminalAck_session (s : LogicalSession) (generation : Nat) (seq sample : Int) :
    ∃ ledger, (s.terminalAck generation seq sample).2 = { s with ledger } ∧
      ledger.attachment = s.ledger.attachment ∧ ledger.generation = s.ledger.generation ∧
      ledger.terminal = s.ledger.terminal := by
  have hack := acknowledge_session s generation seq sample
  obtain ⟨hatt, hgen, -⟩ := s.ledger.acknowledge_attachment generation seq sample
  have hterm := (s.ledger.acknowledge_sameTrace generation seq sample).1
  unfold LogicalSession.terminalAck
  split
  · next h =>
    rw [h] at hack
    exact ⟨_, hack, hatt, hgen, hterm⟩
  · next s' h =>
    rw [h] at hack
    have hs' : s' = { s with ledger := (s.ledger.acknowledge generation seq sample).2 } := hack
    have hflag : ∃ acked, (s'.ledger.terminalAck generation).2 =
        { s'.ledger with terminalAcked := acked } := by
      unfold DeliveryLedger.terminalAck
      split
      · exact ⟨_, rfl⟩
      · split <;> exact ⟨_, rfl⟩
    obtain ⟨acked, hflag⟩ := hflag
    refine ⟨(s'.ledger.terminalAck generation).2, ?_, ?_⟩
    · split <;> next h' => rw [h', hs']
    · rw [hflag, hs']
      exact ⟨hatt, hgen, hterm⟩

theorem SlotInv.terminalAck {slot : SessionSlot} (h : SlotInv slot) (generation : Nat)
    (seq sample : Int) :
    SlotInv { slot with session := (slot.session.terminalAck generation seq sample).2 } := by
  obtain ⟨ledger, hs, hatt, hgen, hterm⟩ :=
    terminalAck_session slot.session generation seq sample
  rw [hs]
  refine h.frame ?_ hatt (fun ht => hterm ▸ ht) ⟨rfl, rfl, rfl, rfl⟩ ⟨rfl, rfl⟩
  intro g hg
  simp only [hatt, hgen] at hg ⊢
  exact h.issued g hg

/-- A closed ledger has no attachment. -/
theorem close_attachment (s : DeliveryLedger) (fence : Bool) :
    (s.close fence).2.attachment = none := by
  unfold DeliveryLedger.close
  dsimp only
  split
  · rfl
  · next generation _ =>
    split
    · obtain ⟨queues, hq⟩ := DeliveryLedger.putControl_frame
        { s with attachment := none, records := [], retainedBytes := 0 } generation
        (.fence (s.generation + 1))
      rw [hq]
      rfl
    · rfl

theorem SlotInv.finishClose {slot : SessionSlot} (hc : slot.session.closed = true)
    (fence : Bool) : SlotInv { slot with session := slot.session.finishClose fence } := by
  have hnone : (slot.session.finishClose fence).ledger.attachment = none :=
    close_attachment slot.session.ledger fence
  refine ⟨fun g hg => ?_, fun _ => hnone, fun hc' => ?_⟩
  · exact absurd (hnone.symm.trans hg) (by simp)
  · exact absurd (hc.symm.trans hc') (by simp)

end

/-! ## The registry -/

/-- Every session object has its owner, the registered ones are the created ones that are not
closed, and a slot that was not created yet is untouched. -/
structure RegistryInv (r : Registry) : Prop where
  slots : ∀ id, SlotInv (r.slots id)
  uncreated : ∀ id, r.created ≤ id →
    (r.slots id).session.ready = false ∧ (r.slots id).starting = false
  registered : ∀ token id, r.registered token = some id →
    id < r.created ∧ (r.slots id).session.closed = false ∧ (r.slots id).session.token = token
  opened : ∀ id, id < r.created → (r.slots id).session.closed = false →
    r.registered (r.slots id).session.token = some id

theorem init_registryInv (limits : LedgerLimits) : RegistryInv (init limits) where
  slots := fun _ => ⟨fun g hg => (by cases hg), fun _ => rfl, fun _ hr => (by cases hr)⟩
  uncreated := fun _ _ => ⟨rfl, rfl⟩
  registered := fun _ _ h => by cases h
  opened := fun id h => by simp [init] at h

/-- A change of one slot that keeps its token and its owner. -/
theorem RegistryInv.setSlot {r : Registry} (h : RegistryInv r) {id : Nat} {slot : SessionSlot}
    (hslot : SlotInv slot)
    (hsame : slot.session.token = (r.slots id).session.token ∧
      slot.session.closed = (r.slots id).session.closed)
    (hnew : r.created ≤ id → slot.session.ready = false ∧ slot.starting = false) :
    RegistryInv (r.setSlot id slot) := by
  obtain ⟨htoken, hclosed⟩ := hsame
  have hat : ∀ id', (id' = id ∧ (r.setSlot id slot).slots id' = slot) ∨
      (r.setSlot id slot).slots id' = r.slots id' := by
    intro id'
    by_cases hid : id' = id
    · exact .inl ⟨hid, by rw [hid]; simp⟩
    · exact .inr (by simp [Function.update_of_ne hid])
  refine ⟨fun id' => ?_, fun id' hid => ?_, fun token id' hreg => ?_, fun id' hid hcl => ?_⟩
  · rcases hat id' with ⟨-, he⟩ | he <;> rw [he]
    · exact hslot
    · exact h.slots id'
  · rcases hat id' with ⟨rfl, he⟩ | he <;> rw [he]
    · exact hnew hid
    · exact h.uncreated id' hid
  · obtain ⟨h₁, h₂, h₃⟩ := h.registered token id' hreg
    rcases hat id' with ⟨rfl, he⟩ | he <;> rw [he]
    · exact ⟨h₁, hclosed.trans h₂, htoken.trans h₃⟩
    · exact ⟨h₁, h₂, h₃⟩
  · rcases hat id' with ⟨rfl, he⟩ | he <;> rw [he] at hcl ⊢
    · rw [htoken]
      exact h.opened id' hid (hclosed ▸ hcl)
    · exact h.opened id' hid hcl

/-- A change of one slot that lets go of its session and removes it. -/
theorem RegistryInv.remove {r : Registry} (h : RegistryInv r) {id : Nat} {slot : SessionSlot}
    (hissued : slot.session.ledger.Issued)
    (hgrace : slot.session.graceTask = true → slot.session.ledger.attachment = none)
    (hsame : slot.session.token = (r.slots id).session.token ∧
      slot.session.closed = (r.slots id).session.closed)
    (hnew : r.created ≤ id → slot.session.ready = false ∧ slot.starting = false) :
    RegistryInv ((r.setSlot id slot).remove id) := by
  obtain ⟨htoken, hclosed⟩ := hsame
  by_cases hreg : r.registered (r.slots id).session.token = some id
  · obtain ⟨hlt, hcl, -⟩ := h.registered _ id hreg
    have hs : (r.setSlot id slot).remove id =
        { r.setSlot id { slot with session := slot.session.beginClose } with
          registered := Function.update r.registered (r.slots id).session.token none } := by
      simp [Registry.remove, setSession, htoken, hreg]
    have hslot : SlotInv { slot with session := slot.session.beginClose } :=
      ⟨hissued, fun hg => (by cases hg), fun hc => (by cases hc)⟩
    rw [hs]
    refine ⟨fun id' => ?_, fun id' hid => ?_, fun token id' hreg' => ?_, fun id' hid hcl' => ?_⟩
    · by_cases hid : id' = id
      · subst hid; simpa using hslot
      · simpa [Function.update_of_ne hid] using h.slots id'
    · have hne : id' ≠ id := by
        simp only [setSlot_created] at hid
        omega
      simpa [Function.update_of_ne hne] using h.uncreated id' hid
    · have htok : token ≠ (r.slots id).session.token := fun heq => by simp [heq] at hreg'
      simp only [Function.update_of_ne htok] at hreg'
      obtain ⟨h₁, h₂, h₃⟩ := h.registered token id' hreg'
      have hne : id' ≠ id := fun heq => htok (by rw [← h₃, heq])
      simpa [Function.update_of_ne hne] using ⟨h₁, h₂, h₃⟩
    · have hne : id' ≠ id := fun heq => by
        subst heq
        simp [LogicalSession.beginClose] at hcl'
      simp only [setSlot_slots, Function.update_of_ne hne] at hcl' ⊢
      have hreg' := h.opened id' hid hcl'
      have htok : (r.slots id').session.token ≠ (r.slots id).session.token := fun heq => by
        rw [heq, hreg] at hreg'
        exact hne (Option.some.inj hreg').symm
      rw [Function.update_of_ne htok]
      exact hreg'
  · -- not registered: the session is closed already or was never created
    have hs : (r.setSlot id slot).remove id = r.setSlot id slot := by
      simp [Registry.remove, htoken, hreg]
    rw [hs]
    refine h.setSlot ⟨hissued, hgrace, fun hc hr => ?_⟩ ⟨htoken, hclosed⟩ hnew
    by_cases hlt : id < r.created
    · exact absurd (h.opened id hlt (hclosed ▸ hc)) hreg
    · rw [(hnew (Nat.not_lt.1 hlt)).1] at hr
      cases hr

/-- A `claim_start` creates a session in the hands of its caller. -/
theorem RegistryInv.create {r : Registry} (h : RegistryInv r)
    (token configFingerprint protocol : String) (hfree : r.registered token = none) :
    RegistryInv { r with
      slots := Function.update r.slots r.created
        ⟨.init r.limits token configFingerprint protocol, true, 0, []⟩
      created := r.created + 1
      registered := Function.update r.registered token (some r.created) } := by
  refine ⟨fun id => ?_, fun id hid => ?_, fun token' id hreg => ?_, fun id hid hcl => ?_⟩
  · by_cases hid : id = r.created
    · subst hid
      simp only [Function.update_self]
      exact ⟨fun g hg => (by cases hg), fun _ => rfl, fun _ hr => (by cases hr)⟩
    · simp only [Function.update_of_ne hid]
      exact h.slots id
  · have hne : id ≠ r.created := by simp only at hid; omega
    simp only [Function.update_of_ne hne]
    exact h.uncreated id (by simp only at hid; omega)
  · by_cases htok : token' = token
    · subst htok
      simp only [Function.update_self, Option.some.injEq] at hreg
      subst hreg
      simp [LogicalSession.init]
    · simp only [Function.update_of_ne htok] at hreg
      obtain ⟨h₁, h₂, h₃⟩ := h.registered token' id hreg
      have hne : id ≠ r.created := by omega
      simp only [Function.update_of_ne hne]
      exact ⟨by omega, h₂, h₃⟩
  · by_cases hne : id = r.created
    · subst hne
      simp [LogicalSession.init]
    · simp only [Function.update_of_ne hne] at hcl ⊢
      have hreg := h.opened id (by simp only at hid; omega) hcl
      have htok : (r.slots id).session.token ≠ token := fun heq => by
        rw [heq, hfree] at hreg
        cases hreg
      rw [Function.update_of_ne htok]
      exact hreg

section
variable (jsonLen : SessionOutput → Nat)

/-- Every operation that keeps the owners keeps the invariant of the registry. -/
theorem step_registryInv (r : Registry) (op : Op) (h : RegistryInv r) (hk : r.KeepsOwner op) :
    RegistryInv (r.step jsonLen op) := by
  cases op with
  | claimStart token configFingerprint protocol =>
      simp only [step, claimStart]
      split
      · exact h
      · split
        · next id _ =>
          split
          · exact h
          · exact h.setSlot ((h.slots id).visited _) ⟨rfl, rfl⟩ (h.uncreated id)
        · next hfree => exact h.create token configFingerprint protocol hfree
  | find token protocol =>
      simp only [step, find]
      split
      · exact h
      · next id _ =>
        split
        · exact h
        · exact h.setSlot ((h.slots id).visited _) ⟨rfl, rfl⟩ (h.uncreated id)
  | initialized id ok =>
      simp only [step, initialized]
      split
      · next hstart =>
        have hcreated : ¬ r.created ≤ id := fun hid => by
          have := (h.uncreated id hid).2
          simp [this] at hstart
        split
        · next hok =>
          refine h.setSlot ⟨(h.slots id).issued, (h.slots id).grace, fun _ _ _ _ => ?_⟩ ⟨rfl, rfl⟩
            fun hid => absurd hid hcreated
          exact .inr (.inr hok)
        · exact h.remove (h.slots id).issued (h.slots id).grace ⟨rfl, rfl⟩
            fun hid => absurd hid hcreated
      · exact h
  | attach id first seq sample =>
      simp only [step, attach]
      split
      · next hready =>
        have hcreated : ¬ r.created ≤ id := fun hid => by
          have := (h.uncreated id hid).1
          simp [this] at hready
        refine h.setSlot ((h.slots id).attach first hk) ?_ fun hid => absurd hid hcreated
        rw [slotAttach_session, LogicalSession.attach]
        split
        · exact ⟨rfl, rfl⟩
        · split <;> exact ⟨rfl, rfl⟩
      · exact h
  | giveUp id =>
      exact h.setSlot ((h.slots id).visited _) ⟨rfl, rfl⟩ (h.uncreated id)
  | detach id generation =>
      exact h.setSlot ((h.slots id).detach generation) ⟨rfl, rfl⟩ (h.uncreated id)
  | abandon id generation =>
      exact h.setSlot ((h.slots id).abandon hk) ⟨rfl, rfl⟩ (h.uncreated id)
  | output id payload =>
      simp only [step]
      split
      · next hready =>
        have hcreated : ¬ r.created ≤ id := fun hid => by
          have := (h.uncreated id hid).1
          simp [this] at hready
        refine h.setSlot ((h.slots id).output jsonLen payload) ?_ fun hid => absurd hid hcreated
        unfold LogicalSession.pumpOutput
        split <;> exact ⟨rfl, rfl⟩
      · exact h
  | acknowledge id generation seq sample =>
      refine h.setSlot ((h.slots id).acknowledge generation seq sample) ?_ fun hid => ?_
      · rw [acknowledge_session]; exact ⟨rfl, rfl⟩
      · rw [acknowledge_session]; exact h.uncreated id hid
  | terminalAck id generation seq sample =>
      have hslot := (h.slots id).terminalAck generation seq sample
      obtain ⟨ledger, hs, -⟩ := terminalAck_session (r.slots id).session generation seq sample
      simp only [step]
      rw [hs] at hslot
      split
      · next session he =>
        rw [he] at hs
        rw [show session = _ from hs]
        exact h.setSlot hslot ⟨rfl, rfl⟩ (h.uncreated id)
      · next session he =>
        rw [he] at hs
        rw [show session = _ from hs]
        exact h.remove hslot.issued hslot.grace ⟨rfl, rfl⟩ (h.uncreated id)
  | read id generation =>
      exact h.setSlot ((h.slots id).read jsonLen generation) ⟨rfl, rfl⟩ (h.uncreated id)
  | graceExpires id =>
      simp only [step, graceExpires]
      split
      · next hg =>
        have hnone := (h.slots id).grace hg
        rw [DeliveryLedger.hasAttachment, hnone]
        exact h.remove (h.slots id).issued (fun hg' => by cases hg') ⟨rfl, rfl⟩ (h.uncreated id)
      · exact h
  | terminalExpires id =>
      simp only [step, terminalExpires]
      split
      · exact h.remove (h.slots id).issued (h.slots id).grace ⟨rfl, rfl⟩ (h.uncreated id)
      · exact h
  | closeFinishes id fence =>
      simp only [step]
      split
      · next hc =>
        exact h.setSlot (SlotInv.finishClose hc fence) ⟨rfl, rfl⟩ (h.uncreated id)
      · exact h

/-- In every run of a registry whose attaches are accepted with room or rejected next to a live
attachment, and whose handlers detach what they hold, every registered session without an owner has
its expiry pending. -/
theorem no_orphaned_session (limits : LedgerLimits) (ops : List Op)
    (hk : Along (step jsonLen) KeepsOwner (init limits) ops) :
    (run (step jsonLen) (init limits) ops).NoOrphan := by
  have h := run_induct (init_registryInv limits) (step_registryInv jsonLen) hk
  intro token id hreg hready hinit hterm hlive hstart _
  obtain ⟨-, hcl, -⟩ := h.registered token id hreg
  rcases (h.slots id).owned hcl hready hinit hterm with hl | hg | hs
  · exact absurd hl hlive
  · exact hg
  · rw [hstart] at hs
    cases hs

end

/-- A session whose client left and came back: the second attach supersedes nothing, and after the
second detach the expiry is pending again. -/
theorem no_orphaned_session_reconnect :
    (run (step fun _ => 1) (init ⟨10, 4, by decide, by decide⟩)
      [.claimStart "token" "config" "native", .initialized 0 true, .attach 0 true 0 0,
        .detach 0 1, .find "token" "native", .attach 0 false 0 0, .detach 0 2]).NoOrphan := by
  refine no_orphaned_session (fun _ => 1) ⟨10, 4, by decide, by decide⟩ _ ?_
  refine ⟨trivial, trivial, fun _ => .inl ⟨rfl, ?_⟩, trivial, trivial, fun _ => .inl ⟨rfl, ?_⟩,
    trivial, trivial⟩
  all_goals
    rintro (⟨old, ha, -⟩ | hlong)
    · cases ha
    · exact absurd hlong (by decide)

/-- A reconnect with a cursor the ledger rejects: the grace task is cancelled, nobody is attached,
and nothing will ever end the session. -/
theorem rejected_reconnect_orphans :
    let r := run (step fun _ => 1) (init ⟨10, 4, by decide, by decide⟩)
      [.claimStart "token" "config" "native", .initialized 0 true, .attach 0 true 0 0,
        .detach 0 1, .find "token" "native", .attach 0 false 5 0]
    ¬ r.NoOrphan := by
  intro r h
  have hlive : ¬ (r.slots 0).Live := by
    rintro ⟨g, -, hg⟩
    cases hg
  exact absurd (h "token" 0 rfl rfl rfl rfl hlive rfl rfl) (by decide)

end Registry

end StreamingTts.Session
