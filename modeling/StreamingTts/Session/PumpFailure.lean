import StreamingTts.Session.LedgerDelivery
import StreamingTts.Session.Resumable

/-!
# When a stopped pump is noticed

The output pump of a resumable session stops at the first error `publish` raises and raises nothing
itself, so a client learns of it only through the ledger: a recorded failure makes every later
`attach` raise, a terminal ends the stream. `publish` raises from three places and records a failure
in one of them. `PublishSeen` is the condition under which a failing `publish` leaves a trace, and
`pump_failure_visible_iff` says that it is exactly what makes every stopped pump visible.
-/

namespace StreamingTts.Session

open Lib (Along along_cons run)

/-! ## The trace an operation leaves in the ledger -/

/-- The operation neither recorded a failure nor a terminal, nor let go of one. -/
def SameTrace (l l' : DeliveryLedger) : Prop :=
  l'.terminal = l.terminal ∧ l'.failure = l.failure

namespace DeliveryLedger

theorem attach_sameTrace (s : DeliveryLedger) (seq sample : Int) :
    SameTrace s (s.attach seq sample).2 := by
  cases hc : s.checkAttach seq sample with
  | error e => rw [attach_of_refused hc]; exact ⟨rfl, rfl⟩
  | ok u =>
      obtain ⟨queues, hs⟩ := attach_of_checked hc
      rw [hs]
      exact ⟨rfl, rfl⟩

theorem detach_sameTrace (s : DeliveryLedger) (generation : Nat) :
    SameTrace s (s.detach generation).2 := by
  unfold detach
  split <;> exact ⟨rfl, rfl⟩

theorem trim_sameTrace (seq sample : Int) (rs : List ReliableDelivery) (s : DeliveryLedger) :
    SameTrace s (trim seq sample rs s) := by
  induction rs generalizing s with
  | nil => exact ⟨rfl, rfl⟩
  | cons r rs ih =>
      unfold trim
      split_ifs
      · exact ⟨rfl, rfl⟩
      · exact ⟨rfl, rfl⟩
      · exact ih _

theorem acknowledge_sameTrace (s : DeliveryLedger) (generation : Nat) (seq sample : Int) :
    SameTrace s (s.acknowledge generation seq sample).2 := by
  unfold acknowledge
  split
  · exact ⟨rfl, rfl⟩
  · split
    · exact ⟨rfl, rfl⟩
    · split
      · exact ⟨rfl, rfl⟩
      · split
        · exact ⟨rfl, rfl⟩
        · split_ifs
          · exact ⟨rfl, rfl⟩
          · exact ⟨rfl, rfl⟩
          · exact trim_sameTrace ..

theorem terminalAck_sameTrace (s : DeliveryLedger) (generation : Nat) :
    SameTrace s (s.terminalAck generation).2 := by
  unfold terminalAck
  split
  · exact ⟨rfl, rfl⟩
  · split <;> exact ⟨rfl, rfl⟩

theorem close_sameTrace (s : DeliveryLedger) (fence : Bool) : SameTrace s (s.close fence).2 := by
  unfold close
  dsimp only
  split
  · exact ⟨rfl, rfl⟩
  · next generation _ =>
    split
    · obtain ⟨queues, hq⟩ := putControl_frame
        { s with attachment := none, records := [], retainedBytes := 0 } generation
        (.fence (s.generation + 1))
      rw [hq]
      exact ⟨rfl, rfl⟩
    · exact ⟨rfl, rfl⟩

/-- A `publish` of this payload does not fail without a trace: its sample range is good, and unless
it is the terminal output it does not meet a full queue after it was numbered. -/
def PublishSeen (jsonLen : SessionOutput → Nat) (s : DeliveryLedger) (payload : SessionOutput) :
    Prop :=
  s.terminal.isSome = true ∨
    (∃ range, s.sampleRange payload = .ok range) ∧
      (terminalOf payload = none → s.HasRoom jsonLen (.publish payload))

section
variable (jsonLen : SessionOutput → Nat)

/-- A message to the current attachment is refused iff its queue is full. -/
theorem notify_ok_iff (s : DeliveryLedger) (message : LedgerMessage) :
    (s.notify message).1 = .ok () ↔ ∀ g, s.attachment = some g →
      (s.queues g).full s.limits.attachmentQueueMaxsize = false := by
  unfold notify
  cases ha : s.attachment with
  | none => simp
  | some g =>
      simp only [Option.some.injEq, forall_eq']
      cases hf : (s.queues g).full s.limits.attachmentQueueMaxsize with
      | true =>
          obtain ⟨e, he⟩ := putControl_of_full s g message hf
          simp [he]
      | false =>
          obtain ⟨q, hput, -⟩ := putControl_of_room s g message hf
          simp [hput]

/-- `publish` of a payload that is numbered raises iff the queue is full, and records a terminal iff
the payload is one. -/
theorem publish_of_admits {s : DeliveryLedger} {payload : SessionOutput} {range : Int × Int}
    (h : s.Admits jsonLen payload range) :
    ((∃ r, (s.publish jsonLen payload).1 = .ok r) ↔ ∀ g, s.attachment = some g →
        (s.queues g).full s.limits.attachmentQueueMaxsize = false) ∧
      (s.publish jsonLen payload).2.terminal = terminalOf payload ∧
      (s.publish jsonLen payload).2.failure = s.failure := by
  obtain ⟨ht, hr, hfit⟩ := h
  generalize hrec : s.recordOf jsonLen payload range = r
  have hpayload : r.payload = payload := by rw [← hrec]; rfl
  have hok := notify_ok_iff (s.append r) (.delivery r)
  obtain ⟨queues, hn⟩ := notify_frame (s.append r) (.delivery r)
  have htrace : (s.append r).terminal = terminalOf payload ∧ (s.append r).failure = s.failure := by
    simp [append, hpayload, ht]
  have hterm : ¬ s.terminal.isSome = true := by simp [ht]
  cases hq : (s.append r).notify (.delivery r) with
  | mk result s' =>
      rw [hq] at hn hok
      have hs' : s' = (s.append r).setQueues queues := hn
      cases result with
      | ok u =>
          have hpub : s.publish jsonLen payload = (.ok r, s') := by
            rw [publish, if_neg hterm, hr]
            dsimp only
            rw [if_neg (Int.not_lt.2 hfit), hrec, hq]
          rw [hpub, hs']
          exact ⟨iff_of_true ⟨r, rfl⟩ (hok.1 rfl), htrace⟩
      | error e =>
          have hpub : s.publish jsonLen payload = (.error e, s') := by
            rw [publish, if_neg hterm, hr]
            dsimp only
            rw [if_neg (Int.not_lt.2 hfit), hrec, hq]
          rw [hpub, hs']
          refine ⟨iff_of_false ?_ (fun h => ?_), htrace⟩
          · rintro ⟨_, h⟩
            cases h
          · cases hok.2 h

/-- `publish` returns only if it numbered the payload. -/
theorem admits_of_publish {s : DeliveryLedger} {payload : SessionOutput} {r : ReliableDelivery}
    (h : (s.publish jsonLen payload).1 = .ok r) : ∃ range, s.Admits jsonLen payload range := by
  unfold publish at h
  split at h
  · cases h
  · next hterm =>
    split at h
    · cases h
    · next range hr =>
      split at h
      · split at h <;> cases h
      · next hfit => exact ⟨range, by simpa using hterm, hr, Int.not_lt.1 hfit⟩

/-- In a ledger without a failure, a failing `publish` leaves a terminal or a failure exactly for
the payloads that are seen. -/
theorem publish_seen_iff {s : DeliveryLedger} (hf : s.failure = none) (payload : SessionOutput) :
    (∀ e, (s.publish jsonLen payload).1 = .error e →
        (s.publish jsonLen payload).2.terminal.isSome = true ∨
          (s.publish jsonLen payload).2.failure.isSome = true) ↔
      s.PublishSeen jsonLen payload := by
  cases ht : s.terminal with
  | some o =>
      have hs : s.publish jsonLen payload =
          (.error ⟨.sessionTerminal, "cannot publish after terminal"⟩, s) := by
        simp [publish, ht]
      simp [PublishSeen, hs, ht]
  | none =>
      cases hr : s.sampleRange payload with
      | error e =>
          have hs : s.publish jsonLen payload = (.error e, s) := by simp [publish, ht, hr]
          simp [PublishSeen, hs, ht, hr, hf]
      | ok range =>
          by_cases hfit : s.retainedBytes + payloadSize jsonLen payload ≤ s.limits.maxBufferBytes
          · have hadm : s.Admits jsonLen payload range := ⟨ht, hr, hfit⟩
            obtain ⟨hok, hterm, hfail⟩ := publish_of_admits jsonLen hadm
            rw [hterm, hfail, hf]
            have hroom : s.HasRoom jsonLen (.publish payload) ↔ ∀ g, s.attachment = some g →
                (s.queues g).full s.limits.attachmentQueueMaxsize = false :=
              ⟨fun h g => h range g hadm, fun h _ g _ => h g⟩
            simp only [PublishSeen, ht, hr, hroom, ← hok]
            cases hto : terminalOf payload with
            | some o => simp
            | none =>
                cases (s.publish jsonLen payload).1 with
                | ok r => simp
                | error e => simp
          · -- the window is exceeded: the failure is recorded, whatever the queue says
            obtain ⟨queues, hn⟩ :=
              notify_frame { s with failure := some bufferExceeded } (.failure bufferExceeded)
            have hs : (s.publish jsonLen payload).2 =
                { s with failure := some bufferExceeded }.setQueues queues := by
              rw [publish, if_neg (by simp [ht]), hr]
              dsimp only
              rw [if_pos (Int.not_le.1 hfit), ← hn]
              split <;> next hq => rw [hq]
            have hno : s.HasRoom jsonLen (.publish payload) := fun range' g hadm =>
              absurd hadm.2.2 hfit
            simp [PublishSeen, hs, hr, hno]

end

end DeliveryLedger

/-! ## Every session of a registry -/

namespace Registry

/-- A pump that was stopped by an error of the ledger is noticed: the ledger holds a terminal or a
failure, and a later attach succeeds only on a stream that has its terminal. -/
def FailureVisible (s : LogicalSession) : Prop :=
  ∀ e, s.pump = .stopped e →
    (s.ledger.terminal.isSome = true ∨ s.ledger.failure.isSome = true) ∧
      ∀ seq sample generation s', s.attach seq sample = (.ok generation, s') →
        s.ledger.terminal.isSome = true

/-- A recorded failure makes every attach raise. -/
theorem failureVisible_of_trace {s : LogicalSession}
    (h : ∀ e, s.pump = .stopped e →
      s.ledger.terminal.isSome = true ∨ s.ledger.failure.isSome = true) : FailureVisible s := by
  intro e he
  refine ⟨h e he, ?_⟩
  intro seq sample generation s' hatt
  rcases h e he with hterm | hfail
  · exact hterm
  · obtain ⟨e', hf⟩ := Option.isSome_iff_exists.1 hfail
    have hc : ∃ e'', s.ledger.checkAttach seq sample = .error e'' := by
      unfold DeliveryLedger.checkAttach
      rw [hf]
      split
      · exact ⟨_, rfl⟩
      · exact ⟨_, rfl⟩
    obtain ⟨e'', hc⟩ := hc
    unfold LogicalSession.attach at hatt
    rw [DeliveryLedger.attach_of_refused hc] at hatt
    split_ifs at hatt
    · cases hatt
    · cases hatt

/-- The session changed without a turn of its pump: the ledger's traces are the same, and the pump
is as before or was cancelled while it ran. -/
def Quiet (s s' : LogicalSession) : Prop :=
  SameTrace s.ledger s'.ledger ∧ (s'.pump = s.pump ∨ s.pump = .running ∧ s'.pump = .cancelled)

theorem Quiet.refl (s : LogicalSession) : Quiet s s := ⟨⟨rfl, rfl⟩, .inl rfl⟩

theorem Quiet.trans {s s' s'' : LogicalSession} (h : Quiet s s') (h' : Quiet s' s'') :
    Quiet s s'' := by
  obtain ⟨⟨ht, hf⟩, hp⟩ := h
  obtain ⟨⟨ht', hf'⟩, hp'⟩ := h'
  refine ⟨⟨ht'.trans ht, hf'.trans hf⟩, ?_⟩
  rcases hp with hp | ⟨hr, hp⟩
  · rw [← hp]; exact hp'
  · rcases hp' with hp' | ⟨hr', -⟩
    · exact .inr ⟨hr, hp'.trans hp⟩
    · rw [hp] at hr'; cases hr'

theorem attach_quiet (s : LogicalSession) (seq sample : Int) : Quiet s (s.attach seq sample).2 := by
  have ht := s.ledger.attach_sameTrace seq sample
  unfold LogicalSession.attach
  split
  · exact .refl s
  · split <;> next h => rw [h] at ht; exact ⟨ht, .inl rfl⟩

/-- The session in a slot after an attach is the attached session. -/
theorem slotAttach_session (slot : SessionSlot) (first : Bool) (seq sample : Int) :
    (slot.attach first seq sample).session = (slot.session.attach seq sample).2 := by
  unfold SessionSlot.attach
  split <;> next h => rw [h]

theorem acknowledge_quiet (s : LogicalSession) (generation : Nat) (seq sample : Int) :
    Quiet s (s.acknowledge generation seq sample).2 := by
  have ht := s.ledger.acknowledge_sameTrace generation seq sample
  unfold LogicalSession.acknowledge
  split <;> next h => rw [h] at ht; exact ⟨ht, .inl rfl⟩

theorem terminalAck_quiet (s : LogicalSession) (generation : Nat) (seq sample : Int) :
    Quiet s (s.terminalAck generation seq sample).2 := by
  have hq := acknowledge_quiet s generation seq sample
  unfold LogicalSession.terminalAck
  split
  · next h => rw [h] at hq; exact hq
  · next s' h =>
    rw [h] at hq
    have ht := s'.ledger.terminalAck_sameTrace generation
    split <;> next h' => rw [h'] at ht; exact hq.trans ⟨ht, .inl rfl⟩

theorem finishClose_quiet (s : LogicalSession) (fence : Bool) : Quiet s (s.finishClose fence) := by
  refine ⟨s.ledger.close_sameTrace fence, ?_⟩
  by_cases hp : s.pump = .running
  · exact .inr ⟨hp, if_pos hp⟩
  · exact .inl (if_neg hp)

/-- Every session changed quietly. -/
def QuietStep (r r' : Registry) : Prop := ∀ id, Quiet (r.slots id).session (r'.slots id).session

theorem QuietStep.refl (r : Registry) : QuietStep r r := fun _ => .refl _

theorem setSlot_quiet {r : Registry} {id : Nat} {slot : SessionSlot}
    (h : Quiet (r.slots id).session slot.session) : QuietStep r (r.setSlot id slot) := by
  intro id'
  by_cases hid : id' = id
  · subst hid; simpa using h
  · simpa [Function.update_of_ne hid] using Quiet.refl _

theorem remove_quiet (r : Registry) (id : Nat) : QuietStep r (r.remove id) := by
  unfold remove
  dsimp only
  split
  · intro id'
    by_cases hid : id' = id
    · subst hid; simpa [setSession] using ⟨⟨rfl, rfl⟩, .inl rfl⟩
    · simpa [setSession, Function.update_of_ne hid] using Quiet.refl _
  · exact .refl r

theorem QuietStep.trans {r r' r'' : Registry} (h : QuietStep r r') (h' : QuietStep r' r'') :
    QuietStep r r'' := fun id => (h id).trans (h' id)

/-- An operation that takes an output of the session `id`, whose pump is running. -/
def PumpTurn (r : Registry) (id : Nat) (payload : SessionOutput) (op : Op) : Prop :=
  op = .output id payload ∧ (r.slots id).session.ready = true ∧
    (r.slots id).session.initializationFailed = false ∧ (r.slots id).session.pump = .running

/-- What an operation does to the sessions: all of them change quietly, or one of them is created,
or the pump of one takes an output. -/
theorem step_sessions (jsonLen : SessionOutput → Nat) (r : Registry) (op : Op) :
    QuietStep r (r.step jsonLen op) ∨
      (∃ id token configFingerprint protocol, (r.step jsonLen op).slots =
        Function.update r.slots id
          ⟨.init r.limits token configFingerprint protocol, true, 0, []⟩) ∨
      ∃ id payload, r.PumpTurn id payload op ∧ r.step jsonLen op =
        r.setSession id ((r.slots id).session.pumpOutput jsonLen payload) := by
  cases op with
  | claimStart token configFingerprint protocol =>
      simp only [step, claimStart]
      split
      · exact .inl (.refl r)
      · split
        · split
          · exact .inl (.refl r)
          · exact .inl (setSlot_quiet (.refl _))
        · exact .inr (.inl ⟨r.created, token, configFingerprint, protocol, rfl⟩)
  | find token protocol =>
      simp only [step, find]
      split
      · exact .inl (.refl r)
      · split
        · exact .inl (.refl r)
        · exact .inl (setSlot_quiet (.refl _))
  | initialized id ok =>
      simp only [step, initialized]
      have hset : QuietStep r (r.setSlot id { r.slots id with
          session := (r.slots id).session.initializeWith ok, starting := ok }) :=
        setSlot_quiet ⟨⟨rfl, rfl⟩, .inl rfl⟩
      split
      · split
        · exact .inl hset
        · exact .inl (hset.trans (remove_quiet _ id))
      · exact .inl (.refl r)
  | attach id first seq sample =>
      have hq := attach_quiet (r.slots id).session seq sample
      rw [← slotAttach_session (r.slots id) first] at hq
      simp only [step, attach]
      split
      · exact .inl (setSlot_quiet hq)
      · exact .inl (.refl r)
  | giveUp id => exact .inl (setSlot_quiet (.refl _))
  | detach id generation =>
      exact .inl (setSlot_quiet ⟨(r.slots id).session.ledger.detach_sameTrace generation, .inl rfl⟩)
  | abandon id generation => exact .inl (setSlot_quiet (.refl _))
  | output id payload =>
      simp only [step]
      split
      · next h => exact .inr (.inr ⟨id, payload, ⟨rfl, h⟩, rfl⟩)
      · exact .inl (.refl r)
  | acknowledge id generation seq sample =>
      exact .inl (setSlot_quiet (acknowledge_quiet _ generation seq sample))
  | terminalAck id generation seq sample =>
      have hq := terminalAck_quiet (r.slots id).session generation seq sample
      simp only [step]
      split
      · next h => rw [h] at hq; exact .inl (setSlot_quiet hq)
      · next h => rw [h] at hq; exact .inl ((setSlot_quiet hq).trans (remove_quiet _ id))
  | read id generation => exact .inl (setSlot_quiet ⟨⟨rfl, rfl⟩, .inl rfl⟩)
  | graceExpires id =>
      simp only [step, graceExpires]
      have hset : QuietStep r (r.setSession id { (r.slots id).session with graceTask := false }) :=
        setSlot_quiet ⟨⟨rfl, rfl⟩, .inl rfl⟩
      split
      · split
        · exact .inl hset
        · exact .inl (hset.trans (remove_quiet _ id))
      · exact .inl (.refl r)
  | terminalExpires id =>
      simp only [step, terminalExpires]
      have hset : QuietStep r
          (r.setSession id { (r.slots id).session with terminalTask := false }) :=
        setSlot_quiet ⟨⟨rfl, rfl⟩, .inl rfl⟩
      split
      · exact .inl (hset.trans (remove_quiet _ id))
      · exact .inl (.refl r)
  | closeFinishes id fence =>
      simp only [step]
      split
      · exact .inl (setSlot_quiet (finishClose_quiet _ fence))
      · exact .inl (.refl r)

/-! ## Stopped pumps are visible exactly when the failing outputs are seen -/

/-- The invariant: a running pump has seen no failure, and a stopped one left a trace. -/
def PumpInv (s : LogicalSession) : Prop :=
  (s.pump = .running → s.ledger.failure = none) ∧
    ∀ e, s.pump = .stopped e →
      s.ledger.terminal.isSome = true ∨ s.ledger.failure.isSome = true

theorem Quiet.pumpInv {s s' : LogicalSession} (hq : Quiet s s') (h : PumpInv s) : PumpInv s' := by
  obtain ⟨⟨ht, hf⟩, hp⟩ := hq
  rcases hp with hp | ⟨-, hp⟩
  · rw [PumpInv, ht, hf, hp]
    exact h
  · exact ⟨fun h' => by simp [hp] at h', fun e h' => by simp [hp] at h'⟩

/-- Every output the pumps take is seen if its publish fails. -/
def OutputSeen (jsonLen : SessionOutput → Nat) (r : Registry) (op : Op) : Prop :=
  ∀ id payload, r.PumpTurn id payload op → (r.slots id).session.ledger.PublishSeen jsonLen payload

/-- Every stopped pump of the registry is noticed. -/
def FailuresVisible (r : Registry) : Prop := ∀ id, FailureVisible (r.slots id).session

section
variable (jsonLen : SessionOutput → Nat)

/-- A pump that goes on after an output has recorded no failure. -/
theorem pumpOutput_running {s : LogicalSession} (hf : s.ledger.failure = none)
    {payload : SessionOutput} (hrun : (s.pumpOutput jsonLen payload).pump = .running) :
    (s.pumpOutput jsonLen payload).ledger.failure = none := by
  cases hp : s.ledger.publish jsonLen payload with
  | mk result ledger =>
      cases result with
      | error e => simp [LogicalSession.pumpOutput, hp] at hrun
      | ok r =>
          obtain ⟨range, ha⟩ := DeliveryLedger.admits_of_publish jsonLen
            (show (s.ledger.publish jsonLen payload).1 = .ok r by rw [hp])
          have hsame := (DeliveryLedger.publish_of_admits jsonLen ha).2.2
          rw [hp] at hsame
          simpa [LogicalSession.pumpOutput, hp] using hsame.trans hf

/-- An output leaves a trace if it stops the pump iff it is seen. -/
theorem pumpOutput_trace_iff {s : LogicalSession} (hf : s.ledger.failure = none)
    (payload : SessionOutput) :
    (∀ e, (s.pumpOutput jsonLen payload).pump = .stopped e →
        (s.pumpOutput jsonLen payload).ledger.terminal.isSome = true ∨
          (s.pumpOutput jsonLen payload).ledger.failure.isSome = true) ↔
      s.ledger.PublishSeen jsonLen payload := by
  rw [← DeliveryLedger.publish_seen_iff jsonLen hf payload]
  cases hp : s.ledger.publish jsonLen payload with
  | mk result ledger =>
      cases result with
      | error e => simp [LogicalSession.pumpOutput, hp]
      | ok r =>
          refine iff_of_true ?_ (fun e he => by cases he)
          intro e he
          simp only [LogicalSession.pumpOutput, hp] at he
          split at he <;> cases he

/-- Every operation of a registry keeps the invariant of every session, provided the outputs its
pumps take are seen. -/
theorem step_pumpInv {r : Registry} (h : ∀ id, PumpInv (r.slots id).session) {op : Op}
    (hseen : r.OutputSeen jsonLen op) (id : Nat) :
    PumpInv ((r.step jsonLen op).slots id).session := by
  rcases step_sessions jsonLen r op with hq | ⟨id', token, fp, protocol, hs⟩ |
    ⟨id', payload, hturn, hs⟩
  · exact (hq id).pumpInv (h id)
  · rw [hs]
    by_cases hid : id = id'
    · subst hid
      simp only [Function.update_self]
      exact ⟨fun _ => rfl, fun e he => by cases he⟩
    · rw [Function.update_of_ne hid]
      exact h id
  · rw [hs]
    by_cases hid : id = id'
    · subst hid
      simp only [setSession, setSlot_slots, Function.update_self]
      have hf := (h id).1 hturn.2.2.2
      exact ⟨pumpOutput_running jsonLen hf,
        (pumpOutput_trace_iff jsonLen hf payload).2 (hseen id payload hturn)⟩
    · simp only [setSession, setSlot_slots, Function.update_of_ne hid]
      exact h id

/-- An output that is not seen stops its pump without a trace. -/
theorem not_visible_of_not_seen {r : Registry} (h : ∀ id, PumpInv (r.slots id).session) {op : Op}
    (hseen : ¬ r.OutputSeen jsonLen op) : ¬ (r.step jsonLen op).FailuresVisible := by
  simp only [OutputSeen, not_forall] at hseen
  obtain ⟨id, payload, hturn, hno⟩ := hseen
  obtain ⟨rfl, hready, hinit, hrun⟩ := hturn
  have hs : r.step jsonLen (.output id payload) =
      r.setSession id ((r.slots id).session.pumpOutput jsonLen payload) :=
    if_pos ⟨hready, hinit, hrun⟩
  rw [← pumpOutput_trace_iff jsonLen ((h id).1 hrun) payload] at hno
  intro hvis
  have hv := hvis id
  rw [hs] at hv
  simp only [setSession, setSlot_slots, Function.update_self] at hv
  exact hno fun e he => (hv e he).1

/-- In every run of a registry, every stopped pump is visible after every operation exactly when
every output the pumps take is seen if its publish fails. -/
theorem pump_failure_visible_iff (limits : LedgerLimits) (ops : List Op) :
    Along (step jsonLen) (fun r op => (r.step jsonLen op).FailuresVisible) (init limits) ops ↔
      Along (step jsonLen) (fun r op => r.OutputSeen jsonLen op) (init limits) ops := by
  suffices h : ∀ r : Registry, (∀ id, PumpInv (r.slots id).session) →
      (Along (step jsonLen) (fun r op => (r.step jsonLen op).FailuresVisible) r ops ↔
        Along (step jsonLen) (fun r op => r.OutputSeen jsonLen op) r ops) from
    h (init limits) fun _ => ⟨fun _ => rfl, fun e he => by cases he⟩
  intro r hr
  induction ops generalizing r with
  | nil => exact Iff.rfl
  | cons op ops ih =>
      rw [along_cons, along_cons]
      by_cases hseen : r.OutputSeen jsonLen op
      · have hr' := step_pumpInv jsonLen hr hseen
        have hvis : (r.step jsonLen op).FailuresVisible := fun id =>
          failureVisible_of_trace (hr' id).2
        simp only [hseen, hvis, true_and]
        exact ih _ hr'
      · exact iff_of_false (fun h => not_visible_of_not_seen jsonLen hr hseen h.1)
          (fun h => hseen h.1)

end

/-- An audio output with a gap in its samples: the pump stops, the ledger shows nothing, and the
next client is attached to a stream that will never produce anything. -/
theorem sample_gap_invisible :
    let ops : List Op :=
      [.claimStart "token" "config" "native", .initialized 0 true, .attach 0 true 0 0,
        .output 0 (.audio ⟨"sid", [0], ⟨"pcm_u8", 24000, 1⟩, 5, 6, []⟩)]
    let s := ((run (step fun _ => 1) (init ⟨10, 4, by decide, by decide⟩) ops).slots 0).session
    ¬ Along (step fun _ => 1) (fun r op => (r.step (fun _ => 1) op).FailuresVisible)
        (init ⟨10, 4, by decide, by decide⟩) ops ∧
      s.ledger.terminal = none ∧ s.ledger.failure = none ∧ (s.attach 0 0).1 = .ok 2 := by
  intro ops s
  refine ⟨?_, rfl, rfl, rfl⟩
  rintro ⟨-, -, -, h, -⟩
  have hv := (h 0 ⟨.sampleGap, "audio output samples must continue the canonical cursor"⟩ rfl).1
  exact absurd hv (by decide)

end Registry

end StreamingTts.Session
