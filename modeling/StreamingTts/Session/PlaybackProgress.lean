import StreamingTts.Lib.Coroutine
import StreamingTts.Session.LedgerLog
import StreamingTts.Session.Resumable

/-!
# Playback progress of a logical session

`ResumableLogicalSession.record_playback_progress` of `engine/session/resumable.py`, beside the operations
that publish, acknowledge, attach and detach. It takes the lock of the ledger twice, once to check the
generation and once to find the end of the observed delivery, and no lock is held from the first check to
the assignment. Every section under that lock awaits nothing, so it is free whenever a task runs, and
taking a free lock does not give the control away: the call is one step of the event loop after all.
-/

namespace StreamingTts.Session

open Lib

/-- The part of a session that playback feedback works on. -/
structure PlaybackSession where
  ledger : DeliveryLedger
  playedThroughSample : Int
  bufferedThroughSample : Int

namespace PlaybackSession

/-- The calls of a session. -/
inductive Call
  | recordPlaybackProgress (generation : Nat) (played buffered observed : Int)
  | attach (lastDeliverySeq audioThroughSample : Int)
  | detach (generation : Nat)
  | publish (payload : SessionOutput)
  | acknowledge (generation : Nat) (throughDeliverySeq audioThroughSample : Int)
  deriving DecidableEq, Repr

/-- A new session. -/
def init (limits : LedgerLimits) : PlaybackSession := ⟨.init limits, 0, 0⟩

/-- The session with another ledger. -/
def setLedger (s : PlaybackSession) (ledger : DeliveryLedger) : PlaybackSession :=
  { s with ledger := ledger }

/-- How a call returns. -/
abbrev Result := Except ResumableSessionError Unit

/-- A rejected feedback. -/
def invalidProgress (message : String) : ResumableSessionError :=
  ⟨"invalid_playback_progress", message⟩

/-- A result of the ledger, with its error re-raised. -/
def ofLedger {α : Type} : Except LedgerError α → Result
  | .ok _ => .ok ()
  | .error e => .error (.ofLedger e)

/-- An operation of the ledger under its lock. -/
def ledgerCall {α : Type} (operation : DeliveryLedger → Except LedgerError α × DeliveryLedger) :
    Coroutine PlaybackSession Result :=
  .locked (fun s => s.setLedger (operation s.ledger).2)
    fun s => .ret (ofLedger (operation s.ledger).1)

/-- The end of `record_playback_progress`, behind its checks. -/
def observe (played buffered observed : Int) : Coroutine PlaybackSession Result :=
  .locked id fun s =>
    match s.ledger.audioEndThroughDelivery observed with
    | .error e => .ret (.error (.ofLedger e))
    | .ok limit =>
        if limit < buffered then
          .ret (.error (invalidProgress "buffered_through_sample is ahead of observed output"))
        else
          .unlocked
            (fun s => { s with playedThroughSample := played, bufferedThroughSample := buffered })
            fun _ => .ret (.ok ())

/-- `record_playback_progress`. -/
def recordPlaybackProgress (generation : Nat) (played buffered observed : Int) :
    Coroutine PlaybackSession Result :=
  .locked id fun s =>
    match s.ledger.requireGeneration generation with
    | .error e => .ret (.error (.ofLedger e))
    | .ok () =>
        .unlocked id fun s =>
          if played < 0 ∨ buffered < 0 then
            .ret (.error (invalidProgress "playback samples must be non-negative"))
          else if buffered < played then
            .ret (.error (invalidProgress
              "buffered_through_sample must be >= played_through_sample"))
          else if played ≤ s.playedThroughSample ∧ buffered ≤ s.bufferedThroughSample then
            .ret (.ok ())
          else if played < s.playedThroughSample ∨ buffered < s.bufferedThroughSample then
            .ret (.error (invalidProgress "playback progress cannot move backwards"))
          else observe played buffered observed

section
variable (jsonLen : SessionOutput → Nat)

/-- The task of a call. `attach` waits until the session is ready. -/
def start : Call → Coroutine PlaybackSession Result
  | .recordPlaybackProgress generation played buffered observed =>
      recordPlaybackProgress generation played buffered observed
  | .attach seq sample => .suspend (ledgerCall (·.attach seq sample))
  | .detach generation =>
      .locked (fun s => s.setLedger (s.ledger.detach generation).2) fun _ => .ret (.ok ())
  | .publish payload => ledgerCall (·.publish jsonLen payload)
  | .acknowledge generation seq sample => ledgerCall (·.acknowledge generation seq sample)

/-- The feedback is within what was put out. -/
structure InBounds (s : PlaybackSession) : Prop where
  nonneg : 0 ≤ s.playedThroughSample
  ordered : s.playedThroughSample ≤ s.bufferedThroughSample
  behind : s.bufferedThroughSample ≤ s.ledger.nextAudioSample

/-! ## One call -/

/-- The feedback does not give the control away. -/
theorem recordPlaybackProgress_prompt (generation : Nat) (played buffered observed : Int) :
    (recordPlaybackProgress generation played buffered observed).Prompt := by
  refine .locked fun s => ?_
  split
  · exact .ret _
  · refine .unlocked fun s => ?_
    split
    · exact .ret _
    · split
      · exact .ret _
      · split
        · exact .ret _
        · split
          · exact .ret _
          · refine .locked fun s => ?_
            split
            · exact .ret _
            · split
              · exact .ret _
              · exact .unlocked fun _ => .ret _

variable {s : PlaybackSession}

/-- What the feedback does when it finds the lock free: it changes nothing, or it is accepted for the
current attachment and moves both samples forward, not beyond the observed delivery. -/
theorem recordPlaybackProgress_cases (s : PlaybackSession) (generation : Nat)
    (played buffered observed : Int) :
    (∃ result, (recordPlaybackProgress generation played buffered observed).advance false s
        = (.ret result, s))
      ∨ (recordPlaybackProgress generation played buffered observed).advance false s
          = (.ret (.ok ()),
            { s with playedThroughSample := played, bufferedThroughSample := buffered })
        ∧ s.ledger.attachment = some generation ∧ 0 ≤ played ∧ played ≤ buffered
        ∧ s.playedThroughSample ≤ played ∧ s.bufferedThroughSample ≤ buffered
        ∧ ∃ limit, s.ledger.audioEndThroughDelivery observed = .ok limit ∧ buffered ≤ limit := by
  have hheld : ¬ false = true := Bool.false_ne_true
  unfold recordPlaybackProgress
  simp only [Coroutine.advance, if_neg hheld, id_eq]
  cases hgeneration : s.ledger.requireGeneration generation with
  | error e => exact .inl ⟨_, rfl⟩
  | ok u =>
      have hattached : s.ledger.attachment = some generation := by
        unfold DeliveryLedger.requireGeneration at hgeneration
        split at hgeneration
        · assumption
        · cases hgeneration
      simp only [Coroutine.advance, id_eq]
      split
      · exact .inl ⟨_, rfl⟩
      · next hnonneg =>
        split
        · exact .inl ⟨_, rfl⟩
        · next hordered =>
          split
          · exact .inl ⟨_, rfl⟩
          · split
            · exact .inl ⟨_, rfl⟩
            · next hforward =>
              unfold observe
              simp only [Coroutine.advance, if_neg hheld, id_eq]
              cases hlimit : s.ledger.audioEndThroughDelivery observed with
              | error e => exact .inl ⟨_, rfl⟩
              | ok limit =>
                  dsimp only
                  split
                  · exact .inl ⟨_, rfl⟩
                  · next hbehind =>
                    refine .inr ⟨rfl, hattached, ?_⟩
                    exact ⟨by omega, by omega, by omega, by omega, limit, rfl, by omega⟩

/-- The end of an observed delivery is not behind the output. -/
theorem audioEndThroughDelivery_le {ledger : DeliveryLedger} (h : DeliveryLedger.LogInv ledger)
    {observed limit : Int} (hlimit : ledger.audioEndThroughDelivery observed = .ok limit) :
    limit ≤ ledger.nextAudioSample := by
  unfold DeliveryLedger.audioEndThroughDelivery at hlimit
  split at hlimit
  · cases hlimit
  · split at hlimit
    · cases hlimit
      exact h.chained.le.2
    · split at hlimit
      · cases hlimit
      · split at hlimit
        · cases hlimit
          exact le_refl _
        · split at hlimit
          · next sample hfound =>
            cases hlimit
            obtain ⟨r, hr, -, hend⟩ := (h.chained.findEnd_eq _ _).1 hfound
            rw [← hend]
            exact (h.chained.mem hr).2.2.2
          · cases hlimit

/-- Trimming does not change what was put out. -/
theorem trim_nextAudioSample (seq sample : Int) (rs : List ReliableDelivery)
    (ledger : DeliveryLedger) :
    (DeliveryLedger.trim seq sample rs ledger).nextAudioSample = ledger.nextAudioSample := by
  induction rs generalizing ledger with
  | nil => rfl
  | cons r rs ih =>
      unfold DeliveryLedger.trim
      split
      · rfl
      · split
        · rfl
        · exact ih _

/-- Neither does an acknowledgement. -/
theorem acknowledge_nextAudioSample (ledger : DeliveryLedger) (generation : Nat)
    (seq sample : Int) :
    (ledger.acknowledge generation seq sample).2.nextAudioSample = ledger.nextAudioSample := by
  unfold DeliveryLedger.acknowledge
  split
  · rfl
  · split
    · rfl
    · split
      · rfl
      · split
        · rfl
        · split
          · rfl
          · split
            · rfl
            · exact trim_nextAudioSample _ _ _ _

/-- What the ledger has put out does not get less. -/
theorem nextAudioSample_le {ledger : DeliveryLedger} (op : DeliveryLedger.Op) :
    ledger.nextAudioSample ≤ (ledger.step jsonLen op).nextAudioSample := by
  cases op with
  | attach seq sample =>
      show _ ≤ (ledger.attach seq sample).2.nextAudioSample
      cases hchecked : ledger.checkAttach seq sample with
      | error e => exact (congrArg (·.2.nextAudioSample)
          (DeliveryLedger.attach_of_refused hchecked)).ge
      | ok u =>
          obtain ⟨queues, hattach⟩ := DeliveryLedger.attach_of_checked hchecked
          exact (congrArg (·.nextAudioSample) hattach).ge
  | publish payload =>
      show _ ≤ (ledger.publish jsonLen payload).2.nextAudioSample
      rcases DeliveryLedger.publish_state jsonLen ledger payload with hs | hs | ⟨range, -, hs⟩
      · exact (congrArg (·.nextAudioSample) hs).ge
      · obtain ⟨queues, hnotify⟩ := DeliveryLedger.notify_frame
          { ledger with failure := some DeliveryLedger.bufferExceeded }
          (.failure DeliveryLedger.bufferExceeded)
        exact (congrArg (·.nextAudioSample) (hs.trans hnotify)).ge
      · obtain ⟨queues, hnotify⟩ := DeliveryLedger.notify_frame
          (ledger.append (ledger.recordOf jsonLen payload range))
          (.delivery (ledger.recordOf jsonLen payload range))
        rw [hs, hnotify]
        exact le_max_left _ _
  | acknowledge generation seq sample =>
      show _ ≤ (ledger.acknowledge generation seq sample).2.nextAudioSample
      exact (acknowledge_nextAudioSample ledger generation seq sample).ge
  | detach generation =>
      show _ ≤ (ledger.detach generation).2.nextAudioSample
      unfold DeliveryLedger.detach
      split
      · exact le_refl _
      · exact le_refl _
  | terminalAck generation =>
      show _ ≤ (ledger.terminalAck generation).2.nextAudioSample
      unfold DeliveryLedger.terminalAck
      split
      · exact le_refl _
      · split
        · exact le_refl _
        · exact le_refl _
  | read generation => exact le_refl _

/-- The ledger of a session has changed by one operation. -/
theorem InBounds.setLedger (h : s.InBounds) (op : DeliveryLedger.Op) :
    (s.setLedger (s.ledger.step jsonLen op)).InBounds where
  nonneg := h.nonneg
  ordered := h.ordered
  behind := h.behind.trans (nextAudioSample_le jsonLen op)

/-! ## The loop -/

/-- The loop of a session. -/
abbrev SessionLoop := Loop PlaybackSession Call Result

/-- The operation of the ledger that a call makes. -/
def Call.operation : Call → Option DeliveryLedger.Op
  | .recordPlaybackProgress _ _ _ _ => none
  | .attach seq sample => some (.attach seq sample)
  | .detach generation => some (.detach generation)
  | .publish payload => some (.publish payload)
  | .acknowledge generation seq sample => some (.acknowledge generation seq sample)

/-- The feedback changes when a call is accepted for the current attachment, and in no other way. -/
def Moves (s s' : PlaybackSession) (c : Call) (result : Result) : Prop :=
  ∃ generation played buffered observed,
    c = .recordPlaybackProgress generation played buffered observed ∧ result = .ok ()
      ∧ s.ledger.attachment = some generation
      ∧ s' = { s with playedThroughSample := played, bufferedThroughSample := buffered }
      ∧ s.playedThroughSample ≤ played ∧ s.bufferedThroughSample ≤ buffered

/-- The invariant of the loop: only attachments are suspended, in front of the ledger. -/
structure Inv (loop : SessionLoop) : Prop where
  free : loop.Free
  log : DeliveryLedger.LogInv loop.state.ledger
  bounds : loop.state.InBounds
  suspended : ∀ call ∈ loop.suspended, ∃ seq sample,
    call = (.attach seq sample, ledgerCall (·.attach seq sample))

/-- The invariant holds of a new session. -/
theorem idle_inv (limits : LedgerLimits) : Inv (Loop.idle (init limits)) where
  free := rfl
  log := DeliveryLedger.init_logInv limits
  bounds := ⟨le_refl _, le_refl _, le_refl _⟩
  suspended := fun _ h => nomatch h

/-- What one event does to a session: the ledger makes one operation, or feedback is taken, or nothing
changes; and feedback returns at once. -/
structure StepSpec (loop : SessionLoop) (event : LoopEvent Call) : Prop where
  state : (∃ op, ((loop.step (start jsonLen) event).1.state
        = loop.state.setLedger (loop.state.ledger.step jsonLen op)))
      ∨ (loop.step (start jsonLen) event).1.state = loop.state
      ∨ ∃ c result, (loop.step (start jsonLen) event).2 = [(c, result)]
        ∧ Moves loop.state (loop.step (start jsonLen) event).1.state c result
        ∧ (loop.step (start jsonLen) event).1.state.InBounds
  prompt : ∀ generation played buffered observed,
    event = .call (.recordPlaybackProgress generation played buffered observed) →
    ∃ result, (loop.step (start jsonLen) event).2
      = [(.recordPlaybackProgress generation played buffered observed, result)]
  suspended : ∀ call ∈ (loop.step (start jsonLen) event).1.suspended, ∃ seq sample,
    call = (.attach seq sample, ledgerCall (·.attach seq sample))

variable {loop : SessionLoop}

/-- A call of the loop. -/
theorem Inv.call (h : Inv loop) (c : Call) : StepSpec jsonLen loop (.call c) := by
  obtain ⟨hfree, hlog, hbounds, hsuspended⟩ := h
  obtain ⟨s, held, suspended⟩ := loop
  obtain rfl : held = false := hfree
  cases c with
  | recordPlaybackProgress generation played buffered observed =>
      have hprompt :
          (start jsonLen (.recordPlaybackProgress generation played buffered observed)).Prompt :=
        recordPlaybackProgress_prompt generation played buffered observed
      obtain ⟨result, s', hran, hstep⟩ := Loop.step_call ⟨s, false, suspended⟩ rfl hprompt
      have hran : (recordPlaybackProgress generation played buffered observed).advance false s
        = (.ret result, s') := hran
      refine ⟨?_, ?_, ?_⟩
      · rw [hstep]
        rcases recordPlaybackProgress_cases s generation played buffered observed with
          ⟨_, hsame⟩ | ⟨hmoved, hattached, hnonneg, hordered, hplayed, hbuffered, limit, hlimit, hle⟩
        · rw [hsame] at hran
          cases hran
          exact .inr (.inl rfl)
        · rw [hmoved] at hran
          cases hran
          refine .inr (.inr ⟨_, _, rfl, ?_, ?_⟩)
          · exact ⟨generation, played, buffered, observed, rfl, rfl, hattached, rfl, hplayed, hbuffered⟩
          · exact ⟨hnonneg, hordered, hle.trans (audioEndThroughDelivery_le hlog hlimit)⟩
      · rintro _ _ _ _ ⟨⟩
        rw [hstep]
        exact ⟨result, rfl⟩
      · rw [hstep]
        exact hsuspended
  | attach seq sample =>
      refine ⟨.inr (.inl rfl), fun _ _ _ _ heq => (nomatch heq), fun call hcall => ?_⟩
      rcases List.mem_append.1 hcall with hcall | hcall
      · exact hsuspended call hcall
      · rw [List.mem_singleton.1 hcall]
        exact ⟨seq, sample, rfl⟩
  | detach generation =>
      refine ⟨.inl ⟨.detach generation, rfl⟩, fun _ _ _ _ heq => (nomatch heq), fun call hcall => ?_⟩
      rcases List.mem_append.1 hcall with hcall | hcall
      · exact hsuspended call hcall
      · exact nomatch hcall
  | publish payload =>
      refine ⟨.inl ⟨.publish payload, rfl⟩, fun _ _ _ _ heq => (nomatch heq), fun call hcall => ?_⟩
      rcases List.mem_append.1 hcall with hcall | hcall
      · exact hsuspended call hcall
      · exact nomatch hcall
  | acknowledge generation seq sample =>
      refine ⟨.inl ⟨.acknowledge generation seq sample, rfl⟩, fun _ _ _ _ heq => (nomatch heq),
        fun call hcall => ?_⟩
      rcases List.mem_append.1 hcall with hcall | hcall
      · exact hsuspended call hcall
      · exact nomatch hcall

/-- An attachment that goes on. -/
theorem Inv.wake (h : Inv loop) (i : Nat) : StepSpec jsonLen loop (.wake i) := by
  obtain ⟨hfree, -, -, hsuspended⟩ := h
  obtain ⟨s, held, suspended⟩ := loop
  obtain rfl : held = false := hfree
  cases hcall : suspended[i]? with
  | none =>
      have hstep : Loop.step (start jsonLen) ⟨s, false, suspended⟩ (.wake i)
          = (⟨s, false, suspended⟩, []) := by
        unfold Loop.step
        simp only [hcall]
      refine ⟨.inr (.inl ?_), fun _ _ _ _ heq => (nomatch heq), ?_⟩
      · rw [hstep]
      · rw [hstep]
        exact hsuspended
  | some call =>
      obtain ⟨seq, sample, rfl⟩ := hsuspended call (List.mem_of_getElem? hcall)
      have hstep : (Loop.step (start jsonLen) ⟨s, false, suspended⟩ (.wake i)).1
          = ⟨s.setLedger (s.ledger.step jsonLen (.attach seq sample)), false,
            suspended.take i ++ suspended.drop (i + 1)⟩ := by
        unfold Loop.step
        simp only [hcall]
        rfl
      refine ⟨.inl ⟨.attach seq sample, ?_⟩, fun _ _ _ _ heq => (nomatch heq), ?_⟩
      · rw [hstep]
      · rw [hstep]
        intro call hcall
        rcases List.mem_append.1 hcall with hcall | hcall
        · exact hsuspended call (List.mem_of_mem_take hcall)
        · exact hsuspended call (List.mem_of_mem_drop hcall)

/-- One event. -/
theorem Inv.spec (h : Inv loop) (event : LoopEvent Call) : StepSpec jsonLen loop event := by
  cases event with
  | call c => exact h.call jsonLen c
  | wake i => exact h.wake jsonLen i

/-- One event keeps the invariant. -/
theorem Inv.step (h : Inv loop) (event : LoopEvent Call) :
    Inv (loop.step (start jsonLen) event).1 := by
  obtain ⟨hstate, -, hsuspended⟩ := h.spec jsonLen event
  have hfree : (loop.step (start jsonLen) event).1.Free := Loop.step_free loop event h.free
  rcases hstate with ⟨op, hop⟩ | hsame | ⟨c, result, -, ⟨_, _, _, _, -, -, -, hmoved, -⟩, hbounds⟩
  · refine ⟨hfree, ?_, ?_, hsuspended⟩
    · rw [hop]
      exact DeliveryLedger.step_logInv jsonLen _ op h.log
    · rw [hop]
      exact h.bounds.setLedger jsonLen op
  · refine ⟨hfree, ?_, ?_, hsuspended⟩
    · rw [hsame]
      exact h.log
    · rw [hsame]
      exact h.bounds
  · refine ⟨hfree, ?_, hbounds, hsuspended⟩
    rw [hmoved]
    exact h.log

/-- The two samples of a session. -/
def progress (s : PlaybackSession) : Int × Int := (s.playedThroughSample, s.bufferedThroughSample)

/-- What an event may do to the playback progress: the two samples are in bounds and do not move back; a
call of `record_playback_progress` returns in the event that makes it; a call that raises changes neither
sample; and what changes them is a call that returns, of a generation that is attached in front of it and
behind it. -/
structure Fenced (loop : SessionLoop) (event : LoopEvent Call) : Prop where
  bounds : loop.state.InBounds
  played : loop.state.playedThroughSample
    ≤ (loop.step (start jsonLen) event).1.state.playedThroughSample
  buffered : loop.state.bufferedThroughSample
    ≤ (loop.step (start jsonLen) event).1.state.bufferedThroughSample
  prompt : ∀ generation played buffered observed,
    event = .call (.recordPlaybackProgress generation played buffered observed) →
    ∃ result, (loop.step (start jsonLen) event).2
      = [(.recordPlaybackProgress generation played buffered observed, result)]
  raised : ∀ c e, (c, .error e) ∈ (loop.step (start jsonLen) event).2 →
    (loop.step (start jsonLen) event).1.state.progress = loop.state.progress
  fenced : (loop.step (start jsonLen) event).1.state.progress ≠ loop.state.progress →
    ∃ generation played buffered observed, (loop.step (start jsonLen) event).2
        = [(.recordPlaybackProgress generation played buffered observed, .ok ())]
      ∧ loop.state.ledger.attachment = some generation
      ∧ (loop.step (start jsonLen) event).1.state.ledger.attachment = some generation
      ∧ (loop.step (start jsonLen) event).1.state.progress = (played, buffered)

/-- An event does no more than that. -/
theorem Inv.fenced (h : Inv loop) (event : LoopEvent Call) : Fenced jsonLen loop event := by
  obtain ⟨hstate, hprompt, -⟩ := h.spec jsonLen event
  rcases hstate with ⟨op, hop⟩ | hsame | ⟨c, result, hreturned, hmoves, -⟩
  · refine ⟨h.bounds, ?_, ?_, hprompt, fun _ _ _ => ?_, fun hchanged => ?_⟩
    · rw [hop]
      exact le_refl _
    · rw [hop]
      exact le_refl _
    · rw [hop]
      rfl
    · rw [hop] at hchanged
      exact absurd rfl hchanged
  · refine ⟨h.bounds, ?_, ?_, hprompt, fun _ _ _ => ?_, fun hchanged => ?_⟩
    · rw [hsame]
    · rw [hsame]
    · rw [hsame]
    · rw [hsame] at hchanged
      exact absurd rfl hchanged
  · obtain ⟨generation, played, buffered, observed, rfl, rfl, hattached, hmoved, hplayed, hbuffered⟩ :=
      hmoves
    refine ⟨h.bounds, ?_, ?_, hprompt, fun c e herror => ?_, fun _ => ?_⟩
    · rw [hmoved]
      exact hplayed
    · rw [hmoved]
      exact hbuffered
    · rw [hreturned] at herror
      cases List.mem_singleton.1 herror
    · refine ⟨generation, played, buffered, observed, hreturned, hattached, ?_, ?_⟩
      · rw [hmoved]
        exact hattached
      · rw [hmoved]
        rfl

/-- The invariant holds behind every history. -/
theorem after_inv (limits : LedgerLimits) (events : List (LoopEvent Call)) :
    Inv (Loop.after (start jsonLen) (.idle (init limits)) events) :=
  run_invariant (idle_inv limits) (fun _ event h => h.step jsonLen event) events

/-- Playback progress is monotone and fenced, in every interleaving of the calls. -/
theorem playback_progress_fenced (limits : LedgerLimits) (events : List (LoopEvent Call))
    (event : LoopEvent Call) :
    Fenced jsonLen (Loop.after (start jsonLen) (.idle (init limits)) events) event :=
  (after_inv jsonLen limits events).fenced jsonLen event

end

end PlaybackSession

end StreamingTts.Session
