import StreamingTts.Client.StreamSession

/-!
# The input of a stream survives recoveries

The texts of `EngineWebSocketStreamSession` and the connections they are written to. The journal holds
the texts that were not acknowledged, numbered consecutively (`Journaled`); a thread that leads a
recovery writes all of it to its replacement before it attaches it; and callers add to it only while no
recovery is under way. So a connection of the session that nobody is about to replace carries the whole
journal and, unless the server has acknowledged it, the end of the input (`InputInv.full`).

The numbers of the texts on one connection are consecutive as long as no caller writes to a connection
that misses an earlier text (`Orderly`): a caller whose write failed has released the lock before it
begins the recovery.
-/

namespace StreamingTts.Client

open Lib

/-! ## Texts on a connection -/

/-- The number of a text. -/
def ClientFrame.textSeq? : ClientFrame → Option Nat
  | .text seqNo _ => some seqNo
  | _ => none

/-- The numbers of the texts among some frames. -/
def textSeqs (fs : List ClientFrame) : List Nat := fs.filterMap ClientFrame.textSeq?

theorem textSeqs_append (fs gs : List ClientFrame) : textSeqs (fs ++ gs) = textSeqs fs ++ textSeqs gs :=
  List.filterMap_append

theorem textSeqs_inputFrames (fs : List ClientFrame) : textSeqs (inputFrames fs) = textSeqs fs := by
  induction fs with
  | nil => rfl
  | cons f fs ih =>
      cases f with
      | text seqNo text => exact congrArg (seqNo :: ·) ih
      | resume | ack | terminalAck | stop => exact ih

/-- The texts among the frames are numbered consecutively from `acked + 1` on. -/
def Consecutive (acked : Nat) (fs : List ClientFrame) : Prop :=
  textSeqs fs = List.range' (acked + 1) (textSeqs fs).length

theorem Consecutive.prefix {acked : Nat} {fs gs : List ClientFrame} (h : Consecutive acked (fs ++ gs)) :
    Consecutive acked fs := by
  unfold Consecutive at h ⊢
  rw [textSeqs_append, List.length_append, ← List.range'_append_1] at h
  exact (List.append_inj h (List.length_range').symm).1

/-- Frames without texts may follow. -/
theorem Consecutive.append {acked : Nat} {fs gs : List ClientFrame} (h : Consecutive acked fs)
    (hgs : textSeqs gs = []) : Consecutive acked (fs ++ gs) := by
  unfold Consecutive at h ⊢
  rw [textSeqs_append, hgs, List.append_nil]
  exact h

/-- A journal entry as the frame it is written as. -/
def entryFrame (entry : Nat × String) : ClientFrame := .text entry.1 entry.2

theorem textSeqs_entries (entries : List (Nat × String)) :
    textSeqs (entries.map entryFrame) = entries.map (·.1) := by
  induction entries with
  | nil => rfl
  | cons entry entries ih => exact congrArg (entry.1 :: ·) ih

theorem inputFrames_append (fs gs : List ClientFrame) :
    inputFrames (fs ++ gs) = inputFrames fs ++ inputFrames gs :=
  List.filter_append ..

/-- What an acknowledgement leaves of consecutive entries. -/
theorem dropWhile_entries {entries : List (Nat × String)} {acked count through : Nat}
    (h : entries.map (·.1) = List.range' (acked + 1) count) (hle : acked ≤ through)
    (hlast : through ≤ acked + count) :
    (entries.dropWhile fun entry => decide (entry.1 ≤ through)).map (·.1)
      = List.range' (through + 1) (acked + count - through) := by
  induction entries generalizing acked count with
  | nil =>
      have hcount : count = 0 := by
        have := congrArg List.length h
        rw [List.map_nil, List.length_nil, List.length_range'] at this
        exact this.symm
      have hnone : acked + count - through = 0 := by omega
      rw [hnone]
      rfl
  | cons entry entries ih =>
      cases count with
      | zero => cases h
      | succ count =>
          rw [List.map_cons, List.range'_succ, List.cons.injEq] at h
          obtain ⟨hfirst, hrest⟩ := h
          rw [List.dropWhile_cons]
          split
          · next hdrop =>
            have hdrop' := of_decide_eq_true hdrop
            rw [ih hrest (by omega) (by omega)]
            congr 1
            omega
          · next hkeep =>
            have hkeep' : ¬ entry.1 ≤ through := fun hle' => hkeep (decide_eq_true hle')
            have heq : through = acked := by omega
            rw [List.map_cons, hfirst, hrest, heq, Nat.add_sub_cancel_left, List.range'_succ]

namespace StreamSession

/-! ## The invariant -/

/-- The journal holds the texts behind the acknowledged one, in order. -/
structure Journaled (s : StreamSession) : Prop where
  lt : s.ackedTextSeq < s.nextTextSeq
  seqs : s.textJournal.map (·.1)
    = List.range' (s.ackedTextSeq + 1) (s.nextTextSeq - (s.ackedTextSeq + 1))

/-- Frames that end with the journal and, unless the server has acknowledged the end of the input, with
the stop frame if the input is closed. -/
def Carries (s : StreamSession) (fs : List ClientFrame) : Prop :=
  ∃ pre post, fs = pre ++ s.textJournal.map entryFrame ++ post ∧
    (s.inputClosed = false → post = []) ∧
    (s.inputClosed = true → s.inputAcked = false → post = s.stopPayload.toList)

/-- No recovery is under way or about to begin, and the stream is neither over nor about to be. -/
structure Quiet (s : StreamSession) : Prop where
  recovering : s.recovering = false
  finished : s.transportFinished = false
  broken : ∀ t, s.task t ≠ .broken s.conn s.generation
  failing : ∀ t e, s.task t ≠ .failing e

/-- A replacement that nothing of the input was written to. -/
structure Blank (s : StreamSession) (c : Conn) : Prop where
  dialed : c < s.dialed
  conn : c ≠ s.conn
  written : inputFrames (s.written c) = []

/-- What a leader has of its replacement. -/
def LeadsInput (s : StreamSession) : ResumePhase → Prop
  | .check | .dialing | .gaveUp _ => True
  | .dialed c | .adopted c | .resuming c | .resumed c _ _ => s.Blank c
  | .replaying c frames =>
      (c < s.dialed ∧ c ≠ s.conn) ∧ (∀ f ∈ frames, f.isInput = true) ∧
        s.Carries (inputFrames (s.written c) ++ frames) ∧
        Consecutive (s.ackedAt c) (inputFrames (s.written c) ++ frames)

/-- The invariant. -/
structure InputInv (s : StreamSession) : Prop where
  journal : s.Journaled
  stop : ∀ f, s.stopPayload = some f → f.isInput = true ∧ f.textSeq? = none
  closed : s.inputClosed = true → s.sendClosed = true ∨ s.transportFinished = true
  published : s.terminalFailurePublished = true → s.transportFinished = true
  conn : s.conn < s.dialed
  fresh : ∀ c, s.dialed ≤ c → inputFrames (s.written c) = []
  leads : ∀ t n phase, s.task t = .leading n phase →
    (s.recovering = true ∨ s.transportFinished = true) ∧ s.LeadsInput phase
  one : ∀ t t' n n' phase phase', s.task t = .leading n phase → s.task t' = .leading n' phase' → t = t'
  consecutive : ∀ c, Consecutive (s.ackedAt c) (inputFrames (s.written c))
  full : s.Quiet → s.Carries (inputFrames (s.written s.conn))

variable {s s' : StreamSession} {cfg : ResumeConfig}

/-- Frames carry the input of a state that has the same one, whose end is acknowledged at most later. -/
theorem Carries.congr {fs : List ClientFrame} (h : s.Carries fs)
    (hjournal : s'.textJournal = s.textJournal) (hclosed : s'.inputClosed = s.inputClosed)
    (hstop : s'.stopPayload = s.stopPayload) (hacked : s'.inputAcked = false → s.inputAcked = false) :
    s'.Carries fs := by
  obtain ⟨pre, post, hfs, hopen, hend⟩ := h
  refine ⟨pre, post, ?_, ?_, ?_⟩
  · rw [hjournal]
    exact hfs
  · rw [hclosed]
    exact hopen
  · intro hc ha
    rw [hstop]
    exact hend (hclosed ▸ hc) (hacked ha)

theorem LeadsInput.kept {phase : ResumePhase} (h : s.LeadsInput phase) (hk : InputKept s s') :
    s'.LeadsInput phase := by
  have hblank {c : Conn} (hc : s.Blank c) : s'.Blank c := by
    refine ⟨hk.dialed ▸ hc.dialed, hk.conn ▸ hc.conn, ?_⟩
    rw [hk.written]
    exact hc.written
  cases phase with
  | check | dialing | gaveUp => trivial
  | dialed c | adopted c | resuming c | resumed c => exact hblank h
  | replaying c frames =>
      obtain ⟨hc, hframes, hcarries, hconsecutive⟩ := h
      refine ⟨?_, hframes, ?_, ?_⟩
      · rw [hk.dialed, hk.conn]
        exact hc
      · rw [hk.written]
        exact hcarries.congr hk.textJournal hk.inputClosed hk.stopPayload hk.inputAcked
      · rw [hk.written, hk.ackedAt]
        exact hconsecutive

/-- A section that leaves the input. -/
theorem InputInv.kept (h : s.InputInv) (hk : InputKept s s') : s'.InputInv where
  journal := by
    refine ⟨?_, ?_⟩
    · rw [hk.ackedTextSeq, hk.nextTextSeq]
      exact h.journal.lt
    · rw [hk.textJournal, hk.ackedTextSeq, hk.nextTextSeq]
      exact h.journal.seqs
  stop f hf := h.stop f (hk.stopPayload ▸ hf)
  closed hc := by
    cases hfin : s'.transportFinished with
    | true => exact .inr rfl
    | false =>
        obtain ⟨hopen, -, hsend⟩ := hk.open_ hfin
        have hclosed := h.closed (hk.inputClosed ▸ hc)
        rw [hopen] at hclosed
        exact .inl (hsend.trans (hclosed.resolve_right fun h => nomatch h))
  published hp := by
    have hfin := h.published (hk.published ▸ hp)
    cases hfin' : s'.transportFinished with
    | true => rfl
    | false =>
        rw [(hk.open_ hfin').1] at hfin
        cases hfin
  conn := by
    rw [hk.conn, hk.dialed]
    exact h.conn
  fresh c hc := by
    rw [hk.written]
    exact h.fresh c (hk.dialed ▸ hc)
  leads t n phase ht := by
    rw [hk.task] at ht
    obtain ⟨hrec, hleads⟩ := h.leads t n phase ht
    refine ⟨?_, hleads.kept hk⟩
    cases hfin : s'.transportFinished with
    | true => exact .inr rfl
    | false =>
        obtain ⟨hopen, hsame, -⟩ := hk.open_ hfin
        rw [hopen] at hrec
        refine .inl (hsame.trans (hrec.resolve_right fun h => nomatch h))
  one t t' n n' phase phase' ht ht' := by
    rw [hk.task] at ht ht'
    exact h.one t t' n n' phase phase' ht ht'
  consecutive c := by
    rw [hk.written, hk.ackedAt]
    exact h.consecutive c
  full hquiet := by
    obtain ⟨hopen, hrec, -⟩ := hk.open_ hquiet.finished
    have hold : s.Quiet := by
      refine ⟨hrec ▸ hquiet.recovering, hopen, fun t => ?_, fun t e => ?_⟩
      · rw [← hk.task, ← hk.conn, ← hk.generation]
        exact hquiet.broken t
      · rw [← hk.task]
        exact hquiet.failing t e
    rw [hk.conn, hk.written]
    exact (h.full hold).congr hk.textJournal hk.inputClosed hk.stopPayload hk.inputAcked

/-- A thread moves on without beginning a recovery, or ending one. -/
theorem InputInv.setTask (h : s.InputInv) (t : Thread) {task : Task}
    (hleading : ∀ n phase, task ≠ .leading n phase)
    (hquiet : (s.setTask t task).Quiet → s.Quiet) : (s.setTask t task).InputInv := by
  have hsame {t' : Thread} {n : Nat} {phase : ResumePhase}
      (ht' : (s.setTask t task).task t' = .leading n phase) : s.task t' = .leading n phase := by
    by_cases heq : t' = t
    · rw [heq, setTask_task_self] at ht'
      exact absurd ht' (hleading n phase)
    · rw [setTask_task_ne _ heq] at ht'
      exact ht'
  have hleads {phase : ResumePhase} (hphase : s.LeadsInput phase) :
      (s.setTask t task).LeadsInput phase := by
    cases phase with
    | check | dialing | gaveUp => trivial
    | dialed c | adopted c | resuming c | resumed c => exact ⟨hphase.dialed, hphase.conn, hphase.written⟩
    | replaying c frames => exact hphase
  exact ⟨⟨h.journal.lt, h.journal.seqs⟩, h.stop, h.closed, h.published, h.conn, h.fresh,
    fun t' n phase ht' => ⟨(h.leads t' n phase (hsame ht')).1, hleads (h.leads t' n phase (hsame ht')).2⟩,
    fun t₁ t₂ n n' phase phase' h₁ h₂ => h.one t₁ t₂ n n' phase phase' (hsame h₁) (hsame h₂),
    h.consecutive, fun hq => h.full (hquiet hq)⟩

/-- A thread that was not about to recover the current connection moves on. -/
theorem Quiet.of_setTask {t : Thread} {task : Task} (h : (s.setTask t task).Quiet)
    (hbroken : s.task t ≠ .broken s.conn s.generation) (hfailing : ∀ e, s.task t ≠ .failing e) :
    s.Quiet := by
  refine ⟨h.recovering, h.finished, fun t' => ?_, fun t' e => ?_⟩
  · by_cases heq : t' = t
    · rw [heq]
      exact hbroken
    · rw [← setTask_task_ne s heq task]
      exact h.broken t'
  · by_cases heq : t' = t
    · rw [heq]
      exact hfailing e
    · rw [← setTask_task_ne s heq task]
      exact h.failing t' e

theorem InputInv.recovered (h : s.InputInv) (t : Thread) (ok : Bool)
    (hbroken : s.task t ≠ .broken s.conn s.generation ∨ s.transportFinished = true)
    (hfailing : (∀ e, s.task t ≠ .failing e) ∨ s.transportFinished = true) :
    (s.recovered t ok).InputInv := by
  have hquiet {task : Task} (hq : (s.setTask t task).Quiet) : s.Quiet := by
    have hopen : ¬ s.transportFinished = true := by
      rw [show s.transportFinished = false from hq.finished]
      exact Bool.false_ne_true
    exact hq.of_setTask (hbroken.resolve_right hopen) (hfailing.resolve_right hopen)
  cases t with
  | reader =>
      refine h.setTask .reader (fun n phase => ?_) hquiet
      cases ok <;> exact fun hne => nomatch hne
  | caller i => exact h.setTask (.caller i) (fun n phase hne => nomatch hne) hquiet

theorem InputInv.pick (h : s.InputInv) : s.pick.InputInv := by
  unfold StreamSession.pick
  split
  · next ht =>
    have hquiet {task : Task} (hq : (s.setTask .reader task).Quiet) : s.Quiet :=
      hq.of_setTask (by rw [ht]; exact fun h => nomatch h) (by rw [ht]; exact fun e h => nomatch h)
    split
    · exact h.setTask .reader (fun _ _ hne => nomatch hne) hquiet
    · split
      · exact h
      · exact h.setTask .reader (fun _ _ hne => nomatch hne) hquiet
  · exact h

theorem InputInv.breaks (h : s.InputInv) : s.breaks.InputInv := by
  unfold StreamSession.breaks
  split
  · next c g ht =>
    refine h.setTask .reader (fun _ _ hne => nomatch hne) fun hq => ?_
    exact hq.of_setTask (by rw [ht]; exact fun h => nomatch h) (by rw [ht]; exact fun e h => nomatch h)
  · exact h

/-! ## Acknowledgements -/

/-- What an acknowledgement drops of the journal stays on the connection. -/
theorem Carries.ackTexts {fs : List ClientFrame} (h : s.Carries fs) (n : Nat) :
    (s.ackTexts n).Carries fs := by
  obtain ⟨pre, post, hfs, hopen, hend⟩ := h
  refine ⟨pre ++ (s.textJournal.takeWhile fun entry => decide (entry.1 ≤ n)).map entryFrame, post, ?_,
    hopen, hend⟩
  show fs = pre ++ _ ++ (s.textJournal.dropWhile fun entry => decide (entry.1 ≤ n)).map entryFrame ++ post
  rw [List.append_assoc pre, ← List.map_append, List.takeWhile_append_dropWhile]
  exact hfs

theorem Journaled.ackTexts (h : s.Journaled) {n : Nat} (hn : s.AckValid n) :
    (s.ackTexts n).Journaled := by
  have hlt := h.lt
  obtain ⟨hlower, hupper⟩ := hn
  refine ⟨?_, ?_⟩
  · show n < s.nextTextSeq
    omega
  · show (s.textJournal.dropWhile fun entry => decide (entry.1 ≤ n)).map (·.1)
      = List.range' (n + 1) (s.nextTextSeq - (n + 1))
    rw [dropWhile_entries h.seqs hlower (by omega)]
    congr 1
    omega

theorem LeadsInput.ackTexts {phase : ResumePhase} (h : s.LeadsInput phase) (n : Nat) :
    (s.ackTexts n).LeadsInput phase := by
  cases phase with
  | check | dialing | gaveUp => trivial
  | dialed c | adopted c | resuming c | resumed c => exact ⟨h.dialed, h.conn, h.written⟩
  | replaying c frames => exact ⟨h.1, h.2.1, h.2.2.1.ackTexts n, h.2.2.2⟩

theorem InputInv.ackTexts (h : s.InputInv) {n : Nat} (hn : s.AckValid n) : (s.ackTexts n).InputInv where
  journal := h.journal.ackTexts hn
  stop := h.stop
  closed := h.closed
  published := h.published
  conn := h.conn
  fresh := h.fresh
  leads t m phase ht := ⟨(h.leads t m phase ht).1, (h.leads t m phase ht).2.ackTexts n⟩
  one := h.one
  consecutive := h.consecutive
  full hq := (h.full ⟨hq.recovering, hq.finished, hq.broken, hq.failing⟩).ackTexts n

/-- A frame of the server. -/
theorem InputInv.frame (h : s.InputInv) (f : ServerFrame) (ackOk : Bool) :
    (s.frame cfg f ackOk).InputInv := by
  unfold StreamSession.frame
  split
  case h_2 => exact h
  case h_1 c g ht =>
    have hout : ((({ s with received := Function.update s.received c (s.received c ++ [f]) } :
        StreamSession).handleIncomingFrame cfg c g f ackOk).2).InputInv ∧
        (({ s with received := Function.update s.received c (s.received c ++ [f]) } :
          StreamSession).handleIncomingFrame cfg c g f ackOk).2.task = s.task := by
      have hgot : InputKept s { s with received := Function.update s.received c (s.received c ++ [f]) } :=
        .of_output rfl
      have hinv := h.kept hgot
      by_cases hack : ∃ n, f = .textAck n
      · obtain ⟨n, rfl⟩ := hack
        simp only [handleIncomingFrame, handleTextAck]
        split
        · next hvalid => exact ⟨hinv.ackTexts hvalid, rfl⟩
        · exact ⟨hinv, rfl⟩
      · have hk := inputKept_handleIncomingFrame cfg
          { s with received := Function.update s.received c (s.received c ++ [f]) } c g
          (fun n hn => hack ⟨n, hn⟩) ackOk
        exact ⟨hinv.kept hk, hk.task⟩
    obtain ⟨hinv, htask⟩ := hout
    have hreader : (({ s with received := Function.update s.received c (s.received c ++ [f]) } :
        StreamSession).handleIncomingFrame cfg c g f ackOk).2.task .reader = .receiving c g := by
      rw [htask]
      exact ht
    simp only
    split
    all_goals
      next s' hs' =>
      rw [hs'] at hinv hreader
      refine hinv.setTask .reader (fun _ _ hne => nomatch hne) fun hq => ?_
      exact hq.of_setTask (by rw [hreader]; exact fun h => nomatch h)
        (by rw [hreader]; exact fun e h => nomatch h)

/-! ## The input -/

/-- A caller may write: no recovery is under way, and the input is open. -/
theorem sendable_iff : s.sendable = true ↔ s.recovering = false ∧ s.recoveryError = none ∧
    s.transportFinished = false ∧ s.sendClosed = false := by
  simp [sendable, and_assoc]

/-- All the texts were written to the connection that a caller writes to. -/
def Complete (s : StreamSession) : Prop :=
  s.ackedAt s.conn + (textSeqs (s.written s.conn)).length + 1 = s.nextTextSeq

instance : Decidable s.Complete := inferInstanceAs (Decidable (_ = _))

/-- A condition on a thread that is outside of its calls. -/
def OnIdle (P : Prop) : Task → Prop
  | .idle => P
  | _ => True

/-- No caller writes a text to a connection that misses an earlier one. -/
def Orderly (s : StreamSession) : StreamStep → Prop
  | .sendText i _ seqNo _ =>
      OnIdle (s.sendable = true → seqNo.getD s.nextTextSeq = s.nextTextSeq → s.Complete)
        (s.task (.caller i))
  | _ => True

/-- A state in which a caller has written at most a frame to the connection. -/
theorem InputInv.sent (h : s.InputInv) (hconn : s'.conn = s.conn) (hdialed : s'.dialed = s.dialed)
    (hackedAt : s'.ackedAt = s.ackedAt) (hwritten : ∀ c, c ≠ s.conn → s'.written c = s.written c)
    (hconsecutive : Consecutive (s.ackedAt s.conn) (inputFrames (s'.written s.conn)))
    (hnone : ∀ t n phase, s'.task t ≠ .leading n phase) (hjournal : s'.Journaled)
    (hstop : ∀ f, s'.stopPayload = some f → f.isInput = true ∧ f.textSeq? = none)
    (hclosed : s'.inputClosed = true → s'.sendClosed = true ∨ s'.transportFinished = true)
    (hpublished : s'.terminalFailurePublished = true → s'.transportFinished = true)
    (hfull : s'.Quiet → s'.Carries (inputFrames (s'.written s.conn))) : s'.InputInv where
  journal := hjournal
  stop := hstop
  closed := hclosed
  published := hpublished
  conn := by
    rw [hconn, hdialed]
    exact h.conn
  fresh c hc := by
    rw [hdialed] at hc
    have hne : c ≠ s.conn := fun heq => Nat.lt_irrefl _ ((heq ▸ h.conn).trans_le hc)
    rw [hwritten c hne]
    exact h.fresh c hc
  leads t n phase ht := absurd ht (hnone t n phase)
  one t _ n _ phase _ ht := absurd ht (hnone t n phase)
  consecutive c := by
    rw [hackedAt]
    by_cases hc : c = s.conn
    · rw [hc]
      exact hconsecutive
    · rw [hwritten c hc]
      exact h.consecutive c
  full hq := by
    rw [hconn]
    exact hfull hq

/-- No recovery is under way, so that no thread leads one. -/
theorem InputInv.noLeader (h : s.InputInv) (hrec : s.recovering = false)
    (hfin : s.transportFinished = false) (t : Thread) (n : Nat) (phase : ResumePhase) :
    s.task t ≠ .leading n phase := by
  intro ht
  have hwhile := (h.leads t n phase ht).1
  rw [hrec, hfin] at hwhile
  rcases hwhile with hwhile | hwhile <;> cases hwhile

/-- A caller writes a frame of the input behind those of the connection. -/
theorem InputInv.callerWrite (h : s.InputInv) (i : Nat) {f : ClientFrame} (outcome : WriteOutcome)
    (hf : f.isInput = true) (hrec : s.recovering = false) (hfin : s.transportFinished = false)
    (hconsecutive : Consecutive (s.ackedAt s.conn) (inputFrames (s.written s.conn) ++ [f]))
    (hjournal : s'.Journaled)
    (hstop : ∀ f, s'.stopPayload = some f → f.isInput = true ∧ f.textSeq? = none)
    (hclosed : s'.inputClosed = true → s'.sendClosed = true)
    (hcarries : s.Carries (inputFrames (s.written s.conn)) →
      s'.Carries (inputFrames (s.written s.conn) ++ [f]))
    (hsame : s' = { s with
      nextTextSeq := s'.nextTextSeq
      textJournal := s'.textJournal
      inputClosed := s'.inputClosed
      stopPayload := s'.stopPayload
      sendClosed := s'.sendClosed }) : (s'.callerWrite i f outcome).InputInv := by
  have hnone := h.noLeader hrec hfin
  have hconn : s'.conn = s.conn := by rw [hsame]
  have hgeneration : s'.generation = s.generation := by rw [hsame]
  have hdialed : s'.dialed = s.dialed := by rw [hsame]
  have hackedAt : s'.ackedAt = s.ackedAt := by rw [hsame]
  have htask : s'.task = s.task := by rw [hsame]
  have hwritten : s'.written = s.written := by rw [hsame]
  have hpublished : s'.terminalFailurePublished = true → s'.transportFinished = true := by
    rw [hsame]
    exact h.published
  have hframes : inputFrames ((s'.write s.conn f).written s.conn)
      = inputFrames (s.written s.conn) ++ [f] := by
    rw [write_written_self, hwritten, inputFrames_append]
    simp [inputFrames, hf]
  have hother (c : Conn) (hc : c ≠ s.conn) : (s'.write s.conn f).written c = s.written c := by
    rw [write_written_ne _ hc, hwritten]
  cases outcome with
  | ok =>
      show (s'.write s'.conn f).InputInv
      rw [hconn]
      refine h.sent hconn hdialed hackedAt hother ?_ ?_ ⟨hjournal.lt, hjournal.seqs⟩ hstop
        (fun hc => .inl (hclosed hc)) hpublished ?_
      · rw [hframes]
        exact hconsecutive
      · intro t n phase
        show s'.task t ≠ _
        rw [htask]
        exact hnone t n phase
      · intro hq
        have hquiet : s.Quiet := by
          refine ⟨hrec, hfin, fun t => ?_, fun t e => ?_⟩
          · rw [← htask, ← hconn, ← hgeneration]
            exact hq.broken t
          · rw [← htask]
            exact hq.failing t e
        rw [hframes]
        exact hcarries (h.full hquiet)
  | failed reached =>
      show ((s'.tryWrite s'.conn f reached).setTask (.caller i)
        (.broken s'.conn s'.generation)).InputInv
      rw [hconn]
      have hleading : ∀ t n phase, ((s'.tryWrite s.conn f reached).setTask (.caller i)
          (.broken s.conn s'.generation)).task t ≠ .leading n phase := by
        intro t n phase ht
        by_cases heq : t = .caller i
        · rw [heq, setTask_task_self] at ht
          cases ht
        · rw [setTask_task_ne _ heq] at ht
          refine hnone t n phase ?_
          rw [← htask, ← ht]
          cases reached <;> rfl
      -- the caller is about to recover the connection
      have hloud : ¬ ((s'.tryWrite s.conn f reached).setTask (.caller i)
          (.broken s.conn s'.generation)).Quiet := by
        intro hq
        refine hq.broken (.caller i) ?_
        rw [setTask_task_self]
        cases reached with
        | true => exact congrArg (fun c => Task.broken c s'.generation) hconn.symm
        | false => exact congrArg (fun c => Task.broken c s'.generation) hconn.symm
      cases reached with
      | true =>
          refine h.sent hconn hdialed hackedAt hother ?_ hleading ⟨hjournal.lt, hjournal.seqs⟩ hstop
            (fun hc => .inl (hclosed hc)) hpublished fun hq => absurd hq hloud
          show Consecutive _ (inputFrames ((s'.write s.conn f).written s.conn))
          rw [hframes]
          exact hconsecutive
      | false =>
          refine h.sent hconn hdialed hackedAt (fun c _ => ?_) ?_ hleading
            ⟨hjournal.lt, hjournal.seqs⟩ hstop (fun hc => .inl (hclosed hc)) hpublished
            fun hq => absurd hq hloud
          · exact congrFun hwritten c
          · show Consecutive _ (inputFrames (s'.written s.conn))
            rw [hwritten]
            exact h.consecutive s.conn

theorem InputInv.sendText (h : s.InputInv) {i : Nat} {text : String} {seqNo : Option Nat}
    {outcome : WriteOutcome} (horderly : s.Orderly (.sendText i text seqNo outcome)) :
    (s.sendText i text seqNo outcome).InputInv := by
  unfold StreamSession.sendText
  split
  case h_2 => exact h
  case h_1 htask =>
    split
    case isFalse => exact h
    case isTrue hcond =>
      simp only [Orderly, htask, OnIdle] at horderly
      have hcomplete : s.Complete := horderly hcond.1 hcond.2
      obtain ⟨hrec, -, hfin, hsend⟩ := sendable_iff.1 hcond.1
      have hopen : s.inputClosed = false := by
        cases hclosed : s.inputClosed with
        | false => rfl
        | true =>
            have hnot := h.closed hclosed
            rw [hsend, hfin] at hnot
            rcases hnot with hnot | hnot <;> cases hnot
      have hlt := h.journal.lt
      refine h.callerWrite i outcome rfl hrec hfin ?_ ⟨?_, ?_⟩ h.stop ?_ ?_ rfl
      · -- the text continues those of the connection
        unfold Consecutive
        have hc := h.consecutive s.conn
        unfold Consecutive at hc
        rw [textSeqs_inputFrames] at hc
        rw [textSeqs_append, textSeqs_inputFrames, List.length_append, ← List.range'_append_1, ← hc]
        unfold Complete at hcomplete
        have hnext : s.ackedAt s.conn + 1 + (textSeqs (s.written s.conn)).length = s.nextTextSeq := by
          omega
        rw [hnext]
        rfl
      · show s.ackedTextSeq < s.nextTextSeq + 1
        omega
      · show (s.textJournal ++ [(s.nextTextSeq, text)]).map (·.1)
          = List.range' (s.ackedTextSeq + 1) (s.nextTextSeq + 1 - (s.ackedTextSeq + 1))
        have hcount : s.nextTextSeq + 1 - (s.ackedTextSeq + 1)
            = s.nextTextSeq - (s.ackedTextSeq + 1) + 1 := by
          omega
        have hend : s.ackedTextSeq + 1 + (s.nextTextSeq - (s.ackedTextSeq + 1)) = s.nextTextSeq := by
          omega
        rw [List.map_append, h.journal.seqs, hcount, ← List.range'_append_1, hend]
        rfl
      · intro hclosed
        have hclosed' : s.inputClosed = true := hclosed
        rw [hopen] at hclosed'
        cases hclosed'
      · rintro ⟨pre, post, hfs, hpost, -⟩
        refine ⟨pre, [], ?_, fun _ => rfl, fun hclosed => ?_⟩
        · rw [hfs, hpost hopen, List.append_nil, List.append_nil]
          show _ = pre ++ (s.textJournal ++ [(s.nextTextSeq, text)]).map entryFrame
          rw [List.map_append, ← List.append_assoc]
          rfl
        · have hclosed' : s.inputClosed = true := hclosed
          rw [hopen] at hclosed'
          cases hclosed'

theorem InputInv.finishInput (h : s.InputInv) (i : Nat) (type : StopType) (outcome : WriteOutcome) :
    (s.finishInput i type outcome).InputInv := by
  unfold StreamSession.finishInput
  split
  case h_2 => exact h
  case h_1 htask =>
    split
    case isFalse => exact h
    case isTrue hcond =>
      obtain ⟨hrec, -, hfin, hsend⟩ := sendable_iff.1 hcond
      have hopen : s.inputClosed = false := by
        cases hclosed : s.inputClosed with
        | false => rfl
        | true =>
            have hnot := h.closed hclosed
            rw [hsend, hfin] at hnot
            rcases hnot with hnot | hnot <;> cases hnot
      refine h.callerWrite i outcome rfl hrec hfin ?_ ⟨h.journal.lt, h.journal.seqs⟩ ?_ (fun _ => rfl)
        ?_ rfl
      · exact (h.consecutive s.conn).append rfl
      · intro f hf
        cases hf
        exact ⟨rfl, rfl⟩
      · rintro ⟨pre, post, hfs, hpost, -⟩
        refine ⟨pre, [.stop type (s.nextTextSeq - 1)], ?_, (fun hclosed => nomatch hclosed),
          fun _ _ => rfl⟩
        rw [hfs, hpost hopen, List.append_nil]

/-! ## Recoveries -/

/-- The fields that the leader of a recovery finds in its own place. -/
theorem InputInv.leadTo (h : s.InputInv) {t : Thread} {n n' : Nat} {phase phase' : ResumePhase}
    (ht : s.task t = .leading n phase) (hconn : s'.conn = s.conn) (hdialed : s.dialed ≤ s'.dialed)
    (htask : s'.task = s.task) (hrecovering : s'.recovering = s.recovering)
    (hfinished : s'.transportFinished = s.transportFinished) (hjournal : s'.Journaled)
    (hstop : s'.stopPayload = s.stopPayload) (hclosed : s'.inputClosed = s.inputClosed)
    (hsend : s'.sendClosed = s.sendClosed)
    (hpublished : s'.terminalFailurePublished = s.terminalFailurePublished)
    (hfresh : ∀ c, s'.dialed ≤ c → inputFrames (s'.written c) = [])
    (hconsecutive : ∀ c, Consecutive (s'.ackedAt c) (inputFrames (s'.written c)))
    (hleads : s'.LeadsInput phase') : (s'.setTask t (.leading n' phase')).InputInv := by
  have hwhile := (h.leads t n phase ht).1
  have hleader {t' : Thread} {m : Nat} {p : ResumePhase}
      (ht' : (s'.setTask t (.leading n' phase')).task t' = .leading m p) : t' = t ∧ p = phase' := by
    by_cases heq : t' = t
    · subst heq
      rw [setTask_task_self] at ht'
      cases ht'
      exact ⟨rfl, rfl⟩
    · rw [setTask_task_ne _ heq, htask] at ht'
      exact absurd (h.one t' t m n p phase ht' ht) heq
  refine ⟨⟨hjournal.lt, hjournal.seqs⟩, fun f hf => h.stop f (hstop ▸ hf), fun hc => ?_, fun hp => ?_, ?_,
    hfresh, fun t' m p ht' => ?_, fun t₁ t₂ m m' p p' h₁ h₂ => ?_, hconsecutive, fun hq => ?_⟩
  · show s'.sendClosed = true ∨ s'.transportFinished = true
    rw [hsend, hfinished]
    exact h.closed (hclosed ▸ hc)
  · show s'.transportFinished = true
    rw [hfinished]
    exact h.published (hpublished ▸ hp)
  · show s'.conn < s'.dialed
    rw [hconn]
    exact h.conn.trans_le hdialed
  · obtain ⟨rfl, rfl⟩ := hleader ht'
    refine ⟨?_, ?_⟩
    · show s'.recovering = true ∨ s'.transportFinished = true
      rw [hrecovering, hfinished]
      exact hwhile
    · cases p with
      | check | dialing | gaveUp => trivial
      | dialed c | adopted c | resuming c | resumed c =>
          exact ⟨hleads.dialed, hleads.conn, hleads.written⟩
      | replaying c frames => exact hleads
  · exact (hleader h₁).1.trans (hleader h₂).1.symm
  · -- the recovery is still under way
    have hrec : s'.recovering = false := hq.recovering
    have hfin : s'.transportFinished = false := hq.finished
    rw [hrecovering] at hrec
    rw [hfinished] at hfin
    rw [hrec, hfin] at hwhile
    rcases hwhile with hwhile | hwhile <;> cases hwhile

/-- The leader goes on. -/
theorem InputInv.leads_to (h : s.InputInv) {t : Thread} {n : Nat} {phase : ResumePhase}
    (ht : s.task t = .leading n phase) (n' : Nat) {phase' : ResumePhase}
    (hleads : s.LeadsInput phase') : (s.setTask t (.leading n' phase')).InputInv :=
  h.leadTo ht rfl (Nat.le_refl _) rfl rfl rfl h.journal rfl rfl rfl rfl h.fresh h.consecutive hleads

/-- The leader writes a frame to its replacement and goes on. -/
theorem InputInv.leadWrite (h : s.InputInv) {t : Thread} {n : Nat} {phase : ResumePhase}
    (ht : s.task t = .leading n phase) {c : Conn} (hc : c < s.dialed) {f : ClientFrame}
    (hf : Consecutive (s.ackedAt c) (inputFrames ((s.write c f).written c))) (n' : Nat)
    {phase' : ResumePhase} (hleads : (s.write c f).LeadsInput phase') :
    ((s.write c f).setTask t (.leading n' phase')).InputInv := by
  refine h.leadTo ht rfl (Nat.le_refl _) rfl rfl rfl ⟨h.journal.lt, h.journal.seqs⟩ rfl rfl rfl rfl
    (fun c' hc' => ?_) (fun c' => ?_) hleads
  · have hne : c' ≠ c := fun heq => Nat.lt_irrefl _ ((heq ▸ hc).trans_le hc')
    rw [write_written_ne _ hne]
    exact h.fresh c' hc'
  · by_cases heq : c' = c
    · rw [heq]
      exact hf
    · rw [write_written_ne _ heq]
      exact h.consecutive c'

/-- An attempt fails: another one follows, or the leader gives up. -/
theorem InputInv.attemptFailed (h : s.InputInv) {t : Thread} {n : Nat} {phase : ResumePhase}
    (ht : s.task t = .leading n phase) (outcome : ResumeOutcome) :
    (s.attemptFailed cfg t n outcome).InputInv := by
  cases outcome with
  | ok | expired | resumed => exact h
  | rejected | invalid => exact h.leads_to ht n trivial
  | transport reached error =>
      show (s.retry cfg t n error).InputInv
      unfold retry
      split
      · exact h.leads_to ht (n + 1) trivial
      · exact h.leads_to ht n trivial

/-- The replay of the journal begins. -/
theorem InputInv.beginReplay (h : s.InputInv) {t : Thread} {n : Nat} {c : Conn} {acked : Nat}
    {closed : Bool} (ht : s.task t = .leading n (.resumed c acked closed)) :
    (s.beginReplay cfg t n c acked closed).InputInv := by
  obtain ⟨-, hblank⟩ := h.leads t n _ ht
  unfold StreamSession.beginReplay
  split
  case isFalse => exact h.leads_to ht n trivial
  case isTrue hvalid =>
    have hjournal := h.journal.ackTexts hvalid
    have hframes : Consecutive acked
        (({ s.ackTexts acked with inputAcked := closed } : StreamSession).replayFrames closed) := by
      refine Consecutive.append ?_ ?_
      · show textSeqs ((s.ackTexts acked).textJournal.map entryFrame)
          = List.range' (acked + 1) (textSeqs ((s.ackTexts acked).textJournal.map entryFrame)).length
        rw [textSeqs_entries, hjournal.seqs, List.length_range']
        rfl
      · split
        · cases hstop : s.stopPayload with
          | none =>
              show textSeqs (s.stopPayload.toList) = []
              rw [hstop]
              rfl
          | some f =>
              show textSeqs (s.stopPayload.toList) = []
              rw [hstop]
              exact List.filterMap_cons_none (h.stop f hstop).2
        · rfl
    refine h.leadTo ht rfl (Nat.le_refl _) rfl rfl rfl ⟨hjournal.lt, hjournal.seqs⟩ rfl rfl rfl rfl
      h.fresh (fun c' => ?_) ⟨⟨hblank.dialed, hblank.conn⟩, ?_, ?_, ?_⟩
    · show Consecutive (Function.update s.ackedAt c acked c') (inputFrames (s.written c'))
      by_cases heq : c' = c
      · rw [heq, hblank.written]
        rfl
      · rw [Function.update_of_ne heq]
        exact h.consecutive c'
    · intro f hf
      rcases List.mem_append.1 hf with hf | hf
      · obtain ⟨entry, -, rfl⟩ := List.mem_map.1 hf
        rfl
      · split at hf
        · exact (h.stop f (Option.mem_toList.1 hf)).1
        · cases hf
    · show StreamSession.Carries _ (inputFrames (s.written c) ++ _)
      rw [hblank.written]
      refine ⟨[], _, rfl, ?_, ?_⟩
      · intro hopen
        have hopen' : s.inputClosed = false := hopen
        show (if s.inputClosed && !closed then s.stopPayload.toList else []) = []
        rw [hopen']
        rfl
      · intro hc hacked
        have hc' : s.inputClosed = true := hc
        have hacked' : closed = false := hacked
        show (if s.inputClosed && !closed then s.stopPayload.toList else []) = s.stopPayload.toList
        rw [hc', hacked']
        rfl
    · show Consecutive (Function.update s.ackedAt c acked c) (inputFrames (s.written c) ++ _)
      rw [hblank.written, Function.update_self]
      exact hframes

/-- When the leader of a recovery has returned there is none. -/
theorem InputInv.returned (h : s.InputInv) {t : Thread} {n : Nat} {phase : ResumePhase}
    (ht : s.task t = .leading n phase) (s' : StreamSession) (htask : s'.task = s.task) (ok : Bool)
    (t' : Thread) (m : Nat) (p : ResumePhase) : (s'.recovered t ok).task t' ≠ .leading m p := by
  intro ht'
  by_cases heq : t' = t
  · subst heq
    rcases recovered_task_self s' t' ok with hself | hself <;> cases hself.symm.trans ht'
  · rw [recovered_task_ne _ heq, htask] at ht'
    exact heq (h.one t' t m n p phase ht' ht)

/-- The leader finds that the stream is over. -/
theorem InputInv.abandon (h : s.InputInv) {t : Thread} {n : Nat} {phase : ResumePhase}
    (ht : s.task t = .leading n phase) (hfin : s.transportFinished = true) :
    (({ s with recovering := false } : StreamSession).recovered t false).InputInv := by
  have hnone (t' : Thread) (m : Nat) (p : ResumePhase) :
      (({ s with recovering := false } : StreamSession).recovered t false).task t' ≠ .leading m p :=
    h.returned ht { s with recovering := false } rfl false t' m p
  rw [recovered_eq] at hnone ⊢
  exact ⟨⟨h.journal.lt, h.journal.seqs⟩, h.stop, h.closed, h.published, h.conn, h.fresh,
    fun t' m p ht' => absurd ht' (hnone t' m p), fun t' _ m _ p _ ht' => absurd ht' (hnone t' m p),
    h.consecutive, fun hq => absurd (hfin.symm.trans hq.finished) fun h => nomatch h⟩

/-- The replacement becomes the connection of the session: the journal was written to it. -/
theorem InputInv.attach (h : s.InputInv) {t : Thread} {n : Nat} {c : Conn}
    (ht : s.task t = .leading n (.replaying c [])) : (s.attach t c).InputInv := by
  obtain ⟨-, ⟨hdialed, -⟩, -, hcarries, -⟩ := h.leads t n _ ht
  rw [List.append_nil] at hcarries
  unfold StreamSession.attach
  split
  · next hfin => exact h.abandon ht hfin
  · have hnone (t' : Thread) (m : Nat) (p : ResumePhase) :
        ((s.attached c).recovered t true).task t' ≠ .leading m p :=
      h.returned ht (s.attached c) rfl true t' m p
    rw [recovered_eq] at hnone ⊢
    exact ⟨⟨h.journal.lt, h.journal.seqs⟩, h.stop, h.closed, h.published, hdialed, h.fresh,
      fun t' m p ht' => absurd ht' (hnone t' m p), fun t' _ m _ p _ ht' => absurd ht' (hnone t' m p),
      h.consecutive, fun _ => hcarries⟩

theorem InputInv.lead (h : s.InputInv) (t : Thread) (outcome : ResumeOutcome) :
    (s.lead cfg t outcome).InputInv := by
  unfold StreamSession.lead
  split
  case h_2 => exact h
  case h_1 n phase ht =>
    obtain ⟨-, hleads⟩ := h.leads t n phase ht
    have hfailed : (s.attemptFailed cfg t n outcome).InputInv := h.attemptFailed ht outcome
    cases phase with
    | check =>
        simp only [leadPhase]
        split
        · exact h.leads_to ht n trivial
        · split <;> exact h.leads_to ht n trivial
    | dialing =>
        cases outcome with
        | ok =>
            refine h.leadTo ht rfl (Nat.le_succ _) rfl rfl rfl ⟨h.journal.lt, h.journal.seqs⟩ rfl rfl rfl
              rfl (fun c hc => h.fresh c ((Nat.le_succ _).trans hc)) h.consecutive ?_
            exact ⟨Nat.lt_succ_self _, (Nat.ne_of_lt h.conn).symm, h.fresh _ (Nat.le_refl _)⟩
        | expired | resumed | transport | rejected | invalid => exact hfailed
    | dialed c =>
        simp only [leadPhase]
        split
        · next hfin => exact h.abandon ht hfin
        · exact h.leads_to ht n hleads
    | adopted c =>
        have hk := inputKept_write s c (f := .resume s.lastDeliverySeq s.audioThroughSample) rfl
        have hrequested := h.kept hk
        have ht' : (s.write c (.resume s.lastDeliverySeq s.audioThroughSample)).task t
            = .leading n (.adopted c) := ht
        have hfailed' : ((s.write c (.resume s.lastDeliverySeq s.audioThroughSample)).attemptFailed cfg t n
            outcome).InputInv := hrequested.attemptFailed ht' outcome
        cases outcome with
        | ok => exact hrequested.leads_to ht' n (hrequested.leads t n _ ht').2
        | transport => exact hfailed'
        | expired | resumed | rejected | invalid => exact hfailed
    | resuming c =>
        cases outcome with
        | resumed acked closed => exact h.leads_to ht n hleads
        | ok | expired | transport | rejected | invalid => exact hfailed
    | resumed c acked closed => exact h.beginReplay ht
    | replaying c frames =>
        cases frames with
        | nil => exact h.attach ht
        | cons f frames =>
            obtain ⟨hc, hinput, hcarries, hconsecutive⟩ := hleads
            have hwritten : inputFrames ((s.write c f).written c) = inputFrames (s.written c) ++ [f] := by
              rw [write_written_self, inputFrames_append]
              simp [inputFrames, hinput f List.mem_cons_self]
            have hsplit : inputFrames (s.written c) ++ f :: frames
                = inputFrames ((s.write c f).written c) ++ frames := by
              rw [hwritten, List.append_assoc]
              rfl
            rw [hsplit] at hcarries hconsecutive
            cases outcome with
            | ok =>
                refine h.leadWrite ht hc.1 hconsecutive.prefix n
                  ⟨hc, fun f' hf' => hinput f' (List.mem_cons_of_mem _ hf'), ?_, hconsecutive⟩
                exact hcarries.congr rfl rfl rfl id
            | transport reached error =>
                cases reached with
                | false => exact hfailed
                | true =>
                    show ((s.write c f).retry cfg t n error).InputInv
                    unfold retry
                    split
                    · exact h.leadWrite ht hc.1 hconsecutive.prefix (n + 1) trivial
                    · exact h.leadWrite ht hc.1 hconsecutive.prefix n trivial
            | expired | resumed | rejected | invalid => exact hfailed
    | gaveUp e =>
        simp only [leadPhase]
        have hnone (t' : Thread) (m : Nat) (p : ResumePhase) :
            (({ s with recovering := false, recoveryError := some e } : StreamSession).setTask t
              (.failing e)).task t' ≠ .leading m p := by
          intro ht'
          by_cases heq : t' = t
          · rw [heq, setTask_task_self] at ht'
            cases ht'
          · rw [setTask_task_ne _ heq] at ht'
            exact heq (h.one t' t m n p _ ht' ht)
        refine ⟨⟨h.journal.lt, h.journal.seqs⟩, h.stop, h.closed, h.published, h.conn, h.fresh,
          fun t' m p ht' => absurd ht' (hnone t' m p), fun t' _ m _ p _ ht' => absurd ht' (hnone t' m p),
          h.consecutive, fun hq => absurd (setTask_task_self _ t _) (hq.failing t e)⟩

theorem InputInv.recover (h : s.InputInv) (t : Thread) : (s.recover cfg t).InputInv := by
  unfold StreamSession.recover
  split
  case h_2 => exact h
  case h_1 c g ht =>
    have hfailing (e : String) : s.task t ≠ .failing e := by
      rw [ht]
      exact fun h => nomatch h
    split
    · next hfin => exact h.recovered t false (.inr hfin) (.inl hfailing)
    · next hfin =>
      rw [Bool.not_eq_true] at hfin
      split
      · next hstale =>
        refine h.recovered t true (.inl ?_) (.inl hfailing)
        rw [ht]
        intro heq
        cases heq
        rcases hstale with hne | hne <;> exact hne rfl
      · split
        · have hinv : ∀ error, (({ s with recoveryError := some error } :
              StreamSession).setTask t (.failing error)).InputInv := by
            intro error
            have hold : ({ s with recoveryError := some error } : StreamSession).InputInv :=
              ⟨⟨h.journal.lt, h.journal.seqs⟩, h.stop, h.closed, h.published, h.conn, h.fresh,
                fun t n phase ht => ⟨(h.leads t n phase ht).1, by
                  have hphase := (h.leads t n phase ht).2
                  cases phase with
                  | check | dialing | gaveUp => trivial
                  | dialed c | adopted c | resuming c | resumed c =>
                      exact ⟨hphase.dialed, hphase.conn, hphase.written⟩
                  | replaying c frames => exact hphase⟩,
                h.one, h.consecutive,
                fun hq => h.full ⟨hq.recovering, hq.finished, hq.broken, hq.failing⟩⟩
            refine hold.setTask t (fun _ _ hne => nomatch hne) fun hq => ?_
            exact absurd (setTask_task_self _ t _) (hq.failing t error)
          exact hinv _
        · split
          · next hrec =>
            refine h.setTask t (fun _ _ hne => nomatch hne) fun hq => ?_
            exact absurd (hrec.symm.trans hq.recovering) fun h => nomatch h
          · next hrec =>
            rw [Bool.not_eq_true] at hrec
            have hnone := h.noLeader hrec hfin
            have hleader {t' : Thread} {m : Nat} {p : ResumePhase}
                (ht' : (({ s with recovering := true, pendingAudioHeader := none } :
                  StreamSession).setTask t (.leading 0 .check)).task t' = .leading m p) :
                t' = t ∧ p = .check := by
              by_cases heq : t' = t
              · subst heq
                rw [setTask_task_self] at ht'
                cases ht'
                exact ⟨rfl, rfl⟩
              · rw [setTask_task_ne _ heq] at ht'
                exact absurd ht' (hnone t' m p)
            refine ⟨⟨h.journal.lt, h.journal.seqs⟩, h.stop, h.closed, h.published, h.conn, h.fresh,
              fun t' m p ht' => ?_, fun t₁ t₂ m m' p p' h₁ h₂ => ?_, h.consecutive,
              fun hq => absurd hq.recovering fun h => nomatch h⟩
            · obtain ⟨-, rfl⟩ := hleader ht'
              exact ⟨.inl rfl, trivial⟩
            · exact (hleader h₁).1.trans (hleader h₂).1.symm

theorem InputInv.wake (h : s.InputInv) (t : Thread) : (s.wake t).InputInv := by
  unfold StreamSession.wake
  split
  case h_2 => exact h
  case h_1 g ht =>
    split
    · exact h
    · refine h.recovered t _ (.inl ?_) (.inl fun e => ?_) <;> rw [ht] <;> exact fun h => nomatch h

theorem InputInv.failTerminal (h : s.InputInv) (e : String) :
    (s.failTerminal e).InputInv ∧ (s.failTerminal e).transportFinished = true := by
  unfold StreamSession.failTerminal
  split
  · next hp => exact ⟨h, h.published hp⟩
  · have hfinish : (({ s with
        terminalFailurePublished := true
        sendClosed := true
        recoveryError := some e } : StreamSession).finishTransport.putMessage
          (.event ⟨.error, e, none⟩)).transportFinished = true := by
      unfold finishTransport
      split
      · next hfin => exact hfin
      · rfl
    refine ⟨?_, hfinish⟩
    have hleads {s' : StreamSession} {phase : ResumePhase} (hphase : s.LeadsInput phase)
        (hk : InputKept { s with
          terminalFailurePublished := true
          sendClosed := true
          recoveryError := some e } s') : s'.LeadsInput phase := by
      refine LeadsInput.kept ?_ hk
      cases phase with
      | check | dialing | gaveUp => trivial
      | dialed c | adopted c | resuming c | resumed c =>
          exact ⟨hphase.dialed, hphase.conn, hphase.written⟩
      | replaying c frames => exact hphase
    have hk : InputKept { s with
        terminalFailurePublished := true
        sendClosed := true
        recoveryError := some e } (({ s with
        terminalFailurePublished := true
        sendClosed := true
        recoveryError := some e } : StreamSession).finishTransport.putMessage
          (.event ⟨.error, e, none⟩)) := by
      unfold finishTransport
      split
      · exact .of_output rfl
      · exact ⟨rfl, rfl, rfl, rfl, rfl, rfl, rfl, rfl, rfl, rfl, rfl, rfl, id, (fun h => nomatch h),
          fun _ => rfl⟩
    refine ⟨⟨?_, ?_⟩, fun f hf => h.stop f (hk.stopPayload ▸ hf), fun _ => .inr hfinish,
      fun _ => hfinish, ?_, fun c hc => ?_, fun t n phase ht => ?_,
      fun t t' n n' phase phase' ht ht' => ?_, fun c => ?_,
      fun hq => absurd (hfinish.symm.trans hq.finished) fun h => nomatch h⟩
    · rw [hk.ackedTextSeq, hk.nextTextSeq]
      exact h.journal.lt
    · rw [hk.textJournal, hk.ackedTextSeq, hk.nextTextSeq]
      exact h.journal.seqs
    · rw [hk.conn, hk.dialed]
      exact h.conn
    · rw [hk.written]
      exact h.fresh c (hk.dialed ▸ hc)
    · rw [hk.task] at ht
      exact ⟨.inr hfinish, hleads (h.leads t n phase ht).2 hk⟩
    · rw [hk.task] at ht ht'
      exact h.one t t' n n' phase phase' ht ht'
    · rw [hk.written, hk.ackedAt]
      exact h.consecutive c

theorem InputInv.fail (h : s.InputInv) (t : Thread) : (s.fail t).InputInv := by
  unfold StreamSession.fail
  split
  · next e ht =>
    obtain ⟨hinv, hfin⟩ := h.failTerminal e
    exact hinv.recovered t false (.inr hfin) (.inr hfin)
  · exact h

/-- What a section keeps. -/
theorem InputInv.step (h : s.InputInv) {e : StreamStep} (horderly : s.Orderly e) :
    (s.step cfg e).InputInv := by
  cases e with
  | pick => exact h.pick
  | frame f ackOk => exact h.frame f ackOk
  | breaks => exact h.breaks
  | sendText i text seqNo outcome => exact h.sendText horderly
  | finishInput i type outcome => exact h.finishInput i type outcome
  | recover t => exact h.recover t
  | wake t => exact h.wake t
  | lead t outcome => exact h.lead t outcome
  | fail t => exact h.fail t

/-! ## The runs -/

section

instance (P : Prop) [Decidable P] : (t : Task) → Decidable (OnIdle P t)
  | .idle => inferInstanceAs (Decidable P)
  | .receiving .. | .broken .. | .waiting _ | .leading .. | .failing _ | .exited => .isTrue trivial

instance (s : StreamSession) : (e : StreamStep) → Decidable (s.Orderly e)
  | .sendText .. => inferInstanceAs (Decidable (OnIdle _ _))
  | .pick | .frame .. | .breaks | .finishInput .. | .recover _ | .wake _ | .lead .. | .fail _ =>
      .isTrue trivial

end

end StreamSession

end StreamingTts.Client
