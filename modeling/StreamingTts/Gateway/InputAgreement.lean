import StreamingTts.Gateway.WebsocketResume
import StreamingTts.Session.Service

/-!
# Two input protocols side by side

`SessionHandle.append_text`/`complete_input` and `ResumableSession.accept_text`/`close_input` make
the same checks in a different order. Here both run on the same commands, from one attachment and
over executions that do not fail, and `Diverges` names the commands on which the order shows: text
resent after the stop (refused by the first, a duplicate for the second), empty text in sequence
(refused by the first, new for the second), and changed text whose digest is that of the accepted
one. `input_paths_agree_iff` says these are all.
-/

namespace StreamingTts.Gateway

open Lib (Along along_cons)
open Session (SessionHandle InputAck CommandError TerminalOutput)

/-- What a client learns about a command. -/
inductive Outcome
  | new
  | duplicate
  | rejected
  deriving DecidableEq, Repr

/-- The outcome of a `SessionHandle` command. -/
def Outcome.ofAck : Except CommandError InputAck → Outcome
  | .error _ => .rejected
  | .ok ack => if ack.duplicate then .duplicate else .new

/-- The outcome of a `ResumableSession` command. -/
def Outcome.ofPair : Except ResumeCommandError (Int × Bool) → Outcome
  | .error _ => .rejected
  | .ok ack => if ack.2 then .duplicate else .new

/-- The commands of one attachment, and the end of the executions. -/
inductive InputCommand
  | text (seqNo : Int) (text : String)
  | stop (finalSeqNo : Int)
  | ended (output : TerminalOutput)
  deriving DecidableEq, Repr

/-- Both paths, with the attachment that sends the commands. -/
structure InputPaths (δ : Type) where
  handle : SessionHandle
  resumable : ResumableSession δ
  generation : Nat

namespace InputPaths
section
variable {δ : Type} (digest : String → δ)

/-- Both paths before any command. -/
def init (generation : Nat) : InputPaths δ := ⟨.started, .attached generation, generation⟩

/-- The outcome of a command on the `SessionHandle`. -/
def handleOutcome (p : InputPaths δ) : InputCommand → Outcome
  | .text seqNo text => .ofAck (p.handle.appendText ⟨seqNo, text⟩ false).1
  | .stop finalSeqNo => .ofAck (p.handle.completeInput ⟨finalSeqNo⟩ false).1
  | .ended _ => .new

/-- The commands the two paths treat differently. -/
def Diverges (p : InputPaths δ) : InputCommand → Prop
  | .text seqNo text =>
      (text = "" ∧ seqNo = p.handle.nextSeq ∧ p.handle.inputComplete = false) ∨
        (p.handle.inputComplete = true ∧ p.handle.acceptedText seqNo = some text) ∨
        ∃ previous, p.handle.acceptedText seqNo = some previous ∧ previous ≠ text ∧
          digest previous = digest text
  | .stop _ => False
  | .ended _ => False

/-- The two states describe the same input: the accepted sequence numbers are `1, …, nextSeq - 1`,
none with empty text, and the digests are those of the accepted texts. -/
structure Related (p : InputPaths δ) : Prop where
  owned : p.resumable.attachment = some p.generation ∧ p.resumable.closed = false
  running : ∃ e, p.handle.execution = some e
  acked : p.resumable.ackedTextSeq = p.handle.nextSeq - 1
  next_pos : 1 ≤ p.handle.nextSeq
  hashes : ∀ seqNo, p.resumable.textHashes seqNo = (p.handle.acceptedText seqNo).map digest
  accepted : ∀ seqNo, (∃ text, p.handle.acceptedText seqNo = some text) ↔
    1 ≤ seqNo ∧ seqNo < p.handle.nextSeq
  nonempty : ∀ seqNo, p.handle.acceptedText seqNo ≠ some ""
  closed : p.resumable.inputClosed = p.handle.inputComplete
  final : p.handle.inputComplete = true → p.resumable.finalTextSeq = some (p.handle.nextSeq - 1)
  terminal : p.handle.inputComplete = false → p.handle.terminal = none

theorem init_related (generation : Nat) : Related digest (init generation) where
  owned := ⟨rfl, rfl⟩
  running := ⟨{}, rfl⟩
  acked := rfl
  next_pos := Int.le_refl _
  hashes := fun _ => rfl
  accepted := by
    intro seqNo
    simp only [init, SessionHandle.started, reduceCtorEq, exists_false, false_iff]
    omega
  nonempty := by simp [init, SessionHandle.started]
  closed := rfl
  final := by simp [init, SessionHandle.started]
  terminal := fun _ => rfl

/-! ## What each path does with a text -/

variable {digest}
variable {p : InputPaths δ}

/-- Text that `append_text` refuses before it looks at the accepted texts. -/
theorem handleOutcome_of_refused {seqNo : Int} {text : String}
    (hbad : seqNo ≤ 0 ∨ text = "" ∨ p.handle.inputComplete = true) :
    p.handleOutcome (.text seqNo text) = .rejected := by
  unfold handleOutcome SessionHandle.appendText
  by_cases hpos : seqNo ≤ 0
  · simp [hpos, Outcome.ofAck]
  · by_cases htext : text = ""
    · simp [hpos, htext, Outcome.ofAck]
    · have hc : p.handle.inputComplete = true := by simpa [hpos, htext] using hbad
      have hopen : ∃ e, p.handle.ensureInputOpen = .error e := by
        unfold SessionHandle.ensureInputOpen
        simp only [if_pos hc]
        split <;> exact ⟨_, rfl⟩
      obtain ⟨e, he⟩ := hopen
      simp [hpos, htext, he, Outcome.ofAck]

/-- Text that `append_text` compares with the accepted texts. -/
theorem handleOutcome_of_open (h : Related digest p) {seqNo : Int} {text : String}
    (hpos : 0 < seqNo) (htext : text ≠ "") (hc : p.handle.inputComplete = false) :
    p.handleOutcome (.text seqNo text) =
      match p.handle.acceptedText seqNo with
      | some previous => if previous = text then .duplicate else .rejected
      | none => if seqNo = p.handle.nextSeq then .new else .rejected := by
  obtain ⟨e, he⟩ := h.running
  have hopen := SessionHandle.ensureInputOpen_of_open ⟨h.terminal hc, hc⟩ he
  unfold handleOutcome SessionHandle.appendText
  simp only
  rw [if_neg (by omega), if_neg htext, hopen]
  cases hprev : p.handle.acceptedText seqNo with
  | some previous => by_cases heq : previous = text <;> simp [heq, Outcome.ofAck]
  | none => by_cases hnext : seqNo = p.handle.nextSeq <;> simp [hnext, Outcome.ofAck]

variable [DecidableEq δ]

/-- What `accept_text` does with a text, in terms of the accepted texts. -/
theorem acceptText_eq (h : Related digest p) {seqNo : Int} (hpos : 0 < seqNo) (text : String) :
    p.resumable.acceptText digest p.generation seqNo text false =
      match p.handle.acceptedText seqNo with
      | some previous =>
          if digest previous = digest text then (.ok (p.resumable.ackedTextSeq, true), p.resumable)
          else
            (.error (.protocol ⟨.textSequenceConflict,
              "text seq_no was already accepted with different content"⟩), p.resumable)
      | none =>
          if seqNo ≠ p.handle.nextSeq then
            (.error (.protocol ⟨.textSequenceGap, "expected text seq_no " ++
              toString (p.resumable.ackedTextSeq + 1)⟩), p.resumable)
          else if p.handle.inputComplete then
            (.error (.protocol ⟨.inputAlreadyClosed, "cannot send text after stop"⟩), p.resumable)
          else (.ok (seqNo, false), p.resumable.recordText seqNo (digest text)) := by
  obtain ⟨ha, hcl⟩ := h.owned
  have hacked := h.acked
  have hacc := h.accepted seqNo
  unfold ResumableSession.acceptText ResumableSession.checkText ResumableSession.requireGeneration
  rw [if_neg (by omega), if_neg (by simp [ha, hcl])]
  cases hprev : p.handle.acceptedText seqNo with
  | some previous =>
      have hlt := hacc.1 ⟨previous, hprev⟩
      simp only [h.hashes, hprev, Option.map_some, ne_eq, Option.some.injEq,
        if_pos (show seqNo ≤ p.resumable.ackedTextSeq by omega)]
      by_cases hd : digest previous = digest text <;> simp [hd]
  | none =>
      have hge : ¬ (1 ≤ seqNo ∧ seqNo < p.handle.nextSeq) := fun hlt => by
        obtain ⟨text', ht⟩ := hacc.2 hlt
        rw [hprev] at ht
        cases ht
      simp only [if_neg (show ¬ seqNo ≤ p.resumable.ackedTextSeq by omega), h.closed]
      by_cases hnext : seqNo = p.handle.nextSeq
      · rw [if_neg (show ¬ seqNo ≠ p.resumable.ackedTextSeq + 1 by omega),
          if_neg (not_not.2 hnext)]
        cases p.handle.inputComplete <;> rfl
      · rw [if_pos (show seqNo ≠ p.resumable.ackedTextSeq + 1 by omega), if_pos hnext]

/-! ## Both paths on the same commands -/

variable (digest)

/-- The outcome of a command on the `ResumableSession`. -/
def resumableOutcome (p : InputPaths δ) : InputCommand → Outcome
  | .text seqNo text => .ofPair (p.resumable.acceptText digest p.generation seqNo text false).1
  | .stop finalSeqNo => .ofPair (p.resumable.closeInput p.generation finalSeqNo false).1
  | .ended _ => .new

/-- One command on both paths. An execution that does not fail ends after its input is complete. -/
def step (p : InputPaths δ) : InputCommand → InputPaths δ
  | .text seqNo text =>
      { p with
        handle := (p.handle.appendText ⟨seqNo, text⟩ false).2
        resumable := (p.resumable.acceptText digest p.generation seqNo text false).2 }
  | .stop finalSeqNo =>
      { p with
        handle := (p.handle.completeInput ⟨finalSeqNo⟩ false).2
        resumable := (p.resumable.closeInput p.generation finalSeqNo false).2 }
  | .ended output =>
      if p.handle.inputComplete then
        { p with
          handle := p.handle.emitTerminal output
          resumable := { p.resumable with terminal := true } }
      else p

/-- Both paths give the command the same outcome, and a resent accepted pair is a duplicate. -/
def Agrees (p : InputPaths δ) (command : InputCommand) : Prop :=
  p.handleOutcome command = p.resumableOutcome digest command ∧
    ∀ seqNo text, command = .text seqNo text → p.handle.acceptedText seqNo = some text →
      p.handleOutcome command = .duplicate ∧ p.resumableOutcome digest command = .duplicate

variable {digest}

/-- For a text that was not accepted, `Agrees` is the equality of the outcomes. -/
theorem agrees_of_not_accepted {seqNo : Int} {text : String}
    (hno : p.handle.acceptedText seqNo ≠ some text) :
    p.Agrees digest (.text seqNo text) ↔
      p.handleOutcome (.text seqNo text) = p.resumableOutcome digest (.text seqNo text) := by
  refine ⟨fun h => h.1, fun h => ⟨h, ?_⟩⟩
  rintro seqNo' text' ⟨⟩ ht
  exact absurd ht hno

/-- Text under an accepted number: a duplicate, or a conflict unless the digests collide. -/
theorem agrees_accepted_iff (h : Related digest p) {seqNo : Int} {previous : String}
    (hprev : p.handle.acceptedText seqNo = some previous) (text : String) :
    p.Agrees digest (.text seqNo text) ↔ ¬ p.Diverges digest (.text seqNo text) := by
  obtain ⟨hpos, hlt⟩ := (h.accepted seqNo).1 ⟨previous, hprev⟩
  have hnext : seqNo ≠ p.handle.nextSeq := by omega
  have hresumable : p.resumableOutcome digest (.text seqNo text) =
      if digest previous = digest text then .duplicate else .rejected := by
    rw [resumableOutcome, acceptText_eq h (by omega), hprev]
    by_cases hd : digest previous = digest text <;> simp [hd, Outcome.ofPair]
  by_cases heq : previous = text
  · subst heq
    have hne : previous ≠ "" := fun he => h.nonempty seqNo (by rw [hprev, he])
    cases hc : p.handle.inputComplete with
    | true =>
        have hhandle : p.handleOutcome (.text seqNo previous) = .rejected :=
          handleOutcome_of_refused (.inr (.inr hc))
        refine iff_of_false (fun ha => ?_) (fun hd => hd (.inr (.inl ⟨hc, hprev⟩)))
        have := (ha.2 seqNo previous rfl hprev).1
        rw [hhandle] at this
        cases this
    | false =>
        have hhandle : p.handleOutcome (.text seqNo previous) = .duplicate := by
          rw [handleOutcome_of_open h (by omega) hne hc, hprev]
          simp
        simp only [if_true] at hresumable
        refine iff_of_true ⟨by rw [hhandle, hresumable], ?_⟩ ?_
        · rintro seqNo' text' ⟨⟩ -
          exact ⟨hhandle, hresumable⟩
        · rintro (⟨-, hseq, -⟩ | ⟨hc', -⟩ | ⟨previous', hp, hne', -⟩)
          · exact hnext hseq
          · rw [hc] at hc'; cases hc'
          · rw [hprev] at hp
            exact hne' (Option.some.inj hp).symm
  · -- the `SessionHandle` refuses in any case
    have hhandle : p.handleOutcome (.text seqNo text) = .rejected := by
      by_cases hbad : seqNo ≤ 0 ∨ text = "" ∨ p.handle.inputComplete = true
      · exact handleOutcome_of_refused hbad
      · simp only [not_or, Bool.not_eq_true] at hbad
        rw [handleOutcome_of_open h (by omega) hbad.2.1 hbad.2.2, hprev]
        simp [heq]
    rw [agrees_of_not_accepted (by simp [hprev, heq]), hhandle, hresumable]
    simp [Diverges, hnext, hprev, heq]

/-- Text under a number that was not accepted: new, or out of sequence. -/
theorem agrees_unaccepted_iff (h : Related digest p) {seqNo : Int} (hpos : 0 < seqNo)
    (hprev : p.handle.acceptedText seqNo = none) (text : String) :
    p.Agrees digest (.text seqNo text) ↔ ¬ p.Diverges digest (.text seqNo text) := by
  have hresumable : p.resumableOutcome digest (.text seqNo text) =
      if seqNo ≠ p.handle.nextSeq ∨ p.handle.inputComplete = true then .rejected else .new := by
    rw [resumableOutcome, acceptText_eq h hpos, hprev]
    by_cases hn : seqNo = p.handle.nextSeq <;> cases p.handle.inputComplete <;>
      simp [hn, Outcome.ofPair]
  rw [agrees_of_not_accepted (by simp [hprev]), hresumable]
  by_cases hbad : text = "" ∨ p.handle.inputComplete = true
  · rw [handleOutcome_of_refused (.inr hbad)]
    cases hc : p.handle.inputComplete with
    | true => simp [Diverges, hc, hprev]
    | false =>
        have htext : text = "" := by simpa [hc] using hbad
        by_cases hn : seqNo = p.handle.nextSeq <;> simp [Diverges, hc, hprev, htext, hn]
  · simp only [not_or, Bool.not_eq_true] at hbad
    rw [handleOutcome_of_open h hpos hbad.1 hbad.2, hprev]
    simp only [Diverges, hbad.1, hbad.2, hprev]
    by_cases hn : seqNo = p.handle.nextSeq <;> simp [hn]

/-- The two paths agree on a text unless it is one of the diverging ones. -/
theorem agrees_text_iff (h : Related digest p) (seqNo : Int) (text : String) :
    p.Agrees digest (.text seqNo text) ↔ ¬ p.Diverges digest (.text seqNo text) := by
  cases hprev : p.handle.acceptedText seqNo with
  | some previous => exact agrees_accepted_iff h hprev text
  | none =>
      by_cases hpos : 0 < seqNo
      · exact agrees_unaccepted_iff h hpos hprev text
      · have hnext := h.next_pos
        have hresumable : p.resumableOutcome digest (.text seqNo text) = .rejected := by
          simp [resumableOutcome, ResumableSession.acceptText, Int.not_lt.1 hpos, Outcome.ofPair]
        rw [agrees_of_not_accepted (by simp [hprev]), hresumable,
          handleOutcome_of_refused (.inl (by omega))]
        simp only [Diverges, hprev, true_iff, reduceCtorEq, and_false, false_and, exists_false,
          or_false]
        rintro ⟨-, hseq, -⟩
        omega

/-- The two paths agree on every stop. -/
theorem agrees_stop (h : Related digest p) (finalSeqNo : Int) :
    p.Agrees digest (.stop finalSeqNo) := by
  refine ⟨?_, fun _ _ hcmd => by cases hcmd⟩
  obtain ⟨e, he⟩ := h.running
  obtain ⟨ha, hcl⟩ := h.owned
  have hacked := h.acked
  have hnext := h.next_pos
  unfold handleOutcome resumableOutcome SessionHandle.completeInput ResumableSession.closeInput
    ResumableSession.checkClose ResumableSession.requireGeneration
  simp only [ha, hcl, h.closed, hacked]
  cases hc : p.handle.inputComplete with
  | true =>
      have hf := h.final hc
      by_cases hseq : finalSeqNo = p.handle.nextSeq - 1
      · have hneg : ¬ p.handle.nextSeq - 1 < 0 := by omega
        simp [hseq, hf, hneg, Outcome.ofAck, Outcome.ofPair]
      · by_cases hneg : finalSeqNo < 0 <;> simp [hseq, hneg, Outcome.ofAck, Outcome.ofPair]
  | false =>
      have hopen := SessionHandle.ensureInputOpen_of_open ⟨h.terminal hc, hc⟩ he
      by_cases hseq : finalSeqNo = p.handle.nextSeq - 1
      · have hneg : ¬ p.handle.nextSeq - 1 < 0 := by omega
        simp [hseq, hneg, hopen, Outcome.ofAck, Outcome.ofPair]
      · by_cases hneg : finalSeqNo < 0 <;> simp [hseq, hneg, hopen, Outcome.ofAck, Outcome.ofPair]

/-- A text on which the paths agree keeps them related. -/
theorem Related.text (h : Related digest p) {seqNo : Int} {text : String}
    (hagree : ¬ p.Diverges digest (.text seqNo text)) :
    Related digest (p.step digest (.text seqNo text)) := by
  obtain ⟨e, he⟩ := h.running
  have hnext := h.next_pos
  by_cases ha : p.handle.AcceptsText ⟨seqNo, text⟩
  · obtain ⟨hpos, htext, ⟨-, hc⟩, hprev, hseq⟩ := id ha
    simp only at hpos htext hprev hseq
    have hr : p.resumable.acceptText digest p.generation seqNo text false =
        (.ok (seqNo, false), p.resumable.recordText seqNo (digest text)) := by
      rw [acceptText_eq h hpos, hprev]
      simp [hseq, hc]
    rw [step, (SessionHandle.appendText_of_accepts ha he).2, hr]
    refine ⟨h.owned, ⟨_, rfl⟩, ?_, ?_, ?_, ?_, ?_, h.closed, ?_, h.terminal⟩
    · simp only [ResumableSession.recordText, SessionHandle.recordText]
      omega
    · simp only [SessionHandle.recordText]
      omega
    · intro seqNo'
      simp only [ResumableSession.recordText, SessionHandle.recordText]
      by_cases hs : seqNo' = seqNo
      · subst hs; simp
      · rw [Function.update_of_ne hs, Function.update_of_ne hs]
        exact h.hashes seqNo'
    · intro seqNo'
      simp only [SessionHandle.recordText]
      by_cases hs : seqNo' = seqNo
      · subst hs
        simp only [Function.update_self, Option.some.injEq, exists_eq', true_iff]
        omega
      · rw [Function.update_of_ne hs, h.accepted seqNo']
        omega
    · intro seqNo'
      simp only [SessionHandle.recordText]
      by_cases hs : seqNo' = seqNo
      · subst hs; simpa using htext
      · rw [Function.update_of_ne hs]
        exact h.nonempty seqNo'
    · intro hc'
      simp only [SessionHandle.recordText] at hc'
      rw [hc] at hc'
      cases hc'
  · -- text that is not new changes neither state
    have hr : (p.resumable.acceptText digest p.generation seqNo text false).2 = p.resumable := by
      by_cases hpos : 0 < seqNo
      · rw [acceptText_eq h hpos]
        cases hprev : p.handle.acceptedText seqNo with
        | some previous => dsimp only; split <;> rfl
        | none =>
            by_cases hseq : seqNo = p.handle.nextSeq
            · cases hc : p.handle.inputComplete with
              | true => simp [hseq]
              | false =>
                  have htext : text = "" := by
                    by_contra htext
                    exact ha ⟨hpos, htext, ⟨h.terminal hc, hc⟩, hprev, hseq⟩
                  exact absurd (.inl ⟨htext, hseq, hc⟩) hagree
            · simp [hseq]
      · simp [ResumableSession.acceptText, Int.not_lt.1 hpos]
    rw [step, SessionHandle.appendText_of_not_accepts ha, hr]
    exact h

/-- A stop keeps the paths related. -/
theorem Related.stop (h : Related digest p) (finalSeqNo : Int) :
    Related digest (p.step digest (.stop finalSeqNo)) := by
  obtain ⟨e, he⟩ := h.running
  obtain ⟨hatt, hcl⟩ := h.owned
  have hacked := h.acked
  by_cases ha : p.handle.AcceptsCompletion ⟨finalSeqNo⟩
  · obtain ⟨-, ⟨ht, hc⟩, hseq⟩ := id ha
    simp only at hseq
    have hr : p.resumable.closeInput p.generation finalSeqNo false =
        (.ok (finalSeqNo, false),
          { p.resumable with inputClosed := true, finalTextSeq := some finalSeqNo }) := by
      simp [ResumableSession.closeInput, ResumableSession.checkClose,
        ResumableSession.requireGeneration, hatt, hcl, h.closed, hc, hseq, hacked]
    rw [step, (SessionHandle.completeInput_of_accepts ha he).2, hr]
    exact ⟨h.owned, ⟨_, rfl⟩, h.acked, h.next_pos, h.hashes, h.accepted, h.nonempty, rfl,
      fun _ => by rw [hseq], by simp⟩
  · have hr : (p.resumable.closeInput p.generation finalSeqNo false).2 = p.resumable := by
      unfold ResumableSession.closeInput ResumableSession.checkClose
        ResumableSession.requireGeneration
      simp only [hatt, hcl, h.closed, hacked]
      cases hc : p.handle.inputComplete with
      | true =>
          by_cases hseq : finalSeqNo = p.handle.nextSeq - 1
          · simp [hseq, h.final hc]
          · simp [hseq]
      | false =>
          have hseq : finalSeqNo ≠ p.handle.nextSeq - 1 := fun hseq =>
            ha ⟨by have := h.next_pos; simp only; omega, ⟨h.terminal hc, hc⟩, hseq⟩
          simp [hseq]
    rw [step, SessionHandle.completeInput_of_not_accepts ha, hr]
    exact h

/-- The end of the executions keeps the paths related. -/
theorem Related.ended (h : Related digest p) (output : TerminalOutput) :
    Related digest (p.step digest (.ended output)) := by
  simp only [step]
  split
  · next hc =>
    have hterm : ∃ o, p.handle.emitTerminal output = { p.handle with terminal := o } := by
      unfold SessionHandle.emitTerminal
      split
      · exact ⟨_, rfl⟩
      · exact ⟨_, rfl⟩
    obtain ⟨o, ho⟩ := hterm
    rw [ho]
    exact ⟨h.owned, h.running, h.acked, h.next_pos, h.hashes, h.accepted, h.nonempty, h.closed,
      h.final, fun hc' => by simp [hc] at hc'⟩
  · exact h

/-- The commands the paths agree on are those that do not diverge. -/
theorem agrees_iff (h : Related digest p) (command : InputCommand) :
    p.Agrees digest command ↔ ¬ p.Diverges digest command := by
  cases command with
  | text seqNo text => exact agrees_text_iff h seqNo text
  | stop finalSeqNo => exact iff_of_true (agrees_stop h finalSeqNo) (fun hd => hd)
  | ended output => exact iff_of_true ⟨rfl, fun _ _ hcmd => by cases hcmd⟩ (fun hd => hd)

theorem step_related (h : Related digest p) {command : InputCommand}
    (hd : ¬ p.Diverges digest command) : Related digest (p.step digest command) := by
  cases command with
  | text seqNo text => exact h.text hd
  | stop finalSeqNo => exact h.stop finalSeqNo
  | ended output => exact h.ended output

variable (digest)

/-- Over every sequence of commands of one attachment, both paths give every command the same
outcome, and every resent accepted pair the outcome `duplicate`, exactly when no command is text
resent after the stop, empty text in sequence, or changed text with the digest of the accepted. -/
theorem input_paths_agree_iff (generation : Nat) (commands : List InputCommand) :
    Along (step digest) (fun p command => p.Agrees digest command) (init generation) commands ↔
      Along (step digest) (fun p command => ¬ p.Diverges digest command) (init generation)
        commands := by
  suffices h : ∀ p, Related digest p →
      (Along (step digest) (fun p command => p.Agrees digest command) p commands ↔
        Along (step digest) (fun p command => ¬ p.Diverges digest command) p commands) from
    h _ (init_related digest generation)
  intro p hp
  induction commands generalizing p with
  | nil => exact Iff.rfl
  | cons command commands ih =>
      rw [along_cons, along_cons, agrees_iff hp command]
      refine and_congr_right fun hd => ?_
      exact ih _ (step_related hp hd)

end

/-- A pair accepted before the stop and resent after it: the `SessionHandle` refuses it, the
`ResumableSession` acknowledges it as a duplicate. -/
theorem resend_after_stop_diverges :
    ¬ Along (step (id : String → String)) (fun p command => p.Agrees id command) (init 1)
      [.text 1 "hello", .stop 1, .text 1 "hello"] := by
  rintro ⟨-, -, ⟨hsame, -⟩, -⟩
  exact absurd hsame (by decide)

end InputPaths

end StreamingTts.Gateway
