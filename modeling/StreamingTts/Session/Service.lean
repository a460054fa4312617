import Mathlib.Data.List.Basic
import Mathlib.Logic.Function.Basic
import StreamingTts.Lib.Transition
import StreamingTts.Session.Types

/-!
# The input side of a logical session

`SessionHandle` of `engine/session/service.py`: numbered text, end of input and cancellation, in
front of one execution. The input lock is held over the execution call, so a command is one step;
`cancel` releases it before it calls the execution, and its terminal output is a step of its own,
like the terminal the execution emits. The execution may raise at any call, which is the `raises` of
a command: `Execution` records only the calls that returned.

A command records what it accepted *before* it calls the execution. `accepted_iff_executed_iff` says
what this costs: the accepted texts are the executed ones in exactly the runs in which no call to
the execution raises.
-/

namespace StreamingTts.Session

open Lib (Along run along_cons)

/-- The codes of a `SessionProtocolError` of a session command. -/
inductive ProtocolCode
  | invalidTextSeq
  | emptyText
  | textSeqConflict
  | textSeqGap
  | invalidFinalSeq
  | finalSeqConflict
  | finalSeqMismatch
  | sessionTerminal
  | inputAlreadyComplete
  | sessionNotStarted
  deriving DecidableEq, Repr

/-- The spelling of a code on the wire. -/
def ProtocolCode.text : ProtocolCode → String
  | .invalidTextSeq => "invalid_text_seq"
  | .emptyText => "empty_text"
  | .textSeqConflict => "text_seq_conflict"
  | .textSeqGap => "text_seq_gap"
  | .invalidFinalSeq => "invalid_final_seq"
  | .finalSeqConflict => "final_seq_conflict"
  | .finalSeqMismatch => "final_seq_mismatch"
  | .sessionTerminal => "session_terminal"
  | .inputAlreadyComplete => "input_already_complete"
  | .sessionNotStarted => "session_not_started"

/-- `SessionProtocolError`. -/
structure SessionProtocolError where
  code : ProtocolCode
  message : String
  deriving DecidableEq, Repr

/-- How a command fails: it is refused, or the execution call it made raised. -/
inductive CommandError
  | protocol (e : SessionProtocolError)
  | execution
  deriving DecidableEq, Repr

/-- `AppendText`. -/
structure AppendText where
  seqNo : Int
  text : String
  deriving DecidableEq, Repr

/-- `CompleteInput`. -/
structure CompleteInput where
  finalSeqNo : Int
  deriving DecidableEq, Repr

/-- `InputAck`. -/
structure InputAck where
  seqNo : Int
  duplicate : Bool := false
  deriving DecidableEq, Repr

/-- What an `ExecutionHandle` was told: the texts whose push returned, whether its end of input
returned, and whether it was cancelled. -/
structure Execution where
  pushed : List String := []
  completed : Bool := false
  cancelled : Bool := false
  deriving DecidableEq, Repr

/-- The input state of a `SessionHandle`. -/
structure SessionHandle where
  execution : Option Execution
  acceptedText : Int → Option String
  nextSeq : Int
  inputComplete : Bool
  terminal : Option TerminalOutput

namespace SessionHandle

/-- The handle `SessionService.create` returns, with its execution started. -/
def started : SessionHandle where
  execution := some {}
  acceptedText := fun _ => none
  nextSeq := 1
  inputComplete := false
  terminal := none

/-- `accepted_text_seq`. -/
def acceptedTextSeq (s : SessionHandle) : Int := s.nextSeq - 1

/-- `_ensure_input_open`, with the execution it has checked to be there. -/
def ensureInputOpen (s : SessionHandle) : Except SessionProtocolError Execution :=
  if s.terminal.isSome then .error ⟨.sessionTerminal, "session is terminal"⟩
  else if s.inputComplete then .error ⟨.inputAlreadyComplete, "input is complete"⟩
  else
    match s.execution with
    | none => .error ⟨.sessionNotStarted, "session is not started"⟩
    | some e => .ok e

/-- The state in which `append_text` has recorded new text, before it is pushed. -/
def recordText (s : SessionHandle) (command : AppendText) : SessionHandle :=
  { s with
    acceptedText := Function.update s.acceptedText command.seqNo (some command.text)
    nextSeq := s.nextSeq + 1 }

/-- `append_text`; `raises` is whether the execution's `push_text` raises. -/
def appendText (s : SessionHandle) (command : AppendText) (raises : Bool) :
    Except CommandError InputAck × SessionHandle :=
  if command.seqNo ≤ 0 then
    (.error (.protocol ⟨.invalidTextSeq, "seq_no must be positive"⟩), s)
  else if command.text = "" then
    (.error (.protocol ⟨.emptyText, "text must not be empty"⟩), s)
  else
    match s.ensureInputOpen with
    | .error e => (.error (.protocol e), s)
    | .ok execution =>
        match s.acceptedText command.seqNo with
        | some previous =>
            if previous ≠ command.text then
              (.error (.protocol
                ⟨.textSeqConflict, "same seq_no was used for different text"⟩), s)
            else (.ok ⟨command.seqNo, true⟩, s)
        | none =>
            if command.seqNo ≠ s.nextSeq then
              (.error (.protocol ⟨.textSeqGap, "expected seq_no " ++ toString s.nextSeq ++
                ", got " ++ toString command.seqNo⟩), s)
            else if raises then (.error .execution, s.recordText command)
            else
              (.ok ⟨command.seqNo, false⟩, { s.recordText command with
                execution := some { execution with pushed := execution.pushed ++ [command.text] } })

/-- `complete_input`; `raises` is whether the execution's `complete_input` raises. -/
def completeInput (s : SessionHandle) (command : CompleteInput) (raises : Bool) :
    Except CommandError InputAck × SessionHandle :=
  if command.finalSeqNo < 0 then
    (.error (.protocol ⟨.invalidFinalSeq, "final_seq_no must be non-negative"⟩), s)
  else if s.inputComplete then
    if command.finalSeqNo ≠ s.nextSeq - 1 then
      (.error (.protocol ⟨.finalSeqConflict, "input was already completed"⟩), s)
    else (.ok ⟨command.finalSeqNo, true⟩, s)
  else
    match s.ensureInputOpen with
    | .error e => (.error (.protocol e), s)
    | .ok execution =>
        let accepted := s.nextSeq - 1
        if command.finalSeqNo ≠ accepted then
          (.error (.protocol ⟨.finalSeqMismatch, "expected final_seq_no " ++ toString accepted ++
            ", got " ++ toString command.finalSeqNo⟩), s)
        else if raises then (.error .execution, { s with inputComplete := true })
        else
          (.ok ⟨command.finalSeqNo, false⟩,
            { s with inputComplete := true, execution := some { execution with completed := true } })

/-- `cancel` up to the execution call it makes after its locked section. -/
def cancel (s : SessionHandle) : SessionHandle :=
  if s.terminal.isSome then s
  else
    { s with
      inputComplete := true
      execution := s.execution.map fun e => { e with cancelled := true } }

/-- `_emit_terminal`: the first terminal output is the only one. -/
def emitTerminal (s : SessionHandle) (output : TerminalOutput) : SessionHandle :=
  if s.terminal.isSome then s else { s with terminal := some output }

/-- The commands of a session and the terminal outputs that may arrive between them. -/
inductive Op
  | append (command : AppendText) (raises : Bool)
  | complete (command : CompleteInput) (raises : Bool)
  | cancel
  | emitTerminal (output : TerminalOutput)
  deriving DecidableEq, Repr

/-- The state a command leaves, whether it returned or raised. -/
def step (s : SessionHandle) : Op → SessionHandle
  | .append command raises => (s.appendText command raises).2
  | .complete command raises => (s.completeInput command raises).2
  | .cancel => s.cancel
  | .emitTerminal output => s.emitTerminal output

/-! ## Which commands reach the execution -/

/-- The input is open: neither a terminal nor an end of input was seen. -/
def InputOpen (s : SessionHandle) : Prop := s.terminal = none ∧ s.inputComplete = false

/-- The command is new text: `append_text` accepts it and calls the execution. -/
def AcceptsText (s : SessionHandle) (command : AppendText) : Prop :=
  0 < command.seqNo ∧ command.text ≠ "" ∧ s.InputOpen ∧ s.acceptedText command.seqNo = none ∧
    command.seqNo = s.nextSeq

/-- The command ends the input: `complete_input` accepts it and calls the execution. -/
def AcceptsCompletion (s : SessionHandle) (command : CompleteInput) : Prop :=
  0 ≤ command.finalSeqNo ∧ s.InputOpen ∧ command.finalSeqNo = s.nextSeq - 1

/-- The command reaches the execution and the call raises. -/
def CallRaises (s : SessionHandle) : Op → Prop
  | .append command raises => s.AcceptsText command ∧ raises = true
  | .complete command raises => s.AcceptsCompletion command ∧ raises = true
  | _ => False

section
variable {s : SessionHandle} {e : Execution}

theorem ensureInputOpen_of_open (hopen : s.InputOpen) (he : s.execution = some e) :
    s.ensureInputOpen = .ok e := by
  obtain ⟨ht, hc⟩ := hopen
  simp [ensureInputOpen, ht, hc, he]

theorem open_of_ensureInputOpen (h : s.ensureInputOpen = .ok e) : s.InputOpen := by
  unfold ensureInputOpen at h
  split_ifs at h with ht hc
  exact ⟨by simpa using ht, by simpa using hc⟩

/-- New text is recorded as accepted first and then pushed. -/
theorem appendText_of_accepts {command : AppendText} (h : s.AcceptsText command)
    (he : s.execution = some e) :
    s.appendText command true = (.error .execution, s.recordText command) ∧
      s.appendText command false = (.ok ⟨command.seqNo, false⟩, { s.recordText command with
        execution := some { e with pushed := e.pushed ++ [command.text] } }) := by
  obtain ⟨hpos, htext, hopen, hnew, hnext⟩ := h
  have hopen' := ensureInputOpen_of_open hopen he
  constructor
  all_goals
    unfold appendText
    rw [if_neg (by omega), if_neg htext, hopen', hnew]
    simp [hnext]

/-- Text that is not new changes nothing. -/
theorem appendText_of_not_accepts {command : AppendText} (h : ¬ s.AcceptsText command)
    (raises : Bool) : (s.appendText command raises).2 = s := by
  unfold appendText
  by_cases hpos : command.seqNo ≤ 0
  · rw [if_pos hpos]
  · rw [if_neg hpos]
    by_cases htext : command.text = ""
    · rw [if_pos htext]
    · rw [if_neg htext]
      cases hopen : s.ensureInputOpen with
      | error e => rfl
      | ok e =>
          cases hprev : s.acceptedText command.seqNo with
          | some previous => dsimp only; split <;> rfl
          | none =>
              have hgap : command.seqNo ≠ s.nextSeq := fun hnext =>
                h ⟨by omega, htext, open_of_ensureInputOpen hopen, hprev, hnext⟩
              simp [hgap]

/-- An end of input is recorded first and then told to the execution. -/
theorem completeInput_of_accepts {command : CompleteInput} (h : s.AcceptsCompletion command)
    (he : s.execution = some e) :
    s.completeInput command true = (.error .execution, { s with inputComplete := true }) ∧
      s.completeInput command false = (.ok ⟨command.finalSeqNo, false⟩,
        { s with inputComplete := true, execution := some { e with completed := true } }) := by
  obtain ⟨hpos, hopen, hnext⟩ := h
  have hopen' := ensureInputOpen_of_open hopen he
  constructor
  all_goals
    unfold completeInput
    rw [if_neg (by omega), if_neg (by simp [hopen.2]), hopen']
    simp [hnext]

/-- An end of input that is not new changes nothing. -/
theorem completeInput_of_not_accepts {command : CompleteInput} (h : ¬ s.AcceptsCompletion command)
    (raises : Bool) : (s.completeInput command raises).2 = s := by
  unfold completeInput
  by_cases hpos : command.finalSeqNo < 0
  · rw [if_pos hpos]
  · rw [if_neg hpos]
    by_cases hc : s.inputComplete = true
    · rw [if_pos hc]
      split <;> rfl
    · rw [if_neg hc]
      cases hopen : s.ensureInputOpen with
      | error e => rfl
      | ok e =>
          have hne : command.finalSeqNo ≠ s.nextSeq - 1 := fun hnext =>
            h ⟨by omega, open_of_ensureInputOpen hopen, hnext⟩
          simp [hne]

end

/-! ## Accepted is executed, unless the execution raises -/

/-- What was accepted is what was executed: the pushed texts are those of the sequence numbers
`1, …, accepted_text_seq`, and the input is complete only if the execution was told so. -/
def Executed (s : SessionHandle) : Prop :=
  ∃ e, s.execution = some e ∧
    e.pushed.map some = (List.range s.acceptedTextSeq.toNat).map
      (fun i : Nat => s.acceptedText ((i : Int) + 1)) ∧
    (s.inputComplete = true → e.completed = true ∨ e.cancelled = true)

/-- The command, sent again after its execution call raised, is new and reaches the execution. -/
def RetryTakesEffect (s : SessionHandle) : Op → Prop
  | .append command raises =>
      ∃ s', (s.step (.append command raises)).appendText command false =
          (.ok ⟨command.seqNo, false⟩, s') ∧
        s'.execution.map (·.pushed) =
          (s.step (.append command raises)).execution.map (·.pushed ++ [command.text])
  | .complete command raises =>
      ∃ s', (s.step (.complete command raises)).completeInput command false =
          (.ok ⟨command.finalSeqNo, false⟩, s') ∧ s'.execution.map (·.completed) = some true
  | _ => True

/-- One command keeps input accepted iff executed, and if its execution call raised it can be
retried. -/
def StepExecuted (s : SessionHandle) (op : Op) : Prop :=
  (s.step op).Executed ∧ (s.CallRaises op → s.RetryTakesEffect op)

/-- The invariant of the runs without a failing call. -/
structure InputInv (s : SessionHandle) : Prop where
  executed : s.Executed
  next_pos : 1 ≤ s.nextSeq
  told : ∀ e, s.execution = some e → s.inputComplete = false →
    e.completed = false ∧ e.cancelled = false

theorem started_inputInv : InputInv started where
  executed := ⟨{}, rfl, rfl, by simp [started]⟩
  next_pos := Int.le_refl _
  told := by rintro e ⟨⟩ -; exact ⟨rfl, rfl⟩

/-- The texts of the accepted sequence numbers grow by the newly accepted one. -/
theorem range_update_accepted (accepted : Int → Option String) {next : Int} (hpos : 1 ≤ next)
    (text : String) :
    ((List.range (next + 1 - 1).toNat).map fun i : Nat =>
        Function.update accepted next (some text) ((i : Int) + 1)) =
      ((List.range (next - 1).toNat).map fun i : Nat => accepted ((i : Int) + 1)) ++
        [some text] := by
  rw [show (next + 1 - 1).toNat = (next - 1).toNat + 1 by omega, List.range_succ, List.map_append]
  congr 1
  · refine List.map_congr_left fun i hi => ?_
    have := List.mem_range.1 hi
    rw [Function.update_of_ne (by omega)]
  · have hlast : (((next - 1).toNat : Nat) : Int) + 1 = next := by omega
    rw [List.map_singleton, hlast, Function.update_self]

/-- A command whose execution call does not raise keeps the invariant. -/
theorem step_inputInv {s : SessionHandle} {op : Op} (h : InputInv s) (hok : ¬ s.CallRaises op) :
    InputInv (s.step op) := by
  obtain ⟨e, he, hpushed, htold⟩ := h.executed
  have hpos := h.next_pos
  cases op with
  | append command raises =>
      by_cases ha : s.AcceptsText command
      · have hr : raises = false := by simpa [CallRaises, ha] using hok
        subst hr
        rw [step, (appendText_of_accepts ha he).2]
        have hseq : command.seqNo = s.nextSeq := ha.2.2.2.2
        refine ⟨⟨_, rfl, ?_, htold⟩, by simp only [recordText]; omega, ?_⟩
        · simp only [acceptedTextSeq, recordText, hseq]
          rw [range_update_accepted s.acceptedText hpos, List.map_append, hpushed]
          rfl
        · rintro e' ⟨⟩ hc
          exact h.told e he hc
      · rw [step, appendText_of_not_accepts ha]
        exact h
  | complete command raises =>
      by_cases ha : s.AcceptsCompletion command
      · have hr : raises = false := by simpa [CallRaises, ha] using hok
        subst hr
        rw [step, (completeInput_of_accepts ha he).2]
        exact ⟨⟨_, rfl, hpushed, by simp⟩, hpos, by simp⟩
      · rw [step, completeInput_of_not_accepts ha]
        exact h
  | cancel =>
      simp only [step, cancel]
      split
      · exact h
      · refine ⟨⟨{ e with cancelled := true }, by simp [he], hpushed, by simp⟩, hpos, by simp⟩
  | emitTerminal output =>
      simp only [step, emitTerminal]
      split
      · exact h
      · exact ⟨⟨e, he, hpushed, htold⟩, hpos, h.told⟩

/-- A command whose execution call raises is accepted and not executed. -/
theorem not_executed_of_raises {s : SessionHandle} {op : Op} (h : InputInv s)
    (hraise : s.CallRaises op) : ¬ (s.step op).Executed := by
  obtain ⟨e, he, hpushed, -⟩ := h.executed
  have hpos := h.next_pos
  rintro ⟨e', he', hpushed', htold'⟩
  cases op with
  | append command raises =>
      obtain ⟨ha, rfl⟩ := hraise
      rw [step, (appendText_of_accepts ha he).1] at he' hpushed'
      -- one number more was accepted than texts were pushed
      have hlen := congrArg List.length hpushed
      have hlen' := congrArg List.length hpushed'
      simp only [recordText, he, Option.some.injEq, acceptedTextSeq, List.length_map,
        List.length_range] at he' hlen hlen'
      subst he'
      omega
  | complete command raises =>
      obtain ⟨ha, rfl⟩ := hraise
      rw [step, (completeInput_of_accepts ha he).1] at he' htold'
      simp only [he, Option.some.injEq] at he'
      subst he'
      have htold := h.told e he ha.2.1.2
      simp [htold.1, htold.2] at htold'
  | cancel => exact hraise
  | emitTerminal output => exact hraise

/-- In every run of a session, input is accepted iff it was executed after every command, and
retriable after every failed one, exactly when no call to the execution raises. -/
theorem accepted_iff_executed_iff (ops : List Op) :
    Along step StepExecuted started ops ↔
      Along step (fun s op => ¬ s.CallRaises op) started ops := by
  suffices h : ∀ s, InputInv s →
      (Along step StepExecuted s ops ↔ Along step (fun s op => ¬ s.CallRaises op) s ops) from
    h started started_inputInv
  intro s hs
  induction ops generalizing s with
  | nil => exact Iff.rfl
  | cons op ops ih =>
      rw [along_cons, along_cons]
      by_cases hraise : s.CallRaises op
      · refine ⟨fun h => absurd h.1.1 (not_executed_of_raises hs hraise), fun h => absurd hraise h.1⟩
      · have hs' := step_inputInv hs hraise
        have hstep : s.StepExecuted op := ⟨hs'.executed, fun h => absurd h hraise⟩
        simp only [hstep, hraise, not_false_eq_true, true_and]
        exact ih (s.step op) hs'

/-- A push that raises: the text counts as accepted, the execution never saw it, and the retry is
answered as a duplicate without a push. -/
theorem append_not_retriable :
    let s := started.step (.append ⟨1, "hello"⟩ true)
    ¬ Along step StepExecuted started [.append ⟨1, "hello"⟩ true] ∧ s.acceptedTextSeq = 1 ∧
      (s.appendText ⟨1, "hello"⟩ false).1 = .ok ⟨1, true⟩ ∧
      (s.appendText ⟨1, "hello"⟩ false).2.execution = some {} := by
  refine ⟨?_, rfl, rfl, rfl⟩
  rintro ⟨⟨⟨e, he, hpushed, -⟩, -⟩, -⟩
  cases he
  exact absurd hpushed (by decide)

end SessionHandle

end StreamingTts.Session
