import Mathlib.Logic.Function.Basic

/-!
# The input side of a resumable WebSocket stream

`ResumableSession.accept_text` and `close_input` of `engine/gateway/websocket_resume.py`. The state
lock is released while the engine callback runs, so each method is a locked check, the callback, and
a locked effect; the three parts have definitions of their own and the methods compose them under
the input lock. Accepted texts are remembered by their digest, and `δ` is the type of the digests.
-/

namespace StreamingTts.Gateway

/-- The codes of a `ResumeProtocolError` of an input command. -/
inductive ResumeCode
  | invalidTextSequence
  | textSequenceConflict
  | textSequenceGap
  | inputAlreadyClosed
  | finalTextSequenceMismatch
  | finalTextSequenceConflict
  | resumeAttachmentSuperseded
  deriving DecidableEq, Repr

/-- The spelling of a code on the wire. -/
def ResumeCode.text : ResumeCode → String
  | .invalidTextSequence => "invalid_text_sequence"
  | .textSequenceConflict => "text_sequence_conflict"
  | .textSequenceGap => "text_sequence_gap"
  | .inputAlreadyClosed => "input_already_closed"
  | .finalTextSequenceMismatch => "final_text_sequence_mismatch"
  | .finalTextSequenceConflict => "final_text_sequence_conflict"
  | .resumeAttachmentSuperseded => "resume_attachment_superseded"

/-- `ResumeProtocolError`. -/
structure ResumeProtocolError where
  code : ResumeCode
  message : String
  deriving DecidableEq, Repr

/-- How an input command fails: it is refused, or the engine callback raised. -/
inductive ResumeCommandError
  | protocol (e : ResumeProtocolError)
  | engine
  deriving DecidableEq, Repr

/-- The state of a `ResumableSession` that its input methods read and write; `attachment` is the
generation of the current attachment. -/
structure ResumableSession (δ : Type) where
  attachment : Option Nat
  closed : Bool
  textHashes : Int → Option δ
  ackedTextSeq : Int
  inputClosed : Bool
  finalTextSeq : Option Int
  terminal : Bool

namespace ResumableSession
section
variable {δ : Type}

/-- A stream to which nothing was sent, with the attachment `generation`. -/
def attached (generation : Nat) : ResumableSession δ where
  attachment := some generation
  closed := false
  textHashes := fun _ => none
  ackedTextSeq := 0
  inputClosed := false
  finalTextSeq := none
  terminal := false

/-- `_require_generation_locked`. -/
def requireGeneration (s : ResumableSession δ) (generation : Nat) :
    Except ResumeProtocolError Unit :=
  if s.closed ∨ s.attachment ≠ some generation then
    .error ⟨.resumeAttachmentSuperseded, "this websocket no longer owns the resumable stream"⟩
  else .ok ()

/-- The locked check of `accept_text`: whether the text is a duplicate. -/
def checkText [DecidableEq δ] (s : ResumableSession δ) (generation : Nat) (seqNo : Int) (digest : δ) :
    Except ResumeProtocolError Bool :=
  match s.requireGeneration generation with
  | .error e => .error e
  | .ok () =>
      if seqNo ≤ s.ackedTextSeq then
        if s.textHashes seqNo ≠ some digest then
          .error ⟨.textSequenceConflict,
            "text seq_no was already accepted with different content"⟩
        else .ok true
      else if seqNo ≠ s.ackedTextSeq + 1 then
        .error ⟨.textSequenceGap, "expected text seq_no " ++ toString (s.ackedTextSeq + 1)⟩
      else if s.inputClosed then
        .error ⟨.inputAlreadyClosed, "cannot send text after stop"⟩
      else .ok false

/-- The locked effect of `accept_text`, after the push returned. -/
def recordText (s : ResumableSession δ) (seqNo : Int) (digest : δ) : ResumableSession δ :=
  { s with
    textHashes := Function.update s.textHashes seqNo (some digest)
    ackedTextSeq := seqNo }

/-- `accept_text`: the acknowledged sequence number and whether the text was a duplicate; `raises`
is whether the push raises. -/
def acceptText [DecidableEq δ] (digest : String → δ) (s : ResumableSession δ) (generation : Nat)
    (seqNo : Int) (text : String) (raises : Bool) :
    Except ResumeCommandError (Int × Bool) × ResumableSession δ :=
  if seqNo ≤ 0 then
    (.error (.protocol ⟨.invalidTextSequence, "resumable text seq_no must start at 1"⟩), s)
  else
    match s.checkText generation seqNo (digest text) with
    | .error e => (.error (.protocol e), s)
    | .ok true => (.ok (s.ackedTextSeq, true), s)
    | .ok false =>
        if raises then (.error .engine, s)
        else (.ok (seqNo, false), s.recordText seqNo (digest text))

/-- The locked check of `close_input`: whether the stop is a duplicate. -/
def checkClose (s : ResumableSession δ) (generation : Nat) (finalSeqNo : Int) :
    Except ResumeProtocolError Bool :=
  match s.requireGeneration generation with
  | .error e => .error e
  | .ok () =>
      if finalSeqNo ≠ s.ackedTextSeq then
        .error ⟨.finalTextSequenceMismatch,
          "stop final_seq_no must equal " ++ toString s.ackedTextSeq⟩
      else if s.inputClosed then
        if s.finalTextSeq ≠ some finalSeqNo then
          .error ⟨.finalTextSequenceConflict,
            "stop conflicts with the already accepted final_seq_no"⟩
        else .ok true
      else .ok false

/-- The rollback of `close_input` when the engine callback raised. -/
def reopenInput (s : ResumableSession δ) : ResumableSession δ :=
  if s.terminal then s else { s with inputClosed := false, finalTextSeq := none }

/-- `close_input`: the final sequence number and whether the stop was a duplicate; `raises` is
whether the close raises. -/
def closeInput (s : ResumableSession δ) (generation : Nat) (finalSeqNo : Int) (raises : Bool) :
    Except ResumeCommandError (Int × Bool) × ResumableSession δ :=
  match s.checkClose generation finalSeqNo with
  | .error e => (.error (.protocol e), s)
  | .ok true => (.ok (finalSeqNo, true), s)
  | .ok false =>
      let s' := { s with inputClosed := true, finalTextSeq := some finalSeqNo }
      if raises then (.error .engine, s'.reopenInput) else (.ok (finalSeqNo, false), s')

end
end ResumableSession

end StreamingTts.Gateway
