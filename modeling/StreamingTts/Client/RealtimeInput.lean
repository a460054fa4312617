import Mathlib.Data.Nat.Init
import Mathlib.Logic.Function.Basic
import StreamingTts.Client.Pool

/-!
# The input of a Realtime session across recoveries

`send_text`, `end` and `cancel` of `OpenAIRealtimeStreamSession` in
`client/src/qwen3tts/_adapters/openai_realtime.py`, with its reader and `_recover_connection`. The
callers of the session exclude each other with `_send_lock`, so one call at a time is under way; the
reader has no such lock, and the two meet in `_recovery_lock` alone. A step is what a thread does
between two points at which it reads a connection, writes to one or waits for a lock.

The journal is a `deque`. It counts its changes, and an iterator over it raises `RuntimeError` when it
finds another count than the one it began with; no handler of the session catches that. A write raises
on a connection that the client has closed or on which an earlier write has raised, and may raise on
every other one.
-/

namespace StreamingTts.Client

namespace Realtime

/-! ## The session -/

/-- A frame of the client that the input of the response depends on. -/
inductive InputFrame
  /-- `qwen.response.resume` -/
  | resume
  /-- `qwen.input_text_buffer.append` -/
  | append (sequence : Nat) (text : String)
  /-- `qwen.input_text_buffer.commit` -/
  | commit
  /-- `response.cancel` -/
  | cancel
  deriving DecidableEq, Repr

/-- The call that holds `_send_lock`. -/
inductive Call
  | sendText (sequence : Nat) (text : String)
  | end
  | cancel
  deriving DecidableEq, Repr

/-- The frame that a call writes. -/
def Call.frame : Call → InputFrame
  | .sendText sequence text => .append sequence text
  | .end => .commit
  | .cancel => .cancel

/-- What the leader of a recovery has got to. -/
inductive ResumePhase
  | dialing (attempt : Nat)
  /-- the `qwen.response.resumed` of connection `new` has passed its check -/
  | resumed (attempt : Nat) (new : Conn) (acked : Nat) (inputClosed : Bool)
  /-- the entries `rest` of the journal are still to be written; `version` is the iterator's count -/
  | replaying (attempt : Nat) (new : Conn) (rest : List (Nat × String)) (inputClosed : Bool)
      (version : Nat)
  /-- `_replay_unacked_input` has returned -/
  | replayed (new : Conn)
  deriving DecidableEq, Repr

/-- A thread in `_recover_connection`. -/
inductive Recovery
  | called
  /-- at `_recovery_lock`, with the connection that it has read as the failed one -/
  | waiting (failedConn : Conn)
  | leading (phase : ResumePhase)
  deriving DecidableEq, Repr

/-- Whether the thread holds `_recovery_lock`. -/
def Recovery.leads : Recovery → Bool
  | .leading _ => true
  | _ => false

/-- The thread that holds `_send_lock`. -/
inductive CallerTask
  | idle
  | writing (call : Call)
  | recovering (call : Call) (r : Recovery)
  /-- `cancel` writes its frame once more behind its recovery -/
  | again
  deriving DecidableEq, Repr

/-- The reader. -/
inductive ReaderTask
  | idle
  | receiving (conn : Conn)
  | recovering (r : Recovery)
  | exited
  deriving DecidableEq, Repr

/-- The connections of a session and the texts on them. `returned` are the texts whose `send_text`
returned, `acknowledged` the largest number the server has acknowledged, and `ackedAt` the one it had
acknowledged when the input was replayed to a connection. -/
structure InputState where
  resumeSupported : Bool
  streamResumeAttempts : Nat
  conn : Conn
  nextSequence : Nat
  ackedTextSeq : Nat
  textJournal : List (Nat × String)
  /-- the changes of the journal so far -/
  version : Nat
  commitSent : Bool
  dialed : Nat
  /-- the client has closed the connection, or a write to it has raised -/
  closed : Conn → Bool
  written : Conn → List InputFrame
  returned : List Nat
  acknowledged : Nat
  ackedAt : Conn → Nat

/-- The fields of the session that its input works on, and its threads. -/
structure InputSession extends InputState where
  inputClosed : Bool
  transportClosed : Bool
  responseTerminal : Bool
  caller : CallerTask
  reader : ReaderTask

/-- A thread of the session. -/
inductive InputThread
  | caller
  | reader
  deriving DecidableEq, Repr

/-- How a step of a recovery comes out. -/
inductive ResumeOutcome
  | failed
  /-- the replacement does not support `qwen.response.resume` -/
  | unsupported
  | resumed (acked : Nat) (inputClosed : Bool)
  | ok
  deriving DecidableEq, Repr

/-- What happens next. -/
inductive InputStep
  | sendText (text : String) (seqNo : Option Nat)
  | end
  | cancel
  /-- the caller writes its frame -/
  | write (ok : Bool)
  /-- the reader goes to its connection -/
  | pick
  | textAck (sequence : Nat)
  | responseDone
  /-- any other event -/
  | event
  /-- the reader gets an exception -/
  | breaks
  /-- a thread goes on in `_recover_connection` -/
  | recover (t : InputThread) (outcome : ResumeOutcome)
  deriving DecidableEq, Repr

namespace InputSession

/-- A session behind its handshake, on connection `0`. One that was opened with its text takes no input. -/
def opened (resumeSupported : Bool) (streamResumeAttempts : Nat) (initialText : Bool) : InputSession where
  resumeSupported := resumeSupported
  streamResumeAttempts := streamResumeAttempts
  conn := 0
  nextSequence := 1
  ackedTextSeq := 0
  textJournal := []
  version := 0
  inputClosed := initialText
  commitSent := false
  transportClosed := false
  responseTerminal := false
  caller := .idle
  reader := .idle
  dialed := 1
  closed _ := false
  written _ := []
  returned := []
  acknowledged := 0
  ackedAt _ := 0

variable (s : InputSession)

/-- Whether a recovery is running. -/
def recovering : Bool :=
  (match s.caller with
    | .recovering _ r => r.leads
    | _ => false) ||
  (match s.reader with
    | .recovering r => r.leads
    | _ => false)

/-- `_check_input_open`. -/
def inputOpen : Bool := !s.inputClosed && !s.transportClosed

/-- A frame is written. -/
def writeTo (c : Conn) (f : InputFrame) : InputSession :=
  { s with written := Function.update s.written c (s.written c ++ [f]) }

/-- `ws_close`, or a write that raises. -/
def close (c : Conn) : InputSession := { s with closed := Function.update s.closed c true }

/-- `_finish_transport`. Whether the connection is closed or given back does not matter here. -/
def finishTransport : InputSession := { s with transportClosed := true }

/-! ### The calls -/

/-- `send_text` up to its write. -/
def sendText (text : String) (seqNo : Option Nat) : InputSession :=
  match s.caller with
  | .idle =>
      if text = "" then s
      else if !s.inputOpen then s
      else
        let sequence := seqNo.getD s.nextSequence
        if sequence ≠ s.nextSequence then s
        else
          { s with
            textJournal :=
              if s.resumeSupported then s.textJournal ++ [(sequence, text)] else s.textJournal
            version := if s.resumeSupported then s.version + 1 else s.version
            nextSequence := s.nextSequence + 1
            caller := .writing (.sendText sequence text) }
  | _ => s

/-- `end` up to its write. -/
def endInput : InputSession :=
  match s.caller with
  | .idle =>
      if !s.inputOpen then s
      else { s with inputClosed := true, commitSent := true, caller := .writing .end }
  | _ => s

/-- `cancel` up to its write. -/
def cancel : InputSession :=
  match s.caller with
  | .idle =>
      if s.transportClosed || s.responseTerminal then s
      else { s with inputClosed := true, caller := .writing .cancel }
  | _ => s

/-- A call returns. -/
def finishCall : Call → InputSession
  | .sendText sequence _ => { s with returned := s.returned ++ [sequence], caller := .idle }
  | .end | .cancel => { s with caller := .idle }

/-- The write of a call. -/
def write (ok : Bool) : InputSession :=
  match s.caller with
  | .writing call =>
      if ok && !s.closed s.conn then (s.writeTo s.conn call.frame).finishCall call
      else { s.close s.conn with caller := .recovering call .called }
  | .again =>
      if ok && !s.closed s.conn then { s.writeTo s.conn .cancel with caller := .idle }
      else { s.close s.conn with caller := .idle }
  | _ => s

/-- `_recover_connection` has returned to the call. -/
def callRecovered : Call → Bool → InputSession
  | .cancel, true => { s with caller := .again }
  | .cancel, false => { s.finishTransport with caller := .idle }
  | call, true => s.finishCall call
  | _, false => { s with caller := .idle }

/-! ### The reader -/

/-- The top of `_reader_loop`. -/
def pick : InputSession :=
  match s.reader with
  | .idle =>
      if s.transportClosed then { s with reader := .exited }
      else { s with reader := .receiving s.conn }
  | _ => s

/-- Entries that are acknowledged leave the journal. -/
def popAcked (sequence : Nat) : InputSession :=
  let kept := s.textJournal.dropWhile fun entry => entry.1 ≤ sequence
  { s with
    ackedTextSeq := sequence
    textJournal := kept
    version := s.version + (s.textJournal.length - kept.length)
    acknowledged := max s.acknowledged sequence }

/-- `_handle_text_ack`. -/
def textAck (sequence : Nat) : InputSession :=
  match s.reader with
  | .receiving _ =>
      if sequence < s.ackedTextSeq ∨ sequence ≥ s.nextSequence then
        { s with reader := .recovering .called }
      else { s.popAcked sequence with reader := .idle }
  | _ => s

/-- The branch of `_handle_event` for `response.done`. -/
def responseDone : InputSession :=
  match s.reader with
  | .receiving _ => { s.finishTransport with responseTerminal := true, reader := .exited }
  | _ => s

/-- The reader goes on behind an event of no concern to the input. -/
def event : InputSession :=
  match s.reader with
  | .receiving _ => { s with reader := .idle }
  | _ => s

/-- The reader gets an exception. -/
def breaks : InputSession :=
  match s.reader with
  | .receiving _ => { s with reader := .recovering .called }
  | _ => s

/-- `_recover_connection` has returned to the reader. -/
def readerRecovered (ok : Bool) : InputSession :=
  if ok then { s with reader := .idle } else { s.finishTransport with reader := .exited }

/-! ### The recovery -/

/-- How `_recover_connection` goes on. -/
inductive Progress
  | going (r : Recovery)
  | returned (ok : Bool)
  | raised
  deriving DecidableEq, Repr

/-- An attempt has failed: the next one, or the end of them. -/
def attemptFailed (attempt : Nat) : Progress :=
  if attempt + 1 < s.streamResumeAttempts then .going (.leading (.dialing (attempt + 1)))
  else .returned false

/-- The check of the acknowledgement in `_replay_unacked_input`. -/
def handleResumed (attempt acked : Nat) (inputClosed : Bool) : InputSession × Progress :=
  if acked < s.ackedTextSeq ∨ acked > s.nextSequence - 1 then
    ({ s with dialed := s.dialed + 1 }.close s.dialed, s.attemptFailed attempt)
  else
    ({ s with dialed := s.dialed + 1 }.writeTo s.dialed .resume,
      .going (.leading (.resumed attempt s.dialed acked inputClosed)))

/-- The end of the loop over the journal, and the commit behind it. -/
def finishReplay (attempt : Nat) (new : Conn) (inputClosed : Bool) (outcome : ResumeOutcome) :
    InputSession × Progress :=
  if s.commitSent && !inputClosed then
    if outcome = .ok then (s.writeTo new .commit, .going (.leading (.replayed new)))
    else (s.close new, s.attemptFailed attempt)
  else (s, .going (.leading (.replayed new)))

/-- The leader of a recovery goes on. -/
def lead (outcome : ResumeOutcome) : ResumePhase → InputSession × Progress
  | .dialing attempt =>
      match outcome with
      | .resumed acked inputClosed => s.handleResumed attempt acked inputClosed
      | .unsupported => (s, .returned false)
      | .failed | .ok => (s, s.attemptFailed attempt)
  | .resumed attempt new acked inputClosed =>
      let popped := s.popAcked acked
      ({ popped with ackedAt := Function.update s.ackedAt new popped.acknowledged },
        .going (.leading
          (.replaying attempt new popped.textJournal inputClosed popped.version)))
  | .replaying attempt new rest inputClosed version =>
      if version ≠ s.version then (s, .raised)
      else
        match rest with
        | [] => s.finishReplay attempt new inputClosed outcome
        | entry :: rest =>
            if outcome = .ok then
              (s.writeTo new (.append entry.1 entry.2),
                .going (.leading (.replaying attempt new rest inputClosed version)))
            else (s.close new, s.attemptFailed attempt)
  | .replayed new => ({ s with conn := new }, .returned true)

/-- `_recover_connection`, one step of it. -/
def recoverStep (outcome : ResumeOutcome) : Recovery → InputSession × Progress
  | .called =>
      if !s.resumeSupported || s.streamResumeAttempts = 0 || s.responseTerminal then
        (s, .returned false)
      else (s, .going (.waiting s.conn))
  | .waiting failedConn =>
      if s.recovering then (s, .going (.waiting failedConn))
      else if s.conn ≠ failedConn then (s, .returned true)
      else (s.close failedConn, .going (.leading (.dialing 0)))
  | .leading phase => s.lead outcome phase

/-- The caller goes on in `_recover_connection`. -/
def callerRecovers (outcome : ResumeOutcome) : InputSession :=
  match s.caller with
  | .recovering call r =>
      match s.recoverStep outcome r with
      | (s, .going r) => { s with caller := .recovering call r }
      | (s, .returned ok) => s.callRecovered call ok
      | (s, .raised) => { s with caller := .idle }
  | _ => s

/-- The reader goes on in `_recover_connection`. -/
def readerRecovers (outcome : ResumeOutcome) : InputSession :=
  match s.reader with
  | .recovering r =>
      match s.recoverStep outcome r with
      | (s, .going r) => { s with reader := .recovering r }
      | (s, .returned ok) => s.readerRecovered ok
      | (s, .raised) => s.readerRecovered false
  | _ => s

/-- One step. -/
def step : InputSession → InputStep → InputSession
  | s, .sendText text seqNo => s.sendText text seqNo
  | s, .end => s.endInput
  | s, .cancel => s.cancel
  | s, .write ok => s.write ok
  | s, .pick => s.pick
  | s, .textAck sequence => s.textAck sequence
  | s, .responseDone => s.responseDone
  | s, .event => s.event
  | s, .breaks => s.breaks
  | s, .recover .caller outcome => s.callerRecovers outcome
  | s, .recover .reader outcome => s.readerRecovers outcome

/-! ## What the server can rely on -/

/-- The number of a text. -/
def sequence? : InputFrame → Option Nat
  | .append sequence _ => some sequence
  | _ => none

/-- The numbers of the texts among some frames. -/
def sequences (fs : List InputFrame) : List Nat := fs.filterMap sequence?

/-- Text `m` has to stand before frame `f`. -/
def Due (next m : Nat) : InputFrame → Prop
  | .append n _ => m < n
  | .commit => m < next
  | .resume | .cancel => False

/-- Every frame stands behind all the texts after `acked` that have to stand before it. -/
def Gapless (acked next : Nat) (fs : List InputFrame) : Prop :=
  ∀ pre f post, fs = pre ++ f :: post → ∀ m, acked < m → Due next m f → m ∈ sequences pre

/-- Every text whose `send_text` returned was acknowledged or written to the current connection, behind
its resume; the texts on this connection are in the order of their numbers and without gaps behind the
text that was acknowledged when it was resumed, and the commit stands behind all of them. -/
structure InputKept : Prop where
  resumed : s.conn ≠ 0 → ∃ fs, s.written s.conn = .resume :: fs
  written : ∀ n ∈ s.returned, n ≤ s.acknowledged ∨ n ∈ sequences (s.written s.conn)
  ordered : (sequences (s.written s.conn)).Pairwise (· ≤ ·)
  gapless : Gapless (s.ackedAt s.conn) s.nextSequence (s.written s.conn)
  base : s.ackedAt s.conn ≤ s.acknowledged

/-- The reader has replayed the journal and not yet installed the connection it was replayed to. -/
def awaitsInstall : ReaderTask → Bool
  | .recovering (.leading (.replayed _)) => true
  | _ => false

/-- No text is journaled between the replay of the reader's recovery and the installation of its
connection. -/
def Undisturbed (s : InputSession) : InputStep → Prop
  | .sendText .. => awaitsInstall s.reader = false
  | _ => True

instance (s : InputSession) : (i : InputStep) → Decidable (s.Undisturbed i)
  | .sendText .. => inferInstanceAs (Decidable (_ = _))
  | .end | .cancel | .write _ | .pick | .textAck _ | .responseDone | .event | .breaks | .recover .. =>
      .isTrue trivial

end InputSession

end Realtime

end StreamingTts.Client
