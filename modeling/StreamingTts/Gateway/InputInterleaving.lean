import Mathlib.Data.List.Basic
import Mathlib.Tactic.Common
import StreamingTts.Lib.Transition
import StreamingTts.Gateway.WebsocketResume

/-!
# Interleavings of the input methods of a resumable stream

The handlers of successive connections call `attach`, `detach`, `accept_text` and `close_input` of
one `ResumableSession` (`engine/gateway/websocket_resume.py`), and their calls interleave at the
awaits. No method awaits anything while it holds the state lock, so a section under that lock runs
in one go and never waits; a call is suspended only while it waits for the input lock and while the
engine callback runs. An event of the system begins a call, lets a waiting call take the free input
lock and run to its next suspension, or ends the callback that the holder of the lock awaits. The
waiting calls may take the lock in any order. The engine publishes its output through the same
session while callbacks run; of that, the input methods see the terminal frame.

`pushes` is the log of the push callback: its invocations and how each of them ended.
-/

namespace StreamingTts.Gateway

open StreamingTts.Lib

/-- Where a call of `accept_text` or `close_input` is. -/
inductive InputCall (δ : Type)
  | none
  | textWaiting (generation : Nat) (seqNo : Int) (digest : δ)
  | closeWaiting (generation : Nat) (finalSeqNo : Int)
  | pushing (seqNo : Int) (digest : δ)
  | closing (finalSeqNo : Int)
  | returned (acked : Int) (duplicate : Bool)
  | raised (e : ResumeCommandError)
  | cancelled
  deriving DecidableEq, Repr

/-- Whether a call holds the input lock while it is suspended. -/
def InputCall.holds {δ : Type} : InputCall δ → Bool
  | .pushing _ _ => true
  | .closing _ => true
  | _ => false

/-- An entry of the log of the push callback. -/
inductive PushEvent
  | started (generation : Nat) (seqNo : Int)
  | completed (seqNo : Int)
  | raised (seqNo : Int)
  deriving DecidableEq, Repr

/-- The session, the counter of its generations, the holder of the input lock, every call, and the
log of the push callback. -/
structure InputSystem (δ : Type) where
  session : ResumableSession δ
  generation : Nat
  inputLock : Option Nat
  calls : Nat → InputCall δ
  pushes : List PushEvent

/-- An event of the system. A call is named by its number. -/
inductive InputEvent
  | attach (accepted : Bool)
  | detach (generation : Nat)
  | acceptText (id generation : Nat) (seqNo : Int) (text : String)
  | closeInput (id generation : Nat) (finalSeqNo : Int)
  | acquire (id : Nat)
  | callbackReturned (id : Nat)
  | callbackRaised (id : Nat)
  | cancel (id : Nat)
  | publishTerminal
  deriving DecidableEq, Repr

namespace InputSystem
section
variable {δ : Type}

/-- A new session that no connection is attached to. -/
def init : InputSystem δ where
  session := { ResumableSession.attached 0 with attachment := none }
  generation := 0
  inputLock := none
  calls := fun _ => .none
  pushes := []

/-- A call goes on to another place. -/
def goto (s : InputSystem δ) (id : Nat) (c : InputCall δ) : InputSystem δ :=
  { s with calls := Function.update s.calls id c }

/-- A call begins. -/
def begin (s : InputSystem δ) (id : Nat) (c : InputCall δ) : InputSystem δ :=
  match s.calls id with
  | .none => s.goto id c
  | _ => s

/-- `attach`, which refuses a cursor outside of the replay window. -/
def attach (s : InputSystem δ) (accepted : Bool) : InputSystem δ :=
  if s.session.closed || !accepted then s
  else
    { s with
      generation := s.generation + 1
      session := { s.session with attachment := some (s.generation + 1) } }

/-- `detach`. -/
def detach (s : InputSystem δ) (generation : Nat) : InputSystem δ :=
  if s.session.closed || s.session.attachment ≠ some generation then s
  else { s with session := { s.session with attachment := none } }

/-- `accept_text` up to the input lock. -/
def acceptText (digest : String → δ) (s : InputSystem δ) (id generation : Nat) (seqNo : Int)
    (text : String) : InputSystem δ :=
  s.begin id
    (if seqNo ≤ 0 then
      .raised (.protocol ⟨.invalidTextSequence, "resumable text seq_no must start at 1"⟩)
    else .textWaiting generation seqNo (digest text))

/-- `accept_text` from the input lock to the push. -/
def acquireText [DecidableEq δ] (s : InputSystem δ) (id generation : Nat) (seqNo : Int)
    (digest : δ) : InputSystem δ :=
  match s.session.checkText generation seqNo digest with
  | .error e => s.goto id (.raised (.protocol e))
  | .ok true => s.goto id (.returned s.session.ackedTextSeq true)
  | .ok false =>
      { s.goto id (.pushing seqNo digest) with
        inputLock := some id
        pushes := s.pushes ++ [.started generation seqNo] }

/-- `close_input` from the input lock to the close. -/
def acquireClose (s : InputSystem δ) (id generation : Nat) (finalSeqNo : Int) : InputSystem δ :=
  match s.session.checkClose generation finalSeqNo with
  | .error e => s.goto id (.raised (.protocol e))
  | .ok true => s.goto id (.returned finalSeqNo true)
  | .ok false =>
      { s.goto id (.closing finalSeqNo) with
        inputLock := some id
        session := { s.session with inputClosed := true, finalTextSeq := some finalSeqNo } }

/-- A waiting call takes the input lock, if it is free. -/
def acquire [DecidableEq δ] (s : InputSystem δ) (id : Nat) : InputSystem δ :=
  match s.inputLock, s.calls id with
  | .none, .textWaiting generation seqNo digest => s.acquireText id generation seqNo digest
  | .none, .closeWaiting generation finalSeqNo => s.acquireClose id generation finalSeqNo
  | _, _ => s

/-- The callback a call awaits returns, and the call runs to its end. -/
def callbackReturned (s : InputSystem δ) (id : Nat) : InputSystem δ :=
  match s.calls id with
  | .pushing seqNo digest =>
      { s.goto id (.returned seqNo false) with
        inputLock := none
        session := s.session.recordText seqNo digest
        pushes := s.pushes ++ [.completed seqNo] }
  | .closing finalSeqNo => { s.goto id (.returned finalSeqNo false) with inputLock := none }
  | _ => s

/-- The callback a call awaits raises, or the call is cancelled there. -/
def callbackRaised (s : InputSystem δ) (id : Nat) : InputSystem δ :=
  match s.calls id with
  | .pushing seqNo _ =>
      { s.goto id (.raised .engine) with
        inputLock := none
        pushes := s.pushes ++ [.raised seqNo] }
  | .closing _ =>
      { s.goto id (.raised .engine) with
        inputLock := none
        session := s.session.reopenInput }
  | _ => s

/-- A call that waits for the input lock is cancelled. -/
def cancel (s : InputSystem δ) (id : Nat) : InputSystem δ :=
  match s.calls id with
  | .textWaiting _ _ _ => s.goto id .cancelled
  | .closeWaiting _ _ => s.goto id .cancelled
  | _ => s

/-- One event. -/
def step [DecidableEq δ] (digest : String → δ) (s : InputSystem δ) : InputEvent → InputSystem δ
  | .attach accepted => s.attach accepted
  | .detach generation => s.detach generation
  | .acceptText id generation seqNo text => s.acceptText digest id generation seqNo text
  | .closeInput id generation finalSeqNo => s.begin id (.closeWaiting generation finalSeqNo)
  | .acquire id => s.acquire id
  | .callbackReturned id => s.callbackReturned id
  | .callbackRaised id => s.callbackRaised id
  | .cancel id => s.cancel id
  | .publishTerminal => { s with session := { s.session with terminal := true } }

/-- The system after a history of events. -/
def after [DecidableEq δ] (digest : String → δ) (h : List InputEvent) : InputSystem δ :=
  run (step digest) init h

end
end InputSystem

/-! ## The log of the push callback -/

/-- The sequence numbers of the pushes that completed, in order. -/
def completedSeqs (log : List PushEvent) : List Int :=
  log.filterMap fun
    | .completed seqNo => some seqNo
    | _ => none

/-- The sequence numbers of the pushes that were started, in order. -/
def startedSeqs (log : List PushEvent) : List Int :=
  log.filterMap fun
    | .started _ seqNo => some seqNo
    | _ => none

/-- The sequence numbers of the pushes that raised, in order. -/
def raisedSeqs (log : List PushEvent) : List Int :=
  log.filterMap fun
    | .raised seqNo => some seqNo
    | _ => none

/-- The numbers `1, 2, .., n`. -/
def numbered (n : Nat) : List Int := (List.range n).map fun i : Nat => (i : Int) + 1

section
variable {log : List PushEvent}

@[simp] theorem completedSeqs_append (a b : List PushEvent) :
    completedSeqs (a ++ b) = completedSeqs a ++ completedSeqs b := List.filterMap_append

@[simp] theorem startedSeqs_append (a b : List PushEvent) :
    startedSeqs (a ++ b) = startedSeqs a ++ startedSeqs b := List.filterMap_append

@[simp] theorem raisedSeqs_append (a b : List PushEvent) :
    raisedSeqs (a ++ b) = raisedSeqs a ++ raisedSeqs b := List.filterMap_append

theorem numbered_succ (n : Nat) : numbered (n + 1) = numbered n ++ [(n : Int) + 1] := by
  simp [numbered, List.range_succ]

/-- Every push of the log is for the number after those completed before it, and is started when no
other push runs. -/
def InOrder (log : List PushEvent) : Prop :=
  ∀ a generation (seqNo : Int) b, log = a ++ .started generation seqNo :: b →
    seqNo = (completedSeqs a).length + 1 ∧
      (startedSeqs a).length = (completedSeqs a).length + (raisedSeqs a).length

theorem inOrder_nil : InOrder [] := by
  intro a generation seqNo b h
  exact absurd h (by simp)

/-- A log goes on in order if a push that it starts is in order. -/
theorem InOrder.snoc {e : PushEvent} (h : InOrder log)
    (he : ∀ generation (seqNo : Int), e = .started generation seqNo →
      seqNo = (completedSeqs log).length + 1 ∧
        (startedSeqs log).length = (completedSeqs log).length + (raisedSeqs log).length) :
    InOrder (log ++ [e]) := by
  intro a generation seqNo b hsplit
  rcases List.eq_nil_or_concat b with rfl | ⟨b, e', rfl⟩
  · obtain ⟨rfl, he'⟩ := List.append_inj' hsplit rfl
    exact he generation seqNo (List.singleton_inj.1 he')
  · rw [List.concat_eq_append, ← List.cons_append, ← List.append_assoc] at hsplit
    exact h a generation seqNo b (List.append_inj' hsplit rfl).1

end

/-! ## What an event can do -/

namespace InputSystem
section
variable {δ : Type} [DecidableEq δ] {digest : String → δ} {s s' : InputSystem δ}

/-- The ways in which an event changes what the input methods share. `quiet` is a change of the
attachment, of the terminal flag, or of a call that neither held the lock nor takes it. -/
inductive Change (s s' : InputSystem δ) : Prop
  | quiet (hlock : s'.inputLock = s.inputLock) (hpushes : s'.pushes = s.pushes)
      (hacked : s'.session.ackedTextSeq = s.session.ackedTextSeq)
      (hclosed : s'.session.inputClosed = s.session.inputClosed)
      (hfinal : s'.session.finalTextSeq = s.session.finalTextSeq)
      (hcalls : ∀ id, s'.calls id = s.calls id ∨
        (s'.calls id).holds = false ∧ (s.calls id).holds = false)
  | pushStarted (id generation : Nat) (seqNo : Int) (d : δ) (hfree : s.inputLock = none)
      (hcheck : s.session.checkText generation seqNo d = .ok false)
      (hs : s' = { s.goto id (.pushing seqNo d) with
        inputLock := some id
        pushes := s.pushes ++ [.started generation seqNo] })
  | pushCompleted (id : Nat) (seqNo : Int) (d : δ) (hcall : s.calls id = .pushing seqNo d)
      (hs : s' = { s.goto id (.returned seqNo false) with
        inputLock := none
        session := s.session.recordText seqNo d
        pushes := s.pushes ++ [.completed seqNo] })
  | pushRaised (id : Nat) (seqNo : Int) (d : δ) (hcall : s.calls id = .pushing seqNo d)
      (hs : s' = { s.goto id (.raised .engine) with
        inputLock := none
        pushes := s.pushes ++ [.raised seqNo] })
  | closeStarted (id generation : Nat) (finalSeqNo : Int) (hfree : s.inputLock = none)
      (hcheck : s.session.checkClose generation finalSeqNo = .ok false)
      (hs : s' = { s.goto id (.closing finalSeqNo) with
        inputLock := some id
        session := { s.session with inputClosed := true, finalTextSeq := some finalSeqNo } })
  | closeCompleted (id : Nat) (finalSeqNo : Int) (hcall : s.calls id = .closing finalSeqNo)
      (hs : s' = { s.goto id (.returned finalSeqNo false) with inputLock := none })
  | closeRaised (id : Nat) (finalSeqNo : Int) (hcall : s.calls id = .closing finalSeqNo)
      (hs : s' = { s.goto id (.raised .engine) with
        inputLock := none
        session := s.session.reopenInput })

omit [DecidableEq δ] in
theorem goto_calls (id id' : Nat) (c : InputCall δ) :
    (s.goto id c).calls id' = if id' = id then c else s.calls id' := by
  simp [goto, Function.update_apply]

/-- Nothing happens. -/
theorem Change.refl : Change s s := .quiet rfl rfl rfl rfl rfl fun _ => .inl rfl

/-- A call without the lock goes on without the lock. -/
theorem Change.goto {id : Nat} {c : InputCall δ} (hfrom : (s.calls id).holds = false)
    (hto : c.holds = false) : Change s (s.goto id c) := by
  refine .quiet rfl rfl rfl rfl rfl ?_
  intro id'
  rw [goto_calls]
  split
  · next h => exact .inr ⟨hto, h ▸ hfrom⟩
  · exact .inl rfl

theorem begin_change {id : Nat} {c : InputCall δ} (hc : c.holds = false) :
    Change s (s.begin id c) := by
  unfold begin
  split
  · next h => exact .goto (by rw [h]; rfl) hc
  · exact .refl

theorem acquire_change (id : Nat) : Change s (s.acquire id) := by
  unfold acquire
  split
  · next generation seqNo d hfree hcall =>
    have hwaits : (s.calls id).holds = false := by
      rw [hcall]
      rfl
    unfold acquireText
    split
    · exact .goto hwaits rfl
    · exact .goto hwaits rfl
    · next hcheck => exact .pushStarted id generation seqNo d hfree hcheck rfl
  · next generation finalSeqNo hfree hcall =>
    have hwaits : (s.calls id).holds = false := by
      rw [hcall]
      rfl
    unfold acquireClose
    split
    · exact .goto hwaits rfl
    · exact .goto hwaits rfl
    · next hcheck => exact .closeStarted id generation finalSeqNo hfree hcheck rfl
  · exact .refl

/-- Every event changes the system in one of these ways. -/
theorem step_change (e : InputEvent) : Change s (s.step digest e) := by
  cases e with
  | attach accepted =>
      simp only [step, attach]
      split
      · exact .refl
      · exact .quiet rfl rfl rfl rfl rfl fun _ => .inl rfl
  | detach generation =>
      simp only [step, detach]
      split
      · exact .refl
      · exact .quiet rfl rfl rfl rfl rfl fun _ => .inl rfl
  | acceptText id generation seqNo text =>
      refine begin_change ?_
      split <;> rfl
  | closeInput id generation finalSeqNo => exact begin_change rfl
  | acquire id => exact acquire_change id
  | callbackReturned id =>
      simp only [step, callbackReturned]
      split
      · next hcall => exact .pushCompleted id _ _ hcall rfl
      · next hcall => exact .closeCompleted id _ hcall rfl
      · exact .refl
  | callbackRaised id =>
      simp only [step, callbackRaised]
      split
      · next hcall => exact .pushRaised id _ _ hcall rfl
      · next hcall => exact .closeRaised id _ hcall rfl
      · exact .refl
  | cancel id =>
      simp only [step, cancel]
      split
      · next hcall => exact .goto (by rw [hcall]; rfl) rfl
      · next hcall => exact .goto (by rw [hcall]; rfl) rfl
      · exact .refl
  | publishTerminal => exact .quiet rfl rfl rfl rfl rfl fun _ => .inl rfl

/-! ## The invariant -/

/-- The number whose push runs. -/
def inFlight (s : InputSystem δ) : Option Int :=
  match s.inputLock with
  | .none => none
  | .some id =>
      match s.calls id with
      | .pushing seqNo _ => some seqNo
      | _ => none

/-- What holds in every state: the input lock is held by the call that awaits a callback, the
completed pushes are numbered `1, 2, ..` up to the acknowledged number, a push that runs is for the
next number, every push started has completed, raised, or runs, and an input that a running close has
marked complete bears its number. -/
structure Inv (s : InputSystem δ) : Prop where
  holder : ∀ id, (s.calls id).holds = true ↔ s.inputLock = some id
  acked : s.session.ackedTextSeq = (completedSeqs s.pushes).length
  numbered : completedSeqs s.pushes = numbered (completedSeqs s.pushes).length
  next : ∀ id seqNo d, s.calls id = .pushing seqNo d → seqNo = s.session.ackedTextSeq + 1
  counts : ∀ k, (startedSeqs s.pushes).count k = (completedSeqs s.pushes).count k
    + (raisedSeqs s.pushes).count k + if s.inFlight = some k then 1 else 0
  balance : (startedSeqs s.pushes).length = (completedSeqs s.pushes).length
    + (raisedSeqs s.pushes).length + if s.inFlight.isSome then 1 else 0
  order : InOrder s.pushes
  closing : ∀ id finalSeqNo, s.calls id = .closing finalSeqNo →
    s.session.inputClosed = true ∧ s.session.finalTextSeq = some finalSeqNo
  opened : s.session.inputClosed = false → s.session.finalTextSeq = none

omit [DecidableEq δ] in
/-- A call that awaits a callback is the only one. -/
theorem Inv.lock_of_holds (h : Inv s) {id : Nat} (hid : (s.calls id).holds = true) :
    s.inputLock = some id ∧ ∀ id', id' ≠ id → (s.calls id').holds = false := by
  have hlock := (h.holder id).1 hid
  refine ⟨hlock, ?_⟩
  intro id' hne
  cases hc : (s.calls id').holds with
  | false => rfl
  | true =>
      have := (h.holder id').1 hc
      rw [hlock] at this
      cases this
      exact absurd rfl hne

omit [DecidableEq δ] in
/-- The lock is free only if no call awaits a callback. -/
theorem Inv.holds_of_free (h : Inv s) (hfree : s.inputLock = none) (id : Nat) :
    (s.calls id).holds = false := by
  cases hc : (s.calls id).holds with
  | false => rfl
  | true =>
      have := (h.holder id).1 hc
      rw [hfree] at this
      cases this

omit [DecidableEq δ] in
/-- A call takes the free lock. -/
theorem Inv.holder_take (h : Inv s) (hfree : s.inputLock = none) {id : Nat} {c : InputCall δ}
    (hc : c.holds = true) (id' : Nat) :
    ((s.goto id c).calls id').holds = true ↔ some id = some id' := by
  rw [goto_calls]
  split
  · next heq => simp [heq, hc]
  · next hne => simp [h.holds_of_free hfree id', Ne.symm hne]

omit [DecidableEq δ] in
/-- The holder of the lock gives it back. -/
theorem Inv.holder_release (h : Inv s) {id : Nat} (hid : (s.calls id).holds = true)
    {c : InputCall δ} (hc : c.holds = false) (id' : Nat) :
    ((s.goto id c).calls id').holds = true ↔ none = some id' := by
  rw [goto_calls]
  split
  · simp [hc]
  · next hne => simp [(h.lock_of_holds hid).2 id' hne]

omit [DecidableEq δ] in
/-- A call that holds the lock after another one let it go holds nothing. -/
theorem Inv.released (h : Inv s) {id id' : Nat} (hid : (s.calls id).holds = true)
    {c : InputCall δ} (hc : c.holds = false) : ((s.goto id c).calls id').holds = false := by
  cases hh : ((s.goto id c).calls id').holds with
  | false => rfl
  | true => exact absurd ((h.holder_release hid hc id').1 hh) (by simp)

omit [DecidableEq δ] in
theorem inv_init : Inv (init : InputSystem δ) where
  holder := by intro id; simp [init, InputCall.holds]
  acked := rfl
  numbered := rfl
  next := by intro id seqNo d h; cases h
  counts := by intro k; rfl
  balance := rfl
  order := inOrder_nil
  closing := by intro id finalSeqNo h; cases h
  opened := fun _ => rfl

omit [DecidableEq δ] in
/-- A text that is to be pushed is the next one. -/
theorem checkText_new {session : ResumableSession δ} [DecidableEq δ] {generation : Nat} {seqNo : Int}
    {d : δ} (h : session.checkText generation seqNo d = .ok false) :
    session.closed = false ∧ session.attachment = some generation ∧
      seqNo = session.ackedTextSeq + 1 ∧ session.inputClosed = false := by
  unfold ResumableSession.checkText ResumableSession.requireGeneration at h
  split at h
  · cases h
  · next hgen =>
    split at hgen
    · cases hgen
    · next howner =>
      rw [not_or, not_not] at howner
      split at h
      · split at h <;> cases h
      · split at h
        · cases h
        · next hseq =>
          split at h
          · cases h
          · next hopen =>
            exact ⟨by simpa using howner.1, howner.2, not_not.1 hseq, by simpa using hopen⟩

omit [DecidableEq δ] in
/-- An input that is to be closed is open. -/
theorem checkClose_new {session : ResumableSession δ} {generation : Nat} {finalSeqNo : Int}
    (h : session.checkClose generation finalSeqNo = .ok false) : session.inputClosed = false := by
  unfold ResumableSession.checkClose at h
  split at h
  · cases h
  · split at h
    · cases h
    · split at h
      · split at h <;> cases h
      · next hopen => simpa using hopen

omit [DecidableEq δ] in
/-- A change of calls that do not hold the lock leaves the push that runs. -/
theorem inFlight_quiet (h : Inv s) (hlock : s'.inputLock = s.inputLock)
    (hcalls : ∀ id, s'.calls id = s.calls id ∨
      (s'.calls id).holds = false ∧ (s.calls id).holds = false) : s'.inFlight = s.inFlight := by
  unfold inFlight
  rw [hlock]
  cases hl : s.inputLock with
  | none => rfl
  | some id =>
      rcases hcalls id with heq | ⟨-, hfalse⟩
      · simp only [heq]
      · rw [(h.holder id).2 hl] at hfalse
        cases hfalse

omit [DecidableEq δ] in
/-- While the holder awaits its push, that push runs. -/
theorem Inv.inFlight_pushing (h : Inv s) {id : Nat} {seqNo : Int} {d : δ}
    (hcall : s.calls id = .pushing seqNo d) : s.inFlight = some seqNo := by
  have hholds : (s.calls id).holds = true := by
    rw [hcall]
    rfl
  have hlock := (h.lock_of_holds hholds).1
  unfold inFlight
  simp only [hlock, hcall]

omit [DecidableEq δ] in
/-- While the holder awaits its close, no push runs. -/
theorem Inv.inFlight_closing (h : Inv s) {id : Nat} {finalSeqNo : Int}
    (hcall : s.calls id = .closing finalSeqNo) : s.inFlight = none := by
  have hholds : (s.calls id).holds = true := by
    rw [hcall]
    rfl
  have hlock := (h.lock_of_holds hholds).1
  unfold inFlight
  simp only [hlock, hcall]

omit [DecidableEq δ] in
theorem inFlight_free (hfree : s.inputLock = none) : s.inFlight = none := by
  unfold inFlight
  simp only [hfree]

omit [DecidableEq δ] in
theorem Inv.quiet (h : Inv s) (hlock : s'.inputLock = s.inputLock) (hpushes : s'.pushes = s.pushes)
    (hacked : s'.session.ackedTextSeq = s.session.ackedTextSeq)
    (hclosed : s'.session.inputClosed = s.session.inputClosed)
    (hfinal : s'.session.finalTextSeq = s.session.finalTextSeq)
    (hcalls : ∀ id, s'.calls id = s.calls id ∨
      (s'.calls id).holds = false ∧ (s.calls id).holds = false) : Inv s' := by
  have hflight := inFlight_quiet h hlock hcalls
  have hsame : ∀ id, (s'.calls id).holds = true → s'.calls id = s.calls id := by
    intro id hid
    rcases hcalls id with heq | ⟨hfalse, -⟩
    · exact heq
    · rw [hfalse] at hid
      cases hid
  refine ⟨?_, ?_, ?_, ?_, ?_, ?_, ?_, ?_, ?_⟩
  · intro id
    rw [hlock, ← h.holder id]
    rcases hcalls id with heq | ⟨h', h₀⟩
    · rw [heq]
    · rw [h', h₀]
  · rw [hacked, hpushes]
    exact h.acked
  · rw [hpushes]
    exact h.numbered
  · intro id seqNo d hc
    rw [hacked]
    exact h.next id seqNo d (hsame id (by rw [hc]; rfl) ▸ hc)
  · rw [hpushes, hflight]
    exact h.counts
  · rw [hpushes, hflight]
    exact h.balance
  · rw [hpushes]
    exact h.order
  · intro id finalSeqNo hc
    rw [hclosed, hfinal]
    exact h.closing id finalSeqNo (hsame id (by rw [hc]; rfl) ▸ hc)
  · rw [hclosed, hfinal]
    exact h.opened

theorem Inv.pushStarted (h : Inv s) {id generation : Nat} {seqNo : Int} {d : δ}
    (hfree : s.inputLock = none) (hcheck : s.session.checkText generation seqNo d = .ok false) :
    Inv { s.goto id (.pushing seqNo d) with
      inputLock := some id
      pushes := s.pushes ++ [.started generation seqNo] } := by
  obtain ⟨-, -, hseq, hopen⟩ := checkText_new hcheck
  have hidle := inFlight_free hfree
  have hcompleted : completedSeqs (s.pushes ++ [.started generation seqNo])
      = completedSeqs s.pushes := by
    simp [completedSeqs]
  have hself : (s.goto id (.pushing seqNo d)).calls id = .pushing seqNo d := by
    rw [goto_calls, if_pos rfl]
  have hflight : inFlight { s.goto id (.pushing seqNo d) with
      inputLock := some id
      pushes := s.pushes ++ [.started generation seqNo] } = some seqNo := by
    unfold inFlight
    simp only [hself]
  refine ⟨h.holder_take hfree rfl, ?_, ?_, ?_, ?_, ?_, ?_, ?_, h.opened⟩
  · rw [hcompleted]
    exact h.acked
  · rw [hcompleted]
    exact h.numbered
  · intro id' seqNo' d' hc
    obtain rfl : id = id' := by
      have hsame : some id = some id' :=
        (h.holder_take hfree (c := .pushing seqNo d) rfl id').1 (by rw [hc]; rfl)
      exact Option.some.inj hsame
    rw [hself] at hc
    cases hc
    exact hseq
  · intro k
    have := h.counts k
    rw [hidle] at this
    rw [hflight]
    simp only [startedSeqs_append, completedSeqs_append, raisedSeqs_append, List.count_append, this]
    simp [startedSeqs, completedSeqs, raisedSeqs, List.count_singleton]
  · have := h.balance
    rw [hidle] at this
    rw [hflight]
    simp only [startedSeqs_append, completedSeqs_append, raisedSeqs_append, List.length_append, this]
    simp [startedSeqs, completedSeqs, raisedSeqs]
  · refine h.order.snoc ?_
    intro generation' seqNo' heq
    cases heq
    have hbalance := h.balance
    rw [hidle] at hbalance
    exact ⟨by rw [hseq, h.acked], by simpa using hbalance⟩
  · intro id' finalSeqNo hc
    obtain rfl : id = id' := by
      have hsame : some id = some id' :=
        (h.holder_take hfree (c := .pushing seqNo d) rfl id').1 (by rw [hc]; rfl)
      exact Option.some.inj hsame
    rw [hself] at hc
    cases hc

omit [DecidableEq δ] in
/-- The call that gives the lock back awaits nothing more, and neither does any other. -/
theorem Inv.released_calls (h : Inv s) {id : Nat} (hid : (s.calls id).holds = true)
    {c : InputCall δ} (hc : c.holds = false) :
    (∀ id' seqNo d, (s.goto id c).calls id' ≠ .pushing seqNo d) ∧
      ∀ id' finalSeqNo, (s.goto id c).calls id' ≠ .closing finalSeqNo := by
  have hnone : ∀ id', ((s.goto id c).calls id').holds = false := fun id' => h.released hid hc
  constructor
  · intro id' seqNo d heq
    have := hnone id'
    rw [heq] at this
    cases this
  · intro id' finalSeqNo heq
    have := hnone id'
    rw [heq] at this
    cases this

omit [DecidableEq δ] in
theorem Inv.pushCompleted (h : Inv s) {id : Nat} {seqNo : Int} {d : δ}
    (hcall : s.calls id = .pushing seqNo d) :
    Inv { s.goto id (.returned seqNo false) with
      inputLock := none
      session := s.session.recordText seqNo d
      pushes := s.pushes ++ [.completed seqNo] } := by
  have hid : (s.calls id).holds = true := by
    rw [hcall]
    rfl
  have hflight := h.inFlight_pushing hcall
  have hseq : seqNo = (completedSeqs s.pushes).length + 1 := by
    rw [h.next id seqNo d hcall, h.acked]
  have hcompleted : completedSeqs (s.pushes ++ [.completed seqNo])
      = completedSeqs s.pushes ++ [seqNo] := by
    simp [completedSeqs]
  obtain ⟨hpushing, hclosing⟩ := h.released_calls hid (c := .returned seqNo false) rfl
  refine ⟨h.holder_release hid rfl, ?_, ?_, ?_, ?_, ?_, ?_, ?_, h.opened⟩
  · rw [hcompleted]
    simp [ResumableSession.recordText, hseq]
  · rw [hcompleted, List.length_append, List.length_singleton, numbered_succ, ← hseq, ← h.numbered]
  · intro id' seqNo' d' heq
    exact absurd heq (hpushing id' seqNo' d')
  · intro k
    have hk := h.counts k
    rw [hflight] at hk
    simp only [inFlight, hcompleted, startedSeqs_append, raisedSeqs_append, List.count_append, hk]
    simp [startedSeqs, raisedSeqs, List.count_singleton]
    omega
  · have hb := h.balance
    rw [hflight] at hb
    simp only [inFlight, hcompleted, startedSeqs_append, raisedSeqs_append, List.length_append, hb]
    simp [startedSeqs, raisedSeqs]
    omega
  · refine h.order.snoc ?_
    intro generation seqNo' heq
    cases heq
  · intro id' finalSeqNo heq
    exact absurd heq (hclosing id' finalSeqNo)

omit [DecidableEq δ] in
theorem Inv.pushRaised (h : Inv s) {id : Nat} {seqNo : Int} {d : δ}
    (hcall : s.calls id = .pushing seqNo d) :
    Inv { s.goto id (.raised .engine) with
      inputLock := none
      pushes := s.pushes ++ [.raised seqNo] } := by
  have hid : (s.calls id).holds = true := by
    rw [hcall]
    rfl
  have hflight := h.inFlight_pushing hcall
  have hcompleted : completedSeqs (s.pushes ++ [.raised seqNo]) = completedSeqs s.pushes := by
    simp [completedSeqs]
  obtain ⟨hpushing, hclosing⟩ := h.released_calls hid (c := .raised .engine) rfl
  refine ⟨h.holder_release hid rfl, ?_, ?_, ?_, ?_, ?_, ?_, ?_, h.opened⟩
  · rw [hcompleted]
    exact h.acked
  · rw [hcompleted]
    exact h.numbered
  · intro id' seqNo' d' heq
    exact absurd heq (hpushing id' seqNo' d')
  · intro k
    have hk := h.counts k
    rw [hflight] at hk
    simp only [inFlight, hcompleted, startedSeqs_append, raisedSeqs_append, List.count_append, hk]
    simp [startedSeqs, raisedSeqs, List.count_singleton]
    omega
  · have hb := h.balance
    rw [hflight] at hb
    simp only [inFlight, hcompleted, startedSeqs_append, raisedSeqs_append, List.length_append, hb]
    simp [startedSeqs, raisedSeqs]
    omega
  · refine h.order.snoc ?_
    intro generation seqNo' heq
    cases heq
  · intro id' finalSeqNo heq
    exact absurd heq (hclosing id' finalSeqNo)

omit [DecidableEq δ] in
theorem Inv.closeStarted (h : Inv s) {id : Nat} {finalSeqNo : Int} (hfree : s.inputLock = none) :
    Inv { s.goto id (.closing finalSeqNo) with
      inputLock := some id
      session := { s.session with inputClosed := true, finalTextSeq := some finalSeqNo } } := by
  have hself : (s.goto id (.closing finalSeqNo)).calls id = .closing finalSeqNo := by
    rw [goto_calls, if_pos rfl]
  have honly : ∀ id', ((s.goto id (.closing finalSeqNo)).calls id').holds = true → id' = id := by
    intro id' hid'
    exact (Option.some.inj ((h.holder_take hfree rfl id').1 hid')).symm
  have hflight : inFlight { s.goto id (.closing finalSeqNo) with
      inputLock := some id
      session := { s.session with inputClosed := true, finalTextSeq := some finalSeqNo } }
        = s.inFlight := by
    rw [inFlight_free hfree]
    unfold inFlight
    simp only [hself]
  refine ⟨h.holder_take hfree rfl, h.acked, h.numbered, ?_, ?_, ?_, h.order, ?_, ?_⟩
  · intro id' seqNo d heq
    cases honly id' (by rw [heq]; rfl)
    rw [hself] at heq
    cases heq
  · rw [hflight]
    exact h.counts
  · rw [hflight]
    exact h.balance
  · intro id' finalSeqNo' heq
    cases honly id' (by rw [heq]; rfl)
    rw [hself] at heq
    cases heq
    exact ⟨rfl, rfl⟩
  · intro hopen
    cases hopen

omit [DecidableEq δ] in
/-- The end of a close, whatever it leaves of the two fields of the closed input. -/
theorem Inv.closeEnded (h : Inv s) {id : Nat} {finalSeqNo : Int}
    (hcall : s.calls id = .closing finalSeqNo) {c : InputCall δ} (hc : c.holds = false)
    {session : ResumableSession δ} (hacked : session.ackedTextSeq = s.session.ackedTextSeq)
    (hopened : session.inputClosed = false → session.finalTextSeq = none) :
    Inv { s.goto id c with inputLock := none, session := session } := by
  have hid : (s.calls id).holds = true := by
    rw [hcall]
    rfl
  have hflight : inFlight { s.goto id c with inputLock := none, session := session }
      = s.inFlight := by
    rw [h.inFlight_closing hcall]
    rfl
  obtain ⟨hpushing, hclosing⟩ := h.released_calls hid hc
  refine ⟨h.holder_release hid hc, hacked.trans h.acked, h.numbered, ?_, ?_, ?_, h.order, ?_,
    hopened⟩
  · intro id' seqNo d heq
    exact absurd heq (hpushing id' seqNo d)
  · rw [hflight]
    exact h.counts
  · rw [hflight]
    exact h.balance
  · intro id' finalSeqNo' heq
    exact absurd heq (hclosing id' finalSeqNo')

omit [DecidableEq δ] in
/-- The rollback of a close: the input is open again, unless the stream is terminal. -/
theorem reopenInput_fields (session : ResumableSession δ) :
    session.reopenInput.ackedTextSeq = session.ackedTextSeq ∧
      session.reopenInput.terminal = session.terminal ∧
      (session.terminal = false →
        session.reopenInput.inputClosed = false ∧ session.reopenInput.finalTextSeq = none) ∧
      (session.terminal = true → session.reopenInput = session) := by
  unfold ResumableSession.reopenInput
  split
  · next ht => exact ⟨rfl, rfl, by simp [ht], fun _ => rfl⟩
  · next ht => exact ⟨rfl, rfl, fun _ => ⟨rfl, rfl⟩, fun h => absurd h ht⟩

/-- Every event keeps the invariant. -/
theorem Change.inv (hchange : Change s s') (h : Inv s) : Inv s' := by
  cases hchange with
  | quiet hlock hpushes hacked hclosed hfinal hcalls =>
      exact h.quiet hlock hpushes hacked hclosed hfinal hcalls
  | pushStarted id generation seqNo d hfree hcheck hs =>
      subst hs
      exact h.pushStarted hfree hcheck
  | pushCompleted id seqNo d hcall hs =>
      subst hs
      exact h.pushCompleted hcall
  | pushRaised id seqNo d hcall hs =>
      subst hs
      exact h.pushRaised hcall
  | closeStarted id generation finalSeqNo hfree hcheck hs =>
      subst hs
      exact h.closeStarted hfree
  | closeCompleted id finalSeqNo hcall hs =>
      subst hs
      exact h.closeEnded hcall rfl rfl h.opened
  | closeRaised id finalSeqNo hcall hs =>
      subst hs
      obtain ⟨hacked, -, hreopened, hkept⟩ := reopenInput_fields s.session
      refine h.closeEnded hcall rfl hacked ?_
      intro hopen
      cases ht : s.session.terminal with
      | false => exact (hreopened ht).2
      | true =>
          rw [hkept ht] at hopen ⊢
          exact h.opened hopen

/-- The invariant holds after every history. -/
theorem inv_after (digest : String → δ) (h : List InputEvent) : Inv (after digest h) :=
  run_invariant inv_init (fun _ e hs => (step_change e).inv hs) h

/-! ## Every interleaving -/

omit [DecidableEq δ] in
/-- A push that runs is for the number after the acknowledged ones. -/
theorem Inv.inFlight_next (h : Inv s) {k : Int} (hk : s.inFlight = some k) :
    k = s.session.ackedTextSeq + 1 := by
  unfold inFlight at hk
  split at hk
  · cases hk
  · next id hlock =>
    split at hk
    · next seqNo d hcall =>
      cases hk
      exact h.next id _ d hcall
    · cases hk

/-- Every number up to `n` occurs once in `1, 2, .., n`. -/
theorem count_numbered {n : Nat} {k : Int} (h₁ : 1 ≤ k) (hn : k ≤ n) : (numbered n).count k = 1 := by
  induction n with
  | zero => omega
  | succ n ih =>
      rw [numbered_succ, List.count_append, List.count_singleton]
      rcases Int.le_iff_lt_or_eq.1 hn with hlt | heq
      · have hne : ((n : Int) + 1 == k) = false := by
          rw [beq_eq_false_iff_ne]
          omega
        rw [ih (by omega), hne]
        rfl
      · have hnone : (numbered n).count k = 0 := by
          refine List.count_eq_zero.2 ?_
          intro hmem
          obtain ⟨i, hi, hik⟩ := List.mem_map.1 hmem
          have := List.mem_range.1 hi
          omega
        have hself : ((n : Int) + 1 == k) = true := by
          rw [beq_iff_eq]
          omega
        rw [hnone, hself]
        rfl

omit [DecidableEq δ] in
/-- An accepted number was pushed once, and once more for each time that its push raised. -/
theorem Inv.count_started (h : Inv s) {k : Int} (h₁ : 1 ≤ k) (hk : k ≤ s.session.ackedTextSeq) :
    (startedSeqs s.pushes).count k = 1 + (raisedSeqs s.pushes).count k := by
  have hidle : s.inFlight ≠ some k := by
    intro hflight
    have := h.inFlight_next hflight
    omega
  have hone : (completedSeqs s.pushes).count k = 1 := by
    rw [h.numbered]
    exact count_numbered h₁ (by rw [← h.acked]; exact hk)
  rw [h.counts k, if_neg hidle, hone, Nat.add_zero]

/-- A push starts only for the generation that owns the stream. -/
theorem Change.owner (hchange : Change s s') {generation : Nat} {seqNo : Int}
    (hpushes : s'.pushes = s.pushes ++ [.started generation seqNo]) :
    s.session.closed = false ∧ s.session.attachment = some generation := by
  cases hchange with
  | quiet _ hsame _ _ _ _ =>
      rw [hsame] at hpushes
      exact absurd (congrArg List.length hpushes) (by simp)
  | pushStarted id generation' seqNo' d hfree hcheck hs =>
      subst hs
      have := List.append_cancel_left hpushes
      cases this
      obtain ⟨hclosed, howner, -, -⟩ := checkText_new hcheck
      exact ⟨hclosed, howner⟩
  | pushCompleted id seqNo' d hcall hs =>
      subst hs
      have := List.append_cancel_left hpushes
      cases this
  | pushRaised id seqNo' d hcall hs =>
      subst hs
      have := List.append_cancel_left hpushes
      cases this
  | closeStarted _ _ _ _ _ hs | closeCompleted _ _ _ hs | closeRaised _ _ _ hs =>
      subst hs
      have : s.pushes = s.pushes ++ [.started generation seqNo] := hpushes
      exact absurd (congrArg List.length this) (by simp)

/-- A call that waits to close and awaits the close after its turn with the lock found an open
input. -/
theorem acquire_closing {id generation : Nat} {finalSeqNo finalSeqNo' : Int}
    (hwaits : s.calls id = .closeWaiting generation finalSeqNo)
    (hcloses : (s.acquire id).calls id = .closing finalSeqNo') : s.session.inputClosed = false := by
  cases hl : s.inputLock with
  | some holder =>
      simp only [acquire, hl, hwaits] at hcloses
      cases hcloses
  | none =>
      simp only [acquire, hl, hwaits, acquireClose] at hcloses
      split at hcloses
      · rw [goto_calls, if_pos rfl] at hcloses
        cases hcloses
      · rw [goto_calls, if_pos rfl] at hcloses
        cases hcloses
      · next hcheck => exact checkClose_new hcheck

/-- Over every interleaving: the completed pushes are numbered `1, 2, ..` and `acked_text_seq` is
their number; every accepted number was pushed exactly once more often than its push raised; each
push is for the number after the completed ones and starts when no other runs, for the generation
that owns the stream; and a close that raises leaves `input_closed` and `final_text_seq` as they were
before it, unless the stream became terminal while the close ran, when the input stays closed. -/
theorem input_interleavings (digest : String → δ) (h : List InputEvent) :
    completedSeqs (after digest h).pushes
        = numbered (completedSeqs (after digest h).pushes).length ∧
      (after digest h).session.ackedTextSeq = (completedSeqs (after digest h).pushes).length ∧
      (∀ k, 1 ≤ k → k ≤ (after digest h).session.ackedTextSeq →
        (startedSeqs (after digest h).pushes).count k
          = 1 + (raisedSeqs (after digest h).pushes).count k) ∧
      InOrder (after digest h).pushes ∧
      (∀ pre e post generation seqNo, h = pre ++ e :: post →
        (after digest (pre ++ [e])).pushes
          = (after digest pre).pushes ++ [.started generation seqNo] →
        (after digest pre).session.closed = false ∧
          (after digest pre).session.attachment = some generation) ∧
      ∀ pre id mid post generation finalSeqNo,
        h = pre ++ .acquire id :: (mid ++ .callbackRaised id :: post) →
        (after digest pre).calls id = .closeWaiting generation finalSeqNo →
        (after digest (pre ++ [.acquire id])).calls id = .closing finalSeqNo →
        (after digest (pre ++ .acquire id :: mid)).calls id = .closing finalSeqNo →
        ((after digest (pre ++ .acquire id :: mid)).session.terminal = false →
          (after digest (pre ++ .acquire id :: (mid ++ [.callbackRaised id]))).session.inputClosed
              = (after digest pre).session.inputClosed ∧
            (after digest (pre ++ .acquire id :: (mid ++ [.callbackRaised id]))).session.finalTextSeq
              = (after digest pre).session.finalTextSeq) ∧
        ((after digest (pre ++ .acquire id :: mid)).session.terminal = true →
          (after digest (pre ++ .acquire id :: (mid ++ [.callbackRaised id]))).session.inputClosed
              = true ∧
            (after digest (pre ++ .acquire id :: (mid ++ [.callbackRaised id]))).session.finalTextSeq
              = some finalSeqNo) := by
  have hinv := inv_after digest h
  refine ⟨hinv.numbered, hinv.acked, fun k => hinv.count_started, hinv.order, ?_, ?_⟩
  · intro pre e post generation seqNo _ hpushes
    have hstep : after digest (pre ++ [e]) = (after digest pre).step digest e := by
      rw [after, run_append]
      rfl
    rw [hstep] at hpushes
    exact (step_change e).owner hpushes
  · intro pre id mid post generation finalSeqNo _ hwaits hbegun hcloses
    have hstep : after digest (pre ++ [.acquire id]) = (after digest pre).acquire id := by
      rw [after, run_append]
      rfl
    rw [hstep] at hbegun
    have hopen := acquire_closing hwaits hbegun
    have hlast : after digest (pre ++ .acquire id :: (mid ++ [.callbackRaised id]))
        = (after digest (pre ++ .acquire id :: mid)).callbackRaised id := by
      rw [← List.cons_append, ← List.append_assoc, after, run_append]
      rfl
    have hsession : ((after digest (pre ++ .acquire id :: mid)).callbackRaised id).session
        = (after digest (pre ++ .acquire id :: mid)).session.reopenInput := by
      simp only [callbackRaised, hcloses]
    obtain ⟨-, -, hreopened, hkept⟩ :=
      reopenInput_fields (after digest (pre ++ .acquire id :: mid)).session
    rw [hlast, hsession, hopen, (inv_after digest pre).opened hopen]
    refine ⟨hreopened, ?_⟩
    intro hterminal
    rw [hkept hterminal]
    exact (inv_after digest (pre ++ .acquire id :: mid)).closing id finalSeqNo hcloses

/-- The push of text `1` raises, and the text is sent again. -/
def retriedPush : List InputEvent :=
  [.attach true, .acceptText 0 1 1 "hi", .acquire 0, .callbackRaised 0, .acceptText 1 1 1 "hi",
    .acquire 1, .callbackReturned 1]

/-- The input is closed by a call that waits for the lock. -/
def requestedClose : List InputEvent := [.attach true, .closeInput 0 1 0]

/-- The engine publishes its terminal frame while the close runs, and the close raises. -/
def terminalClose : List InputEvent :=
  requestedClose ++ [.acquire 0, .publishTerminal, .callbackRaised 0]

/-- A push that raises is made again for the same number, and a close that raises after the stream
became terminal leaves the input closed. -/
theorem raised_callbacks :
    startedSeqs (after (fun text => text) retriedPush).pushes = [1, 1] ∧
      (after (fun text => text) retriedPush).session.ackedTextSeq = 1 ∧
      (after (fun text => text) requestedClose).session.inputClosed = false ∧
      (after (fun text => text) requestedClose).session.finalTextSeq = none ∧
      (after (fun text => text) terminalClose).calls 0 = .raised .engine ∧
      (after (fun text => text) terminalClose).session.inputClosed = true ∧
      (after (fun text => text) terminalClose).session.finalTextSeq = some 0 := by
  decide +kernel

end
end InputSystem

end StreamingTts.Gateway
