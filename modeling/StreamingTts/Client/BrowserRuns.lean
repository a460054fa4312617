import Mathlib.Data.List.Nodup
import StreamingTts.Lib.Transition

/-!
# The runs of the browser client

`RealtimeTTSClient` in `web/packages/browser-sdk/src/realtime-client.ts`, as far as its state, its socket and
its runs go. An event is what happens between two awaits: a call of the client, a callback of a socket, or the
continuation of `connect`, `prepareResponse` or `recoverActiveResponse`, each of which is a task that stands
at one of its awaits. A promise of `waitFor` is settled by the event that resolves or rejects its waiter, and
its task goes on at a later event; of the other promises the continuation says how they were settled.

`returned`, `resolved`, `closed` and `opened` are histories: the runs that were handed to a caller, the calls
of `resolve`, whether `close` was called, and how many sockets were made.
-/

namespace StreamingTts.Client.BrowserRuns

open Lib (run Along)

/-! ## The client -/

/-- `ClientState`. -/
inductive ClientState
  | idle
  | connecting
  | ready
  | responding
  | closed
  deriving DecidableEq, Repr

/-- The state of a client with its active run; runs are numbered. -/
structure Runs where
  state : ClientState := .idle
  active : Option Nat := none
  nextRun : Nat := 0
  returned : List Nat := []
  resolved : List Nat := []
  closed : Bool := false
  deriving DecidableEq, Repr

/-- The events that a waiter waits for. -/
inductive Awaited
  | sessionCreated
  | sessionUpdated
  | resumed
  deriving DecidableEq, Repr

/-- Where a task stands. -/
inductive Stage
  /-- `connect`: in `discoverCapabilities`, in `waitForOpen`, at `await created` -/
  | discovering
  | opening
  | created
  /-- `prepareResponse` at `await updated`, for `synthesize` or for `startIncremental` -/
  | updating (incremental : Bool)
  /-- `recoverActiveResponse` in one of its attempts: in its sleep, in `waitForOpen`, at `await created`,
  at `await updated`, at `await resumed` -/
  | sleeping (attempt : Nat)
  | reopening (attempt : Nat)
  | recreated (attempt : Nat)
  | reupdated (attempt : Nat)
  | resuming (attempt : Nat)
  deriving DecidableEq, Repr

/-- A task, with the promise of its waiter once it is settled. -/
structure Task where
  stage : Stage
  promise : Option Bool := none
  deriving DecidableEq, Repr

/-- `RealtimeTTSClient`. -/
structure RealtimeTTSClient where
  runs : Runs := {}
  socket : Option Nat := none
  capabilities : Bool := false
  lastSessionUpdate : Bool := false
  recovering : Bool := false
  waiters : List (Awaited × Nat) := []
  tasks : Nat → Option Task := fun _ => none
  nextTask : Nat := 0
  opened : Nat := 0

namespace Runs

/-- `finishActive`. -/
def finishActive (r : Runs) (nextState : ClientState) : Runs :=
  match r.active with
  | none => r
  | some active => { r with active := none, state := nextState, resolved := r.resolved ++ [active] }

/-- `createResponse`; its last line throws without a socket, and the run is not returned. -/
def createResponse (r : Runs) (connected : Bool) : Runs :=
  { r with
    state := .responding, active := some r.nextRun, nextRun := r.nextRun + 1
    returned := if connected then r.returned ++ [r.nextRun] else r.returned }

/-- `close`, as far as the runs go. -/
def close (r : Runs) : Runs := { r.finishActive .closed with state := .closed, closed := true }

end Runs

namespace RealtimeTTSClient

variable (s : RealtimeTTSClient)

/-- A task stands somewhere else. -/
def setTask (id : Nat) (task : Option Task) : RealtimeTTSClient :=
  { s with tasks := fun other => if other = id then task else s.tasks other }

/-- The promise of a task's waiter is settled. -/
def settle (id : Nat) (outcome : Bool) : RealtimeTTSClient :=
  { s with tasks := fun other =>
      if other = id then (s.tasks other).map fun task => { task with promise := some outcome }
      else s.tasks other }

/-- A task begins. -/
def begin (stage : Stage) : RealtimeTTSClient :=
  { s.setTask s.nextTask (some { stage }) with nextTask := s.nextTask + 1 }

/-- `waitFor`, of a task that goes on to another stage. -/
def waitFor (id : Nat) (event : Awaited) (stage : Stage) : RealtimeTTSClient :=
  { s.setTask id (some { stage }) with waiters := s.waiters ++ [(event, id)] }

/-- `resolveWaiter`. -/
def resolveWaiter (event : Awaited) : RealtimeTTSClient :=
  match s.waiters.find? fun waiter => waiter.1 = event with
  | none => s
  | some waiter => { s.settle waiter.2 true with waiters := s.waiters.erase waiter }

/-- `rejectWaiters`. -/
def rejectWaiters : RealtimeTTSClient :=
  { s.waiters.foldl (fun s waiter => s.settle waiter.2 false) s with waiters := [] }

/-- A waiter runs into its timeout. -/
def expire (waiter : Awaited × Nat) : RealtimeTTSClient :=
  if waiter ∈ s.waiters then { s.settle waiter.2 false with waiters := s.waiters.erase waiter } else s

/-- A socket is made, and its owner waits for `session.created`. -/
def openSocket (id : Nat) (stage : Stage) : RealtimeTTSClient :=
  { s.waitFor id .sessionCreated stage with socket := some s.opened, opened := s.opened + 1 }

/-- The `catch` of `connect`. -/
def connectFails (id : Nat) : RealtimeTTSClient :=
  { (s.setTask id none).rejectWaiters with
    runs := { s.runs with state := .idle }, socket := none }

/-- The `catch` of an attempt of `recoverActiveResponse`, and what comes behind the last one. -/
def attemptFails (attempts id attempt : Nat) : RealtimeTTSClient :=
  if attempt < attempts then
    { (s.setTask id (some { stage := .sleeping (attempt + 1) })).rejectWaiters with socket := none }
  else
    { (s.setTask id none).rejectWaiters with
      socket := none, recovering := false, runs := s.runs.finishActive .idle }

/-- `createResponse` at the end of `prepareResponse`. -/
def respond (id : Nat) : RealtimeTTSClient :=
  { s.setTask id none with runs := s.runs.createResponse s.socket.isSome }

/-- The continuation of a task; `outcome` settles what is no waiter, and says whether the replay behind
a resume goes through. -/
def resume (attempts id : Nat) (outcome : Bool) : RealtimeTTSClient :=
  match s.tasks id with
  | none => s
  | some ⟨.discovering, _⟩ =>
      if outcome then { s.openSocket id .opening with capabilities := true } else s.connectFails id
  | some ⟨.opening, promise⟩ =>
      if outcome then s.setTask id (some ⟨.created, promise⟩) else s.connectFails id
  | some ⟨.created, some true⟩ =>
      { s.setTask id none with runs := { s.runs with state := .ready } }
  | some ⟨.created, some false⟩ => s.connectFails id
  | some ⟨.updating incremental, some true⟩ =>
      if ¬ incremental ∧ s.socket = none then s.setTask id none else s.respond id
  | some ⟨.updating _, some false⟩ => s.setTask id none
  | some ⟨.sleeping attempt, _⟩ =>
      if outcome then s.openSocket id (.reopening attempt) else s.attemptFails attempts id attempt
  | some ⟨.reopening attempt, promise⟩ =>
      if outcome then s.setTask id (some ⟨.recreated attempt, promise⟩)
      else s.attemptFails attempts id attempt
  | some ⟨.recreated attempt, some true⟩ =>
      if s.socket = none then s.attemptFails attempts id attempt
      else s.waitFor id .sessionUpdated (.reupdated attempt)
  | some ⟨.reupdated attempt, some true⟩ =>
      if s.socket = none ∨ s.runs.active = none then s.attemptFails attempts id attempt
      else s.waitFor id .resumed (.resuming attempt)
  | some ⟨.resuming attempt, some true⟩ =>
      if s.runs.active = none ∨ ¬ outcome then s.attemptFails attempts id attempt
      else { s.setTask id none with recovering := false }
  | some ⟨.recreated attempt, some false⟩ | some ⟨.reupdated attempt, some false⟩
  | some ⟨.resuming attempt, some false⟩ => s.attemptFails attempts id attempt
  | some ⟨_, none⟩ => s

/-- `connect`. -/
def connect : RealtimeTTSClient :=
  if s.runs.state = .idle then
    { s.begin .discovering with runs := { s.runs with state := .connecting } }
  else s

/-- `synthesize` and `startIncremental` up to the await of `prepareResponse`; `valid` says that the text
and the options are. -/
def prepareResponse (valid incremental : Bool) : RealtimeTTSClient :=
  if s.runs.state = .ready ∧ s.socket ≠ none ∧ s.capabilities ∧ valid then
    { s.begin (.updating incremental) with
      waiters := s.waiters ++ [(.sessionUpdated, s.nextTask)], lastSessionUpdate := true }
  else s

/-- `close`. -/
def close : RealtimeTTSClient :=
  if s.runs.state = .closed then { s with runs := { s.runs with closed := true } }
  else { s.rejectWaiters with socket := none, runs := s.runs.close }

/-- `onclose` of a socket. -/
def socketClosed (attempts socket : Nat) : RealtimeTTSClient :=
  if s.socket ≠ some socket ∨ s.runs.state = .closed then s
  else
    let s := { s.rejectWaiters with socket := none }
    if s.runs.active ≠ none ∧ s.runs.state = .responding then
      if s.lastSessionUpdate ∧ 0 < attempts then
        if s.recovering then s else { s.begin (.sleeping 1) with recovering := true }
      else { s with runs := s.runs.finishActive .idle }
    else { s with runs := { s.runs with state := .idle } }

/-- A message of the server, by what it does to the runs. -/
inductive Message
  | awaited (event : Awaited)
  /-- `error`, or audio that is not contiguous -/
  | failure
  /-- `response.done` -/
  | done
  | other
  deriving DecidableEq, Repr

/-- `onmessage` of a socket. Without a socket the acknowledgement of `response.done` throws. -/
def receive : Message → RealtimeTTSClient
  | .awaited event => s.resolveWaiter event
  | .failure => { s with runs := s.runs.finishActive .ready }
  | .done => if s.socket = none then s else { s with runs := s.runs.finishActive .ready }
  | .other => s

/-- What happens next. -/
inductive Event
  | connect
  | prepareResponse (valid incremental : Bool)
  | close
  | socketClosed (socket : Nat)
  | receive (message : Message)
  | expire (waiter : Awaited × Nat)
  | resume (id : Nat) (outcome : Bool)
  deriving DecidableEq, Repr

/-- One event, with the number of attempts of a recovery. -/
def step (attempts : Nat) (s : RealtimeTTSClient) : Event → RealtimeTTSClient
  | .connect => s.connect
  | .prepareResponse valid incremental => s.prepareResponse valid incremental
  | .close => s.close
  | .socketClosed socket => s.socketClosed attempts socket
  | .receive message => s.receive message
  | .expire waiter => s.expire waiter
  | .resume id outcome => s.resume attempts id outcome

end RealtimeTTSClient

/-! ## The runs -/

/-- Every run that was returned is resolved or active. -/
structure Runs.Proper (r : Runs) : Prop where
  responding : r.state = .responding ↔ r.active.isSome
  closed : r.closed = true → r.state = .closed
  resolved_lt : ∀ x ∈ r.resolved, x < r.nextRun
  returned_lt : ∀ x ∈ r.returned, x < r.nextRun
  active_lt : ∀ x, r.active = some x → x < r.nextRun
  once : r.resolved.Nodup
  unresolved : ∀ x, r.active = some x → x ∉ r.resolved
  pending : ∀ x ∈ r.returned, x ∈ r.resolved ∨ r.active = some x

namespace Runs.Proper

variable {r : Runs} {nextState : ClientState}

theorem init : Runs.Proper {} where
  responding := by decide
  closed := by decide
  resolved_lt := fun _ h => nomatch h
  returned_lt := fun _ h => nomatch h
  active_lt := fun _ h => nomatch h
  once := List.nodup_nil
  unresolved := fun _ h => nomatch h
  pending := fun _ h => nomatch h

/-- An active run is one of a client that is not closed. -/
theorem not_closed (h : r.Proper) (hactive : r.active ≠ none) : r.closed = false := by
  by_contra hclosed
  have hstate := h.closed (by simpa using hclosed)
  have hresponding := h.responding.2 (Option.isSome_iff_ne_none.2 hactive)
  rw [hstate] at hresponding
  cases hresponding

theorem finishActive (h : r.Proper) (hnext : nextState ≠ .responding) :
    (r.finishActive nextState).Proper := by
  unfold Runs.finishActive
  cases hactive : r.active with
  | none => exact h
  | some active =>
      have hopen := h.not_closed (by simp [hactive])
      refine ⟨by simp [hnext], ?_, ?_, h.returned_lt, nofun, ?_, nofun, ?_⟩
      · intro hclosed
        rw [hopen] at hclosed
        cases hclosed
      · intro x hx
        rcases List.mem_append.1 hx with hold | hnew
        · exact h.resolved_lt x hold
        · exact h.active_lt x (by rw [hactive, List.mem_singleton.1 hnew])
      · rw [List.nodup_append]
        refine ⟨h.once, List.nodup_singleton _, fun x hx y hy hsame => ?_⟩
        rw [List.mem_singleton] at hy
        exact h.unresolved active hactive (hy ▸ hsame ▸ hx)
      · intro x hx
        left
        rcases h.pending x hx with hold | hsame
        · exact List.mem_append_left _ hold
        · rw [hactive] at hsame
          cases hsame
          exact List.mem_append_right _ List.mem_cons_self

/-- A client without a run goes to a state that is not `Responding`. -/
theorem setState (h : r.Proper) (hactive : r.active = none) (hclosed : r.closed = false)
    (hnext : nextState ≠ .responding) : Runs.Proper { r with state := nextState } := by
  refine ⟨by simp [hnext, hactive], ?_, h.resolved_lt, h.returned_lt, h.active_lt, h.once,
    h.unresolved, h.pending⟩
  intro hyes
  rw [hclosed] at hyes
  cases hyes

theorem createResponse (h : r.Proper) (hactive : r.active = none) (hclosed : r.closed = false)
    (connected : Bool) : (r.createResponse connected).Proper := by
  have hnew : r.nextRun ∉ r.resolved := fun hmem => absurd (h.resolved_lt _ hmem) (Nat.lt_irrefl _)
  refine ⟨by simp [Runs.createResponse], ?_, fun x hx => Nat.lt_succ_of_lt (h.resolved_lt x hx),
    ?_, ?_, h.once, ?_, ?_⟩
  · intro hyes
    rw [Runs.createResponse, hclosed] at hyes
    cases hyes
  · intro x hx
    unfold Runs.createResponse at hx ⊢
    cases connected with
    | false => exact Nat.lt_succ_of_lt (h.returned_lt x hx)
    | true =>
        rcases List.mem_append.1 hx with hold | hlast
        · exact Nat.lt_succ_of_lt (h.returned_lt x hold)
        · rw [List.mem_singleton.1 hlast]
          exact Nat.lt_succ_self _
  · rintro x ⟨⟩
    exact Nat.lt_succ_self _
  · rintro x ⟨⟩
    exact hnew
  · intro x hx
    have hold : ∀ x ∈ r.returned, x ∈ r.resolved := by
      intro x hx
      refine (h.pending x hx).resolve_right ?_
      rw [hactive]
      exact nofun
    cases connected with
    | false => exact .inl (hold x hx)
    | true =>
        rcases List.mem_append.1 hx with hmem | hlast
        · exact .inl (hold x hmem)
        · rw [List.mem_singleton.1 hlast]
          exact .inr rfl

theorem close (h : r.Proper) : r.close.Proper := by
  have hfinished := h.finishActive (show ClientState.closed ≠ .responding from nofun)
  have hnone : (r.finishActive .closed).active = none := by
    unfold Runs.finishActive
    cases hactive : r.active with
    | none => exact hactive
    | some _ => rfl
  refine ⟨?_, fun _ => rfl, hfinished.resolved_lt, hfinished.returned_lt, hfinished.active_lt,
    hfinished.once, hfinished.unresolved, hfinished.pending⟩
  simp [Runs.close, hnone]

end Runs.Proper

/-! ## The steps -/

namespace RealtimeTTSClient

variable {s : RealtimeTTSClient} {attempts id : Nat}

theorem rejectAll_runs (waiters : List (Awaited × Nat)) (s : RealtimeTTSClient) :
    (waiters.foldl (fun s waiter => s.settle waiter.2 false) s).runs = s.runs ∧
      (waiters.foldl (fun s waiter => s.settle waiter.2 false) s).opened = s.opened := by
  induction waiters generalizing s with
  | nil => exact ⟨rfl, rfl⟩
  | cons waiter rest ih => exact ih _

@[simp] theorem rejectWaiters_runs : s.rejectWaiters.runs = s.runs := (rejectAll_runs s.waiters s).1

@[simp] theorem rejectWaiters_opened : s.rejectWaiters.opened = s.opened :=
  (rejectAll_runs s.waiters s).2

theorem resolveWaiter_runs (event : Awaited) : (s.resolveWaiter event).runs = s.runs := by
  unfold resolveWaiter
  split <;> rfl

/-- What a continuation may meet: `connect` makes its socket, is done or fails without an active run and
before `close`, a run is created where there is none and before `close`, and no attempt of a recovery makes
a socket after `close`. -/
def MayResume (s : RealtimeTTSClient) (id : Nat) (outcome : Bool) : Prop :=
  match s.tasks id with
  | some ⟨.discovering, _⟩ => s.runs.active = none ∧ s.runs.state ≠ .closed
  | some ⟨.opening, _⟩ => outcome = false → s.runs.active = none ∧ s.runs.state ≠ .closed
  | some ⟨.created, some _⟩ => s.runs.active = none ∧ s.runs.state ≠ .closed
  | some ⟨.updating incremental, some true⟩ =>
      incremental = true ∨ s.socket ≠ none → s.runs.active = none ∧ s.runs.state ≠ .closed
  | some ⟨.sleeping _, _⟩ => s.runs.state ≠ .closed
  | _ => True

/-- The calls, the callbacks and the timeouts are free to come at any time. -/
def Clean (s : RealtimeTTSClient) : Event → Prop
  | .resume id outcome => s.MayResume id outcome
  | _ => True

theorem closed_eq_false (h : s.runs.Proper) (hstate : s.runs.state ≠ .closed) : s.runs.closed = false := by
  by_contra hclosed
  exact hstate (h.closed (by simpa using hclosed))

theorem connectFails_proper (h : s.runs.Proper)
    (hfree : s.runs.active = none ∧ s.runs.state ≠ .closed) : (s.connectFails id).runs.Proper :=
  h.setState hfree.1 (closed_eq_false h hfree.2) nofun

theorem attemptFails_proper (h : s.runs.Proper) (attempt : Nat) :
    (s.attemptFails attempts id attempt).runs.Proper := by
  unfold attemptFails
  split
  · rw [rejectWaiters_runs]
    exact h
  · exact h.finishActive nofun

theorem resume_proper {outcome : Bool} (h : s.runs.Proper) (hclean : Clean s (.resume id outcome)) :
    (s.resume attempts id outcome).runs.Proper := by
  have hclean : s.MayResume id outcome := hclean
  unfold resume
  unfold MayResume at hclean
  split
  · exact h
  · next htask =>
      rw [htask] at hclean
      split
      · exact h
      · exact connectFails_proper h hclean
  · next htask =>
      rw [htask] at hclean
      split
      · exact h
      · next hfails => exact connectFails_proper h (hclean (by simpa using hfails))
  · next htask =>
      rw [htask] at hclean
      exact h.setState hclean.1 (closed_eq_false h hclean.2) nofun
  · next htask =>
      rw [htask] at hclean
      exact connectFails_proper h hclean
  · next incremental htask =>
      rw [htask] at hclean
      split
      · exact h
      · next hreaches =>
          have hfree := hclean (by
            cases incremental with
            | true => exact .inl rfl
            | false => exact .inr fun hnone => hreaches ⟨nofun, hnone⟩)
          exact h.createResponse hfree.1 (closed_eq_false h hfree.2) _
  · exact h
  · split
    · exact h
    · exact attemptFails_proper h _
  · split
    · exact h
    · exact attemptFails_proper h _
  · split
    · exact attemptFails_proper h _
    · exact h
  · split
    · exact attemptFails_proper h _
    · exact h
  · split
    · exact attemptFails_proper h _
    · exact h
  · exact attemptFails_proper h _
  · exact attemptFails_proper h _
  · exact attemptFails_proper h _
  · exact h

theorem step_proper (h : s.runs.Proper) (e : Event) (hclean : Clean s e) :
    (step attempts s e).runs.Proper := by
  cases e with
  | connect =>
      simp only [step, connect]
      split
      · next hidle =>
          have hactive : s.runs.active = none := by
            by_contra hsome
            have hresponding := h.responding.2 (Option.isSome_iff_ne_none.2 hsome)
            rw [hidle] at hresponding
            cases hresponding
          exact h.setState hactive (closed_eq_false h (by rw [hidle]; nofun)) nofun
      · exact h
  | prepareResponse valid incremental =>
      simp only [step, prepareResponse]
      split <;> exact h
  | close =>
      simp only [step, close]
      split
      · next hstate =>
          exact ⟨h.responding, fun _ => hstate, h.resolved_lt, h.returned_lt, h.active_lt, h.once,
            h.unresolved, h.pending⟩
      · exact h.close
  | socketClosed socket =>
      simp only [step, socketClosed]
      split
      · exact h
      · next hcurrent =>
          rw [not_or] at hcurrent
          split
          · split
            · split
              · rw [rejectWaiters_runs]
                exact h
              · show s.rejectWaiters.runs.Proper
                rw [rejectWaiters_runs]
                exact h
            · rw [rejectWaiters_runs]
              exact h.finishActive nofun
          · next hidle =>
              rw [rejectWaiters_runs] at hidle ⊢
              refine h.setState ?_ (closed_eq_false h hcurrent.2) nofun
              by_contra hsome
              exact hidle ⟨hsome, h.responding.2 (Option.isSome_iff_ne_none.2 hsome)⟩
  | receive message =>
      cases message with
      | awaited event =>
          simp only [step, receive, resolveWaiter_runs]
          exact h
      | failure => exact h.finishActive nofun
      | done =>
          simp only [step, receive]
          split
          · exact h
          · exact h.finishActive nofun
      | other => exact h
  | expire waiter =>
      simp only [step, expire]
      split <;> exact h
  | resume id outcome => exact resume_proper h hclean

theorem attemptFails_opened (attempt : Nat) :
    (s.attemptFails attempts id attempt).opened = s.opened := by
  unfold attemptFails
  split
  · exact rejectWaiters_opened
  · exact rejectWaiters_opened

/-- After `close` a clean step makes no socket. -/
theorem step_opened (h : s.runs.Proper) (hclosed : s.runs.closed = true) (e : Event)
    (hclean : Clean s e) : (step attempts s e).opened = s.opened := by
  have hstate := h.closed hclosed
  cases e with
  | connect =>
      simp only [step, connect, hstate]
      rfl
  | prepareResponse valid incremental =>
      simp only [step, prepareResponse]
      split <;> rfl
  | close =>
      simp only [step, close, hstate, if_true]
  | socketClosed socket =>
      simp only [step, socketClosed, hstate, or_true, if_true]
  | receive message =>
      cases message with
      | awaited event =>
          simp only [step, receive, resolveWaiter]
          split <;> rfl
      | failure => rfl
      | done =>
          simp only [step, receive]
          split <;> rfl
      | other => rfl
  | expire waiter =>
      simp only [step, expire]
      split <;> rfl
  | resume id outcome =>
      have hclean : s.MayResume id outcome := hclean
      simp only [step]
      unfold resume
      unfold MayResume at hclean
      split
      · rfl
      · next htask =>
          rw [htask] at hclean
          exact absurd hstate hclean.2
      · split
        · rfl
        · exact rejectWaiters_opened
      · rfl
      · exact rejectWaiters_opened
      · split <;> rfl
      · rfl
      · next htask =>
          rw [htask] at hclean
          exact absurd hstate hclean
      · split
        · rfl
        · exact attemptFails_opened _
      · split
        · exact attemptFails_opened _
        · rfl
      · split
        · exact attemptFails_opened _
        · rfl
      · split
        · exact attemptFails_opened _
        · rfl
      · exact attemptFails_opened _
      · exact attemptFails_opened _
      · exact attemptFails_opened _
      · rfl

end RealtimeTTSClient

/-! ## The runs of a client -/

/-- What every run of the client can rely on. -/
structure Ends (r : Runs) : Prop where
  pending : ∀ x ∈ r.returned, x ∉ r.resolved → r.active = some x
  once : r.resolved.Nodup
  responding : r.state = .responding ↔ r.active.isSome
  closed : r.closed = true → r.active = none

theorem Runs.Proper.ends {r : Runs} (h : r.Proper) : Ends r where
  pending x hx hnot := (h.pending x hx).resolve_left hnot
  once := h.once
  responding := h.responding
  closed := by
    intro hclosed
    by_contra hactive
    rw [h.not_closed hactive] at hclosed
    cases hclosed

open RealtimeTTSClient in
/-- In every run of clean steps every returned run is resolved, at most once, or active, and after `close`
no clean step makes a socket. -/
theorem browser_runs_end (attempts : Nat) (events : List Event)
    (hclean : Along (step attempts) Clean {} events) :
    Ends (run (step attempts) {} events).runs ∧
      ∀ e, Clean (run (step attempts) {} events) e → (run (step attempts) {} events).runs.closed = true →
        (step attempts (run (step attempts) {} events) e).opened
          = (run (step attempts) {} events).opened := by
  have hproper : ∀ s : RealtimeTTSClient, s.runs.Proper → Along (step attempts) Clean s events →
      (run (step attempts) s events).runs.Proper := by
    clear hclean
    induction events with
    | nil => exact fun s h _ => h
    | cons e rest ih => exact fun s h hsteps => ih _ (step_proper h e hsteps.1) hsteps.2
  have hend := hproper {} .init hclean
  exact ⟨hend.ends, fun e he hclosed => step_opened hend hclosed e he⟩

/-- A client connects. -/
def connecting : List RealtimeTTSClient.Event :=
  [.connect, .resume 0 true, .resume 0 true, .receive (.awaited .sessionCreated), .resume 0 true]

open RealtimeTTSClient in
theorem browser_runs_end_once :
    Along (step 3) Clean {} (connecting ++ [.prepareResponse true true,
      .receive (.awaited .sessionUpdated), .resume 1 true, .receive .done, .close]) ∧
    Ends (run (step 3) {} (connecting ++ [.prepareResponse true true,
      .receive (.awaited .sessionUpdated), .resume 1 true, .receive .done, .close])).runs := by
  have hclean : Along (step 3) Clean {} (connecting ++ [.prepareResponse true true,
      .receive (.awaited .sessionUpdated), .resume 1 true, .receive .done, .close]) :=
    ⟨trivial, ⟨rfl, by decide⟩, nofun, trivial, ⟨rfl, by decide⟩, trivial, trivial,
      fun _ => ⟨rfl, by decide⟩, trivial, trivial, trivial⟩
  exact ⟨hclean, (browser_runs_end 3 _ hclean).1⟩

open RealtimeTTSClient in
/-- Two calls of `startIncremental` overlap: both find the client `Ready`, and the run of the first is
neither active nor ever resolved. -/
theorem overlapping_starts : ¬ Ends (run (step 3) {} (connecting ++
    [.prepareResponse true true, .prepareResponse true true, .receive (.awaited .sessionUpdated),
      .receive (.awaited .sessionUpdated), .resume 1 true, .resume 2 true])).runs := by
  intro h
  have hactive := h.pending 0 (by decide +kernel) (by decide +kernel)
  revert hactive
  decide +kernel

end StreamingTts.Client.BrowserRuns
