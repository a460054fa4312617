import Mathlib.Data.List.Basic

/-!
# Runs of a deterministic transition system

A component that serialises its operations is a step function `step : σ → ι → σ`, and a history of
it is a list of inputs. `run` is the state such a history reaches, and `Along` says that every step
of the history satisfies a condition on the state it starts from and on its input. The two rules
the developments above use are `run_induct` (an invariant kept by the steps of a history holds where
the history ends) and `along_append` (a condition splits at any cut of the history).

A component that also answers is a `step : σ → ι → σ × List ο`, and `outputs` is everything it says
during a history. `outputs_eq_of_sim` compares two states of one component: states a simulation
relates say the same for the same inputs.

A component whose operations can fail is a `step : σ → ι → Except ε σ`; `Reaches` are the states it
gets to by operations that satisfy a condition and return, and `tries` runs such a history. `bind_eq_ok`
and `check_eq_ok` take a computation that returns apart.
-/

namespace StreamingTts.Lib

section
variable {σ : Type _} {ι : Type _} {step : σ → ι → σ}

/-- The state reached from `s` by the inputs `is`. -/
def run (step : σ → ι → σ) (s : σ) (is : List ι) : σ := is.foldl step s

@[simp] theorem run_nil (s : σ) : run step s [] = s := rfl

@[simp] theorem run_cons (s : σ) (i : ι) (is : List ι) :
    run step s (i :: is) = run step (step s i) is := rfl

/-- A history runs in two parts. -/
theorem run_append (s : σ) (is js : List ι) :
    run step s (is ++ js) = run step (run step s is) js := by
  simp [run, List.foldl_append]

/-- Every step of the history `is` from `s` satisfies `P` at the state it starts from. -/
def Along (step : σ → ι → σ) (P : σ → ι → Prop) : σ → List ι → Prop
  | _, [] => True
  | s, i :: is => P s i ∧ Along step P (step s i) is

@[simp] theorem along_nil (P : σ → ι → Prop) (s : σ) : Along step P s [] := trivial

@[simp] theorem along_cons (P : σ → ι → Prop) (s : σ) (i : ι) (is : List ι) :
    Along step P s (i :: is) ↔ P s i ∧ Along step P (step s i) is := Iff.rfl

/-- A condition that can be decided step by step can be decided along a history. -/
instance Along.decidable (P : σ → ι → Prop) [∀ s i, Decidable (P s i)] :
    (s : σ) → (is : List ι) → Decidable (Along step P s is)
  | _, [] => .isTrue trivial
  | s, i :: is =>
      have := Along.decidable P (step s i) is
      inferInstanceAs (Decidable (P s i ∧ Along step P (step s i) is))

/-- A condition on the steps of a history is one on the steps of its two parts. -/
theorem along_append (P : σ → ι → Prop) (s : σ) (is js : List ι) :
    Along step P s (is ++ js) ↔ Along step P s is ∧ Along step P (run step s is) js := by
  induction is generalizing s with
  | nil => simp
  | cons i is ih => simp [ih, and_assoc]

/-- A condition that follows from another, step by step. -/
theorem Along.imp {P Q : σ → ι → Prop} (hPQ : ∀ s i, P s i → Q s i) {s : σ} {is : List ι}
    (h : Along step P s is) : Along step Q s is := by
  induction is generalizing s with
  | nil => trivial
  | cons i is ih => exact ⟨hPQ s i h.1, ih h.2⟩

/-- A condition that every step satisfies. -/
theorem along_of_forall {P : σ → ι → Prop} (h : ∀ s i, P s i) (s : σ) (is : List ι) :
    Along step P s is := by
  induction is generalizing s with
  | nil => trivial
  | cons i is ih => exact ⟨h s i, ih (step s i)⟩

/-- A condition on the steps of a history together with one on its inputs. -/
theorem Along.and_mem {P : σ → ι → Prop} {Q : ι → Prop} {s : σ} {is : List ι}
    (h : Along step P s is) (hQ : ∀ i ∈ is, Q i) : Along step (fun s i => P s i ∧ Q i) s is := by
  induction is generalizing s with
  | nil => trivial
  | cons i is ih =>
      exact ⟨⟨h.1, hQ i List.mem_cons_self⟩, ih h.2 fun j hj => hQ j (List.mem_cons_of_mem _ hj)⟩

/-- The invariant rule: what the steps of a history keep holds where the history ends. -/
theorem run_induct {P : σ → ι → Prop} {Inv : σ → Prop} {s : σ} {is : List ι} (h₀ : Inv s)
    (hstep : ∀ s i, Inv s → P s i → Inv (step s i)) (h : Along step P s is) :
    Inv (run step s is) := by
  induction is generalizing s with
  | nil => exact h₀
  | cons i is ih => exact ih (hstep s i h₀ h.1) h.2

/-- The invariant rule for a system all of whose steps keep the invariant. -/
theorem run_invariant {Inv : σ → Prop} {s : σ} (h₀ : Inv s)
    (hstep : ∀ s i, Inv s → Inv (step s i)) (is : List ι) : Inv (run step s is) := by
  induction is generalizing s with
  | nil => exact h₀
  | cons i is ih => exact ih (hstep s i h₀)

end

section
variable {σ : Type _} {ι : Type _} {ο : Type _} {step : σ → ι → σ × List ο}

/-- Everything a component says during a history. -/
def outputs (step : σ → ι → σ × List ο) : σ → List ι → List ο
  | _, [] => []
  | s, i :: is => (step s i).2 ++ outputs step (step s i).1 is

@[simp] theorem outputs_nil (s : σ) : outputs step s [] = [] := rfl

@[simp] theorem outputs_cons (s : σ) (i : ι) (is : List ι) :
    outputs step s (i :: is) = (step s i).2 ++ outputs step (step s i).1 is := rfl

/-- What a component says during a history is what it says during its two parts. -/
theorem outputs_append (s : σ) (is js : List ι) :
    outputs step s (is ++ js)
      = outputs step s is ++ outputs step (run (fun s i => (step s i).1) s is) js := by
  induction is generalizing s with
  | nil => rfl
  | cons i is ih => rw [List.cons_append, outputs_cons, outputs_cons, ih, run_cons, List.append_assoc]

/-- The simulation rule: related states give the same outputs for the same inputs, as long as the
steps of the first one satisfy the condition under which the relation is kept. -/
theorem outputs_eq_of_sim {P : σ → ι → Prop} {R : σ → σ → Prop} {s t : σ} {is : List ι}
    (h₀ : R s t)
    (hstep : ∀ s t i, R s t → P s i →
      (step s i).2 = (step t i).2 ∧ R (step s i).1 (step t i).1)
    (h : Along (fun s i => (step s i).1) P s is) : outputs step s is = outputs step t is := by
  induction is generalizing s t with
  | nil => rfl
  | cons i is ih =>
      obtain ⟨hsame, hrel⟩ := hstep s t i h₀ h.1
      rw [outputs_cons, outputs_cons, hsame, ih hrel h.2]

/-- Related states stay related. -/
theorem run_of_sim {P : σ → ι → Prop} {R : σ → σ → Prop} {s t : σ} {is : List ι} (h₀ : R s t)
    (hstep : ∀ s t i, R s t → P s i →
      (step s i).2 = (step t i).2 ∧ R (step s i).1 (step t i).1)
    (h : Along (fun s i => (step s i).1) P s is) :
    R (run (fun s i => (step s i).1) s is) (run (fun s i => (step s i).1) t is) := by
  induction is generalizing s t with
  | nil => exact h₀
  | cons i is ih => exact ih (hstep s t i h₀ h.1).2 h.2

end

section
variable {σ : Type _} {ι : Type _} {ε : Type _} {step : σ → ι → Except ε σ} {P : σ → ι → Prop}
  {s₀ s : σ}

/-- The states reached from `s₀` by steps that satisfy `P` and do not fail. -/
inductive Reaches (step : σ → ι → Except ε σ) (P : σ → ι → Prop) (s₀ : σ) : σ → Prop
  | start : Reaches step P s₀ s₀
  | next {s s' : σ} {i : ι} : Reaches step P s₀ s → P s i → step s i = .ok s' → Reaches step P s₀ s'

/-- A weaker condition on the steps. -/
theorem Reaches.imp {Q : σ → ι → Prop} (hPQ : ∀ s i, P s i → Q s i) (h : Reaches step P s₀ s) :
    Reaches step Q s₀ s := by
  induction h with
  | start => exact .start
  | next _ hP hstep ih => exact .next ih (hPQ _ _ hP) hstep

/-- The invariant rule for steps that can fail. -/
theorem Reaches.invariant {I : σ → Prop} (h : Reaches step P s₀ s) (h₀ : I s₀)
    (hstep : ∀ s i s', I s → P s i → step s i = .ok s' → I s') : I s := by
  induction h with
  | start => exact h₀
  | next _ hP hs ih => exact hstep _ _ _ ih hP hs

/-- The state after the inputs `is`, if every step satisfies `P` and returns. -/
def tries (step : σ → ι → Except ε σ) (P : σ → ι → Prop) [∀ s i, Decidable (P s i)] :
    σ → List ι → Option σ
  | s, [] => some s
  | s, i :: is =>
      if P s i then
        match step s i with
        | .ok s' => tries step P s' is
        | .error _ => none
      else none

theorem reaches_of_tries [∀ s i, Decidable (P s i)] {s t u : σ} {is : List ι}
    (h : Reaches step P s t) (ht : tries step P t is = some u) : Reaches step P s u := by
  induction is generalizing t with
  | nil =>
      cases ht
      exact h
  | cons i is ih =>
      unfold tries at ht
      split at ht
      · next hP =>
        split at ht
        · next hstep => exact ih (.next h hP hstep) ht
        · cases ht
      · cases ht

end

/-! ## Computations that return -/

/-- A computation that returns has a first part that returns. -/
theorem bind_eq_ok {ε α β : Type} {x : Except ε α} {f : α → Except ε β} {b : β} :
    x >>= f = .ok b ↔ ∃ a, x = .ok a ∧ f a = .ok b := by
  cases x with
  | error e => simp [bind, Except.bind]
  | ok a => simp [bind, Except.bind]

/-- A computation whose result is mapped returns if it does. -/
theorem map_eq_ok {ε α β : Type} {f : α → β} {x : Except ε α} {b : β} :
    f <$> x = .ok b ↔ ∃ a, x = .ok a ∧ f a = b := by
  cases x with
  | error e => simp [Functor.map, Except.map]
  | ok a => simp [Functor.map, Except.map]

/-- A computation that returns passed its check. -/
theorem check_eq_ok {ε β : Type} {c : Prop} [Decidable c] {e : ε} {k : Except ε β} {b : β} :
    (if c then throw e >>= fun (_ : PUnit) => k else k) = .ok b ↔ ¬ c ∧ k = .ok b := by
  by_cases hc : c
  · simp [hc, throw, throwThe, MonadExceptOf.throw, bind, Except.bind]
  · simp [hc]

end StreamingTts.Lib
