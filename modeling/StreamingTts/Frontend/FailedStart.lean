import StreamingTts.Frontend.CreateSession

/-!
# What a failing start leaves

The tasks that run are the registered ones, and without a session there is at most a cursor plan adapter
(`Tracked`): whether an id is clean then depends on its session and its adapter alone. Every step of a
start keeps that, and so does what happens during its awaits. The session and the adapter after a start
follow from the step at which it fails.
-/

namespace StreamingTts.Frontend.Creation

open Lib (OrderedDict)
open FrontendInterface

variable {V A R : Type} {fe fe' : FrontendInterface V A R} {sessionId : String}

/-! ## The tracked frontends -/

/-- The running tasks are registered, and an id without session has nothing but an adapter. -/
structure Tracked (fe : FrontendInterface V A R) : Prop where
  running : ∀ task ∈ fe.running, fe.taskOf task.kind task.sessionId = some task
  tasks : ∀ id, fe.sessions.get? id = none → ∀ kind, fe.taskOf kind id = none
  tnLocks : ∀ id, fe.sessions.get? id = none → fe.tnLocks.get? id = none
  routers : ∀ id, fe.sessions.get? id = none → fe.diagnosticTextRouters.get? id = none

/-- The id has a session or an adapter. -/
def Held (fe : FrontendInterface V A R) (sessionId : String) : Prop :=
  (fe.sessions.get? sessionId).isSome ∨ (fe.cursorPlanAdapters.get? sessionId).isSome

theorem Tracked.clean_iff (h : Tracked fe) : fe.Clean sessionId ↔ ¬ Held fe sessionId := by
  unfold Held
  rw [not_or, Option.not_isSome_iff_eq_none, Option.not_isSome_iff_eq_none]
  constructor
  · intro hclean
    exact ⟨hclean.sessions, hclean.cursorPlanAdapters⟩
  · rintro ⟨hsession, hadapter⟩
    refine ⟨hsession, h.tasks _ hsession .consumeResults, h.tasks _ hsession .textCommitTicker,
      h.tnLocks _ hsession, h.routers _ hsession, hadapter, ?_⟩
    rintro task htask rfl
    have hsome := h.running task htask
    rw [h.tasks _ hsession] at hsome
    cases hsome

theorem tracked_init (maxSessions : Nat) : Tracked (init maxSessions : FrontendInterface V A R) where
  running := by
    intro task htask
    cases htask
  tasks := by
    intro id _ kind
    cases kind <;> rfl
  tnLocks := fun _ _ => rfl
  routers := fun _ _ => rfl

theorem taskOf_endSession (kind : TaskKind) (id : String) :
    (fe.endSession sessionId).taskOf kind id =
      if id = sessionId then none else fe.taskOf kind id := by
  cases kind <;> simp [endSession, cleanupSession, cancelTask, taskOf]

theorem mem_running_cancelTask {task : Task} {cancelled : Option Task} :
    task ∈ (fe.cancelTask cancelled).running ↔ task ∈ fe.running ∧ some task ≠ cancelled := by
  rw [cancelTask, List.mem_filter, decide_eq_true_iff]

theorem mem_running_endSession {task : Task} :
    task ∈ (fe.endSession sessionId).running ↔
      task ∈ fe.running ∧ ∀ kind, fe.taskOf kind sessionId ≠ some task := by
  refine (mem_running_cancelTask.trans (and_congr_left' (mem_running_cancelTask.trans
    (and_congr_left' mem_running_cancelTask)))).trans ?_
  constructor
  · rintro ⟨⟨⟨hrunning, hconsumer⟩, hticker⟩, hactor⟩
    refine ⟨hrunning, fun kind => ?_⟩
    cases kind with
    | consumeResults => exact fun hsame => hconsumer hsame.symm
    | textCommitTicker => exact fun hsame => hticker hsame.symm
    | textActor => exact fun hsame => hactor hsame.symm
  · rintro ⟨hrunning, hother⟩
    exact ⟨⟨⟨hrunning, fun hsame => hother .consumeResults hsame.symm⟩,
      fun hsame => hother .textCommitTicker hsame.symm⟩, fun hsame => hother .textActor hsame.symm⟩

@[simp] theorem sessions_endSession (id : String) :
    (fe.endSession sessionId).sessions.get? id =
      if id = sessionId then none else fe.sessions.get? id := by
  simp [endSession, cleanupSession, cancelTask]

@[simp] theorem adapters_endSession (id : String) :
    (fe.endSession sessionId).cursorPlanAdapters.get? id =
      if id = sessionId then none else fe.cursorPlanAdapters.get? id := by
  simp [endSession, cleanupSession, cancelTask]

theorem Tracked.endSession (h : Tracked fe) (sessionId : String) :
    Tracked (fe.endSession sessionId) where
  running := by
    intro task htask
    obtain ⟨hrunning, hother⟩ := mem_running_endSession.1 htask
    have htracked := h.running task hrunning
    have hne : task.sessionId ≠ sessionId := by
      rintro rfl
      exact hother _ htracked
    rw [taskOf_endSession, if_neg hne]
    exact htracked
  tasks := by
    intro id hsession kind
    rw [taskOf_endSession]
    split
    · rfl
    · next hne =>
        rw [sessions_endSession, if_neg hne] at hsession
        exact h.tasks id hsession kind
  tnLocks := by
    intro id hsession
    rw [sessions_endSession] at hsession
    simp only [FrontendInterface.endSession, cleanupSession, cancelTask, OrderedDict.get?_erase]
    split
    · rfl
    · next hne => exact h.tnLocks id (by rwa [if_neg hne] at hsession)
  routers := by
    intro id hsession
    rw [sessions_endSession] at hsession
    simp only [FrontendInterface.endSession, cleanupSession, cancelTask, OrderedDict.get?_erase]
    split
    · rfl
    · next hne => exact h.routers id (by rwa [if_neg hne] at hsession)

/-- A task of a registered session starts, in a place that was free. -/
theorem Tracked.spawn (h : Tracked fe) (task : Task) (hsession : (fe.sessions.get? task.sessionId).isSome)
    (hfree : fe.taskOf task.kind task.sessionId = none)
    (hrunning : fe'.running = fe.running ++ [task])
    (htask : ∀ kind id, fe'.taskOf kind id =
      if kind = task.kind ∧ id = task.sessionId then some task else fe.taskOf kind id)
    (hsessions : fe'.sessions = fe.sessions) (hlocks : fe'.tnLocks = fe.tnLocks)
    (hrouters : fe'.diagnosticTextRouters = fe.diagnosticTextRouters) : Tracked fe' where
  running := by
    intro other hother
    rw [hrunning, List.mem_append, List.mem_singleton] at hother
    rw [htask]
    rcases hother with hold | rfl
    · have hkept := h.running other hold
      rw [if_neg, hkept]
      rintro ⟨hkind, hid⟩
      rw [hkind, hid, hfree] at hkept
      cases hkept
    · rw [if_pos ⟨rfl, rfl⟩]
  tasks := by
    intro id hnone kind
    rw [hsessions] at hnone
    rw [htask, if_neg, h.tasks id hnone kind]
    rintro ⟨_, rfl⟩
    rw [hnone] at hsession
    cases hsession
  tnLocks := by
    intro id hnone
    rw [hlocks]
    exact h.tnLocks id (hsessions ▸ hnone)
  routers := by
    intro id hnone
    rw [hrouters]
    exact h.routers id (hsessions ▸ hnone)

/-- A registration leaves the tasks alone, and touches no id that is without a session behind it. -/
theorem Tracked.of_tasks (h : Tracked fe) (hrunning : fe'.running = fe.running)
    (htask : ∀ kind id, fe'.taskOf kind id = fe.taskOf kind id)
    (hothers : ∀ id, fe'.sessions.get? id = none → fe.sessions.get? id = none ∧
      fe'.tnLocks.get? id = fe.tnLocks.get? id ∧
      fe'.diagnosticTextRouters.get? id = fe.diagnosticTextRouters.get? id) : Tracked fe' where
  running := by
    intro task hmem
    rw [hrunning] at hmem
    rw [htask]
    exact h.running task hmem
  tasks := by
    intro id hnone kind
    rw [htask]
    exact h.tasks id (hothers id hnone).1 kind
  tnLocks := fun id hnone =>
    (hothers id hnone).2.1.trans (h.tnLocks id (hothers id hnone).1)
  routers := fun id hnone =>
    (hothers id hnone).2.2.trans (h.routers id (hothers id hnone).1)

theorem taskOf_keepAdapter (adapter : Option A) (kind : TaskKind) (id : String) :
    (fe.keepAdapter sessionId adapter).taskOf kind id = fe.taskOf kind id := by
  cases adapter <;> cases kind <;> rfl

theorem Tracked.keepAdapter (h : Tracked fe) (sessionId : String) (adapter : Option A) :
    Tracked (fe.keepAdapter sessionId adapter) := by
  refine h.of_tasks ?_ (taskOf_keepAdapter adapter) fun id hnone => ?_
  · cases adapter <;> rfl
  · cases adapter <;> exact ⟨hnone, rfl, rfl⟩

theorem Tracked.register (h : Tracked fe) (sessionId : String) (session : Session V) :
    Tracked (fe.register sessionId session) := by
  refine h.of_tasks rfl ?_ fun id hnone => ?_
  · intro kind id
    cases kind <;> rfl
  · simp only [FrontendInterface.register, OrderedDict.get?_set] at hnone ⊢
    split at hnone
    · cases hnone
    · next hne =>
        rw [if_neg hne]
        exact ⟨hnone, rfl, trivial⟩

theorem Tracked.keepRouter (h : Tracked fe) (hsession : (fe.sessions.get? sessionId).isSome)
    (router : R) : Tracked (fe.keepRouter sessionId router) := by
  refine h.of_tasks rfl ?_ fun id hnone => ?_
  · intro kind id
    cases kind <;> rfl
  · have hold : fe.sessions.get? id = none := hnone
    have hne : id ≠ sessionId := by
      rintro rfl
      rw [hold] at hsession
      cases hsession
    simp only [FrontendInterface.keepRouter, OrderedDict.get?_set, if_neg hne]
    exact ⟨hold, trivial, trivial⟩

theorem Tracked.spawnConsumer (h : Tracked fe) (hsession : (fe.sessions.get? sessionId).isSome)
    (hfree : fe.taskOf .consumeResults sessionId = none) : Tracked (fe.spawnConsumer sessionId) := by
  refine h.spawn ⟨sessionId, .consumeResults, fe.nextSerial⟩ hsession hfree rfl ?_ rfl rfl rfl
  intro kind id
  cases kind <;> simp [FrontendInterface.spawnConsumer, taskOf]

theorem Tracked.spawnTicker (h : Tracked fe) (hsession : (fe.sessions.get? sessionId).isSome)
    (hfree : fe.taskOf .textCommitTicker sessionId = none) (enabled : Bool) :
    Tracked (fe.spawnTicker sessionId enabled) := by
  unfold FrontendInterface.spawnTicker
  split
  · refine h.spawn ⟨sessionId, .textCommitTicker, fe.nextSerial⟩ hsession hfree rfl ?_
      rfl rfl rfl
    intro kind id
    cases kind <;> simp [taskOf]
  · exact h

theorem Tracked.spawnActor (h : Tracked fe) (sessionId : String) : Tracked (fe.spawnActor sessionId) := by
  unfold FrontendInterface.spawnActor
  split
  · next hactor =>
      refine h.spawn ⟨sessionId, .textActor, fe.nextSerial⟩ hactor.1 hactor.2 rfl ?_ rfl rfl rfl
      intro kind id
      cases kind <;> simp [taskOf]
  · exact h

@[simp] theorem sessions_spawnTicker (enabled : Bool) :
    (fe.spawnTicker sessionId enabled).sessions = fe.sessions := by
  unfold FrontendInterface.spawnTicker
  split <;> rfl

@[simp] theorem adapters_spawnTicker (enabled : Bool) :
    (fe.spawnTicker sessionId enabled).cursorPlanAdapters = fe.cursorPlanAdapters := by
  unfold FrontendInterface.spawnTicker
  split <;> rfl

@[simp] theorem sessions_keepAdapter (adapter : Option A) :
    (fe.keepAdapter sessionId adapter).sessions = fe.sessions := by
  cases adapter <;> rfl

theorem held_register (session : Session V) : Held (fe.register sessionId session) sessionId := by
  left
  simp [FrontendInterface.register]

/-- The registrations of a start behind its session, for an id that had none. -/
theorem Tracked.registerTasks (h : Tracked fe) (hnone : fe.sessions.get? sessionId = none)
    (session : Session V) (router : R) (enabled : Bool) :
    Tracked ((((fe.register sessionId session).keepRouter sessionId router).spawnConsumer
      sessionId).spawnTicker sessionId enabled) := by
  have hopened := h.register sessionId session
  have hsession : ((fe.register sessionId session).sessions.get? sessionId).isSome := by
    simp [FrontendInterface.register]
  have hrouted := hopened.keepRouter hsession router
  have hconsumer : Tracked (((fe.register sessionId session).keepRouter sessionId
      router).spawnConsumer sessionId) :=
    hrouted.spawnConsumer hsession (h.tasks sessionId hnone .consumeResults)
  refine hconsumer.spawnTicker hsession ?_ enabled
  exact h.tasks sessionId hnone .textCommitTicker

theorem Tracked.registerAll (h : Tracked fe) (hnone : fe.sessions.get? sessionId = none)
    (session : Session V) (router : R) (adapter : Option A) :
    Tracked (fe.registerAll sessionId session router adapter) := by
  refine (h.keepAdapter sessionId adapter).registerTasks ?_ session router session.committerEnabled
  rw [sessions_keepAdapter]
  exact hnone

/-! ## The others -/

theorem Tracked.apply (h : Tracked fe) (other : Other V A R) : Tracked (other.apply fe) := by
  cases other with
  | ended id => exact h.endSession id
  | actor id => exact h.spawnActor id
  | started id session router adapter =>
      simp only [Other.apply]
      split
      · exact h
      · next hnone =>
          exact h.registerAll (Option.not_isSome_iff_eq_none.1 hnone) session router adapter
  | adapterKept id adapter => exact h.keepAdapter id (some adapter)

theorem Tracked.meanwhile (h : Tracked fe) (others : List (Other V A R)) :
    Tracked (meanwhile fe others) := by
  induction others generalizing fe with
  | nil => exact h
  | cons other rest ih => exact ih (h.apply other)

theorem held_endSession (id : String) :
    Held (fe.endSession id) sessionId ↔ sessionId ≠ id ∧ Held fe sessionId := by
  unfold Held
  rw [sessions_endSession, adapters_endSession]
  by_cases hid : sessionId = id <;> simp [hid]

theorem held_spawnActor (id : String) : Held (fe.spawnActor id) sessionId ↔ Held fe sessionId := by
  unfold FrontendInterface.spawnActor
  split <;> rfl

theorem held_registerAll (id : String) (session : Session V) (router : R) (adapter : Option A) :
    Held (fe.registerAll id session router adapter) sessionId ↔ sessionId = id ∨ Held fe sessionId := by
  unfold Held FrontendInterface.registerAll
  rw [sessions_spawnTicker, adapters_spawnTicker]
  simp only [FrontendInterface.spawnConsumer, FrontendInterface.keepRouter,
    FrontendInterface.register, OrderedDict.get?_set]
  by_cases hid : sessionId = id
  · simp [hid]
  · cases adapter <;> simp [hid, FrontendInterface.keepAdapter]

/-- What another coroutine does to the hold of an id. -/
theorem held_apply (other : Other V A R) (held : Bool) (h : Held fe sessionId ↔ held = true) :
    Held (other.apply fe) sessionId ↔ heldAfter sessionId held [other] = true := by
  cases other with
  | ended id =>
      simp only [Other.apply, heldAfter, List.foldl_cons, List.foldl_nil, held_endSession, h]
      by_cases hid : id = sessionId
      · simp [hid]
      · simp [hid, Ne.symm hid]
  | actor id => exact (held_spawnActor id).trans h
  | started id session router adapter =>
      simp only [Other.apply, heldAfter, List.foldl_cons, List.foldl_nil]
      by_cases hid : id = sessionId
      · subst hid
        simp only [if_true, iff_true]
        split
        · next hsession => exact .inl hsession
        · exact (held_registerAll id session router adapter).2 (.inl rfl)
      · rw [if_neg hid]
        split
        · exact h
        · rw [held_registerAll, or_iff_right (Ne.symm hid)]
          exact h
  | adapterKept id adapter =>
      simp only [Other.apply, heldAfter, List.foldl_cons, List.foldl_nil, Held,
        FrontendInterface.keepAdapter, OrderedDict.get?_set]
      by_cases hid : id = sessionId
      · simp [hid]
      · simpa [hid, Ne.symm hid, Held] using h

theorem held_meanwhile (others : List (Other V A R)) (held : Bool)
    (h : Held fe sessionId ↔ held = true) :
    Held (meanwhile fe others) sessionId ↔ heldAfter sessionId held others = true := by
  induction others generalizing fe held with
  | nil => exact h
  | cons other rest ih => exact ih _ (held_apply other held h)

theorem heldAfter_append (held : Bool) (others others' : List (Other V A R)) :
    heldAfter sessionId held (others ++ others') =
      heldAfter sessionId (heldAfter sessionId held others) others' :=
  List.foldl_append

/-! ## The step at which a start fails -/

/-- The steps of `create_session` that may raise. -/
inductive Step
  | replacement
  | capacity
  | session
  | adapter
  | output
  | router
  | announcement
  | submission
  deriving DecidableEq, Repr

/-- The first step from the capacity check on that raises. -/
def buildStep (c : Collaborators V A R) (fe : FrontendInterface V A R) (config : SessionConfig V) :
    Option Step :=
  if fe.maxSessions ≤ fe.sessions.size then some .capacity
  else
    match buildSession c config, planAdapter c, buildOutput c config, c.diagnosticTextRouter,
      announceSession c config with
    | .error _, _, _, _, _ => some .session
    | .ok _, .error _, _, _, _ => some .adapter
    | .ok _, .ok _, .error _, _, _ => some .output
    | .ok _, .ok _, .ok _, .error _, _ => some .router
    | .ok _, .ok _, .ok _, .ok _, .error _ => some .announcement
    | .ok _, .ok _, .ok _, .ok _, .ok _ =>
        if c.submitNewSession.raised.isSome then some .submission else none

/-- The first step of a start that raises. -/
def failingStep (c : Collaborators V A R) (fe : FrontendInterface V A R) (sessionId : String)
    (config : SessionConfig V) : Option Step :=
  if (fe.sessions.get? sessionId).isSome ∧ c.submitCancel.raised.isSome then some .replacement
  else buildStep c (cancelExisting c fe sessionId).2 config

/-- No earlier start has left an adapter behind. -/
def AdapterGone (fe : FrontendInterface V A R) (sessionId : String) : Prop :=
  fe.sessions.get? sessionId = none → fe.cursorPlanAdapters.get? sessionId = none

/-- What a start that fails at a step leaves for its id is nothing. -/
def LeavesNothing (c : Collaborators V A R) (fe : FrontendInterface V A R) (sessionId : String) :
    Option Step → Prop
  | some .replacement => heldAfter sessionId true c.submitCancel.others = false
  | some .capacity | some .session | some .adapter => AdapterGone fe sessionId
  | some .output => AdapterGone fe sessionId ∧ c.cursorPlanAdapterFactory = none
  | some .router | some .announcement => False
  | some .submission | none => heldAfter sessionId true c.submitNewSession.others = false

variable {c : Collaborators V A R} {config : SessionConfig V}

/-- A call has raised. -/
def Raises {α : Type} (result : Except StartError α) : Prop := ∃ e, result = .error e

theorem adapterGone_iff (hnone : fe.sessions.get? sessionId = none) :
    AdapterGone fe sessionId ↔ ¬ Held fe sessionId := by
  unfold AdapterGone Held
  rw [hnone]
  simp

theorem planAdapter_eq_none_iff :
    planAdapter c = .ok none ↔ c.cursorPlanAdapterFactory = none := by
  unfold planAdapter
  split
  · simp [*]
  · simp [*]
  · simp [*]
  · simp [*]

theorem buildSession_config {session : Session V} (h : buildSession c config = .ok session) :
    session.config = config := by
  unfold buildSession at h
  cases hread : readTnOptions c config.opts tnOptions with
  | error e => simp [hread, bind, Except.bind] at h
  | ok _ =>
      cases henabled : tnEnabled c config with
      | error e => simp [hread, henabled, bind, Except.bind] at h
      | ok enabled =>
          cases hprepare : c.prepareSessionConfig config with
          | error e => simp [hread, henabled, hprepare, bind, Except.bind] at h
          | ok _ =>
              cases hcommitter : c.textCommitter config with
              | error e => simp [hread, henabled, hprepare, hcommitter, bind, Except.bind] at h
              | ok _ =>
                  simp only [hread, henabled, hprepare, hcommitter, bind, Except.bind, pure,
                    Except.pure, Except.ok.injEq] at h
                  rw [← h]

/-- What is known of a start once its steps are over. -/
structure Outcome (c : Collaborators V A R) (fe : FrontendInterface V A R) (sessionId : String)
    (step : Option Step) (result : Except StartError (Session V) × FrontendInterface V A R) : Prop where
  tracked : Tracked result.2
  raises : Raises result.1 ↔ step ≠ none
  held : LeavesNothing c fe sessionId step ↔ ¬ Held result.2 sessionId

theorem submitSession_outcome (h : Tracked fe') (hheld : Held fe' sessionId) (session : Session V) :
    Outcome c fe sessionId (if c.submitNewSession.raised.isSome then some .submission else none)
      (submitSession c fe' session) := by
  have htracked := h.meanwhile c.submitNewSession.others
  have hafter := held_meanwhile c.submitNewSession.others true (iff_of_true hheld rfl)
  have hleaves : heldAfter sessionId true c.submitNewSession.others = false ↔
      ¬ Held (meanwhile fe' c.submitNewSession.others) sessionId := by
    rw [hafter, Bool.not_eq_true]
  unfold submitSession
  cases hraised : c.submitNewSession.raised with
  | none => exact ⟨htracked, by simp [Raises], hleaves⟩
  | some e => exact ⟨htracked, by simp [Raises], hleaves⟩

/-- The outcome from the capacity check on, for an id without session. -/
theorem buildAndRegister_outcome (h : Tracked fe) (hnone : fe.sessions.get? sessionId = none) :
    Outcome c fe sessionId (buildStep c fe config) (buildAndRegister c fe sessionId config) := by
  have hgone := adapterGone_iff hnone
  unfold buildAndRegister buildStep
  by_cases hfull : fe.maxSessions ≤ fe.sessions.size
  · rw [if_pos hfull, if_pos hfull]
    exact ⟨h, by simp [Raises], hgone⟩
  rw [if_neg hfull, if_neg hfull]
  cases hsession : buildSession c config with
  | error e => exact ⟨h, by simp [Raises], hgone⟩
  | ok session =>
  cases hadapter : planAdapter c with
  | error e => exact ⟨h, by simp [Raises], hgone⟩
  | ok adapter =>
  have hkept := h.keepAdapter sessionId adapter
  have hkeptNone : (fe.keepAdapter sessionId adapter).sessions.get? sessionId = none := by
    rw [sessions_keepAdapter]
    exact hnone
  cases houtput : buildOutput c config with
  | error e =>
      refine ⟨hkept, by simp [Raises], ?_⟩
      rw [LeavesNothing, hgone, ← planAdapter_eq_none_iff, hadapter]
      cases adapter with
      | none => simp [FrontendInterface.keepAdapter]
      | some adapter => simp [FrontendInterface.keepAdapter, Held]
  | ok _ =>
  unfold registerSession
  obtain rfl := buildSession_config hsession
  have hheld : Held ((fe.keepAdapter sessionId adapter).register sessionId session) sessionId :=
    held_register session
  have hopen : ((((fe.keepAdapter sessionId adapter).register sessionId session)).sessions.get?
      sessionId).isSome := by
    simp [FrontendInterface.register]
  cases hrouter : c.diagnosticTextRouter with
  | error e =>
      exact ⟨hkept.register sessionId session, by simp [Raises], by simpa [LeavesNothing] using hheld⟩
  | ok router =>
  cases hannounce : announceSession c session.config with
  | error e =>
      simp only [hannounce]
      refine ⟨(hkept.register sessionId session).keepRouter hopen router, by simp [Raises], ?_⟩
      exact iff_of_false id (fun hnot => hnot (.inl hopen))
  | ok _ =>
      simp only [hannounce]
      refine submitSession_outcome (hkept.registerTasks hkeptNone session router _) ?_ session
      left
      rw [sessions_spawnTicker]
      exact hopen

/-- The outcome of `create_session`. -/
theorem createSession_outcome (h : Tracked fe) :
    Outcome c fe sessionId (failingStep c fe sessionId config) (createSession c fe sessionId config) := by
  unfold createSession failingStep cancelExisting
  cases hsession : fe.sessions.get? sessionId with
  | none =>
      rw [if_neg (by simp)]
      exact buildAndRegister_outcome h hsession
  | some session =>
      have hheld : Held fe sessionId := .inl (by rw [hsession]; rfl)
      have htracked := h.meanwhile c.submitCancel.others
      cases hraised : c.submitCancel.raised with
      | some e =>
          refine ⟨htracked, by simp [Raises], ?_⟩
          rw [if_pos (by simp), LeavesNothing,
            held_meanwhile c.submitCancel.others true (iff_of_true hheld rfl), Bool.not_eq_true]
      | none =>
          rw [if_neg (by simp)]
          have hended := htracked.endSession sessionId
          have hnone : ((meanwhile fe c.submitCancel.others).endSession sessionId).sessions.get?
              sessionId = none := by simp
          have hout : Outcome c _ sessionId (buildStep c _ config) _ :=
            buildAndRegister_outcome hended hnone
          refine ⟨hout.tracked, hout.raises, ?_⟩
          rw [← hout.held]
          have hgone : AdapterGone ((meanwhile fe c.submitCancel.others).endSession sessionId) sessionId ↔
              AdapterGone fe sessionId := by
            unfold AdapterGone
            simp [hsession]
          unfold LeavesNothing
          simp only [hgone]

/-! ## Starts that promise nothing and leave something -/

/-- The states of a frontend: starts on any route, and what other coroutines do. -/
inductive Reachable : FrontendInterface V A R → Prop
  | init (maxSessions : Nat) : Reachable (init maxSessions)
  | start {fe : FrontendInterface V A R} (c : Collaborators V A R) (route : Route V A R)
      (sessionId : String) (config : SessionConfig V) (h : Reachable fe) :
      Reachable (start c route fe sessionId config).2
  | other {fe : FrontendInterface V A R} (other : Other V A R) (h : Reachable fe) :
      Reachable (other.apply fe)

theorem Tracked.start (h : Tracked fe) (c : Collaborators V A R) (route : Route V A R)
    (sessionId : String) (config : SessionConfig V) :
    Tracked (start c route fe sessionId config).2 := by
  have hcreate : Outcome c fe sessionId _ (createSession c fe sessionId config) :=
    createSession_outcome h
  match route with
  | .direct => exact hcreate.tracked
  | .service true _ _ => exact h
  | .service false (.error _) _ => exact h
  | .service false (.ok ()) putStart =>
      simp only [Creation.start]
      unfold putStartEvent
      generalize createSession c fe sessionId config = created at hcreate ⊢
      obtain ⟨result, fe'⟩ := created
      cases result with
      | error e => exact hcreate.tracked
      | ok session =>
          have hafter := hcreate.tracked.meanwhile putStart.others
          dsimp only
          cases putStart.raised <;> exact hafter

theorem Reachable.tracked (h : Reachable fe) : Tracked fe := by
  induction h with
  | init maxSessions => exact tracked_init maxSessions
  | start c route sessionId config _ ih => exact ih.start c route sessionId config
  | other other _ ih => exact ih.apply other

/-- The starts that leave nothing when they fail: by the failing step, and on the way through the
service also by the put of the start event behind a session that is there. -/
def FailsClean (c : Collaborators V A R) (route : Route V A R) (fe : FrontendInterface V A R)
    (sessionId : String) (config : SessionConfig V) : Prop :=
  match route with
  | .direct =>
      ∀ step, failingStep c fe sessionId config = some step → LeavesNothing c fe sessionId (some step)
  | .service true _ _ | .service false (.error _) _ =>
      fe.sessions.get? sessionId = none ∧ AdapterGone fe sessionId
  | .service false (.ok ()) putStart =>
      match failingStep c fe sessionId config with
      | some step => LeavesNothing c fe sessionId (some step)
      | none => putStart.raised = none ∨
          heldAfter sessionId true (c.submitNewSession.others ++ putStart.others) = false

theorem clean_iff_adapterGone (h : Tracked fe) :
    fe.Clean sessionId ↔ fe.sessions.get? sessionId = none ∧ AdapterGone fe sessionId := by
  rw [h.clean_iff]
  unfold Held AdapterGone
  rw [not_or, Option.not_isSome_iff_eq_none, Option.not_isSome_iff_eq_none]
  exact ⟨fun hnone => ⟨hnone.1, fun _ => hnone.2⟩, fun hnone => ⟨hnone.1, hnone.2 hnone.1⟩⟩

/-- A start that fails leaves no entry and no task of its id exactly if `FailsClean` holds of it. -/
theorem failed_start_clean_iff (h : Reachable fe) (c : Collaborators V A R) (route : Route V A R)
    (sessionId : String) (config : SessionConfig V) :
    (Raises (start c route fe sessionId config).1 →
        (start c route fe sessionId config).2.Clean sessionId) ↔
      FailsClean c route fe sessionId config := by
  have htracked := h.tracked.start c route sessionId config
  have hcreate : Outcome c fe sessionId _ (createSession c fe sessionId config) :=
    createSession_outcome h.tracked
  match route with
  | .direct =>
      simp only [Creation.start, FailsClean]
      rw [hcreate.raises, hcreate.tracked.clean_iff, ← hcreate.held]
      cases failingStep c fe sessionId config with
      | none => simp
      | some step => simp
  | .service true _ _ =>
      have hraises : Raises (start c (.service true ‹_› ‹_›) fe sessionId config).1 := ⟨_, rfl⟩
      simp only [hraises, true_imp_iff]
      exact clean_iff_adapterGone h.tracked
  | .service false (.error e) _ =>
      have hraises : Raises (start c (.service false (.error e) ‹_›) fe sessionId config).1 := ⟨_, rfl⟩
      simp only [hraises, true_imp_iff]
      exact clean_iff_adapterGone h.tracked
  | .service false (.ok ()) putStart =>
      simp only [FailsClean]
      rw [htracked.clean_iff]
      simp only [Creation.start] at htracked ⊢
      generalize createSession c fe sessionId config = created at hcreate htracked ⊢
      obtain ⟨result, fe'⟩ := created
      cases result with
      | error e =>
          have hfails := hcreate.raises.1 ⟨e, rfl⟩
          cases hstep : failingStep c fe sessionId config with
          | none => exact absurd hstep hfails
          | some step =>
              rw [hstep] at hcreate
              simp only [putStartEvent]
              rw [hcreate.held]
              exact ⟨fun hclean => hclean ⟨e, rfl⟩, fun hclean _ => hclean⟩
      | ok session =>
          have hstep : failingStep c fe sessionId config = none := by
            by_contra hstep
            obtain ⟨e, he⟩ := hcreate.raises.2 hstep
            cases he
          rw [hstep] at hcreate
          have hheld : Held fe' sessionId ↔
              heldAfter sessionId true c.submitNewSession.others = true := by
            rw [← not_iff_not, ← hcreate.held, Bool.not_eq_true]
            rfl
          simp only [hstep, putStartEvent]
          cases hput : putStart.raised with
          | none =>
              simp only [true_or, iff_true]
              rintro ⟨e, he⟩
              cases he
          | some e =>
              simp only [reduceCtorEq, false_or]
              rw [heldAfter_append, held_meanwhile putStart.others _ hheld, Bool.not_eq_true]
              exact ⟨fun hclean => hclean ⟨_, rfl⟩, fun hclean _ => hclean⟩

/-- Collaborators none of which raises, with the last await of a start. -/
def plain (submitNewSession : Awaited Unit Unit Unit) : Collaborators Unit Unit Unit where
  metricBool _ := .ok true
  float _ := .ok ⟨false, true⟩
  int _ := .ok 0
  str _ := .ok ""
  prepareSessionConfig _ := .ok ()
  textCommitter _ := .ok ()
  cursorPlanAdapterFactory := none
  spliter _ := .ok ()
  diagnosticTextRouter := .ok ()
  announce _ := .ok ()
  submitCancel := ⟨[], none⟩
  submitNewSession := submitNewSession

theorem failed_start_clean_empty :
    (Raises (start (plain ⟨[], none⟩) .direct (init 0) "a" ⟨some [], true⟩).1 →
        (start (plain ⟨[], none⟩) .direct (init 0) "a" ⟨some [], true⟩).2.Clean "a") ↔
      FailsClean (plain ⟨[], none⟩) .direct (init 0) "a" ⟨some [], true⟩ :=
  failed_start_clean_iff (.init 0) _ _ _ _

/-- A start is cancelled while it waits for the inbox of the engine. Its session stays, and a frontend of
one session takes no other. -/
theorem cancelled_start_uses_up :
    ∃ fe : FrontendInterface Unit Unit Unit, Reachable fe ∧
      Raises (start (plain ⟨[], some "CancelledError"⟩) .direct fe "a" ⟨some [], true⟩).1 ∧
      ¬ (start (plain ⟨[], some "CancelledError"⟩) .direct fe "a" ⟨some [], true⟩).2.Clean "a" ∧
      (start (plain ⟨[], none⟩) .direct
        (start (plain ⟨[], some "CancelledError"⟩) .direct fe "a" ⟨some [], true⟩).2 "b"
        ⟨some [], true⟩).1 = .error (.sessionCapacity 1) := by
  refine ⟨init 1, .init 1, ⟨_, rfl⟩, fun hclean => ?_, rfl⟩
  have hnone := hclean.sessions
  cases hnone

end StreamingTts.Frontend.Creation
