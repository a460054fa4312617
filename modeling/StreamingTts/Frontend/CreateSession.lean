import StreamingTts.Lib.OrderedDict

/-!
# The registries of the frontend and a failing start

`FrontendInterface.create_session`, `cancel_session` and `_cleanup_session` in `engine/frontend/interface.py`,
with `SessionService.create`, `StandaloneSessionBackend.start` and `WebSocketGateway._create_session` above
them. A start is a row of steps that may each raise; an awaited step also says what the other coroutines
of the loop did to the registries meanwhile.

The layers above take back their own handle and pump only, and nothing takes back what the start itself
has registered: what a failing start leaves depends on the step at which it fails.
-/

namespace StreamingTts.Frontend.Creation

open Lib (OrderedDict)

/-! ## The registries -/

/-- The tasks that the frontend creates for a session. -/
inductive TaskKind
  | consumeResults
  | textCommitTicker
  | textActor
  deriving DecidableEq, Repr

/-- An `asyncio.Task`; the serial number is its identity. -/
structure Task where
  sessionId : String
  kind : TaskKind
  serial : Nat
  deriving DecidableEq, Repr

/-- The fields of `SessionConfig` that a start reads: `output_policy.config` and
`text_normalization.enabled`. -/
structure SessionConfig (V : Type) where
  outputConfig : Option (List (String × V))
  tnEnabled : Bool

/-- A `Session` with its config and whether its committer is enabled. -/
structure Session (V : Type) where
  config : SessionConfig V
  committerEnabled : Bool

/-- The registries, with the tasks that have neither ended nor been cancelled. -/
structure FrontendInterface (V A R : Type) where
  sessions : OrderedDict String (Session V)
  consumerTasks : OrderedDict String Task
  tnTasks : OrderedDict String Task
  textActorTasks : OrderedDict String Task
  tnLocks : OrderedDict String Unit
  diagnosticTextRouters : OrderedDict String R
  cursorPlanAdapters : OrderedDict String A
  running : List Task
  nextSerial : Nat
  maxSessions : Nat

namespace FrontendInterface

variable {V A R : Type} (fe : FrontendInterface V A R) (sessionId : String)

/-- A frontend without sessions. -/
def init (maxSessions : Nat) : FrontendInterface V A R :=
  ⟨.empty, .empty, .empty, .empty, .empty, .empty, .empty, [], 0, maxSessions⟩

/-- The registered task of a kind. -/
def taskOf : TaskKind → String → Option Task
  | .consumeResults, sessionId => fe.consumerTasks.get? sessionId
  | .textCommitTicker, sessionId => fe.tnTasks.get? sessionId
  | .textActor, sessionId => fe.textActorTasks.get? sessionId

/-- `task.cancel()` of a task that may not be there. -/
def cancelTask (task : Option Task) : FrontendInterface V A R :=
  { fe with running := fe.running.filter fun other => some other ≠ task }

/-- `_cleanup_session`. -/
def cleanupSession : FrontendInterface V A R :=
  let popped := (fe.cancelTask (fe.tnTasks.get? sessionId)).cancelTask (fe.textActorTasks.get? sessionId)
  { popped with
    sessions := fe.sessions.erase sessionId
    consumerTasks := fe.consumerTasks.erase sessionId
    tnTasks := fe.tnTasks.erase sessionId
    textActorTasks := fe.textActorTasks.erase sessionId
    tnLocks := fe.tnLocks.erase sessionId
    diagnosticTextRouters := fe.diagnosticTextRouters.erase sessionId
    cursorPlanAdapters := fe.cursorPlanAdapters.erase sessionId }

/-- `cancel_session` from the return of `submit_cancel` on. The end of the consumer of a session does
the same. -/
def endSession : FrontendInterface V A R :=
  (fe.cancelTask (fe.consumerTasks.get? sessionId)).cleanupSession sessionId

/-- `self._cursor_plan_adapters[session_id] = adapter`, where a factory is configured. -/
def keepAdapter : Option A → FrontendInterface V A R
  | none => fe
  | some adapter => { fe with cursorPlanAdapters := fe.cursorPlanAdapters.set sessionId adapter }

/-- The session and its lock are registered. -/
def register (session : Session V) : FrontendInterface V A R :=
  { fe with
    sessions := fe.sessions.set sessionId session
    tnLocks := fe.tnLocks.set sessionId () }

/-- `self._diagnostic_text_routers[session_id] = diagnostic_router`. -/
def keepRouter (router : R) : FrontendInterface V A R :=
  { fe with diagnosticTextRouters := fe.diagnosticTextRouters.set sessionId router }

/-- `asyncio.create_task(self._consume_results(…))`. -/
def spawnConsumer : FrontendInterface V A R :=
  let task : Task := ⟨sessionId, .consumeResults, fe.nextSerial⟩
  { fe with
    consumerTasks := fe.consumerTasks.set sessionId task
    running := fe.running ++ [task]
    nextSerial := fe.nextSerial + 1 }

/-- `asyncio.create_task(self._text_commit_ticker(session))`, where the committer is enabled. -/
def spawnTicker (enabled : Bool) : FrontendInterface V A R :=
  if enabled then
    let task : Task := ⟨sessionId, .textCommitTicker, fe.nextSerial⟩
    { fe with
      tnTasks := fe.tnTasks.set sessionId task
      running := fe.running ++ [task]
      nextSerial := fe.nextSerial + 1 }
  else fe

/-- A first `push_text_input` creates the text actor of a session. -/
def spawnActor : FrontendInterface V A R :=
  if (fe.sessions.get? sessionId).isSome ∧ fe.textActorTasks.get? sessionId = none then
    let task : Task := ⟨sessionId, .textActor, fe.nextSerial⟩
    { fe with
      textActorTasks := fe.textActorTasks.set sessionId task
      running := fe.running ++ [task]
      nextSerial := fe.nextSerial + 1 }
  else fe

/-- Everything that a start registers, up to its last await. -/
def registerAll (session : Session V) (router : R) (adapter : Option A) : FrontendInterface V A R :=
  (((((fe.keepAdapter sessionId adapter).register sessionId session).keepRouter sessionId
    router).spawnConsumer sessionId).spawnTicker sessionId session.committerEnabled)

/-- No registry has an entry of the session id and no task of it keeps running. -/
structure Clean : Prop where
  sessions : fe.sessions.get? sessionId = none
  consumerTasks : fe.consumerTasks.get? sessionId = none
  tnTasks : fe.tnTasks.get? sessionId = none
  tnLocks : fe.tnLocks.get? sessionId = none
  diagnosticTextRouters : fe.diagnosticTextRouters.get? sessionId = none
  cursorPlanAdapters : fe.cursorPlanAdapters.get? sessionId = none
  running : ∀ task ∈ fe.running, task.sessionId ≠ sessionId

end FrontendInterface

open FrontendInterface

/-! ## What else happens during an await -/

/-- What another coroutine does to the registries. -/
inductive Other (V A R : Type)
  /-- a session is cancelled, or its consumer ends -/
  | ended (sessionId : String)
  /-- a text actor starts -/
  | actor (sessionId : String)
  /-- another start gets to its last await -/
  | started (sessionId : String) (session : Session V) (router : R) (adapter : Option A)
  /-- another start keeps its adapter and fails behind it -/
  | adapterKept (sessionId : String) (adapter : A)

variable {V A R : Type}

/-- The registries after another coroutine. A start finds its id unregistered, since it cancels the
session first. -/
def Other.apply (fe : FrontendInterface V A R) : Other V A R → FrontendInterface V A R
  | .ended sessionId => fe.endSession sessionId
  | .actor sessionId => fe.spawnActor sessionId
  | .started sessionId session router adapter =>
      if (fe.sessions.get? sessionId).isSome then fe
      else fe.registerAll sessionId session router adapter
  | .adapterKept sessionId adapter => fe.keepAdapter sessionId (some adapter)

/-- An awaited call: what the others do before it is over, and the exception it then raises, if any. -/
structure Awaited (V A R : Type) where
  others : List (Other V A R)
  raised : Option String

/-- The registries after the others. -/
def meanwhile (fe : FrontendInterface V A R) (others : List (Other V A R)) : FrontendInterface V A R :=
  others.foldl Other.apply fe

/-- Whether an id is held after the others, by what the last of them did that is about it. -/
def heldAfter (sessionId : String) (held : Bool) (others : List (Other V A R)) : Bool :=
  others.foldl (fun held other =>
    match other with
    | .ended other => if other = sessionId then false else held
    | .actor _ => held
    | .started other _ _ _ => if other = sessionId then true else held
    | .adapterKept other _ => if other = sessionId then true else held) held

/-! ## The options -/

/-- A number that `float` has read. -/
structure FloatReading where
  negative : Bool
  finite : Bool
  deriving DecidableEq, Repr

/-- The conversions of an option. -/
inductive Conversion
  | metricBool
  | float
  | int
  | str
  deriving DecidableEq, Repr

/-- The text normalization options with their conversions, in the order in which they are read. -/
def tnOptions : List (String × Conversion) :=
  [("tn_enabled", .metricBool), ("tn_semantic_max_wait_ms", .float),
    ("tn_semantic_idle_wait_ms", .float), ("tn_fallback", .str), ("tn_projection", .str),
    ("tn_language", .str), ("tn_commit_mode", .str), ("tn_candidate_nbest", .int),
    ("tn_margin_threshold", .float), ("tn_calibration_profile", .str), ("tn_ambiguity_policy", .str)]

/-- What a start calls and does not define: the conversions, the checks and constructors that may raise,
the factories, and the two awaited calls. A conversion or a constructor answers with its exception. -/
structure Collaborators (V A R : Type) where
  metricBool : V → Except String Bool
  float : V → Except String FloatReading
  int : V → Except String Int
  str : V → Except String String
  /-- `_prepare_session_config` -/
  prepareSessionConfig : SessionConfig V → Except String Unit
  /-- `Session`, `CommitterConfig`, `IncrementalTextCommitter` and what else is built for the session -/
  textCommitter : SessionConfig V → Except String Unit
  /-- `self._cursor_plan_adapter_factory` -/
  cursorPlanAdapterFactory : Option (Except String (Option A))
  /-- `_commitment_splitter_overrides` and `Spliter` -/
  spliter : SessionConfig V → Except String Unit
  /-- `DiagnosticTextRouter` -/
  diagnosticTextRouter : Except String R
  /-- the observability level, the lifecycle events and the timing accumulator -/
  announce : SessionConfig V → Except String Unit
  submitCancel : Awaited V A R
  submitNewSession : Awaited V A R

variable (c : Collaborators V A R)

/-- A conversion of an option. -/
def Collaborators.convert (value : V) : Conversion → Except String Unit
  | .metricBool => (c.metricBool value).map fun _ => ()
  | .float => (c.float value).map fun _ => ()
  | .int => (c.int value).map fun _ => ()
  | .str => (c.str value).map fun _ => ()

/-- `output_policy.config or {}`. -/
def SessionConfig.opts (config : SessionConfig V) : List (String × V) := config.outputConfig.getD []

/-- The normalization options are converted one after the other. -/
def readTnOptions (opts : List (String × V)) : List (String × Conversion) → Except String Unit
  | [] => .ok ()
  | (key, conversion) :: rest =>
      match opts.lookup key with
      | none => readTnOptions opts rest
      | some value =>
          match c.convert value conversion with
          | .error e => .error e
          | .ok () => readTnOptions opts rest

/-- `tn_cfg.enabled` with the override of the session. -/
def tnEnabled (config : SessionConfig V) : Except String Bool :=
  match config.opts.lookup "tn_enabled" with
  | none => .ok config.tnEnabled
  | some value => c.metricBool value

/-- The steps of a start from the options to the session, none of which registers anything. -/
def buildSession (config : SessionConfig V) : Except String (Session V) := do
  readTnOptions c config.opts tnOptions
  let enabled ← tnEnabled c config
  c.prepareSessionConfig config
  c.textCommitter config
  return ⟨config, enabled⟩

/-- The adapter of the session, where a factory is configured. -/
def planAdapter : Except String (Option A) :=
  match c.cursorPlanAdapterFactory with
  | none => .ok none
  | some (.error e) => .error e
  | some (.ok none) => .error "cursor_plan_adapter_factory returned None"
  | some (.ok (some adapter)) => .ok (some adapter)

/-- The option `reorder_stall_timeout_ms`. -/
def readReorderTimeout (opts : List (String × V)) : Except String Unit :=
  match opts.lookup "reorder_stall_timeout_ms" with
  | none => .ok ()
  | some value =>
      match c.float value with
      | .error _ => .error "reorder_stall_timeout_ms must be a finite nonnegative number"
      | .ok reading =>
          if reading.negative ∨ ¬ reading.finite then
            .error "reorder_stall_timeout_ms must be a finite nonnegative number"
          else .ok ()

/-- The steps between the adapter and the registration of the session. -/
def buildOutput (config : SessionConfig V) : Except String Unit := do
  c.spliter config
  readReorderTimeout c config.opts

/-- `config.output_policy.config.get("obs_level")`, which takes no `None`, and the lifecycle events. -/
def announceSession (config : SessionConfig V) : Except String Unit :=
  match config.outputConfig with
  | none => .error "'NoneType' object has no attribute 'get'"
  | some _ => c.announce config

/-! ## A start -/

/-- The exceptions of a start. -/
inductive StartError
  /-- `SessionCapacityError` -/
  | sessionCapacity (maxSessions : Nat)
  /-- any other exception, cancellation included -/
  | raised (message : String)
  /-- `SessionProtocolError("duplicate_session", …)` -/
  | duplicateSession
  deriving DecidableEq, Repr

/-- The first lines of `create_session`: a session of the same id is cancelled. -/
def cancelExisting (fe : FrontendInterface V A R) (sessionId : String) :
    Option String × FrontendInterface V A R :=
  match fe.sessions.get? sessionId with
  | none => (none, fe)
  | some _ =>
      let fe := meanwhile fe c.submitCancel.others
      match c.submitCancel.raised with
      | some e => (some e, fe)
      | none => (none, fe.endSession sessionId)

/-- `create_session` from the tasks on: the last await. -/
def submitSession (fe : FrontendInterface V A R) (session : Session V) :
    Except StartError (Session V) × FrontendInterface V A R :=
  let fe := meanwhile fe c.submitNewSession.others
  match c.submitNewSession.raised with
  | some e => (.error (.raised e), fe)
  | none => (.ok session, fe)

/-- `create_session` from the registration of the session on. -/
def registerSession (fe : FrontendInterface V A R) (sessionId : String) (session : Session V) :
    Except StartError (Session V) × FrontendInterface V A R :=
  let fe := fe.register sessionId session
  match c.diagnosticTextRouter with
  | .error e => (.error (.raised e), fe)
  | .ok router =>
      let fe := fe.keepRouter sessionId router
      match announceSession c session.config with
      | .error e => (.error (.raised e), fe)
      | .ok () =>
          submitSession c ((fe.spawnConsumer sessionId).spawnTicker sessionId session.committerEnabled)
            session

/-- `create_session` from the capacity check on. -/
def buildAndRegister (fe : FrontendInterface V A R) (sessionId : String) (config : SessionConfig V) :
    Except StartError (Session V) × FrontendInterface V A R :=
  if fe.maxSessions ≤ fe.sessions.size then (.error (.sessionCapacity fe.maxSessions), fe)
  else
    match buildSession c config with
    | .error e => (.error (.raised e), fe)
    | .ok session =>
        match planAdapter c with
        | .error e => (.error (.raised e), fe)
        | .ok adapter =>
            let fe := fe.keepAdapter sessionId adapter
            match buildOutput c config with
            | .error e => (.error (.raised e), fe)
            | .ok () => registerSession c fe sessionId session

/-- `FrontendInterface.create_session`. -/
def createSession (fe : FrontendInterface V A R) (sessionId : String) (config : SessionConfig V) :
    Except StartError (Session V) × FrontendInterface V A R :=
  match cancelExisting c fe sessionId with
  | (some e, fe) => (.error (.raised e), fe)
  | (none, fe) => buildAndRegister c fe sessionId config

/-- How a start is called. -/
inductive Route (V A R : Type)
  /-- `create_session` itself -/
  | direct
  /-- `SessionService.create`, with whether the service holds a handle of the id, what
  `_create_session` raises in front of the engine, and its put of the start event -/
  | service (handleHeld : Bool) (setup : Except String Unit) (putStart : Awaited V A R)

/-- `_create_session` behind the engine: the start event is put into the queue of the transport. -/
def putStartEvent (putStart : Awaited V A R) :
    Except StartError (Session V) × FrontendInterface V A R →
      Except StartError (Session V) × FrontendInterface V A R
  | (.error e, fe) => (.error e, fe)
  | (.ok session, fe) =>
      let fe := meanwhile fe putStart.others
      match putStart.raised with
      | some e => (.error (.raised e), fe)
      | none => (.ok session, fe)

/-- A start along its route. The service pops its handle and the backend cancels its pump when the
start fails; neither touches the frontend. -/
def start (route : Route V A R) (fe : FrontendInterface V A R) (sessionId : String)
    (config : SessionConfig V) : Except StartError (Session V) × FrontendInterface V A R :=
  match route with
  | .direct => createSession c fe sessionId config
  | .service true _ _ => (.error .duplicateSession, fe)
  | .service false (.error e) _ => (.error (.raised e), fe)
  | .service false (.ok ()) putStart => putStartEvent putStart (createSession c fe sessionId config)

end StreamingTts.Frontend.Creation
