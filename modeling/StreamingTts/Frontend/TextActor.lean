import StreamingTts.Frontend.InputRouting
import StreamingTts.Lib.BoundedQueue
import StreamingTts.Lib.Transition

/-!
# The text actor of a session

`FrontendInterface.push_text_input`, `_text_actor` and `mark_input_complete` for one session, as tasks of
an event loop: an event is what one task does between two points where it may be suspended. A section
under the session's `_tn_locks` entry is one event, since nothing else looks at the text of the session
while the lock is held. The queue of the actor is an `asyncio.Queue` (`Lib.BoundedQueue`); its idle event
is set from the start, cleared when the actor has taken an item, and set again when the actor is done
with a batch and finds the queue empty.

`calls` is a history: the texts of the accepted calls of `push_text_input`, in the order of the calls.
Calls of `mark_input_complete` are named by `μ`; each remembers how many calls were accepted before it.
-/

namespace StreamingTts.Frontend

open Lib (BoundedQueue)

/-- A text with the metadata of its packet. -/
structure TextItem (M : Type) where
  text : Text
  metadata : M

/-- One turn of the loop that combines neighbouring items of equal metadata. -/
def groupStep {M : Type} [DecidableEq M] (groups : List (List (TextItem M))) (item : TextItem M) :
    List (List (TextItem M)) :=
  match groups.getLast? with
  | some group =>
      if group.head?.map TextItem.metadata = some item.metadata then
        groups.dropLast ++ [group ++ [item]]
      else groups ++ [[item]]
  | none => [[item]]

/-- The groups of a batch. -/
def groupBatch {M : Type} [DecidableEq M] (batch : List (TextItem M)) : List (List (TextItem M)) :=
  batch.foldl groupStep []

/-- Where the actor stands. -/
inductive ActorPhase (M : Type)
  /-- in `queue.get` -/
  | waiting
  /-- in the sleep behind the first item -/
  | sleeping (batch : List (TextItem M))
  /-- with groups that it has yet to feed -/
  | feeding (groups : List (List (TextItem M)))

/-- The items in the hands of the actor. -/
def ActorPhase.items {M : Type} : ActorPhase M → List (TextItem M)
  | waiting => []
  | sleeping batch => batch
  | feeding groups => groups.flatten

/-- Where a call of `mark_input_complete` stands. -/
inductive MarkPhase
  | uncalled
  /-- in `idle.wait` -/
  | waiting (accepted : Nat)
  /-- about to take the lock -/
  | passed (accepted : Nat)
  | returned
  deriving DecidableEq

/-- The event is set: who waits for it goes on. -/
def MarkPhase.wakeUp : MarkPhase → MarkPhase
  | waiting accepted => passed accepted
  | phase => phase

/-- The text input of one session. -/
structure TextActor (μ M : Type) where
  created : Bool
  queue : BoundedQueue (TextItem M)
  idle : Bool
  phase : ActorPhase M
  input : TextInput
  inputComplete : Bool
  marks : μ → MarkPhase
  calls : List Text
  /-- the flush: the calls accepted before its `mark_input_complete`, and what the committer was given
  up to it -/
  flushed : Option (Nat × Text)

/-- What one task does between two suspensions. -/
inductive TextEvent (μ M : Type)
  /-- a call of `push_text_input` -/
  | push (text : Text) (metadata : M) (wait : Bool)
  /-- a `put` that was woken runs again -/
  | resumePut
  /-- the actor takes an item -/
  | actorGet
  /-- the sleep of the actor is over -/
  | actorWake
  /-- the actor feeds a group -/
  | actorFeed (outcome : FeedOutcome)
  /-- a call of `mark_input_complete`, up to the lock -/
  | mark (m : μ)
  /-- `_mark_input_complete_locked` -/
  | flush (m : μ)

namespace TextActor

variable {μ M : Type} [DecidableEq μ] [DecidableEq M] (versionText : Text) (s : TextActor μ M)

/-- A new session. -/
def new (input : TextInput) : TextActor μ M where
  created := false
  queue := .empty 256
  idle := true
  phase := .waiting
  input := input
  inputComplete := false
  marks _ := .uncalled
  calls := []
  flushed := none

/-- `push_text_input` up to `await queue.put`. -/
def push (text : Text) (metadata : M) : TextActor μ M :=
  if s.inputComplete then s
  else
    { s with
      created := true
      queue := s.queue.put ⟨text, metadata⟩
      calls := s.calls ++ [text] }

/-- The actor behind its last group. -/
def finishBatch : TextActor μ M :=
  if s.queue.items = [] then
    { s with phase := .waiting, idle := true, marks := fun m => (s.marks m).wakeUp }
  else { s with phase := .waiting }

/-- The actor feeds the next group. -/
def feedGroup (outcome : FeedOutcome) : TextActor μ M :=
  match s.phase with
  | .feeding (group :: rest) =>
      let s := { s with
        input := s.input.push (group.map TextItem.text).flatten outcome, phase := .feeding rest }
      if rest = [] then s.finishBatch else s
  | _ => s

/-- One event. -/
def step : TextActor μ M → TextEvent μ M → TextActor μ M
  | s, .push text metadata _ => s.push text metadata
  | s, .resumePut => { s with queue := s.queue.resume }
  | s, .actorGet =>
      match s.phase, s.queue.get with
      | .waiting, some (item, queue) =>
          { s with queue := queue, idle := false, phase := .sleeping [item] }
      | _, _ => s
  | s, .actorWake =>
      match s.phase with
      | .sleeping batch =>
          let (items, queue) := s.queue.drain
          { s with queue := queue, phase := .feeding (groupBatch (batch ++ items)) }
      | _ => s
  | s, .actorFeed outcome => s.feedGroup outcome
  | s, .mark m =>
      match s.marks m with
      | .uncalled =>
          let phase := if s.created = false ∨ s.idle = true then MarkPhase.passed s.calls.length
            else .waiting s.calls.length
          { s with marks := Function.update s.marks m phase }
      | _ => s
  | s, .flush m =>
      match s.marks m with
      | .passed accepted =>
          let s := { s with marks := Function.update s.marks m .returned }
          if s.inputComplete then s
          else
            let input := s.input.flush versionText
            { s with
              input := input
              inputComplete := true
              flushed := some (accepted, input.fed.flatten) }
      | _ => s

/-- What the end of input promises: the texts of all calls that were accepted before the call of
`mark_input_complete` that flushes have been given to the committer, in the order of the calls and
once, and possibly further ones behind them. -/
def Complete : Prop :=
  ∀ accepted given, s.flushed = some (accepted, given) →
    ∃ k, accepted ≤ k ∧ k ≤ s.calls.length
      ∧ TextInput.Routed s.input.router.versionQueryText versionText (s.calls.take k).flatten given

/-- A step that does not break the barrier: a call of `push_text_input` overtakes no earlier one that
waits for room; at a call of `mark_input_complete` the idle event is clear or nothing waits for the
actor; the actor is not done with an empty queue while a `put` that was woken has not run and somebody
waits for the end of the batch; no text fails; and at the flush no suffix is held behind a held prefix
of the version query. -/
def Clean (s : TextActor μ M) : TextEvent μ M → Prop
  | .push .. => s.inputComplete = false → s.queue.Fair
  | .mark m => s.marks m = .uncalled → s.idle = false ∨ s.queue.contents = []
  | .actorFeed outcome =>
      outcome = .ok ∧ ∀ group, s.phase = .feeding [group] → s.queue.items = [] →
        (∃ m accepted, s.marks m = .waiting accepted) → s.queue.woken = []
  | .flush _ =>
      s.inputComplete = false → s.input.fullText = false →
        s.input.emojiCarry = [] ∨ s.input.router.pending = []
  | _ => True

/-! ## The order of the texts -/

section
omit [DecidableEq μ] [DecidableEq M]
variable {versionText} {s}

/-- Grouping keeps the items in order. -/
theorem flatten_foldl_groupStep [DecidableEq M] (groups : List (List (TextItem M)))
    (batch : List (TextItem M)) :
    (batch.foldl groupStep groups).flatten = groups.flatten ++ batch := by
  induction batch generalizing groups with
  | nil => simp
  | cons item rest ih =>
      have hone : (groupStep groups item).flatten = groups.flatten ++ [item] := by
        unfold groupStep
        split
        · next group hlast =>
          split
          · have hgroups := List.dropLast_append_getLast? group hlast
            conv_rhs => rw [← hgroups]
            simp
          · simp
        · next hlast => simp [List.getLast?_eq_none_iff.1 hlast]
      rw [List.foldl_cons, ih, hone, List.append_assoc, List.singleton_append]

theorem flatten_groupBatch [DecidableEq M] (batch : List (TextItem M)) :
    (groupBatch batch).flatten = batch := by
  simp [groupBatch, flatten_foldl_groupStep]

/-- The texts that have yet to be fed, in the order in which they will be. -/
def unfed (s : TextActor μ M) : List Text := (s.phase.items ++ s.queue.contents).map TextItem.text

/-- The calls are the texts that were fed and those that have yet to be. -/
structure Inv (versionText : Text) (done : List Text) (s : TextActor μ M) : Prop where
  queue : s.queue.Ok
  calls : s.calls = done ++ s.unfed
  idle : s.idle = true → s.phase = .waiting
  created : s.created = false → s.calls = [] ∧ s.idle = true
  input : s.inputComplete = false → s.input.Ok ∧ s.input.total = done.flatten ∧ s.flushed = none
  waiting : ∀ m accepted, s.marks m = .waiting accepted → accepted ≤ s.calls.length
  passed : ∀ m accepted, s.marks m = .passed accepted → accepted ≤ done.length
  complete : s.Complete versionText

theorem Inv.new {input : TextInput} (h : input.Ok) (hempty : input.total = []) :
    Inv versionText [] (new input : TextActor μ M) where
  queue := .empty 256
  calls := rfl
  idle _ := rfl
  created _ := ⟨rfl, rfl⟩
  input _ := ⟨h, hempty, rfl⟩
  waiting m accepted hm := by cases hm
  passed m accepted hm := by cases hm
  complete accepted given hf := by cases hf

/-- With nothing left to feed, every call was fed. -/
theorem Inv.done_length {done : List Text} (h : Inv versionText done s) (hitems : s.phase.items = [])
    (hcontents : s.queue.contents = []) : done.length = s.calls.length := by
  rw [h.calls, unfed, hitems, hcontents]
  simp

/-- More calls do not break what the flush has promised. -/
theorem Complete.mono {s' : TextActor μ M} (h : s.Complete versionText)
    (hflushed : s'.flushed = s.flushed) (hcalls : s.calls <+: s'.calls)
    (hquery : s'.input.router.versionQueryText = s.input.router.versionQueryText) :
    s'.Complete versionText := by
  intro accepted given hf
  obtain ⟨k, hle, hk, hrouted⟩ := h accepted given (hflushed ▸ hf)
  refine ⟨k, hle, Nat.le_trans hk hcalls.length_le, ?_⟩
  have htake : s'.calls.take k = s.calls.take k := by
    obtain ⟨rest, hrest⟩ := hcalls
    rw [← hrest, List.take_append_of_le_length hk]
  rw [htake, hquery]
  exact hrouted

/-- A call of `push_text_input`. -/
theorem Inv.push {done : List Text} (h : Inv versionText done s) (text : Text) (metadata : M)
    (hfair : s.inputComplete = false → s.queue.Fair) :
    Inv versionText done (s.push text metadata) := by
  unfold TextActor.push
  split
  · exact h
  · next hopen =>
    obtain ⟨hok, hcontents⟩ := h.queue.put (hfair (Bool.eq_false_iff.2 hopen)) ⟨text, metadata⟩
    constructor
    case queue => exact hok
    case calls =>
      show s.calls ++ [text] = _
      rw [h.calls]
      simp [unfed, hcontents]
    case idle => exact h.idle
    case created => exact nofun
    case input => exact h.input
    case waiting =>
      intro m accepted hm
      exact Nat.le_trans (h.waiting m accepted hm) (by simp)
    case passed => exact h.passed
    case complete => exact h.complete.mono rfl (List.prefix_append _ _) rfl

/-- Items move from the queue into the hands of the actor. -/
theorem Inv.take {done : List Text} (h : Inv versionText done s) {queue : BoundedQueue (TextItem M)}
    {phase : ActorPhase M} {idle : Bool} (hqueue : queue.Ok)
    (hitems : phase.items ++ queue.contents = s.phase.items ++ s.queue.contents)
    (hidle : idle = false) (hcreated : s.created = true) :
    Inv versionText done { s with queue := queue, phase := phase, idle := idle } where
  queue := hqueue
  calls := by rw [h.calls, unfed, unfed, hitems]
  idle ht := absurd (hidle.symm.trans ht) (by simp)
  created hc := absurd (hcreated.symm.trans hc) (by simp)
  input := h.input
  waiting := h.waiting
  passed := h.passed
  complete := h.complete.mono rfl List.prefix_rfl rfl

/-- What waits for the actor was put by a call. -/
theorem Inv.created_of_contents {done : List Text} (h : Inv versionText done s)
    (hne : s.phase.items ++ s.queue.contents ≠ []) : s.created = true := by
  by_contra hc
  have hcalls := h.calls
  rw [(h.created (Bool.eq_false_iff.2 hc)).1] at hcalls
  have hunfed : s.unfed = [] := (List.append_eq_nil_iff.1 hcalls.symm).2
  exact hne (List.map_eq_nil_iff.1 hunfed)

/-- The actor feeds a group of texts. -/
theorem Inv.feed {done : List Text} (h : Inv versionText done s) {group : List (TextItem M)}
    {rest : List (List (TextItem M))} (hphase : s.phase = .feeding (group :: rest)) :
    Inv versionText (done ++ group.map TextItem.text)
      { s with
        input := s.input.push (group.map TextItem.text).flatten .ok, phase := .feeding rest } where
  queue := h.queue
  calls := by
    rw [h.calls]
    simp [unfed, hphase, ActorPhase.items]
  idle ht := by
    have hwaiting := h.idle ht
    rw [hphase] at hwaiting
    cases hwaiting
  created := h.created
  input hopen := by
    obtain ⟨hok, htotal, hflushed⟩ := h.input hopen
    obtain ⟨hok', htotal'⟩ := TextInput.push_total hok (group.map TextItem.text).flatten
    refine ⟨hok', ?_, hflushed⟩
    rw [htotal', htotal, List.flatten_append]
  waiting := h.waiting
  passed m accepted hm := Nat.le_trans (h.passed m accepted hm) (by simp)
  complete := h.complete.mono rfl List.prefix_rfl (TextInput.push_query _ _ _)

/-- The actor is done with a batch. -/
theorem Inv.finishBatch {done : List Text} (h : Inv versionText done s)
    (hitems : s.phase.items = [])
    (hwoken : s.queue.items = [] → (∃ m accepted, s.marks m = .waiting accepted) →
      s.queue.woken = []) : Inv versionText done s.finishBatch := by
  have hcalls : s.calls = done ++ s.queue.contents.map TextItem.text := by
    rw [h.calls, unfed, hitems, List.nil_append]
  unfold TextActor.finishBatch
  split
  · next hempty =>
    constructor
    case queue => exact h.queue
    case calls => exact hcalls
    case idle => exact fun _ => rfl
    case created => exact fun hc => ⟨(h.created hc).1, rfl⟩
    case input => exact h.input
    case waiting =>
      intro m accepted hm
      cases hphase : s.marks m <;> simp [MarkPhase.wakeUp, hphase] at hm
    case passed =>
      intro m accepted hm
      cases hphase : s.marks m with
      | waiting n =>
          -- everything that was called before has been fed
          have hm : n = accepted := by simpa [MarkPhase.wakeUp, hphase] using hm
          subst hm
          have hcontents := h.queue.contents_eq_nil hempty (hwoken hempty ⟨m, n, hphase⟩)
          rw [h.done_length hitems hcontents]
          exact h.waiting m n hphase
      | passed n =>
          have hm : n = accepted := by simpa [MarkPhase.wakeUp, hphase] using hm
          exact hm ▸ h.passed m n hphase
      | uncalled => simp [MarkPhase.wakeUp, hphase] at hm
      | returned => simp [MarkPhase.wakeUp, hphase] at hm
    case complete => exact h.complete.mono rfl List.prefix_rfl rfl
  · exact
      { h with
        calls := hcalls
        idle := fun _ => rfl
        complete := h.complete.mono rfl List.prefix_rfl rfl }

variable [DecidableEq μ]

/-- A call of `mark_input_complete`. -/
theorem Inv.mark {done : List Text} (h : Inv versionText done s) {m : μ}
    (hclean : s.idle = false ∨ s.queue.contents = []) :
    Inv versionText done { s with
      marks := Function.update s.marks m (if s.created = false ∨ s.idle = true then
        .passed s.calls.length else .waiting s.calls.length) } := by
  have hother {x : μ} {phase : MarkPhase} (hx : x ≠ m) :
      Function.update s.marks m phase x = s.marks x := Function.update_of_ne hx _ _
  refine { h with waiting := ?_, passed := ?_, complete := h.complete.mono rfl List.prefix_rfl rfl }
  · intro x accepted hx
    by_cases hxm : x = m
    · subst hxm
      simp only [Function.update_self] at hx
      split at hx
      · cases hx
      · cases hx
        exact Nat.le_refl _
    · exact h.waiting x accepted ((hother hxm).symm.trans hx)
  · intro x accepted hx
    by_cases hxm : x = m
    · subst hxm
      simp only [Function.update_self] at hx
      split at hx
      · next hpass =>
        cases hx
        have hidle : s.idle = true := hpass.elim (fun hc => (h.created hc).2) id
        have hcontents := hclean.resolve_left (by simp [hidle])
        have hitems : s.phase.items = [] := by rw [h.idle hidle]; rfl
        exact Nat.le_of_eq (h.done_length hitems hcontents).symm
      · cases hx
    · exact h.passed x accepted ((hother hxm).symm.trans hx)

/-- A call of `mark_input_complete` returns. -/
theorem Inv.returned {done : List Text} (h : Inv versionText done s) (m : μ) :
    Inv versionText done { s with marks := Function.update s.marks m .returned } := by
  have hother {x : μ} {phase : MarkPhase} (hphase : phase ≠ .returned)
      (hx : Function.update s.marks m .returned x = phase) : s.marks x = phase := by
    by_cases hxm : x = m
    · subst hxm
      rw [Function.update_self] at hx
      exact absurd hx.symm hphase
    · rwa [Function.update_of_ne hxm] at hx
  exact
    { h with
      waiting := fun x accepted hx => h.waiting x accepted (hother (by simp) hx)
      passed := fun x accepted hx => h.passed x accepted (hother (by simp) hx)
      complete := h.complete.mono rfl List.prefix_rfl rfl }

omit [DecidableEq μ] in
/-- The flush gives the committer what was fed. -/
theorem Inv.flush {done : List Text} (h : Inv versionText done s) {m : μ} {accepted : Nat}
    (hm : s.marks m = .passed accepted) (hopen : s.inputComplete = false)
    (hheld : s.input.fullText = false → s.input.emojiCarry = [] ∨ s.input.router.pending = []) :
    Inv versionText done { s with
      input := s.input.flush versionText
      inputComplete := true
      flushed := some (accepted, (s.input.flush versionText).fed.flatten) } := by
  obtain ⟨hok, htotal, -⟩ := h.input hopen
  refine { h with input := nofun, complete := ?_ }
  rintro n given ⟨⟩
  refine ⟨done.length, h.passed m _ hm, ?_, ?_⟩
  · show done.length ≤ s.calls.length
    rw [h.calls]
    simp
  · have htake : s.calls.take done.length = done := by
      rw [h.calls]
      simp
    show TextInput.Routed _ versionText (s.calls.take done.length).flatten _
    rw [htake, ← htotal, TextInput.flush_query]
    exact TextInput.flush_routed hok versionText hheld

variable [DecidableEq M]

/-- Every clean step keeps the order of the texts. -/
theorem Inv.step {done : List Text} (h : Inv versionText done s) {e : TextEvent μ M}
    (hclean : Clean s e) : ∃ done', Inv versionText done' (step versionText s e) := by
  cases e with
  | push text metadata wait => exact ⟨done, h.push text metadata hclean⟩
  | resumePut =>
      obtain ⟨hok, hcontents⟩ := h.queue.resume
      refine ⟨done, { h with queue := hok, calls := ?_, complete := ?_ }⟩
      · show s.calls = done ++ (s.phase.items ++ s.queue.resume.contents).map TextItem.text
        rw [hcontents]
        exact h.calls
      · exact h.complete.mono rfl List.prefix_rfl rfl
  | actorGet =>
      simp only [TextActor.step]
      split
      · next item queue hphase hget =>
        obtain ⟨hok, hcontents⟩ := h.queue.get hget
        refine ⟨done, h.take hok ?_ rfl (h.created_of_contents ?_)⟩
        · simp [ActorPhase.items, hphase, hcontents]
        · simp [hcontents]
      · exact ⟨done, h⟩
  | actorWake =>
      simp only [TextActor.step]
      split
      · next batch hphase =>
        obtain ⟨hok, hcontents⟩ := h.queue.drain
        have hidle : s.idle = false := by
          by_contra hne
          have hwaiting := h.idle (Bool.not_eq_false _ ▸ hne)
          rw [hphase] at hwaiting
          cases hwaiting
        have hcreated : s.created = true := by
          by_contra hc
          rw [(h.created (Bool.eq_false_iff.2 hc)).2] at hidle
          cases hidle
        refine ⟨done, h.take hok ?_ hidle hcreated⟩
        simp [ActorPhase.items, hphase, flatten_groupBatch, hcontents]
      · exact ⟨done, h⟩
  | actorFeed outcome =>
      obtain ⟨rfl, hwoken⟩ := hclean
      simp only [TextActor.step, TextActor.feedGroup]
      split
      · next group rest hphase =>
        have hfed := h.feed hphase
        refine ⟨done ++ group.map TextItem.text, ?_⟩
        split
        · next hrest =>
          subst hrest
          exact hfed.finishBatch rfl fun hempty hwaits => hwoken group hphase hempty hwaits
        · exact hfed
      · exact ⟨done, h⟩
  | mark m =>
      simp only [TextActor.step]
      split
      · next hm => exact ⟨done, h.mark (hclean hm)⟩
      · exact ⟨done, h⟩
  | flush m =>
      simp only [TextActor.step]
      split
      · next accepted hm =>
        split
        · exact ⟨done, h.returned m⟩
        · next hopen =>
          have hopen : s.inputComplete = false := Bool.eq_false_iff.2 hopen
          exact ⟨done, (h.flush hm hopen (hclean hopen)).returned m⟩
      · exact ⟨done, h⟩

/-- In every run of clean steps of a new session, the flush has given the committer every text that was
accepted before its call of `mark_input_complete`. -/
theorem end_of_input_complete {fullText : Bool} {versionQueryText : Text}
    (hne : versionQueryText ≠ []) (evs : List (TextEvent μ M))
    (hclean : Lib.Along (TextActor.step versionText) Clean
      (TextActor.new (.new fullText (.new versionQueryText hne))) evs) :
    (Lib.run (TextActor.step versionText)
      (TextActor.new (.new fullText (.new versionQueryText hne))) evs).Complete versionText := by
  have hempty : (TextInput.new fullText (.new versionQueryText hne)).total = [] := by
    cases fullText <;> rfl
  have hnew : ∃ done, Inv versionText done
      (TextActor.new (.new fullText (.new versionQueryText hne)) : TextActor μ M) :=
    ⟨[], .new (.new fullText hne) hempty⟩
  have hstep : ∀ (s : TextActor μ M) e, (∃ done, Inv versionText done s) → Clean s e →
      ∃ done, Inv versionText done (TextActor.step versionText s e) := by
    rintro s e ⟨done, h⟩ hclean
    exact h.step hclean
  obtain ⟨done, h⟩ : ∃ done, Inv versionText done (Lib.run (TextActor.step versionText)
      (TextActor.new (.new fullText (.new versionQueryText hne))) evs) := by
    exact @Lib.run_induct _ _ _ Clean (fun s => ∃ done, Inv versionText done s) _ _ hnew hstep hclean
  exact h.complete

end

/-- A new session in a streaming mode. -/
def exampleSession : TextActor Nat Unit :=
  .new (.new false (.new "version".toList (by decide)))

/-- The text is pushed and fed, and then the input is marked complete. -/
theorem end_of_input_complete_fed :
    let s := Lib.run (TextActor.step "1.0".toList) exampleSession
      [.push "a".toList () false, .actorGet, .actorWake, .mark 0, .actorFeed .ok, .flush 0]
    s.Complete "1.0".toList ∧ s.flushed = some (1, "a".toList) := by
  refine ⟨end_of_input_complete (by decide) _ ?_, by decide +kernel⟩
  refine ⟨fun _ => .inr ⟨rfl, rfl⟩, trivial, trivial, fun _ => .inl rfl, ⟨rfl, fun _ _ _ _ => rfl⟩,
    fun _ _ => .inl rfl, trivial⟩

/-- The input is marked complete before the actor has run: the barrier is open, and the committer is
given nothing. -/
theorem text_lost :
    let s := Lib.run (TextActor.step "1.0".toList) exampleSession
      [.push "a".toList () false, .mark 0, .flush 0]
    s.calls = ["a".toList] ∧ s.flushed = some (1, []) ∧ ¬ s.Complete "1.0".toList := by
  refine ⟨by decide +kernel, by decide +kernel, fun h => ?_⟩
  obtain ⟨k, hle, hk, hrouted⟩ := h 1 [] (by decide +kernel)
  have hk : k = 1 := Nat.le_antisymm hk hle
  subst hk
  rcases hrouted with hrouted | ⟨hrouted, -⟩
  · exact absurd hrouted (by decide +kernel)
  · exact absurd hrouted (by decide +kernel)

end TextActor

end StreamingTts.Frontend
