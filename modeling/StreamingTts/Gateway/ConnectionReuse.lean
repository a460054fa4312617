import StreamingTts.Gateway.NativeSession

/-!
# Sessions on a reused connection

A client may run session after session on one native connection. Two things a session leaves behind
can reach the next one: the handle, which a plain session's output task clears only when the session
has been closed behind its terminal frame, and the three sample variables, which nothing clears. If
the handle is clear when the next session begins, and the sample variables are as on a new connection
or are not consulted, the connection behaves from there on like a new one (`session_replies_fresh`).

The argument is a simulation between the reused connection and a new one. `Inv` holds in every state
of a connection and says who may still clear the handle; with it, the output tasks of the earlier
sessions are spent once their terminal frames were sent and the handle is clear.
-/

namespace StreamingTts.Gateway

open Lib (run Along outputs run_invariant along_of_forall outputs_eq_of_sim)
open Session (SessionOutput)

namespace Connection

/-! ## Who may clear the handle -/

/-- An output task of a plain session that has not ended: it will clear the handle. -/
def ActivePlain : TaskPc → Prop
  | .waiting (.plain _) => True
  | .sending (.plain _) _ _ => True
  | .closing => True
  | _ => False

/-- Between messages a connection serves no resumable session, or one with handle and attachment. -/
def Looping (c : Connection) : Prop :=
  (c.reliable = none ∧ c.attachment = none) ∨
    (c.reliable ≠ none ∧ c.attachment ≠ none ∧ c.handle ≠ none)

/-- What holds of the variables while the reader waits at `pc`. -/
def ReaderOk (c : Connection) : ReaderPc → Prop
  | .creating _ => c.handle = none ∧ c.reliable = none ∧ c.attachment = none
  | .claiming _ _ => c.handle = none ∧ c.reliable = none ∧ c.attachment = none
  | .finding _ _ => c.handle = none ∧ c.reliable = none ∧ c.attachment = none
  | .attaching session _ => c.handle = none ∧ c.reliable = some session ∧ c.attachment = none
  | .announcing _ => c.reliable ≠ none ∧ c.Looping
  | .terminalAcking => c.reliable ≠ none
  | .cancellingReliable final => final = false → c.Looping
  | .cancellingPlain _ final => c.reliable = none ∧ (final = false → c.attachment = none)
  | .awaitingTask _ i final => c.reliable = none ∧ (final = false → c.attachment = none) ∧
      ∀ j, ActivePlain (c.tasks j) → j = i
  | .closingSession _ => ∀ j, ¬ ActivePlain (c.tasks j)
  | .reporting => True
  | .detaching => True
  | .ended => True
  | _ => c.Looping

/-- The invariant of a connection. -/
structure Inv (c : Connection) : Prop where
  plain : ∀ i, ActivePlain (c.tasks i) →
    c.handle ≠ none ∧ c.reliable = none ∧ c.outputTask = some i
  settled : c.handle ≠ none → c.reliable ≠ none → c.attachment ≠ none
  unborn : ∀ i, c.next ≤ i → c.tasks i = .none
  current : ∀ i, c.outputTask = some i → i < c.next
  reader : c.ReaderOk c.reader

theorem fresh_inv (n : Nat) : Inv (fresh n) where
  plain := fun _ h => h.elim
  settled := fun h => absurd rfl h
  unborn := fun _ _ => rfl
  current := fun _ h => by cases h
  reader := .inl ⟨rfl, rfl⟩

/-- The reader moves on. -/
theorem Inv.setReader {c : Connection} (h : Inv c) (pc : ReaderPc) (hpc : c.ReaderOk pc) :
    Inv { c with reader := pc } :=
  ⟨h.plain, h.settled, h.unborn, h.current, by cases pc <;> exact hpc⟩

theorem Inv.fail {c : Connection} (h : Inv c) (e : PyError) : Inv (c.fail e).1 :=
  h.setReader .reporting trivial

theorem Inv.reply {c : Connection} (h : Inv c) (hl : c.Looping) (f : Frame) : Inv (c.reply f).1 :=
  h.setReader .replying hl

theorem Inv.goIdle {c : Connection} (h : Inv c) (hl : c.Looping) : Inv c.goIdle.1 :=
  h.setReader .idle hl

/-- Sessions without a plain task that is active: the handle may change hands. -/
theorem Inv.not_activePlain {c : Connection} (h : Inv c)
    (hc : c.handle = none ∨ c.reliable ≠ none) (j : Nat) : ¬ ActivePlain (c.tasks j) := by
  intro hj
  obtain ⟨hhandle, hrel, -⟩ := h.plain j hj
  rcases hc with hc | hc
  · exact hhandle hc
  · exact hc hrel

/-- The end of the handler stops the current task. -/
theorem Inv.finish {c : Connection} (h : Inv c) : Inv c.finish.1 := by
  unfold Connection.finish
  cases ho : c.outputTask with
  | none =>
      refine ⟨fun i hi => ?_, h.settled, h.unborn, fun i hi => (by cases hi), trivial⟩
      have := (h.plain i hi).2.2
      rw [ho] at this
      cases this
  | some k =>
      have hlt := h.current k ho
      -- an active plain task would be the current one, which is done or stopped here
      have hnone : ∀ i, ¬ ActivePlain
          ((if TaskDone (c.tasks k) then c.tasks else Function.update c.tasks k .stopped) i) := by
        intro i hi
        by_cases hik : i = k
        · subst hik
          split at hi
          · next hd => cases hpc : c.tasks i <;> simp_all [ActivePlain, TaskDone]
          · simp [ActivePlain] at hi
        · have hi' : ActivePlain (c.tasks i) := by
            split at hi
            · exact hi
            · rwa [Function.update_of_ne hik] at hi
          have := (h.plain i hi').2.2
          rw [ho] at this
          exact hik (Option.some.inj this).symm
      refine ⟨fun i hi => absurd hi (hnone i), h.settled, ?_, fun i hi => (by cases hi), trivial⟩
      intro i hi
      have hik : i ≠ k := by simp only at hi; omega
      simp only
      split
      · exact h.unborn i hi
      · rw [Function.update_of_ne hik]; exact h.unborn i hi

theorem Inv.afterStop {c : Connection} (h : Inv c) {final : Bool}
    (hl : final = false → c.Looping) : Inv (c.afterStop final).1 := by
  cases final with
  | true => exact h.finish
  | false => exact h.setReader .idle (hl rfl)

theorem Inv.stopRaised {c : Connection} (h : Inv c) (final : Bool) (e : PyError) :
    Inv (c.stopRaised final e).1 := by
  cases final with
  | true => exact h.setReader .ended trivial
  | false => exact h.fail e

/-- `stop_active` begins in the loop, or at the end of the handler. -/
theorem Inv.stopActive {c : Connection} (h : Inv c) (reason : String) {final : Bool}
    (hl : final = false → c.Looping) : Inv (c.stopActive reason final).1 := by
  unfold Connection.stopActive
  split
  · exact h.afterStop hl
  · next active hh =>
    split
    · exact h.setReader (.cancellingReliable final) hl
    · next hno =>
      -- no attachment and a handle: the session is plain
      have hrel : c.reliable = none := by
        by_contra hrel
        obtain ⟨session, hs⟩ := Option.ne_none_iff_exists'.1 hrel
        obtain ⟨g, hg⟩ := Option.ne_none_iff_exists'.1 (h.settled (by simp [hh]) hrel)
        exact hno session g hs hg
      refine h.setReader (.cancellingPlain active final) ⟨hrel, fun hf => ?_⟩
      rcases hl hf with hl | hl
      · exact hl.2
      · exact absurd hrel hl.1

theorem Inv.finalize {c : Connection} (h : Inv c) : Inv c.finalize.1 := by
  unfold Connection.finalize
  split
  · exact h.setReader .detaching trivial
  · exact h.stopActive _ (fun hf => by cases hf)

/-! ## The turns of the output tasks -/

/-- A turn of a task leaves the rest of the connection alone, except that it may end as the current
task and clear the handle of its plain session. -/
theorem Inv.task {c d : Connection} (h : Inv c) (i : Nat)
    (hsame : d.reliable = c.reliable ∧ d.attachment = c.attachment ∧ d.reader = c.reader ∧
      d.next = c.next)
    (hother : ∀ j, j ≠ i → d.tasks j = c.tasks j)
    (hborn : c.tasks i ≠ .none)
    (hactive : ActivePlain (d.tasks i) → ActivePlain (c.tasks i) ∧ d.handle = c.handle ∧
      d.outputTask = c.outputTask)
    (hcurrent : d.outputTask = c.outputTask ∨ c.outputTask = some i ∧ d.outputTask = none)
    (hhandle : d.handle = c.handle ∨ ActivePlain (c.tasks i) ∧ d.handle = none) : Inv d := by
  obtain ⟨hrel, hatt, hpc, hnext⟩ := hsame
  have hmono : ∀ j, ActivePlain (d.tasks j) → ActivePlain (c.tasks j) := by
    intro j hj
    by_cases hji : j = i
    · subst hji; exact (hactive hj).1
    · rwa [hother j hji] at hj
  have hloop : c.Looping → d.Looping := by
    rintro (hl | hl)
    · exact .inl (by rw [hrel, hatt]; exact hl)
    · rcases hhandle with hh | ⟨ha, -⟩
      · exact .inr (by rw [hrel, hatt, hh]; exact hl)
      · exact absurd (h.plain i ha).2.1 hl.1
  have hclear : c.handle = none → d.handle = none := by
    intro hc
    rcases hhandle with hh | ⟨-, hh⟩
    · rw [hh, hc]
    · exact hh
  refine ⟨?_, ?_, ?_, ?_, ?_⟩
  · intro j hj
    obtain ⟨h₁, h₂, h₃⟩ := h.plain j (hmono j hj)
    by_cases hji : j = i
    · subst hji
      obtain ⟨-, hh, ho⟩ := hactive hj
      rw [hh, hrel, ho]
      exact ⟨h₁, h₂, h₃⟩
    · -- the other active task is the current one, so this one ends silently
      refine ⟨?_, by rw [hrel]; exact h₂, ?_⟩
      · rcases hhandle with hh | ⟨ha, -⟩
        · rw [hh]; exact h₁
        · have := (h.plain i ha).2.2
          rw [h₃] at this
          exact absurd (Option.some.inj this) hji
      · rcases hcurrent with ho | ⟨ho, -⟩
        · rw [ho]; exact h₃
        · rw [h₃] at ho
          exact absurd (Option.some.inj ho) hji
  · rw [hrel, hatt]
    intro hd hr
    rcases hhandle with hh | ⟨-, hh⟩
    · exact h.settled (hh ▸ hd) hr
    · exact absurd hh hd
  · intro j hj
    rw [hnext] at hj
    have hji : j ≠ i := fun he => hborn (by rw [← he]; exact h.unborn j hj)
    rw [hother j hji]
    exact h.unborn j hj
  · intro j hj
    rw [hnext]
    rcases hcurrent with ho | ⟨-, ho⟩
    · exact h.current j (ho ▸ hj)
    · rw [ho] at hj; cases hj
  · have hr := h.reader
    rw [hpc]
    revert hr
    cases c.reader with
    | creating _ => rintro ⟨h₁, h₂, h₃⟩; exact ⟨hclear h₁, hrel.trans h₂, hatt.trans h₃⟩
    | claiming _ _ => rintro ⟨h₁, h₂, h₃⟩; exact ⟨hclear h₁, hrel.trans h₂, hatt.trans h₃⟩
    | finding _ _ => rintro ⟨h₁, h₂, h₃⟩; exact ⟨hclear h₁, hrel.trans h₂, hatt.trans h₃⟩
    | attaching _ _ => rintro ⟨h₁, h₂, h₃⟩; exact ⟨hclear h₁, hrel.trans h₂, hatt.trans h₃⟩
    | announcing _ => rintro ⟨h₁, h₂⟩; exact ⟨fun hn => h₁ (hrel.symm.trans hn), hloop h₂⟩
    | terminalAcking => exact fun h₁ hn => h₁ (hrel.symm.trans hn)
    | cancellingReliable _ => exact fun h₁ hf => hloop (h₁ hf)
    | cancellingPlain _ _ => rintro ⟨h₁, h₂⟩; exact ⟨hrel.trans h₁, fun hf => hatt.trans (h₂ hf)⟩
    | awaitingTask _ k _ =>
        rintro ⟨h₁, h₂, h₃⟩
        exact ⟨hrel.trans h₁, fun hf => hatt.trans (h₂ hf), fun j hj => h₃ j (hmono j hj)⟩
    | closingSession _ => exact fun h₁ j hj => h₁ j (hmono j hj)
    | reporting => exact fun h₁ => h₁
    | detaching => exact fun h₁ => h₁
    | ended => exact fun h₁ => h₁
    | idle => exact hloop
    | replying => exact hloop
    | playing => exact hloop
    | oneshotAppending => exact hloop
    | oneshotCompleting => exact hloop
    | appending _ => exact hloop
    | completing _ => exact hloop
    | acking => exact hloop

/-- A task goes on. -/
theorem Inv.setTask {c : Connection} (h : Inv c) {i : Nat} {pc : TaskPc}
    (hborn : c.tasks i ≠ .none) (hactive : ActivePlain pc → ActivePlain (c.tasks i)) :
    Inv (c.setTask i pc) := by
  refine h.task i ⟨rfl, rfl, rfl, rfl⟩ (fun j hj => Function.update_of_ne hj _ _) hborn
    (fun ha => ⟨hactive ?_, rfl, rfl⟩) (.inl rfl) (.inl rfl)
  simpa [Connection.setTask] using ha

/-- A task ends. -/
theorem Inv.endTask {c : Connection} (h : Inv c) {i : Nat} {pc : TaskPc}
    (hborn : c.tasks i ≠ .none) (hdone : ¬ ActivePlain pc) : Inv (c.endTask i pc) := by
  refine h.task i ⟨rfl, rfl, rfl, rfl⟩ (fun j hj => Function.update_of_ne hj _ _) hborn
    (fun ha => absurd (by simpa [Connection.endTask, Connection.setTask] using ha) hdone) ?_
    (.inl rfl)
  by_cases ho : c.outputTask = some i
  · exact .inr ⟨ho, if_pos ho⟩
  · exact .inl (if_neg ho)

/-- A plain task ends behind the close of its session, and clears the handle. -/
theorem Inv.endPlainTask {c : Connection} (h : Inv c) {i : Nat} (hi : c.tasks i = .closing) :
    Inv { c.endTask i .finished with handle := none } := by
  have hact : ActivePlain (c.tasks i) := by rw [hi]; trivial
  refine h.task i ⟨rfl, rfl, rfl, rfl⟩ (fun j hj => Function.update_of_ne hj _ _) (by simp [hi])
    (fun ha => ?_) ?_ (.inr ⟨hact, rfl⟩)
  · simp [Connection.endTask, Connection.setTask, ActivePlain] at ha
  · by_cases ho : c.outputTask = some i
    · exact .inr ⟨ho, if_pos ho⟩
    · exact .inl (if_neg ho)

/-- The samples are not part of the invariant. -/
theorem Inv.setSamples {c : Connection} (h : Inv c) (samples : Samples) :
    Inv { c with samples } :=
  ⟨h.plain, h.settled, h.unborn, h.current, by
    have := h.reader
    cases hr : c.reader <;> rw [hr] at this <;> exact this⟩

theorem Inv.sendFrames {c : Connection} (h : Inv c) {i : Nat} {kind : TaskKind}
    (hborn : c.tasks i ≠ .none)
    (hactive : ∀ handle, kind = .plain handle → ActivePlain (c.tasks i)) (frames : List Frame)
    (terminal : Bool) : Inv (c.sendFrames i kind frames terminal).1 := by
  have hact : ∀ rest, ActivePlain (.sending kind rest terminal) → ActivePlain (c.tasks i) := by
    intro rest ha
    cases kind with
    | plain handle => exact hactive handle rfl
    | reliable session => exact ha.elim
  cases frames with
  | nil => exact h.setTask hborn (hact [])
  | cons f rest => exact h.setTask hborn (hact rest)

/-- Every turn of an output task keeps the invariant. -/
theorem resumeTask_inv {c : Connection} (h : Inv c) (i : Nat) (r : Result) :
    Inv (c.resumeTask i r).1 := by
  unfold resumeTask
  split
  · next kind o seq hi =>
    refine (h.setSamples _).sendFrames (by simp [hi]) ?_ _ _
    rintro handle rfl
    rw [show ({ c with samples := _ } : Connection).tasks i = c.tasks i from rfl, hi]
    trivial
  · next hi => exact h.setTask (by simp [hi]) (fun ha => ha.elim)
  · next hi => exact h.setTask (by simp [hi]) (fun ha => ha.elim)
  · next kind f rest terminal hi =>
    refine h.sendFrames (by simp [hi]) ?_ _ _
    rintro handle rfl
    rw [hi]
    trivial
  · next kind hi =>
    refine h.setTask (by simp [hi]) fun ha => ?_
    cases kind with
    | plain handle => rw [hi]; trivial
    | reliable session => exact ha.elim
  · next handle hi => exact h.setTask (by simp [hi]) (fun _ => by rw [hi]; trivial)
  · next hi => exact h.endTask (by simp [hi]) (fun ha => ha)
  · next hi => exact h.endTask (by simp [hi]) (fun ha => ha)
  · next hi => exact h.endPlainTask hi
  · next hi => exact h.endTask (by simp [hi]) (fun ha => ha)
  · next hi => exact h.endTask (by simp [hi]) (fun ha => ha)
  · next hi => exact h.endTask (by simp [hi]) (fun ha => ha)
  · exact h

/-! ## The turns of the reader -/

/-- A new output task becomes the current one. -/
theorem Inv.spawn {c : Connection} (h : Inv c) (hno : ∀ j, ¬ ActivePlain (c.tasks j))
    (kind : TaskKind) (pc : ReaderPc)
    (hplain : ∀ handle, kind = .plain handle → c.handle ≠ none ∧ c.reliable = none)
    (hloop : c.Looping) (hpc : c.Looping → (c.spawn kind).ReaderOk pc) :
    Inv { c.spawn kind with reader := pc } := by
  refine ⟨?_, h.settled, ?_, ?_, by have := hpc hloop; cases pc <;> exact this⟩
  · intro i hi
    by_cases hin : i = c.next
    · subst hin
      cases kind with
      | plain handle =>
          obtain ⟨h₁, h₂⟩ := hplain handle rfl
          exact ⟨h₁, h₂, rfl⟩
      | reliable session => simp [Connection.spawn, ActivePlain] at hi
    · simp only [Connection.spawn, Function.update_of_ne hin] at hi
      exact absurd hi (hno i)
  · intro i hi
    simp only [Connection.spawn] at hi ⊢
    rw [Function.update_of_ne (by omega)]
    exact h.unborn i (by omega)
  · rintro i ⟨⟩
    simp [Connection.spawn]

theorem Inv.onReliable {c : Connection} {yes : HandleRef → Nat → Turn} {no : Turn}
    (hyes : ∀ session generation, c.reliable = some session → Inv (yes session generation).1)
    (hno : Inv no.1) : Inv (c.onReliable yes no).1 := by
  unfold Connection.onReliable
  split
  · next session generation hs _ => exact hyes session generation hs
  · exact hno

theorem Inv.plainPlayback {c : Connection} (h : Inv c) (hl : c.Looping) (played buffered : Int) :
    Inv (c.plainPlayback played buffered).1 := by
  unfold Connection.plainPlayback
  dsimp only
  split_ifs
  · exact h.reply hl _
  · exact h
  · exact h.reply hl _
  · exact h.reply hl _
  · exact h.reply hl _
  · exact h.setSamples _

/-- A message that begins a session finds nothing of another session, or is refused. -/
theorem Looping.clear {c : Connection} (hl : c.Looping) (hh : c.handle = none) :
    c.handle = none ∧ c.reliable = none ∧ c.attachment = none := by
  rcases hl with hl | hl
  · exact ⟨hh, hl⟩
  · exact absurd hh hl.2.2

/-- Every message keeps the invariant. -/
theorem readMessage_inv {c : Connection} (h : Inv c) (hl : c.Looping) (m : Message) :
    Inv (c.readMessage m).1 := by
  cases m with
  | ignored => exact h
  | malformed e => exact h.fail e
  | closed => exact h.finalize
  | getCapabilities => exact h.reply hl _
  | playbackProgress samples observed =>
      cases samples with
      | error e => exact h.fail e
      | ok s =>
          refine Inv.onReliable (fun session generation _ => ?_) (h.plainPlayback hl _ _)
          cases observed with
          | error e => exact h.reply hl _
          | ok o => exact h.setReader .playing hl
  | start spec =>
      simp only [readMessage]
      split
      · exact h.fail _
      · exact h.fail _
      · next request hh => exact h.setReader (.creating none) (hl.clear hh)
      · next request token seq sample hh => exact h.setReader (.claiming seq sample) (hl.clear hh)
  | resume spec =>
      simp only [readMessage]
      split
      · exact h.fail _
      · exact h.fail _
      · next token seq sample hh => exact h.setReader (.finding seq sample) (hl.clear hh)
  | oneshot request text =>
      simp only [readMessage]
      split
      · exact h.fail _
      · exact h.fail _
      · next hh => exact h.setReader (.creating (some text)) (hl.clear hh)
  | text explicitSeq seqNo text =>
      simp only [readMessage]
      split
      · exact h.fail _
      · refine Inv.onReliable (fun session generation _ => ?_) ?_
        · split
          · exact h.fail _
          · exact h.setReader (.appending explicitSeq) hl
        · split
          · exact h.setReader (.appending false) hl
          · exact h.fail _
          · exact h.setReader (.appending true) hl
  | stop explicitSeq finalSeqNo =>
      simp only [readMessage]
      split
      · exact h.fail _
      · split
        · exact h.fail _
        · exact Inv.onReliable (fun session generation _ => h.setReader (.completing explicitSeq) hl)
            (h.setReader (.completing explicitSeq) hl)
  | ack cursor =>
      simp only [readMessage]
      split
      · exact h.fail _
      · refine Inv.onReliable (fun session generation _ => ?_) (h.fail _)
        split
        · exact h.fail _
        · exact h.setReader .acking hl
  | terminalAck cursor =>
      simp only [readMessage]
      split
      · exact h.fail _
      · refine Inv.onReliable (fun session generation hs => ?_) (h.fail _)
        split
        · exact h.fail _
        · exact h.setReader .terminalAcking (by simp [ReaderOk, hs])
  | cancel reason =>
      simp only [readMessage]
      split
      · exact h.fail _
      · exact h.stopActive reason fun _ => hl
  | unsupported messageType =>
      simp only [readMessage]
      split
      · exact h.fail _
      · exact h.fail _

/-- A created session becomes the handle of the connection. -/
theorem Inv.created {c : Connection} (h : Inv c)
    (hc : c.handle = none ∧ c.reliable = none ∧ c.attachment = none) (ref : HandleRef)
    (oneshot : Option String) : Inv (c.created ref oneshot).1 := by
  obtain ⟨hh, hr, ha⟩ := hc
  have hno := h.not_activePlain (.inl hh)
  have h' : Inv { c with handle := some ref, reader := .reporting } :=
    ⟨fun i hi => absurd hi (hno i), fun _ hr' => absurd hr hr', h.unborn, h.current, trivial⟩
  have hspawn : ∀ pc, (({ c with handle := some ref }.spawn (.plain ref)).Looping →
      ({ c with handle := some ref }.spawn (.plain ref)).ReaderOk pc) →
      Inv { { c with handle := some ref }.spawn (.plain ref) with reader := pc } := by
    intro pc hpc
    exact h'.spawn hno (.plain ref) pc (fun _ _ => ⟨by simp, hr⟩) (.inl ⟨hr, ha⟩) hpc
  unfold Connection.created
  cases oneshot with
  | none => exact hspawn .idle fun hl => hl
  | some text =>
      dsimp only
      split
      · exact hspawn .reporting fun _ => trivial
      · exact hspawn .oneshotAppending fun hl => hl

/-- `stop_active` awaits the output task of the session it cancelled, if it is still running. -/
theorem Inv.afterCancel {c : Connection} (h : Inv c) {final : Bool} (hr : c.reliable = none)
    (ha : final = false → c.attachment = none) (active : HandleRef) :
    Inv (c.afterCancel active final).1 := by
  have hdone : ∀ i, ActivePlain (c.tasks i) → TaskDone (c.tasks i) = false := by
    intro i hi
    cases hpc : c.tasks i <;> simp_all [ActivePlain, TaskDone]
  unfold Connection.afterCancel
  cases ho : c.outputTask with
  | none =>
      refine h.setReader (.closingSession final) fun j hj => ?_
      have := (h.plain j hj).2.2
      rw [ho] at this
      cases this
  | some i =>
      have hcur : ∀ j, ActivePlain (c.tasks j) → j = i := by
        intro j hj
        have := (h.plain j hj).2.2
        rw [ho] at this
        exact (Option.some.inj this).symm
      dsimp only
      split
      · next hd =>
        refine h.setReader (.closingSession final) fun j hj => ?_
        have hji := hcur j hj
        subst hji
        rw [hdone j hj] at hd
        cases hd
      · rw [← ho]
        exact h.setReader (.awaitingTask active i final) ⟨hr, ha, hcur⟩

/-- Nothing of a session is left in the variables. -/
theorem Inv.clear {c : Connection} (h : Inv c) (hno : ∀ j, ¬ ActivePlain (c.tasks j))
    (outputTask : Option Nat) (hout : ∀ i, outputTask = some i → i < c.next) :
    Inv { c with handle := none, reliable := none, attachment := none, outputTask,
                 reader := .reporting } :=
  ⟨fun i hi => absurd hi (hno i), fun hh => absurd rfl hh, h.unborn, hout, trivial⟩

/-- A found or created resumable session is about to be attached. -/
theorem Inv.claimed {c : Connection} (h : Inv c)
    (hc : c.handle = none ∧ c.reliable = none ∧ c.attachment = none) (ref : HandleRef)
    (announce : Bool) (call : Call) :
    Inv ({ c with reliable := some ref }.await (.attaching ref announce) call).1 :=
  ⟨fun i hi => absurd hi (h.not_activePlain (.inl hc.1) i), fun hh => absurd hc.1 hh, h.unborn,
    h.current, ⟨hc.1, rfl, hc.2.2⟩⟩

/-- An attached session becomes the handle of the connection. -/
theorem Inv.attached {c : Connection} (h : Inv c) {session : HandleRef}
    (hc : c.handle = none ∧ c.reliable = some session ∧ c.attachment = none) (g : Nat)
    (announce : Bool) :
    Inv (let c' := { c with attachment := some g, handle := some session }
      if announce then ({ c' with reader := .announcing session }, [.send (.resumed session)])
      else (c'.spawn (.reliable session)).goIdle : Turn).1 := by
  obtain ⟨hh, hr, -⟩ := hc
  have hno := h.not_activePlain (.inl hh)
  have h' : Inv { c with attachment := some g, handle := some session, reader := .reporting } :=
    ⟨fun i hi => absurd hi (hno i), fun _ _ => by simp, h.unborn, h.current, trivial⟩
  have hloop : ({ c with attachment := some g, handle := some session } : Connection).Looping :=
    .inr ⟨by simp [hr], by simp, by simp⟩
  cases announce with
  | true => exact h'.setReader (.announcing session) ⟨by simp [hr], hloop⟩
  | false =>
      exact h'.spawn hno (.reliable session) .idle (fun _ hk => by cases hk) hloop fun hl => hl

/-- Every turn of the reader after an await keeps the invariant. -/
theorem resumeReader_inv {c : Connection} (h : Inv c) (r : Result) :
    Inv (c.resumeReader r).1 := by
  have hr := h.reader
  unfold resumeReader
  split
  -- replying, reporting, playing
  · next hpc => rw [hpc] at hr; exact h.goIdle hr
  · exact h.fail _
  · exact h.finalize
  · exact h.finalize
  · next hpc => rw [hpc] at hr; exact h.goIdle hr
  · next hpc =>
    rw [hpc] at hr
    split
    · exact h.fail _
    · exact h.reply hr _
  -- creating, claiming, finding, attaching, announcing
  · next hpc => rw [hpc] at hr; exact h.created hr _ _
  · exact h.fail _
  · next ref created hpc =>
    rw [hpc] at hr
    exact h.claimed hr ref _ _
  · exact h.fail _
  · next ref created hpc =>
    rw [hpc] at hr
    exact h.claimed hr ref _ _
  · exact h.fail _
  · next session announce g hpc =>
    rw [hpc] at hr
    exact h.attached hr g announce
  · exact h.fail _
  · next session hpc =>
    rw [hpc] at hr
    exact h.spawn (h.not_activePlain (.inr hr.1)) (.reliable session) .idle
      (fun _ hk => by cases hk) hr.2 fun hl => hl
  · exact h.fail _
  -- oneshot
  · next hpc =>
    rw [hpc] at hr
    split
    · exact h.fail _
    · exact h.setReader .oneshotCompleting hr
  · exact h.fail _
  · next hpc => rw [hpc] at hr; exact h.goIdle hr
  · exact h.fail _
  -- input and acknowledgements
  · next hpc =>
    rw [hpc] at hr
    split
    · exact h.reply hr _
    · exact h.goIdle hr
  · exact h.fail _
  · next hpc =>
    rw [hpc] at hr
    split
    · exact h.reply hr _
    · exact h.goIdle hr
  · exact h.fail _
  · next hpc => rw [hpc] at hr; exact h.goIdle hr
  · exact h.fail _
  · next hpc =>
    rw [hpc] at hr
    exact (h.clear (h.not_activePlain (.inr hr)) c.outputTask h.current).setReader .idle
      (.inl ⟨rfl, rfl⟩)
  · exact h.fail _
  -- stop_active
  · next hpc => rw [hpc] at hr; exact h.afterStop hr
  · exact h.stopRaised _ _
  · next hpc => rw [hpc] at hr; exact h.afterCancel hr.1 hr.2 _
  · next hpc => rw [hpc] at hr; exact h.afterCancel hr.1 hr.2 _
  · next i final hpc =>
    rw [hpc] at hr
    split
    · next hd =>
      refine h.setReader (.closingSession final) fun j hj => ?_
      have hji := hr.2.2 j hj
      subst hji
      cases hpc' : c.tasks j <;> simp_all [ActivePlain, TaskDone]
    · exact h
  · split
    · exact h.stopRaised _ _
    · exact h
  · next final hpc =>
    rw [hpc] at hr
    have h' := h.clear hr none (fun _ hi => by cases hi)
    cases final with
    | true => exact h'.finish
    | false => exact h'.setReader .idle (.inl ⟨rfl, rfl⟩)
  · exact h.stopRaised _ _
  -- the end of the handler
  · exact h.finish
  · exact h.setReader .ended trivial
  · exact h

/-- Every turn keeps the invariant. -/
theorem turn_inv {c : Connection} (h : Inv c) (e : Event) : Inv (c.turn e).1 := by
  cases e with
  | read m =>
      simp only [turn]
      split
      · next hidle =>
        have hl := h.reader
        rw [hidle] at hl
        exact readMessage_inv h hl m
      · exact h
  | reader r => exact resumeReader_inv h r
  | task i r => exact resumeTask_inv h i r

/-- The state a history of turns reaches. -/
def after (c : Connection) (es : List Event) : Connection := run (fun c e => (c.turn e).1) c es

theorem after_inv {c : Connection} (h : Inv c) (es : List Event) : Inv (c.after es) :=
  run_invariant h (fun _ e hc => turn_inv hc e) es

/-! ## The simulation -/

/-- The task has sent its terminal frame. -/
def TerminalSent : TaskPc → Prop
  | .sending _ [] terminal => terminal = true
  | .closing => True
  | .finished => True
  | _ => False

/-- The task has nothing more to say: it ended, or will end without another call. -/
def Spent : TaskPc → Prop
  | .sending (.reliable _) [] terminal => terminal = true
  | .finished => True
  | .stopped => True
  | _ => False

/-- The two connections have the same current task, one of the new session. -/
def SameOutput (n : Nat) (c d : Connection) : Prop :=
  d.outputTask = c.outputTask ∧ ∀ i, c.outputTask = some i → n ≤ i

/-- The current task is one that an earlier session left behind. -/
def OldOutput (n : Nat) (c d : Connection) : Prop :=
  d.outputTask = none ∧ (∃ i, i < n ∧ c.outputTask = some i) ∧ (c.handle = none ∨ c.reliable ≠ none)

/-- What the simulation needs while the reader waits at `pc`. -/
def PcSim (n : Nat) (c d : Connection) : ReaderPc → Prop
  | .cancellingPlain _ _ => SameOutput n c d
  | .awaitingTask _ i _ => n ≤ i
  | _ => True

/-- The reused connection `c` and the new connection `d`, whose tasks are numbered from `n` on.
`strict` says whether the sample variables are compared. -/
structure Sim (n : Nat) (strict : Prop) (c d : Connection) : Prop where
  handle : d.handle = c.handle
  reliable : d.reliable = c.reliable
  attachment : d.attachment = c.attachment
  reader : d.reader = c.reader
  next : d.next = c.next
  samples : strict → d.samples = c.samples
  new : ∀ i, n ≤ i → d.tasks i = c.tasks i
  old : ∀ i, i < n → d.tasks i = .none ∧ Spent (c.tasks i)
  output : SameOutput n c d ∨ OldOutput n c d
  born : n ≤ c.next
  pc : PcSim n c d c.reader

/-- Two turns say the same and lead to related states. -/
def Agree (n : Nat) (strict : Prop) (x y : Turn) : Prop := x.2 = y.2 ∧ Sim n strict x.1 y.1

section
variable {n : Nat} {strict : Prop} {c d : Connection}

theorem Sim.setReader (h : Sim n strict c d) (pc : ReaderPc) (hpc : PcSim n c d pc)
    (actions : List Action) :
    Agree n strict ({ c with reader := pc }, actions) ({ d with reader := pc }, actions) :=
  ⟨rfl, h.handle, h.reliable, h.attachment, rfl, h.next, h.samples, h.new, h.old, h.output, h.born,
    by cases pc <;> exact hpc⟩

theorem Sim.fail (h : Sim n strict c d) (e : PyError) : Agree n strict (c.fail e) (d.fail e) := by
  have hsame : (c.fail e).2 = (d.fail e).2 := by simp only [Connection.fail, h.handle]
  exact ⟨hsame, (h.setReader .reporting trivial []).2⟩

theorem Sim.reply (h : Sim n strict c d) (f : Frame) : Agree n strict (c.reply f) (d.reply f) :=
  h.setReader .replying trivial _

theorem Sim.goIdle (h : Sim n strict c d) : Agree n strict c.goIdle d.goIdle :=
  h.setReader .idle trivial _

/-- A task that is spent stays so when it is stopped. -/
theorem Sim.finish (h : Sim n strict c d) : Agree n strict c.finish d.finish := by
  refine ⟨rfl, h.handle, h.reliable, h.attachment, rfl, h.next, h.samples, fun i hi => ?_,
    fun i hi => ?_, .inl ⟨rfl, fun _ hi => by cases hi⟩, h.born, trivial⟩
  · rcases h.output with ⟨ho, hn⟩ | ⟨ho, ⟨k, hk, hck⟩, -⟩
    · simp only [Connection.finish, ho]
      cases hc : c.outputTask with
      | none => exact h.new i hi
      | some k =>
          simp only [h.new k (hn k hc)]
          split
          · exact h.new i hi
          · simp only [Function.update_apply, h.new i hi]
    · have hik : i ≠ k := by omega
      simp only [Connection.finish, ho, hck]
      split
      · exact h.new i hi
      · rw [Function.update_of_ne hik]; exact h.new i hi
  · obtain ⟨hd, hc⟩ := h.old i hi
    constructor
    · rcases h.output with ⟨ho, hn⟩ | ⟨ho, -, -⟩
      · simp only [Connection.finish, ho]
        cases hck : c.outputTask with
        | none => exact hd
        | some k =>
            have hik : i ≠ k := by have := hn k hck; omega
            simp only
            split
            · exact hd
            · rw [Function.update_of_ne hik]; exact hd
      · simp only [Connection.finish, ho]; exact hd
    · simp only [Connection.finish]
      cases c.outputTask with
      | none => exact hc
      | some k =>
          simp only
          split
          · exact hc
          · simp only [Function.update_apply]
            split
            · trivial
            · exact hc

theorem Sim.afterStop (h : Sim n strict c d) (final : Bool) :
    Agree n strict (c.afterStop final) (d.afterStop final) := by
  cases final with
  | true => exact h.finish
  | false => exact h.setReader .idle trivial []

theorem Sim.stopRaised (h : Sim n strict c d) (final : Bool) (e : PyError) :
    Agree n strict (c.stopRaised final e) (d.stopRaised final e) := by
  cases final with
  | true => exact h.setReader .ended trivial []
  | false => exact h.fail e

/-- A session with a handle and no attachment is plain, and its task is the current one. -/
theorem Sim.stopActive (h : Sim n strict c d) (hi : Inv c) (reason : String) (final : Bool) :
    Agree n strict (c.stopActive reason final) (d.stopActive reason final) := by
  unfold Connection.stopActive
  rw [h.handle, h.reliable, h.attachment]
  split
  · exact h.afterStop final
  · next active hh =>
    split
    · exact h.setReader (.cancellingReliable final) trivial _
    · next hno =>
      refine h.setReader (.cancellingPlain active final) ?_ _
      rcases h.output with hs | ⟨-, -, hold⟩
      · exact hs
      · have hhandle : c.handle ≠ none := by simp [hh]
        have hrel : c.reliable ≠ none := hold.resolve_left hhandle
        obtain ⟨session, hs⟩ := Option.ne_none_iff_exists'.1 hrel
        obtain ⟨g, hg⟩ := Option.ne_none_iff_exists'.1 (hi.settled hhandle hrel)
        exact absurd hg (hno session g hs)

theorem Sim.finalize (h : Sim n strict c d) (hi : Inv c) :
    Agree n strict c.finalize d.finalize := by
  unfold Connection.finalize
  rw [h.reliable, h.attachment]
  split
  · exact h.setReader .detaching trivial _
  · exact h.stopActive hi _ true

theorem Sim.onReliable (h : Sim n strict c d) {yes yes' : HandleRef → Nat → Turn} {no no' : Turn}
    (hyes : ∀ session generation, Agree n strict (yes session generation) (yes' session generation))
    (hno : (c.reliable = none ∨ c.attachment = none) → Agree n strict no no') :
    Agree n strict (c.onReliable yes no) (d.onReliable yes' no') := by
  unfold Connection.onReliable
  rw [h.reliable, h.attachment]
  split
  · exact hyes _ _
  · next hn =>
    refine hno ?_
    cases hr : c.reliable with
    | none => exact .inl rfl
    | some session =>
        cases ha : c.attachment with
        | none => exact .inr rfl
        | some g => exact absurd ha (hn session g hr)

theorem Sim.setSamples (h : Sim n strict c d) (samples samples' : Samples)
    (hs : strict → samples' = samples) :
    Sim n strict { c with samples } { d with samples := samples' } :=
  ⟨h.handle, h.reliable, h.attachment, h.reader, h.next, hs, h.new, h.old, h.output, h.born, by
    have := h.pc
    cases hr : c.reader <;> rw [hr] at this <;> exact this⟩

theorem Sim.plainPlayback (h : Sim n strict c d) (hs : strict) (played buffered : Int) :
    Agree n strict (c.plainPlayback played buffered) (d.plainPlayback played buffered) := by
  unfold Connection.plainPlayback
  rw [h.samples hs]
  dsimp only
  split_ifs
  · exact h.reply _
  · exact ⟨rfl, h⟩
  · exact h.reply _
  · exact h.reply _
  · exact h.reply _
  · exact ⟨rfl, h.setSamples _ _ fun _ => rfl⟩

end

/-! ## The simulation along the output tasks -/

section
variable {n : Nat} {strict : Prop} {c d : Connection}

/-- A task of the new session goes on. -/
theorem Sim.setTask (h : Sim n strict c d) {i : Nat} (hi : n ≤ i) (pc : TaskPc) :
    Sim n strict (c.setTask i pc) (d.setTask i pc) := by
  refine ⟨h.handle, h.reliable, h.attachment, h.reader, h.next, h.samples, fun j hj => ?_,
    fun j hj => ?_, h.output, h.born, ?_⟩
  · simp only [Connection.setTask, Function.update_apply, h.new j hj]
  · have hji : j ≠ i := by omega
    simp only [Connection.setTask, Function.update_of_ne hji]
    exact h.old j hj
  · have hpc := h.pc
    simp only [Connection.setTask]
    cases hr : c.reader <;> rw [hr] at hpc <;> exact hpc

/-- A task of the new session ends, and clears the handle if it was a plain one. -/
theorem Sim.endTask (h : Sim n strict c d) {i : Nat} (hi : n ≤ i) (pc : TaskPc)
    (handle : Option HandleRef) (hh : handle = c.handle ∨ handle = none) :
    Sim n strict { c.endTask i pc with handle } { d.endTask i pc with handle } := by
  have hset := h.setTask hi pc
  have hsame : ∀ {x y : Connection}, SameOutput n c d →
      x.outputTask = (c.endTask i pc).outputTask → y.outputTask = (d.endTask i pc).outputTask →
      SameOutput n x y := by
    intro x y hs hx hy
    refine ⟨by rw [hx, hy]; simp only [Connection.endTask, hs.1], fun j hj => ?_⟩
    rw [hx] at hj
    simp only [Connection.endTask] at hj
    split at hj
    · cases hj
    · exact hs.2 j hj
  refine ⟨rfl, h.reliable, h.attachment, h.reader, h.next, h.samples, hset.new, hset.old, ?_, h.born,
    ?_⟩
  · rcases h.output with hs | ⟨ho, ⟨k, hk, hck⟩, hold⟩
    · exact .inl (hsame hs rfl rfl)
    · -- the current task is an earlier one, so this one ends without touching the variable
      refine .inr ⟨?_, ⟨k, hk, ?_⟩, ?_⟩
      · simp [Connection.endTask, ho]
      · have hki : k ≠ i := by omega
        simp [Connection.endTask, hck, hki]
      · rcases hh with hh | hh
        · rw [← hh] at hold; exact hold
        · exact .inl hh
  · have hpc := h.pc
    show PcSim n _ _ c.reader
    cases hr : c.reader with
    | cancellingPlain active final => rw [hr] at hpc; exact hsame hpc rfl rfl
    | awaitingTask active k final => rw [hr] at hpc; exact hpc
    | _ => trivial

/-- The task of an earlier session ends behind its terminal frame. -/
theorem Sim.endOld (h : Sim n strict c d) {i : Nat} (hi : i < n) {pc : TaskPc} (hpc : Spent pc) :
    Sim n strict (c.endTask i pc) d := by
  have hkeep : SameOutput n c d → SameOutput n (c.endTask i pc) d := by
    rintro ⟨ho, hn⟩
    have hne : c.outputTask ≠ some i := fun hc => by have := hn i hc; omega
    exact ⟨by simp [Connection.endTask, ho, hne], by simpa [Connection.endTask, hne] using hn⟩
  refine ⟨h.handle, h.reliable, h.attachment, h.reader, h.next, h.samples, fun j hj => ?_,
    fun j hj => ?_, ?_, h.born, ?_⟩
  · have hji : j ≠ i := by omega
    simp only [Connection.endTask, Connection.setTask, Function.update_of_ne hji]
    exact h.new j hj
  · refine ⟨(h.old j hj).1, ?_⟩
    simp only [Connection.endTask, Connection.setTask, Function.update_apply]
    split
    · exact hpc
    · exact (h.old j hj).2
  · rcases h.output with hs | ⟨ho, ⟨k, hk, hck⟩, hold⟩
    · exact .inl (hkeep hs)
    · by_cases hki : k = i
      · subst hki
        refine .inl ⟨by simp [Connection.endTask, hck, ho], fun j hj => ?_⟩
        simp [Connection.endTask, hck] at hj
      · exact .inr ⟨ho, ⟨k, hk, by simp [Connection.endTask, hck, hki]⟩, hold⟩
  · have hr := h.pc
    show PcSim n _ _ c.reader
    cases hc : c.reader with
    | cancellingPlain active final => rw [hc] at hr; exact hkeep hr
    | awaitingTask active k final => rw [hc] at hr; exact hr
    | _ => trivial

theorem Sim.sendFrames (h : Sim n strict c d) {i : Nat} (hi : n ≤ i) (kind : TaskKind)
    (frames : List Frame) (terminal : Bool) :
    Agree n strict (c.sendFrames i kind frames terminal) (d.sendFrames i kind frames terminal) := by
  cases frames with
  | nil => exact ⟨rfl, h.setTask hi _⟩
  | cons f rest => exact ⟨rfl, h.setTask hi _⟩

/-- A spent task does nothing, or ends. -/
theorem Spent.resumeTask {i : Nat} (h : Spent (c.tasks i)) (r : Result) :
    c.resumeTask i r = (c, []) ∨ ∃ pc, Spent pc ∧ c.resumeTask i r = (c.endTask i pc, []) := by
  cases hpc : c.tasks i with
  | sending kind rest terminal =>
      rw [hpc] at h
      -- only a resumable task behind its terminal frame is spent
      cases kind with
      | plain handle => exact h.elim
      | reliable session =>
          cases rest with
          | cons f rest => exact h.elim
          | nil =>
              subst h
              cases r with
              | done => exact .inr ⟨.finished, trivial, by simp [Connection.resumeTask, hpc]⟩
              | raised e => exact .inr ⟨.stopped, trivial, by simp [Connection.resumeTask, hpc]⟩
              | _ => exact .inl (by simp [Connection.resumeTask, hpc])
  | finished => exact .inl (by simp [Connection.resumeTask, hpc])
  | stopped => exact .inl (by simp [Connection.resumeTask, hpc])
  | none => rw [hpc] at h; exact h.elim
  | waiting kind => rw [hpc] at h; exact h.elim
  | closing => rw [hpc] at h; exact h.elim
  | leaving => rw [hpc] at h; exact h.elim

/-- The tasks of the earlier sessions say nothing, those of the new one say the same. -/
theorem Sim.resumeTask (h : Sim n strict c d) (i : Nat) (r : Result) :
    Agree n strict (c.resumeTask i r) (d.resumeTask i r) := by
  rcases Nat.lt_or_ge i n with hi | hi
  · obtain ⟨hd, hc⟩ := h.old i hi
    have hquiet : d.resumeTask i r = (d, []) := by simp [Connection.resumeTask, hd]
    rw [hquiet]
    rcases hc.resumeTask r with he | ⟨pc, hpc, he⟩
    · rw [he]; exact ⟨rfl, h⟩
    · rw [he]; exact ⟨rfl, h.endOld hi hpc⟩
  · have hend : ∀ pc, Sim n strict (c.endTask i pc) (d.endTask i pc) := by
      intro pc
      have := h.endTask hi pc c.handle (.inl rfl)
      rwa [show ({ d.endTask i pc with handle := c.handle } : Connection) = d.endTask i pc by
        rw [← h.handle]; rfl] at this
    unfold Connection.resumeTask
    rw [h.new i hi]
    split
    · refine Sim.sendFrames (h.setSamples _ _ fun hs => ?_) hi _ _ _
      rw [h.samples hs]
    · exact ⟨rfl, h.setTask hi _⟩
    · exact ⟨rfl, h.setTask hi _⟩
    · exact h.sendFrames hi _ _ _
    · exact ⟨rfl, h.setTask hi _⟩
    · exact ⟨rfl, h.setTask hi _⟩
    · exact ⟨rfl, hend _⟩
    · exact ⟨rfl, hend _⟩
    · exact ⟨rfl, h.endTask hi _ none (.inr rfl)⟩
    · exact ⟨rfl, hend _⟩
    · exact ⟨rfl, hend _⟩
    · exact ⟨rfl, hend _⟩
    · exact ⟨rfl, h⟩

end

/-! ## The simulation along the reader -/

/-- The message is a playback report that the sample variables decide. -/
def JudgedBySamples (c : Connection) : Message → Prop
  | .playbackProgress (.ok (played, buffered)) _ =>
      played ≤ buffered ∧ (c.reliable = none ∨ c.attachment = none)
  | _ => False

/-- The turn reads such a report. -/
def ConsultsSamples (c : Connection) : Event → Prop
  | .read m => c.reader = .idle ∧ c.JudgedBySamples m
  | _ => False

section
variable {n : Nat} {strict : Prop} {c d : Connection}

/-- A playback report is answered alike if the samples are the same or not consulted. -/
theorem Sim.playback (h : Sim n strict c d) (played buffered : Int)
    (hs : strict ∨ ¬ played ≤ buffered) :
    Agree n strict (c.plainPlayback played buffered) (d.plainPlayback played buffered) := by
  rcases hs with hs | hs
  · exact h.plainPlayback hs played buffered
  · have hlt : buffered < played := by omega
    simp only [Connection.plainPlayback, hlt, if_true]
    exact h.reply _

theorem Sim.readMessage (h : Sim n strict c d) (hi : Inv c) (m : Message)
    (hm : strict ∨ ¬ c.JudgedBySamples m) :
    Agree n strict (c.readMessage m) (d.readMessage m) := by
  cases m with
  | ignored => exact ⟨rfl, h⟩
  | malformed e => exact h.fail e
  | closed => exact h.finalize hi
  | getCapabilities => exact h.reply _
  | playbackProgress samples observed =>
      cases samples with
      | error e => exact h.fail e
      | ok s =>
          refine h.onReliable (fun session generation => ?_) fun hno => ?_
          · cases observed with
            | error e => exact h.reply _
            | ok o => exact h.setReader .playing trivial _
          · refine h.playback _ _ (hm.imp_right fun hj hle => hj ⟨hle, hno⟩)
  | start spec =>
      simp only [Connection.readMessage, h.handle]
      split
      · exact h.fail _
      · exact h.fail _
      · exact h.setReader (.creating none) trivial _
      · next request token seq sample _ => exact h.setReader (.claiming seq sample) trivial _
  | resume spec =>
      simp only [Connection.readMessage, h.handle]
      split
      · exact h.fail _
      · exact h.fail _
      · next token seq sample _ => exact h.setReader (.finding seq sample) trivial _
  | oneshot request text =>
      simp only [Connection.readMessage, h.handle]
      split
      · exact h.fail _
      · exact h.fail _
      · exact h.setReader (.creating (some text)) trivial _
  | text explicitSeq seqNo text =>
      simp only [Connection.readMessage, h.handle]
      split
      · exact h.fail _
      · refine h.onReliable (fun session generation => ?_) fun _ => ?_
        · split
          · exact h.fail _
          · exact h.setReader (.appending explicitSeq) trivial _
        · split
          · exact h.setReader (.appending false) trivial _
          · exact h.fail _
          · exact h.setReader (.appending true) trivial _
  | stop explicitSeq finalSeqNo =>
      simp only [Connection.readMessage, h.handle]
      split
      · exact h.fail _
      · split
        · exact h.fail _
        · exact h.onReliable
            (fun session generation => h.setReader (.completing explicitSeq) trivial _)
            (fun _ => h.setReader (.completing explicitSeq) trivial _)
  | ack cursor =>
      simp only [Connection.readMessage, h.handle]
      split
      · exact h.fail _
      · refine h.onReliable (fun session generation => ?_) fun _ => h.fail _
        split
        · exact h.fail _
        · exact h.setReader .acking trivial _
  | terminalAck cursor =>
      simp only [Connection.readMessage, h.handle]
      split
      · exact h.fail _
      · refine h.onReliable (fun session generation => ?_) fun _ => h.fail _
        split
        · exact h.fail _
        · exact h.setReader .terminalAcking trivial _
  | cancel reason =>
      simp only [Connection.readMessage, h.handle]
      split
      · exact h.fail _
      · exact h.stopActive hi reason false
  | unsupported messageType =>
      simp only [Connection.readMessage, h.handle]
      split
      · exact h.fail _
      · exact h.fail _

/-- A new task is the current one of both connections. -/
theorem Sim.sameOutput_spawn (h : Sim n strict c d) (kind : TaskKind) :
    SameOutput n (c.spawn kind) (d.spawn kind) := by
  have hborn := h.born
  refine ⟨by simp only [Connection.spawn, h.next], fun i hi => ?_⟩
  simp only [Connection.spawn, Option.some.injEq] at hi
  omega

theorem Sim.spawn (h : Sim n strict c d) (kind : TaskKind) :
    Sim n strict (c.spawn kind) (d.spawn kind) := by
  have hborn := h.born
  refine ⟨h.handle, h.reliable, h.attachment, h.reader, by simp only [Connection.spawn, h.next],
    h.samples, fun i hi => ?_, fun i hi => ?_, .inl (h.sameOutput_spawn kind), ?_, ?_⟩
  · simp only [Connection.spawn, h.next, Function.update_apply, h.new i hi]
  · have hne : i ≠ c.next := by omega
    simp only [Connection.spawn, h.next, Function.update_of_ne hne]
    exact h.old i hi
  · simp only [Connection.spawn]; omega
  · have hpc := h.pc
    show PcSim n _ _ c.reader
    cases hr : c.reader with
    | cancellingPlain active final => exact h.sameOutput_spawn kind
    | awaitingTask active k final => rw [hr] at hpc; exact hpc
    | _ => trivial

/-- The variables of the session change in the same way on both sides. An earlier task may stay the
current one only while no plain session runs. -/
theorem Sim.session (h : Sim n strict c d) {c' d' : Connection} (hhandle : d'.handle = c'.handle)
    (hrel : d'.reliable = c'.reliable) (hatt : d'.attachment = c'.attachment)
    (hreader : d'.reader = c'.reader)
    (hc : c' = { c with handle := c'.handle, reliable := c'.reliable, attachment := c'.attachment,
                        reader := c'.reader })
    (hd : d' = { d with handle := d'.handle, reliable := d'.reliable, attachment := d'.attachment,
                        reader := d'.reader })
    (hold : SameOutput n c d ∨ c'.handle = none ∨ c'.reliable ≠ none)
    (hpc : PcSim n c' d' c'.reader) : Sim n strict c' d' := by
  rw [hc, hd] at hpc ⊢
  refine ⟨hhandle, hrel, hatt, hreader, h.next, h.samples, h.new, h.old, ?_, h.born, hpc⟩
  rcases h.output with hs | ⟨ho, hk, -⟩
  · exact .inl hs
  · exact hold.imp id fun hold => ⟨ho, hk, hold⟩

/-- The output task of a new session is the current one. -/
theorem Sim.created (h : Sim n strict c d) (ref : HandleRef) (oneshot : Option String) :
    Agree n strict (c.created ref oneshot) (d.created ref oneshot) := by
  have hspawn : Sim n strict ({ c with handle := some ref, reader := .idle }.spawn (.plain ref))
      ({ d with handle := some ref, reader := .idle }.spawn (.plain ref)) :=
    (h.spawn (.plain ref)).session rfl h.reliable h.attachment rfl rfl rfl
      (.inl (h.sameOutput_spawn _)) trivial
  unfold Connection.created
  cases oneshot with
  | none => exact hspawn.goIdle
  | some text =>
      dsimp only
      split
      · exact hspawn.fail _
      · exact hspawn.setReader .oneshotAppending trivial _

/-- An attached session is the handle of both connections. -/
theorem Sim.attached (h : Sim n strict c d) (session : HandleRef) (g : Nat) (pc : ReaderPc)
    (hrel : c.reliable = some session) (hpc : ∀ c d, PcSim n c d pc) :
    Sim n strict { c with attachment := some g, handle := some session, reader := pc }
      { d with attachment := some g, handle := some session, reader := pc } :=
  h.session rfl h.reliable rfl rfl rfl rfl (.inr (.inr (by simp [hrel]))) (hpc _ _)

/-- Nothing of a session is left on either side. -/
theorem Sim.cleared (h : Sim n strict c d) {final : Bool} (hpc : c.reader = .closingSession final) :
    Sim n strict { c with handle := none, reliable := none, attachment := none, outputTask := none }
      { d with handle := none, reliable := none, attachment := none, outputTask := none } :=
  ⟨rfl, rfl, rfl, h.reader, h.next, h.samples, h.new, h.old, .inl ⟨rfl, fun _ hi => (by cases hi)⟩,
    h.born, by simp only [hpc, PcSim]⟩

/-- The cancelled plain session has its own task, so both readers await it or neither does. -/
theorem Sim.afterCancel (h : Sim n strict c d) (hs : SameOutput n c d) (active : HandleRef)
    (final : Bool) : Agree n strict (c.afterCancel active final) (d.afterCancel active final) := by
  cases ho : c.outputTask with
  | none =>
      simp only [Connection.afterCancel, hs.1, ho]
      exact h.setReader (.closingSession final) trivial _
  | some i =>
      have hi := hs.2 i ho
      simp only [Connection.afterCancel, hs.1, ho, h.new i hi]
      split
      · exact h.setReader (.closingSession final) trivial _
      · have hwait := (h.setReader (.awaitingTask active i final) hi []).2
        simp only [hs.1, ho] at hwait
        exact ⟨rfl, hwait⟩

theorem Sim.resumeReader (h : Sim n strict c d) (hi : Inv c) (r : Result) :
    Agree n strict (c.resumeReader r) (d.resumeReader r) := by
  have hpcsim := h.pc
  have hok := hi.reader
  unfold Connection.resumeReader
  rw [h.reader]
  split
  -- replying, reporting, playing
  · exact h.goIdle
  · exact h.fail _
  · exact h.finalize hi
  · exact h.finalize hi
  · exact h.goIdle
  · split
    · exact h.fail _
    · exact h.reply _
  -- creating, claiming, finding, attaching, announcing
  · exact h.created _ _
  · exact h.fail _
  · exact ⟨rfl, h.session h.handle rfl h.attachment rfl rfl rfl
      (.inr (.inr (Option.some_ne_none _))) trivial⟩
  · exact h.fail _
  · exact ⟨rfl, h.session h.handle rfl h.attachment rfl rfl rfl
      (.inr (.inr (Option.some_ne_none _))) trivial⟩
  · exact h.fail _
  · next session announce g hpc =>
    rw [hpc] at hok
    dsimp only
    split
    · exact ⟨rfl, h.attached session g (.announcing session) hok.2.1 fun _ _ => trivial⟩
    · exact ((h.attached session g .idle hok.2.1 fun _ _ => trivial).spawn _).goIdle
  · exact h.fail _
  · exact (h.spawn _).goIdle
  · exact h.fail _
  -- oneshot
  · rw [h.handle]
    split
    · exact h.fail _
    · exact h.setReader .oneshotCompleting trivial _
  · exact h.fail _
  · exact h.goIdle
  · exact h.fail _
  -- input and acknowledgements
  · rw [h.reliable]
    split
    · exact h.reply _
    · exact h.goIdle
  · exact h.fail _
  · rw [h.reliable]
    split
    · exact h.reply _
    · exact h.goIdle
  · exact h.fail _
  · exact h.goIdle
  · exact h.fail _
  · exact ⟨rfl, h.session rfl rfl rfl rfl rfl rfl (.inr (.inl rfl)) trivial⟩
  · exact h.fail _
  -- stop_active
  · exact h.afterStop _
  · exact h.stopRaised _ _
  · next hpc => rw [hpc] at hpcsim; exact h.afterCancel hpcsim _ _
  · next hpc => rw [hpc] at hpcsim; exact h.afterCancel hpcsim _ _
  · next i final hpc =>
    rw [hpc] at hpcsim
    rw [h.new i hpcsim]
    split
    · exact h.setReader (.closingSession final) trivial _
    · exact ⟨rfl, h⟩
  · next i final e hpc =>
    rw [hpc] at hpcsim
    rw [h.new i hpcsim]
    split
    · exact h.stopRaised _ _
    · exact ⟨rfl, h⟩
  · next final hpc => exact (h.cleared hpc).afterStop final
  · exact h.stopRaised _ _
  -- the end of the handler
  · exact h.finish
  · exact h.setReader .ended trivial _
  · exact ⟨rfl, h⟩

/-- Every turn says the same on both connections, unless it consults samples that differ. -/
theorem Sim.turn (h : Sim n strict c d) (hi : Inv c) (e : Event)
    (he : strict ∨ ¬ c.ConsultsSamples e) : Agree n strict (c.turn e) (d.turn e) := by
  cases e with
  | read m =>
      simp only [Connection.turn, h.reader]
      split
      · next hidle => exact h.readMessage hi m (he.imp_right fun hc hj => hc ⟨hidle, hj⟩)
      · exact ⟨rfl, h⟩
  | reader r => exact h.resumeReader hi r
  | task i r => exact h.resumeTask i r

/-- Behind the terminal frames of the earlier sessions, a connection without a handle is related to
a new one. -/
theorem Inv.sim_fresh (h : Inv c) (hidle : c.reader = .idle) (hhandle : c.handle = none)
    (hsent : ∀ i, i < c.next → TerminalSent (c.tasks i)) (hs : strict → c.samples = {}) :
    Sim c.next strict c (fresh c.next) := by
  have hl := h.reader
  rw [hidle] at hl
  obtain ⟨-, hrel, hatt⟩ := hl.clear hhandle
  have hspent : ∀ i, i < c.next → Spent (c.tasks i) := by
    intro i hi
    have hact := h.not_activePlain (.inl hhandle) i
    have hi' := hsent i hi
    cases hpc : c.tasks i with
    | sending kind rest terminal =>
        rw [hpc] at hi' hact
        cases kind with
        | plain handle => exact absurd trivial hact
        | reliable session =>
            cases rest with
            | nil => exact hi'
            | cons f rest => exact hi'.elim
    | closing => rw [hpc] at hact; exact absurd trivial hact
    | finished => trivial
    | none => rw [hpc] at hi'; exact hi'.elim
    | waiting kind => rw [hpc] at hi'; exact hi'.elim
    | leaving => rw [hpc] at hi'; exact hi'.elim
    | stopped => trivial
  refine ⟨hhandle.symm, hrel.symm, hatt.symm, hidle.symm, rfl, fun hst => (hs hst).symm,
    fun i hi => (h.unborn i hi).symm, fun i hi => ⟨rfl, hspent i hi⟩, ?_, Nat.le_refl _, ?_⟩
  · cases ho : c.outputTask with
    | none => exact .inl ⟨ho.symm, fun i hi => by rw [ho] at hi; cases hi⟩
    | some i => exact .inr ⟨rfl, ⟨i, h.current i ho, ho⟩, .inl hhandle⟩
  · rw [hidle]; trivial

end

/-! ## The result -/

/-- From the beginning of a session on, a reused connection says what a new one says. The client
begins it behind the terminal frames of the earlier sessions (`hsent`); the connection has cleared
the handle, and the sample variables are those of a new connection or are not consulted. -/
theorem session_replies_fresh (before session : List Event)
    (hidle : ((fresh 0).after before).reader = .idle)
    (hsent : ∀ i, i < ((fresh 0).after before).next →
      TerminalSent (((fresh 0).after before).tasks i))
    (hhandle : ((fresh 0).after before).handle = none)
    (hsamples : ((fresh 0).after before).samples = {} ∨
      Along (fun c e => (c.turn e).1) (fun c e => ¬ c.ConsultsSamples e)
        ((fresh 0).after before) session) :
    outputs turn ((fresh 0).after before) session =
      outputs turn (fresh ((fresh 0).after before).next) session := by
  have hinv := after_inv (fresh_inv 0) before
  generalize (fresh 0).after before = c at *
  have hsim : Sim c.next (c.samples = {}) c (fresh c.next) :=
    hinv.sim_fresh hidle hhandle hsent fun hs => hs
  have hfree : Along (fun c e => (c.turn e).1)
      (fun c' e => c.samples = {} ∨ ¬ c'.ConsultsSamples e) c session := by
    rcases hsamples with hs | hs
    · exact along_of_forall (fun _ _ => .inl hs) _ _
    · exact hs.imp fun _ _ he => .inr he
  -- the relation is kept together with the invariant of the reused connection
  refine outputs_eq_of_sim (R := fun x y => Inv x ∧ Sim c.next (c.samples = {}) x y)
    ⟨hinv, hsim⟩ (fun x y e hr he => ?_) hfree
  have hagree := hr.2.turn hr.1 e he
  exact ⟨hagree.1, turn_inv hr.1 e, hagree.2⟩

/-- A plain session with 100 samples of audio, up to the send of its terminal frame. -/
def playedSession : List Event :=
  [.read (.start (.ok ⟨"first", none⟩)), .reader (.handle ⟨1, "a"⟩),
    .task 0 (.delivery (.audio ⟨"a", [], ⟨"pcm_s16le", 24000, 1⟩, 0, 100, []⟩) 0), .task 0 .done,
    .task 0 .done, .task 0 (.delivery (.terminal ⟨"a", .completed, "", [], []⟩) 0), .task 0 .done]

/-- The begin of a second session. -/
def secondStart : List Event :=
  [.read (.start (.ok ⟨"second", none⟩)), .reader (.handle ⟨2, "b"⟩)]

/-- The second session takes text on the reused connection as on a new one. -/
theorem session_replies_fresh_second :
    outputs turn ((fresh 0).after (playedSession ++ [.task 0 .done]))
        (secondStart ++ [.read (.text false (.ok 1) "hello")]) =
      outputs turn (fresh 1) (secondStart ++ [.read (.text false (.ok 1) "hello")]) := by
  refine session_replies_fresh (playedSession ++ [.task 0 .done]) _ rfl (fun i hi => ?_) rfl
    (.inr ?_)
  · obtain rfl : i = 0 := Nat.lt_one_iff.1 hi
    trivial
  · exact ⟨fun h => h.2, fun h => h, fun h => h.2, trivial⟩

/-- The second session is judged by the samples of the first one: a report of 50 played samples is
accepted though the session has no audio yet. -/
theorem reuse_leaks_session :
    ¬ ∀ before session : List Event, ((fresh 0).after before).reader = .idle →
      (∀ i, i < ((fresh 0).after before).next → TerminalSent (((fresh 0).after before).tasks i)) →
      outputs turn ((fresh 0).after before) session =
        outputs turn (fresh ((fresh 0).after before).next) session := by
  intro h
  have hleak := h (playedSession ++ [.task 0 .done])
    (secondStart ++ [.read (.playbackProgress (.ok (50, 50)) (.ok none))]) rfl (fun i hi => by
      obtain rfl : i = 0 := Nat.lt_one_iff.1 hi
      trivial)
  revert hleak
  decide

end Connection

end StreamingTts.Gateway
