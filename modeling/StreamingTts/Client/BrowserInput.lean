import Mathlib
import StreamingTts.Lib.Transition
import StreamingTts.Session.Service

/-!
# The input of the browser client across recoveries

`ActiveResponse` and `recoverActiveResponse` of `web/packages/browser-sdk/src/realtime-client.ts`, with the
input of `_RealtimeConnection` in `engine/gateway/openai_realtime.py` on the other side of the sockets. The
client is one thread: an event is a call of `append` or `commit`, a callback of a socket, or what
`recoverActiveResponse` does between two awaits. The frames of a socket arrive in the order they were
written.

`append` journals a text before it tries to send it, and the socket of a recovery is the client's several
awaits before its response is resumed. A call in between writes to a connection that the gateway has not
bound to the response, or throws and has its text replayed all the same; as long as no call is made during
a recovery, every text is accepted once, in the order of the calls (`browser_input_kept`).
-/

namespace StreamingTts.Client.BrowserInput

open Lib (run Along run_induct)
open Session (SessionHandle AppendText CompleteInput)

/-- A socket, by its number. -/
abbrev Socket := Nat

/-- A text with its sequence number. -/
abbrev Entry := Nat × String

/-- The frames that the input of a response depends on. -/
inductive Frame
  | append (entry : Entry)
  | commit
  | resume
  deriving DecidableEq, Repr

/-- The server events that the input of a response depends on. -/
inductive ServerEvent
  | ack (sequence : Nat)
  | resumed (ackedTextSeq : Nat) (inputClosed : Bool)
  | error
  deriving DecidableEq, Repr

/-! ## The gateway -/

/-- The input of the gateway: the handle of the response, the connections whose `_active` it is, the
`_TextBuffer` of every connection, and `accepted_text` in the order it was filled. -/
structure Gateway where
  handle : SessionHandle := .started
  bound : Socket → Bool
  buffer : Socket → List Entry := fun _ => []
  accepted : List Entry := []

/-- `_TextBuffer.append`. -/
def bufferAppend (buffer : List Entry) (entry : Entry) : Option (List Entry) :=
  match buffer.find? (fun prior => prior.1 = entry.1) with
  | some prior => if prior.2 ≠ entry.2 then none else some buffer
  | none => if entry.1 ≠ buffer.length + 1 then none else some (buffer ++ [entry])

namespace Gateway

variable (g : Gateway) (c : Socket)

/-- `_append_text`; the engine takes every text. -/
def appendText (entry : Entry) : ServerEvent × Gateway :=
  if g.bound c then
    match g.handle.appendText ⟨entry.1, entry.2⟩ false with
    | (.ok ack, handle) =>
        (.ack entry.1, { g with
          handle := handle
          accepted := if ack.duplicate then g.accepted else g.accepted ++ [entry] })
    | (.error _, handle) => (.error, { g with handle := handle })
  else
    match bufferAppend (g.buffer c) entry with
    | some buffer => (.ack entry.1, { g with buffer := Function.update g.buffer c buffer })
    | none => (.error, g)

/-- `_commit_text`; the client does not read `qwen.input_text_buffer.committed`. -/
def commitText : List ServerEvent × Gateway :=
  if g.bound c && !g.handle.inputComplete then
    match g.handle.completeInput ⟨g.handle.acceptedTextSeq⟩ false with
    | (.ok _, handle) => ([], { g with handle := handle })
    | (.error _, handle) => ([.error], { g with handle := handle })
  else ([], g)

/-- `_resume_response`; `found` is whether the registry finds and attaches the response. -/
def resumeResponse (found : Bool) : ServerEvent × Gateway :=
  if g.bound c || !found then (.error, g)
  else (.resumed g.handle.acceptedTextSeq.toNat g.handle.inputComplete,
    { g with bound := Function.update g.bound c true })

/-- A frame is handled. -/
def handleFrame (found : Bool) : Frame → List ServerEvent × Gateway
  | .append entry => ([(g.appendText c entry).1], (g.appendText c entry).2)
  | .commit => g.commitText c
  | .resume => ([(g.resumeResponse c found).1], (g.resumeResponse c found).2)

end Gateway

/-! ## The client -/

/-- `ActiveResponse`. -/
structure ActiveResponse where
  nextSequence : Nat := 1
  acceptedSequence : Nat := 0
  inputClosed : Bool := false
  commitSent : Bool := false
  journal : List Entry := []

/-- `acceptSequence`, unless it throws. -/
def ActiveResponse.acceptSequence (r : ActiveResponse) (sequence : Nat) : Option ActiveResponse :=
  if sequence < r.acceptedSequence ∨ r.nextSequence ≤ sequence then none
  else some { r with
    acceptedSequence := sequence
    journal := r.journal.filter fun entry => sequence < entry.1 }

/-- `readyState`. -/
inductive ReadyState
  | connecting
  | opened
  | closed
  deriving DecidableEq, Repr

/-- Where `recoverActiveResponse` stands in one of its attempts. -/
inductive Stage
  /-- in its sleep -/
  | sleeping (attempt : Nat)
  /-- behind the new socket, up to `await updated` -/
  | preparing (attempt : Nat)
  /-- at `await resumed` -/
  | resuming (attempt : Nat)
  /-- `resumed` is resolved, and the task has not gone on -/
  | resumed (attempt ackedSequence : Nat) (serverInputClosed : Bool)
  deriving DecidableEq, Repr

/-- The attempt of a stage. -/
def Stage.attempt : Stage → Nat
  | .sleeping attempt => attempt
  | .preparing attempt => attempt
  | .resuming attempt => attempt
  | .resumed attempt _ _ => attempt

/-- The client with an incremental response, the gateway, and what is under way between them. `returned`
and `threw` are the numbered texts by how their `append` ended, `confirmed` are the sockets whose
`qwen.response.resumed` was received, and `early` the appends and commits that were written to another. -/
structure Input where
  active : Bool := true
  response : ActiveResponse := {}
  socket : Option Socket := some 0
  sockets : Nat := 1
  ready : Socket → ReadyState := fun c => if c = 0 then .opened else .closed
  recovery : Option Stage := none
  toGateway : Socket → List Frame := fun _ => []
  toClient : Socket → List ServerEvent := fun _ => []
  gateway : Gateway := { bound := fun c => c = 0 }
  returned : List Entry := []
  threw : List Entry := []
  confirmed : Socket → Bool := fun c => c = 0
  early : List (Socket × Frame) := []

namespace Input

variable (attempts : Nat) (s : Input)

/-- `send`, unless it throws: a closed socket discards the frame. -/
def send (f : Frame) : Option Input :=
  match s.socket with
  | none => none
  | some c =>
      match s.ready c with
      | .connecting => none
      | .closed => some s
      | .opened => some { s with
          toGateway := Function.update s.toGateway c (s.toGateway c ++ [f])
          early := if s.confirmed c || f = .resume then s.early else s.early ++ [(c, f)] }

/-- `append` of an incremental response. -/
def append (text : String) : Input :=
  if s.response.inputClosed ∨ text = "" then s
  else
    let entry := (s.response.nextSequence, text)
    let journaled := { s with response := { s.response with
      nextSequence := s.response.nextSequence + 1
      journal := s.response.journal ++ [entry] } }
    match journaled.send (.append entry) with
    | some sent => { sent with returned := sent.returned ++ [entry] }
    | none => { journaled with threw := journaled.threw ++ [entry] }

/-- `commit`. -/
def commit : Input :=
  if s.response.inputClosed then s
  else
    let closed := { s with response := { s.response with inputClosed := true, commitSent := true } }
    (closed.send .commit).getD closed

/-- The connection of a socket breaks, and the gateway reads no more than its first `kept` frames. -/
def breaks (c : Socket) (kept : Nat) : Input :=
  { s with
    ready := Function.update s.ready c .closed
    toGateway := Function.update s.toGateway c ((s.toGateway c).take kept) }

/-- `onclose`. -/
def closes (c : Socket) : Input :=
  if s.socket = some c then
    let lost := { s with socket := none, ready := Function.update s.ready c .closed }
    if s.active && s.recovery.isNone then
      if 0 < attempts then { lost with recovery := some (.sleeping 1) } else { lost with active := false }
    else lost
  else s

/-- An attempt fails; behind the last one the response is finished. -/
def attemptFails (attempt : Nat) : Input :=
  let closed := { s with
    socket := none
    ready := s.socket.elim s.ready fun c => Function.update s.ready c .closed }
  if attempt < attempts then { closed with recovery := some (.sleeping (attempt + 1)) }
  else { closed with recovery := none, active := false }

/-- `onmessage`. -/
def receive (c : Socket) : ServerEvent → Input
  | .ack sequence =>
      if s.active then { s with response := (s.response.acceptSequence sequence).getD s.response } else s
  | .resumed acked closed =>
      { s with
        confirmed := Function.update s.confirmed c true
        recovery := s.recovery.map fun stage =>
          match stage with
          | .resuming attempt => .resumed attempt acked closed
          | stage => stage }
  | .error => { s with active := false }

/-- The next message of a socket that is open. -/
def receives (c : Socket) : Input :=
  if s.ready c = .opened then
    match s.toClient c with
    | [] => s
    | m :: rest => { s with toClient := Function.update s.toClient c rest }.receive c m
  else s

/-- The sleep of an attempt is over. -/
def dials : Input :=
  match s.recovery with
  | some (.sleeping attempt) => { s with
      socket := some s.sockets
      sockets := s.sockets + 1
      ready := Function.update s.ready s.sockets .connecting
      recovery := some (.preparing attempt) }
  | _ => s

/-- `onopen`. -/
def opens (c : Socket) : Input :=
  if s.ready c = .connecting then { s with ready := Function.update s.ready c .opened } else s

/-- An attempt behind `await updated`. -/
def updated : Input :=
  match s.recovery with
  | some (.preparing attempt) =>
      match s.active, s.send .resume with
      | true, some sent => { sent with recovery := some (.resuming attempt) }
      | _, _ => s.attemptFails attempts attempt
  | _ => s

/-- An attempt behind `await resumed`: `replayAfterResume`. What `send` does depends on the socket alone, so
that a replay that throws has written nothing. -/
def resumes : Input :=
  match s.recovery with
  | some (.resumed attempt acked closed) =>
      match s.active, s.response.acceptSequence acked with
      | true, some response =>
          let accepted := { s with response := response }
          let frames := response.journal.map Frame.append ++
            if response.commitSent && !closed then [.commit] else []
          match frames.foldlM send accepted with
          | some sent => { sent with recovery := none }
          | none => accepted.attemptFails attempts attempt
      | _, _ => s.attemptFails attempts attempt
  | _ => s

/-- The attempt under way fails: a wait ends in its timeout, or is rejected. -/
def fails : Input :=
  match s.recovery with
  | some stage => s.attemptFails attempts stage.attempt
  | none => s

/-- The gateway handles the next frame of a connection. -/
def serves (c : Socket) (found : Bool) : Input :=
  match s.toGateway c with
  | [] => s
  | f :: rest =>
      let handled := s.gateway.handleFrame c found f
      { s with
        toGateway := Function.update s.toGateway c rest
        toClient := Function.update s.toClient c (s.toClient c ++ handled.1)
        gateway := handled.2 }

inductive Event
  | append (text : String)
  | commit
  | breaks (c : Socket) (kept : Nat)
  | closes (c : Socket)
  | receives (c : Socket)
  | dials
  | opens (c : Socket)
  | updated
  | resumes
  | fails
  | serves (c : Socket) (found : Bool)
  deriving DecidableEq, Repr

/-- An event. -/
def step (s : Input) : Event → Input
  | .append text => s.append text
  | .commit => s.commit
  | .breaks c kept => s.breaks c kept
  | .closes c => s.closes attempts c
  | .receives c => s.receives c
  | .dials => s.dials
  | .opens c => s.opens c
  | .updated => s.updated attempts
  | .resumes => s.resumes attempts
  | .fails => s.fails attempts
  | .serves c found => s.serves c found

end Input

/-! ## What a socket carries -/

/-- The frames are the texts from `j` on, with a commit only behind the last text. -/
def Feeds (returned : List Entry) (inputClosed : Bool) : Nat → List Frame → Prop
  | _, [] => True
  | j, .append entry :: fs => returned[j]? = some entry ∧ Feeds returned inputClosed (j + 1) fs
  | j, .commit :: fs => (inputClosed = true ∧ j = returned.length) ∧ Feeds returned inputClosed j fs
  | _, .resume :: _ => False

/-- The number of texts up to the end of the frames. -/
def behind : Nat → List Frame → Nat
  | j, [] => j
  | j, .append _ :: fs => behind (j + 1) fs
  | j, .commit :: fs => behind j fs
  | j, .resume :: fs => behind j fs

section
variable {returned : List Entry} {inputClosed : Bool} {j : Nat} {fs : List Frame}

/-- One more text, as long as the input is open. -/
theorem Feeds.grow (h : Feeds returned false j fs) (entry : Entry) :
    Feeds (returned ++ [entry]) false j fs := by
  induction fs generalizing j with
  | nil => trivial
  | cons f fs ih =>
      cases f with
      | append e => exact ⟨List.getElem?_append_left (List.getElem?_eq_some_iff.1 h.1).1 ▸ h.1, ih h.2⟩
      | commit => cases h.1.1
      | resume => exact h

theorem Feeds.close (h : Feeds returned inputClosed j fs) : Feeds returned true j fs := by
  induction fs generalizing j with
  | nil => trivial
  | cons f fs ih =>
      cases f with
      | append e => exact ⟨h.1, ih h.2⟩
      | commit => exact ⟨⟨rfl, h.1.2⟩, ih h.2⟩
      | resume => exact h

theorem Feeds.take (h : Feeds returned inputClosed j fs) (n : Nat) :
    Feeds returned inputClosed j (fs.take n) := by
  induction fs generalizing j n with
  | nil =>
      rw [List.take_nil]
      trivial
  | cons f fs ih =>
      cases n with
      | zero => trivial
      | succ n =>
          cases f with
          | append e => exact ⟨h.1, ih h.2 n⟩
          | commit => exact ⟨h.1, ih h.2 n⟩
          | resume => exact h

/-- The next text is written. -/
theorem Feeds.append (h : Feeds returned inputClosed j fs) {entry : Entry}
    (hentry : returned[behind j fs]? = some entry) :
    Feeds returned inputClosed j (fs ++ [.append entry]) ∧
      behind j (fs ++ [.append entry]) = behind j fs + 1 := by
  induction fs generalizing j with
  | nil => exact ⟨⟨hentry, trivial⟩, rfl⟩
  | cons f fs ih =>
      cases f with
      | append e => exact ⟨⟨h.1, (ih h.2 hentry).1⟩, (ih h.2 hentry).2⟩
      | commit => exact ⟨⟨h.1, (ih h.2 hentry).1⟩, (ih h.2 hentry).2⟩
      | resume => exact h.elim

/-- The commit is written behind the last text. -/
theorem Feeds.commit (h : Feeds returned inputClosed j fs) (hend : behind j fs = returned.length) :
    Feeds returned true j (fs ++ [.commit]) ∧ behind j (fs ++ [.commit]) = returned.length := by
  induction fs generalizing j with
  | nil => exact ⟨⟨⟨rfl, hend⟩, trivial⟩, hend⟩
  | cons f fs ih =>
      cases f with
      | append e => exact ⟨⟨h.1, (ih h.2 hend).1⟩, (ih h.2 hend).2⟩
      | commit => exact ⟨⟨⟨rfl, h.1.2⟩, (ih h.2 hend).1⟩, (ih h.2 hend).2⟩
      | resume => exact h.elim

/-- Every text from `j` on is among frames that end with the last one. -/
theorem Feeds.mem (h : Feeds returned inputClosed j fs) (hend : behind j fs = returned.length)
    {i : Nat} (hi : j ≤ i) {entry : Entry} (hentry : returned[i]? = some entry) :
    .append entry ∈ fs := by
  have hlt := (List.getElem?_eq_some_iff.1 hentry).1
  induction fs generalizing j with
  | nil =>
      have : j = returned.length := hend
      omega
  | cons f fs ih =>
      cases f with
      | append e =>
          rcases Nat.eq_or_lt_of_le hi with rfl | hlater
          · rw [Option.some.inj (h.1.symm.trans hentry)]
            exact List.mem_cons_self
          · exact List.mem_cons_of_mem _ (ih h.2 hend hlater)
      | commit => exact List.mem_cons_of_mem _ (ih h.2 hend hi)
      | resume => exact h.elim

end

/-! ## What the gateway has accepted -/

/-- The gateway has accepted texts in order, and its handle knows them. -/
structure Gateway.Sound (g : Gateway) (returned : List Entry) (inputClosed : Bool) : Prop where
  execution : ∃ e, g.handle.execution = some e
  terminal : g.handle.terminal = none
  nextSeq : g.handle.nextSeq = g.accepted.length + 1
  order : g.accepted <+: returned
  known : ∀ (i : Nat) (p : Entry), g.accepted[i]? = some p →
    g.handle.acceptedText ((i : Int) + 1) = some p.2
  unknown : ∀ i : Nat, g.accepted.length ≤ i → g.handle.acceptedText ((i : Int) + 1) = none
  complete : g.handle.inputComplete = true →
    inputClosed = true ∧ g.accepted.length = returned.length
  unbuffered : ∀ c, g.buffer c = []

/-- What a frame on connection `c` does to the gateway. -/
structure Gateway.Moves (g g' : Gateway) (c : Socket) (events : List ServerEvent) : Prop where
  bound : ∀ c', c' ≠ c → g'.bound c' = g.bound c'
  kept : g.bound c = true → g'.bound c = true
  le : g.accepted.length ≤ g'.accepted.length
  acks : ∀ n, .ack n ∈ events → n ≤ g'.accepted.length
  resumed : ∀ acked closed, .resumed acked closed ∈ events →
    g'.bound c = true ∧ acked ≤ g'.accepted.length

/-- The texts are numbered from 1 on, and none is empty. -/
def Numbered (returned : List Entry) : Prop :=
  ∀ (i : Nat) (p : Entry), returned[i]? = some p → p.1 = i + 1 ∧ p.2 ≠ ""

/-- A prefix and the text behind it. -/
theorem prefix_next {accepted returned : List Entry} (h : accepted <+: returned) {entry : Entry}
    (hentry : returned[accepted.length]? = some entry) : accepted ++ [entry] <+: returned := by
  obtain ⟨rest, rfl⟩ := h
  rw [List.getElem?_append_right (Nat.le_refl _), Nat.sub_self] at hentry
  cases rest with
  | nil => cases hentry
  | cons e rest =>
      cases hentry
      exact ⟨rest, by rw [List.append_assoc, List.singleton_append]⟩

namespace Gateway

variable {g : Gateway} {returned : List Entry} {inputClosed : Bool} {c : Socket}

/-- A text that is known or the next one. -/
theorem Sound.appendText (h : g.Sound returned inputClosed) (hnumbered : Numbered returned)
    (hbound : g.bound c = true) {j : Nat} {entry : Entry} (hentry : returned[j]? = some entry)
    (hj : j ≤ g.accepted.length) :
    (g.appendText c entry).2.Sound returned inputClosed ∧
      g.Moves (g.appendText c entry).2 c [(g.appendText c entry).1] ∧
      j + 1 ≤ (g.appendText c entry).2.accepted.length := by
  obtain ⟨hnumber, hnonempty⟩ := hnumbered j entry hentry
  obtain ⟨e, he⟩ := h.execution
  have hlt := (List.getElem?_eq_some_iff.1 hentry).1
  have hpos : ¬ ((entry.1 : Int) ≤ 0) := by omega
  unfold Gateway.appendText
  rw [if_pos hbound]
  by_cases hcomplete : g.handle.inputComplete = true
  · -- the input is complete, and the text is a known one
    have hout : g.handle.appendText ⟨entry.1, entry.2⟩ false =
        (.error (.protocol ⟨.inputAlreadyComplete, "input is complete"⟩), g.handle) := by
      unfold SessionHandle.appendText SessionHandle.ensureInputOpen
      rw [if_neg hpos, if_neg hnonempty, h.terminal, hcomplete]
      rfl
    have hall := (h.complete hcomplete).2
    rw [hout]
    refine ⟨h, ⟨fun _ _ => rfl, fun hb => hb, Nat.le_refl _, ?_, ?_⟩, ?_⟩
    · intro n hn
      simp at hn
    · intro acked closed hn
      simp at hn
    · show j + 1 ≤ g.accepted.length
      omega
  · have hopen : g.handle.ensureInputOpen = .ok e := by
      unfold SessionHandle.ensureInputOpen
      rw [h.terminal, Bool.eq_false_iff.2 hcomplete, he]
      rfl
    have hseq : (entry.1 : Int) = (j : Int) + 1 := by omega
    rcases Nat.lt_or_ge j g.accepted.length with hold | hnew
    · have hsame : g.accepted[j]? = some entry := by
        obtain ⟨rest, hrest⟩ := h.order
        rw [← hrest, List.getElem?_append_left hold] at hentry
        exact hentry
      have hout : g.handle.appendText ⟨entry.1, entry.2⟩ false = (.ok ⟨entry.1, true⟩, g.handle) := by
        unfold SessionHandle.appendText
        rw [if_neg hpos, if_neg hnonempty, hopen]
        dsimp only
        rw [hseq, h.known j entry hsame]
        dsimp only
        rw [if_neg (fun hne => hne rfl)]
      rw [hout]
      refine ⟨h, ⟨fun _ _ => rfl, fun hb => hb, Nat.le_refl _, ?_, ?_⟩, hold⟩
      · intro n hn
        simp at hn
        show n ≤ g.accepted.length
        omega
      · intro acked closed hn
        simp at hn
    · obtain rfl : j = g.accepted.length := Nat.le_antisymm hj hnew
      have hout : g.handle.appendText ⟨entry.1, entry.2⟩ false = (.ok ⟨entry.1, false⟩,
          { g.handle.recordText ⟨entry.1, entry.2⟩ with
            execution := some { e with pushed := e.pushed ++ [entry.2] } }) := by
        unfold SessionHandle.appendText
        rw [if_neg hpos, if_neg hnonempty, hopen]
        dsimp only
        rw [hseq, h.unknown _ (Nat.le_refl _)]
        dsimp only
        rw [if_neg (fun hne => hne h.nextSeq.symm)]
        rfl
      rw [hout]
      refine ⟨⟨⟨_, rfl⟩, h.terminal, ?_, ?_, ?_, ?_, fun hc => absurd hc hcomplete, h.unbuffered⟩,
        ⟨fun _ _ => rfl, fun hb => hb, ?_, ?_, ?_⟩, ?_⟩
      · simp [SessionHandle.recordText, h.nextSeq]
      · exact prefix_next h.order hentry
      · intro i p hp
        show Function.update g.handle.acceptedText entry.1 (some entry.2) _ = _
        change (g.accepted ++ [entry])[i]? = some p at hp
        rcases Nat.lt_or_ge i g.accepted.length with hi | hi
        · rw [Function.update_of_ne (by omega)]
          rw [List.getElem?_append_left hi] at hp
          exact h.known i p hp
        · rw [List.getElem?_append_right hi, List.getElem?_singleton] at hp
          split at hp
          · cases hp
            rw [show ((i : Int) + 1) = entry.1 by omega, Function.update_self]
          · cases hp
      · intro i hi
        show Function.update g.handle.acceptedText entry.1 (some entry.2) _ = _
        have hi' : g.accepted.length + 1 ≤ i := by simpa using hi
        rw [Function.update_of_ne (by omega)]
        exact h.unknown i (by omega)
      · show g.accepted.length ≤ (g.accepted ++ [entry]).length
        simp
      · intro n hn
        show n ≤ (g.accepted ++ [entry]).length
        simp at hn ⊢
        omega
      · intro acked closed hn
        simp at hn
      · show g.accepted.length + 1 ≤ (g.accepted ++ [entry]).length
        simp

/-- A commit behind the last text. -/
theorem Sound.commitText (h : g.Sound returned inputClosed) (hclosed : inputClosed = true)
    (hall : returned.length ≤ g.accepted.length) :
    (g.commitText c).2.Sound returned inputClosed ∧ g.Moves (g.commitText c).2 c (g.commitText c).1 ∧
      (g.commitText c).2.accepted = g.accepted := by
  obtain ⟨e, he⟩ := h.execution
  have hlen : g.accepted.length = returned.length := Nat.le_antisymm h.order.length_le hall
  unfold Gateway.commitText
  split
  · next hopen =>
    rw [Bool.and_eq_true, Bool.not_eq_true'] at hopen
    have hout : g.handle.completeInput ⟨g.handle.acceptedTextSeq⟩ false =
        (.ok ⟨g.handle.acceptedTextSeq, false⟩, { g.handle with
          inputComplete := true
          execution := some { e with completed := true } }) := by
      have hseq : ¬ (g.handle.acceptedTextSeq < 0) := by
        unfold SessionHandle.acceptedTextSeq
        rw [h.nextSeq]
        omega
      unfold SessionHandle.completeInput SessionHandle.ensureInputOpen
      rw [if_neg hseq, hopen.2, h.terminal, he]
      simp [SessionHandle.acceptedTextSeq, h.terminal]
    rw [hout]
    refine ⟨⟨⟨_, rfl⟩, h.terminal, h.nextSeq, h.order, h.known, h.unknown, fun _ => ⟨hclosed, hlen⟩,
      h.unbuffered⟩, ⟨fun _ _ => rfl, fun hb => hb, Nat.le_refl _, ?_, ?_⟩, rfl⟩
    · intro n hn
      cases hn
    · intro acked closed hn
      cases hn
  · refine ⟨h, ⟨fun _ _ => rfl, fun hb => hb, Nat.le_refl _, ?_, ?_⟩, rfl⟩
    · intro n hn
      cases hn
    · intro acked closed hn
      cases hn

/-- A connection resumes the response. -/
theorem Sound.resumeResponse (h : g.Sound returned inputClosed) (found : Bool) :
    (g.resumeResponse c found).2.Sound returned inputClosed ∧
      g.Moves (g.resumeResponse c found).2 c [(g.resumeResponse c found).1] := by
  unfold Gateway.resumeResponse
  split
  · refine ⟨h, ⟨fun _ _ => rfl, fun hb => hb, Nat.le_refl _, ?_, ?_⟩⟩
    · intro n hn
      simp at hn
    · intro acked closed hn
      simp at hn
  · refine ⟨⟨h.execution, h.terminal, h.nextSeq, h.order, h.known, h.unknown, h.complete,
      h.unbuffered⟩, ⟨fun c' hc' => Function.update_of_ne hc' _ _, fun _ => Function.update_self ..,
      Nat.le_refl _, ?_, ?_⟩⟩
    · intro n hn
      simp at hn
    · intro acked closed hn
      simp only [List.mem_singleton, ServerEvent.resumed.injEq] at hn
      refine ⟨Function.update_self .., ?_⟩
      rw [hn.1]
      unfold SessionHandle.acceptedTextSeq
      rw [h.nextSeq]
      show _ ≤ g.accepted.length
      omega

/-- More texts are returned. -/
theorem Sound.grow (h : g.Sound returned false) (entry : Entry) :
    g.Sound (returned ++ [entry]) false :=
  ⟨h.execution, h.terminal, h.nextSeq, h.order.trans (List.prefix_append _ _), h.known, h.unknown,
    fun hc => Bool.noConfusion (h.complete hc).1, h.unbuffered⟩

theorem Sound.close (h : g.Sound returned inputClosed) : g.Sound returned true :=
  ⟨h.execution, h.terminal, h.nextSeq, h.order, h.known, h.unknown, fun hc => ⟨rfl, (h.complete hc).2⟩,
    h.unbuffered⟩

end Gateway

/-! ## The invariant -/

namespace Input

/-- The texts that the gateway has accepted. -/
def count (s : Input) : Nat := s.gateway.accepted.length

/-- The frames on a socket are texts that follow what the gateway has accepted. -/
def Follows (s : Input) (c : Socket) : Prop :=
  ∃ j ≤ s.count, Feeds s.returned s.response.inputClosed j (s.toGateway c)

/-- They go up to the last text. -/
def Complete (s : Input) (c : Socket) : Prop :=
  ∃ j ≤ s.count, Feeds s.returned s.response.inputClosed j (s.toGateway c) ∧
    behind j (s.toGateway c) = s.returned.length

/-- What a socket carries. -/
structure Connection (s : Input) (c : Socket) : Prop where
  unbound : s.confirmed c = false → s.gateway.bound c = false →
    s.toGateway c = [] ∨ s.toGateway c = [.resume]
  unconfirmed : s.confirmed c = false → s.gateway.bound c = true → s.toGateway c = []
  confirmed : s.confirmed c = true →
    s.gateway.bound c = true ∧ s.ready c ≠ .connecting ∧ s.Follows c
  acks : ∀ n, .ack n ∈ s.toClient c → n ≤ s.count
  resumed : ∀ acked closed, .resumed acked closed ∈ s.toClient c →
    s.gateway.bound c = true ∧ acked ≤ s.count
  current : s.ready c ≠ .closed → s.socket = some c
  fresh : s.sockets ≤ c → s.confirmed c = false ∧ s.gateway.bound c = false ∧ s.toGateway c = []

/-- What is known of the client's socket at a stage of the recovery, and outside of one. -/
def AtStage (s : Input) : Option Stage → Prop
  | none => ∀ c, s.socket = some c → s.confirmed c = true ∧ (s.ready c = .opened → s.Complete c)
  | some (.sleeping _) => s.socket = none
  | some (.preparing _) =>
      ∀ c, s.socket = some c →
        c < s.sockets ∧ s.confirmed c = false ∧ s.gateway.bound c = false ∧ s.toGateway c = []
  | some (.resuming _) => ∀ c, s.socket = some c → s.confirmed c = false
  | some (.resumed _ acked _) =>
      acked ≤ s.count ∧ ∀ c, s.socket = some c → s.confirmed c = true ∧ s.toGateway c = []

/-- What holds as long as no call is made during a recovery. -/
structure Inv (s : Input) : Prop where
  connection : ∀ c, s.Connection c
  stage : s.AtStage s.recovery
  gateway : s.gateway.Sound s.returned s.response.inputClosed
  numbered : Numbered s.returned
  next : s.threw = [] → s.response.nextSequence = s.returned.length + 1
  past : s.returned.length < s.response.nextSequence
  journal : s.active = true →
    s.response.journal = s.returned.drop s.response.acceptedSequence ++ s.threw
  acceptedSequence : s.response.acceptedSequence ≤ s.count
  commitSent : s.response.commitSent = s.response.inputClosed
  ended : s.threw ≠ [] → s.socket = none ∧ s.recovery = none
  threw : ∀ p ∈ s.threw, s.returned.length < p.1
  early : s.early = []

theorem inv_init : Inv {} where
  connection c := by
    refine ⟨fun _ _ => .inl rfl, fun _ _ => rfl, ?_, ?_, ?_, ?_, ?_⟩
    · intro hc
      refine ⟨hc, ?_, 0, Nat.zero_le _, trivial⟩
      have hzero : c = 0 := by simpa using hc
      rw [hzero]
      decide
    · intro n hn
      cases hn
    · intro acked closed hn
      cases hn
    · intro hready
      by_cases hzero : c = 0
      · rw [hzero]
      · exact absurd (if_neg hzero) hready
    · intro hc
      have hzero : c ≠ 0 := Nat.ne_of_gt hc
      exact ⟨decide_eq_false hzero, decide_eq_false hzero, rfl⟩
  stage := by
    intro c hc
    cases hc
    exact ⟨rfl, fun _ => ⟨0, Nat.le_refl _, trivial, rfl⟩⟩
  gateway := by
    refine ⟨⟨_, rfl⟩, rfl, rfl, List.nil_prefix, ?_, fun _ _ => rfl, ?_, fun _ => rfl⟩
    · intro i p hp
      cases hp
    · intro hcomplete
      cases hcomplete
  numbered := by
    intro i p hp
    cases hp
  next _ := rfl
  past := by decide
  journal _ := rfl
  acceptedSequence := Nat.le_refl _
  commitSent := rfl
  ended h := absurd rfl h
  threw := by
    intro p hp
    cases hp
  early := rfl

section
variable {s s' : Input} {c : Socket}

/-- A step that leaves what is under way on a socket. -/
theorem Connection.keep (h : s.Connection c) (hconfirmed : s'.confirmed c = s.confirmed c)
    (hbound : s'.gateway.bound c = s.gateway.bound c) (hcount : s.count ≤ s'.count)
    (hframes : s'.toGateway c = s.toGateway c) (hevents : s'.toClient c = s.toClient c)
    (hfeeds : ∀ j fs, Feeds s.returned s.response.inputClosed j fs →
      Feeds s'.returned s'.response.inputClosed j fs)
    (hsockets : s.sockets ≤ s'.sockets) (hcurrent : s'.ready c ≠ .closed → s'.socket = some c)
    (hlives : s.confirmed c = true → s'.ready c ≠ .connecting) : s'.Connection c := by
  refine ⟨?_, ?_, ?_, ?_, ?_, hcurrent, ?_⟩
  · rw [hconfirmed, hbound, hframes]
    exact h.unbound
  · rw [hconfirmed, hbound, hframes]
    exact h.unconfirmed
  · rw [hconfirmed, hbound]
    intro hc
    obtain ⟨hb, -, j, hj, hfollows⟩ := h.confirmed hc
    refine ⟨hb, hlives hc, j, Nat.le_trans hj hcount, ?_⟩
    rw [hframes]
    exact hfeeds j _ hfollows
  · rw [hevents]
    exact fun n hn => Nat.le_trans (h.acks n hn) hcount
  · rw [hevents, hbound]
    exact fun acked closed hn => ⟨(h.resumed acked closed hn).1,
      Nat.le_trans (h.resumed acked closed hn).2 hcount⟩
  · rw [hconfirmed, hbound, hframes]
    exact fun hc => h.fresh (Nat.le_trans hsockets hc)

/-- A step that does nothing to the sockets. -/
theorem Connection.still (h : s.Connection c)
    (hsockets : s'.sockets = s.sockets ∧ s'.socket = s.socket ∧ s'.ready = s.ready)
    (hconfirmed : s'.confirmed c = s.confirmed c) (hgateway : s'.gateway = s.gateway)
    (hframes : s'.toGateway c = s.toGateway c) (hevents : s'.toClient c = s.toClient c)
    (hfeeds : ∀ j fs, Feeds s.returned s.response.inputClosed j fs →
      Feeds s'.returned s'.response.inputClosed j fs) : s'.Connection c := by
  obtain ⟨hnumber, hsocket, hready⟩ := hsockets
  refine h.keep hconfirmed (by rw [hgateway]) (Nat.le_of_eq (congrArg (·.accepted.length) hgateway.symm))
    hframes hevents hfeeds (Nat.le_of_eq hnumber.symm) ?_ ?_
  · rw [hready, hsocket]
    exact h.current
  · rw [hready]
    exact fun hyes => (h.confirmed hyes).2.1

/-- A step that writes to a socket that is confirmed. -/
theorem Connection.refill (h : s.Connection c) (hyes : s.confirmed c = true)
    (hconfirmed : s'.confirmed = s.confirmed) (hgateway : s'.gateway = s.gateway)
    (hevents : s'.toClient = s.toClient) (hready : s'.ready = s.ready) (hsocket : s'.socket = some c)
    (hsockets : s'.sockets = s.sockets) (hfollows : s'.Follows c) : s'.Connection c := by
  have hcount : s'.count = s.count := congrArg (·.accepted.length) hgateway
  have hno : ∀ {p : Prop}, s'.confirmed c = false → p := by
    intro p hno
    rw [hconfirmed, hyes] at hno
    cases hno
  refine ⟨hno, hno, ?_, ?_, ?_, fun _ => hsocket, ?_⟩
  · intro _
    rw [hgateway, hready]
    exact ⟨(h.confirmed hyes).1, (h.confirmed hyes).2.1, hfollows⟩
  · rw [hevents, hcount]
    exact h.acks
  · rw [hevents, hgateway, hcount]
    exact h.resumed
  · intro hle
    rw [hsockets] at hle
    exact hno (by rw [hconfirmed]; exact (h.fresh hle).1)

/-- Every socket but the client's is closed, and that one is closed by a step. -/
theorem Inv.shut (h : s.Inv) (c : Socket) :
    (s.socket.elim s.ready fun c => Function.update s.ready c .closed) c = .closed := by
  by_cases hready : s.ready c = .closed
  · cases hsocket : s.socket with
    | none => exact hready
    | some c' =>
        show Function.update s.ready c' .closed c = .closed
        by_cases hc : c = c'
        · rw [hc, Function.update_self]
        · rw [Function.update_of_ne hc]
          exact hready
  · rw [(h.connection c).current hready]
    exact Function.update_self ..

/-- A step behind which every socket is closed. -/
theorem Inv.allClosed (h : s.Inv) (hconfirmed : s'.confirmed = s.confirmed)
    (hgateway : s'.gateway = s.gateway) (hframes : s'.toGateway = s.toGateway)
    (hevents : s'.toClient = s.toClient) (hreturned : s'.returned = s.returned)
    (hresponse : s'.response = s.response) (hsockets : s'.sockets = s.sockets)
    (hready : ∀ c, s'.ready c = .closed) (c : Socket) : s'.Connection c := by
  have hcount : s'.count = s.count := congrArg (·.accepted.length) hgateway
  refine (h.connection c).keep (congrFun hconfirmed c) (by rw [hgateway]) (Nat.le_of_eq hcount.symm)
    (congrFun hframes c) (congrFun hevents c) ?_ (Nat.le_of_eq hsockets.symm) (absurd (hready c) ·) ?_
  · rw [hreturned, hresponse]
    exact fun _ _ hfeeds => hfeeds
  intro _ hconnecting
  rw [hready c] at hconnecting
  cases hconnecting

theorem Inv.attemptFails (h : s.Inv) (hthrew : s.threw = []) (attempts attempt : Nat) :
    (s.attemptFails attempts attempt).Inv := by
  unfold Input.attemptFails
  dsimp only
  split
  · exact ⟨h.allClosed rfl rfl rfl rfl rfl rfl rfl h.shut, rfl, h.gateway, h.numbered, h.next, h.past,
      h.journal, h.acceptedSequence, h.commitSent, fun hne => absurd hthrew hne, h.threw, h.early⟩
  · refine ⟨h.allClosed rfl rfl rfl rfl rfl rfl rfl h.shut, ?_, h.gateway, h.numbered, h.next, h.past,
      ?_, h.acceptedSequence, h.commitSent, fun hne => absurd hthrew hne, h.threw, h.early⟩
    · intro c hc
      cases hc
    · intro hactive
      cases hactive

/-- No text has thrown during a recovery. -/
theorem Inv.threw_nil (h : s.Inv) {stage : Stage} (hstage : s.recovery = some stage) :
    s.threw = [] := by
  by_contra hne
  rw [(h.ended hne).2] at hstage
  cases hstage

/-- No text has thrown while the client has a socket. -/
theorem Inv.threw_socket (h : s.Inv) (hsocket : s.socket = some c) : s.threw = [] := by
  by_contra hne
  rw [(h.ended hne).1] at hsocket
  cases hsocket

theorem Inv.fails (h : s.Inv) (attempts : Nat) : (s.fails attempts).Inv := by
  unfold Input.fails
  split
  · next stage hstage => exact h.attemptFails (h.threw_nil hstage) attempts _
  · exact h

theorem Inv.closes (h : s.Inv) (attempts : Nat) (c : Socket) : (s.closes attempts c).Inv := by
  unfold Input.closes
  split
  · next hsocket =>
    have hthrew := h.threw_socket hsocket
    have hshut := h.shut
    rw [hsocket] at hshut
    dsimp only
    split
    · next hidle =>
      rw [Bool.and_eq_true, Option.isNone_iff_eq_none] at hidle
      split
      · exact ⟨h.allClosed rfl rfl rfl rfl rfl rfl rfl hshut, rfl, h.gateway, h.numbered, h.next,
          h.past, h.journal, h.acceptedSequence, h.commitSent, fun hne => absurd hthrew hne, h.threw,
          h.early⟩
      · refine ⟨h.allClosed rfl rfl rfl rfl rfl rfl rfl hshut, ?_, h.gateway, h.numbered, h.next,
          h.past, ?_, h.acceptedSequence, h.commitSent, fun hne => absurd hthrew hne, h.threw,
          h.early⟩
        · show AtStage _ s.recovery
          rw [hidle.2]
          intro c' hc'
          cases hc'
        · intro hactive
          cases hactive
    · refine ⟨h.allClosed rfl rfl rfl rfl rfl rfl rfl hshut, ?_, h.gateway, h.numbered, h.next,
        h.past, h.journal, h.acceptedSequence, h.commitSent, fun hne => absurd hthrew hne, h.threw,
        h.early⟩
      have hstage := h.stage
      show AtStage _ s.recovery
      cases hrecovery : s.recovery with
      | none =>
          intro c' hc'
          cases hc'
      | some stage =>
          rw [hrecovery] at hstage
          cases stage with
          | sleeping attempt => rfl
          | preparing attempt | resuming attempt =>
              intro c' hc'
              cases hc'
          | resumed attempt acked closed =>
              refine ⟨hstage.1, ?_⟩
              intro c' hc'
              cases hc'
  · exact h

theorem Inv.breaks (h : s.Inv) (c : Socket) (kept : Nat) : (s.breaks c kept).Inv := by
  have hother : ∀ c', c' ≠ c → (s.breaks c kept).ready c' = s.ready c' ∧
      (s.breaks c kept).toGateway c' = s.toGateway c' := fun c' hc' =>
    ⟨Function.update_of_ne hc' _ _, Function.update_of_ne hc' _ _⟩
  have hready : (s.breaks c kept).ready c = .closed := Function.update_self ..
  have hframes : (s.breaks c kept).toGateway c = (s.toGateway c).take kept := Function.update_self ..
  have hempty : s.toGateway c = [] → (s.breaks c kept).toGateway c = [] := by
    intro hnil
    rw [hframes, hnil, List.take_nil]
  refine ⟨?_, ?_, h.gateway, h.numbered, h.next, h.past, h.journal, h.acceptedSequence, h.commitSent,
    h.ended, h.threw, h.early⟩
  · intro c'
    have hc := h.connection c'
    by_cases hsame : c' = c
    · subst hsame
      refine ⟨?_, fun hno hb => hempty (hc.unconfirmed hno hb), ?_, hc.acks, hc.resumed,
        (absurd hready ·), fun hle => ⟨(hc.fresh hle).1, (hc.fresh hle).2.1, hempty (hc.fresh hle).2.2⟩⟩
      · intro hno hb
        rcases hc.unbound hno hb with hnil | hresume
        · exact .inl (hempty hnil)
        · rw [hframes, hresume]
          cases kept with
          | zero => exact .inl rfl
          | succ kept => exact .inr (List.take_of_length_le (Nat.le_add_left 1 kept))
      · intro hyes
        obtain ⟨hb, -, j, hj, hfeeds⟩ := hc.confirmed hyes
        refine ⟨hb, ?_, j, hj, ?_⟩
        · rw [hready]
          exact ReadyState.noConfusion
        · rw [hframes]
          exact hfeeds.take kept
    · obtain ⟨hready', hframes'⟩ := hother c' hsame
      refine hc.keep rfl rfl (Nat.le_refl _) hframes' rfl (fun _ _ hfeeds => hfeeds) (Nat.le_refl _)
        ?_ ?_
      · rw [hready']
        exact hc.current
      · rw [hready']
        exact fun hyes => (hc.confirmed hyes).2.1
  · have hstage := h.stage
    show AtStage _ s.recovery
    cases hrecovery : s.recovery with
    | none =>
        rw [hrecovery] at hstage
        intro c' hc'
        refine ⟨(hstage c' hc').1, ?_⟩
        intro hopened
        by_cases hsame : c' = c
        · rw [hsame, hready] at hopened
          cases hopened
        · obtain ⟨hready', hframes'⟩ := hother c' hsame
          rw [hready'] at hopened
          unfold Complete
          rw [hframes']
          exact (hstage c' hc').2 hopened
    | some stage =>
        rw [hrecovery] at hstage
        have hnil : ∀ c', s.toGateway c' = [] → (s.breaks c kept).toGateway c' = [] := by
          intro c' hc'
          by_cases hsame : c' = c
          · subst hsame
            exact hempty hc'
          · rw [(hother c' hsame).2]
            exact hc'
        cases stage with
        | sleeping attempt => exact hstage
        | preparing attempt =>
            intro c' hc'
            obtain ⟨hlt, hno, hb, hframes⟩ := hstage c' hc'
            exact ⟨hlt, hno, hb, hnil c' hframes⟩
        | resuming attempt => exact hstage
        | resumed attempt acked closed =>
            exact ⟨hstage.1, fun c' hc' => ⟨(hstage.2 c' hc').1, hnil c' (hstage.2 c' hc').2⟩⟩

theorem Inv.dials (h : s.Inv) : s.dials.Inv := by
  unfold Input.dials
  split
  · next attempt hsleeping =>
    have hstage := h.stage
    rw [hsleeping] at hstage
    have hnone : s.socket = none := hstage
    have hclosed : ∀ c, s.ready c = .closed := by
      intro c
      by_contra hready
      rw [(h.connection c).current hready] at hnone
      cases hnone
    have hfresh := (h.connection s.sockets).fresh (Nat.le_refl _)
    refine ⟨?_, ?_, h.gateway, h.numbered, h.next, h.past, h.journal, h.acceptedSequence, h.commitSent,
      fun hne => absurd (h.threw_nil hsleeping) hne, h.threw, h.early⟩
    · intro c
      refine (h.connection c).keep rfl rfl (Nat.le_refl _) rfl rfl (fun _ _ hfeeds => hfeeds)
        (Nat.le_succ _) ?_ ?_
      · intro hready
        by_cases hc : c = s.sockets
        · rw [hc]
        · exact absurd ((Function.update_of_ne hc _ _).trans (hclosed c)) hready
      · intro hyes hconnecting
        by_cases hc : c = s.sockets
        · rw [hc, hfresh.1] at hyes
          cases hyes
        · have hboth : ReadyState.closed = .connecting :=
            ((Function.update_of_ne hc _ _).trans (hclosed c)).symm.trans hconnecting
          cases hboth
    · intro c hc
      cases hc
      exact ⟨Nat.lt_succ_self _, hfresh⟩
  · exact h

theorem Inv.opens (h : s.Inv) (c : Socket) : (s.opens c).Inv := by
  unfold Input.opens
  split
  · next hconnecting =>
    have hsocket := (h.connection c).current (by rw [hconnecting]; exact ReadyState.noConfusion)
    have hno : s.confirmed c = false :=
      Bool.eq_false_iff.2 fun hyes => ((h.connection c).confirmed hyes).2.1 hconnecting
    have hother : ∀ c', c' ≠ c → Function.update s.ready c .opened c' = s.ready c' :=
      fun c' hc' => Function.update_of_ne hc' _ _
    refine ⟨?_, ?_, h.gateway, h.numbered, h.next, h.past, h.journal, h.acceptedSequence, h.commitSent,
      h.ended, h.threw, h.early⟩
    · intro c'
      refine (h.connection c').keep rfl rfl (Nat.le_refl _) rfl rfl (fun _ _ hfeeds => hfeeds)
        (Nat.le_refl _) ?_ ?_
      · intro hready
        by_cases hc : c' = c
        · rw [hc]
          exact hsocket
        · exact (h.connection c').current (by rw [← hother c' hc]; exact hready)
      · intro hyes hready
        by_cases hc : c' = c
        · rw [hc, hno] at hyes
          cases hyes
        · exact ((h.connection c').confirmed hyes).2.1 (by rw [← hother c' hc]; exact hready)
    · have hstage := h.stage
      show AtStage _ s.recovery
      cases hrecovery : s.recovery with
      | none =>
          rw [hrecovery] at hstage
          have hyes := (hstage c hsocket).1
          rw [hno] at hyes
          cases hyes
      | some stage =>
          rw [hrecovery] at hstage
          cases stage with
          | sleeping attempt | preparing attempt | resuming attempt | resumed attempt acked closed =>
              exact hstage
  · exact h

/-- A frame is written to the client's socket. -/
def written (s : Input) (c : Socket) (fs : List Frame) : Input :=
  { s with toGateway := Function.update s.toGateway c (s.toGateway c ++ fs) }

theorem written_frames (s : Input) (c : Socket) (fs : List Frame) :
    (s.written c fs).toGateway c = s.toGateway c ++ fs := Function.update_self ..

theorem written_other (s : Input) {c c' : Socket} (fs : List Frame) (hc : c' ≠ c) :
    (s.written c fs).toGateway c' = s.toGateway c' := Function.update_of_ne hc _ _

/-- What `send` does with the client's socket. -/
theorem send_confirmed {f : Frame} (hsocket : s.socket = some c)
    (hconfirmed : s.confirmed c = true) (hready : s.ready c ≠ .connecting) :
    s.send f = some (if s.ready c = .opened then s.written c [f] else s) := by
  unfold Input.send written
  rw [hsocket]
  dsimp only
  cases hstate : s.ready c with
  | connecting => exact absurd hstate hready
  | opened => simp [hconfirmed]
  | closed => simp

/-- A replay writes all of its frames. -/
theorem foldlM_send {fs : List Frame} (hsocket : s.socket = some c)
    (hconfirmed : s.confirmed c = true) (hready : s.ready c ≠ .connecting) :
    fs.foldlM send s = some (if s.ready c = .opened then s.written c fs else s) := by
  induction fs generalizing s with
  | nil =>
      unfold written
      rw [List.append_nil, Function.update_eq_self, ite_self]
      rfl
  | cons f fs ih =>
      rw [List.foldlM_cons, send_confirmed hsocket hconfirmed hready, Option.bind_eq_bind,
        Option.bind_some]
      by_cases hopened : s.ready c = .opened
      · have hrest := ih (s := s.written c [f]) hsocket hconfirmed hready
        rw [if_pos hopened, if_pos hopened, hrest]
        rw [if_pos (show (s.written c [f]).ready c = .opened from hopened)]
        unfold written
        dsimp only
        rw [Function.update_self, Function.update_idem, List.append_assoc, List.singleton_append]
      · rw [if_neg hopened, if_neg hopened, ih hsocket hconfirmed hready, if_neg hopened]

/-- The response behind an `append`. -/
def journaled (s : Input) (entry : Entry) : ActiveResponse :=
  { s.response with
    nextSequence := s.response.nextSequence + 1
    journal := s.response.journal ++ [entry] }

theorem Feeds.returned (hinput : s.response.inputClosed = false) (entry : Entry) (j : Nat)
    (fs : List Frame) (hfeeds : Feeds s.returned s.response.inputClosed j fs) :
    Feeds (s.returned ++ [entry]) s.response.inputClosed j fs := by
  rw [hinput] at hfeeds ⊢
  exact hfeeds.grow entry

/-- A text that is journaled while the client has no socket, and throws. -/
theorem Inv.appendThrows (h : s.Inv) (hquiet : s.recovery = none) (hsocket : s.socket = none)
    (text : String) :
    Inv { s with
      response := s.journaled (s.response.nextSequence, text)
      threw := s.threw ++ [(s.response.nextSequence, text)] } := by
  refine ⟨?_, ?_, h.gateway, h.numbered, ?_, Nat.lt_succ_of_lt h.past, ?_, h.acceptedSequence,
    h.commitSent, fun _ => ⟨hsocket, hquiet⟩, ?_, h.early⟩
  · intro c
    exact (h.connection c).still ⟨rfl, rfl, rfl⟩ rfl rfl rfl rfl (fun _ _ hfeeds => hfeeds)
  · show AtStage _ s.recovery
    rw [hquiet]
    intro c hc
    cases hsocket.symm.trans hc
  · intro hnil
    simp at hnil
  · intro hactive
    show s.response.journal ++ [_] = _
    rw [h.journal hactive, List.append_assoc]
    rfl
  · intro p hp
    rcases List.mem_append.1 hp with hp | hp
    · exact h.threw p hp
    · rw [List.mem_singleton.1 hp]
      exact h.past

/-- A text that is journaled and returned; the frames of the client's socket go up to it. -/
theorem Inv.appendReturns (h : s.Inv) (hquiet : s.recovery = none) (hsocket : s.socket = some c)
    (hinput : s.response.inputClosed = false) {text : String} (htext : text ≠ "")
    {frames : Socket → List Frame}
    (hother : ∀ c', c' ≠ c → frames c' = s.toGateway c')
    (hframes : ∃ j ≤ s.count,
      Feeds (s.returned ++ [(s.response.nextSequence, text)]) s.response.inputClosed j (frames c) ∧
        (s.ready c = .opened →
          behind j (frames c) = (s.returned ++ [(s.response.nextSequence, text)]).length)) :
    Inv { s with
      response := s.journaled (s.response.nextSequence, text)
      returned := s.returned ++ [(s.response.nextSequence, text)]
      toGateway := frames } := by
  have hthrew := h.threw_socket hsocket
  have hnext := h.next hthrew
  have hstage := h.stage
  rw [hquiet] at hstage
  have hconfirmed := (hstage c hsocket).1
  obtain ⟨j, hj, hfeeds, hend⟩ := hframes
  refine ⟨?_, ?_, ?_, ?_, ?_, ?_, ?_, h.acceptedSequence, h.commitSent, ?_, ?_, h.early⟩
  · intro c'
    by_cases hsame : c' = c
    · rw [hsame]
      exact (h.connection c).refill hconfirmed rfl rfl rfl rfl hsocket rfl ⟨j, hj, hfeeds⟩
    · exact (h.connection c').still ⟨rfl, rfl, rfl⟩ rfl rfl (hother c' hsame) rfl
        (Feeds.returned hinput _)
  · show AtStage _ s.recovery
    rw [hquiet]
    intro c' hc'
    cases hsocket.symm.trans hc'
    exact ⟨hconfirmed, fun hopened => ⟨j, hj, hfeeds, hend hopened⟩⟩
  · have hsound := h.gateway
    show s.gateway.Sound _ s.response.inputClosed
    rw [hinput] at hsound ⊢
    exact hsound.grow _
  · intro i p hp
    rcases Nat.lt_or_ge i s.returned.length with hi | hi
    · exact h.numbered i p ((List.getElem?_append_left hi).symm.trans hp)
    · have hp' := (List.getElem?_append_right hi).symm.trans hp
      rw [List.getElem?_singleton] at hp'
      split at hp'
      · cases hp'
        refine ⟨?_, htext⟩
        show s.response.nextSequence = i + 1
        omega
      · cases hp'
  · intro _
    show s.response.nextSequence + 1 = (s.returned ++ [_]).length + 1
    rw [hnext, List.length_append, List.length_singleton]
  · show (s.returned ++ [_]).length < s.response.nextSequence + 1
    rw [hnext, List.length_append, List.length_singleton]
    exact Nat.lt_succ_self _
  · intro hactive
    show s.response.journal ++ [_] = (s.returned ++ [_]).drop s.response.acceptedSequence ++ s.threw
    rw [h.journal hactive, hthrew, List.append_nil, List.append_nil, List.drop_append_of_le_length]
    exact Nat.le_trans h.acceptedSequence h.gateway.order.length_le
  · exact fun hne => absurd hthrew hne
  · show ∀ p ∈ s.threw, _
    rw [hthrew]
    intro p hp
    cases hp

theorem Inv.append (h : s.Inv) (hquiet : s.recovery = none) (text : String) : (s.append text).Inv := by
  unfold Input.append
  split
  · exact h
  · next hopen =>
    rw [not_or, Bool.not_eq_true] at hopen
    obtain ⟨hinput, htext⟩ := hopen
    have hstage := h.stage
    rw [hquiet] at hstage
    rcases Option.eq_none_or_eq_some s.socket with hsocket | ⟨c, hsocket⟩
    · have hsend : ({ s with response := s.journaled (s.response.nextSequence, text) } : Input).send
          (.append (s.response.nextSequence, text)) = none := by
        unfold Input.send
        rw [hsocket]
      unfold journaled at hsend
      dsimp only
      rw [hsend]
      exact h.appendThrows hquiet hsocket text
    · obtain ⟨hconfirmed, hcomplete⟩ := hstage c hsocket
      have hc := (h.connection c).confirmed hconfirmed
      have hsend := send_confirmed
        (s := { s with response := s.journaled (s.response.nextSequence, text) })
        (f := .append (s.response.nextSequence, text)) hsocket hconfirmed hc.2.1
      unfold journaled at hsend
      dsimp only
      rw [hsend]
      by_cases hopened : s.ready c = .opened
      · obtain ⟨j, hj, hfeeds, hend⟩ := hcomplete hopened
        have hgrown := Feeds.returned hinput (s.response.nextSequence, text) j _ hfeeds
        obtain ⟨hfeeds', hend'⟩ := hgrown.append (by rw [hend]; exact List.getElem?_concat_length)
        dsimp only
        rw [if_pos hopened]
        refine h.appendReturns hquiet hsocket hinput htext
          (fun c' hc' => written_other s [.append _] hc') ⟨j, hj, ?_⟩
        rw [written_frames]
        refine ⟨hfeeds', fun _ => hend'.trans ?_⟩
        rw [hend, List.length_append, List.length_singleton]
      · obtain ⟨j, hj, hfeeds⟩ := hc.2.2
        dsimp only
        rw [if_neg hopened]
        exact h.appendReturns hquiet hsocket hinput htext (fun _ _ => rfl)
          ⟨j, hj, Feeds.returned hinput _ j _ hfeeds, fun hat => absurd hat hopened⟩

/-- The client's socket has every text, and no recovery is under way. -/
theorem Inv.settled (h : s.Inv) (hover : s.threw ≠ [] → s.socket = none)
    {frames : Socket → List Frame} (hother : ∀ c, s.socket ≠ some c → frames c = s.toGateway c)
    (hframes : ∀ c, s.socket = some c → s.confirmed c = true ∧ ∃ j ≤ s.count,
      Feeds s.returned s.response.inputClosed j (frames c) ∧
        (s.ready c = .opened → behind j (frames c) = s.returned.length)) :
    Inv { s with recovery := none, toGateway := frames } := by
  refine ⟨?_, ?_, h.gateway, h.numbered, h.next, h.past, h.journal, h.acceptedSequence, h.commitSent,
    fun hne => ⟨hover hne, rfl⟩, h.threw, h.early⟩
  · intro c
    have hc := h.connection c
    by_cases hsocket : s.socket = some c
    · obtain ⟨hconfirmed, j, hj, hfeeds, -⟩ := hframes c hsocket
      exact hc.refill hconfirmed rfl rfl rfl rfl hsocket rfl ⟨j, hj, hfeeds⟩
    · exact hc.still ⟨rfl, rfl, rfl⟩ rfl rfl (hother c hsocket) rfl (fun _ _ hfeeds => hfeeds)
  · intro c hc
    obtain ⟨hconfirmed, j, hj, hfeeds, hend⟩ := hframes c hc
    exact ⟨hconfirmed, fun hopened => ⟨j, hj, hfeeds, hend hopened⟩⟩

/-- The input is closed. -/
theorem Inv.inputCloses (h : s.Inv) :
    Inv { s with response := { s.response with inputClosed := true, commitSent := true } } := by
  refine ⟨?_, ?_, h.gateway.close, h.numbered, h.next, h.past, h.journal, h.acceptedSequence, rfl, h.ended,
    h.threw, h.early⟩
  · intro c
    exact (h.connection c).still ⟨rfl, rfl, rfl⟩ rfl rfl rfl rfl (fun _ _ hfeeds => hfeeds.close)
  · have hstage := h.stage
    show AtStage _ s.recovery
    cases hrecovery : s.recovery with
    | none =>
        rw [hrecovery] at hstage
        intro c hc
        refine ⟨(hstage c hc).1, ?_⟩
        intro hopened
        obtain ⟨j, hj, hfeeds, hend⟩ := (hstage c hc).2 hopened
        exact ⟨j, hj, hfeeds.close, hend⟩
    | some stage =>
        rw [hrecovery] at hstage
        cases stage with
        | sleeping attempt | preparing attempt | resuming attempt | resumed attempt acked closed =>
            exact hstage

theorem Inv.commit (h : s.Inv) (hquiet : s.recovery = none) : s.commit.Inv := by
  unfold Input.commit
  split
  · exact h
  · generalize hclosed : ({ s with
      response := { s.response with inputClosed := true, commitSent := true } } : Input) = closed
    have hinv : closed.Inv := hclosed ▸ h.inputCloses
    have hrecovery : closed.recovery = none := hclosed ▸ hquiet
    have hinput : closed.response.inputClosed = true := by rw [← hclosed]
    have hstage := hinv.stage
    rw [hrecovery] at hstage
    dsimp only
    rcases Option.eq_none_or_eq_some closed.socket with hsocket | ⟨c, hsocket⟩
    · have hsend : closed.send .commit = none := by
        unfold Input.send
        rw [hsocket]
      rw [hsend]
      exact hinv
    · obtain ⟨hconfirmed, hcomplete⟩ := hstage c hsocket
      have hc := (hinv.connection c).confirmed hconfirmed
      rw [send_confirmed hsocket hconfirmed hc.2.1, Option.getD_some]
      by_cases hopened : closed.ready c = .opened
      · obtain ⟨j, hj, hfeeds, hend⟩ := hcomplete hopened
        rw [if_pos hopened]
        obtain ⟨hfeeds', hend'⟩ := hfeeds.commit hend
        have hwritten : Inv { closed.written c [.commit] with recovery := none } := by
          refine hinv.settled (fun hne => (hinv.ended hne).1)
            (fun c' hc' => written_other closed _ fun hsame => hc' (hsame ▸ hsocket)) ?_
          intro c' hc'
          cases hsocket.symm.trans hc'
          refine ⟨hconfirmed, j, hj, ?_⟩
          rw [written_frames, hinput]
          exact ⟨hfeeds', fun _ => hend'⟩
        rw [← hrecovery] at hwritten
        exact hwritten
      · rw [if_neg hopened]
        exact hinv

/-- What `send` makes of the frame that resumes. -/
theorem send_resume {sent : Input} (hsend : s.send .resume = some sent) :
    sent = s ∨ ∃ c, s.socket = some c ∧ sent = s.written c [.resume] := by
  unfold Input.send at hsend
  split at hsend
  · cases hsend
  · next c hsocket =>
    split at hsend
    · cases hsend
    · cases hsend
      exact .inl rfl
    · cases hsend
      refine .inr ⟨c, hsocket, ?_⟩
      unfold written
      simp

theorem Inv.updated (h : s.Inv) (attempts : Nat) : (s.updated attempts).Inv := by
  unfold Input.updated
  split
  · next attempt hpreparing =>
    have hthrew := h.threw_nil hpreparing
    have hstage := h.stage
    rw [hpreparing] at hstage
    split
    · next sent _ hsend =>
      rcases send_resume hsend with rfl | ⟨c, hsocket, rfl⟩
      · exact ⟨fun c => (h.connection c).still ⟨rfl, rfl, rfl⟩ rfl rfl rfl rfl (fun _ _ hfeeds => hfeeds),
          fun c hc => (hstage c hc).2.1, h.gateway, h.numbered, h.next, h.past, h.journal,
          h.acceptedSequence, h.commitSent, fun hne => absurd hthrew hne, h.threw, h.early⟩
      · obtain ⟨hlt, hno, hb, hnil⟩ := hstage c hsocket
        refine ⟨?_, fun c hc => (hstage c hc).2.1, h.gateway, h.numbered, h.next, h.past, h.journal,
          h.acceptedSequence, h.commitSent, fun hne => absurd hthrew hne, h.threw, h.early⟩
        intro c'
        have hc := h.connection c'
        by_cases hsame : c' = c
        · subst hsame
          refine ⟨?_, ?_, ?_, hc.acks, hc.resumed, hc.current, fun hle => absurd hlt (Nat.not_lt.2 hle)⟩
          · intro _ _
            refine .inr ?_
            show (s.written c' [.resume]).toGateway c' = _
            rw [written_frames, hnil]
            rfl
          · intro _ hyes
            cases hb.symm.trans hyes
          · intro hyes
            cases hno.symm.trans hyes
        · exact hc.still ⟨rfl, rfl, rfl⟩ rfl rfl (written_other s _ hsame) rfl (fun _ _ hfeeds => hfeeds)
    · exact h.attemptFails hthrew attempts attempt
  · exact h

/-- The frames of a replay. -/
theorem feeds_replay {returned : List Entry} (inputClosed : Bool) (rest : List Entry) {j : Nat}
    (hrest : returned.drop j = rest) (hj : j ≤ returned.length) :
    Feeds returned inputClosed j (rest.map .append) ∧
      behind j (rest.map .append) = returned.length := by
  induction rest generalizing j with
  | nil => exact ⟨trivial, Nat.le_antisymm hj (List.drop_eq_nil_iff.1 hrest)⟩
  | cons entry rest ih =>
      have hlt : j < returned.length := by
        by_contra hge
        rw [List.drop_eq_nil_of_le (Nat.le_of_not_lt hge)] at hrest
        cases hrest
      rw [List.drop_eq_getElem_cons hlt] at hrest
      obtain ⟨hentry, hrest'⟩ := List.cons.inj hrest
      obtain ⟨hfeeds, hend⟩ := ih hrest' hlt
      refine ⟨⟨?_, hfeeds⟩, hend⟩
      rw [List.getElem?_eq_getElem hlt, hentry]

/-- The journal behind an acknowledgement. -/
theorem filter_journal {returned threw : List Entry} (hnumbered : Numbered returned)
    (hthrew : ∀ p ∈ threw, returned.length < p.1) {a n : Nat} (ha : a ≤ n) (hn : n ≤ returned.length) :
    (returned.drop a ++ threw).filter (fun entry => n < entry.1) = returned.drop n ++ threw := by
  have hsplit : returned.drop a = (returned.drop a).take (n - a) ++ returned.drop n := by
    conv_lhs => rw [← List.take_append_drop (n - a) (returned.drop a)]
    rw [List.drop_drop, Nat.add_sub_cancel' ha]
  rw [List.filter_append, hsplit, List.filter_append]
  have hacked : ((returned.drop a).take (n - a)).filter (fun entry => n < entry.1) = [] := by
    rw [List.filter_eq_nil_iff]
    intro p hp
    obtain ⟨i, hi⟩ := List.mem_iff_getElem?.1 hp
    rw [List.getElem?_take] at hi
    split at hi
    · next hlt =>
      rw [List.getElem?_drop] at hi
      have hnumber := (hnumbered _ p hi).1
      simp only [decide_eq_true_eq]
      omega
    · cases hi
  have hkept : (returned.drop n).filter (fun entry => n < entry.1) = returned.drop n := by
    rw [List.filter_eq_self]
    intro p hp
    obtain ⟨i, hi⟩ := List.mem_iff_getElem?.1 hp
    rw [List.getElem?_drop] at hi
    have hnumber := (hnumbered _ p hi).1
    simp only [decide_eq_true_eq]
    omega
  have hlater : threw.filter (fun entry => n < entry.1) = threw := by
    rw [List.filter_eq_self]
    intro p hp
    exact decide_eq_true (Nat.lt_of_le_of_lt hn (hthrew p hp))
  rw [hacked, hkept, hlater, List.nil_append]

/-- A sequence number that the gateway has accepted is acknowledged. -/
theorem Inv.accept (h : s.Inv) {n : Nat} (hn : n ≤ s.count) {response : ActiveResponse}
    (haccept : s.response.acceptSequence n = some response) :
    Inv { s with response := response } ∧ (s.active = true → s.threw = [] →
      response.journal = s.returned.drop n) := by
  unfold ActiveResponse.acceptSequence at haccept
  split at haccept
  · cases haccept
  · next hrange =>
    cases haccept
    have hle : s.response.acceptedSequence ≤ n := Nat.le_of_not_lt fun hlt => hrange (.inl hlt)
    have hall : n ≤ s.returned.length := Nat.le_trans hn h.gateway.order.length_le
    have hjournal : s.active = true →
        s.response.journal.filter (fun entry => n < entry.1) = s.returned.drop n ++ s.threw := by
      intro hactive
      rw [h.journal hactive]
      exact filter_journal h.numbered h.threw hle hall
    refine ⟨⟨?_, h.stage, h.gateway, h.numbered, h.next, h.past, hjournal, hn, h.commitSent, h.ended,
      h.threw, h.early⟩, ?_⟩
    · intro c
      exact (h.connection c).still ⟨rfl, rfl, rfl⟩ rfl rfl rfl rfl (fun _ _ hfeeds => hfeeds)
    · intro hactive hthrew
      show s.response.journal.filter _ = _
      rw [hjournal hactive, hthrew, List.append_nil]

theorem Inv.resumes (h : s.Inv) (attempts : Nat) : (s.resumes attempts).Inv := by
  unfold Input.resumes
  split
  · next attempt acked closed hresumed =>
    have hthrew := h.threw_nil hresumed
    have hstage := h.stage
    rw [hresumed] at hstage
    obtain ⟨hacked, hempty⟩ := hstage
    split
    · next response hactive haccept =>
      obtain ⟨hinv, hjournal⟩ := h.accept hacked haccept
      dsimp only
      split
      · next sent hsent =>
        generalize hframes : response.journal.map Frame.append ++
          (if (response.commitSent && !closed) = true then [Frame.commit] else []) = frames at hsent
        have hreplay : Feeds s.returned response.inputClosed acked frames ∧
            behind acked frames = s.returned.length := by
          obtain ⟨hfeeds, hend⟩ := feeds_replay response.inputClosed _ rfl
            (Nat.le_trans hacked h.gateway.order.length_le)
          rw [← hframes, hjournal hactive hthrew]
          split
          · next hcommit =>
            rw [Bool.and_eq_true] at hcommit
            have hinput : response.inputClosed = true := hinv.commitSent.symm.trans hcommit.1
            rw [hinput] at hfeeds ⊢
            exact hfeeds.commit hend
          · rw [List.append_nil]
            exact ⟨hfeeds, hend⟩
        rcases Option.eq_none_or_eq_some s.socket with hsocket | ⟨c, hsocket⟩
        · -- the socket has been lost, and there is nothing to replay
          cases frames with
          | nil =>
              cases hsent
              refine hinv.settled (fun _ => hsocket) (fun _ _ => rfl) ?_
              intro c hc
              cases hsocket.symm.trans hc
          | cons f frames =>
              have hsend : ({ s with response := response } : Input).send f = none := by
                unfold Input.send
                rw [hsocket]
              rw [List.foldlM_cons, hsend] at hsent
              cases hsent
        · obtain ⟨hconfirmed, hnil⟩ := hempty c hsocket
          have hready := ((h.connection c).confirmed hconfirmed).2.1
          rw [foldlM_send (s := { s with response := response }) hsocket hconfirmed hready] at hsent
          by_cases hopened : s.ready c = .opened
          · rw [if_pos hopened] at hsent
            cases hsent
            refine hinv.settled (fun hne => absurd hthrew hne)
              (fun c' hc' => written_other s frames fun hsame => hc' (hsame ▸ hsocket)) ?_
            intro c' hc'
            cases hsocket.symm.trans hc'
            refine ⟨hconfirmed, acked, hacked, ?_⟩
            rw [written_frames]
            dsimp only
            rw [hnil, List.nil_append]
            exact ⟨hreplay.1, fun _ => hreplay.2⟩
          · rw [if_neg hopened] at hsent
            cases hsent
            refine hinv.settled (fun hne => absurd hthrew hne) (fun _ _ => rfl) ?_
            intro c' hc'
            cases hsocket.symm.trans hc'
            refine ⟨hconfirmed, acked, hacked, ?_⟩
            dsimp only
            rw [hnil]
            exact ⟨trivial, fun hat => absurd hat hopened⟩
      · exact hinv.attemptFails hthrew attempts attempt
    · exact h.attemptFails hthrew attempts attempt
  · exact h

/-- The next message of the client's socket is handled. -/
theorem Inv.receive (h : s.Inv) (hsocket : s.socket = some c) (hready : s.ready c = .opened)
    {m : ServerEvent} (hacks : ∀ n, m = .ack n → n ≤ s.count)
    (hresumed : ∀ acked closed, m = .resumed acked closed → s.gateway.bound c = true ∧ acked ≤ s.count) :
    (s.receive c m).Inv := by
  cases m with
  | ack n =>
      unfold Input.receive
      dsimp only
      split
      · cases haccept : s.response.acceptSequence n with
        | none => exact h
        | some response => exact (h.accept (hacks n rfl) haccept).1
      · exact h
  | error =>
      refine ⟨fun c => (h.connection c).still ⟨rfl, rfl, rfl⟩ rfl rfl rfl rfl (fun _ _ hfeeds => hfeeds),
        h.stage, h.gateway, h.numbered, h.next, h.past, ?_, h.acceptedSequence, h.commitSent, h.ended,
        h.threw, h.early⟩
      intro hactive
      cases hactive
  | resumed acked closed =>
      obtain ⟨hbound, hacked⟩ := hresumed acked closed rfl
      have hc := h.connection c
      have hyes : Function.update s.confirmed c true c = true := Function.update_self ..
      have hstage := h.stage
      refine ⟨?_, ?_, h.gateway, h.numbered, h.next, h.past, h.journal, h.acceptedSequence, h.commitSent,
        ?_, h.threw, h.early⟩
      · intro c'
        by_cases hsame : c' = c
        · subst hsame
          have hno : ∀ {p : Prop}, Function.update s.confirmed c' true c' = false → p := by
            intro p hno
            cases hyes.symm.trans hno
          refine ⟨hno, hno, ?_, hc.acks, hc.resumed, hc.current, ?_⟩
          · intro _
            refine ⟨hbound, ?_, ?_⟩
            · show s.ready c' ≠ .connecting
              rw [hready]
              exact ReadyState.noConfusion
            · cases hwas : s.confirmed c' with
              | true => exact (hc.confirmed hwas).2.2
              | false =>
                  refine ⟨0, Nat.zero_le _, ?_⟩
                  show Feeds _ _ 0 (s.toGateway c')
                  rw [hc.unconfirmed hwas hbound]
                  trivial
          · intro hle
            cases hbound.symm.trans (hc.fresh hle).2.1
        · exact (h.connection c').still ⟨rfl, rfl, rfl⟩ (Function.update_of_ne hsame _ _) rfl rfl rfl
            (fun _ _ hfeeds => hfeeds)
      · show AtStage _ (s.recovery.map _)
        cases hrecovery : s.recovery with
        | none =>
            rw [hrecovery] at hstage
            intro c' hc'
            cases hsocket.symm.trans hc'
            exact ⟨hyes, (hstage c hsocket).2⟩
        | some stage =>
            rw [hrecovery] at hstage
            cases stage with
            | sleeping attempt => cases hsocket.symm.trans hstage
            | preparing attempt => cases hbound.symm.trans (hstage c hsocket).2.2.1
            | resuming attempt =>
                refine ⟨hacked, ?_⟩
                intro c' hc'
                cases hsocket.symm.trans hc'
                exact ⟨hyes, hc.unconfirmed (hstage c hsocket) hbound⟩
            | resumed attempt acked' closed' =>
                refine ⟨hstage.1, ?_⟩
                intro c' hc'
                cases hsocket.symm.trans hc'
                exact ⟨hyes, (hstage.2 c hsocket).2⟩
      · exact fun hne => absurd (h.threw_socket hsocket) hne

theorem Inv.receives (h : s.Inv) (c : Socket) : (s.receives c).Inv := by
  unfold Input.receives
  split
  · next hready =>
    have hc := h.connection c
    have hsocket := hc.current (by rw [hready]; exact ReadyState.noConfusion)
    split
    · exact h
    · next m rest hevents =>
      have hmem : ∀ {m'}, m' ∈ m :: rest → m' ∈ s.toClient c := by
        intro m' hm
        rw [hevents]
        exact hm
      have hpopped : Inv { s with toClient := Function.update s.toClient c rest } := by
        refine ⟨?_, h.stage, h.gateway, h.numbered, h.next, h.past, h.journal, h.acceptedSequence,
          h.commitSent, h.ended, h.threw, h.early⟩
        intro c'
        by_cases hsame : c' = c
        · subst hsame
          have hrest : Function.update s.toClient c' rest c' = rest := Function.update_self ..
          refine ⟨hc.unbound, hc.unconfirmed, hc.confirmed, ?_, ?_, hc.current, hc.fresh⟩
          · intro n hn
            dsimp only at hn
            rw [hrest] at hn
            exact hc.acks n (hmem (List.mem_cons_of_mem _ hn))
          · intro acked closed hn
            dsimp only at hn
            rw [hrest] at hn
            exact hc.resumed acked closed (hmem (List.mem_cons_of_mem _ hn))
        · exact (h.connection c').still ⟨rfl, rfl, rfl⟩ rfl rfl rfl (Function.update_of_ne hsame _ _)
            (fun _ _ hfeeds => hfeeds)
      refine hpopped.receive hsocket hready ?_ ?_
      · rintro n rfl
        exact hc.acks n (hmem List.mem_cons_self)
      · rintro acked closed rfl
        exact hc.resumed acked closed (hmem List.mem_cons_self)
  · exact h

/-- What the gateway makes of the next frame of a connection. -/
theorem Inv.handleFrame (h : s.Inv) {f : Frame} {rest : List Frame} (hframes : s.toGateway c = f :: rest)
    (found : Bool) :
    (s.gateway.handleFrame c found f).2.Sound s.returned s.response.inputClosed ∧
      s.gateway.Moves (s.gateway.handleFrame c found f).2 c (s.gateway.handleFrame c found f).1 ∧
      (s.confirmed c = false → rest = []) ∧
      ∀ j ≤ s.count, Feeds s.returned s.response.inputClosed j (f :: rest) →
        ∃ j' ≤ (s.gateway.handleFrame c found f).2.accepted.length,
          Feeds s.returned s.response.inputClosed j' rest ∧ behind j' rest = behind j (f :: rest) := by
  have hc := h.connection c
  cases hconfirmed : s.confirmed c with
  | false =>
      cases hbound : s.gateway.bound c with
      | true =>
          have hnil := hc.unconfirmed hconfirmed hbound
          rw [hframes] at hnil
          cases hnil
      | false =>
          have hresume := hc.unbound hconfirmed hbound
          rw [hframes] at hresume
          rcases hresume with hnil | hresume
          · cases hnil
          · obtain ⟨rfl, rfl⟩ := List.cons.inj hresume
            obtain ⟨hsound, hmoves⟩ := h.gateway.resumeResponse (c := c) found
            exact ⟨hsound, hmoves, fun _ => rfl, fun j _ hfeeds => hfeeds.elim⟩
  | true =>
      obtain ⟨hbound, -, j, hj, hfeeds⟩ := hc.confirmed hconfirmed
      have hno : true = false → rest = [] := fun hno => absurd hno.symm Bool.false_ne_true
      rw [hframes] at hfeeds
      cases f with
      | append entry =>
          obtain ⟨hsound, hmoves, -⟩ := h.gateway.appendText h.numbered hbound hfeeds.1 hj
          refine ⟨hsound, hmoves, hno, ?_⟩
          intro j' hj' hfeeds'
          obtain ⟨-, -, hnext⟩ := h.gateway.appendText h.numbered hbound hfeeds'.1 hj'
          exact ⟨j' + 1, hnext, hfeeds'.2, rfl⟩
      | commit =>
          obtain ⟨⟨hclosed, rfl⟩, -⟩ := hfeeds
          obtain ⟨hsound, hmoves, hsame⟩ := h.gateway.commitText (c := c) hclosed hj
          refine ⟨hsound, hmoves, hno, ?_⟩
          intro j' hj' hfeeds'
          refine ⟨j', ?_, hfeeds'.2, rfl⟩
          show j' ≤ (s.gateway.commitText c).2.accepted.length
          rw [hsame]
          exact hj'
      | resume => exact hfeeds.elim

theorem Inv.serves (h : s.Inv) (c : Socket) (found : Bool) : (s.serves c found).Inv := by
  unfold Input.serves
  split
  · exact h
  · next f rest hframes =>
    obtain ⟨hsound, hmoves, hno, hrest⟩ := h.handleFrame hframes found
    dsimp only
    generalize s.gateway.handleFrame c found f = handled at hsound hmoves hrest
    have hc := h.connection c
    have hframes' : Function.update s.toGateway c rest c = rest := Function.update_self ..
    have hother : ∀ c', c' ≠ c → Function.update s.toGateway c rest c' = s.toGateway c' :=
      fun c' hc' => Function.update_of_ne hc' _ _
    have hne : s.toGateway c ≠ [] := by
      rw [hframes]
      exact List.cons_ne_nil _ _
    refine ⟨?_, ?_, hsound, h.numbered, h.next, h.past, h.journal,
      Nat.le_trans h.acceptedSequence hmoves.le, h.commitSent, h.ended, h.threw, h.early⟩
    · intro c'
      by_cases hsame : c' = c
      · subst hsame
        refine ⟨?_, ?_, ?_, ?_, ?_, hc.current, fun hle => absurd (hc.fresh hle).2.2 hne⟩
        · intro hconfirmed _
          exact .inl (hframes'.trans (hno hconfirmed))
        · intro hconfirmed _
          exact hframes'.trans (hno hconfirmed)
        · intro hconfirmed
          obtain ⟨hbound, hlives, j, hj, hfeeds⟩ := hc.confirmed hconfirmed
          rw [hframes] at hfeeds
          obtain ⟨j', hj', hfeeds', -⟩ := hrest j hj hfeeds
          refine ⟨hmoves.kept hbound, hlives, j', hj', ?_⟩
          dsimp only
          rw [hframes']
          exact hfeeds'
        · intro n hn
          dsimp only at hn
          rw [Function.update_self] at hn
          rcases List.mem_append.1 hn with hn | hn
          · exact Nat.le_trans (hc.acks n hn) hmoves.le
          · exact hmoves.acks n hn
        · intro acked closed hn
          dsimp only at hn
          rw [Function.update_self] at hn
          rcases List.mem_append.1 hn with hn | hn
          · obtain ⟨hbound, hle⟩ := hc.resumed acked closed hn
            exact ⟨hmoves.kept hbound, Nat.le_trans hle hmoves.le⟩
          · exact hmoves.resumed acked closed hn
      · exact (h.connection c').keep rfl (hmoves.bound c' hsame) hmoves.le (hother c' hsame)
          (Function.update_of_ne hsame _ _) (fun _ _ hfeeds => hfeeds) (Nat.le_refl _)
          (h.connection c').current fun hyes => ((h.connection c').confirmed hyes).2.1
    · have hstage := h.stage
      show AtStage _ s.recovery
      cases hrecovery : s.recovery with
      | none =>
          rw [hrecovery] at hstage
          intro c' hc'
          refine ⟨(hstage c' hc').1, ?_⟩
          intro hopened
          obtain ⟨j, hj, hfeeds, hend⟩ := (hstage c' hc').2 hopened
          by_cases hsame : c' = c
          · subst hsame
            rw [hframes] at hfeeds hend
            obtain ⟨j', hj', hfeeds', hend'⟩ := hrest j hj hfeeds
            refine ⟨j', hj', ?_⟩
            dsimp only
            rw [hframes']
            exact ⟨hfeeds', hend'.trans hend⟩
          · refine ⟨j, Nat.le_trans hj hmoves.le, ?_⟩
            dsimp only
            rw [hother c' hsame]
            exact ⟨hfeeds, hend⟩
      | some stage =>
          rw [hrecovery] at hstage
          cases stage with
          | sleeping attempt => exact hstage
          | preparing attempt =>
              intro c' hc'
              obtain ⟨hlt, hunconfirmed, hbound, hnil⟩ := hstage c' hc'
              have hsame : c' ≠ c := fun hsame => hne (hsame ▸ hnil)
              exact ⟨hlt, hunconfirmed, (hmoves.bound c' hsame).trans hbound, (hother c' hsame).trans hnil⟩
          | resuming attempt => exact hstage
          | resumed attempt acked closed =>
              refine ⟨Nat.le_trans hstage.1 hmoves.le, ?_⟩
              intro c' hc'
              obtain ⟨hconfirmed, hnil⟩ := hstage.2 c' hc'
              have hsame : c' ≠ c := fun hsame => hne (hsame ▸ hnil)
              exact ⟨hconfirmed, (hother c' hsame).trans hnil⟩

/-- The call of an event comes outside of a recovery. -/
def Quiet (s : Input) : Event → Prop
  | .append _ => s.recovery = none
  | .commit => s.recovery = none
  | _ => True

instance (s : Input) : (e : Event) → Decidable (s.Quiet e)
  | .append _ => inferInstanceAs (Decidable (s.recovery = none))
  | .commit => inferInstanceAs (Decidable (s.recovery = none))
  | .breaks .. | .closes .. | .receives .. | .dials | .opens .. | .updated | .resumes | .fails
  | .serves .. => .isTrue trivial

theorem Inv.step (attempts : Nat) (h : s.Inv) (e : Event) (hquiet : s.Quiet e) :
    (step attempts s e).Inv := by
  cases e with
  | append text => exact h.append hquiet text
  | commit => exact h.commit hquiet
  | breaks c kept => exact h.breaks c kept
  | closes c => exact h.closes attempts c
  | receives c => exact h.receives c
  | dials => exact h.dials
  | opens c => exact h.opens c
  | updated => exact h.updated attempts
  | resumes => exact h.resumes attempts
  | fails => exact h.fails attempts
  | serves c found => exact h.serves c found

/-- What becomes of the texts. The gateway has accepted the texts whose `append` returned in the order of
their numbers, each once, and none that threw; while the response is active the journal has the others, and
outside of a recovery they are under way on the client's socket, if it is open. No frame of the input was
written to a socket before its `qwen.response.resumed`, or handled for no response. -/
structure Kept (s : Input) : Prop where
  order : s.gateway.accepted <+: s.returned
  numbers : ∀ (i : Nat) (p : Entry), s.returned[i]? = some p → p.1 = i + 1
  threw : ∀ p ∈ s.threw, p ∉ s.gateway.accepted
  journaled : s.active = true → ∀ p ∈ s.returned.drop s.gateway.accepted.length, p ∈ s.response.journal
  underWay : s.recovery = none → ∀ c, s.socket = some c → s.ready c = .opened →
    ∀ p ∈ s.returned.drop s.gateway.accepted.length, .append p ∈ s.toGateway c
  early : s.early = []
  outside : ∀ c, s.gateway.buffer c = []

theorem Inv.kept (h : s.Inv) : s.Kept where
  order := h.gateway.order
  numbers i p hp := (h.numbered i p hp).1
  threw p hp hmem := by
    obtain ⟨i, hi⟩ := List.mem_iff_getElem?.1 (h.gateway.order.subset hmem)
    have hnumber := (h.numbered i p hi).1
    have hlt := (List.getElem?_eq_some_iff.1 hi).1
    have hpast := h.threw p hp
    omega
  journaled hactive p hp := by
    rw [h.journal hactive]
    exact List.mem_append_left _ (List.drop_subset_drop_left _ h.acceptedSequence hp)
  underWay hquiet c hsocket hopened p hp := by
    have hstage := h.stage
    rw [hquiet] at hstage
    obtain ⟨j, hj, hfeeds, hend⟩ := (hstage c hsocket).2 hopened
    obtain ⟨i, hi⟩ := List.mem_iff_getElem?.1 hp
    rw [List.getElem?_drop] at hi
    exact hfeeds.mem hend (Nat.le_trans hj (Nat.le_add_right _ i)) hi
  early := h.early
  outside := h.gateway.unbuffered

end

/-- A recovery of the first socket, up to the frame that resumes. -/
def recovering : List Event := [.append "a", .breaks 0 1, .closes 0, .dials, .opens 1, .updated]

/-- The replacement is resumed, and its frames are handled. -/
def resumed : List Event :=
  [.serves 0 true, .serves 1 true, .receives 1, .resumes, .serves 1 true]

end Input

end StreamingTts.Client.BrowserInput
