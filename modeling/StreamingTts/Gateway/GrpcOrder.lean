import StreamingTts.Gateway.GrpcStream

/-!
# A gRPC stream keeps the order of its output

What the coalescer does with the queue, what one `yield` does to the messages that are held, and the
invariant `Inv` of a stream whose parked task and drain do not cross (`Stream.InTurn`).
-/

namespace StreamingTts.Gateway

open Lib

namespace Grpc

/-! ## Coalescing -/

/-- The ends of the audio among some messages. -/
def sampleEnds (ms : List Message) : List Nat :=
  ms.filterMap fun
    | .audio chunk => some chunk.outputSampleEnd
    | .event _ => none

@[simp] theorem sampleEnds_nil : sampleEnds [] = [] := rfl

@[simp] theorem sampleEnds_audio (chunk : AudioChunk) (ms : List Message) :
    sampleEnds (.audio chunk :: ms) = chunk.outputSampleEnd :: sampleEnds ms := rfl

@[simp] theorem sampleEnds_event (e : StreamEvent) (ms : List Message) :
    sampleEnds (.event e :: ms) = sampleEnds ms := rfl

theorem sampleEnds_append (ms ns : List Message) :
    sampleEnds (ms ++ ns) = sampleEnds ms ++ sampleEnds ns := List.filterMap_append

/-- The last of some chunks behind a head that ends where the first of them does. -/
theorem getLastD_end {head head' : AudioChunk} (rest : List AudioChunk)
    (h : head'.outputSampleEnd = head.outputSampleEnd) :
    (rest.getLastD head').outputSampleEnd = (rest.getLastD head).outputSampleEnd := by
  cases rest with
  | nil => exact h
  | cons next rest => rw [List.getLastD_cons, List.getLastD_cons]

/-- A head with nothing behind it. -/
theorem merged_nil (head : AudioChunk) : merged head [] = head := by
  unfold merged
  simp

/-- A chunk that ends behind the head is absorbed. -/
theorem merged_absorb {head next : AudioChunk} (rest : List AudioChunk)
    (h : head.outputSampleEnd ≤ next.outputSampleEnd) :
    merged (absorb head next) rest = merged head (next :: rest) := by
  have hend : (absorb head next).outputSampleEnd = next.outputSampleEnd := Nat.max_eq_right h
  unfold merged
  rw [getLastD_end rest hend, List.getLastD_cons, List.flatMap_cons]
  unfold absorb
  simp only [List.append_assoc]

/-- The coalescer merges the chunks at the head of the queue and hands back the message behind them. -/
theorem coalesceQueuedAudio_spec (head : AudioChunk) (queue : List Message)
    (hends : (sampleEnds (.audio head :: queue)).Pairwise (· ≤ ·)) :
    ∃ rest, queue = rest.map .audio
        ++ ((coalesceQueuedAudio head queue).2.1.toList ++ (coalesceQueuedAudio head queue).2.2)
      ∧ (coalesceQueuedAudio head queue).1 = merged head rest := by
  induction queue generalizing head with
  | nil => exact ⟨[], rfl, (merged_nil _).symm⟩
  | cons message queue ih =>
      unfold coalesceQueuedAudio
      split
      · cases message with
        | event e => exact ⟨[], rfl, (merged_nil _).symm⟩
        | audio next =>
            dsimp only
            split
            · rw [sampleEnds_audio, sampleEnds_audio, List.pairwise_cons] at hends
              have hle : head.outputSampleEnd ≤ next.outputSampleEnd :=
                hends.1 _ List.mem_cons_self
              have hend : (absorb head next).outputSampleEnd = next.outputSampleEnd :=
                Nat.max_eq_right hle
              obtain ⟨rest, hqueue, hmerged⟩ := ih (absorb head next)
                (by rw [sampleEnds_audio, hend]; exact hends.2)
              refine ⟨next :: rest, ?_, ?_⟩
              · exact congrArg (Message.audio next :: ·) hqueue
              · rw [hmerged, merged_absorb rest hle]
            · exact ⟨[], rfl, (merged_nil _).symm⟩
      · exact ⟨[], rfl, (merged_nil _).symm⟩

/-- Merging keeps the data. -/
theorem Coalesced.pcmData {ms ys : List Message} (h : Coalesced ms ys) :
    ys.flatMap (·.pcmData) = ms.flatMap (·.pcmData) := by
  induction h with
  | nil => rfl
  | event e _ ih => rw [List.flatMap_append, List.flatMap_append, ih]
  | audio head rest _ ih =>
      rw [List.flatMap_append, List.flatMap_append, ih, List.flatMap_cons, List.flatMap_nil,
        List.append_nil, List.flatMap_cons, List.flatMap_map]
      rfl

/-! ## The invariant -/

namespace Stream

/-- The last response is the only terminal. -/
def EndsWithTerminal (ms : List Message) : Prop :=
  ∃ init last, ms = init ++ [last] ∧ isDoneResponse last = true ∧ ∀ m ∈ init, isDoneResponse m = false

/-- The invariant of a stream. -/
structure Inv (s : Stream) : Prop where
  order : ∃ taken, taken ++ s.held = s.puts ∧ Coalesced taken s.forwarded
  ends : (sampleEnds s.puts).Pairwise (· ≤ ·)
  cursor : ∀ e ∈ sampleEnds s.puts, e ≤ s.cursor
  /-- the flush has taken the message of the parked task -/
  flushing : ∀ leftover request, s.phase = .flushing leftover request → s.parked = none
  /-- before the start nothing is put -/
  idle : s.started = false → s.parked = none ∧ (s.callable = false → s.queue = [] ∧ s.phase.pending = [])
  /-- behind a cancellation the handler drains and leaves -/
  cancelled : s.gotCancel = true → s.phase = .ended ∨ ∃ pending, s.phase = .draining pending
  eof : s.gotCancel = true → s.inputEof = true
  running : s.phase ≠ .ended → s.own = [] ∧ ∀ m ∈ s.forwarded, isDoneResponse m = false
  ended : s.phase = .ended →
    (s.own = [] ∧ EndsWithTerminal s.forwarded)
      ∨ (s.own = [streamEnded] ∧ s.held = [] ∧ ∀ m ∈ s.forwarded, isDoneResponse m = false)

/-- The invariant holds of a new stream. -/
theorem new_inv : Inv new where
  order := ⟨[], rfl, .nil⟩
  ends := .nil
  cursor := fun _ he => nomatch he
  flushing := fun _ _ h => nomatch h
  idle := fun _ => ⟨rfl, fun _ => ⟨rfl, rfl⟩⟩
  cancelled := fun h => nomatch h
  eof := fun h => nomatch h
  running := fun _ => ⟨rfl, fun _ hm => nomatch hm⟩
  ended := fun h => nomatch h

variable {s : Stream}

/-- The invariant says that the output is in order. -/
theorem Inv.inOrder (h : Inv s) : s.InOrder := by
  obtain ⟨taken, hsplit, hcoalesced⟩ := h.order
  refine ⟨⟨taken, hsplit, hcoalesced, hcoalesced.pcmData⟩, ?_, ?_⟩
  · intro m hm
    by_cases hphase : s.phase = .ended
    · rcases h.ended hphase with ⟨hown, init, last, hforwarded, -, hinit⟩ | ⟨hown, -, hforwarded⟩
      · unfold yielded at hm
        rw [hown, List.append_nil, hforwarded, List.dropLast_concat] at hm
        exact hinit m hm
      · unfold yielded at hm
        rw [hown, List.dropLast_concat] at hm
        exact hforwarded m hm
    · obtain ⟨hown, hforwarded⟩ := h.running hphase
      unfold yielded at hm
      rw [hown, List.append_nil] at hm
      exact hforwarded m (List.dropLast_subset _ hm)
  · intro hphase
    rcases h.ended hphase with ⟨-, init, last, hforwarded, hlast, -⟩ | ⟨-, hheld, -⟩
    · refine .inr ⟨last, ?_, hlast⟩
      rw [hforwarded]
      exact List.getLast?_concat
    · exact .inl hheld

/-! ## What the handler does between two waits -/

/-- The handler runs with some messages in its hand. -/
structure Running (s : Stream) (hand : List Message) : Prop where
  order : ∃ taken, taken ++ (hand ++ s.parkedMessage ++ s.queue) = s.puts ∧ Coalesced taken s.forwarded
  ends : (sampleEnds s.puts).Pairwise (· ≤ ·)
  cursor : ∀ e ∈ sampleEnds s.puts, e ≤ s.cursor
  idle : s.started = false → s.parked = none ∧ s.queue = [] ∧ hand = []
  eof : s.gotCancel = true → s.inputEof = true
  own : s.own = []
  forwarded : ∀ m ∈ s.forwarded, isDoneResponse m = false

/-- The handler leaves its loop with empty hands. -/
theorem Running.leave (h : Running s []) (hparked : s.parkedMessage = []) (hqueue : s.queue = []) :
    Inv s.leave where
  order := h.order
  ends := h.ends
  cursor := h.cursor
  flushing := fun _ _ hphase => nomatch hphase
  idle := fun hstarted => ⟨(h.idle hstarted).1, fun _ => ⟨hqueue, rfl⟩⟩
  cancelled := fun _ => .inl rfl
  eof := h.eof
  running := fun hphase => absurd rfl hphase
  ended := by
    intro _
    refine .inr ⟨?_, ?_, h.forwarded⟩
    · show s.own ++ [streamEnded] = _
      rw [h.own]
      rfl
    · show [] ++ s.parkedMessage ++ s.queue = []
      rw [hparked, hqueue]
      rfl

/-- A get task that was just parked has no message. -/
theorem parkedMessage_park (s : Stream) : parkedMessage { s with parked := s.park } = s.parkedMessage := by
  unfold parkedMessage park
  cases s.parked with
  | some p => rfl
  | none =>
      dsimp only
      cases s.started && !s.gotCancel with
      | true => rfl
      | false => rfl

/-- The head of the loop. -/
theorem Running.loop (h : Running s []) (hcancel : s.gotCancel = false) : Inv s.loop := by
  unfold Stream.loop
  split
  · next hstop =>
    -- nothing to wait for: the stream was never started
    rw [Bool.and_eq_true, Option.isNone_iff_eq_none] at hstop
    have hpark : s.park = none := hstop.2
    unfold park at hpark
    cases hparked : s.parked with
    | some p =>
        rw [hparked] at hpark
        cases hpark
    | none =>
        rw [hparked] at hpark
        have hstarted : s.started = false := by
          cases hvalue : s.started with
          | false => rfl
          | true => simp [hvalue, hcancel] at hpark
        refine h.leave ?_ (h.idle hstarted).2.1
        unfold parkedMessage
        rw [hparked]
  · refine ⟨?_, h.ends, h.cursor, fun _ _ hphase => (nomatch hphase), ?_, ?_, h.eof,
      fun _ => ⟨h.own, h.forwarded⟩, fun hphase => (nomatch hphase)⟩
    · obtain ⟨taken, hsplit, hcoalesced⟩ := h.order
      refine ⟨taken, ?_, hcoalesced⟩
      show taken ++ ([] ++ parkedMessage { s with parked := s.park } ++ s.queue) = s.puts
      rw [parkedMessage_park]
      exact hsplit
    · intro hstarted
      obtain ⟨hparked, hqueue, -⟩ := h.idle hstarted
      refine ⟨?_, fun _ => ⟨hqueue, rfl⟩⟩
      show s.park = none
      have hstarted : s.started = false := hstarted
      unfold park
      rw [hparked, hstarted]
      rfl
    · intro hcancelled
      exact nomatch hcancel.symm.trans hcancelled

/-- The end of a round. -/
theorem Running.endRound (h : Running s [])
    (hturn : s.parkedMessage = [] ∨ s.gotCancel = false) (hqueue : s.gotCancel = true → s.queue = []) :
    Inv s.endRound := by
  unfold Stream.endRound
  split
  · next hleave =>
    rw [Bool.and_eq_true] at hleave
    refine h.leave ?_ (hqueue hleave.2)
    rcases hturn with hparked | hcancel
    · exact hparked
    · exact nomatch hcancel.symm.trans hleave.2
  · next hgoes =>
    refine h.loop ?_
    cases hcancel : s.gotCancel with
    | false => rfl
    | true =>
        rw [hcancel, h.eof hcancel] at hgoes
        exact absurd rfl hgoes

/-- The messages behind a `yield`. -/
theorem Running.yieldNext_order {message : Message} (h : Running s [message])
    {phase : Option Message → Phase} (hphase : ∀ leftover, (phase leftover).pending = leftover.toList)
    (halone : s.parkedMessage = [] ∨ s.queue = [] ∨ ∃ e, message = .event e) :
    ∃ taken, taken ++ (s.yieldNext message s.queue phase).held = s.puts
      ∧ Coalesced taken (s.yieldNext message s.queue phase).forwarded := by
  obtain ⟨taken, hsplit, hcoalesced⟩ := h.order
  cases message with
  | event e =>
      refine ⟨taken ++ [.event e], ?_, .event e hcoalesced⟩
      have hpending : (s.yieldNext (.event e) s.queue phase).phase.pending = [] := by
        show (if isDoneResponse (.event e) then Phase.ended else phase none).pending = []
        split
        · rfl
        · exact hphase none
      unfold held
      rw [hpending, List.append_assoc]
      exact hsplit
  | audio chunk =>
      have hends : (sampleEnds (.audio chunk :: s.queue)).Pairwise (· ≤ ·) := by
        have hall := h.ends
        rw [← hsplit, sampleEnds_append, sampleEnds_append, sampleEnds_append] at hall
        have hbehind := (List.pairwise_append.1 hall).2.1
        rw [List.append_assoc] at hbehind
        rw [sampleEnds_audio]
        refine hbehind.sublist (List.Sublist.cons_cons _ ?_)
        exact List.sublist_append_right _ _
      obtain ⟨rest, hqueue, hmerged⟩ := coalesceQueuedAudio_spec chunk s.queue hends
      refine ⟨taken ++ .audio chunk :: rest.map .audio, ?_, ?_⟩
      · have hheld : (s.yieldNext (.audio chunk) s.queue phase).held
            = (coalesceQueuedAudio chunk s.queue).2.1.toList ++ s.parkedMessage
              ++ (coalesceQueuedAudio chunk s.queue).2.2 := by
          show (phase (coalesceQueuedAudio chunk s.queue).2.1).pending ++ s.parkedMessage ++ _ = _
          rw [hphase]
          rfl
        rw [hheld, ← hsplit]
        rcases halone with hparked | hempty | ⟨e, he⟩
        · rw [hparked]
          nth_rewrite 3 [hqueue]
          simp
        · rw [hempty] at hqueue ⊢
          have hrest : rest = [] := by simpa using (List.append_eq_nil_iff.1 hqueue.symm).1
          rw [hrest]
          simp [coalesceQueuedAudio]
        · cases he
      · show Coalesced _ (s.forwarded ++ [.audio (coalesceQueuedAudio chunk s.queue).1])
        rw [hmerged]
        exact .audio chunk rest hcoalesced

/-- Where a `yield` leaves the handler. -/
theorem yieldNext_phase (s : Stream) (message : Message) (queue : List Message)
    (phase : Option Message → Phase) :
    ((s.yieldNext message queue phase).phase = .ended ∧ isDoneResponse message = true
        ∧ (s.yieldNext message queue phase).forwarded = s.forwarded ++ [message])
      ∨ ∃ leftover m, (s.yieldNext message queue phase).phase = phase leftover
        ∧ (s.yieldNext message queue phase).forwarded = s.forwarded ++ [m]
        ∧ isDoneResponse m = false := by
  cases message with
  | audio chunk => exact .inr ⟨_, _, rfl, rfl, rfl⟩
  | event e =>
      unfold yieldNext
      dsimp only
      split
      · next hdone => exact .inl ⟨rfl, hdone, rfl⟩
      · next hdone => exact .inr ⟨none, _, rfl, rfl, Bool.eq_false_iff.2 hdone⟩

/-- What a `yield` does not change. -/
theorem yieldNext_frame (s : Stream) (message : Message) (queue : List Message)
    (phase : Option Message → Phase) :
    (s.yieldNext message queue phase).puts = s.puts
      ∧ (s.yieldNext message queue phase).cursor = s.cursor
      ∧ (s.yieldNext message queue phase).parked = s.parked
      ∧ (s.yieldNext message queue phase).started = s.started
      ∧ (s.yieldNext message queue phase).gotCancel = s.gotCancel
      ∧ (s.yieldNext message queue phase).inputEof = s.inputEof
      ∧ (s.yieldNext message queue phase).own = s.own := by
  cases message with
  | audio chunk => exact ⟨rfl, rfl, rfl, rfl, rfl, rfl, rfl⟩
  | event e => exact ⟨rfl, rfl, rfl, rfl, rfl, rfl, rfl⟩

/-- A `yield` of the flush or of the drain. -/
theorem Running.yieldNext {message : Message} (h : Running s [message])
    (phase : Option Message → Phase) (hphase : ∀ leftover, (phase leftover).pending = leftover.toList)
    (halone : s.parkedMessage = [] ∨ s.queue = [] ∨ ∃ e, message = .event e)
    (hgoes : ∀ leftover, phase leftover ≠ .ended)
    (hflush : ∀ leftover l request, phase leftover = .flushing l request → s.parked = none)
    (hdrain : s.gotCancel = true → ∀ leftover, ∃ p, phase leftover = .draining p) :
    Inv (s.yieldNext message s.queue phase) := by
  obtain ⟨hputs, hcursor, hparked, hstarted, hcancel, heof, hown⟩ :=
    yieldNext_frame s message s.queue phase
  have horder := h.yieldNext_order hphase halone
  refine ⟨?_, ?_, ?_, ?_, ?_, ?_, ?_, ?_, ?_⟩
  · rw [hputs]
    exact horder
  · rw [hputs]
    exact h.ends
  · rw [hputs, hcursor]
    exact h.cursor
  · intro l request hat
    rw [hparked]
    rcases yieldNext_phase s message s.queue phase with ⟨hended, -⟩ | ⟨leftover, m, hat', -⟩
    · exact nomatch hended.symm.trans hat
    · exact hflush leftover l request (hat'.symm.trans hat)
  · intro hnot
    rw [hstarted] at hnot
    exact nomatch (h.idle hnot).2.2
  · intro hcancelled
    rw [hcancel] at hcancelled
    rcases yieldNext_phase s message s.queue phase with ⟨hended, -⟩ | ⟨leftover, m, hat, -⟩
    · exact .inl hended
    · rw [hat]
      exact .inr (hdrain hcancelled leftover)
  · rw [hcancel, heof]
    exact h.eof
  · intro hrunning
    rcases yieldNext_phase s message s.queue phase with ⟨hended, -⟩ | ⟨_, m, -, hforwarded, hm⟩
    · exact absurd hended hrunning
    · rw [hown, hforwarded]
      refine ⟨h.own, fun x hx => ?_⟩
      rcases List.mem_append.1 hx with hx | hx
      · exact h.forwarded x hx
      · rw [List.mem_singleton.1 hx]
        exact hm
  · intro hended
    rcases yieldNext_phase s message s.queue phase with ⟨-, hdone, hforwarded⟩ | ⟨leftover, _, hat, -⟩
    · rw [hown, hforwarded]
      exact .inl ⟨h.own, s.forwarded, message, rfl, hdone, h.forwarded⟩
    · exact absurd (hat.symm.trans hended) (hgoes leftover)

/-- The drain. -/
theorem Running.drain (pending : Option Message) (h : Running s pending.toList)
    (halone : s.parkedMessage = [] ∨ (∃ e, pending = some (.event e)) ∨ s.queue = [])
    (hleaves : pending = none → s.parkedMessage = [] ∨ s.gotCancel = false) :
    Inv (s.drain pending) := by
  unfold Stream.drain
  cases pending with
  | some message =>
      refine h.yieldNext .draining (fun _ => rfl) ?_ (fun _ hat => (nomatch hat)) (fun _ _ _ hat => (nomatch hat))
        fun _ leftover => ⟨leftover, rfl⟩
      rcases halone with hparked | ⟨e, he⟩ | hqueue
      · exact .inl hparked
      · exact .inr (.inr ⟨e, Option.some.inj he⟩)
      · exact .inr (.inl hqueue)
  | none =>
      cases hqueue : s.queue with
      | nil => exact h.endRound (hleaves rfl) fun _ => hqueue
      | cons message queue =>
          have hparked : s.parkedMessage = [] := by
            rcases halone with hparked | ⟨e, he⟩ | hempty
            · exact hparked
            · cases he
            · exact nomatch hqueue.symm.trans hempty
          -- the head of the queue moves into the hand
          have hhand : Running { s with queue := queue } [message] := by
            obtain ⟨taken, hsplit, hcoalesced⟩ := h.order
            refine ⟨⟨taken, ?_, hcoalesced⟩, h.ends, h.cursor, ?_, h.eof, h.own, h.forwarded⟩
            · rw [← hsplit]
              show taken ++ ([message] ++ s.parkedMessage ++ queue) = _
              rw [hparked, hqueue]
              rfl
            · intro hstarted
              exact nomatch hqueue.symm.trans (h.idle hstarted).2.1
          have hyield := hhand.yieldNext .draining (fun _ => rfl) (.inl hparked)
            (fun _ hat => (nomatch hat)) (fun _ _ _ hat => (nomatch hat))
            fun _ leftover => ⟨leftover, rfl⟩
          have hsame : s.yieldNext message queue .draining
              = Stream.yieldNext { s with queue := queue } message queue .draining := by
            unfold Stream.yieldNext
            cases message with
            | audio chunk => rfl
            | event e => rfl
          show Inv (s.yieldNext message queue .draining)
          rw [hsame]
          exact hyield

/-! ## Steps -/

/-- The handler begins to run. -/
theorem Inv.run (h : Inv s) (hphase : s.phase ≠ .ended)
    (hidle : s.started = false → s.callable = false) : Running s s.phase.pending where
  order := h.order
  ends := h.ends
  cursor := h.cursor
  idle := fun hstarted =>
    ⟨(h.idle hstarted).1, ((h.idle hstarted).2 (hidle hstarted)).1,
      ((h.idle hstarted).2 (hidle hstarted)).2⟩
  eof := h.eof
  own := (h.running hphase).1
  forwarded := (h.running hphase).2

/-- Before the start only the start can put. -/
theorem callable_of_phase (hphase : s.phase ≠ .handling .start) (hstarted : s.started = false) :
    s.callable = false := by
  unfold callable
  rw [hstarted, decide_eq_false hphase]
  rfl

/-- The handler gets to the engine call of a request. -/
theorem Inv.handling (h : Inv s) (hphase : s.phase ≠ .ended) (hstart : s.phase ≠ .handling .start)
    (hpending : s.phase.pending = []) (hcancel : s.gotCancel = false) (request : Request) :
    Inv { s with phase := .handling request } where
  order := by
    obtain ⟨taken, hsplit, hcoalesced⟩ := h.order
    unfold held at hsplit
    rw [hpending] at hsplit
    exact ⟨taken, hsplit, hcoalesced⟩
  ends := h.ends
  cursor := h.cursor
  flushing := fun _ _ hat => nomatch hat
  idle := fun hstarted =>
    ⟨(h.idle hstarted).1, fun _ =>
      ⟨((h.idle hstarted).2 (callable_of_phase hstart hstarted)).1, rfl⟩⟩
  cancelled := fun hcancelled => nomatch hcancel.symm.trans hcancelled
  eof := h.eof
  running := fun _ => h.running hphase
  ended := fun hat => nomatch hat

/-- Only the drain runs behind a cancellation. -/
theorem Inv.not_cancelled (h : Inv s) (hphase : s.phase ≠ .ended)
    (hdrain : ∀ pending, s.phase ≠ .draining pending) : s.gotCancel = false := by
  cases hcancel : s.gotCancel with
  | false => rfl
  | true =>
      rcases h.cancelled hcancel with hended | ⟨pending, hat⟩
      · exact absurd hended hphase
      · exact absurd hat (hdrain pending)

/-- The wait ends. -/
theorem Inv.wake (h : Inv s) (hphase : s.phase = .waiting) (request : Option Request) :
    Inv (s.wake request) := by
  have hended : s.phase ≠ .ended := fun hat => nomatch hphase.symm.trans hat
  have hstart : s.phase ≠ .handling .start := fun hat => nomatch hphase.symm.trans hat
  have hpending : s.phase.pending = [] := by rw [hphase]; rfl
  have hcancel := h.not_cancelled hended fun _ hat => nomatch hphase.symm.trans hat
  unfold Stream.wake
  dsimp only
  split
  · next message hparked =>
    have hstarted : s.started = true := by
      cases hvalue : s.started with
      | true => rfl
      | false => exact nomatch hparked.symm.trans (h.idle hvalue).1
    have hhand : Running { s with parked := none } [message] := by
      obtain ⟨taken, hsplit, hcoalesced⟩ := h.order
      refine ⟨⟨taken, ?_, hcoalesced⟩, h.ends, h.cursor, ?_, h.eof, (h.running hended).1,
        (h.running hended).2⟩
      · rw [← hsplit]
        unfold held parkedMessage
        rw [hpending, hparked]
        rfl
      · intro hnot
        exact nomatch hstarted.symm.trans hnot
    exact hhand.yieldNext (.flushing · _) (fun _ => rfl) (.inl rfl) (fun _ hat => (nomatch hat))
      (fun _ _ _ _ => rfl) fun hcancelled => (nomatch hcancel.symm.trans hcancelled)
  · cases (if s.inputEof then none else request : Option Request) with
    | none => exact h
    | some request => exact h.handling hended hstart hpending hcancel request

/-- A callback puts a message. -/
theorem Inv.enqueue (h : Inv s) (hphase : s.phase ≠ .ended) (hcallable : s.callable = true)
    {message : Message} {cursor : Nat} (hcursor : s.cursor ≤ cursor)
    (hends : ∀ e ∈ sampleEnds [message], s.cursor ≤ e ∧ e ≤ cursor) :
    Inv (Stream.enqueue { s with cursor := cursor } message) where
  order := by
    obtain ⟨taken, hsplit, hcoalesced⟩ := h.order
    refine ⟨taken, ?_, hcoalesced⟩
    show taken ++ (s.phase.pending ++ s.parkedMessage ++ (s.queue ++ [message])) = s.puts ++ [message]
    rw [← hsplit]
    unfold held
    simp only [List.append_assoc]
  ends := by
    show (sampleEnds (s.puts ++ [message])).Pairwise (· ≤ ·)
    rw [sampleEnds_append, List.pairwise_append]
    refine ⟨h.ends, ?_, fun a ha b hb => Nat.le_trans (h.cursor a ha) (hends b hb).1⟩
    cases message with
    | audio chunk => exact List.pairwise_singleton _ _
    | event e => exact .nil
  cursor := by
    intro e he
    have he : e ∈ sampleEnds (s.puts ++ [message]) := he
    rw [sampleEnds_append, List.mem_append] at he
    rcases he with he | he
    · exact Nat.le_trans (h.cursor e he) hcursor
    · exact (hends e he).2
  flushing := h.flushing
  idle := fun hstarted => ⟨(h.idle hstarted).1, fun hnot => (nomatch hcallable.symm.trans hnot)⟩
  cancelled := h.cancelled
  eof := h.eof
  running := h.running
  ended := fun hat => absurd hat hphase

/-- A callback puts its output. -/
theorem Inv.put (h : Inv s) (hphase : s.phase ≠ .ended) (hcallable : s.callable = true)
    (output : Output) : Inv (s.put output) := by
  cases output with
  | event e =>
      exact h.enqueue hphase hcallable (Nat.le_refl _) fun _ he => (nomatch he)
  | audio pcmData samples sampleRate encoding channels extra =>
      unfold Stream.put
      dsimp only
      split
      · exact h
      · refine h.enqueue hphase hcallable (Nat.le_add_right _ _) fun e he => ?_
        rw [List.mem_singleton.1 he]
        exact ⟨Nat.le_add_right _ _, Nat.le_refl _⟩

/-- The parked task takes the head of the queue. -/
theorem Inv.take (h : Inv s) (hphase : s.phase ≠ .ended) : Inv s.take := by
  unfold Stream.take
  split
  · next message queue hparked hqueue =>
    have hstarted : s.started = true := by
      cases hvalue : s.started with
      | true => rfl
      | false => exact nomatch hparked.symm.trans (h.idle hvalue).1
    refine ⟨?_, h.ends, h.cursor, ?_, ?_, h.cancelled, h.eof, h.running, fun hat => absurd hat hphase⟩
    · obtain ⟨taken, hsplit, hcoalesced⟩ := h.order
      refine ⟨taken, ?_, hcoalesced⟩
      rw [← hsplit]
      unfold held parkedMessage
      rw [hparked, hqueue]
      simp only [List.append_assoc, List.nil_append, List.singleton_append]
    · intro leftover request hat
      exact nomatch hparked.symm.trans (h.flushing leftover request hat)
    · intro hnot
      exact nomatch hstarted.symm.trans hnot
  · exact h

/-- The request branch goes on behind its engine call. -/
theorem Inv.handled (h : Inv s) {request : Request} (hphase : s.phase = .handling request)
    {raises : Option String} (hraises : s.requestRaises request raises = none)
    (hturn : s.parkedMessage = [] ∨ request = .eof ∨ s.queue = [] ∧ request ≠ .cancel) :
    Inv (s.handled request) := by
  have hended : s.phase ≠ .ended := fun hat => nomatch hphase.symm.trans hat
  have hcancel := h.not_cancelled hended fun _ hat => nomatch hphase.symm.trans hat
  have hpending : s.phase.pending = [] := by rw [hphase]; rfl
  have hrun : request ≠ .start → Running s [] := by
    intro hstart
    rw [← hpending]
    refine h.run hended fun hstarted => callable_of_phase (fun hat => ?_) hstarted
    exact hstart (Phase.handling.inj (hphase.symm.trans hat))
  have hdrain : request ≠ .start → request ≠ .eof → Inv (s.drain none) := by
    intro hstart heof
    refine Running.drain none (hrun hstart) ?_ fun _ => .inr hcancel
    rcases hturn with hparked | heof' | ⟨hqueue, -⟩
    · exact .inl hparked
    · exact absurd heof' heof
    · exact .inr (.inr hqueue)
  cases request with
  | start =>
      have hstarted : s.started = false := by
        cases hvalue : s.started with
        | false => rfl
        | true => simp [requestRaises, hvalue] at hraises
      have hparked : s.parkedMessage = [] := by
        unfold parkedMessage
        rw [(h.idle hstarted).1]
      refine Running.drain none ?_ (.inl hparked) fun _ => .inl hparked
      obtain ⟨taken, hsplit, hcoalesced⟩ := h.order
      have hends : sampleEnds (s.puts ++ [sessionStarted]) = sampleEnds s.puts := by
        rw [sampleEnds_append]
        exact List.append_nil _
      refine ⟨⟨taken, ?_, hcoalesced⟩, ?_, ?_, fun hnot => (nomatch hnot), h.eof,
        (h.running hended).1, (h.running hended).2⟩
      · show taken ++ ([] ++ s.parkedMessage ++ (s.queue ++ [sessionStarted]))
          = s.puts ++ [sessionStarted]
        rw [← hsplit]
        unfold held
        rw [hpending]
        simp only [List.append_assoc]
      · show (sampleEnds (s.puts ++ [sessionStarted])).Pairwise (· ≤ ·)
        rw [hends]
        exact h.ends
      · intro e he
        have he : e ∈ sampleEnds (s.puts ++ [sessionStarted]) := he
        rw [hends] at he
        exact h.cursor e he
  | cancel =>
      have hparked : s.parkedMessage = [] := by
        rcases hturn with hparked | heof | ⟨-, hne⟩
        · exact hparked
        · cases heof
        · exact absurd rfl hne
      have hready := hrun (fun hat => nomatch hat)
      refine Running.drain none ?_ (.inl hparked) fun _ => .inl hparked
      exact ⟨hready.order, hready.ends, hready.cursor, hready.idle, fun _ => rfl, hready.own,
        hready.forwarded⟩
  | eof =>
      have hready := hrun (fun hat => nomatch hat)
      refine Running.endRound (s := { s with inputEof := true }) ?_ (.inr hcancel) fun hcancelled => ?_
      · exact ⟨hready.order, hready.ends, hready.cursor, hready.idle, fun _ => rfl, hready.own,
          hready.forwarded⟩
      · exact nomatch hcancel.symm.trans hcancelled
  | text => exact hdrain (fun hat => (nomatch hat)) fun hat => (nomatch hat)
  | finish => exact hdrain (fun hat => (nomatch hat)) fun hat => (nomatch hat)
  | unset => exact hdrain (fun hat => (nomatch hat)) fun hat => (nomatch hat)
  | error message => exact hdrain (fun hat => (nomatch hat)) fun hat => (nomatch hat)

/-- The drain goes on behind a `yield`. -/
theorem Inv.drained (h : Inv s) {pending : Option Message} (hphase : s.phase = .draining pending)
    {raises : Option String} (hturn : s.GoesOnInTurn raises (.draining pending)) : Inv (s.drain pending) := by
  have hended : s.phase ≠ .ended := fun hat => nomatch hphase.symm.trans hat
  have hready := h.run hended
    fun hstarted => callable_of_phase (fun hat => nomatch hphase.symm.trans hat) hstarted
  rw [hphase] at hready
  refine Running.drain pending hready ?_ ?_
  · cases pending with
    | none =>
        rcases hturn with hparked | ⟨hqueue, -⟩
        · exact .inl hparked
        · exact .inr (.inr hqueue)
    | some message =>
        cases message with
        | event e => exact .inr (.inl ⟨e, rfl⟩)
        | audio chunk =>
            rcases hturn with hparked | hqueue
            · exact .inl hparked
            · exact .inr (.inr hqueue)
  · rintro rfl
    rcases hturn with hparked | ⟨-, hcancel⟩
    · exact .inl hparked
    · exact .inr hcancel

/-- The handler goes on. -/
theorem Inv.resume (h : Inv s) {raises : Option String} (hturn : s.GoesOnInTurn raises s.phase) :
    Inv (s.resume raises) := by
  unfold Stream.resume
  split
  · next message request hphase =>
    have hready := h.run (fun hat => nomatch hphase.symm.trans hat)
      fun hstarted => callable_of_phase (fun hat => nomatch hphase.symm.trans hat) hstarted
    have hparked := h.flushing _ _ hphase
    have hcancel := h.not_cancelled (fun hat => nomatch hphase.symm.trans hat)
      fun _ hat => nomatch hphase.symm.trans hat
    rw [hphase] at hready
    refine hready.yieldNext (.flushing · request) (fun _ => rfl) (.inl ?_)
      (fun _ hat => (nomatch hat)) (fun _ _ _ _ => hparked)
      fun hcancelled => (nomatch hcancel.symm.trans hcancelled)
    unfold parkedMessage
    rw [hparked]
  · next request hphase =>
    refine h.handling (fun hat => nomatch hphase.symm.trans hat)
      (fun hat => nomatch hphase.symm.trans hat) (by rw [hphase]; rfl) ?_ request
    exact h.not_cancelled (fun hat => nomatch hphase.symm.trans hat)
      fun _ hat => nomatch hphase.symm.trans hat
  · next hphase =>
    have hready := h.run (fun hat => nomatch hphase.symm.trans hat)
      fun hstarted => callable_of_phase (fun hat => nomatch hphase.symm.trans hat) hstarted
    rw [hphase] at hready
    refine Running.loop hready ?_
    exact h.not_cancelled (fun hat => nomatch hphase.symm.trans hat)
      fun _ hat => nomatch hphase.symm.trans hat
  · next request hphase =>
    rw [hphase] at hturn
    obtain ⟨hraises, hturn⟩ := hturn
    rw [hraises]
    exact h.handled hphase hraises hturn
  · next pending hphase =>
    rw [hphase] at hturn
    exact h.drained hphase hturn
  · exact h
  · exact h

/-- Every event in turn keeps the invariant. -/
theorem Inv.step (h : Inv s) {event : Event} (hturn : s.InTurn event) : Inv (s.step event) := by
  cases event with
  | put output =>
      show Inv (if s.phase ≠ .ended ∧ s.callable then s.put output else s)
      split
      · next hputs => exact h.put hputs.1 hputs.2 output
      · exact h
  | take =>
      show Inv (if s.phase = .ended then s else s.take)
      split
      · exact h
      · next hphase => exact h.take hphase
  | wake request =>
      show Inv (if s.phase = .waiting then s.wake request else s)
      split
      · next hphase => exact h.wake hphase request
      · exact h
  | resume raises => exact h.resume hturn

/-- The output of a stream is in order in every state that is reached by events in turn. -/
theorem stream_inOrder (events : List Event) (h : Along step InTurn new events) :
    (run step new events).InOrder :=
  (run_induct new_inv (fun _ _ hinv hturn => hinv.step hturn) h).inOrder

/-- A chunk of one byte. -/
def oneByte (data : UInt8) : Output := .audio [data] 1 24000 .pcmS16le 1 []

/-- A stream is started and gets a text while its audio comes. -/
def fullDuplex : List Event :=
  [.wake (some .start), .resume none, .resume none, .put (oneByte 1), .take, .put (oneByte 2),
    .put (.event ⟨"segment", ""⟩), .wake (some .text), .resume none, .resume none,
    .put (oneByte 3), .resume none, .resume none, .put (.event ⟨"done", ""⟩), .take, .wake none]

/-- The audio is merged in front of the event, and the stream ends with its terminal. -/
theorem stream_inOrder_fullDuplex :
    Along step InTurn new fullDuplex ∧ (run step new fullDuplex).InOrder
      ∧ (run step new fullDuplex).yielded
        = [sessionStarted, .audio ⟨[1, 2], 24000, .pcmS16le, 1, 0, 2, []⟩, .event ⟨"segment", ""⟩,
          .audio ⟨[3], 24000, .pcmS16le, 1, 2, 3, []⟩, .event ⟨"done", ""⟩] :=
  ⟨by decide +kernel, stream_inOrder fullDuplex (by decide +kernel), by decide +kernel⟩

/-- The parked task takes a chunk while the handler is in the engine call of a text. -/
def parkedBehind : List Event :=
  [.wake (some .start), .resume none, .resume none, .wake (some .text), .put (oneByte 1), .take,
    .put (oneByte 2), .resume none, .resume none, .wake none]

/-- The parked task takes a chunk while the handler is in the engine call of a cancellation. -/
def parkedLost : List Event :=
  [.wake (some .start), .resume none, .resume none, .wake (some .cancel), .put (oneByte 1), .take,
    .resume none]

/-- The stream is started a second time. -/
def startedTwice : List Event :=
  [.wake (some .start), .resume none, .resume none, .wake (some .start), .resume none]

/-- The chunk that was put first is yielded last, or not at all; and an exception has two terminals. -/
theorem stream_out_of_order :
    ¬ (run step new parkedBehind).InOrder ∧ ¬ (run step new parkedLost).InOrder
      ∧ ¬ (run step new startedTwice).InOrder
      ∧ (run step new parkedBehind).yielded.flatMap (·.pcmData) = [2, 1]
      ∧ (run step new parkedLost).yielded = [sessionStarted, streamEnded]
      ∧ (run step new startedTwice).yielded
        = [sessionStarted, .event ⟨"error", "gRPC stream session has already been started"⟩,
          streamEnded] := by
  refine ⟨fun h => ?_, fun h => ?_, fun h => ?_, by decide +kernel, by decide +kernel,
    by decide +kernel⟩
  · obtain ⟨taken, hsplit, -, hdata⟩ := h.order
    have hall : (taken ++ (run step new parkedBehind).held).flatMap (·.pcmData) = [1, 2] := by
      rw [hsplit]
      decide +kernel
    have htaken : taken.flatMap (·.pcmData) = [2, 1] := by
      rw [← hdata]
      decide +kernel
    rw [List.flatMap_append, htaken] at hall
    exact absurd (List.cons.inj hall).1 (by decide)
  · rcases h.complete (by decide +kernel) with hheld | ⟨m, hlast, hdone⟩
    · exact absurd hheld (by decide +kernel)
    · have hlast' : (run step new parkedLost).forwarded.getLast? = some sessionStarted := by
        decide +kernel
      rw [hlast'] at hlast
      cases hlast
      exact absurd hdone (by decide)
  · have herror := h.terminal
      (.event ⟨"error", "gRPC stream session has already been started"⟩) (by decide +kernel)
    exact absurd herror (by decide)

end Stream

end Grpc

end StreamingTts.Gateway
