import StreamingTts.Gateway.RealtimeProjection

/-!
# The Realtime gateway and the Python client agree on delivery

Each output of the ledger that the gateway projects moves the cursor of the client to its number and
its end sample, whichever of the projections it takes; the queue of the attachment continues the
cursor without a gap; so the client follows, through losses and resumes, until the terminal ends it.
The exception is the failure of the ledger: its `response.done` has the number of no delivery, and the
client drops it.
-/

namespace StreamingTts.Gateway

open Session Session.DeliveryLedger Lib Client.Realtime

namespace Realtime

section
variable {usage : ResponseState → List (String × String)}
  {diagnostics : ResponseState → List (String × String)} {st : ResponseState}
  {client : StreamReader} {r : ReliableDelivery}

/-! ## One delivery -/

/-- The sample range of a delivery is that of its payload. -/
def Sound (r : ReliableDelivery) : Prop :=
  match r.payload with
  | .audio o => o.pcmBytes ≠ [] ∧ r.endSample = r.startSample + (o.pcmBytes.length / 2 : Nat)
  | _ => r.endSample = r.startSample

/-- The client can take delivery `r` next: it is numbered and placed behind the client's cursor. -/
structure Next (client : StreamReader) (r : ReliableDelivery) : Prop where
  seq : r.deliverySeq = client.lastDeliverySeq + 1
  start : r.startSample = client.audioThroughSample
  audio : client.audioSampleCursor = client.audioThroughSample
  resume : client.resumeSupported = true

/-- The client took delivery `r` and reads on. -/
structure Took (client : StreamReader) (r : ReliableDelivery) (client' : StreamReader) : Prop where
  cursor : client'.cursor = (r.deliverySeq, r.endSample)
  audio : client'.audioSampleCursor = r.endSample
  resume : client'.resumeSupported = true
  terminals : client'.terminals = client.terminals

/-- A delivery is let through by `_begin_delivery`, and not skipped. -/
theorem Next.begin (h : Next client r) :
    client.beginDelivery (some r.deliverySeq) = .ok (some r.deliverySeq)
      ∧ client.skips (some r.deliverySeq) = false :=
  ⟨StreamReader.beginDelivery_next h.seq, by simp [StreamReader.skips]⟩

/-- Putting a message that is not terminal keeps the number of terminal ones. -/
theorem putMessage_terminals (client : StreamReader) {m : StreamMessage}
    (hm : m.isTerminal = false) :
    (client.putMessage m).terminals = client.terminals := by
  simp [StreamReader.terminals, StreamReader.putMessage, hm]

/-- A delivery that is a point on the sample axis and carries no message. -/
theorem Next.took_delivery (h : Next client r) (hend : r.endSample = r.startSample) :
    ∃ client', client.handleDelivery (some r.deliverySeq) (some r.endSample) = .ok client'
      ∧ Took client r client' := by
  have hmoved := StreamReader.commitDelivery_moved (s := client) r.deliverySeq r.endSample false
  refine ⟨client.commitDelivery r.deliverySeq r.endSample false, ?_, hmoved.cursor, ?_, ?_, ?_⟩
  · simp only [StreamReader.handleDelivery, h.begin.1, StreamReader.commitNext, Option.getD_some]
  · rw [hmoved.audio, h.audio, ← h.start, hend]
  · rw [hmoved.resumeSupported, h.resume]
  · rw [StreamReader.terminals, hmoved.messages]
    rfl

/-- A text event. -/
theorem Next.took_text (h : Next client r) (hend : r.endSample = r.startSample) (kind : TextEventKind)
    (segmentId : Int) (text : String) (metaMap : List (String × String)) :
    ∃ client', client.handleText kind segmentId text metaMap (some r.deliverySeq) (some r.endSample)
        = .ok client' ∧ Took client r client' := by
  have hmoved := StreamReader.commitDelivery_moved
    (s := client.putMessage (.text kind segmentId text metaMap client.responseId))
    r.deliverySeq r.endSample false
  refine ⟨(client.putMessage (.text kind segmentId text metaMap client.responseId)).commitDelivery
    r.deliverySeq r.endSample false, ?_, hmoved.cursor, ?_, ?_, ?_⟩
  · simp only [StreamReader.handleText, h.begin.1, h.begin.2, Bool.false_eq_true, if_false,
      StreamReader.commitNext, Option.getD_some]
  · rw [hmoved.audio]
    show client.audioSampleCursor = r.endSample
    rw [h.audio, ← h.start, hend]
  · rw [hmoved.resumeSupported]
    exact h.resume
  · rw [StreamReader.terminals, hmoved.messages]
    exact putMessage_terminals client rfl

/-- The client after an audio delta, before it commits the delivery. -/
def audioTaken (client : StreamReader) (r : ReliableDelivery) (pcm : List UInt8) : StreamReader :=
  { client with audioSampleCursor := r.endSample, chunkIndex := client.chunkIndex + 1 }.putMessage
    (.audio pcm (client.chunkIndex + 1) r.startSample r.endSample client.responseId)

/-- An audio delta with bytes. -/
theorem Next.took_audio (h : Next client r) {pcm : List UInt8} (hne : pcm ≠ [])
    (hend : r.endSample = r.startSample + (pcm.length / 2 : Nat)) :
    ∃ client', client.handleAudioDelta (some pcm) (some r.deliverySeq) (some r.startSample)
        (some r.endSample) = .ok client' ∧ Took client r client' := by
  have hmoved := StreamReader.commitDelivery_moved (s := audioTaken client r pcm)
    r.deliverySeq r.endSample false
  refine ⟨(audioTaken client r pcm).commitDelivery r.deliverySeq r.endSample false, ?_,
    hmoved.cursor, hmoved.audio, ?_, ?_⟩
  · have hok : ¬ (r.startSample ≠ client.audioSampleCursor
        ∨ r.endSample ≠ r.startSample + (pcm.length / 2 : Nat)) := by
      rintro (hbad | hbad)
      · exact hbad (by rw [h.start, h.audio])
      · exact hbad hend
    obtain ⟨b, bs, rfl⟩ := List.exists_cons_of_ne_nil hne
    simp only [StreamReader.handleAudioDelta, h.begin.1, h.begin.2, Bool.false_eq_true, if_false,
      Option.getD_some, if_neg hok, StreamReader.commitNext, audioTaken]
  · rw [hmoved.resumeSupported]
    exact h.resume
  · rw [StreamReader.terminals, hmoved.messages]
    exact putMessage_terminals { client with
      audioSampleCursor := r.endSample, chunkIndex := client.chunkIndex + 1 } rfl

/-- The reader that goes on after one event. -/
theorem receive_one {e : ServerEvent} {client' : StreamReader}
    (h : client.handleEvent e = .ok (false, client')) : receive client [e] = (client', .reading) := by
  simp only [receive, h]

/-- The event of an output that is not terminal is taken by the client, which reads on. -/
theorem Next.project (usage diagnostics : ResponseState → List (String × String))
    (st : ResponseState) (h : Next client r) (hsound : Sound r)
    (hpayload : ∀ o, r.payload ≠ .terminal o) :
    ∃ e client', st.project usage diagnostics (.delivery r) = ([e], st, true)
      ∧ receive client [e] = (client', .reading) ∧ Took client r client' ∧ doneEvents [e] = 0 := by
  cases hp : r.payload with
  | started o =>
      have hend : r.endSample = r.startSample := by simpa [Sound, hp] using hsound
      obtain ⟨client', hhandle, htook⟩ := h.took_delivery hend
      refine ⟨.delivery (some r.deliverySeq) (some r.endSample), client', ?_, ?_, htook, rfl⟩
      · simp only [ResponseState.project, hp]
      · exact receive_one (by simp only [StreamReader.handleEvent, hhandle, StreamReader.goOn])
  | audio o =>
      obtain ⟨hne, hend⟩ : o.pcmBytes ≠ []
          ∧ r.endSample = r.startSample + (o.pcmBytes.length / 2 : Nat) := by
        simpa [Sound, hp] using hsound
      obtain ⟨client', hhandle, htook⟩ := h.took_audio hne hend
      refine ⟨.audioDelta (some o.pcmBytes) (some r.deliverySeq) (some r.startSample)
        (some r.endSample), client', ?_, ?_, htook, rfl⟩
      · simp only [ResponseState.project, hp]
      · exact receive_one (by simp only [StreamReader.handleEvent, hhandle, StreamReader.goOn])
  | event o =>
      have hend : r.endSample = r.startSample := by simpa [Sound, hp] using hsound
      cases hkind : ResponseState.textEventKind o.eventType with
      | none =>
          obtain ⟨client', hhandle, htook⟩ := h.took_delivery hend
          refine ⟨.sessionEvent (some r.deliverySeq) (some r.endSample), client', ?_, ?_, htook, rfl⟩
          · simp only [ResponseState.project, hp, hkind]
          · exact receive_one (by simp only [StreamReader.handleEvent, hhandle, StreamReader.goOn])
      | some kind =>
          obtain ⟨client', hhandle, htook⟩ :=
            h.took_text hend kind o.segmentId o.text o.metaMap
          refine ⟨.text kind o.segmentId o.text o.metaMap (some r.deliverySeq) (some r.endSample),
            client', ?_, ?_, htook, rfl⟩
          · simp only [ResponseState.project, hp, hkind]
          · exact receive_one (by simp only [StreamReader.handleEvent, hhandle, StreamReader.goOn])
  | terminal o => exact absurd hp (hpayload o)

/-- An `error` event is a warning for the client. -/
theorem Next.warning (h : Next client r) (code message : String) :
    ∃ client', client.handleEvent (.error code message) = .ok (false, client')
      ∧ Next client' r ∧ client'.terminals = client.terminals := by
  refine ⟨{ client with lastError := message }.putMessage
    (.warning code message client.responseId), rfl, ⟨h.seq, h.start, h.audio, h.resume⟩, ?_⟩
  exact putMessage_terminals { client with lastError := message } rfl

/-- The `response.done` with the number of the next delivery ends the reader. -/
theorem Next.done (h : Next client r) (response : ResponseObject) :
    ∃ client', client.handleEvent
        (.responseDone response (some r.deliverySeq) (some r.endSample)) = .ok (true, client')
      ∧ client'.cursor = (r.deliverySeq, r.endSample)
      ∧ client'.terminals = client.terminals + 1 := by
  obtain ⟨hbegin, hskips⟩ := h.begin
  simp only [StreamReader.handleEvent, StreamReader.handleDone, hbegin, hskips, Bool.false_eq_true,
    if_false, StreamReader.commitNext, Option.getD_some]
  refine ⟨_, rfl, (StreamReader.commitDelivery_moved _ _ _).cursor, ?_⟩
  rw [StreamReader.terminals, (StreamReader.commitDelivery_moved _ _ _).messages]
  simp [StreamReader.terminals, StreamReader.putMessage, StreamMessage.isTerminal]

/-- Events that the client has no branch for. -/
theorem receive_other (type : String) (events : List ServerEvent) :
    receive client (.other type :: events) = receive client events := by
  simp only [receive, StreamReader.handleEvent]

/-- `_finish_response` with the number and the end of the next delivery ends the reader. -/
theorem Next.finish (usage diagnostics : ResponseState → List (String × String))
    (st : ResponseState) (h : Next client r) (hfinished : st.finished = false)
    (hseq : st.terminalDeliverySeq = r.deliverySeq) (hsamples : st.audioSamples = r.endSample)
    (status : TerminalStatus) (message : String) :
    ∃ events client', st.finishResponse usage diagnostics status message
        = (events, { st with finished := true })
      ∧ receive client events = (client', .ended)
      ∧ client'.cursor = (r.deliverySeq, r.endSample)
      ∧ client'.terminals = client.terminals + 1 ∧ doneEvents events = 1 := by
  obtain ⟨client', hdone, hcursor, hterminals⟩ :=
    h.done (st.responsePayload usage diagnostics status message)
  refine ⟨_, client', if_neg (by simp [hfinished]), ?_, hcursor, hterminals, rfl⟩
  rw [receive_other, receive_other, receive_other, hseq, hsamples, receive, hdone]

/-- The events of the terminal output end the reader, with one terminal message. -/
theorem Next.projectTerminal (usage diagnostics : ResponseState → List (String × String))
    (h : Next client r) {o : TerminalOutput} (hp : r.payload = .terminal o)
    (hfinished : st.finished = false) (hsamples : st.audioSamples = r.endSample) :
    ∃ events st' client', st.project usage diagnostics (.delivery r) = (events, st', false)
      ∧ receive client events = (client', .ended)
      ∧ client'.cursor = (r.deliverySeq, r.endSample)
      ∧ client'.terminals = client.terminals + 1 ∧ doneEvents events = 1
      ∧ st'.audioSamples = st.audioSamples := by
  have hfinish (client : StreamReader) (h : Next client r) :=
    Next.finish usage diagnostics { st with terminalDeliverySeq := r.deliverySeq } h hfinished rfl
      hsamples (st.terminalStatus.getD o.status) st.terminalFailureMessage
  simp only [ResponseState.project, hp, ResponseState.projectTerminal]
  split
  · obtain ⟨warned, hwarn, hnext, hsame⟩ := h.warning "synthesis_failed"
      (if st.terminalFailureMessage ≠ "" then st.terminalFailureMessage
        else if o.message ≠ "" then o.message else "engine synthesis failed")
    obtain ⟨events, client', heq, hreceive, hcursor, hterminals, hdone⟩ := hfinish warned hnext
    rw [heq]
    refine ⟨_, _, client', rfl, ?_, hcursor, by rw [hterminals, hsame], hdone, rfl⟩
    rw [List.cons_append, List.nil_append, receive, hwarn]
    exact hreceive
  · obtain ⟨events, client', heq, hreceive, hcursor, hterminals, hdone⟩ := hfinish client h
    rw [heq]
    exact ⟨_, _, client', rfl, hreceive, hcursor, hterminals, hdone, rfl⟩

/-- A projection does not touch the samples that the observer has counted. -/
theorem project_audioSamples (usage diagnostics : ResponseState → List (String × String))
    (st : ResponseState) (m : LedgerMessage) :
    (st.project usage diagnostics m).2.1.audioSamples = st.audioSamples := by
  have hfinish (st : ResponseState) (status : TerminalStatus) (message : String) :
      (st.finishResponse usage diagnostics status message).2.audioSamples = st.audioSamples := by
    unfold ResponseState.finishResponse
    split
    · rfl
    · rfl
  cases m with
  | fence g => rfl
  | failure e => exact hfinish st .failed e.message
  | delivery r =>
      simp only [ResponseState.project]
      split
      · rfl
      · rfl
      · split
        · rfl
        · rfl
      · exact hfinish _ _ _

end

/-! ## The ledger under the exchange -/

section
variable {s : DeliveryLedger} {jsonLen : SessionOutput → Nat}

/-- Behind a cursor of a chain stands the rest of the chain. -/
theorem chained_filter {a b c : Int × Int} {rs : List ReliableDelivery} (h : Chained a rs b)
    (hc : c = a ∨ ∃ r ∈ rs, r.deliverySeq = c.1 ∧ r.endSample = c.2) :
    Chained c (rs.filter fun r => c.1 < r.deliverySeq) b := by
  induction rs generalizing a with
  | nil =>
      rcases hc with rfl | ⟨r, hr, -⟩
      · exact h
      · cases hr
  | cons r rs ih =>
      obtain ⟨hseq, hstart, hend, hrest⟩ := h
      by_cases hbefore : c.1 < r.deliverySeq
      · -- the cursor is the start of the chain: every delivery of it is newer
        have hca : c = a := by
          rcases hc with rfl | ⟨r', hr', hr₁, -⟩
          · rfl
          · have hmem := (show Chained a (r :: rs) b from ⟨hseq, hstart, hend, hrest⟩).mem hr'
            rcases List.mem_cons.1 hr' with rfl | hin
            · omega
            · have := hrest.mem hin
              simp only at this
              omega
        subst hca
        have hkeep : (r :: rs).filter (fun r => decide (c.1 < r.deliverySeq)) = r :: rs := by
          refine List.filter_eq_self.2 fun r' hr' => ?_
          have hmem := (show Chained c (r :: rs) b from ⟨hseq, hstart, hend, hrest⟩).mem hr'
          simpa using hmem.1
        rw [hkeep]
        exact ⟨hseq, hstart, hend, hrest⟩
      · rw [List.filter_cons_of_neg (by simpa using hbefore)]
        refine ih hrest ?_
        rcases hc with rfl | ⟨r', hr', hr₁, hr₂⟩
        · omega
        · rcases List.mem_cons.1 hr' with rfl | hin
          · exact .inl (by rw [hr₁, hr₂])
          · exact .inr ⟨r', hin, hr₁, hr₂⟩

/-- What an accepted `attach` replays continues its cursor to the end of the log. -/
theorem replayed_chained (h : LogInv s) {seq sample : Int}
    (hcur : s.IsDeliveryEnd seq sample) :
    Chained (seq, sample) (s.replayed seq) (s.nextDeliverySeq - 1, s.nextAudioSample) := by
  refine chained_filter (c := (seq, sample)) h.chained ?_
  rcases hcur with ⟨rfl, rfl⟩ | hmem
  · exact .inl rfl
  · exact .inr hmem

/-- The trimming loop keeps some of the records, and touches neither the counters of the end nor the
terminal. -/
theorem trim_keeps (seq sample : Int) (rs : List ReliableDelivery) (s : DeliveryLedger) :
    (trim seq sample rs s).records ⊆ rs
      ∧ (trim seq sample rs s).nextDeliverySeq = s.nextDeliverySeq
      ∧ (trim seq sample rs s).nextAudioSample = s.nextAudioSample
      ∧ (trim seq sample rs s).terminal = s.terminal := by
  induction rs generalizing s with
  | nil => exact ⟨List.Subset.refl _, rfl, rfl, rfl⟩
  | cons r rs ih =>
      unfold trim
      split
      · exact ⟨List.Subset.refl _, rfl, rfl, rfl⟩
      · split
        · exact ⟨List.Subset.refl _, rfl, rfl, rfl⟩
        · obtain ⟨hsub, hseq, hsample, hterminal⟩ := ih
            { s with
              retainedBytes := s.retainedBytes - r.retainedBytes
              trimmedThroughSeq := r.deliverySeq
              trimmedAudioSample := max s.trimmedAudioSample r.endSample }
          exact ⟨fun x hx => List.mem_cons_of_mem _ (hsub hx), hseq, hsample, hterminal⟩

theorem acknowledge_keeps (s : DeliveryLedger) (generation : Nat) (seq sample : Int) :
    (s.acknowledge generation seq sample).2.records ⊆ s.records
      ∧ (s.acknowledge generation seq sample).2.nextDeliverySeq = s.nextDeliverySeq
      ∧ (s.acknowledge generation seq sample).2.nextAudioSample = s.nextAudioSample
      ∧ (s.acknowledge generation seq sample).2.terminal = s.terminal := by
  have hsame : s.records ⊆ s.records ∧ s.nextDeliverySeq = s.nextDeliverySeq
      ∧ s.nextAudioSample = s.nextAudioSample ∧ s.terminal = s.terminal :=
    ⟨List.Subset.refl _, rfl, rfl, rfl⟩
  unfold acknowledge
  split
  · exact hsame
  · split
    · exact hsame
    · split
      · exact hsame
      · split
        · exact hsame
        · split
          · exact hsame
          · split
            · exact hsame
            · exact trim_keeps seq sample s.records
                { s with ackedDeliverySeq := seq, ackedAudioSample := sample }

/-- A message that the attachment is told is the last one that waits for it. -/
theorem notify_ok {t : DeliveryLedger} {g : Nat} {m : LedgerMessage} (hg : s.attachment = some g)
    (h : s.notify m = (.ok (), t)) :
    ∃ queues, t = s.setQueues queues ∧ (queues g).waiting = (s.queues g).waiting ++ [m] := by
  simp only [notify, hg, putControl] at h
  split at h
  · cases h
  · next q hput =>
    cases h
    refine ⟨_, rfl, ?_⟩
    rw [Function.update_self]
    exact Mailbox.put_waiting hput

/-- A message that the attachment has no room for changes nothing. -/
theorem notify_error {t : DeliveryLedger} {e : LedgerError} {m : LedgerMessage}
    (h : s.notify m = (.error e, t)) : t = s := by
  simp only [notify] at h
  split at h
  · cases h
  · simp only [putControl] at h
    split at h
    · cases h
      rfl
    · cases h

/-- Putting reads nothing. -/
theorem putControl_taken (s : DeliveryLedger) (generation g : Nat) (m : LedgerMessage) :
    ((s.putControl generation m).2.queues g).taken = (s.queues g).taken := by
  unfold putControl
  split
  · rfl
  · next q hput =>
    by_cases hg : g = generation
    · subst hg
      simp only [setQueues, Function.update_self]
      unfold Mailbox.put at hput
      split at hput
      · cases hput
      · cases hput
        rfl
    · simp only [setQueues, Function.update_of_ne hg]

theorem replay_taken (generation g : Nat) (seq : Int) (rs : List ReliableDelivery)
    (s : DeliveryLedger) :
    ((replay generation seq rs s).2.queues g).taken = (s.queues g).taken := by
  induction rs generalizing s with
  | nil => rfl
  | cons r rs ih =>
      have hput := putControl_taken s generation g (.delivery r)
      unfold replay
      split
      · exact ih s
      · split
        · next hq =>
          rw [hq] at hput
          exact hput
        · next hq =>
          rw [hq] at hput
          rw [ih, hput]

/-- Nothing was read yet of a new attachment. -/
theorem attach_taken {seq sample : Int} (hc : s.checkAttach seq sample = .ok ()) :
    ((s.attach seq sample).2.queues (s.generation + 1)).taken = 0 := by
  have hinstall : (s.install.queues (s.generation + 1)).taken = 0 := by
    simp only [install, Function.update_self]
    rfl
  have hfence : ((s.install.fenceOld s.attachment).2.queues (s.generation + 1)).taken = 0 := by
    unfold fenceOld
    split
    · exact hinstall
    · rw [putControl_taken, hinstall]
  unfold attach
  rw [hc]
  dsimp only
  split
  · next hq =>
    rw [hq] at hfence
    exact hfence
  · next s₁ hq =>
    rw [hq] at hfence
    have hreplay := replay_taken s₁.generation (s.generation + 1) seq s₁.records s₁
    split
    · next hq' =>
      rw [hq'] at hreplay
      rw [hreplay, hfence]
    · next hq' =>
      rw [hq'] at hreplay
      rw [hreplay, hfence]

/-- The record that the ledger makes of a plain output is sound. -/
theorem recordOf_sound {payload : SessionOutput} {range : Int × Int}
    (hrange : s.sampleRange payload = .ok range) (hplain : Exchange.PlainAudio payload) :
    Sound (s.recordOf jsonLen payload range) := by
  cases payload with
  | audio o =>
      obtain ⟨hne, hwidth, hmono⟩ := hplain
      refine ⟨hne, ?_⟩
      have hchannels : (max 1 o.audio.channels).toNat = 1 := by
        rw [max_eq_left hmono]
        rfl
      simp only [sampleRange, audioSampleCount, hwidth, hchannels, Nat.mul_one] at hrange
      split at hrange
      · cases hrange
      · split at hrange
        · cases hrange
        · next expected hcount =>
          split at hcount
          · cases hcount
          · cases hcount
            split at hrange
            · cases hrange
            · cases hrange
              simp only [recordOf]
              omega
  | started o =>
      cases hrange
      rfl
  | event o =>
      cases hrange
      rfl
  | terminal o =>
      cases hrange
      rfl

end

/-! ## The invariant of the exchange -/

namespace Exchange

/-- Every delivery of `rs` has a sound sample range, and a terminal among them was the last output and
ends at the samples that the observer has counted. -/
structure Faithful (x : Exchange) (rs : List ReliableDelivery) : Prop where
  sound : ∀ r ∈ rs, Sound r
  terminal : ∀ r ∈ rs, isTerminal r.payload →
    x.pumping = false ∧ r.endSample = x.state.audioSamples

/-- The reader is reading and nothing has ended it, or one terminal message has. -/
def Ending (x : Exchange) : Prop :=
  (x.outcome = .reading ∧ x.dones = 0 ∧ x.client.terminals = 0)
    ∨ (x.outcome = .ended ∧ x.dones = 1 ∧ x.client.terminals = 1)

/-- The invariant. -/
structure Inv (x : Exchange) : Prop where
  log : LogInv x.ledger
  issued : x.ledger.Issued
  records : x.Faithful x.ledger.records
  pump : x.pumping → x.state.audioSamples = x.ledger.nextAudioSample
  reader : x.outcome = .reading →
    x.client.audioSampleCursor = x.client.audioThroughSample ∧ x.client.resumeSupported = true
  unfinished : x.connected → x.projecting → x.state.finished = false
  attached : x.connected → x.ledger.attachment = some x.generation
  queue : x.connected → ∃ rs b, x.pending = rs.map .delivery ∧ x.Faithful rs
    ∧ Chained x.client.cursor rs b ∧ (x.pumping → b = (x.ledger.nextDeliverySeq - 1, x.ledger.nextAudioSample))
  followed : ∀ p ∈ x.handled, p.2 = (p.1.deliverySeq, p.1.endSample)
  chain : Chained (0, 0) (x.handled.map (·.1)) x.client.cursor
  ending : x.Ending

section
variable {usage : ResponseState → List (String × String)}
  {diagnostics : ResponseState → List (String × String)} {jsonLen : SessionOutput → Nat}
  {x : Exchange}

/-- The invariant is the agreement. -/
theorem Inv.agrees (h : x.Inv) : x.Agrees where
  followed := h.followed
  consecutive := by
    have hseqs := h.chain.seqs
    rw [List.map_map, List.length_map] at hseqs
    simpa [Function.comp_def] using hseqs
  no_error e he := by
    rcases h.ending with ⟨hreading, -⟩ | ⟨hended, -⟩
    · rw [hreading] at he
      cases he
    · rw [hended] at he
      cases he
  done := by
    rcases h.ending with ⟨hreading, hdones, hterminals⟩ | ⟨hended, hdones, hterminals⟩
    · rw [hdones, hterminals]
      exact ⟨rfl, Nat.zero_le _, fun hpos => absurd hpos (lt_irrefl 0)⟩
    · rw [hdones, hterminals]
      exact ⟨rfl, le_rfl, fun _ => hended⟩

/-- What a numbered output adds to deliveries that are faithful while the pump runs. -/
theorem Faithful.publish {rs : List ReliableDelivery} {payload : SessionOutput} {range : Int × Int}
    {x' : Exchange} (h : x.Faithful rs) (hpumping : x.pumping)
    (hsamples : x.state.audioSamples = x.ledger.nextAudioSample)
    (hadmits : x.ledger.Admits jsonLen payload range) (hplain : PlainAudio payload)
    (hpumping' : isTerminal payload → x'.pumping = false)
    (hsamples' : isTerminal payload → x'.state.audioSamples = x.state.audioSamples) :
    x'.Faithful (rs ++ [x.ledger.recordOf jsonLen payload range]) where
  sound r hr := by
    rcases List.mem_append.1 hr with hr | hr
    · exact h.sound r hr
    · rw [List.mem_singleton.1 hr]
      exact recordOf_sound hadmits.2.1 hplain
  terminal r hr ht := by
    rcases List.mem_append.1 hr with hr | hr
    · -- the pump was running, so no earlier output was the last one
      have hstopped := (h.terminal r hr ht).1
      rw [hpumping] at hstopped
      cases hstopped
    · obtain rfl := List.mem_singleton.1 hr
      refine ⟨hpumping' ht, ?_⟩
      rw [hsamples' ht, hsamples]
      cases payload with
      | terminal o =>
          have hrange := hadmits.2.1
          cases hrange
          rfl
      | started o => cases ht
      | audio o => cases ht
      | event o => cases ht

/-- Deliveries that are faithful stay so when the pump stops. -/
theorem Faithful.mono {rs rs' : List ReliableDelivery} {x' : Exchange} (h : x.Faithful rs)
    (hsub : rs' ⊆ rs) (hpumping : x'.pumping → x.pumping)
    (hsamples : x'.state.audioSamples = x.state.audioSamples) : x'.Faithful rs' where
  sound r hr := h.sound r (hsub hr)
  terminal r hr ht := by
    obtain ⟨hstopped, hend⟩ := h.terminal r (hsub hr) ht
    refine ⟨?_, by rw [hsamples, hend]⟩
    cases hp : x'.pumping with
    | false => rfl
    | true =>
        rw [hpumping hp] at hstopped
        cases hstopped

/-- The observer counts the samples that the ledger has counted. -/
theorem observe_audioSamples {payload : SessionOutput} {range : Int × Int}
    (hsamples : x.state.audioSamples = x.ledger.nextAudioSample)
    (hrange : x.ledger.sampleRange payload = .ok range) :
    (x.state.observeReliableOutput usage payload).audioSamples
      = max x.ledger.nextAudioSample range.2 := by
  cases payload with
  | audio o =>
      have hend : o.outputSampleEnd = range.2 := by
        simp only [sampleRange] at hrange
        split at hrange
        · cases hrange
        · split at hrange
          · cases hrange
          · split at hrange
            · cases hrange
            · cases hrange
              rfl
      simp only [ResponseState.observeReliableOutput, hsamples, hend]
  | started o =>
      cases hrange
      simp only [ResponseState.observeReliableOutput, hsamples, max_self]
  | event o =>
      cases hrange
      simp only [ResponseState.observeReliableOutput, hsamples, max_self]
  | terminal o =>
      cases hrange
      simp only [ResponseState.observeReliableOutput, hsamples, max_self]

/-- A terminal output leaves the counted samples alone. -/
theorem observe_terminal {payload : SessionOutput} (ht : isTerminal payload) :
    (x.state.observeReliableOutput usage payload).audioSamples = x.state.audioSamples := by
  cases payload with
  | terminal o => rfl
  | started o => cases ht
  | audio o => cases ht
  | event o => cases ht

/-- The pump publishes. -/
theorem Inv.publish (h : x.Inv) (payload : SessionOutput) (hpumping : x.pumping)
    (hplain : PlainAudio payload) (hroom : x.connected → ¬ x.ledger.Exceeds jsonLen payload) :
    (x.publishNext usage jsonLen payload).Inv := by
  have hlog := publish_logInv jsonLen h.log payload
  have hissued : (x.ledger.publish jsonLen payload).2.Issued :=
    step_issued jsonLen x.ledger (.publish payload) h.issued
  have hsamples := h.pump hpumping
  have hstopped : ∀ {p : Prop}, false = true → p := fun hp => absurd hp Bool.false_ne_true
  unfold publishNext
  rcases publish_cases jsonLen x.ledger payload with
    ⟨e, hpub⟩ | ⟨hexceeds, e, queues, hpub⟩ | ⟨range, hadmits, hcase⟩
  · rw [hpub]
    refine ⟨h.log, h.issued, h.records.mono (List.Subset.refl _) hstopped rfl,
      hstopped, h.reader, h.unfinished, h.attached, ?_, h.followed, h.chain, h.ending⟩
    intro hconnected
    obtain ⟨rs, b, hpending, hfaithful, hchained, -⟩ := h.queue hconnected
    exact ⟨rs, b, hpending, hfaithful.mono (List.Subset.refl _) hstopped rfl, hchained,
      hstopped⟩
  · -- the failure goes into a queue that nobody reads
    have hlost : ¬ x.connected := fun hconnected => hroom hconnected hexceeds
    rw [hpub] at hlog hissued ⊢
    exact ⟨hlog, hissued, h.records.mono (List.Subset.refl _) hstopped rfl,
      hstopped, h.reader, h.unfinished, fun hconnected => absurd hconnected hlost,
      fun hconnected => absurd hconnected hlost, h.followed, h.chain, h.ending⟩
  · obtain ⟨hstart, hend⟩ := sampleRange_ok hadmits.2.1
    rcases hcase with ⟨hnotify, hok⟩ | ⟨e, hnotify, herror⟩
    · obtain ⟨ledger, hledger⟩ : ∃ ledger, ledger = (x.ledger.publish jsonLen payload).2 := ⟨_, rfl⟩
      have hpub : x.ledger.publish jsonLen payload
          = (.ok (x.ledger.recordOf jsonLen payload range), ledger) := by
        rw [← hok, hledger]
      obtain ⟨queues, hframe⟩ := notify_frame (x.ledger.append (x.ledger.recordOf jsonLen payload range))
        (.delivery (x.ledger.recordOf jsonLen payload range))
      rw [hnotify, ← hledger] at hframe
      rw [← hledger] at hlog hissued hnotify
      have hframe' : ledger
          = (x.ledger.append (x.ledger.recordOf jsonLen payload range)).setQueues queues := hframe
      rw [hpub]
      refine ⟨hlog, hissued, ?_, ?_, h.reader, ?_, ?_, ?_, h.followed, h.chain, h.ending⟩
      · simp only [hframe', setQueues, append]
        exact h.records.publish hpumping hsamples hadmits hplain (fun ht => by simp [ht])
          observe_terminal
      · intro _
        rw [observe_audioSamples hsamples hadmits.2.1]
        simp only [hframe', setQueues, append, recordOf]
      · intro hconnected hprojecting
        have hfinished := h.unfinished hconnected hprojecting
        cases payload <;> exact hfinished
      · intro hconnected
        simp only [hframe', setQueues, append]
        exact h.attached hconnected
      · intro hconnected
        obtain ⟨rs, b, hpending, hfaithful, hchained, hb⟩ := h.queue hconnected
        obtain ⟨queues', heq, hwaiting⟩ := notify_ok
          (s := x.ledger.append (x.ledger.recordOf jsonLen payload range))
          (h.attached hconnected) hnotify
        have hb' := hb hpumping
        subst hb'
        refine ⟨rs ++ [x.ledger.recordOf jsonLen payload range], _, ?_, ?_,
          hchained.snoc (r := x.ledger.recordOf jsonLen payload range) ?_ ?_ ?_, ?_⟩
        · simp only [pending, heq, setQueues, List.map_append, List.map_cons, List.map_nil]
          rw [hwaiting]
          exact congrArg (· ++ _) hpending
        · exact hfaithful.publish hpumping hsamples hadmits hplain (fun ht => by simp [ht])
            observe_terminal
        · simp [recordOf]
        · exact hstart
        · exact hend
        · intro _
          simp only [heq, setQueues, append, recordOf, max_eq_right hend, Prod.mk.injEq, and_true]
          omega
    · have hledger := notify_error hnotify
      have hpub : x.ledger.publish jsonLen payload
          = (.error e, x.ledger.append (x.ledger.recordOf jsonLen payload range)) := by
        rw [← herror, ← hledger]
      rw [hledger] at hlog hissued
      rw [hpub]
      refine ⟨hlog, hissued, ?_, hstopped, h.reader, h.unfinished, h.attached, ?_,
        h.followed, h.chain, h.ending⟩
      · exact h.records.publish hpumping hsamples hadmits hplain (fun _ => rfl) (fun _ => rfl)
      · intro hconnected
        obtain ⟨rs, b, hpending, hfaithful, hchained, -⟩ := h.queue hconnected
        exact ⟨rs, b, hpending, hfaithful.mono (List.Subset.refl _) hstopped rfl,
          hchained, hstopped⟩

/-- An acknowledgement of the client. -/
theorem Inv.acknowledge (h : x.Inv) (seq sample : Int) :
    ({ x with ledger := (x.ledger.acknowledge x.generation seq sample).2 } : Exchange).Inv := by
  obtain ⟨hsub, hseq, hsample, -⟩ := acknowledge_keeps x.ledger x.generation seq sample
  obtain ⟨hattachment, hgeneration, hqueues⟩ :=
    acknowledge_attachment x.ledger x.generation seq sample
  refine ⟨acknowledge_logInv h.log x.generation seq sample, ?_, ?_, ?_, h.reader, h.unfinished, ?_, ?_,
    h.followed, h.chain, h.ending⟩
  · intro g hg
    rw [hgeneration]
    exact h.issued g (by rwa [hattachment] at hg)
  · exact h.records.mono hsub (fun hp => hp) rfl
  · intro hp
    rw [hsample]
    exact h.pump hp
  · intro hconnected
    rw [hattachment]
    exact h.attached hconnected
  · intro hconnected
    obtain ⟨rs, b, hpending, hfaithful, hchained, hb⟩ := h.queue hconnected
    refine ⟨rs, b, ?_, hfaithful.mono (List.Subset.refl _) (fun hp => hp) rfl, hchained, ?_⟩
    · simp only [pending, hqueues]
      exact hpending
    · rw [hseq, hsample]
      exact hb

/-- What the client reads of the next message. -/
theorem Inv.projectNext (h : x.Inv) (hconnected : x.connected) (hprojecting : x.projecting)
    (hreading : x.outcome = .reading) {m : LedgerMessage} {rest : List LedgerMessage}
    (hm : x.pending = m :: rest) : (x.projectNext usage diagnostics m).Inv := by
  obtain ⟨rs, b, hpending, hfaithful, hchained, hb⟩ := h.queue hconnected
  rw [hm] at hpending
  cases rs with
  | nil => cases hpending
  | cons r rs =>
      obtain ⟨rfl, rfl⟩ : m = .delivery r ∧ rest = rs.map .delivery := by
        simpa using hpending
      obtain ⟨hseq, hstart, hend, hchained'⟩ := hchained
      obtain ⟨haudio, hresume⟩ := h.reader hreading
      have hnext : Next x.client r := ⟨hseq, hstart, haudio, hresume⟩
      have hlog : LogInv x.take.ledger := h.log.frame ..
      have hrest : x.take.pending = rs.map .delivery := by
        simp only [pending, take, setQueues, Function.update_self]
        exact Mailbox.take_waiting hm
      have hfaithful' : x.Faithful rs :=
        hfaithful.mono (fun y hy => List.mem_cons_of_mem r hy) (fun hp => hp) rfl
      have hchain (client : StreamReader) (hcursor : client.cursor = (r.deliverySeq, r.endSample)) :
          Chained (0, 0) ((x.handled ++ [(r, client.cursor)]).map (·.1)) client.cursor := by
        rw [List.map_append, hcursor]
        exact h.chain.snoc hseq hstart hend
      have hfollowed (client : StreamReader)
          (hcursor : client.cursor = (r.deliverySeq, r.endSample)) :
          ∀ p ∈ x.handled ++ [(r, client.cursor)], p.2 = (p.1.deliverySeq, p.1.endSample) := by
        intro p hp
        rcases List.mem_append.1 hp with hp | hp
        · exact h.followed p hp
        · rw [List.mem_singleton.1 hp]
          exact hcursor
      have hzero : x.dones = 0 ∧ x.client.terminals = 0 := by
        rcases h.ending with ⟨-, hdones, hterminals⟩ | ⟨hended, -⟩
        · exact ⟨hdones, hterminals⟩
        · rw [hreading] at hended
          cases hended
      by_cases hterm : ∃ o, r.payload = .terminal o
      · obtain ⟨o, ho⟩ := hterm
        have hsamples : x.state.audioSamples = r.endSample :=
          (hfaithful.terminal r List.mem_cons_self (by rw [ho]; rfl)).2.symm
        obtain ⟨events, state, client, hproject, hreceive, hcursor, hterminals, hdone, hsame⟩ :=
          Next.projectTerminal usage diagnostics hnext ho (h.unfinished hconnected hprojecting)
            hsamples
        simp only [Exchange.projectNext, hproject, hreceive, handledWith]
        refine ⟨hlog, h.issued, h.records.mono (List.Subset.refl _) (fun hp => hp) hsame, ?_,
          ?_, (fun _ hp => absurd hp Bool.false_ne_true), h.attached, ?_, hfollowed client hcursor,
          hchain client hcursor, .inr ⟨rfl, ?_, ?_⟩⟩
        · intro hp
          rw [hsame]
          exact h.pump hp
        · intro hr
          cases hr
        · intro _
          refine ⟨rs, b, hrest, hfaithful'.mono (List.Subset.refl _) (fun hp => hp) hsame, ?_, hb⟩
          rw [hcursor]
          exact hchained'
        · rw [hzero.1, hdone]
        · rw [hterminals, hzero.2]
      · have hpayload : ∀ o, r.payload ≠ .terminal o := fun o ho => hterm ⟨o, ho⟩
        obtain ⟨e, client, hproject, hreceive, htook, hdone⟩ :=
          Next.project usage diagnostics x.state hnext (hfaithful.sound r List.mem_cons_self) hpayload
        simp only [Exchange.projectNext, hproject, hreceive, handledWith]
        refine ⟨hlog, h.issued, h.records.mono (List.Subset.refl _) (fun hp => hp) rfl, h.pump, ?_,
          (fun hc _ => h.unfinished hc hprojecting), h.attached, ?_, hfollowed client htook.cursor,
          hchain client htook.cursor, .inl ⟨rfl, ?_, ?_⟩⟩
        · intro _
          have hthrough : client.audioThroughSample = r.endSample := congrArg Prod.snd htook.cursor
          exact ⟨by rw [htook.audio, hthrough], htook.resume⟩
        · intro _
          refine ⟨rs, b, hrest, hfaithful'.mono (List.Subset.refl _) (fun hp => hp) rfl, ?_, hb⟩
          rw [htook.cursor]
          exact hchained'
        · rw [hzero.1, hdone]
        · rw [htook.terminals, hzero.2]

/-- The client resumes. -/
theorem Inv.resumeFrom (h : x.Inv) (hlost : ¬ x.connected) : x.resumeFrom.Inv := by
  have hlog := attach_logInv h.log x.client.lastDeliverySeq x.client.audioThroughSample
  have hissued : (x.ledger.attach x.client.lastDeliverySeq x.client.audioThroughSample).2.Issued :=
    step_issued (fun _ => 0) x.ledger
      (.attach x.client.lastDeliverySeq x.client.audioThroughSample) h.issued
  unfold Exchange.resumeFrom
  cases hc : x.ledger.checkAttach x.client.lastDeliverySeq x.client.audioThroughSample with
  | error e =>
      rw [attach_of_refused hc]
      exact h
  | ok u =>
      by_cases hover : x.ledger.AttachOverflows x.client.lastDeliverySeq
      · obtain ⟨e, queues, hattach⟩ := attach_of_overflow h.issued hc hover
        rw [hattach] at hlog hissued ⊢
        exact ⟨hlog, hissued, h.records.mono (List.Subset.refl _) (fun hp => hp) rfl, h.pump, h.reader,
          h.unfinished, fun hconnected => absurd hconnected hlost,
          fun hconnected => absurd hconnected hlost, h.followed, h.chain, h.ending⟩
      · obtain ⟨queues, hattach, hplaced, -⟩ := attach_of_room h.issued hc hover
        have hend : x.ledger.IsDeliveryEnd x.client.lastDeliverySeq x.client.audioThroughSample := by
          refine (h.log.validateCursor_iff _ _).1 ?_
          unfold checkAttach at hc
          split at hc
          · cases hc
          · split at hc
            · cases hc
            · exact hc
        have htaken := attach_taken hc
        rw [hattach] at hlog hissued htaken ⊢
        refine ⟨hlog, hissued, h.records.mono (List.Subset.refl _) (fun hp => hp) rfl, h.pump, h.reader,
          fun _ _ => rfl, fun _ => rfl, ?_, h.followed, h.chain, h.ending⟩
        intro _
        refine ⟨x.ledger.replayed x.client.lastDeliverySeq, _, ?_,
          h.records.mono (fun r hr => List.mem_of_mem_filter hr) (fun hp => hp) rfl,
          replayed_chained h.log hend, fun _ => rfl⟩
        simp only [setQueues] at htaken
        simp only [pending, setQueues, Mailbox.waiting, htaken, List.drop_zero, hplaced]

/-- A clean event keeps the invariant. -/
theorem Inv.step (h : x.Inv) (e : ExchangeEvent) (hclean : x.Clean jsonLen e) :
    (x.step usage diagnostics jsonLen e).Inv := by
  cases e with
  | publish payload =>
      simp only [Exchange.step]
      split
      · next hpumping =>
        obtain ⟨hplain, hroom⟩ := hclean hpumping
        exact h.publish payload hpumping hplain hroom
      · exact h
  | acknowledge seq sample => exact h.acknowledge seq sample
  | project =>
      simp only [Exchange.step]
      split
      · next hrun =>
        obtain ⟨hconnected, hprojecting, hreading⟩ := hrun
        split
        · exact h
        · next hm => exact h.projectNext hconnected hprojecting hreading hm
      · exact h
  | lose =>
      exact ⟨h.log, h.issued, h.records.mono (List.Subset.refl _) (fun hp => hp) rfl, h.pump, h.reader,
        (fun hc => nomatch hc), (fun hc => nomatch hc), (fun hc => nomatch hc), h.followed, h.chain,
        h.ending⟩
  | projectLost =>
      simp only [Exchange.step]
      split
      · next hrun =>
        split
        · exact h
        · next m rest hm =>
          have hsame := project_audioSamples usage diagnostics x.state m
          refine ⟨h.log.frame .., h.issued,
            h.records.mono (List.Subset.refl _) (fun hp => hp) hsame, ?_, h.reader,
            fun hc => absurd hc hrun.1, h.attached, fun hc => absurd hc hrun.1, h.followed, h.chain,
            h.ending⟩
          intro hp
          rw [hsame]
          exact h.pump hp
      · exact h
  | resume =>
      simp only [Exchange.step]
      split
      · next hrun => exact h.resumeFrom hrun.1
      · exact h

/-- A new response agrees. -/
theorem init_inv (limits : LedgerLimits) (ackInterval : Nat) (responseId : String)
    (sampleRate : Int) : (init limits ackInterval responseId sampleRate).Inv where
  log := attach_logInv (init_logInv limits) 0 0
  issued := step_issued (fun _ => 0) (.init limits) (.attach 0 0) (fun _ hg => nomatch hg)
  records := ⟨(fun _ hr => nomatch hr), (fun _ hr => nomatch hr)⟩
  pump _ := rfl
  reader _ := ⟨rfl, rfl⟩
  unfinished _ _ := rfl
  attached _ := rfl
  queue _ := ⟨[], (0, 0), rfl, ⟨(fun _ hr => nomatch hr), (fun _ hr => nomatch hr)⟩, rfl, fun _ => rfl⟩
  followed _ hp := nomatch hp
  chain := rfl
  ending := .inl ⟨rfl, rfl, rfl⟩

end

/-- In every run of the pump, the projection, the client and the connection whose publications are
plain audio and stay within the replay window while the attachment is read: the client's cursor
follows every delivery to its number and its end sample, the client reports no gap, and every
`response.done` that it reads ends it with exactly one terminal message. -/
theorem delivery_agreement (usage diagnostics : ResponseState → List (String × String))
    (jsonLen : SessionOutput → Nat) (limits : LedgerLimits) (ackInterval : Nat) (responseId : String)
    (sampleRate : Int) (events : List ExchangeEvent)
    (h : Along (step usage diagnostics jsonLen) (Clean jsonLen)
      (init limits ackInterval responseId sampleRate) events) :
    (run (step usage diagnostics jsonLen) (init limits ackInterval responseId sampleRate)
      events).Agrees :=
  (run_induct (init_inv limits ackInterval responseId sampleRate)
    (fun _ e hx hclean => Inv.step hx e hclean) h).agrees

/-- A chunk of two samples at `start`. -/
def twoSamples (start : Int) : SessionOutput :=
  .audio ⟨"sid", [1, 2, 3, 4], ⟨"pcm_s16le", 24000, 1⟩, start, start + 2, []⟩

/-- A response of four outputs, with a loss and a resume in its middle. -/
def lossAndResume : List ExchangeEvent :=
  [.publish (.started ⟨"sid", ⟨"pcm_s16le", 24000, 1⟩, []⟩), .project, .publish (twoSamples 0),
    .publish (.event ⟨"sid", "text_progress", 0, "a", "", []⟩), .project, .lose, .projectLost,
    .publish (.terminal ⟨"sid", .completed, "", [], []⟩), .resume, .acknowledge 2 2, .project,
    .project]

theorem delivery_agreement_loss_and_resume :
    (run (step (fun _ => []) (fun _ => []) fun _ => 1)
      (init ⟨16, 8, by decide, by decide⟩ 8 "resp" 24000) lossAndResume).Agrees :=
  delivery_agreement (fun _ => []) (fun _ => []) (fun _ => 1) _ 8 "resp" 24000 lossAndResume
    (by decide)

/-- A replay window of six bytes overflows at the second chunk: the `response.done` of the failure
reaches the client with the number `0` of no delivery, the client drops it and reads on, and no
terminal message is ever put. -/
theorem failure_done_dropped :
    let x := run (step (fun _ => []) (fun _ => []) fun _ => 1)
      (init ⟨6, 8, by decide, by decide⟩ 8 "resp" 24000)
      [.publish (twoSamples 0), .publish (twoSamples 2), .project, .project]
    ¬ x.Agrees ∧ x.dones = 1 ∧ x.client.terminals = 0 ∧ x.outcome = .reading := by
  intro x
  refine ⟨?_, by decide, by decide, by decide⟩
  intro h
  exact absurd h.done.1 (by decide)

end Exchange

end Realtime

end StreamingTts.Gateway
