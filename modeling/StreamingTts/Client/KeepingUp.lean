import Mathlib.Data.PNat.Basic
import StreamingTts.Client.BrowserDelivery
import StreamingTts.Client.StreamSession
import StreamingTts.Gateway.RealtimeProjection

/-!
# Which clients keep up with the replay window

The three clients of the SDKs as the ledger sees them: the native websocket session, the Realtime
session and the browser client, each behind the projection of its gateway. The first two acknowledge
once in `stream_resume_ack_interval` deliveries; the browser client acknowledges the end of a response
and nothing before it. So a bound on the size of deliveries exists for the first two exactly when the
replay window has a byte for each delivery of an interval, and never for the browser client.
-/

namespace StreamingTts.Client

open Session Session.DeliveryLedger Lib

namespace KeepingUp

/-! ## The native websocket session -/

/-- The type of the event that an output becomes. -/
def eventType (name : String) : EventType :=
  if name = "done" then .done else if name = "error" then .error else .other name

/-- The format of an output as its header says it. -/
def audioFormat (f : Session.AudioFormat) : AudioFormat := ⟨f.encoding, f.channels.toNat⟩

/-- `send_projection` of `engine/gateway/native_session_gateway.py` with a delivery. -/
def nativeFrames (r : ReliableDelivery) : List ServerFrame :=
  let seq := some r.deliverySeq.toNat
  match r.payload with
  | .started o => [.event seq ⟨.other "start", "", some (audioFormat o.audio)⟩]
  | .audio o =>
      [.audioHeader ⟨seq, some o.outputSampleStart.toNat, some o.outputSampleEnd.toNat,
        audioFormat o.audio⟩, .audio o.pcmBytes]
  | .event o => [.event seq ⟨eventType o.eventType, o.message, none⟩]
  | .terminal o => [.event seq ⟨if o.status = .failed then .error else .done, o.message, none⟩]

/-- The session handles frames of its connection, until one raises or ends it. -/
def handleFrames (cfg : ResumeConfig) : StreamSession → List ServerFrame → Option StreamSession
  | s, [] => some s
  | s, f :: fs =>
      match s.handleIncomingFrame cfg s.conn s.generation f true with
      | (.next, s) => handleFrames cfg s fs
      | _ => none

/-- The acknowledgements among the frames that were written. -/
def ackedCursors (frames : List ClientFrame) : List (Int × Int) :=
  frames.filterMap fun
    | .ack seq sample => some (seq, sample)
    | _ => none

/-- `EngineWebSocketStreamSession`. -/
def native (cfg : ResumeConfig) : SdkClient StreamSession where
  deliver s r :=
    (handleFrames cfg s (nativeFrames r)).map fun s' =>
      (s', ackedCursors ((s'.written s.conn).drop (s.written s.conn).length))

/-! ## The Realtime session -/

/-- `OpenAIRealtimeStreamSession` behind `_run_reliable_response`. A delivery that does not move the
cursor of the client was not handled. -/
def realtime (usage diagnostics : Gateway.Realtime.ResponseState → List (String × String)) :
    SdkClient (Gateway.Realtime.ResponseState × Realtime.StreamReader) where
  deliver a r :=
    let (events, state, _) := a.1.project usage diagnostics (.delivery r)
    match Gateway.Realtime.receive a.2 events with
    | (client, .reading) =>
        if client.cursor = (r.deliverySeq, r.endSample) then
          some ((state, client), (client.acks.drop a.2.acks.length).map fun ack =>
            (ack.throughDeliverySeq, ack.audioThroughSample))
        else none
    | _ => none

/-! ## The browser client -/

/-- The browser client handles the events of a message. -/
def handleEvents : Browser.Reader → List Realtime.ServerEvent → Option Browser.Reader
  | s, [] => some s
  | s, e :: es =>
      match s.handleResponseEvent e with
      | .goesOn s => handleEvents s es
      | _ => none

/-- `RealtimeTTSClient` behind `_run_reliable_response`. -/
def browser (usage diagnostics : Gateway.Realtime.ResponseState → List (String × String)) :
    SdkClient (Gateway.Realtime.ResponseState × Browser.Reader) where
  deliver a r :=
    let (events, state, _) := a.1.project usage diagnostics (.delivery r)
    (handleEvents a.2 events).map fun client => ((state, client), [])

/-! ## The native session acknowledges -/

section
variable {cfg : ResumeConfig} {s s' : StreamSession}

/-- The session has handled everything through `cursor` and waits for the next delivery. -/
structure NativeReady (s : StreamSession) (cursor : Int × Int) : Prop where
  seq : (s.lastDeliverySeq : Int) = cursor.1
  sample : (s.audioThroughSample : Int) = cursor.2
  header : s.pendingAudioHeader = none
  running : s.transportFinished = false

/-- What `_maybe_ack_locked` does behind a delivery. -/
theorem maybeAck_spec (cfg : ResumeConfig) (s : StreamSession) (hsupported : s.resumeSupported = some true) :
    let q := s.maybeAck cfg s.conn s.generation true
    q.lastDeliverySeq = s.lastDeliverySeq ∧ q.audioThroughSample = s.audioThroughSample
      ∧ q.pendingAudioHeader = s.pendingAudioHeader ∧ q.transportFinished = s.transportFinished
      ∧ ((q.written s.conn = s.written s.conn ∧ q.deliveriesSinceAck = s.deliveriesSinceAck + 1
          ∧ q.deliveriesSinceAck < cfg.streamResumeAckInterval)
        ∨ (q.written s.conn
            = s.written s.conn ++ [.ack s.lastDeliverySeq s.audioThroughSample]
          ∧ q.deliveriesSinceAck = 0)) := by
  intro q
  simp only [q, StreamSession.maybeAck]
  split
  · next hlt => exact ⟨rfl, rfl, rfl, rfl, .inl ⟨rfl, rfl, hlt⟩⟩
  · have hsend (t : StreamSession) (ht : t.resumeSupported = some true) :
        t.sendDeliveryAck t.conn t.generation true
          = { t.write t.conn (.ack t.lastDeliverySeq t.audioThroughSample) with
              deliveriesSinceAck := 0 } := if_pos ⟨ht, rfl⟩
    rw [hsend { s with deliveriesSinceAck := s.deliveriesSinceAck + 1 } hsupported]
    exact ⟨rfl, rfl, rfl, rfl, .inr ⟨StreamSession.write_written_self _ _ _, rfl⟩⟩

/-- Session `t` is session `s` that has taken delivery `r` and is about to count it. -/
structure NativeTook (s : StreamSession) (r : ReliableDelivery) (t : StreamSession) : Prop where
  conn : t.conn = s.conn
  written : t.written = s.written
  since : t.deliveriesSinceAck = s.deliveriesSinceAck
  supported : t.resumeSupported = some true
  seq : (t.lastDeliverySeq : Int) = r.deliverySeq
  sample : (t.audioThroughSample : Int) = r.endSample
  header : t.pendingAudioHeader = none
  running : t.transportFinished = false

/-- A delivery that is counted is acknowledged if the interval is over. -/
theorem NativeTook.counted {t : StreamSession} {r : ReliableDelivery} (h : NativeTook s r t)
    (hs' : s' = t.maybeAck cfg t.conn t.generation true) :
    NativeReady s' (r.deliverySeq, r.endSample)
      ∧ ((ackedCursors ((s'.written s.conn).drop (s.written s.conn).length) = []
          ∧ s'.deliveriesSinceAck = s.deliveriesSinceAck + 1
          ∧ s'.deliveriesSinceAck < cfg.streamResumeAckInterval)
        ∨ (ackedCursors ((s'.written s.conn).drop (s.written s.conn).length)
            = [(r.deliverySeq, r.endSample)] ∧ s'.deliveriesSinceAck = 0)) := by
  obtain ⟨hseq, hsample, hheader, hrunning, hack⟩ := maybeAck_spec cfg t h.supported
  rw [← hs'] at hseq hsample hheader hrunning hack
  refine ⟨⟨by rw [hseq, h.seq], by rw [hsample, h.sample], by rw [hheader, h.header],
    by rw [hrunning, h.running]⟩, ?_⟩
  rw [h.conn] at hack
  rcases hack with ⟨hquiet, hcount, hlt⟩ | ⟨hacked, hzero⟩
  · refine .inl ⟨?_, by rw [hcount, h.since], hlt⟩
    rw [hquiet, h.written, List.drop_length]
    rfl
  · refine .inr ⟨?_, hzero⟩
    rw [hacked, h.written, List.drop_left]
    simp only [ackedCursors, List.filterMap_cons, List.filterMap_nil, h.seq, h.sample]

/-- The connection of a ready session is the current one. -/
theorem NativeReady.current {cursor : Int × Int} (h : NativeReady s cursor) :
    ¬ (s.generation ≠ s.generation ∨ s.transportFinished = true) := by
  rw [h.running]
  simp

/-- The session with an event queued, before the delivery is counted. -/
def tookEvent (s : StreamSession) (deliverySeq : Nat) (e : StreamEvent) : StreamSession :=
  let told : StreamSession :=
    { s with resumeSupported := some true, currentAudio := e.audio.getD s.currentAudio }
  { told.putMessage (.event e) with lastDeliverySeq := deliverySeq }

/-- What a ready session makes of the next event. -/
theorem NativeReady.event_eq {cursor : Int × Int} {seq : Int} (h : NativeReady s cursor)
    (hseq : seq = cursor.1 + 1) (e : StreamEvent) :
    handleFrames cfg s [.event (some seq.toNat) e]
      = if e.isTerminal then none
        else some ((tookEvent s seq.toNat e).maybeAck cfg s.conn s.generation true) := by
  have hlast := h.seq
  have hevent : s.handleIncomingFrame cfg s.conn s.generation (.event (some seq.toNat) e) true
      = { s with resumeSupported := some true }.acceptEvent cfg s.conn s.generation
        (some seq.toNat) e true := by
    simp only [StreamSession.handleIncomingFrame, StreamSession.handleEvent]
    rw [if_neg h.current, if_neg (by omega), if_neg (by omega), if_neg (by omega)]
  simp only [handleFrames, hevent, StreamSession.acceptEvent]
  cases e.isTerminal with
  | true => rfl
  | false => rfl

/-- The next event was taken. -/
theorem NativeReady.tookEvent {cursor : Int × Int} {r : ReliableDelivery} (h : NativeReady s cursor)
    (hseq : r.deliverySeq = cursor.1 + 1) (hend : r.endSample = cursor.2) (e : StreamEvent) :
    NativeTook s r (tookEvent s r.deliverySeq.toNat e) := by
  have hlast := h.seq
  refine ⟨rfl, rfl, rfl, rfl, ?_, ?_, h.header, h.running⟩
  · show ((r.deliverySeq.toNat : Nat) : Int) = r.deliverySeq
    omega
  · show (s.audioThroughSample : Int) = r.endSample
    rw [h.sample, hend]

/-- An event that a ready session goes on behind was taken. -/
theorem NativeReady.event {cursor : Int × Int} {r : ReliableDelivery} (h : NativeReady s cursor)
    (hseq : r.deliverySeq = cursor.1 + 1) (hend : r.endSample = cursor.2) {e : StreamEvent}
    (hhandle : handleFrames cfg s [.event (some r.deliverySeq.toNat) e] = some s') :
    ∃ t, NativeTook s r t ∧ s' = t.maybeAck cfg t.conn t.generation true := by
  rw [h.event_eq hseq] at hhandle
  split at hhandle
  · cases hhandle
  · exact ⟨_, h.tookEvent hseq hend e, (Option.some.inj hhandle).symm⟩

/-- The payload of the next delivery that a session goes on behind was taken. -/
theorem nextPayload_took {header : AudioHeader} {r : ReliableDelivery} {pcm : List UInt8}
    {t : StreamSession} (hfirst : header.first = s.audioThroughSample)
    (hlast : header.last = r.endSample.toNat) (hend : (s.audioThroughSample : Int) ≤ r.endSample)
    (hpos : 0 < r.deliverySeq) (hsupported : s.resumeSupported = some true)
    (hheader : s.pendingAudioHeader = none) (hrunning : s.transportFinished = false)
    (hnext : s.handleNextPayload cfg s.conn s.generation header r.deliverySeq.toNat pcm true
      = (.next, t)) :
    ∃ u, NativeTook s r u ∧ t = u.maybeAck cfg u.conn u.generation true := by
  unfold StreamSession.handleNextPayload at hnext
  dsimp only at hnext
  rw [if_neg (show ¬ (header.first < s.audioThroughSample ∧ _) by omega)] at hnext
  dsimp only at hnext
  split at hnext
  · next hold =>
    cases hnext
    refine ⟨{ s with lastDeliverySeq := r.deliverySeq.toNat },
      ⟨rfl, rfl, rfl, hsupported, ?_, ?_, hheader, hrunning⟩, rfl⟩
    · show ((r.deliverySeq.toNat : Nat) : Int) = r.deliverySeq
      omega
    · show (s.audioThroughSample : Int) = r.endSample
      omega
  · split at hnext
    · cases hnext
    · cases hnext
      refine ⟨{ s.putMessage (.audio (decodeAudioChunk header pcm)) with
          lastDeliverySeq := r.deliverySeq.toNat, audioThroughSample := header.last },
        ⟨rfl, rfl, rfl, hsupported, ?_, ?_, hheader, hrunning⟩, rfl⟩
      · show ((r.deliverySeq.toNat : Nat) : Int) = r.deliverySeq
        omega
      · show (header.last : Int) = r.endSample
        omega

/-- The header and the payload of an audio delivery that a ready session goes on behind were taken. -/
theorem NativeReady.audio {cursor : Int × Int} {r : ReliableDelivery} (h : NativeReady s cursor)
    (hseq : r.deliverySeq = cursor.1 + 1) (hstart : r.startSample = cursor.2)
    (hend : cursor.2 ≤ r.endSample) {header : AudioHeader}
    (hnumber : header.deliverySeq = some r.deliverySeq.toNat)
    (hfirst : header.first = r.startSample.toNat) (hlast : header.last = r.endSample.toNat)
    {pcm : List UInt8}
    (hhandle : handleFrames cfg s [.audioHeader header, .audio pcm] = some s') :
    ∃ t, NativeTook s r t ∧ s' = t.maybeAck cfg t.conn t.generation true := by
  have hcursor := h.seq
  have hsample := h.sample
  have hnat : r.deliverySeq.toNat = s.lastDeliverySeq + 1 := by omega
  have htold : s.handleIncomingFrame cfg s.conn s.generation (.audioHeader header) true
      = (.next, { s with resumeSupported := some true, pendingAudioHeader := some header }) := by
    simp only [StreamSession.handleIncomingFrame, StreamSession.handleAudioHeader]
    rw [if_neg h.current, if_neg (by simp [h.header]), hnumber]
    dsimp only
    rw [if_neg (by omega), if_neg (by omega)]
  simp only [handleFrames, htold] at hhandle
  let told : StreamSession :=
    { s with resumeSupported := some true, pendingAudioHeader := none }
  have hpayload : StreamSession.handleIncomingFrame cfg
        { s with resumeSupported := some true, pendingAudioHeader := some header }
        s.conn s.generation (.audio pcm) true
      = told.handleNextPayload cfg s.conn s.generation header r.deliverySeq.toNat pcm true := by
    simp only [StreamSession.handleIncomingFrame, StreamSession.handleAudioPayload]
    rw [if_neg h.current, hnumber]
    dsimp only
    rw [if_neg (by omega), if_neg (by omega)]
  rw [hpayload] at hhandle
  split at hhandle
  · next t ht =>
    cases hhandle
    obtain ⟨u, htook, heq⟩ := nextPayload_took (s := told) (r := r)
      (by rw [hfirst]; show r.startSample.toNat = s.audioThroughSample; omega) hlast
      (by show (s.audioThroughSample : Int) ≤ r.endSample; omega) (by omega) rfl rfl h.running ht
    exact ⟨u, ⟨htook.conn, htook.written, htook.since, htook.supported, htook.seq, htook.sample,
      htook.header, htook.running⟩, heq⟩
  · cases hhandle

/-- The native session acknowledges once in `stream_resume_ack_interval` deliveries. -/
theorem native_acknowledges (cfg : ResumeConfig) :
    (native cfg).Acknowledges cfg.streamResumeAckInterval StreamSession.deliveriesSinceAck
      NativeReady := by
  refine ⟨?_⟩
  intro s cursor r s' acks hready hseq hstart hend hranged hdeliver
  simp only [native, Option.map_eq_some_iff] at hdeliver
  obtain ⟨t, hhandle, heq⟩ := hdeliver
  obtain ⟨rfl, rfl⟩ := Prod.mk.inj heq
  obtain ⟨u, htook, hcounted⟩ : ∃ u, NativeTook s r u
      ∧ t = u.maybeAck cfg u.conn u.generation true := by
    unfold nativeFrames at hhandle
    unfold Ranged at hranged
    split at hhandle
    · next o ho =>
      rw [ho] at hranged
      exact hready.event hseq (hranged.trans hstart) hhandle
    · next o ho =>
      rw [ho] at hranged
      have hsample := hready.sample
      obtain ⟨hfirst, hlast⟩ := hranged
      refine hready.audio hseq hstart hend rfl ?_ ?_ hhandle
      · show o.outputSampleStart.toNat = r.startSample.toNat
        rw [hfirst]
      · show (if o.outputSampleEnd.toNat = 0 then o.outputSampleStart.toNat
          else o.outputSampleEnd.toNat) = r.endSample.toNat
        split <;> omega
    · next o ho =>
      rw [ho] at hranged
      exact hready.event hseq (hranged.trans hstart) hhandle
    · next o ho =>
      rw [ho] at hranged
      exact hready.event hseq (hranged.trans hstart) hhandle
  exact htook.counted hcounted

end

/-! ## The Realtime session acknowledges -/

section
open Realtime Gateway.Realtime

variable {client q : StreamReader} {n : Nat}

/-- Session `client` has handled everything through `cursor`. -/
structure RealtimeReady (n : Nat) (a : ResponseState × StreamReader) (cursor : Int × Int) : Prop where
  cursor : a.2.cursor = cursor
  supported : a.2.resumeSupported = true
  interval : a.2.streamResumeAckInterval = n

/-- Session `q` is session `client` with a delivery committed. -/
structure Counted (client : StreamReader) (seq sample : Int) (q : StreamReader) : Prop where
  cursor : q.cursor = (seq, sample)
  supported : q.resumeSupported = true
  interval : q.streamResumeAckInterval = client.streamResumeAckInterval
  acks : (q.acks = client.acks ∧ q.deliveriesSinceAck = client.deliveriesSinceAck + 1
      ∧ q.deliveriesSinceAck < client.streamResumeAckInterval)
    ∨ (q.acks = client.acks ++ [⟨false, seq, sample⟩] ∧ q.deliveriesSinceAck = 0)

/-- A delivery that is committed is acknowledged if the interval is over. -/
theorem commitDelivery_counted (seq sample : Int) (hsupported : client.resumeSupported = true) :
    Counted client seq sample (client.commitDelivery seq sample false) := by
  have hsend : (client.advance seq sample).countDelivery.sendDeliveryAck false
      = { (client.advance seq sample).countDelivery with
          acks := client.acks ++ [⟨false, seq, sample⟩], deliveriesSinceAck := 0 } := by
    unfold StreamReader.sendDeliveryAck
    rw [if_pos (show (client.advance seq sample).countDelivery.resumeSupported = true from hsupported)]
    rfl
  unfold StreamReader.commitDelivery
  rw [if_neg Bool.false_ne_true]
  split
  · rw [hsend]
    exact ⟨rfl, hsupported, rfl, .inr ⟨rfl, rfl⟩⟩
  · next hlt => exact ⟨rfl, hsupported, rfl, .inl ⟨rfl, rfl, not_le.1 hlt⟩⟩

/-- The delivery that is next moves the session on by what its event commits, or not at all. -/
theorem handleEvent_counted {seq start stop : Int} {e : ServerEvent} {ends : Bool}
    (hnext : seq = client.lastDeliverySeq + 1) (hsupported : client.resumeSupported = true)
    (hkind : e = .delivery (some seq) (some stop) ∨ e = .sessionEvent (some seq) (some stop)
      ∨ (∃ kind id text metaMap, e = .text kind id text metaMap (some seq) (some stop))
      ∨ ∃ pcm, e = .audioDelta (some pcm) (some seq) (some start) (some stop))
    (hhandle : client.handleEvent e = .ok (ends, q)) :
    q = client ∨ Counted client seq stop q := by
  have hbegin := StreamReader.beginDelivery_next hnext
  have hskips : client.skips (some seq) = false := by simp [StreamReader.skips]
  rcases hkind with rfl | rfl | ⟨kind, id, text, metaMap, rfl⟩ | ⟨pcm, rfl⟩
  · simp only [StreamReader.handleEvent, StreamReader.handleDelivery, hbegin, StreamReader.goOn,
      StreamReader.commitNext, Option.getD_some, Except.ok.injEq, Prod.mk.injEq] at hhandle
    rw [← hhandle.2]
    exact .inr (commitDelivery_counted seq stop hsupported)
  · simp only [StreamReader.handleEvent, StreamReader.handleDelivery, hbegin, StreamReader.goOn,
      StreamReader.commitNext, Option.getD_some, Except.ok.injEq, Prod.mk.injEq] at hhandle
    rw [← hhandle.2]
    exact .inr (commitDelivery_counted seq stop hsupported)
  · simp only [StreamReader.handleEvent, StreamReader.handleText, hbegin, hskips, StreamReader.goOn,
      StreamReader.commitNext, Option.getD_some, Bool.false_eq_true, if_false, Except.ok.injEq,
      Prod.mk.injEq] at hhandle
    rw [← hhandle.2]
    obtain ⟨hcursor, hkept, hinterval, hacks⟩ := commitDelivery_counted seq stop
      (show (client.putMessage (.text kind id text metaMap client.responseId)).resumeSupported = true
        from hsupported)
    exact .inr ⟨hcursor, hkept, hinterval, hacks⟩
  · simp only [StreamReader.handleEvent, StreamReader.handleAudioDelta, hbegin, hskips,
      Bool.false_eq_true, if_false, Option.getD_some] at hhandle
    cases pcm with
    | nil =>
        simp only [StreamReader.goOn, Except.ok.injEq, Prod.mk.injEq] at hhandle
        exact .inl hhandle.2.symm
    | cons byte pcm =>
        dsimp only at hhandle
        split at hhandle
        · cases hhandle
        · simp only [StreamReader.goOn, StreamReader.commitNext, Except.ok.injEq,
            Prod.mk.injEq] at hhandle
          rw [← hhandle.2]
          let taken : StreamReader :=
            { client with audioSampleCursor := stop, chunkIndex := client.chunkIndex + 1 }
          obtain ⟨hcursor, hkept, hinterval, hacks⟩ := commitDelivery_counted seq stop
            (show (taken.putMessage (.audio (byte :: pcm) taken.chunkIndex start stop
              client.responseId)).resumeSupported = true from hsupported)
          exact .inr ⟨hcursor, hkept, hinterval, hacks⟩

/-- A session that goes on behind the events of a terminal has not moved. -/
theorem receive_terminal {usage diagnostics : ResponseState → List (String × String)}
    {st : ResponseState} {r : ReliableDelivery} {o : TerminalOutput}
    (hnext : r.deliverySeq = client.lastDeliverySeq + 1)
    (hreceive : receive client (st.projectTerminal usage diagnostics r o).1 = (q, .reading)) :
    q.cursor = client.cursor := by
  have hdone {c : StreamReader} {response : ResponseObject} {sample : Option Int}
      (hc : c.lastDeliverySeq = client.lastDeliverySeq) :
      receive c [.other "response.output_audio.done", .other "response.content_part.done",
        .other "response.output_item.done", .responseDone response (some r.deliverySeq) sample]
          ≠ (q, .reading) := by
    have hseq : r.deliverySeq = c.lastDeliverySeq + 1 := by rw [hc, hnext]
    have hbegin := StreamReader.beginDelivery_next hseq
    have hskips : c.skips (some r.deliverySeq) = false := by simp [StreamReader.skips]
    simp only [receive, StreamReader.handleEvent, StreamReader.handleDone, hbegin, hskips,
      Bool.false_eq_true, if_false]
    exact fun hne => nomatch (Prod.mk.inj hne).2
  unfold ResponseState.projectTerminal ResponseState.finishResponse at hreceive
  dsimp only at hreceive
  cases hfinished : st.finished with
  | true =>
      simp only [hfinished, if_true] at hreceive
      split at hreceive
      · simp only [List.append_nil, receive, StreamReader.handleEvent, Prod.mk.injEq] at hreceive
        rw [← hreceive.1]
        rfl
      · simp only [List.append_nil, receive, Prod.mk.injEq] at hreceive
        rw [← hreceive.1]
  | false =>
      simp only [hfinished, Bool.false_eq_true, if_false] at hreceive
      split at hreceive
      · simp only [List.cons_append, List.nil_append] at hreceive
        rw [receive] at hreceive
        simp only [StreamReader.handleEvent] at hreceive
        exact absurd hreceive (hdone rfl)
      · simp only [List.nil_append] at hreceive
        exact absurd hreceive (hdone rfl)

/-- A session that goes on behind one event has handled it. -/
theorem receive_one {e : ServerEvent} (h : receive client [e] = (q, .reading)) :
    client.handleEvent e = .ok (false, q) := by
  simp only [receive] at h
  split at h
  · cases h
  · cases h
  · next heq =>
    cases h
    exact heq

/-- A session that a delivery has moved has counted it. -/
theorem receive_counted {usage diagnostics : ResponseState → List (String × String)}
    {st : ResponseState} {r : ReliableDelivery} (hnext : r.deliverySeq = client.lastDeliverySeq + 1)
    (hsupported : client.resumeSupported = true) (hmoved : q.cursor ≠ client.cursor)
    (hreceive : receive client (st.project usage diagnostics (.delivery r)).1 = (q, .reading)) :
    Counted client r.deliverySeq r.endSample q := by
  have hcount {e : ServerEvent}
      (hkind : e = .delivery (some r.deliverySeq) (some r.endSample)
        ∨ e = .sessionEvent (some r.deliverySeq) (some r.endSample)
        ∨ (∃ kind id text metaMap,
            e = .text kind id text metaMap (some r.deliverySeq) (some r.endSample))
        ∨ ∃ pcm, e = .audioDelta (some pcm) (some r.deliverySeq) (some r.startSample)
            (some r.endSample))
      (hone : receive client [e] = (q, .reading)) :
      Counted client r.deliverySeq r.endSample q := by
    rcases handleEvent_counted hnext hsupported hkind (receive_one hone) with rfl | hcounted
    · exact absurd rfl hmoved
    · exact hcounted
  simp only [ResponseState.project] at hreceive
  split at hreceive
  · exact hcount (.inl rfl) hreceive
  · exact hcount (.inr (.inr (.inr ⟨_, rfl⟩))) hreceive
  · split at hreceive
    · exact hcount (.inr (.inr (.inl ⟨_, _, _, _, rfl⟩))) hreceive
    · exact hcount (.inr (.inl rfl)) hreceive
  · exact absurd (receive_terminal hnext hreceive) hmoved

/-- The Realtime session acknowledges once in `stream_resume_ack_interval` deliveries. -/
theorem realtime_acknowledges (usage diagnostics : ResponseState → List (String × String)) (n : Nat) :
    (realtime usage diagnostics).Acknowledges n (fun a => a.2.deliveriesSinceAck)
      (RealtimeReady n) := by
  refine ⟨?_⟩
  rintro ⟨st, client⟩ cursor r a' acks hready hseq - hend - hdeliver
  have hcursor : client.cursor = cursor := hready.cursor
  have hnext : r.deliverySeq = client.lastDeliverySeq + 1 := by
    rw [hseq, ← hcursor]
    rfl
  simp only [realtime] at hdeliver
  split at hdeliver
  · next q hreceive =>
    split at hdeliver
    · next hmoved =>
      obtain ⟨rfl, rfl⟩ := Prod.mk.inj (Option.some.inj hdeliver)
      have hcounted : Counted client r.deliverySeq r.endSample q := by
        have hstill : q.cursor ≠ client.cursor := by
          intro hsame
          have hlast := congrArg Prod.fst (hmoved.symm.trans hsame)
          simp only [StreamReader.cursor] at hlast
          omega
        exact receive_counted hnext hready.supported hstill hreceive
      refine ⟨⟨hcounted.cursor, hcounted.supported, hcounted.interval.trans hready.interval⟩, ?_⟩
      rcases hcounted.acks with ⟨hacks, hsince, hlt⟩ | ⟨hacks, hsince⟩
      · refine .inl ⟨?_, hsince, ?_⟩
        · rw [hacks, List.drop_length, List.map_nil]
        · exact lt_of_lt_of_eq hlt hready.interval
      · refine .inr ⟨?_, hsince⟩
        rw [hacks, List.drop_left]
        rfl
    · cases hdeliver
  · cases hdeliver

end

/-! ## Clients that keep silent for too long -/

section
open Realtime Gateway.Realtime

variable {usage diagnostics : ResponseState → List (String × String)} {limits : LedgerLimits}

/-- The browser client acknowledges no event. -/
theorem browser_silent (a : ResponseState × Browser.Reader) {r : ReliableDelivery}
    (hpayload : r.payload = SdkClient.plainEvent) :
    (browser usage diagnostics).deliver a r = some (a, []) := by
  simp only [browser, ResponseState.project, hpayload, SdkClient.plainEvent]
  rfl

/-- The native session acknowledges no event before the interval is over. -/
theorem native_silent {cfg : ResumeConfig} {s : StreamSession} {seq : Int} {k : Nat}
    {r : ReliableDelivery} (hready : NativeReady s (seq, 0)) (hsince : s.deliveriesSinceAck = k)
    (hk : k + 1 < cfg.streamResumeAckInterval) (hpayload : r.payload = SdkClient.plainEvent)
    (hseq : r.deliverySeq = seq + 1) (hend : r.endSample = 0) :
    ∃ s', (native cfg).deliver s r = some (s', []) ∧ NativeReady s' (seq + 1, 0)
      ∧ s'.deliveriesSinceAck = k + 1 := by
  let e : StreamEvent := ⟨eventType "segment", "", none⟩
  have hplain : nativeFrames r = [.event (some r.deliverySeq.toNat) e] := by
    rw [nativeFrames, hpayload]
    rfl
  have hlast : e.isTerminal = false := rfl
  have hquiet : (tookEvent s r.deliverySeq.toNat e).maybeAck cfg s.conn s.generation true
      = { tookEvent s r.deliverySeq.toNat e with
          deliveriesSinceAck := s.deliveriesSinceAck + 1 } :=
    if_pos (by
      show s.deliveriesSinceAck + 1 < cfg.streamResumeAckInterval
      omega)
  have htook := hready.tookEvent hseq hend e
  refine ⟨(tookEvent s r.deliverySeq.toNat e).maybeAck cfg s.conn s.generation true, ?_, ?_, ?_⟩
  · simp only [native, hplain, hready.event_eq hseq, hlast, Bool.false_eq_true, if_false,
      Option.map_some, hquiet]
    have hwritten : (tookEvent s r.deliverySeq.toNat e).written s.conn = s.written s.conn := by
      rw [htook.written]
    rw [hwritten, List.drop_length]
    rfl
  · rw [hquiet, ← hseq, ← hend]
    exact ⟨htook.seq, htook.sample, htook.header, htook.running⟩
  · rw [hquiet, ← hsince]

/-- The Realtime session acknowledges no event before the interval is over. -/
theorem realtime_silent {n : Nat} {a : ResponseState × StreamReader} {seq : Int} {k : Nat}
    {r : ReliableDelivery} (hready : RealtimeReady n a (seq, 0))
    (hsince : a.2.deliveriesSinceAck = k) (hk : k + 1 < n)
    (hpayload : r.payload = SdkClient.plainEvent) (hseq : r.deliverySeq = seq + 1)
    (hend : r.endSample = 0) :
    ∃ a', (realtime usage diagnostics).deliver a r = some (a', []) ∧ RealtimeReady n a' (seq + 1, 0)
      ∧ a'.2.deliveriesSinceAck = k + 1 := by
  obtain ⟨st, client⟩ := a
  obtain ⟨hcursor, hsupported, hinterval⟩ := hready
  simp only at hcursor hsupported hinterval hsince
  have hnext : r.deliverySeq = client.lastDeliverySeq + 1 := by
    have hlast : client.lastDeliverySeq = seq := congrArg Prod.fst hcursor
    omega
  have hquiet : client.commitDelivery r.deliverySeq r.endSample false
      = (client.advance r.deliverySeq r.endSample).countDelivery := by
    unfold StreamReader.commitDelivery
    rw [if_neg Bool.false_ne_true, if_neg (by omega)]
  refine ⟨(st, (client.advance r.deliverySeq r.endSample).countDelivery), ?_, ⟨?_, ?_, ?_⟩, ?_⟩
  · have hevents : (st.project usage diagnostics (.delivery r)).1
        = [.sessionEvent (some r.deliverySeq) (some r.endSample)] := by
      simp only [ResponseState.project, hpayload, SdkClient.plainEvent]
      rfl
    have hstate : (st.project usage diagnostics (.delivery r)).2.1 = st := by
      simp only [ResponseState.project, hpayload, SdkClient.plainEvent]
      rfl
    have hreceive : receive client [.sessionEvent (some r.deliverySeq) (some r.endSample)]
        = ((client.advance r.deliverySeq r.endSample).countDelivery, .reading) := by
      simp only [receive, StreamReader.handleEvent, StreamReader.handleDelivery,
        StreamReader.beginDelivery_next hnext, StreamReader.commitNext, Option.getD_some, hquiet,
        StreamReader.goOn]
    simp only [realtime, hevents, hstate, hreceive]
    have hcursor' : (client.advance r.deliverySeq r.endSample).countDelivery.cursor
        = (r.deliverySeq, r.endSample) := rfl
    rw [if_pos hcursor']
    simp only [StreamReader.countDelivery, StreamReader.advance, List.drop_length, List.map_nil]
  · show (r.deliverySeq, r.endSample) = (seq + 1, 0)
    rw [hseq, hend]
  · exact hsupported
  · exact hinterval
  · show client.deliveriesSinceAck + 1 = k + 1
    rw [hsince]

/-! ## Which clients have a bound -/

/-- The clients of the SDKs that resume. -/
inductive Sdk
  | engineWebSocket
  | openAIRealtime
  | browser
  deriving DecidableEq, Repr

/-- Responses whose deliveries have at most `b` bytes never run out of the replay window while the
client keeps up, whatever else the configuration and the response are. -/
def Keeps (maxBufferBytes interval : ℕ+) (b : Nat) : Sdk → Prop
  | .engineWebSocket => ∀ (limits : LedgerLimits) (cfg : ResumeConfig),
      limits.maxBufferBytes = maxBufferBytes → cfg.streamResumeAckInterval = interval →
        (native cfg).NeverExceeds .new limits b
  | .openAIRealtime => ∀ (limits : LedgerLimits)
      (usage diagnostics : ResponseState → List (String × String)) (id : String) (rate : Int),
      limits.maxBufferBytes = maxBufferBytes →
        (realtime usage diagnostics).NeverExceeds (.init id rate, .init true interval) limits b
  | .browser => ∀ (limits : LedgerLimits)
      (usage diagnostics : ResponseState → List (String × String)) (id : String) (rate : Int),
      limits.maxBufferBytes = maxBufferBytes →
        (browser usage diagnostics).NeverExceeds (.init id rate, .init) limits b

/-- No bound saves the browser client. -/
theorem browser_not_keeps {maxBufferBytes interval : ℕ+} {b : Nat} (hb : 0 < b) :
    ¬ Keeps maxBufferBytes interval b .browser := by
  intro hkeeps
  refine absurd (hkeeps ⟨maxBufferBytes, 1, maxBufferBytes.pos, Nat.one_pos⟩ (fun _ => [])
    (fun _ => []) "" 0 rfl) ?_
  refine SdkClient.not_neverExceeds_of_silent (fun _ _ _ => True) ?_ trivial hb
  intro k a seq r _ _ hpayload _ _ _
  exact ⟨a, browser_silent a hpayload, trivial⟩

/-- A client has a bound on the size of deliveries that keeps it within the replay window if and only
if it is one of the two that acknowledge and the window has a byte for each delivery of its interval. -/
theorem keeps_up_iff (sdk : Sdk) (maxBufferBytes interval : ℕ+) :
    (∃ b > 0, Keeps maxBufferBytes interval b sdk) ↔ sdk ≠ .browser ∧ interval ≤ maxBufferBytes := by
  have hwindow : (interval : Nat) * (maxBufferBytes / interval : Nat) ≤ maxBufferBytes :=
    Nat.mul_div_le _ _
  have hlimits : ∃ limits : LedgerLimits, limits.maxBufferBytes = maxBufferBytes :=
    ⟨⟨maxBufferBytes, 1, maxBufferBytes.pos, Nat.one_pos⟩, rfl⟩
  constructor
  · rintro ⟨b, hb, hkeeps⟩
    obtain ⟨limits, hmax⟩ := hlimits
    cases sdk with
    | engineWebSocket =>
        refine ⟨nofun, ?_⟩
        by_contra hshort
        have hlt : (maxBufferBytes : Nat) < interval := not_le.1 hshort
        refine SdkClient.not_neverExceeds_of_silent
          (fun k s seq => NativeReady s (seq, 0) ∧ s.deliveriesSinceAck = k) ?_
          ⟨⟨rfl, rfl, rfl, rfl⟩, rfl⟩ hb (hkeeps limits ⟨"", interval, 0⟩ hmax rfl)
        rintro k s seq r hk ⟨hready, hsince⟩ hpayload hseq - hend
        exact native_silent hready hsince
          (by show k + 1 < (interval : Nat); omega) hpayload hseq hend
    | openAIRealtime =>
        refine ⟨nofun, ?_⟩
        by_contra hshort
        have hlt : (maxBufferBytes : Nat) < interval := not_le.1 hshort
        refine SdkClient.not_neverExceeds_of_silent
          (fun k a seq => RealtimeReady interval a (seq, 0) ∧ a.2.deliveriesSinceAck = k) ?_
          ⟨⟨rfl, rfl, rfl⟩, rfl⟩ hb (hkeeps limits (fun _ => []) (fun _ => []) "" 0 hmax)
        rintro k s seq r hk ⟨hready, hsince⟩ hpayload hseq - hend
        exact realtime_silent hready hsince (by omega) hpayload hseq hend
    | browser => exact absurd hkeeps (browser_not_keeps hb)
  · rintro ⟨hsdk, hle⟩
    have hle' : (interval : Nat) ≤ maxBufferBytes := hle
    refine ⟨maxBufferBytes / interval, Nat.div_pos hle' interval.pos, ?_⟩
    cases sdk with
    | engineWebSocket =>
        intro limits cfg hmax hcfg
        refine (native_acknowledges cfg).neverExceeds ?_ ?_ rfl ⟨rfl, rfl, rfl, rfl⟩
        · rw [hcfg, hmax]
          exact hwindow
        · rw [hcfg]
          exact interval.pos
    | openAIRealtime =>
        intro limits usage diagnostics id rate hmax
        refine (realtime_acknowledges usage diagnostics interval).neverExceeds ?_ interval.pos rfl
          ⟨rfl, rfl, rfl⟩
        rw [hmax]
        exact hwindow
    | browser => exact absurd rfl hsdk

/-- A chunk of one sample. -/
def sampleChunk (n : Nat) : SessionOutput := .audio ⟨"s", [0, 0], ⟨"pcm_s16le", 24000, 1⟩, n, n + 1, []⟩

/-- The browser client has no bound at the defaults of the gateway, a window of 16 MiB: whatever size an
event has, a long enough response of such events is lost. In a window of eight bytes it is the fifth
chunk of one sample, which the Python clients keep with an interval of four. -/
theorem browser_loses_its_response :
    (¬ ∃ b > 0, Keeps 16777216 8 b .browser)
      ∧ (∀ jsonLen : SessionOutput → Nat, 0 < jsonLen SdkClient.plainEvent →
          (browser (fun _ => []) (fun _ => [])).Exceeded jsonLen 1
            (SdkClient.attached ⟨16777216, 512, by decide, by decide⟩) (.init "r" 24000, .init)
            (List.replicate (16777216 / jsonLen SdkClient.plainEvent + 1) SdkClient.plainEvent))
      ∧ (browser (fun _ => []) (fun _ => [])).Exceeded (fun _ => 1) 1
          (SdkClient.attached ⟨8, 512, by decide, by decide⟩) (.init "r" 24000, .init)
          ((List.range 5).map sampleChunk)
      ∧ ¬ (realtime (fun _ => []) (fun _ => [])).Exceeded (fun _ => 1) 1
          (SdkClient.attached ⟨8, 512, by decide, by decide⟩) (.init "r" 24000, .init true 4)
          ((List.range 5).map sampleChunk)
      ∧ ¬ (native ⟨"s", 4, 0⟩).Exceeded (fun _ => 1) 1
          (SdkClient.attached ⟨8, 512, by decide, by decide⟩) .new
          ((List.range 5).map sampleChunk) := by
  refine ⟨?_, ?_, by decide +kernel, by decide +kernel, by decide +kernel⟩
  · rintro ⟨b, hb, hkeeps⟩
    exact browser_not_keeps hb hkeeps
  · intro jsonLen hpos
    refine SdkClient.silent_exceeds (fun _ _ _ => True) hpos ?_ trivial
    intro k a seq r _ _ hpayload _ _ _
    exact ⟨a, browser_silent a hpayload, trivial⟩

end

end KeepingUp

end StreamingTts.Client
