import Mathlib
import StreamingTts.Client.OutputOnce
import StreamingTts.Gateway.ResumeOutput

/-!
# The native gateway and the native client deliver once

`send_resume_delivery` of `engine/gateway/websocket_server.py` writes the deliveries of an attachment to its
connection. A session of `engine/gateway/websocket_resume.py` is therefore a server as the client's
`EngineWebSocketStreamSession` expects it: the deliveries of its whole history are `Numbered`, and on every
connection the frames are those behind the cursor of the resume (`written_prefix`). So the client queues what
the engine has published once and in order, whatever connections break on either side.
-/

namespace StreamingTts.Client.ResumeServer

open Lib (run Along run_induct)
open Gateway.ResumeOutput (Frame ResumeDelivery Call History Chained)
open Gateway.ResumeOutput.History (deliveries)

/-- What a caller of the client is to get for a delivery of the server. -/
def deliveryFor (d : ResumeDelivery) : Delivery :=
  match d.frame with
  | .audio a => .audio d.startSample d.endSample a.format a.pcmData
  | .event e => .event e

/-- `send_resume_delivery`. -/
def sendResumeDelivery (d : ResumeDelivery) : List ServerFrame :=
  match d.frame with
  | .audio a =>
      [.audioHeader ⟨some d.deliverySeq, some d.startSample, some d.endSample, a.format⟩, .audio a.pcmData]
  | .event e => [.event (some d.deliverySeq) e]

/-- The frames that the handler of an attachment writes, as long as its connection lives. -/
def written (x : History) (g : Nat) : List ServerFrame :=
  (deliveries (x.session.queues g)).flatMap sendResumeDelivery

/-- The stream that a server has published. -/
def published (x : History) : List Delivery := x.log.map deliveryFor

/-- A frame of audio has samples. -/
def Audible : Frame → Prop
  | .audio a => 0 < a.sampleCount
  | .event _ => True

instance : DecidablePred Audible
  | .audio a => inferInstanceAs (Decidable (0 < a.sampleCount))
  | .event _ => .isTrue trivial

/-- The engine publishes no audio without samples. -/
def AudibleCall : Call → Prop
  | .putBatch frames => ∀ f ∈ frames, Audible f
  | _ => True

instance : DecidablePred AudibleCall
  | .putBatch frames => inferInstanceAs (Decidable (∀ f ∈ frames, Audible f))
  | .attach .. | .detach _ | .acknowledge .. | .recordPlaybackProgress .. | .markClosed _
  | .claimDetachedExpiration _ | .claimTerminalExpiration | .cancelEngineOnce => .isTrue trivial

theorem isTerminal_deliveryFor (d : ResumeDelivery) :
    (deliveryFor d).isTerminal = d.frame.isTerminal := by
  unfold deliveryFor
  cases d.frame <;> rfl

/-- The frames of deliveries that are numbered from `seq` on. -/
theorem framesFrom_published {seq sample : Nat} {ds : List ResumeDelivery} (h : Chained seq sample ds) :
    framesFrom seq (ds.map deliveryFor) = ds.flatMap sendResumeDelivery := by
  induction ds generalizing seq sample with
  | nil => rfl
  | cons d ds ih =>
      obtain ⟨⟨rfl, -, -⟩, hrest⟩ := h
      rw [List.map_cons, framesFrom, ih hrest, List.flatMap_cons]
      congr 1
      unfold deliveryFor sendResumeDelivery
      cases d.frame <;> rfl

theorem contiguous_published {seq sample : Nat} {ds : List ResumeDelivery} (h : Chained seq sample ds)
    (haudible : ∀ d ∈ ds, Audible d.frame) : Contiguous sample (ds.map deliveryFor) := by
  induction ds generalizing seq sample with
  | nil => trivial
  | cons d ds ih =>
      obtain ⟨⟨-, hstart, hend⟩, hrest⟩ := h
      have hlater := ih hrest fun d' hd' => haudible d' (List.mem_cons_of_mem _ hd')
      have hfirst := haudible d List.mem_cons_self
      rw [List.map_cons]
      unfold deliveryFor
      cases hframe : d.frame with
      | audio a =>
          rw [hframe] at hend hfirst
          have hsamples : 0 < a.sampleCount := hfirst
          have hends : d.endSample = sample + a.sampleCount := hend
          exact ⟨hstart, by omega, hlater⟩
      | event e =>
          rw [hframe] at hend
          have hends : d.endSample = sample := hend
          rw [hends] at hlater
          exact hlater

/-! ## Every frame that is registered was published -/

section
variable {jsonLen : Nat → Frame → Nat}

open Gateway.ResumeOutput (stage)

theorem stage_audible {seq sample : Nat} {fs : List Frame} (h : ∀ f ∈ fs, Audible f) :
    ∀ d ∈ stage jsonLen seq sample fs, Audible d.frame := by
  induction fs generalizing seq sample with
  | nil =>
      intro d hd
      cases hd
  | cons f fs ih =>
      intro d hd
      rcases List.mem_cons.1 hd with rfl | hd
      · exact h f List.mem_cons_self
      · split at hd
        · cases hd
        · exact ih (fun f' hf' => h f' (List.mem_cons_of_mem _ hf')) d hd

/-- Every audio delivery has samples. -/
def AudibleLog (x : History) : Prop := ∀ d ∈ x.log, Audible d.frame

/-- The deliveries that a call registers are those of its frames. -/
theorem AudibleLog.step {x : History} (haudible : AudibleLog x) {c : Call} (hc : AudibleCall c) :
    AudibleLog (x.step jsonLen c) := by
  intro d hd
  rcases List.mem_append.1 hd with hd | hd
  · exact haudible d hd
  · cases c with
    | putBatch frames =>
        change d ∈ (x.session.putBatch jsonLen frames).records.drop x.session.records.length at hd
        rcases x.session.putBatch_cases jsonLen frames with hsame | ⟨-, hput⟩
        · rw [hsame, List.drop_length] at hd
          cases hd
        · rcases hput with ⟨-, hput⟩ | ⟨-, staged, rfl, hput⟩
          · obtain ⟨queues, hnotify, -⟩ :=
              x.session.notify_eq [.failure Gateway.ResumeOutput.ResumeSession.overflow]
            rw [hput, hnotify, List.drop_length] at hd
            cases hd
          · rw [hput, List.drop_left] at hd
            exact stage_audible hc d hd
    | attach | detach | acknowledge | recordPlaybackProgress | markClosed | claimDetachedExpiration
    | claimTerminalExpiration | cancelEngineOnce => cases hd

theorem run_audible (maxBufferBytes : Nat) {calls : List Call} (hcalls : ∀ c ∈ calls, AudibleCall c) :
    AudibleLog (run (History.step jsonLen) (History.new maxBufferBytes) calls) := by
  have halong : Along (History.step jsonLen) (fun _ c => AudibleCall c) (History.new maxBufferBytes) calls :=
    ((Lib.along_of_forall (fun _ _ => trivial) _ calls).and_mem hcalls).imp fun _ _ h => h.2
  refine run_induct ?_ (fun x c hx hc => AudibleLog.step hx hc) halong
  intro d hd
  cases hd

end

/-! ## The gateway is the server that the client expects -/

/-- What the handlers write is, on each connection, the frames of the stream behind its cursor. -/
structure Expected (x : History) : Prop where
  numbered : Numbered (published x)
  written : ∀ g, written x g <+: framesFrom (x.cursor g + 1) ((published x).drop (x.cursor g))

theorem expected_of_delivered {x : History} (h : x.Delivered) (haudible : AudibleLog x) :
    Expected x where
  numbered := by
    refine ⟨contiguous_published h.numbered haudible, ?_⟩
    intro pre e post hsplit hterminal
    obtain ⟨ds, rest, hlog, rfl, hrest⟩ := List.map_eq_append_iff.1 hsplit
    cases rest with
    | nil => cases hrest
    | cons d rest =>
        obtain ⟨rfl, rfl⟩ := List.cons.inj hrest
        rw [isTerminal_deliveryFor] at hterminal
        rw [h.terminal ds d rest hlog hterminal]
        rfl
  written g := by
    obtain ⟨k, hle, hknown, hqueue⟩ := h.queues g
    have hdrop := h.numbered.drop (x.cursor g)
    unfold ResumeServer.written published
    rw [hqueue, ← List.map_drop, Nat.add_comm (x.cursor g), framesFrom_published hdrop]
    rw [List.drop_take]
    exact (List.take_prefix _ _).flatMap _

/-- **The native gateway is the server that the native client expects.** After every history of calls. -/
theorem gateway_expected (jsonLen : Nat → Frame → Nat) (maxBufferBytes : Nat) {calls : List Call}
    (hcalls : ∀ c ∈ calls, AudibleCall c) :
    Expected (run (History.step jsonLen) (History.new maxBufferBytes) calls) :=
  expected_of_delivered (History.outputs_delivered jsonLen maxBufferBytes calls)
    (run_audible maxBufferBytes hcalls)

/-! ## Both ends together -/

/-- A frame that the client's reader gets on a connection is the next one that the handler of that connection
writes, or an acknowledgement; the handler attached at the cursor of the connection's `resume`. -/
def FedFrame (x : History) (handler : Conn → Nat) (s : StreamSession) (c : Conn) : ServerFrame → Prop
  | .textAck _ | .inputAck | .other => True
  | .resumeError _ | .playbackProgressError _ => False
  | f => x.cursor (handler c) = resumeSeq (s.written c) ∧
      outputFrames (s.received c) ++ [f] <+: written x (handler c)

/-- What the client gets comes from the handlers of its connections. -/
def Fed (x : History) (handler : Conn → Nat) (s : StreamSession) : StreamStep → Prop
  | .frame f _ => StreamSession.OnReading (fun c _ => FedFrame x handler s c f) (s.task .reader)
  | _ => True

section

instance (x : History) (handler : Conn → Nat) (s : StreamSession) (c : Conn) :
    (f : ServerFrame) → Decidable (FedFrame x handler s c f)
  | .textAck _ | .inputAck | .other => .isTrue trivial
  | .resumeError _ | .playbackProgressError _ => .isFalse id
  | .audioHeader _ | .audio _ | .event .. => inferInstanceAs (Decidable (_ ∧ _))

instance (x : History) (handler : Conn → Nat) (s : StreamSession) :
    (e : StreamStep) → Decidable (Fed x handler s e)
  | .frame _ _ => inferInstanceAs (Decidable (StreamSession.OnReading _ _))
  | .pick | .breaks | .sendText .. | .finishInput .. | .recover _ | .wake _ | .lead .. | .fail _ =>
      .isTrue trivial

end

/-- Two samples and the end. -/
def shortCalls : List Call :=
  [.attach 0 0, .putBatch [.audio ⟨⟨"pcm_s16le", 1⟩, 24000, [1, 2, 3, 4]⟩], .detach 1, .attach 0 0,
    .putBatch [.event StreamSession.doneEvent]]

/-- The header of the samples. -/
def shortHeader : ServerFrame := .audioHeader ⟨some 1, some 0, some 2, ⟨"pcm_s16le", 1⟩⟩

theorem gateway_expected_short :
    Expected (run (History.step fun _ _ => 10) (History.new 1000) shortCalls) ∧
      (run (History.step fun _ _ => 10) (History.new 1000) shortCalls).log.length = 2 :=
  ⟨gateway_expected _ 1000 (by decide +kernel), by decide +kernel⟩

end StreamingTts.Client.ResumeServer
