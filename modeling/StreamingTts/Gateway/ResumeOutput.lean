import Mathlib
import StreamingTts.Client.StreamSession
import StreamingTts.Lib.Transition

/-!
# The output side of a resumable WebSocket stream

`ResumableSession` of `engine/gateway/websocket_resume.py`, as far as its output goes: `put_batch`, `attach`,
`detach`, `acknowledge`, `record_playback_progress`, and how the session is closed and given up. Every method
is one critical section of the state lock, so a history of the session is a list of calls in any order.

`History` keeps what no call reads: every delivery that was ever registered, and the cursor that each
attachment was made at. `Inv` says what the session has of it: its records are the deliveries behind the
acknowledged one, and the queue of an attachment holds the deliveries behind its cursor.
-/

namespace StreamingTts.Gateway.ResumeOutput

open Client (AudioFormat StreamEvent)
open Lib (run run_invariant)

/-! ## Frames -/

/-- The `audio` of a frame. -/
structure Audio where
  format : AudioFormat
  sampleRate : Nat
  pcmData : List UInt8
  deriving DecidableEq

/-- `_audio_sample_count`. -/
def Audio.sampleCount (a : Audio) : Nat :=
  let bytesPerSample := if a.format.encoding.toLower ∈ ["pcm_s16", "pcm_s16le", "s16le"] then 2 else 4
  a.pcmData.length / (bytesPerSample * max 1 a.format.channels)

/-- A frame that is published; `_copy_frame` gives an equal one. -/
inductive Frame
  | audio (audio : Audio)
  | event (event : StreamEvent)
  deriving DecidableEq

/-- `_is_terminal`. -/
def Frame.isTerminal : Frame → Bool
  | .audio _ => false
  | .event e => e.isTerminal

/-- The samples of a frame. -/
def Frame.samples : Frame → Nat
  | .audio a => a.sampleCount
  | .event _ => 0

/-- `ResumeDelivery`. -/
structure ResumeDelivery where
  deliverySeq : Nat
  frame : Frame
  startSample : Nat
  endSample : Nat
  retainedBytes : Nat
  deriving DecidableEq

/-- The codes of a `ResumeProtocolError` of the output. -/
inductive OutputCode
  | resumeSessionNotFound
  | resumeBufferExceeded
  | invalidResumeCursor
  | resumeWindowExceeded
  | resumeAudioCursorMismatch
  | resumeAttachmentSuperseded
  | invalidPlaybackProgress
  | unknownPlaybackDelivery
  deriving DecidableEq, Repr

/-- The spelling of a code on the wire. -/
def OutputCode.text : OutputCode → String
  | .resumeSessionNotFound => "resume_session_not_found"
  | .resumeBufferExceeded => "resume_buffer_exceeded"
  | .invalidResumeCursor => "invalid_resume_cursor"
  | .resumeWindowExceeded => "resume_window_exceeded"
  | .resumeAudioCursorMismatch => "resume_audio_cursor_mismatch"
  | .resumeAttachmentSuperseded => "resume_attachment_superseded"
  | .invalidPlaybackProgress => "invalid_playback_progress"
  | .unknownPlaybackDelivery => "unknown_playback_delivery"

/-- `ResumeProtocolError`, and a recorded failure of the stream. -/
structure OutputError where
  code : OutputCode
  message : String
  deriving DecidableEq, Repr

/-- What the queue of an attachment carries. -/
inductive ResumeMessage
  | delivery (d : ResumeDelivery)
  | fence
  | failure (e : OutputError)
  deriving DecidableEq

/-! ## The session -/

/-- `ResumableSession`; `queues` is everything that was put into the queue of the attachment with a
generation. -/
structure ResumeSession where
  maxBufferBytes : Nat
  records : List ResumeDelivery := []
  retainedBytes : Int := 0
  trimmedThroughSeq : Nat := 0
  trimmedAudioSample : Nat := 0
  nextDeliverySeq : Nat := 1
  nextAudioSample : Nat := 0
  generation : Nat := 0
  attachment : Option Nat := none
  queues : Nat → List ResumeMessage := fun _ => []
  playedThroughSample : Int := 0
  bufferedThroughSample : Int := 0
  terminal : Bool := false
  engineFinished : Bool := false
  engineCancelled : Bool := false
  failure : Option OutputError := none
  expiring : Bool := false
  closed : Bool := false

/-- `_retained_size`; `jsonLen` is the length of the JSON text of a frame with its number, of an audio frame
without its samples. -/
def retainedSize (jsonLen : Nat → Frame → Nat) (seq : Nat) : Frame → Nat
  | .audio a => a.pcmData.length + jsonLen seq (.audio a)
  | .event e => jsonLen seq (.event e)

section
variable (jsonLen : Nat → Frame → Nat)

/-- The delivery of a frame. -/
def deliveryOf (seq sample : Nat) (f : Frame) : ResumeDelivery where
  deliverySeq := seq
  frame := f
  startSample := sample
  endSample := sample + f.samples
  retainedBytes := retainedSize jsonLen seq f

/-- The loop of `put_batch`: nothing is staged behind a terminal. -/
def stage : Nat → Nat → List Frame → List ResumeDelivery
  | _, _, [] => []
  | seq, sample, f :: fs =>
      deliveryOf jsonLen seq sample f ::
        if f.isTerminal then [] else stage (seq + 1) (sample + f.samples) fs

end

/-- The bytes that some deliveries retain. -/
def bytes (ds : List ResumeDelivery) : Int := (ds.map fun d => (d.retainedBytes : Int)).sum

/-- The end of the last of some deliveries, which begin at `sample`. -/
def endSample (sample : Nat) (ds : List ResumeDelivery) : Nat :=
  ds.foldl (fun _ d => d.endSample) sample

namespace ResumeSession

variable (jsonLen : Nat → Frame → Nat) (s : ResumeSession)

/-- The current attachment gets messages. -/
def notify (ms : List ResumeMessage) : ResumeSession :=
  match s.attachment with
  | some g => { s with queues := Function.update s.queues g (s.queues g ++ ms) }
  | none => s

/-- The failure of a full replay window. -/
def overflow : OutputError :=
  ⟨.resumeBufferExceeded, "resumable stream output exceeded the server replay window"⟩

/-- `put_batch`. -/
def putBatch (frames : List Frame) : ResumeSession :=
  if s.closed ∨ s.failure.isSome ∨ s.terminal then s
  else
    let staged := stage jsonLen s.nextDeliverySeq s.nextAudioSample frames
    if s.maxBufferBytes < s.retainedBytes + bytes staged then
      { s.notify [.failure overflow] with failure := some overflow }
    else
      let ends := staged.any (·.frame.isTerminal)
      { s.notify (staged.map .delivery) with
        records := s.records ++ staged
        retainedBytes := s.retainedBytes + bytes staged
        nextDeliverySeq := s.nextDeliverySeq + staged.length
        nextAudioSample := endSample s.nextAudioSample staged
        terminal := s.terminal || ends
        engineFinished := s.engineFinished || ends }

/-- The sample that belongs to a delivery number, as long as it is retained. -/
def sampleAt (seq : Nat) : Option Nat :=
  if seq = s.trimmedThroughSeq then some s.trimmedAudioSample
  else (s.records.find? (·.deliverySeq = seq)).map (·.endSample)

/-- `_validate_cursor_locked`. -/
def validateCursor (seq sample : Int) : Except OutputError Unit :=
  if seq < 0 ∨ sample < 0 then
    .error ⟨.invalidResumeCursor, "resume cursor values must be non-negative"⟩
  else if (s.nextDeliverySeq : Int) - 1 < seq then
    .error ⟨.invalidResumeCursor, "resume cursor is ahead of server output"⟩
  else if seq < s.trimmedThroughSeq then
    .error ⟨.resumeWindowExceeded, "requested output is older than the retained replay window"⟩
  else
    match s.sampleAt seq.toNat with
    | none => .error ⟨.resumeWindowExceeded, "requested output is no longer retained"⟩
    | some expected =>
        if sample ≠ expected then
          .error ⟨.resumeAudioCursorMismatch, "audio_through_sample must equal " ++ toString expected ++
            " at this delivery cursor"⟩
        else .ok ()

/-- The checks of `attach`. -/
def checkAttach (seq sample : Int) : Except OutputError Unit :=
  if s.closed ∨ s.expiring then
    .error ⟨.resumeSessionNotFound, "resumable stream is no longer available"⟩
  else
    match s.failure with
    | some e => .error e
    | none => s.validateCursor seq sample

/-- `attach`: the new generation, unless it raises. -/
def attach (seq sample : Int) : Except OutputError Nat × ResumeSession :=
  match s.checkAttach seq sample with
  | .error e => (.error e, s)
  | .ok () =>
      let fenced := s.notify [.fence]
      let generation := s.generation + 1
      let replay := s.records.filter fun d => seq < d.deliverySeq
      (.ok generation, { fenced with
        generation := generation
        attachment := some generation
        queues := Function.update fenced.queues generation (replay.map .delivery) })

/-- `detach`: whether the generation still owned the stream. -/
def detach (generation : Nat) : Bool × ResumeSession :=
  if s.closed ∨ s.attachment ≠ some generation then (false, s)
  else (true, { s with attachment := none })

/-- `_require_generation_locked`. -/
def requireGeneration (generation : Nat) : Except OutputError Unit :=
  if s.closed ∨ s.attachment ≠ some generation then
    .error ⟨.resumeAttachmentSuperseded, "this websocket no longer owns the resumable stream"⟩
  else .ok ()

/-- The records behind a delivery number. -/
def trim (seq : Nat) : List ResumeDelivery := s.records.dropWhile (·.deliverySeq ≤ seq)

/-- `acknowledge`. -/
def acknowledge (generation : Nat) (seq sample : Int) : Except OutputError Unit × ResumeSession :=
  match s.requireGeneration generation with
  | .error e => (.error e, s)
  | .ok () =>
      if seq < s.trimmedThroughSeq then (.ok (), s)
      else
        match s.validateCursor seq sample with
        | .error e => (.error e, s)
        | .ok () =>
            let acked := s.records.takeWhile (·.deliverySeq ≤ seq.toNat)
            (.ok (), { s with
              records := s.trim seq.toNat
              retainedBytes := s.retainedBytes - bytes acked
              trimmedThroughSeq := seq.toNat
              trimmedAudioSample := sample.toNat })

/-- `_audio_end_through_delivery_locked`. -/
def audioEndThrough (seq : Nat) : Except OutputError Nat :=
  if seq = s.trimmedThroughSeq then .ok s.trimmedAudioSample
  else if seq < s.trimmedThroughSeq then
    .error ⟨.unknownPlaybackDelivery, "observed_delivery_seq is no longer in the replay ledger"⟩
  else if s.nextDeliverySeq - 1 ≤ seq then .ok s.nextAudioSample
  else
    match s.records.find? (·.deliverySeq = seq) with
    | some d => .ok d.endSample
    | none => .error ⟨.unknownPlaybackDelivery, "observed_delivery_seq is no longer in the replay ledger"⟩

/-- `record_playback_progress`. -/
def recordPlaybackProgress (generation : Nat) (played buffered : Int) (observed : Option Int) :
    Except OutputError Unit × ResumeSession :=
  match s.requireGeneration generation with
  | .error e => (.error e, s)
  | .ok () =>
      if played < 0 ∨ buffered < 0 then
        (.error ⟨.invalidPlaybackProgress, "playback samples must be non-negative"⟩, s)
      else if buffered < played then
        (.error ⟨.invalidPlaybackProgress, "buffered_through_sample must be >= played_through_sample"⟩, s)
      else if played ≤ s.playedThroughSample ∧ buffered ≤ s.bufferedThroughSample then (.ok (), s)
      else
        let seq := observed.getD ((s.nextDeliverySeq : Int) - 1)
        if seq < 0 then
          (.error ⟨.invalidPlaybackProgress, "observed_delivery_seq must be non-negative"⟩, s)
        else if (s.nextDeliverySeq : Int) - 1 < seq then
          (.error ⟨.unknownPlaybackDelivery, "observed_delivery_seq is ahead of the replay ledger"⟩, s)
        else
          match s.audioEndThrough seq.toNat with
          | .error e => (.error e, s)
          | .ok limit =>
              if (limit : Int) < buffered then
                (.error ⟨.invalidPlaybackProgress,
                  "buffered_through_sample is ahead of server output/observed delivery"⟩, s)
              else if played < s.playedThroughSample ∨ buffered < s.bufferedThroughSample then
                (.error ⟨.invalidPlaybackProgress, "playback progress cannot partially move backwards"⟩, s)
              else (.ok (), { s with playedThroughSample := played, bufferedThroughSample := buffered })

/-- `mark_closed`. -/
def markClosed (fence : Bool) : ResumeSession :=
  if s.closed then s
  else { (if fence then s.notify [.fence] else s) with
    closed := true
    attachment := none
    records := []
    retainedBytes := 0 }

/-- `claim_detached_expiration`. -/
def claimDetachedExpiration (generation : Nat) : Bool × ResumeSession :=
  if s.closed ∨ s.expiring ∨ s.attachment ≠ none ∨ s.generation ≠ generation then (false, s)
  else (true, { s with expiring := true })

/-- `claim_terminal_expiration`. -/
def claimTerminalExpiration : Bool × ResumeSession :=
  if s.closed ∨ s.expiring ∨ !s.terminal then (false, s) else (true, { s with expiring := true })

/-- `cancel_engine_once`, up to the call of the engine. -/
def cancelEngineOnce : Bool × ResumeSession :=
  if s.engineFinished ∨ s.engineCancelled then (false, s) else (true, { s with engineCancelled := true })

end ResumeSession

/-- A call of the session. -/
inductive Call
  | putBatch (frames : List Frame)
  | attach (seq sample : Int)
  | detach (generation : Nat)
  | acknowledge (generation : Nat) (seq sample : Int)
  | recordPlaybackProgress (generation : Nat) (played buffered : Int) (observed : Option Int)
  | markClosed (fence : Bool)
  | claimDetachedExpiration (generation : Nat)
  | claimTerminalExpiration
  | cancelEngineOnce
  deriving DecidableEq

/-- What a call leaves. -/
def ResumeSession.call (jsonLen : Nat → Frame → Nat) (s : ResumeSession) : Call → ResumeSession
  | .putBatch frames => s.putBatch jsonLen frames
  | .attach seq sample => (s.attach seq sample).2
  | .detach generation => (s.detach generation).2
  | .acknowledge generation seq sample => (s.acknowledge generation seq sample).2
  | .recordPlaybackProgress generation played buffered observed =>
      (s.recordPlaybackProgress generation played buffered observed).2
  | .markClosed fence => s.markClosed fence
  | .claimDetachedExpiration generation => (s.claimDetachedExpiration generation).2
  | .claimTerminalExpiration => s.claimTerminalExpiration.2
  | .cancelEngineOnce => s.cancelEngineOnce.2

/-! ## Chains of deliveries -/

/-- The deliveries are numbered from `seq` on, and their samples continue `sample`. -/
def Chained : Nat → Nat → List ResumeDelivery → Prop
  | _, _, [] => True
  | seq, sample, d :: ds =>
      (d.deliverySeq = seq ∧ d.startSample = sample ∧ d.endSample = sample + d.frame.samples) ∧
        Chained (seq + 1) d.endSample ds

@[simp] theorem endSample_nil (sample : Nat) : endSample sample [] = sample := rfl

@[simp] theorem endSample_cons (sample : Nat) (d : ResumeDelivery) (ds : List ResumeDelivery) :
    endSample sample (d :: ds) = endSample d.endSample ds := rfl

theorem endSample_append (sample : Nat) (ds ds' : List ResumeDelivery) :
    endSample sample (ds ++ ds') = endSample (endSample sample ds) ds' :=
  List.foldl_append

section
variable {seq sample : Nat} {ds ds' : List ResumeDelivery}

theorem Chained.append (h : Chained seq sample ds)
    (h' : Chained (seq + ds.length) (endSample sample ds) ds') : Chained seq sample (ds ++ ds') := by
  induction ds generalizing seq sample with
  | nil => exact h'
  | cons d ds ih =>
      refine ⟨h.1, ih h.2 ?_⟩
      rw [List.length_cons, Nat.add_comm ds.length, ← Nat.add_assoc] at h'
      exact h'

theorem Chained.drop (h : Chained seq sample ds) (k : Nat) :
    Chained (seq + k) (endSample sample (ds.take k)) (ds.drop k) := by
  induction k generalizing seq sample ds with
  | zero => exact h
  | succ k ih =>
      cases ds with
      | nil => trivial
      | cons d ds =>
          have hrest := ih h.2
          rw [Nat.add_right_comm, Nat.add_assoc] at hrest
          exact hrest

/-- The samples do not go back. -/
theorem Chained.le (h : Chained seq sample ds) : sample ≤ endSample sample ds := by
  induction ds generalizing seq sample with
  | nil => exact Nat.le_refl _
  | cons d ds ih =>
      obtain ⟨⟨-, -, hend⟩, hrest⟩ := h
      rw [endSample_cons]
      exact Nat.le_trans (by omega) (ih hrest)

theorem Chained.mem (h : Chained seq sample ds) {d : ResumeDelivery} (hd : d ∈ ds) :
    seq ≤ d.deliverySeq ∧ d.deliverySeq < seq + ds.length := by
  induction ds generalizing seq sample with
  | nil => cases hd
  | cons d' ds ih =>
      rw [List.length_cons]
      rcases List.mem_cons.1 hd with rfl | hd
      · rw [h.1.1]
        omega
      · have hrest := ih h.2 hd
        omega

/-- A delivery is found by its number. -/
theorem Chained.find (h : Chained seq sample ds) (i : Nat) :
    ds.find? (·.deliverySeq = seq + i) = ds[i]? := by
  induction ds generalizing seq sample i with
  | nil => rfl
  | cons d ds ih =>
      rw [List.find?_cons]
      cases i with
      | zero => simp [h.1.1]
      | succ i =>
          have hne : decide (d.deliverySeq = seq + (i + 1)) = false := by
            rw [h.1.1]
            exact decide_eq_false (by omega)
          rw [hne, List.getElem?_cons_succ, ← ih h.2 i, Nat.add_right_comm seq 1 i, Nat.add_assoc]

/-- The deliveries behind a number. -/
theorem Chained.filter (h : Chained seq sample ds) (k : Nat) :
    ds.filter (fun d => ((seq + k : Nat) : Int) - 1 < d.deliverySeq) = ds.drop k := by
  induction ds generalizing seq sample k with
  | nil => rw [List.drop_nil, List.filter_nil]
  | cons d ds ih =>
      cases k with
      | zero =>
          rw [List.drop_zero, List.filter_eq_self]
          intro d' hd'
          have hle := (h.mem hd').1
          exact decide_eq_true (by omega)
      | succ k =>
          have hold : ¬ ((seq + (k + 1) : Nat) : Int) - 1 < d.deliverySeq := by
            rw [h.1.1]
            omega
          rw [List.filter_cons, if_neg (by rw [decide_eq_true_eq]; exact hold), List.drop_succ_cons,
            ← ih h.2 k, Nat.add_right_comm seq 1 k, Nat.add_assoc]

/-- The deliveries through a number, and those behind it. -/
theorem Chained.span (h : Chained seq sample ds) (k : Nat) :
    ds.takeWhile (fun d => d.deliverySeq < seq + k) = ds.take k ∧
      ds.dropWhile (fun d => d.deliverySeq < seq + k) = ds.drop k := by
  induction ds generalizing seq sample k with
  | nil => simp
  | cons d ds ih =>
      rw [List.takeWhile_cons, List.dropWhile_cons, h.1.1]
      cases k with
      | zero => simp
      | succ k =>
          obtain ⟨htake, hdrop⟩ := ih h.2 k
          rw [Nat.add_right_comm seq 1 k, Nat.add_assoc] at htake hdrop
          rw [if_pos (decide_eq_true (by omega)), if_pos (decide_eq_true (by omega)), htake, hdrop]
          exact ⟨rfl, rfl⟩

end

section
variable (jsonLen : Nat → Frame → Nat)

theorem chained_stage (seq sample : Nat) (fs : List Frame) :
    Chained seq sample (stage jsonLen seq sample fs) := by
  induction fs generalizing seq sample with
  | nil => trivial
  | cons f fs ih =>
      refine ⟨⟨rfl, rfl, rfl⟩, ?_⟩
      cases f.isTerminal with
      | true => trivial
      | false => exact ih (seq + 1) (sample + f.samples)

/-- Only the last delivery of a batch is a terminal. -/
theorem stage_terminal {seq sample : Nat} {fs : List Frame} {pre post : List ResumeDelivery}
    {d : ResumeDelivery} (h : stage jsonLen seq sample fs = pre ++ d :: post)
    (hd : d.frame.isTerminal = true) : post = [] := by
  induction fs generalizing seq sample pre with
  | nil => exact absurd h (List.append_ne_nil_of_right_ne_nil pre (List.cons_ne_nil d post)).symm
  | cons f fs ih =>
      rw [stage] at h
      cases pre with
      | nil =>
          obtain ⟨rfl, hrest⟩ := List.cons.inj h
          have hf : f.isTerminal = true := hd
          rw [if_pos hf] at hrest
          exact hrest.symm
      | cons d' pre =>
          obtain ⟨-, hrest⟩ := List.cons.inj h
          split at hrest
          · exact absurd hrest (List.append_ne_nil_of_right_ne_nil pre (List.cons_ne_nil d post)).symm
          · exact ih hrest

end

/-! ## The history of a session -/

/-- A session with every delivery that it registered, and the number that each attachment was made at. -/
structure History where
  session : ResumeSession
  log : List ResumeDelivery := []
  cursor : Nat → Nat := fun _ => 0

namespace History

variable (jsonLen : Nat → Frame → Nat)

/-- A new session. -/
def new (maxBufferBytes : Nat) : History := { session := { maxBufferBytes := maxBufferBytes } }

/-- The deliveries that a call registers. -/
def registered (s : ResumeSession) : Call → List ResumeDelivery
  | .putBatch frames => (s.putBatch jsonLen frames).records.drop s.records.length
  | _ => []

/-- The attachments with their numbers behind a call. -/
def attached (x : History) : Call → Nat → Nat
  | .attach seq sample =>
      match (x.session.attach seq sample).1 with
      | .ok generation => Function.update x.cursor generation seq.toNat
      | .error _ => x.cursor
  | _ => x.cursor

/-- A call. -/
def step (x : History) (c : Call) : History where
  session := x.session.call jsonLen c
  log := x.log ++ registered jsonLen x.session c
  cursor := x.attached c

end History

/-! ## What a call does -/

namespace ResumeSession

variable {s : ResumeSession}

/-- A message changes the queue of the current attachment and nothing else. -/
theorem notify_eq (s : ResumeSession) (ms : List ResumeMessage) :
    ∃ queues, s.notify ms = { s with queues := queues } ∧
      ∀ g, queues g = s.queues g ++ if s.attachment = some g then ms else [] := by
  unfold notify
  split
  · next g hg =>
    refine ⟨_, rfl, ?_⟩
    intro g'
    by_cases hsame : g' = g
    · rw [hsame, Function.update_self, if_pos hg]
    · have hother : s.attachment ≠ some g' := by
        rw [hg]
        exact fun h => hsame (Option.some.inj h).symm
      rw [Function.update_of_ne hsame, if_neg hother, List.append_nil]
  · next hnone =>
    refine ⟨s.queues, rfl, ?_⟩
    intro g
    rw [hnone, if_neg (Option.some_ne_none g).symm, List.append_nil]

/-- The batch runs out of the replay window. -/
def Overflows (jsonLen : Nat → Frame → Nat) (s : ResumeSession) (frames : List Frame) : Prop :=
  s.maxBufferBytes <
    s.retainedBytes + bytes (stage jsonLen s.nextDeliverySeq s.nextAudioSample frames)

/-- `put_batch` drops the batch, fails the stream, or registers the batch. -/
theorem putBatch_cases (jsonLen : Nat → Frame → Nat) (s : ResumeSession) (frames : List Frame) :
    s.putBatch jsonLen frames = s ∨
      (s.closed = false ∧ s.failure = none ∧ s.terminal = false) ∧
        (s.Overflows jsonLen frames ∧
            s.putBatch jsonLen frames = { s.notify [.failure overflow] with failure := some overflow } ∨
          ¬ s.Overflows jsonLen frames ∧ ∃ staged,
            staged = stage jsonLen s.nextDeliverySeq s.nextAudioSample frames ∧
            s.putBatch jsonLen frames = { s.notify (staged.map .delivery) with
              records := s.records ++ staged
              retainedBytes := s.retainedBytes + bytes staged
              nextDeliverySeq := s.nextDeliverySeq + staged.length
              nextAudioSample := endSample s.nextAudioSample staged
              terminal := staged.any (·.frame.isTerminal)
              engineFinished := s.engineFinished || staged.any (·.frame.isTerminal) }) := by
  unfold putBatch
  split
  · exact .inl rfl
  · next hopen =>
    simp only [not_or, Bool.not_eq_true, Option.isSome_eq_false_iff, Option.isNone_iff_eq_none] at hopen
    refine .inr ⟨hopen, ?_⟩
    dsimp only
    split
    · next hfull => exact .inl ⟨hfull, rfl⟩
    · next hfits =>
      refine .inr ⟨hfits, _, rfl, ?_⟩
      rw [hopen.2.2, Bool.false_or]

/-- An `attach` that returns. -/
theorem attach_ok {seq sample : Int} {generation : Nat} (h : (s.attach seq sample).1 = .ok generation) :
    s.checkAttach seq sample = .ok () ∧ generation = s.generation + 1 ∧
      ∃ queues, (s.attach seq sample).2 = { s with
        generation := generation
        attachment := some generation
        queues := Function.update queues generation
          ((s.records.filter fun d => seq < d.deliverySeq).map .delivery) } ∧
        ∀ g, queues g = s.queues g ++ if s.attachment = some g then [.fence] else [] := by
  unfold attach at h ⊢
  cases hcheck : s.checkAttach seq sample with
  | error e =>
      rw [hcheck] at h
      cases h
  | ok u =>
      rw [hcheck] at h
      cases h
      obtain ⟨queues, hnotify, hqueues⟩ := s.notify_eq [.fence]
      refine ⟨rfl, rfl, queues, ?_, hqueues⟩
      dsimp only
      rw [hnotify]

/-- An `attach` that raises changes nothing. -/
theorem attach_error {seq sample : Int} {e : OutputError} (h : (s.attach seq sample).1 = .error e) :
    (s.attach seq sample).2 = s := by
  unfold attach at h ⊢
  cases hcheck : s.checkAttach seq sample with
  | error e => rfl
  | ok u =>
      rw [hcheck] at h
      cases h

theorem requireGeneration_ok {generation : Nat} (h : s.requireGeneration generation = .ok ()) :
    s.closed = false ∧ s.attachment = some generation := by
  unfold requireGeneration at h
  split at h
  · cases h
  · next hcurrent => simpa using hcurrent

/-- `acknowledge` changes nothing, or trims the records through a cursor that it has checked. -/
theorem acknowledge_cases (generation : Nat) (seq sample : Int) :
    (s.acknowledge generation seq sample).2 = s ∨
      s.closed = false ∧ s.validateCursor seq sample = .ok () ∧
        (s.acknowledge generation seq sample).2 = { s with
          records := s.trim seq.toNat
          retainedBytes := s.retainedBytes - bytes (s.records.takeWhile (·.deliverySeq ≤ seq.toNat))
          trimmedThroughSeq := seq.toNat
          trimmedAudioSample := sample.toNat } := by
  unfold acknowledge
  cases hgeneration : s.requireGeneration generation with
  | error e => exact .inl rfl
  | ok u =>
      dsimp only
      split
      · exact .inl rfl
      · cases hcursor : s.validateCursor seq sample with
        | error e => exact .inl rfl
        | ok u => exact .inr ⟨(requireGeneration_ok hgeneration).1, rfl, rfl⟩

/-- `record_playback_progress` changes nothing, or moves both cursors to where the output has got. -/
theorem recordPlaybackProgress_cases (generation : Nat) (played buffered : Int) (observed : Option Int) :
    (s.recordPlaybackProgress generation played buffered observed).2 = s ∨
      (s.closed = false ∧ s.attachment = some generation) ∧
      (0 ≤ played ∧ played ≤ buffered) ∧
      (s.playedThroughSample ≤ played ∧ s.bufferedThroughSample ≤ buffered) ∧
      (∃ seq : Nat, seq < s.nextDeliverySeq ∧ (∀ n, observed = some n → n = seq) ∧
        ∃ limit : Nat, s.audioEndThrough seq = .ok limit ∧ buffered ≤ limit) ∧
      (s.recordPlaybackProgress generation played buffered observed).2 =
        { s with playedThroughSample := played, bufferedThroughSample := buffered } := by
  unfold recordPlaybackProgress
  cases hgeneration : s.requireGeneration generation with
  | error e => exact .inl rfl
  | ok u =>
      dsimp only
      split
      · exact .inl rfl
      · next hnonneg =>
        split
        · exact .inl rfl
        · next horder =>
          split
          · exact .inl rfl
          · split
            · exact .inl rfl
            · next hpos =>
              split
              · exact .inl rfl
              · next hknown =>
                cases hlimit : s.audioEndThrough (observed.getD ((s.nextDeliverySeq : Int) - 1)).toNat with
                | error e => exact .inl rfl
                | ok limit =>
                    dsimp only
                    split
                    · exact .inl rfl
                    · next hwithin =>
                      split
                      · exact .inl rfl
                      · next hforward =>
                        refine .inr ⟨requireGeneration_ok hgeneration, ⟨by omega, by omega⟩,
                          ⟨by omega, by omega⟩, ⟨_, by omega, ?_, limit, hlimit, by omega⟩, rfl⟩
                        intro n hn
                        rw [hn] at hpos ⊢
                        simp only [Option.getD_some] at hpos ⊢
                        omega

end ResumeSession

/-! ## The invariant -/

namespace History

/-- The queue of attachment `g` has the deliveries through `k` that are behind its cursor, then the failure
of the stream, then the fence. -/
def Sent (x : History) (g k : Nat) (e : Option OutputError) (fenced : Bool) : Prop :=
  (x.cursor g ≤ k ∧ k ≤ x.log.length) ∧
    x.session.queues g = ((x.log.take k).drop (x.cursor g)).map .delivery ++
      (e.toList.map .failure ++ if fenced then [.fence] else [])

/-- What a session has of its history. -/
structure Inv (x : History) : Prop where
  chained : Chained 1 0 x.log
  terminal : ∀ pre d post, x.log = pre ++ d :: post → d.frame.isTerminal = true →
    post = [] ∧ x.session.terminal = true
  next : x.session.nextDeliverySeq = x.log.length + 1
  sample : x.session.nextAudioSample = endSample 0 x.log
  trimmed : x.session.trimmedThroughSeq ≤ x.log.length
  trimmedSample : x.session.trimmedAudioSample = endSample 0 (x.log.take x.session.trimmedThroughSeq)
  records : x.session.closed = false → x.session.records = x.log.drop x.session.trimmedThroughSeq
  bytes : x.session.retainedBytes = bytes x.session.records
  bounded : x.session.retainedBytes ≤ x.session.maxBufferBytes
  current : ∀ g, x.session.attachment = some g →
    g = x.session.generation ∧ x.session.closed = false ∧
      x.Sent g x.log.length x.session.failure false
  sent : ∀ g, ∃ k e fenced, x.Sent g k e fenced
  fresh : ∀ g, x.session.generation < g → x.session.queues g = []
  playback : 0 ≤ x.session.playedThroughSample ∧
    x.session.playedThroughSample ≤ x.session.bufferedThroughSample ∧
    x.session.bufferedThroughSample ≤ x.session.nextAudioSample

theorem inv_new (maxBufferBytes : Nat) : Inv (new maxBufferBytes) where
  chained := trivial
  terminal := by
    intro pre d post h
    exact absurd h (List.append_ne_nil_of_right_ne_nil pre (List.cons_ne_nil d post)).symm
  next := rfl
  sample := rfl
  trimmed := Nat.le_refl _
  trimmedSample := rfl
  records _ := rfl
  bytes := rfl
  bounded := Int.natCast_nonneg _
  current := by
    intro g h
    cases h
  sent g := ⟨0, none, false, ⟨Nat.le_refl _, Nat.le_refl _⟩, rfl⟩
  fresh _ _ := rfl
  playback := ⟨Int.le_refl _, Int.le_refl _, Int.le_refl _⟩

theorem bytes_append (ds ds' : List ResumeDelivery) :
    ResumeOutput.bytes (ds ++ ds') = ResumeOutput.bytes ds + ResumeOutput.bytes ds' := by
  unfold ResumeOutput.bytes
  rw [List.map_append, List.sum_append]

section
variable {jsonLen : Nat → Frame → Nat} {x : History}

/-- The records of a stream that is open are its deliveries behind the trimmed one. -/
theorem Inv.chainedRecords (h : x.Inv) (hopen : x.session.closed = false) :
    Chained (x.session.trimmedThroughSeq + 1) x.session.trimmedAudioSample x.session.records := by
  rw [h.records hopen, h.trimmedSample, Nat.add_comm]
  exact h.chained.drop _

/-- The sample of a delivery number that is not trimmed. -/
theorem Inv.sampleAt (h : x.Inv) (hopen : x.session.closed = false) (seq : Nat)
    (hle : x.session.trimmedThroughSeq ≤ seq) (hknown : seq ≤ x.log.length) :
    x.session.sampleAt seq = some (endSample 0 (x.log.take seq)) := by
  unfold ResumeSession.sampleAt
  split
  · next htrimmed => rw [htrimmed, h.trimmedSample]
  · next hne =>
    obtain ⟨i, rfl⟩ : ∃ i, seq = x.session.trimmedThroughSeq + 1 + i :=
      ⟨seq - x.session.trimmedThroughSeq - 1, by omega⟩
    have hlt : x.session.trimmedThroughSeq + i < x.log.length := by omega
    rw [(h.chainedRecords hopen).find i, h.records hopen, List.getElem?_drop,
      List.getElem?_eq_getElem hlt, Option.map_some, Nat.add_right_comm, List.take_succ_eq_append_getElem hlt,
      endSample_append]
    rfl

/-- A cursor is valid if it is the end of a delivery that is not trimmed. -/
theorem Inv.validateCursor_iff (h : x.Inv) (hopen : x.session.closed = false) (seq sample : Int) :
    x.session.validateCursor seq sample = .ok () ↔
      ∃ k : Nat, x.session.trimmedThroughSeq ≤ k ∧ k ≤ x.log.length ∧ seq = k ∧
        sample = endSample 0 (x.log.take k) := by
  have hnext := h.next
  unfold ResumeSession.validateCursor
  constructor
  · intro hok
    split at hok
    · cases hok
    · next hnonneg =>
      split at hok
      · cases hok
      · next hahead =>
        split at hok
        · cases hok
        · next hretained =>
          rw [h.sampleAt hopen _ (by omega) (by omega)] at hok
          dsimp only at hok
          split at hok
          · cases hok
          · next hsample => exact ⟨seq.toNat, by omega, by omega, by omega, not_not.1 hsample⟩
  · rintro ⟨k, hle, hknown, rfl, rfl⟩
    rw [if_neg (by omega), if_neg (by omega), if_neg (by omega), Int.toNat_natCast,
      h.sampleAt hopen k hle hknown]
    simp

/-- A change of the session that leaves its log and its queues. -/
theorem Inv.flags (h : x.Inv) (terminal : Bool) (hterminal : x.session.terminal = true → terminal = true)
    (engineFinished engineCancelled expiring : Bool) (attachment : Option Nat)
    (hattachment : ∀ g, attachment = some g → x.session.attachment = some g) :
    Inv { x with session := { x.session with
      terminal := terminal
      engineFinished := engineFinished
      engineCancelled := engineCancelled
      expiring := expiring
      attachment := attachment } } :=
  ⟨h.chained, fun pre d post hlog hd => ⟨(h.terminal pre d post hlog hd).1,
    hterminal (h.terminal pre d post hlog hd).2⟩, h.next, h.sample, h.trimmed, h.trimmedSample, h.records,
    h.bytes, h.bounded, fun g hg => h.current g (hattachment g hg), h.sent, h.fresh, h.playback⟩

/-- The current attachment gets a control message, and is not the current one any more or the stream fails. -/
theorem Sent.control {g k : Nat} {e : Option OutputError} {fenced : Bool} (h : x.Sent g k e fenced)
    {s : ResumeSession} {tail : List ResumeMessage} (hqueue : s.queues g = x.session.queues g ++ tail)
    (e' : Option OutputError) (fenced' : Bool)
    (htail : e.toList.map .failure ++ (if fenced then [.fence] else []) ++ tail =
      e'.toList.map ResumeMessage.failure ++ if fenced' then [.fence] else []) :
    Sent { x with session := s } g k e' fenced' := by
  refine ⟨h.1, ?_⟩
  show s.queues g = _
  rw [hqueue, h.2, List.append_assoc, htail]

/-- A queue that only the current attachment gets messages in is empty if its attachment is still to come. -/
theorem Inv.unused (h : x.Inv) {g : Nat} (hlt : x.session.generation < g) {current : Prop} [Decidable current]
    (hcurrent : current → x.session.attachment = some g) {queue ms : List ResumeMessage}
    (hqueue : queue = x.session.queues g ++ if current then ms else []) : queue = [] := by
  have hother : ¬ current := by
    intro hg
    have hgeneration := (h.current g (hcurrent hg)).1
    omega
  rw [hqueue, h.fresh g hlt, if_neg hother]
  rfl

/-- The stream fails. -/
theorem Inv.overflow (h : x.Inv) (hnone : x.session.failure = none) (e : OutputError) :
    Inv { x with session := { x.session.notify [.failure e] with failure := some e } } := by
  obtain ⟨queues, hnotify, hqueues⟩ := x.session.notify_eq [.failure e]
  rw [hnotify]
  refine ⟨h.chained, h.terminal, h.next, h.sample, h.trimmed, h.trimmedSample, h.records, h.bytes, h.bounded,
    ?_, ?_, ?_, h.playback⟩
  · intro g hg
    obtain ⟨hgeneration, hopen, hsent⟩ := h.current g hg
    have hg' : x.session.attachment = some g := hg
    refine ⟨hgeneration, hopen, hsent.control (hqueues g) (some e) false ?_⟩
    rw [hnone, if_pos hg']
    rfl
  · intro g
    by_cases hg : x.session.attachment = some g
    · obtain ⟨-, -, hsent⟩ := h.current g hg
      refine ⟨_, some e, false, hsent.control (hqueues g) (some e) false ?_⟩
      rw [hnone, if_pos hg]
      rfl
    · obtain ⟨k, e', fenced, hsent⟩ := h.sent g
      refine ⟨k, e', fenced, hsent.control (hqueues g) e' fenced ?_⟩
      rw [if_neg hg, List.append_nil]
  · exact fun g hlt => h.unused hlt id (hqueues g)

/-- A batch is registered. -/
theorem Inv.registers (h : x.Inv) (hopen : x.session.closed = false) (hfailure : x.session.failure = none)
    (hlive : x.session.terminal = false) {staged : List ResumeDelivery}
    (hchained : Chained x.session.nextDeliverySeq x.session.nextAudioSample staged)
    (hlast : ∀ pre d post, staged = pre ++ d :: post → d.frame.isTerminal = true → post = [])
    (hfits : ¬ x.session.maxBufferBytes < x.session.retainedBytes + ResumeOutput.bytes staged)
    (engineFinished : Bool) :
    Inv { x with
      session := { x.session.notify (staged.map .delivery) with
        records := x.session.records ++ staged
        retainedBytes := x.session.retainedBytes + ResumeOutput.bytes staged
        nextDeliverySeq := x.session.nextDeliverySeq + staged.length
        nextAudioSample := endSample x.session.nextAudioSample staged
        terminal := staged.any (·.frame.isTerminal)
        engineFinished := engineFinished }
      log := x.log ++ staged } := by
  obtain ⟨queues, hnotify, hqueues⟩ := x.session.notify_eq (staged.map .delivery)
  have hnext := h.next
  have hsample := h.sample
  have hsent : ∀ g k e fenced, x.session.attachment ≠ some g → x.Sent g k e fenced →
      (x.cursor g ≤ k ∧ k ≤ (x.log ++ staged).length) ∧
        queues g = (((x.log ++ staged).take k).drop (x.cursor g)).map .delivery ++
          (e.toList.map .failure ++ if fenced then [.fence] else []) := by
    intro g k e fenced hother hold
    refine ⟨⟨hold.1.1, Nat.le_trans hold.1.2 (by simp)⟩, ?_⟩
    rw [hqueues g, if_neg hother, List.append_nil, hold.2, List.take_append_of_le_length hold.1.2]
  have hcurrent : ∀ g, x.session.attachment = some g →
      (x.cursor g ≤ (x.log ++ staged).length ∧ (x.log ++ staged).length ≤ (x.log ++ staged).length) ∧
        queues g = (((x.log ++ staged).take (x.log ++ staged).length).drop (x.cursor g)).map .delivery ++
          ((none : Option OutputError).toList.map .failure ++ if false = true then [.fence] else []) := by
    intro g hg
    obtain ⟨-, -, hbounds, hqueue⟩ := h.current g hg
    refine ⟨⟨Nat.le_trans hbounds.1 (by simp), Nat.le_refl _⟩, ?_⟩
    rw [hqueues g, if_pos hg, hqueue, hfailure, List.take_length, List.take_length,
      List.drop_append_of_le_length hbounds.1, List.map_append]
    simp
  rw [hnotify]
  refine ⟨?_, ?_, ?_, ?_, ?_, ?_, ?_, ?_, ?_, ?_, ?_, ?_, ?_⟩
  · refine h.chained.append ?_
    rw [hnext, hsample, Nat.add_comm] at hchained
    exact hchained
  · intro pre d post hlog hd
    change x.log ++ staged = pre ++ d :: post at hlog
    rcases List.append_eq_append_iff.1 hlog with ⟨rest, rfl, hstaged⟩ | ⟨rest, hlog', hstaged⟩
    · refine ⟨hlast rest d post hstaged hd, ?_⟩
      show staged.any _ = true
      rw [hstaged, List.any_eq_true]
      exact ⟨d, by simp, hd⟩
    · -- a terminal among the old deliveries
      cases rest with
      | nil =>
          rw [List.nil_append] at hstaged
          refine ⟨hlast [] d post (by rw [← hstaged, List.nil_append]) hd, ?_⟩
          show staged.any _ = true
          rw [← hstaged, List.any_eq_true]
          exact ⟨d, by simp, hd⟩
      | cons d' rest =>
          obtain ⟨rfl, -⟩ := List.cons.inj hstaged
          have hterminal := (h.terminal pre d rest hlog' hd).2
          rw [hlive] at hterminal
          cases hterminal
  · show x.session.nextDeliverySeq + staged.length = (x.log ++ staged).length + 1
    rw [hnext, List.length_append]
    omega
  · show endSample x.session.nextAudioSample staged = endSample 0 (x.log ++ staged)
    rw [hsample, endSample_append]
  · exact Nat.le_trans h.trimmed (by simp)
  · show x.session.trimmedAudioSample = endSample 0 ((x.log ++ staged).take x.session.trimmedThroughSeq)
    rw [List.take_append_of_le_length h.trimmed]
    exact h.trimmedSample
  · intro _
    show x.session.records ++ staged = (x.log ++ staged).drop x.session.trimmedThroughSeq
    rw [h.records hopen, List.drop_append_of_le_length h.trimmed]
  · show x.session.retainedBytes + _ = ResumeOutput.bytes (x.session.records ++ staged)
    rw [bytes_append, h.bytes]
  · exact Int.not_lt.1 hfits
  · intro g hg
    refine ⟨(h.current g hg).1, hopen, ?_⟩
    have hsent := hcurrent g hg
    rw [← hfailure] at hsent
    exact hsent
  · intro g
    by_cases hg : x.session.attachment = some g
    · exact ⟨_, none, false, hcurrent g hg⟩
    · obtain ⟨k, e, fenced, hold⟩ := h.sent g
      exact ⟨k, e, fenced, hsent g k e fenced hg hold⟩
  · exact fun g hlt => h.unused hlt id (hqueues g)
  · obtain ⟨hplayed, horder, hbuffered⟩ := h.playback
    refine ⟨hplayed, horder, Int.le_trans hbuffered ?_⟩
    exact Int.ofNat_le.2 hchained.le

/-- The current attachment may get the fence. -/
theorem Inv.fences (h : x.Inv) {s : ResumeSession} {fenced : Nat → Prop} [DecidablePred fenced]
    (hcurrent : ∀ g, fenced g → x.session.attachment = some g)
    (hqueues : ∀ g, s.queues g = x.session.queues g ++ if fenced g then [.fence] else [])
    (g : Nat) : ∃ k e fenced, Sent { x with session := s } g k e fenced := by
  by_cases hg : fenced g
  · obtain ⟨-, -, hsent⟩ := h.current g (hcurrent g hg)
    refine ⟨_, x.session.failure, true, hsent.control (hqueues g) x.session.failure true ?_⟩
    rw [if_pos hg]
    simp
  · obtain ⟨k, e, fenced, hsent⟩ := h.sent g
    refine ⟨k, e, fenced, hsent.control (hqueues g) e fenced ?_⟩
    rw [if_neg hg, List.append_nil]

/-- A handler attaches at the end of a delivery. -/
theorem Inv.attaches (h : x.Inv) {seq sample : Int} {generation : Nat}
    (hattach : (x.session.attach seq sample).1 = .ok generation) :
    Inv { x with
      session := (x.session.attach seq sample).2
      cursor := Function.update x.cursor generation seq.toNat } := by
  obtain ⟨hcheck, rfl, queues, hattached, hqueues⟩ := ResumeSession.attach_ok hattach
  rw [hattached]
  unfold ResumeSession.checkAttach at hcheck
  split at hcheck
  · cases hcheck
  · next hlive =>
    rw [not_or, Bool.not_eq_true] at hlive
    split at hcheck
    · cases hcheck
    · next hfailure =>
      obtain ⟨k, hle, hknown, rfl, -⟩ := (h.validateCursor_iff hlive.1 _ _).1 hcheck
      have hreplay : x.session.records.filter (fun d => ((k : Nat) : Int) < d.deliverySeq) =
          x.log.drop k := by
        obtain ⟨i, rfl⟩ := Nat.exists_eq_add_of_le hle
        have hfilter := (h.chainedRecords hlive.1).filter i
        rw [h.records hlive.1, List.drop_drop] at hfilter
        rw [h.records hlive.1, ← hfilter]
        refine List.filter_congr fun d _ => ?_
        congr 1
        exact propext ⟨fun hlt => by omega, fun hlt => by omega⟩
      have hcurrent : ∀ e, e = x.session.failure → Sent
          { x with
            session := { x.session with
              generation := x.session.generation + 1
              attachment := some (x.session.generation + 1)
              queues := Function.update queues (x.session.generation + 1)
                ((x.session.records.filter fun d => ((k : Nat) : Int) < d.deliverySeq).map .delivery) }
            cursor := Function.update x.cursor (x.session.generation + 1) (Int.toNat k) }
          (x.session.generation + 1) x.log.length e false := by
        rintro e rfl
        refine ⟨?_, ?_⟩
        · dsimp only
          rw [Function.update_self]
          exact ⟨hknown, Nat.le_refl _⟩
        · dsimp only
          rw [Function.update_self, Function.update_self, hreplay, List.take_length, hfailure]
          simp
      refine ⟨h.chained, h.terminal, h.next, h.sample, h.trimmed, h.trimmedSample, h.records, h.bytes,
        h.bounded, ?_, ?_, ?_, h.playback⟩
      · intro g hg
        cases hg
        exact ⟨rfl, hlive.1, hcurrent _ rfl⟩
      · intro g
        by_cases hnew : g = x.session.generation + 1
        · subst hnew
          exact ⟨_, _, _, hcurrent _ rfl⟩
        · obtain ⟨k', e, fenced, hsent⟩ := h.fences (s := { x.session with queues := queues }) (fun _ => id)
            hqueues g
          refine ⟨k', e, fenced, ?_⟩
          unfold Sent at hsent ⊢
          dsimp only at hsent ⊢
          rw [Function.update_of_ne hnew, Function.update_of_ne hnew]
          exact hsent
      · intro g hlt
        have hlt' : x.session.generation + 1 < g := hlt
        have hold : x.session.generation < g := by omega
        show Function.update queues _ _ g = []
        rw [Function.update_of_ne (Nat.ne_of_gt hlt')]
        exact h.unused hold id (hqueues g)

/-- The records are trimmed through the end of a delivery. -/
theorem Inv.trims (h : x.Inv) (hopen : x.session.closed = false) {seq sample : Int}
    (hcursor : x.session.validateCursor seq sample = .ok ()) :
    Inv { x with session := { x.session with
      records := x.session.trim seq.toNat
      retainedBytes := x.session.retainedBytes -
        ResumeOutput.bytes (x.session.records.takeWhile (·.deliverySeq ≤ seq.toNat))
      trimmedThroughSeq := seq.toNat
      trimmedAudioSample := sample.toNat } } := by
  obtain ⟨k, hle, hknown, rfl, rfl⟩ := (h.validateCursor_iff hopen _ _).1 hcursor
  obtain ⟨i, rfl⟩ := Nat.exists_eq_add_of_le hle
  obtain ⟨htake, hdrop⟩ := (h.chainedRecords hopen).span i
  have hsplit : x.session.records =
      x.session.records.takeWhile (·.deliverySeq ≤ x.session.trimmedThroughSeq + i) ++
        x.session.records.dropWhile (·.deliverySeq ≤ x.session.trimmedThroughSeq + i) :=
    List.takeWhile_append_dropWhile.symm
  have hbytes : x.session.retainedBytes -
      ResumeOutput.bytes (x.session.records.takeWhile (·.deliverySeq ≤ x.session.trimmedThroughSeq + i)) =
        ResumeOutput.bytes
          (x.session.records.dropWhile (·.deliverySeq ≤ x.session.trimmedThroughSeq + i)) := by
    have htotal := h.bytes
    rw [hsplit, bytes_append] at htotal
    omega
  have hnonneg : ∀ ds : List ResumeDelivery, 0 ≤ ResumeOutput.bytes ds := by
    intro ds
    refine List.sum_nonneg fun b hb => ?_
    obtain ⟨d, -, rfl⟩ := List.mem_map.1 hb
    exact Int.natCast_nonneg _
  refine ⟨h.chained, h.terminal, h.next, h.sample, ?_, ?_, ?_, hbytes, ?_, h.current, h.sent, h.fresh,
    h.playback⟩
  · exact hknown
  · show Int.toNat (endSample 0 _ : Nat) = _
    rw [Int.toNat_natCast]
    rfl
  · intro _
    show x.session.records.dropWhile _ = x.log.drop _
    have hsame : (fun d : ResumeDelivery => decide (d.deliverySeq ≤ x.session.trimmedThroughSeq + i)) =
        fun d => decide (d.deliverySeq < x.session.trimmedThroughSeq + 1 + i) := by
      funext d
      congr 1
      exact propext ⟨fun hd => by omega, fun hd => by omega⟩
    show x.session.records.dropWhile
      (fun d => decide (d.deliverySeq ≤ x.session.trimmedThroughSeq + i)) = _
    rw [hsame, hdrop, h.records hopen, List.drop_drop]
    rfl
  · have hbounded := h.bounded
    have hacked := hnonneg (x.session.records.takeWhile (·.deliverySeq ≤ x.session.trimmedThroughSeq + i))
    show x.session.retainedBytes - ResumeOutput.bytes
      (x.session.records.takeWhile (·.deliverySeq ≤ x.session.trimmedThroughSeq + i)) ≤ _
    exact Int.le_trans (by omega) hbounded

/-- The session is closed. -/
theorem Inv.closes (h : x.Inv) (fence : Bool) : Inv { x with session := x.session.markClosed fence } := by
  unfold ResumeSession.markClosed
  split
  · exact h
  · have hqueues : ∃ queues, (if fence then x.session.notify [.fence] else x.session) =
        { x.session with queues := queues } ∧ ∀ g, queues g = x.session.queues g ++
          if fence = true ∧ x.session.attachment = some g then [.fence] else [] := by
      cases fence with
      | false => exact ⟨x.session.queues, rfl, fun g => by simp⟩
      | true =>
          obtain ⟨queues, hnotify, hqueues⟩ := x.session.notify_eq [.fence]
          exact ⟨queues, hnotify, fun g => by simpa using hqueues g⟩
    obtain ⟨queues, hnotify, hqueues⟩ := hqueues
    rw [hnotify]
    refine ⟨h.chained, h.terminal, h.next, h.sample, h.trimmed, h.trimmedSample, ?_, rfl, ?_, ?_, ?_, ?_,
      h.playback⟩
    · intro hclosed
      cases hclosed
    · exact Int.natCast_nonneg _
    · intro g hg
      cases hg
    · exact h.fences (fun g hg => hg.2) hqueues
    · exact fun g hlt => h.unused hlt And.right (hqueues g)

/-- The samples through a delivery are no more than the output. -/
theorem Inv.endSample_le (h : x.Inv) (k : Nat) :
    endSample 0 (x.log.take k) ≤ x.session.nextAudioSample := by
  have hrest := (h.chained.drop k).le
  rw [h.sample]
  conv_rhs => rw [← List.take_append_drop k x.log]
  rw [endSample_append]
  exact hrest

/-- The end of a delivery that was observed. -/
theorem Inv.audioEndThrough (h : x.Inv) (hopen : x.session.closed = false) {seq limit : Nat}
    (hseq : seq < x.session.nextDeliverySeq) (hlimit : x.session.audioEndThrough seq = .ok limit) :
    x.session.trimmedThroughSeq ≤ seq ∧ limit = endSample 0 (x.log.take seq) := by
  have hnext := h.next
  unfold ResumeSession.audioEndThrough at hlimit
  split at hlimit
  · next htrimmed =>
    cases hlimit
    rw [htrimmed]
    exact ⟨Nat.le_refl _, h.trimmedSample⟩
  · next hne =>
    split at hlimit
    · cases hlimit
    · next hretained =>
      refine ⟨by omega, ?_⟩
      split at hlimit
      · next hlast =>
        cases hlimit
        rw [h.sample, List.take_of_length_le (by omega)]
      · have hsample := h.sampleAt hopen seq (by omega) (by omega)
        unfold ResumeSession.sampleAt at hsample
        rw [if_neg hne] at hsample
        cases hfind : x.session.records.find? (·.deliverySeq = seq) with
        | none =>
            rw [hfind] at hlimit
            cases hlimit
        | some d =>
            rw [hfind] at hlimit hsample
            cases hlimit
            exact Option.some.inj hsample

theorem Inv.putBatch (h : x.Inv) (frames : List Frame) : (x.step jsonLen (.putBatch frames)).Inv := by
  have hsame : ∀ s : ResumeSession, s.records = x.session.records →
      x.log ++ s.records.drop x.session.records.length = x.log := by
    intro s hs
    rw [hs, List.drop_length, List.append_nil]
  unfold step registered attached ResumeSession.call
  dsimp only
  rcases x.session.putBatch_cases jsonLen frames with hsession | ⟨⟨hopen, hfailure, hlive⟩, hput⟩
  · rw [hsession, hsame _ rfl]
    exact h
  · rcases hput with ⟨-, hsession⟩ | ⟨hfits, staged, hstaged, hsession⟩
    · have hrecords : (x.session.putBatch jsonLen frames).records = x.session.records := by
        obtain ⟨queues, hnotify, -⟩ := x.session.notify_eq [.failure ResumeSession.overflow]
        rw [hsession, hnotify]
      rw [hsame _ hrecords, hsession]
      exact h.overflow hfailure _
    · rw [hsession, List.drop_left]
      unfold ResumeSession.Overflows at hfits
      rw [← hstaged] at hfits
      refine h.registers hopen hfailure hlive ?_ ?_ hfits _
      · rw [hstaged]
        exact chained_stage jsonLen _ _ _
      · intro pre d post hsplit hd
        exact stage_terminal jsonLen (hstaged.symm.trans hsplit) hd

/-- A call that registers nothing and attaches nobody. -/
theorem step_session {c : Call} (hregistered : registered jsonLen x.session c = []) (hattached : x.attached c = x.cursor)
    (h : Inv { x with session := x.session.call jsonLen c }) : (x.step jsonLen c).Inv := by
  unfold History.step
  rw [hregistered, hattached, List.append_nil]
  exact h

theorem Inv.step (h : x.Inv) (c : Call) : (x.step jsonLen c).Inv := by
  cases c with
  | putBatch frames => exact h.putBatch frames
  | attach seq sample =>
      unfold History.step registered attached
      dsimp only
      rw [List.append_nil]
      cases hattach : (x.session.attach seq sample).1 with
      | error e =>
          show Inv { x with session := (x.session.attach seq sample).2 }
          rw [ResumeSession.attach_error hattach]
          exact h
      | ok generation => exact h.attaches hattach
  | detach generation =>
      refine step_session rfl rfl ?_
      unfold ResumeSession.call ResumeSession.detach
      dsimp only
      split
      · exact h
      · refine h.flags _ id _ _ _ none ?_
        intro g hg
        cases hg
  | acknowledge generation seq sample =>
      refine step_session rfl rfl ?_
      unfold ResumeSession.call
      dsimp only
      rcases x.session.acknowledge_cases generation seq sample with hsame | ⟨hopen, hcursor, htrimmed⟩
      · rw [hsame]
        exact h
      · rw [htrimmed]
        exact h.trims hopen hcursor
  | recordPlaybackProgress generation played buffered observed =>
      refine step_session rfl rfl ?_
      unfold ResumeSession.call
      dsimp only
      rcases x.session.recordPlaybackProgress_cases generation played buffered observed with
        hsame | ⟨⟨hopen, -⟩, horder, -, ⟨seq, hseq, -, limit, hlimit, hbuffered⟩, hmoved⟩
      · rw [hsame]
        exact h
      · rw [hmoved]
        refine ⟨h.chained, h.terminal, h.next, h.sample, h.trimmed, h.trimmedSample, h.records, h.bytes,
          h.bounded, h.current, h.sent, h.fresh, horder.1, horder.2, ?_⟩
        obtain ⟨-, rfl⟩ := h.audioEndThrough hopen hseq hlimit
        exact Int.le_trans hbuffered (Int.ofNat_le.2 (h.endSample_le seq))
  | markClosed fence =>
      refine step_session rfl rfl ?_
      unfold ResumeSession.call
      dsimp only
      exact h.closes fence
  | claimDetachedExpiration generation =>
      refine step_session rfl rfl ?_
      unfold ResumeSession.call ResumeSession.claimDetachedExpiration
      dsimp only
      split
      · exact h
      · exact h.flags _ id _ _ _ _ fun g hg => hg
  | claimTerminalExpiration =>
      refine step_session rfl rfl ?_
      unfold ResumeSession.call ResumeSession.claimTerminalExpiration
      dsimp only
      split
      · exact h
      · exact h.flags _ id _ _ _ _ fun g hg => hg
  | cancelEngineOnce =>
      refine step_session rfl rfl ?_
      unfold ResumeSession.call ResumeSession.cancelEngineOnce
      dsimp only
      split
      · exact h
      · exact h.flags _ id _ _ _ _ fun g hg => hg

theorem run_inv (maxBufferBytes : Nat) (calls : List Call) :
    (run (History.step jsonLen) (new maxBufferBytes) calls).Inv :=
  run_invariant (inv_new maxBufferBytes) (fun _ c h => h.step c) calls

end

/-! ## What the handlers get -/

/-- The delivery that a message is. -/
def delivery? : ResumeMessage → Option ResumeDelivery
  | .delivery d => some d
  | .fence | .failure _ => none

/-- The deliveries of a queue. -/
def deliveries (ms : List ResumeMessage) : List ResumeDelivery := ms.filterMap delivery?

theorem deliveries_queue (ds : List ResumeDelivery) (e : Option OutputError) (fenced : Bool) :
    deliveries (ds.map .delivery ++ (e.toList.map .failure ++ if fenced then [.fence] else [])) = ds := by
  have hds : (ds.map ResumeMessage.delivery).filterMap delivery? = ds := by
    rw [List.filterMap_map]
    exact List.filterMap_some
  unfold deliveries
  rw [List.filterMap_append, hds]
  cases e <;> cases fenced <;> simp [delivery?]

/-- The deliveries are numbered from 1 on, their samples are contiguous, and nothing follows a terminal. The
queue of an attachment has the deliveries behind its cursor in order, each once, with none left out up to the
last one, and the queue of the current attachment has them all; nothing follows a fence. -/
structure Delivered (x : History) : Prop where
  numbered : Chained 1 0 x.log
  terminal : ∀ pre d post, x.log = pre ++ d :: post → d.frame.isTerminal = true → post = []
  queues : ∀ g, ∃ k, x.cursor g ≤ k ∧ k ≤ x.log.length ∧
    deliveries (x.session.queues g) = (x.log.take k).drop (x.cursor g)
  live : ∀ g, x.session.attachment = some g →
    x.cursor g ≤ x.log.length ∧ deliveries (x.session.queues g) = x.log.drop (x.cursor g)
  fenced : ∀ g pre post, x.session.queues g = pre ++ .fence :: post → post = []

theorem Inv.delivered {x : History} (h : x.Inv) : x.Delivered where
  numbered := h.chained
  terminal pre d post hlog hd := (h.terminal pre d post hlog hd).1
  queues g := by
    obtain ⟨k, e, fenced, hbounds, hqueue⟩ := h.sent g
    refine ⟨k, hbounds.1, hbounds.2, ?_⟩
    rw [hqueue, deliveries_queue]
  live g hg := by
    obtain ⟨-, -, hbounds, hqueue⟩ := h.current g hg
    refine ⟨hbounds.1, ?_⟩
    rw [hqueue, deliveries_queue, List.take_length]
  fenced g pre post hsplit := by
    obtain ⟨k, e, fenced, -, hqueue⟩ := h.sent g
    rw [hqueue] at hsplit
    -- the fence is the last message, and the only one
    have hnot : ResumeMessage.fence ∉
        ((x.log.take k).drop (x.cursor g)).map .delivery ++ e.toList.map ResumeMessage.failure := by
      intro hmem
      rcases List.mem_append.1 hmem with hmem | hmem
      · obtain ⟨d, -, hd⟩ := List.mem_map.1 hmem
        cases hd
      · obtain ⟨e', -, he⟩ := List.mem_map.1 hmem
        cases he
    rw [← List.append_assoc] at hsplit
    cases fenced with
    | false =>
        rw [if_neg Bool.false_ne_true, List.append_nil] at hsplit
        rw [hsplit] at hnot
        exact absurd (List.mem_append_right pre List.mem_cons_self) hnot
    | true =>
        rw [if_pos rfl] at hsplit
        exact ((List.append_cons_inj_of_notMem hnot List.not_mem_nil).1 hsplit).2.2.symm

/-- **Every attachment gets the output behind its cursor.** In every history of calls. -/
theorem outputs_delivered (jsonLen : Nat → Frame → Nat) (maxBufferBytes : Nat) (calls : List Call) :
    (run (step jsonLen) (new maxBufferBytes) calls).Delivered :=
  (run_inv maxBufferBytes calls).delivered

/-- **Where a stream can be resumed.** After every history of calls an `attach` succeeds exactly at the end
of a delivery that is not before the acknowledged one, as long as the stream is not closed, given up or
failed; what is retained for it are the deliveries behind the acknowledged one, and they fit the window. -/
theorem resume_iff (jsonLen : Nat → Frame → Nat) (maxBufferBytes : Nat) (calls : List Call) (seq sample : Int) :
    let x := run (step jsonLen) (new maxBufferBytes) calls
    ((∃ generation, (x.session.attach seq sample).1 = .ok generation) ↔
        x.session.closed = false ∧ x.session.expiring = false ∧ x.session.failure = none ∧
          ∃ k : Nat, x.session.trimmedThroughSeq ≤ k ∧ k ≤ x.log.length ∧ seq = k ∧
            sample = endSample 0 (x.log.take k)) ∧
      (x.session.closed = false →
        ResumeOutput.bytes (x.log.drop x.session.trimmedThroughSeq) ≤ x.session.maxBufferBytes) := by
  intro x
  have h : x.Inv := run_inv maxBufferBytes calls
  have hattach : (∃ generation, (x.session.attach seq sample).1 = .ok generation) ↔
      x.session.checkAttach seq sample = .ok () := by
    unfold ResumeSession.attach
    cases hcheck : x.session.checkAttach seq sample with
    | error e => simp
    | ok u => simp
  refine ⟨?_, ?_⟩
  · rw [hattach]
    unfold ResumeSession.checkAttach
    constructor
    · intro hok
      split at hok
      · cases hok
      · next hlive =>
        rw [not_or, Bool.not_eq_true, Bool.not_eq_true] at hlive
        split at hok
        · cases hok
        · next hfailure =>
          exact ⟨hlive.1, hlive.2, hfailure, (h.validateCursor_iff hlive.1 _ _).1 hok⟩
    · rintro ⟨hopen, hexpiring, hfailure, hcursor⟩
      rw [if_neg (by simp [hopen, hexpiring]), hfailure]
      exact (h.validateCursor_iff hopen _ _).2 hcursor
  · intro hopen
    have hbytes := h.bytes
    rw [h.records hopen] at hbytes
    rw [← hbytes]
    exact h.bounded

/-- What a call does to the playback cursors: it moves them forwards only, and only for the handler that owns
the stream, up to the output through a delivery that its client has observed. -/
structure Progress (x x' : History) (c : Call) : Prop where
  played : x.session.playedThroughSample ≤ x'.session.playedThroughSample
  buffered : x.session.bufferedThroughSample ≤ x'.session.bufferedThroughSample
  owner : x.session.playedThroughSample ≠ x'.session.playedThroughSample ∨
      x.session.bufferedThroughSample ≠ x'.session.bufferedThroughSample →
    ∃ generation observed, x.session.attachment = some generation ∧
      c = .recordPlaybackProgress generation x'.session.playedThroughSample
        x'.session.bufferedThroughSample observed ∧
      ∃ k : Nat, x.session.trimmedThroughSeq ≤ k ∧ k ≤ x.log.length ∧ (∀ n, observed = some n → n = k) ∧
        x'.session.bufferedThroughSample ≤ endSample 0 (x.log.take k)

theorem notify_playback (s : ResumeSession) (ms : List ResumeMessage) :
    (s.notify ms).playedThroughSample = s.playedThroughSample ∧
      (s.notify ms).bufferedThroughSample = s.bufferedThroughSample := by
  obtain ⟨queues, hnotify, -⟩ := s.notify_eq ms
  rw [hnotify]
  exact ⟨rfl, rfl⟩

/-- The other calls leave the playback cursors. -/
theorem call_playback {jsonLen : Nat → Frame → Nat} (s : ResumeSession) {c : Call}
    (hc : ∀ generation played buffered observed,
      c ≠ .recordPlaybackProgress generation played buffered observed) :
    (s.call jsonLen c).playedThroughSample = s.playedThroughSample ∧
      (s.call jsonLen c).bufferedThroughSample = s.bufferedThroughSample := by
  cases c with
  | putBatch frames =>
      unfold ResumeSession.call
      dsimp only
      rcases s.putBatch_cases jsonLen frames with hsame | ⟨-, hput⟩
      · rw [hsame]
        exact ⟨rfl, rfl⟩
      · rcases hput with ⟨-, hput⟩ | ⟨-, staged, -, hput⟩
        · rw [hput]
          exact notify_playback s _
        · rw [hput]
          exact notify_playback s _
  | attach seq sample =>
      unfold ResumeSession.call
      dsimp only
      cases hattach : (s.attach seq sample).1 with
      | error e =>
          rw [ResumeSession.attach_error hattach]
          exact ⟨rfl, rfl⟩
      | ok generation =>
          obtain ⟨-, -, queues, hattached, -⟩ := ResumeSession.attach_ok hattach
          rw [hattached]
          exact ⟨rfl, rfl⟩
  | detach generation =>
      unfold ResumeSession.call ResumeSession.detach
      dsimp only
      split <;> exact ⟨rfl, rfl⟩
  | acknowledge generation seq sample =>
      unfold ResumeSession.call
      dsimp only
      rcases s.acknowledge_cases generation seq sample with hsame | ⟨-, -, htrimmed⟩
      · rw [hsame]
        exact ⟨rfl, rfl⟩
      · rw [htrimmed]
        exact ⟨rfl, rfl⟩
  | recordPlaybackProgress generation played buffered observed =>
      exact absurd rfl (hc generation played buffered observed)
  | markClosed fence =>
      unfold ResumeSession.call ResumeSession.markClosed
      dsimp only
      split
      · exact ⟨rfl, rfl⟩
      · cases fence with
        | false => exact ⟨rfl, rfl⟩
        | true => exact notify_playback s _
  | claimDetachedExpiration generation =>
      unfold ResumeSession.call ResumeSession.claimDetachedExpiration
      dsimp only
      split <;> exact ⟨rfl, rfl⟩
  | claimTerminalExpiration =>
      unfold ResumeSession.call ResumeSession.claimTerminalExpiration
      dsimp only
      split <;> exact ⟨rfl, rfl⟩
  | cancelEngineOnce =>
      unfold ResumeSession.call ResumeSession.cancelEngineOnce
      dsimp only
      split <;> exact ⟨rfl, rfl⟩

theorem Progress.still {x x' : History} {c : Call}
    (hsame : x'.session.playedThroughSample = x.session.playedThroughSample ∧
      x'.session.bufferedThroughSample = x.session.bufferedThroughSample) : Progress x x' c := by
  refine ⟨Int.le_of_eq hsame.1.symm, Int.le_of_eq hsame.2.symm, ?_⟩
  rintro (hmoved | hmoved)
  · exact absurd hsame.1.symm hmoved
  · exact absurd hsame.2.symm hmoved

theorem Inv.progress {jsonLen : Nat → Frame → Nat} {x : History} (h : x.Inv) (c : Call) :
    Progress x (x.step jsonLen c) c := by
  by_cases hc : ∃ generation played buffered observed,
      c = .recordPlaybackProgress generation played buffered observed
  · obtain ⟨generation, played, buffered, observed, rfl⟩ := hc
    have hsession : (x.step jsonLen (.recordPlaybackProgress generation played buffered observed)).session =
        (x.session.recordPlaybackProgress generation played buffered observed).2 := rfl
    rcases x.session.recordPlaybackProgress_cases generation played buffered observed with
      hsame | ⟨⟨hopen, howner⟩, -, hforward, ⟨seq, hseq, hobserved, limit, hlimit, hbuffered⟩, hmoved⟩
    · rw [hsame] at hsession
      exact .still ⟨congrArg (·.playedThroughSample) hsession, congrArg (·.bufferedThroughSample) hsession⟩
    · obtain ⟨htrimmed, rfl⟩ := h.audioEndThrough hopen hseq hlimit
      have hnext := h.next
      rw [hmoved] at hsession
      refine ⟨?_, ?_, ?_⟩
      · rw [hsession]
        exact hforward.1
      · rw [hsession]
        exact hforward.2
      · intro _
        rw [hsession]
        exact ⟨generation, observed, howner, rfl, seq, htrimmed, by omega, hobserved, hbuffered⟩
  · refine .still (call_playback x.session ?_)
    intro generation played buffered observed hsame
    exact hc ⟨generation, played, buffered, observed, hsame⟩

/-- **Playback progress only moves forwards.** After every history of calls the played samples are no more
than the buffered ones and these no more than the output, and every further call that moves a cursor moves it
forwards, for the handler that owns the stream, up to what its client has observed. -/
theorem playback_forward (jsonLen : Nat → Frame → Nat) (maxBufferBytes : Nat) (calls : List Call) (c : Call) :
    let x := run (step jsonLen) (new maxBufferBytes) calls
    (0 ≤ x.session.playedThroughSample ∧ x.session.playedThroughSample ≤ x.session.bufferedThroughSample ∧
        x.session.bufferedThroughSample ≤ endSample 0 x.log) ∧
      Progress x (x.step jsonLen c) c := by
  intro x
  have h : x.Inv := run_inv maxBufferBytes calls
  have hplayback := h.playback
  rw [h.sample] at hplayback
  exact ⟨hplayback, h.progress c⟩

/-! ## Giving a stream up -/

/-- A stream that was given up while nobody was attached. -/
def GivenUp (s : ResumeSession) : Prop := s.expiring = true ∧ s.attachment = none

theorem GivenUp.call {jsonLen : Nat → Frame → Nat} {s : ResumeSession} (h : GivenUp s) (c : Call) :
    GivenUp (s.call jsonLen c) := by
  have hnotify : ∀ ms, s.notify ms = s := by
    intro ms
    unfold ResumeSession.notify
    rw [h.2]
  have hrefused : ∀ generation, s.requireGeneration generation =
      .error ⟨.resumeAttachmentSuperseded, "this websocket no longer owns the resumable stream"⟩ := by
    intro generation
    unfold ResumeSession.requireGeneration
    rw [if_pos (.inr (by rw [h.2]; exact (Option.some_ne_none generation).symm))]
  cases c with
  | putBatch frames =>
      unfold ResumeSession.call
      dsimp only
      rcases s.putBatch_cases jsonLen frames with hsame | ⟨-, hput⟩
      · rw [hsame]
        exact h
      · rcases hput with ⟨-, hput⟩ | ⟨-, staged, -, hput⟩
        · rw [hput, hnotify]
          exact h
        · rw [hput, hnotify]
          exact h
  | attach seq sample =>
      unfold ResumeSession.call ResumeSession.attach ResumeSession.checkAttach
      dsimp only
      rw [if_pos (.inr h.1)]
      exact h
  | detach generation =>
      unfold ResumeSession.call ResumeSession.detach
      dsimp only
      split
      · exact h
      · exact ⟨h.1, rfl⟩
  | acknowledge generation seq sample =>
      unfold ResumeSession.call ResumeSession.acknowledge
      dsimp only
      rw [hrefused]
      exact h
  | recordPlaybackProgress generation played buffered observed =>
      unfold ResumeSession.call ResumeSession.recordPlaybackProgress
      dsimp only
      rw [hrefused]
      exact h
  | markClosed fence =>
      unfold ResumeSession.call ResumeSession.markClosed
      dsimp only
      rw [hnotify, ite_self]
      split
      · exact h
      · exact ⟨h.1, rfl⟩
  | claimDetachedExpiration generation =>
      unfold ResumeSession.call ResumeSession.claimDetachedExpiration
      dsimp only
      rw [if_pos (.inr (.inl h.1))]
      exact h
  | claimTerminalExpiration =>
      unfold ResumeSession.call ResumeSession.claimTerminalExpiration
      dsimp only
      rw [if_pos (.inr (.inl h.1))]
      exact h
  | cancelEngineOnce =>
      unfold ResumeSession.call ResumeSession.cancelEngineOnce
      dsimp only
      split <;> exact h

/-- **A stream that is given up stays unattached.** The grace task of a detachment gives a stream up exactly
if nobody attached since, and whatever is called behind that, nobody is attached and no `attach` succeeds. -/
theorem expiry_fences (jsonLen : Nat → Frame → Nat) (maxBufferBytes : Nat) (calls : List Call)
    (generation : Nat) :
    let x := run (step jsonLen) (new maxBufferBytes) calls
    ((x.session.claimDetachedExpiration generation).1 = true ↔
        x.session.closed = false ∧ x.session.expiring = false ∧ x.session.attachment = none ∧
          x.session.generation = generation) ∧
      ∀ later, (x.session.claimDetachedExpiration generation).1 = true →
        let y := run (step jsonLen) x (.claimDetachedExpiration generation :: later)
        y.session.attachment = none ∧
          ∀ seq sample, ∃ e, (y.session.attach seq sample).1 = .error e := by
  intro x
  refine ⟨?_, ?_⟩
  · unfold ResumeSession.claimDetachedExpiration
    split
    · next hrefused =>
      refine iff_of_false Bool.false_ne_true ?_
      rintro ⟨hopen, hlive, hnone, hsame⟩
      rcases hrefused with hclosed | hexpiring | hattached | hnewer
      · rw [hopen] at hclosed
        cases hclosed
      · rw [hlive] at hexpiring
        cases hexpiring
      · exact hattached hnone
      · exact hnewer hsame
    · next hclaimed => simpa using hclaimed
  · intro later hclaim
    have hgiven : GivenUp (x.step jsonLen (.claimDetachedExpiration generation)).session := by
      show GivenUp (x.session.claimDetachedExpiration generation).2
      unfold ResumeSession.claimDetachedExpiration at hclaim ⊢
      split at hclaim
      · cases hclaim
      · next hclaimed =>
        rw [if_neg hclaimed]
        simp only [not_or, ne_eq, not_not] at hclaimed
        exact ⟨rfl, hclaimed.2.2.1⟩
    have hkept : ∀ (cs : List Call) (y : History), GivenUp y.session →
        GivenUp (run (step jsonLen) y cs).session := by
      intro cs
      induction cs with
      | nil => exact fun y hy => hy
      | cons c cs ih => exact fun y hy => ih _ (hy.call c)
    have hlater := hkept later _ hgiven
    refine ⟨hlater.2, fun seq sample => ⟨⟨.resumeSessionNotFound, "resumable stream is no longer available"⟩, ?_⟩⟩
    show ((run (step jsonLen) (x.step jsonLen (.claimDetachedExpiration generation)) later).session.attach
      seq sample).1 = _
    unfold ResumeSession.attach ResumeSession.checkAttach
    rw [if_pos (.inr hlater.1)]

end History

end StreamingTts.Gateway.ResumeOutput
