import StreamingTts.Client.StreamSession
import StreamingTts.Session.LedgerLog

/-!
# The output of a stream reaches the caller once

What `EngineWebSocketStreamSession` queues, against a server that numbers its deliveries and replays
those behind the cursor of a resume (`Serves`). `Synced` is the invariant: the messages are a prefix of
the deliveries, both cursors stand at its end, and on the current connection the reader is at a delivery
that is not behind it. It is kept as long as no frame is handled that the recovery of another thread has
made unreadable, and no recovery is given up (`Clean`).
-/

namespace StreamingTts.Client

open Lib

/-! ## The server -/

/-- A numbered output of the server. -/
inductive Delivery
  | audio (startSample endSample : Nat) (format : AudioFormat) (pcmBytes : List UInt8)
  | event (e : StreamEvent)

namespace Delivery

/-- What the caller is to get for it. -/
def message : Delivery → Message
  | audio startSample endSample format pcmBytes =>
      .audio ⟨pcmBytes, format, some startSample, some endSample⟩
  | event e => .event e

/-- Its frames, when it has the number `seq`. -/
def frames (seq : Nat) : Delivery → List ServerFrame
  | audio startSample endSample format pcmBytes =>
      [.audioHeader ⟨some seq, some startSample, some endSample, format⟩, .audio pcmBytes]
  | event e => [.event (some seq) e]

/-- The end of the audio behind it. -/
def endAfter (sample : Nat) : Delivery → Nat
  | audio _ endSample _ _ => endSample
  | event _ => sample

/-- Whether the stream ends with it. -/
def isTerminal : Delivery → Bool
  | audio .. => false
  | event e => e.isTerminal

end Delivery

/-- The end of the audio of some deliveries. -/
def endSample (ds : List Delivery) : Nat := ds.foldl Delivery.endAfter 0

/-- The frames of deliveries that are numbered from `seq` on. -/
def framesFrom : Nat → List Delivery → List ServerFrame
  | _, [] => []
  | seq, d :: ds => d.frames seq ++ framesFrom (seq + 1) ds

/-- Audio deliveries that continue the axis of samples at `sample`, none of them empty. -/
def Contiguous : Nat → List Delivery → Prop
  | _, [] => True
  | sample, .audio startSample endSample _ _ :: ds =>
      startSample = sample ∧ sample < endSample ∧ Contiguous endSample ds
  | sample, .event _ :: ds => Contiguous sample ds

/-- The deliveries of a stream: the samples of the audio are contiguous, and nothing follows the
terminal. -/
structure Numbered (ds : List Delivery) : Prop where
  contiguous : Contiguous 0 ds
  terminal : ∀ pre d post, ds = pre ++ d :: post → d.isTerminal = true → post = []

variable {ds : List Delivery}

theorem framesFrom_append (seq : Nat) (ds ds' : List Delivery) :
    framesFrom seq (ds ++ ds') = framesFrom seq ds ++ framesFrom (seq + ds.length) ds' := by
  induction ds generalizing seq with
  | nil => rfl
  | cons d ds ih =>
      rw [List.cons_append, framesFrom, framesFrom, ih, List.append_assoc, List.length_cons,
        Nat.add_right_comm, ← Nat.add_assoc]

theorem endSample_append (ds : List Delivery) (d : Delivery) :
    endSample (ds ++ [d]) = d.endAfter (endSample ds) := by
  rw [endSample, List.foldl_append]
  rfl

theorem contiguous_append {sample : Nat} {ds ds' : List Delivery} (h : Contiguous sample (ds ++ ds')) :
    Contiguous sample ds ∧ Contiguous (ds.foldl Delivery.endAfter sample) ds' := by
  induction ds generalizing sample with
  | nil => exact ⟨trivial, h⟩
  | cons d ds ih =>
      cases d with
      | audio startSample endSample format pcmBytes =>
          obtain ⟨hstart, hlt, hrest⟩ := h
          exact ⟨⟨hstart, hlt, (ih hrest).1⟩, (ih hrest).2⟩
      | event e => exact ih h

theorem foldl_endAfter_mono {sample : Nat} (h : Contiguous sample ds) :
    sample ≤ ds.foldl Delivery.endAfter sample := by
  induction ds generalizing sample with
  | nil => exact Nat.le_refl _
  | cons d ds ih =>
      cases d with
      | audio startSample endSample format pcmBytes =>
          obtain ⟨-, hlt, hrest⟩ := h
          exact (Nat.le_of_lt hlt).trans (ih hrest)
      | event e => exact ih h

/-- The end of the audio of a longer part of the stream is not before that of a shorter one. -/
theorem Numbered.endSample_mono (h : Numbered ds) {k m : Nat} (hkm : k ≤ m) :
    endSample (ds.take k) ≤ endSample (ds.take m) := by
  have hsplit : ds.take m = ds.take k ++ (ds.take m).drop k := by
    conv_lhs => rw [← List.take_append_drop k (ds.take m)]
    rw [List.take_take, Nat.min_eq_left hkm]
  have hc : Contiguous 0 (ds.take m) := by
    have := h.contiguous
    rw [← List.take_append_drop m ds] at this
    exact (contiguous_append this).1
  rw [hsplit] at hc
  rw [hsplit, endSample, endSample, List.foldl_append]
  exact foldl_endAfter_mono (contiguous_append hc).2

/-- An audio delivery of the stream begins where the audio before it ends. -/
theorem Numbered.audio (h : Numbered ds) {k startSample endSample' : Nat} {format : AudioFormat}
    {pcmBytes : List UInt8} (hk : ds[k]? = some (.audio startSample endSample' format pcmBytes)) :
    startSample = endSample (ds.take k) ∧ startSample < endSample' := by
  have hc := h.contiguous
  rw [← List.take_append_drop k ds] at hc
  have hdrop : ds.drop k = .audio startSample endSample' format pcmBytes :: ds.drop (k + 1) := by
    obtain ⟨hlt, hget⟩ := List.getElem?_eq_some_iff.1 hk
    rw [List.drop_eq_getElem_cons hlt, hget]
  rw [hdrop] at hc
  obtain ⟨hstart, hlt, -⟩ := (contiguous_append hc).2
  exact ⟨hstart, hstart ▸ hlt⟩

/-- The deliveries through the next one. -/
theorem take_next {k : Nat} {d : Delivery} (hk : ds[k]? = some d) :
    ds.take (k + 1) = ds.take k ++ [d] := by
  rw [List.take_add_one, hk]
  rfl

/-- Whether a frame belongs to a delivery. -/
def ServerFrame.isOutput : ServerFrame → Bool
  | .audioHeader _ | .audio _ | .event .. => true
  | _ => false

/-- The frames of deliveries among those received. -/
def outputFrames (fs : List ServerFrame) : List ServerFrame := fs.filter ServerFrame.isOutput

/-- The number of a `resume`. -/
def ClientFrame.resumeSeq? : ClientFrame → Option Nat
  | .resume seq _ => some seq
  | _ => none

/-- The number behind which the server replays on a connection with these frames: that of its `resume`,
or none on the first connection. -/
def resumeSeq (fs : List ClientFrame) : Nat := (fs.filterMap ClientFrame.resumeSeq?).headD 0

theorem resumeSeq_append (fs : List ClientFrame) {f : ClientFrame} (h : f.resumeSeq? = none) :
    resumeSeq (fs ++ [f]) = resumeSeq fs := by
  rw [resumeSeq, List.filterMap_append, List.filterMap_cons_none h, List.filterMap_nil,
    List.append_nil, resumeSeq]

/-! ## Where a reader is in the deliveries of its connection -/

/-- The frames `fs` are those of the deliveries `start + 1, .., start + count`. -/
def Through (ds : List Delivery) (start count : Nat) (fs : List ServerFrame) : Prop :=
  start + count ≤ ds.length ∧ fs = framesFrom (start + 1) ((ds.drop start).take count)

theorem Through.start {k : Nat} (hk : k ≤ ds.length) : Through ds k 0 [] :=
  ⟨hk, rfl⟩

/-- The rest of the frames of a connection. -/
theorem Through.rest {start count : Nat} {fs : List ServerFrame} (h : Through ds start count fs) :
    framesFrom (start + 1) (ds.drop start)
      = fs ++ framesFrom (start + count + 1) (ds.drop (start + count)) := by
  obtain ⟨hle, rfl⟩ := h
  conv_lhs => rw [← List.take_append_drop count (ds.drop start)]
  rw [framesFrom_append, List.length_take, List.length_drop, List.drop_drop,
    Nat.min_eq_left (by omega), Nat.add_right_comm]

/-- The frames of the next delivery follow. -/
theorem Through.next {start count : Nat} {fs : List ServerFrame} {d : Delivery}
    (h : Through ds start count fs) (hd : ds[start + count]? = some d) :
    Through ds start (count + 1) (fs ++ d.frames (start + count + 1)) := by
  obtain ⟨hle, rfl⟩ := h
  obtain ⟨hlt, hget⟩ := List.getElem?_eq_some_iff.1 hd
  refine ⟨hlt, ?_⟩
  have htake : (ds.drop start).take (count + 1) = (ds.drop start).take count ++ [d] := by
    refine take_next ?_
    rw [List.getElem?_drop, hd]
  rw [htake, framesFrom_append, List.length_take, List.length_drop, Nat.min_eq_left (by omega),
    Nat.add_right_comm]
  exact congrArg _ (List.append_nil _).symm

/-- The frame behind whole deliveries is the first one of the next delivery. -/
theorem Through.frame {start count : Nat} {fs : List ServerFrame} {f : ServerFrame}
    (h : Through ds start count fs)
    (hf : fs ++ [f] <+: framesFrom (start + 1) (ds.drop start)) :
    ∃ d, ds[start + count]? = some d ∧ ∃ rest, d.frames (start + count + 1) = f :: rest := by
  rw [h.rest, List.prefix_append_right_inj] at hf
  cases hdrop : ds.drop (start + count) with
  | nil =>
      rw [hdrop] at hf
      exact absurd (List.prefix_nil.1 hf) (List.cons_ne_nil f [])
  | cons d rest =>
      have hget : ds[start + count]? = some d := by
        have hfirst : (ds.drop (start + count))[0]? = ds[start + count + 0]? := List.getElem?_drop
        rw [hdrop, Nat.add_zero] at hfirst
        exact hfirst.symm
      refine ⟨d, hget, ?_⟩
      rw [hdrop, framesFrom] at hf
      cases d with
      | audio startSample endSample format pcmBytes =>
          obtain ⟨more, hmore⟩ := hf
          cases hmore
          exact ⟨_, rfl⟩
      | event e =>
          obtain ⟨more, hmore⟩ := hf
          cases hmore
          exact ⟨_, rfl⟩

/-- The frame behind a header is the payload of the same delivery. -/
theorem Through.payload {start count : Nat} {fs : List ServerFrame} {f : ServerFrame}
    {startSample endSample : Nat} {format : AudioFormat} {pcmBytes : List UInt8}
    (h : Through ds start count fs)
    (hd : ds[start + count]? = some (.audio startSample endSample format pcmBytes))
    (hf : fs ++ [.audioHeader ⟨some (start + count + 1), some startSample, some endSample, format⟩]
      ++ [f] <+: framesFrom (start + 1) (ds.drop start)) : f = .audio pcmBytes := by
  have hdrop : ds.drop (start + count)
      = .audio startSample endSample format pcmBytes :: ds.drop (start + count + 1) := by
    obtain ⟨hlt, hget⟩ := List.getElem?_eq_some_iff.1 hd
    rw [List.drop_eq_getElem_cons hlt, hget]
  rw [h.rest, List.append_assoc, List.prefix_append_right_inj, hdrop, framesFrom] at hf
  obtain ⟨more, hmore⟩ := hf
  cases hmore
  rfl

/-- Where the reader is when `fs` are the frames of deliveries it got on a connection that replays behind
`start`, `last` is the last delivery queued, and `pending` the header that waits for its payload. -/
inductive Position (ds : List Delivery) (start last : Nat) (recovering : Bool) :
    List ServerFrame → Option AudioHeader → Prop
  /-- behind whole deliveries -/
  | whole {count : Nat} {fs : List ServerFrame} :
      start + count ≤ last → Through ds start count fs → Position ds start last recovering fs none
  /-- behind the header of a delivery -/
  | header {count startSample endSample : Nat} {format : AudioFormat} {pcmBytes : List UInt8}
      {fs : List ServerFrame} :
      start + count ≤ last → Through ds start count fs →
      ds[start + count]? = some (.audio startSample endSample format pcmBytes) →
      Position ds start last recovering
        (fs ++ [.audioHeader ⟨some (start + count + 1), some startSample, some endSample, format⟩])
        (some ⟨some (start + count + 1), some startSample, some endSample, format⟩)
  /-- behind a header that a recovery has dropped -/
  | dropped {count startSample endSample : Nat} {format : AudioFormat} {pcmBytes : List UInt8}
      {fs : List ServerFrame} :
      recovering = true → start + count ≤ last → Through ds start count fs →
      ds[start + count]? = some (.audio startSample endSample format pcmBytes) →
      Position ds start last recovering
        (fs ++ [.audioHeader ⟨some (start + count + 1), some startSample, some endSample, format⟩])
        none

section
variable {start last : Nat} {recovering : Bool} {fs : List ServerFrame} {pending : Option AudioHeader}

/-- A recovery drops the header that waits. -/
theorem Position.recover (h : Position ds start last recovering fs pending) :
    Position ds start last true fs none := by
  cases h with
  | whole hle hthrough => exact .whole hle hthrough
  | header hle hthrough hd => exact .dropped rfl hle hthrough hd
  | dropped _ hle hthrough hd => exact .dropped rfl hle hthrough hd

end

/-! ## The invariant -/

/-- The cursor of a frame. -/
def ClientFrame.cursor? : ClientFrame → Option (Nat × Nat)
  | .resume seq sample | .ack seq sample | .terminalAck seq sample => some (seq, sample)
  | .text .. | .stop .. => none

theorem ClientFrame.resumeSeq?_of_cursor? {f : ClientFrame} (h : f.cursor? = none) :
    f.resumeSeq? = none := by
  cases f <;> first | rfl | cases h

/-- Whether a thread with this task neither reads a frame, nor leads a recovery, nor ends the stream. -/
def Task.isPlain : Task → Bool
  | .idle | .broken .. | .waiting _ | .exited => true
  | .receiving .. | .leading .. | .failing _ => false

namespace StreamSession

/-- The messages are the deliveries through the last one, both cursors stand at its end, and every cursor
written is the end of a delivery queued. -/
structure Queued (ds : List Delivery) (s : StreamSession) : Prop where
  le : s.lastDeliverySeq ≤ ds.length
  messages : s.messages = (ds.take s.lastDeliverySeq).map Delivery.message
  samples : s.audioThroughSample = endSample (ds.take s.lastDeliverySeq)
  cursors : ∀ c, ∀ f ∈ s.written c, ∀ k sample, f.cursor? = some (k, sample) →
    k ≤ s.lastDeliverySeq ∧ sample = endSample (ds.take k)
  supported : s.resumeSupported ≠ some false

/-- Where the reader is on the current connection. -/
def At (ds : List Delivery) (s : StreamSession) : Prop :=
  Position ds (resumeSeq (s.written s.conn)) s.lastDeliverySeq s.recovering
    (outputFrames (s.received s.conn)) s.pendingAudioHeader

/-- A connection that only the leader of a recovery knows. -/
structure Spare (s : StreamSession) (c : Conn) : Prop where
  dialed : c < s.dialed
  conn : c ≠ s.conn
  received : s.received c = []
  reader : ∀ g, s.task .reader ≠ .receiving c g

/-- What the leader has of its replacement. -/
def Leads (s : StreamSession) : ResumePhase → Prop
  | .check | .dialing => True
  | .dialed c | .adopted c => s.Spare c ∧ s.written c = []
  | .resuming c | .resumed c _ _ => s.Spare c ∧ resumeSeq (s.written c) ≤ s.lastDeliverySeq
  | .replaying c frames =>
      s.Spare c ∧ resumeSeq (s.written c) ≤ s.lastDeliverySeq ∧ ∀ f ∈ frames, f.cursor? = none
  | .gaveUp _ => False

/-- What the threads are at. -/
structure Threads (s : StreamSession) : Prop where
  conn : s.conn < s.dialed
  fresh : ∀ c, s.dialed ≤ c → s.written c = [] ∧ s.received c = []
  reading : ∀ c g, s.task .reader = .receiving c g →
    c < s.dialed ∧ g ≤ s.generation ∧ (g = s.generation ↔ c = s.conn)
  leads : ∀ t n phase, s.task t = .leading n phase →
    s.recovering = true ∧ s.transportFinished = false ∧ s.Leads phase
  one : ∀ t t' n n' phase phase', s.task t = .leading n phase → s.task t' = .leading n' phase' → t = t'
  failing : ∀ t e, s.task t ≠ .failing e

/-- The invariant. -/
structure Synced (ds : List Delivery) (s : StreamSession) : Prop where
  queued : s.Queued ds
  position : s.transportFinished = false → s.At ds
  threads : s.Threads
  stop : ∀ f, s.stopPayload = some f → f.cursor? = none

variable {s s' : StreamSession} {cfg : ResumeConfig}

theorem new_synced (ds : List Delivery) : new.Synced ds where
  queued :=
    { le := Nat.zero_le _
      messages := rfl
      samples := rfl
      cursors := fun _ _ h => absurd h List.not_mem_nil
      supported := fun h => nomatch h }
  position := fun _ => .whole (Nat.le_refl 0) (.start (Nat.zero_le _))
  threads :=
    { conn := Nat.one_pos
      fresh := fun _ _ => ⟨rfl, rfl⟩
      reading := fun _ _ h => nomatch h
      leads := fun _ _ _ h => nomatch h
      one := fun _ _ _ _ _ _ h => nomatch h
      failing := fun _ _ h => nomatch h }
  stop := fun _ h => nomatch h

/-! ## What a section leaves -/

/-- What the handling of a frame leaves as it is. -/
structure Kept (s s' : StreamSession) : Prop where
  conn : s'.conn = s.conn
  generation : s'.generation = s.generation
  dialed : s'.dialed = s.dialed
  task : s'.task = s.task
  received : s'.received = s.received
  recovering : s'.recovering = s.recovering
  finished : s'.transportFinished = s.transportFinished ∨ s.recovering = false
  last : s.lastDeliverySeq ≤ s'.lastDeliverySeq
  written : ∀ c, c ≠ s.conn → s'.written c = s.written c
  resume : resumeSeq (s'.written s.conn) = resumeSeq (s.written s.conn)

theorem Kept.trans {s'' : StreamSession} (h : Kept s s') (h' : Kept s' s'') : Kept s s'' where
  conn := h'.conn.trans h.conn
  generation := h'.generation.trans h.generation
  dialed := h'.dialed.trans h.dialed
  task := h'.task.trans h.task
  received := h'.received.trans h.received
  recovering := h'.recovering.trans h.recovering
  finished := by
    rcases h'.finished with hfin | hrec
    · rcases h.finished with hfin' | hrec'
      · exact .inl (hfin.trans hfin')
      · exact .inr hrec'
    · exact .inr (h.recovering ▸ hrec)
  last := h.last.trans h'.last
  written c hc := (h'.written c (h.conn ▸ hc)).trans (h.written c hc)
  resume := by
    have hresume := h'.resume
    rw [h.conn] at hresume
    exact hresume.trans h.resume

/-- A frame that is no `resume` is written to the current connection. -/
theorem kept_write (s : StreamSession) {f : ClientFrame} (hf : f.resumeSeq? = none) :
    Kept s (s.write s.conn f) where
  conn := rfl
  generation := rfl
  dialed := rfl
  task := rfl
  received := rfl
  recovering := rfl
  finished := .inl rfl
  last := Nat.le_refl _
  written c hc := write_written_ne s hc f
  resume := by
    rw [write_written_self]
    exact resumeSeq_append _ hf

theorem Spare.kept {c : Conn} (h : s.Spare c) (hk : Kept s s') : s'.Spare c where
  dialed := hk.dialed ▸ h.dialed
  conn := hk.conn ▸ h.conn
  received := by
    rw [hk.received]
    exact h.received
  reader g := by
    rw [hk.task]
    exact h.reader g

theorem Leads.kept {phase : ResumePhase} (h : s.Leads phase) (hk : Kept s s') : s'.Leads phase := by
  cases phase with
  | check | dialing => trivial
  | dialed c | adopted c =>
      refine ⟨h.1.kept hk, ?_⟩
      rw [hk.written c h.1.conn]
      exact h.2
  | resuming c | resumed c =>
      refine ⟨h.1.kept hk, ?_⟩
      rw [hk.written c h.1.conn]
      exact h.2.trans hk.last
  | replaying c frames =>
      refine ⟨h.1.kept hk, ?_, h.2.2⟩
      rw [hk.written c h.1.conn]
      exact h.2.1.trans hk.last
  | gaveUp e => exact h.elim

theorem Threads.kept (h : s.Threads) (hk : Kept s s') : s'.Threads where
  conn := by
    rw [hk.conn, hk.dialed]
    exact h.conn
  fresh c hc := by
    rw [hk.dialed] at hc
    have hne : c ≠ s.conn := fun heq => Nat.lt_irrefl _ ((heq ▸ h.conn).trans_le hc)
    rw [hk.written c hne, hk.received]
    exact h.fresh c hc
  reading c g hreading := by
    rw [hk.task] at hreading
    rw [hk.dialed, hk.generation, hk.conn]
    exact h.reading c g hreading
  leads t n phase ht := by
    rw [hk.task] at ht
    obtain ⟨hrec, hfin, hleads⟩ := h.leads t n phase ht
    refine ⟨hk.recovering.trans hrec, ?_, hleads.kept hk⟩
    rcases hk.finished with hsame | hnot
    · exact hsame.trans hfin
    · rw [hrec] at hnot
      cases hnot
  one t t' n n' phase phase' ht ht' := by
    rw [hk.task] at ht ht'
    exact h.one t t' n n' phase phase' ht ht'
  failing t e := by
    rw [hk.task]
    exact h.failing t e

/-- A thread moves on to a plain task. -/
theorem Threads.setTask (h : s.Threads) (t : Thread) {task : Task} (hplain : task.isPlain = true) :
    (s.setTask t task).Threads := by
  have hreading (c : Conn) (g : Nat) : task ≠ .receiving c g := by
    rintro rfl
    cases hplain
  have hleading (n : Nat) (phase : ResumePhase) : task ≠ .leading n phase := by
    rintro rfl
    cases hplain
  have hfailing (e : String) : task ≠ .failing e := by
    rintro rfl
    cases hplain
  have hsame {t' : Thread} {task' : Task} (ht' : (s.setTask t task).task t' = task')
      (hne : task ≠ task') : s.task t' = task' := by
    by_cases heq : t' = t
    · rw [heq, setTask_task_self] at ht'
      exact absurd ht' hne
    · rw [setTask_task_ne _ heq] at ht'
      exact ht'
  refine ⟨h.conn, h.fresh, ?_, ?_, ?_, ?_⟩
  · intro c g ht
    exact h.reading c g (hsame ht (hreading c g))
  · intro t' n phase ht
    obtain ⟨hrec, hfin, hleads⟩ := h.leads t' n phase (hsame ht (hleading n phase))
    refine ⟨hrec, hfin, ?_⟩
    have hspare {c : Conn} (hc : s.Spare c) : (s.setTask t task).Spare c :=
      ⟨hc.dialed, hc.conn, hc.received, fun g hg => hc.reader g (hsame hg (hreading c g))⟩
    cases phase with
    | check | dialing => trivial
    | dialed c | adopted c | resuming c | resumed c | replaying c frames =>
        exact ⟨hspare hleads.1, hleads.2⟩
    | gaveUp e => exact hleads
  · intro t₁ t₂ n n' phase phase' h₁ h₂
    exact h.one t₁ t₂ n n' phase phase' (hsame h₁ (hleading n phase)) (hsame h₂ (hleading n' phase'))
  · intro t' e ht
    exact h.failing t' e (hsame ht (hfailing e))

/-! ## Frames -/

/-- A cursor that stands at the end of a delivery queued may be written. -/
theorem Queued.write (h : s.Queued ds) (c : Conn) {f : ClientFrame}
    (hf : ∀ k sample, f.cursor? = some (k, sample) →
      k ≤ s.lastDeliverySeq ∧ sample = endSample (ds.take k)) : (s.write c f).Queued ds where
  le := h.le
  messages := h.messages
  samples := h.samples
  cursors c' f' hmem := by
    by_cases hc : c' = c
    · rw [hc, write_written_self] at hmem
      rcases List.mem_append.1 hmem with hmem | hmem
      · exact h.cursors c f' hmem
      · rw [List.mem_singleton.1 hmem]
        exact hf
    · rw [write_written_ne s hc] at hmem
      exact h.cursors c' f' hmem
  supported := h.supported

/-- The cursor where the session stands. -/
theorem Queued.cursor (h : s.Queued ds) {f : ClientFrame}
    (hf : f.cursor? = some (s.lastDeliverySeq, s.audioThroughSample)) :
    ∀ k sample, f.cursor? = some (k, sample) →
      k ≤ s.lastDeliverySeq ∧ sample = endSample (ds.take k) := by
  intro k sample hk
  rw [hf] at hk
  cases hk
  exact ⟨Nat.le_refl _, h.samples⟩

/-- A frame of a delivery was handled. -/
structure Accepts (ds : List Delivery) (s : StreamSession) (out : Handled × StreamSession) : Prop where
  kept : Kept s out.2
  queued : out.2.Queued ds
  position : out.2.transportFinished = false →
    Position ds (resumeSeq (s.written s.conn)) out.2.lastDeliverySeq s.recovering
      (outputFrames (s.received s.conn)) out.2.pendingAudioHeader
  handled : ∀ e, out.1 ≠ .raised e

/-- The session behind the acknowledgement of a delivery. -/
theorem Accepts.ack (h : Accepts ds s (.next, s')) (g : Nat) (ackOk : Bool) :
    Accepts ds s (.next, s'.maybeAck cfg s.conn g ackOk) := by
  obtain ⟨n, hsame | ⟨-, hacked⟩⟩ := maybeAck_cases cfg s' s.conn g ackOk
  · rw [hsame]
    exact ⟨⟨h.kept.conn, h.kept.generation, h.kept.dialed, h.kept.task, h.kept.received,
      h.kept.recovering, h.kept.finished, h.kept.last, h.kept.written, h.kept.resume⟩,
      ⟨h.queued.le, h.queued.messages, h.queued.samples, h.queued.cursors, h.queued.supported⟩,
      h.position, h.handled⟩
  · rw [hacked]
    have hq := h.queued.write s.conn
      (f := .ack s'.lastDeliverySeq s'.audioThroughSample) (h.queued.cursor rfl)
    have hconn : s'.conn = s.conn := h.kept.conn
    have hk := h.kept.trans (kept_write s' (f := .ack s'.lastDeliverySeq s'.audioThroughSample) rfl)
    rw [hconn] at hk
    exact ⟨⟨hk.conn, hk.generation, hk.dialed, hk.task, hk.received, hk.recovering, hk.finished, hk.last,
      hk.written, hk.resume⟩, ⟨hq.le, hq.messages, hq.samples, hq.cursors, hq.supported⟩,
      h.position, h.handled⟩

/-- The next delivery is queued. -/
theorem Queued.next (h : s.Queued ds) {d : Delivery} (hd : ds[s.lastDeliverySeq]? = some d)
    (hmessages : s'.messages = s.messages ++ [d.message])
    (hlast : s'.lastDeliverySeq = s.lastDeliverySeq + 1)
    (hsamples : s'.audioThroughSample = d.endAfter s.audioThroughSample)
    (hwritten : s'.written = s.written) (hsupported : s'.resumeSupported ≠ some false) :
    s'.Queued ds where
  le := by
    rw [hlast]
    exact (List.getElem?_eq_some_iff.1 hd).1
  messages := by
    rw [hmessages, hlast, take_next hd, List.map_append, h.messages]
    rfl
  samples := by
    rw [hsamples, hlast, take_next hd, endSample_append, h.samples]
  cursors c f hf k sample hk := by
    rw [hwritten] at hf
    obtain ⟨hle, hsample⟩ := h.cursors c f hf k sample hk
    exact ⟨by rw [hlast]; exact Nat.le_succ_of_le hle, hsample⟩
  supported := hsupported

section
variable {fs : List ServerFrame} {ackOk : Bool}

/-- A header on the current connection. -/
theorem handleAudioHeader_accepts (hq : s.Queued ds) {h : AudioHeader}
    (hpos : Position ds (resumeSeq (s.written s.conn)) s.lastDeliverySeq s.recovering fs
      s.pendingAudioHeader)
    (hserves : fs ++ [.audioHeader h]
      <+: framesFrom (resumeSeq (s.written s.conn) + 1) (ds.drop (resumeSeq (s.written s.conn))))
    (hfs : outputFrames (s.received s.conn) = fs ++ [.audioHeader h])
    (hfin : s.transportFinished = false) :
    Accepts ds s (s.handleAudioHeader s.generation h) := by
  generalize hpending : s.pendingAudioHeader = pending at hpos
  generalize hstart : resumeSeq (s.written s.conn) = start at *
  cases hpos with
  | header hle hthrough hd => exact nomatch hthrough.payload hd hserves
  | dropped hrec hle hthrough hd => exact nomatch hthrough.payload hd hserves
  | @whole count _ hle hthrough =>
      obtain ⟨d, hd, rest, hframes⟩ := hthrough.frame hserves
      cases d with
      | event e => cases hframes
      | audio startSample endSample format pcmBytes =>
          cases hframes
          have hnot : ¬ s.lastDeliverySeq + 1 < start + count + 1 := by omega
          have hout : s.handleAudioHeader s.generation
              ⟨some (start + count + 1), some startSample, some endSample, format⟩
              = (.next, { s with
                  resumeSupported := some true
                  pendingAudioHeader :=
                    some ⟨some (start + count + 1), some startSample, some endSample, format⟩ }) := by
            simp [handleAudioHeader, hfin, hpending, hnot]
          rw [hout]
          refine ⟨⟨rfl, rfl, rfl, rfl, rfl, rfl, .inl rfl, Nat.le_refl _, fun _ _ => rfl, rfl⟩,
            ⟨hq.le, hq.messages, hq.samples, hq.cursors, fun h => nomatch h⟩, fun _ => ?_,
            fun e h => nomatch h⟩
          rw [hfs, hstart]
          exact .header hle hthrough hd

/-- An event on the current connection, which is no terminal while a recovery is under way. -/
theorem handleEvent_accepts (hq : s.Queued ds) {seq : Option Nat} {e : StreamEvent}
    (hpos : Position ds (resumeSeq (s.written s.conn)) s.lastDeliverySeq s.recovering fs
      s.pendingAudioHeader)
    (hserves : fs ++ [.event seq e]
      <+: framesFrom (resumeSeq (s.written s.conn) + 1) (ds.drop (resumeSeq (s.written s.conn))))
    (hfs : outputFrames (s.received s.conn) = fs ++ [.event seq e])
    (hfin : s.transportFinished = false) (hterminal : e.isTerminal = true → s.recovering = false) :
    Accepts ds s (s.handleEvent cfg s.conn s.generation seq e ackOk) := by
  have hsupported : some true ≠ some false := fun h => absurd (Option.some.inj h).symm Bool.false_ne_true
  generalize hpending : s.pendingAudioHeader = pending at hpos
  generalize hstart : resumeSeq (s.written s.conn) = start at *
  cases hpos with
  | header hle hthrough hd => cases hthrough.payload hd hserves
  | dropped hrec hle hthrough hd => cases hthrough.payload hd hserves
  | @whole count _ hle hthrough =>
      obtain ⟨d, hd, rest, hframes⟩ := hthrough.frame hserves
      cases d with
      | audio startSample endSample format pcmBytes => cases hframes
      | event e' =>
          cases hframes
          have hthrough' := hthrough.next hd
          rcases Nat.lt_or_ge (start + count) s.lastDeliverySeq with hlt | hge
          · -- a delivery that was queued before
            have hout : s.handleEvent cfg s.conn s.generation (some (start + count + 1)) e ackOk
                = (.next, { s with resumeSupported := some true }) := by
              simp [handleEvent, hfin, Nat.succ_le_of_lt hlt]
            rw [hout]
            refine ⟨⟨rfl, rfl, rfl, rfl, rfl, rfl, .inl rfl, Nat.le_refl _, fun _ _ => rfl, rfl⟩,
              ⟨hq.le, hq.messages, hq.samples, hq.cursors, hsupported⟩, fun _ => ?_,
              by intro e h; cases h⟩
            rw [hfs, hstart]
            show Position ds start s.lastDeliverySeq s.recovering _ s.pendingAudioHeader
            rw [hpending]
            exact .whole hlt hthrough'
          · -- the next delivery
            have hcount : start + count = s.lastDeliverySeq := by omega
            rw [hcount] at hd hthrough' hfs ⊢
            have hout : s.handleEvent cfg s.conn s.generation (some (s.lastDeliverySeq + 1)) e ackOk
                = { s with resumeSupported := some true }.acceptEvent cfg s.conn s.generation
                    (some (s.lastDeliverySeq + 1)) e ackOk := by
              simp [handleEvent, hfin]
            rw [hout, acceptEvent]
            split
            · next hterm =>
              -- the terminal is acknowledged, and the transport is finished, before it is queued
              have hrec := hterminal hterm
              have hq' : ({ s with
                  resumeSupported := some true
                  currentAudio := e.audio.getD s.currentAudio
                  sendClosed := true
                  lastDeliverySeq := s.lastDeliverySeq + 1
                  messages := s.messages ++ [.event e] } : StreamSession).Queued ds :=
                hq.next hd rfl rfl rfl rfl hsupported
              have hq'' := hq'.write s.conn
                (f := .terminalAck (s.lastDeliverySeq + 1) s.audioThroughSample) (hq'.cursor rfl)
              have hk := kept_write s
                (f := .terminalAck (s.lastDeliverySeq + 1) s.audioThroughSample) rfl
              have hsent : ({ s with
                  resumeSupported := some true
                  currentAudio := e.audio.getD s.currentAudio
                  sendClosed := true
                  lastDeliverySeq := s.lastDeliverySeq + 1 } : StreamSession).sendTerminalAck s.conn
                    s.generation
                  = { s with
                      resumeSupported := some true
                      currentAudio := e.audio.getD s.currentAudio
                      sendClosed := true
                      lastDeliverySeq := s.lastDeliverySeq + 1 }.write s.conn
                        (.terminalAck (s.lastDeliverySeq + 1) s.audioThroughSample) := if_pos ⟨rfl, rfl⟩
              simp only [hsent]
              refine ⟨⟨?_, ?_, ?_, ?_, ?_, ?_, .inr hrec, ?_, ?_, ?_⟩, ⟨?_, ?_, ?_, ?_, ?_⟩, ?_,
                by intro e h; cases h⟩
              all_goals simp only [finishTransport, putMessage, StreamSession.write, hfin,
                Bool.false_eq_true, if_false]
              · exact hrec.symm
              · exact Nat.le_succ _
              · exact hk.written
              · exact hk.resume
              · exact hq''.le
              · exact hq''.messages
              · exact hq''.samples
              · exact hq''.cursors
              · intro h
                cases h
              · intro h
                cases h
            · refine Accepts.ack ?_ s.generation ackOk
              refine ⟨⟨rfl, rfl, rfl, rfl, rfl, rfl, .inl rfl, Nat.le_succ _, fun _ _ => rfl, rfl⟩,
                hq.next hd rfl rfl rfl rfl hsupported, fun _ => ?_, by intro e h; cases h⟩
              rw [hfs, hstart]
              show Position ds start (s.lastDeliverySeq + 1) s.recovering _ s.pendingAudioHeader
              rw [hpending]
              exact .whole (by omega) hthrough'

/-- A payload on the current connection, with no recovery under way. -/
theorem handleAudioPayload_accepts (hds : Numbered ds) (hq : s.Queued ds) {pcmBytes : List UInt8}
    (hpos : Position ds (resumeSeq (s.written s.conn)) s.lastDeliverySeq s.recovering fs
      s.pendingAudioHeader)
    (hserves : fs ++ [.audio pcmBytes]
      <+: framesFrom (resumeSeq (s.written s.conn) + 1) (ds.drop (resumeSeq (s.written s.conn))))
    (hfs : outputFrames (s.received s.conn) = fs ++ [.audio pcmBytes])
    (hfin : s.transportFinished = false) (hrec : s.recovering = false) :
    Accepts ds s (s.handleAudioPayload cfg s.conn s.generation pcmBytes ackOk) := by
  generalize hpending : s.pendingAudioHeader = pending at hpos
  generalize hstart : resumeSeq (s.written s.conn) = start at *
  cases hpos with
  | dropped hrec' hle hthrough hd =>
      rw [hrec] at hrec'
      cases hrec'
  | @whole count _ hle hthrough =>
      obtain ⟨d, hd, rest, hframes⟩ := hthrough.frame hserves
      cases d <;> cases hframes
  | @header count startSample endSample' format pcmBytes' fs₀ hle hthrough hd =>
      cases hthrough.payload hd hserves
      have hthrough' := hthrough.next hd
      have hfs' : outputFrames (s.received s.conn)
          = fs₀ ++ (Delivery.audio startSample endSample' format pcmBytes).frames (start + count + 1) := by
        rw [hfs, List.append_assoc]
        rfl
      rcases Nat.lt_or_ge (start + count) s.lastDeliverySeq with hlt | hge
      · have hout : s.handleAudioPayload cfg s.conn s.generation pcmBytes ackOk
            = (.next, { s with pendingAudioHeader := none }) := by
          simp [handleAudioPayload, hfin, hpending, Nat.succ_le_of_lt hlt]
        rw [hout]
        refine ⟨⟨rfl, rfl, rfl, rfl, rfl, rfl, .inl rfl, Nat.le_refl _, fun _ _ => rfl, rfl⟩,
          ⟨hq.le, hq.messages, hq.samples, hq.cursors, hq.supported⟩, fun _ => ?_, fun e h => nomatch h⟩
        rw [hfs', hstart]
        exact .whole hlt hthrough'
      · have hcount : start + count = s.lastDeliverySeq := by omega
        rw [hcount] at hd hthrough' hfs' hpending
        obtain ⟨hfirst, hlt⟩ := hds.audio hd
        rw [← hq.samples] at hfirst
        subst hfirst
        have hne : endSample' ≠ 0 := by omega
        have hout : s.handleAudioPayload cfg s.conn s.generation pcmBytes ackOk
            = (.next, ({ s with
                pendingAudioHeader := none
                messages := s.messages ++
                  [.audio ⟨pcmBytes, format, some s.audioThroughSample, some endSample'⟩]
                lastDeliverySeq := s.lastDeliverySeq + 1
                audioThroughSample := endSample' } : StreamSession).maybeAck cfg s.conn s.generation
                  ackOk) := by
          simp [handleAudioPayload, hfin, hpending, handleNextPayload, AudioHeader.first,
            AudioHeader.last, hne, hlt, decodeAudioChunk, putMessage]
        rw [hout]
        refine Accepts.ack ?_ s.generation ackOk
        refine ⟨⟨rfl, rfl, rfl, rfl, rfl, rfl, .inl rfl, Nat.le_succ _, fun _ _ => rfl, rfl⟩,
          hq.next hd rfl rfl rfl rfl hq.supported, fun _ => ?_, fun e h => nomatch h⟩
        rw [hfs', hstart]
        show Position ds start (s.lastDeliverySeq + 1) s.recovering _ none
        exact .whole (by omega) hthrough'

end

/-! ## Steps -/

/-- A condition on the connection and the generation that a thread reads with. -/
def OnReading (P : Conn → Nat → Prop) : Task → Prop
  | .receiving c generation => P c generation
  | _ => True

/-- A condition on the attempt that a thread leads. -/
def OnLeading (P : Nat → ResumePhase → Prop) : Task → Prop
  | .leading attempt phase => P attempt phase
  | _ => True

/-- The next frame of the deliveries behind the number of the `resume` of a connection. -/
def NextFrame (ds : List Delivery) (s : StreamSession) (c : Conn) (f : ServerFrame) : Prop :=
  outputFrames (s.received c) ++ [f]
    <+: framesFrom (resumeSeq (s.written c) + 1) (ds.drop (resumeSeq (s.written c)))

/-- A frame that the server may send on a connection. -/
def ServesFrame (ds : List Delivery) (s : StreamSession) (c : Conn) : ServerFrame → Prop
  | .audioHeader h => s.NextFrame ds c (.audioHeader h)
  | .audio pcmBytes => s.NextFrame ds c (.audio pcmBytes)
  | .event seq e => s.NextFrame ds c (.event seq e)
  | .textAck _ => True
  | .inputAck => True
  | .resumeError _ => False
  | .playbackProgressError _ => False
  | .other => True

/-- What the server sends: on a connection the frames of the deliveries behind the number of its `resume`
come in order, with acknowledgements of the input in between. -/
def Serves (ds : List Delivery) (s : StreamSession) : StreamStep → Prop
  | .frame f _ => OnReading (fun c _ => s.ServesFrame ds c f) (s.task .reader)
  | _ => True

/-- Another attempt follows one that meets this: it is not the last one, and the server does not refuse
the resume. -/
def Retries (cfg : ResumeConfig) (attempt : Nat) : ResumeOutcome → Prop
  | .transport _ _ => attempt + 1 < cfg.streamResumeAttempts
  | .rejected _ => False
  | .invalid _ => False
  | _ => True

/-- A recovery is not given up: its deadline does not pass, an attempt that fails is not the last one,
the server does not refuse the resume, and the texts that it says it has are such that it may have. -/
def Resumes (cfg : ResumeConfig) (s : StreamSession) (attempt : Nat) (outcome : ResumeOutcome) :
    ResumePhase → Prop
  | .check =>
      match outcome with
      | .expired => False
      | _ => True
  | .resumed _ ackedTextSeq _ => s.AckValid ackedTextSeq
  | .dialed _ => True
  | .replaying _ [] => True
  | .gaveUp _ => True
  | _ => Retries cfg attempt outcome

/-- A frame that no recovery has made unreadable: it is no payload of an audio delivery and no terminal
on a connection that is being replaced, and no acknowledgement of texts that is behind a newer one. -/
def CleanFrame (s : StreamSession) (generation : Nat) : ServerFrame → Prop
  | .audio _ => generation = s.generation → s.recovering = false
  | .event _ e => e.isTerminal = true → generation = s.generation → s.recovering = false
  | .textAck throughSeq => s.AckValid throughSeq
  | .audioHeader _ => True
  | .inputAck => True
  | .resumeError _ => True
  | .playbackProgressError _ => True
  | .other => True

/-- The reader is handed no frame that a recovery has made unreadable, and no recovery is given up. -/
def Clean (cfg : ResumeConfig) (s : StreamSession) : StreamStep → Prop
  | .frame f _ => OnReading (fun _ generation => s.CleanFrame generation f) (s.task .reader)
  | .recover _ => 0 < cfg.streamResumeAttempts
  | .lead t outcome => OnLeading (fun attempt phase => s.Resumes cfg attempt outcome phase) (s.task t)
  | _ => True

/-- A section that changes nothing of the output. -/
theorem Synced.kept (h : s.Synced ds) (hk : Kept s s') (hq : s'.Queued ds)
    (hpending : s'.pendingAudioHeader = s.pendingAudioHeader)
    (hlast : s'.lastDeliverySeq = s.lastDeliverySeq)
    (hfin : s'.transportFinished = s.transportFinished)
    (hstop : ∀ f, s'.stopPayload = some f → f.cursor? = none) : s'.Synced ds where
  queued := hq
  position hopen := by
    have hpos := h.position (hfin ▸ hopen)
    unfold At at hpos ⊢
    rw [hk.conn, hk.resume, hlast, hk.recovering, hk.received, hpending]
    exact hpos
  threads := h.threads.kept hk
  stop := hstop

/-- A thread moves on to a plain task. -/
theorem Synced.setTask (h : s.Synced ds) (t : Thread) {task : Task} (hplain : task.isPlain = true) :
    (s.setTask t task).Synced ds :=
  ⟨⟨h.queued.le, h.queued.messages, h.queued.samples, h.queued.cursors, h.queued.supported⟩,
    h.position, h.threads.setTask t hplain, h.stop⟩

theorem Synced.recovered (h : s.Synced ds) (t : Thread) (ok : Bool) : (s.recovered t ok).Synced ds := by
  cases t with
  | reader =>
      refine h.setTask .reader ?_
      cases ok <;> rfl
  | caller i => exact h.setTask (.caller i) rfl

/-- No recovery is under way, so that no thread leads one. -/
theorem Threads.noLeader (h : s.Threads) (hrec : s.recovering = false) (t : Thread) (n : Nat)
    (phase : ResumePhase) : s.task t ≠ .leading n phase := by
  intro ht
  have := (h.leads t n phase ht).1
  rw [hrec] at this
  cases this

theorem Synced.pick (h : s.Synced ds) : s.pick.Synced ds := by
  unfold StreamSession.pick
  split
  · split
    · exact h.setTask .reader rfl
    · split
      · exact h
      · next hrec =>
        rw [Bool.not_eq_true] at hrec
        have hnone := h.threads.noLeader hrec
        have hother {t : Thread} {task : Task}
            (ht : (s.setTask .reader (.receiving s.conn s.generation)).task t = task)
            (hne : task ≠ .receiving s.conn s.generation) : s.task t = task := by
          by_cases heq : t = .reader
          · subst heq
            rw [setTask_task_self] at ht
            exact absurd ht.symm hne
          · rw [setTask_task_ne _ heq] at ht
            exact ht
        refine ⟨⟨h.queued.le, h.queued.messages, h.queued.samples, h.queued.cursors,
          h.queued.supported⟩, h.position, ⟨h.threads.conn, h.threads.fresh, ?_, ?_, ?_, ?_⟩, h.stop⟩
        · intro c g hreading
          rw [setTask_task_self] at hreading
          cases hreading
          exact ⟨h.threads.conn, Nat.le_refl _, iff_of_true rfl rfl⟩
        · intro t n phase ht
          exact absurd (hother ht (fun h => nomatch h)) (hnone t n phase)
        · intro t t' n n' phase phase' ht
          exact absurd (hother ht (fun h => nomatch h)) (hnone t n phase)
        · intro t e ht
          exact h.threads.failing t e (hother ht (fun h => nomatch h))
  · exact h

theorem Synced.breaks (h : s.Synced ds) : s.breaks.Synced ds := by
  unfold StreamSession.breaks
  split
  · exact h.setTask .reader rfl
  · exact h

/-- A write of a caller, which has no cursor. -/
theorem Synced.callerWrite (h : s.Synced ds) (i : Nat) {f : ClientFrame} (hf : f.cursor? = none)
    (outcome : WriteOutcome) : (s.callerWrite i f outcome).Synced ds := by
  have hwrite : (s.write s.conn f).Synced ds := by
    refine h.kept (kept_write s (ClientFrame.resumeSeq?_of_cursor? hf)) (h.queued.write s.conn ?_) rfl
      rfl rfl h.stop
    intro k sample hk
    rw [hf] at hk
    cases hk
  cases outcome with
  | ok => exact hwrite
  | failed reached =>
      refine Synced.setTask ?_ (.caller i) rfl
      unfold tryWrite
      split
      · exact hwrite
      · exact h

theorem Synced.sendText (h : s.Synced ds) (i : Nat) (text : String) (seqNo : Option Nat)
    (outcome : WriteOutcome) : (s.sendText i text seqNo outcome).Synced ds := by
  unfold StreamSession.sendText
  split
  · split
    · refine Synced.callerWrite ?_ i rfl outcome
      exact h.kept ⟨rfl, rfl, rfl, rfl, rfl, rfl, .inl rfl, Nat.le_refl _, fun _ _ => rfl, rfl⟩
        ⟨h.queued.le, h.queued.messages, h.queued.samples, h.queued.cursors, h.queued.supported⟩ rfl rfl
        rfl h.stop
    · exact h
  · exact h

theorem Synced.finishInput (h : s.Synced ds) (i : Nat) (type : StopType) (outcome : WriteOutcome) :
    (s.finishInput i type outcome).Synced ds := by
  unfold StreamSession.finishInput
  split
  · split
    · refine Synced.callerWrite ?_ i rfl outcome
      refine h.kept ⟨rfl, rfl, rfl, rfl, rfl, rfl, .inl rfl, Nat.le_refl _, fun _ _ => rfl, rfl⟩
        ⟨h.queued.le, h.queued.messages, h.queued.samples, h.queued.cursors, h.queued.supported⟩ rfl rfl
        rfl ?_
      intro f hf
      cases hf
      rfl
    · exact h
  · exact h

/-- A frame is received on the connection of the reader. -/
theorem Threads.receive (h : s.Threads) {c : Conn} {g : Nat} (hreader : s.task .reader = .receiving c g)
    (f : ServerFrame) :
    ({ s with received := Function.update s.received c (s.received c ++ [f]) } :
      StreamSession).Threads where
  conn := h.conn
  fresh c' hc' := by
    have hne : c' ≠ c := fun heq => Nat.lt_irrefl _ ((heq ▸ (h.reading c g hreader).1).trans_le hc')
    refine ⟨(h.fresh c' hc').1, ?_⟩
    show Function.update s.received c _ c' = []
    rw [Function.update_of_ne hne]
    exact (h.fresh c' hc').2
  reading := h.reading
  leads t n phase ht := by
    obtain ⟨hrec, hfin, hleads⟩ := h.leads t n phase ht
    refine ⟨hrec, hfin, ?_⟩
    have hspare {c' : Conn} (hc' : s.Spare c') : ({ s with
        received := Function.update s.received c (s.received c ++ [f]) } : StreamSession).Spare c' := by
      have hne : c' ≠ c := by
        rintro rfl
        exact hc'.reader g hreader
      refine ⟨hc'.dialed, hc'.conn, ?_, hc'.reader⟩
      show Function.update s.received c _ c' = []
      rw [Function.update_of_ne hne]
      exact hc'.received
    cases phase with
    | check | dialing => trivial
    | dialed c | adopted c | resuming c | resumed c | replaying c frames =>
        exact ⟨hspare hleads.1, hleads.2⟩
    | gaveUp e => exact hleads
  one := h.one
  failing := h.failing

/-- The reader goes on behind a frame that was handled. -/
theorem Accepts.synced {out : Handled × StreamSession} (h : Accepts ds s out) (hthreads : s.Threads)
    (hstop : ∀ f, out.2.stopPayload = some f → f.cursor? = none) : out.2.Synced ds where
  queued := h.queued
  position hopen := by
    unfold At
    rw [h.kept.conn, h.kept.resume, h.kept.recovering, h.kept.received]
    exact h.position hopen
  threads := hthreads.kept h.kept
  stop := hstop

/-- A frame that says nothing of a delivery of the current connection. -/
theorem Synced.receive (h : s.Synced ds) {c : Conn} {g : Nat} (hreader : s.task .reader = .receiving c g)
    {f : ServerFrame} (hf : f.isOutput = false ∨ c ≠ s.conn ∨ s.transportFinished = true) :
    ({ s with received := Function.update s.received c (s.received c ++ [f]) } :
      StreamSession).Synced ds where
  queued := ⟨h.queued.le, h.queued.messages, h.queued.samples, h.queued.cursors, h.queued.supported⟩
  position hopen := by
    have hsame : outputFrames (Function.update s.received c (s.received c ++ [f]) s.conn)
        = outputFrames (s.received s.conn) := by
      by_cases hc : s.conn = c
      · rcases hf with hf | hf | hf
        · rw [hc, Function.update_self]
          simp [outputFrames, hf]
        · exact absurd hc.symm hf
        · have hopen' : s.transportFinished = false := hopen
          rw [hf] at hopen'
          cases hopen'
      · rw [Function.update_of_ne hc]
    have hpos := h.position hopen
    unfold At at hpos ⊢
    simp only [hsame]
    exact hpos
  threads := h.threads.receive hreader f
  stop := h.stop

/-- The reader handles a frame that is not lost to a recovery. -/
theorem Synced.handle (hds : Numbered ds) (h : s.Synced ds) {c : Conn} {g : Nat}
    (hreader : s.task .reader = .receiving c g) {f : ServerFrame} {ackOk : Bool}
    (hserves : s.Serves ds (.frame f ackOk)) (hclean : s.Clean cfg (.frame f ackOk)) :
    let out := ({ s with received := Function.update s.received c (s.received c ++ [f]) } :
      StreamSession).handleIncomingFrame cfg c g f ackOk
    out.2.Synced ds ∧ ∀ e, out.1 ≠ .raised e := by
  simp only [Serves, hreader, OnReading] at hserves
  simp only [Clean, hreader, OnReading] at hclean
  obtain ⟨-, -, hgen⟩ := h.threads.reading c g hreader
  intro out
  by_cases hstale : f.isOutput = true ∧ (g ≠ s.generation ∨ s.transportFinished = true)
  · -- a frame of a connection that was replaced, or behind the terminal
    have hsynced := h.receive (f := f) hreader
      (hstale.2.imp_left (fun hne hc => hne (hgen.2 hc)) |> .inr)
    have hout : out = (.next, { s with
        received := Function.update s.received c (s.received c ++ [f]) }) := by
      obtain ⟨hf, hold⟩ := hstale
      cases f with
      | audioHeader hd => exact if_pos hold
      | audio pcmBytes => exact if_pos hold
      | event seq e => exact if_pos hold
      | textAck | inputAck | resumeError | playbackProgressError | other => cases hf
    rw [hout]
    exact ⟨hsynced, fun e h => nomatch h⟩
  · rw [not_and] at hstale
    have hcurrent : f.isOutput = true →
        g = s.generation ∧ c = s.conn ∧ s.transportFinished = false := by
      intro hf
      have hboth := hstale hf
      rw [not_or, not_not, Bool.not_eq_true] at hboth
      exact ⟨hboth.1, hgen.1 hboth.1, hboth.2⟩
    have hstop (f' : ClientFrame) (hf' : out.2.stopPayload = some f') : f'.cursor? = none := by
      by_cases hack : ∃ n, f = .textAck n
      · obtain ⟨n, rfl⟩ := hack
        refine h.stop f' ?_
        have hout : out.2.stopPayload = s.stopPayload := by
          show (handleTextAck _ n).2.stopPayload = s.stopPayload
          unfold handleTextAck
          split <;> rfl
        rw [← hout]
        exact hf'
      · have hk := inputKept_handleIncomingFrame cfg
          { s with received := Function.update s.received c (s.received c ++ [f]) } c g
          (fun n hn => hack ⟨n, hn⟩) ackOk
        exact h.stop f' (hk.stopPayload ▸ hf')
    have hgot (hc : c = s.conn) (hf : f.isOutput = true) :
        outputFrames (Function.update s.received c (s.received c ++ [f]) s.conn)
          = outputFrames (s.received s.conn) ++ [f] := by
      rw [hc, Function.update_self]
      simp [outputFrames, hf]
    cases f with
    | resumeError => exact hserves.elim
    | playbackProgressError => exact hserves.elim
    | inputAck =>
        have hsynced := h.receive (f := .inputAck) hreader (.inl rfl)
        have hq := hsynced.queued
        exact ⟨hsynced.kept ⟨rfl, rfl, rfl, rfl, rfl, rfl, .inl rfl, Nat.le_refl _, fun _ _ => rfl, rfl⟩
          ⟨hq.le, hq.messages, hq.samples, hq.cursors, hq.supported⟩ rfl rfl rfl hsynced.stop,
          fun e h => nomatch h⟩
    | other => exact ⟨h.receive (f := .other) hreader (.inl rfl), fun e h => nomatch h⟩
    | textAck n =>
        have hsynced := h.receive (f := .textAck n) hreader (.inl rfl)
        have hq := hsynced.queued
        have hout : out = (.next, ({ s with
            received := Function.update s.received c (s.received c ++ [.textAck n]) } :
              StreamSession).ackTexts n) := if_pos hclean
        rw [hout]
        exact ⟨hsynced.kept ⟨rfl, rfl, rfl, rfl, rfl, rfl, .inl rfl, Nat.le_refl _, fun _ _ => rfl, rfl⟩
          ⟨hq.le, hq.messages, hq.samples, hq.cursors, hq.supported⟩ rfl rfl rfl hsynced.stop,
          fun e h => nomatch h⟩
    | audioHeader hd =>
        obtain ⟨rfl, rfl, hopen⟩ := hcurrent rfl
        have hacc := handleAudioHeader_accepts
          (s := { s with
            received := Function.update s.received s.conn (s.received s.conn ++ [.audioHeader hd]) })
          ⟨h.queued.le, h.queued.messages, h.queued.samples, h.queued.cursors, h.queued.supported⟩
          (h.position hopen) hserves (hgot rfl rfl) hopen
        exact ⟨hacc.synced (h.threads.receive hreader _) hstop, hacc.handled⟩
    | audio pcmBytes =>
        obtain ⟨rfl, rfl, hopen⟩ := hcurrent rfl
        have hacc := @handleAudioPayload_accepts ds
          { s with received := Function.update s.received s.conn (s.received s.conn ++ [.audio pcmBytes]) }
          cfg _ ackOk hds
          ⟨h.queued.le, h.queued.messages, h.queued.samples, h.queued.cursors, h.queued.supported⟩ _
          (h.position hopen) hserves (hgot rfl rfl) hopen (hclean rfl)
        exact ⟨hacc.synced (h.threads.receive hreader _) hstop, hacc.handled⟩
    | event seq e =>
        obtain ⟨rfl, rfl, hopen⟩ := hcurrent rfl
        have hacc := @handleEvent_accepts ds
          { s with received := Function.update s.received s.conn (s.received s.conn ++ [.event seq e]) }
          cfg _ ackOk
          ⟨h.queued.le, h.queued.messages, h.queued.samples, h.queued.cursors, h.queued.supported⟩ _ _
          (h.position hopen) hserves (hgot rfl rfl) hopen (fun hterminal => hclean hterminal rfl)
        exact ⟨hacc.synced (h.threads.receive hreader _) hstop, hacc.handled⟩

theorem Synced.frame (hds : Numbered ds) (h : s.Synced ds) {f : ServerFrame} {ackOk : Bool}
    (hserves : s.Serves ds (.frame f ackOk)) (hclean : s.Clean cfg (.frame f ackOk)) :
    (s.frame cfg f ackOk).Synced ds := by
  unfold StreamSession.frame
  split
  · next c g hreader =>
    obtain ⟨hsynced, hhandled⟩ := h.handle hds hreader hserves hclean
    simp only
    split
    · next s' hout =>
      rw [hout] at hsynced
      exact hsynced.setTask .reader rfl
    · next s' hout =>
      rw [hout] at hsynced
      exact hsynced.setTask .reader rfl
    · next e s' hout =>
      rw [hout] at hhandled
      exact absurd rfl (hhandled e)
  · exact h

/-! ## Recoveries -/

theorem Synced.recover (h : s.Synced ds) {t : Thread} (hclean : s.Clean cfg (.recover t)) :
    (s.recover cfg t).Synced ds := by
  unfold StreamSession.recover
  split
  · split
    · exact h.recovered t false
    · next hfin =>
      split
      · exact h.recovered t true
      · split
        · next hcond =>
          rcases hcond with hattempts | hunsupported
          · have hpos : 0 < cfg.streamResumeAttempts := hclean
            omega
          · exact absurd hunsupported h.queued.supported
        · split
          · exact h.setTask t rfl
          · next hrec =>
            rw [Bool.not_eq_true] at hrec hfin
            have hnone := h.threads.noLeader hrec
            have hother {t' : Thread} {task : Task}
                (ht' : (({ s with recovering := true, pendingAudioHeader := none } :
                  StreamSession).setTask t (.leading 0 .check)).task t' = task)
                (hne : task ≠ .leading 0 .check) : s.task t' = task := by
              by_cases heq : t' = t
              · subst heq
                rw [setTask_task_self] at ht'
                exact absurd ht'.symm hne
              · rw [setTask_task_ne _ heq] at ht'
                exact ht'
            have hleader {t' : Thread} {n : Nat} {phase : ResumePhase}
                (ht' : (({ s with recovering := true, pendingAudioHeader := none } :
                  StreamSession).setTask t (.leading 0 .check)).task t' = .leading n phase) :
                t' = t ∧ phase = .check := by
              by_cases heq : t' = t
              · subst heq
                rw [setTask_task_self] at ht'
                cases ht'
                exact ⟨rfl, rfl⟩
              · rw [setTask_task_ne _ heq] at ht'
                exact absurd ht' (hnone t' n phase)
            refine ⟨⟨h.queued.le, h.queued.messages, h.queued.samples, h.queued.cursors,
              h.queued.supported⟩, fun _ => (h.position hfin).recover,
              ⟨h.threads.conn, h.threads.fresh, ?_, ?_, ?_, ?_⟩, h.stop⟩
            · intro c g ht'
              exact h.threads.reading c g (hother ht' fun h => nomatch h)
            · intro t' n phase ht'
              obtain ⟨-, rfl⟩ := hleader ht'
              exact ⟨rfl, hfin, trivial⟩
            · intro t₁ t₂ n n' phase phase' h₁ h₂
              exact (hleader h₁).1.trans (hleader h₂).1.symm
            · intro t' e ht'
              exact h.threads.failing t' e (hother ht' fun h => nomatch h)
  · exact h

theorem Synced.wake (h : s.Synced ds) (t : Thread) : (s.wake t).Synced ds := by
  unfold StreamSession.wake
  split
  · split
    · exact h
    · exact h.recovered t _
  · exact h

theorem Synced.fail (h : s.Synced ds) (t : Thread) : (s.fail t).Synced ds := by
  unfold StreamSession.fail
  split
  · next e ht => exact absurd ht (h.threads.failing t e)
  · exact h

/-- The leader goes on in a state that differs in its replacement only. -/
theorem Threads.leadTo (h : s.Threads) {t : Thread} {n n' : Nat} {phase phase' : ResumePhase}
    (ht : s.task t = .leading n phase) (hconn : s'.conn = s.conn)
    (hgeneration : s'.generation = s.generation) (hdialed : s.dialed ≤ s'.dialed)
    (htask : s'.task = s.task) (hreceived : s'.received = s.received)
    (hrecovering : s'.recovering = s.recovering)
    (hfinished : s'.transportFinished = s.transportFinished)
    (hwritten : ∀ c, s.dialed ≤ c → s'.written c = s.written c) (hleads : s'.Leads phase') :
    (s'.setTask t (.leading n' phase')).Threads := by
  have hother {t' : Thread} {task : Task} (ht' : (s'.setTask t (.leading n' phase')).task t' = task)
      (hne : task ≠ .leading n' phase') : s.task t' = task := by
    by_cases heq : t' = t
    · subst heq
      rw [setTask_task_self] at ht'
      exact absurd ht'.symm hne
    · rw [setTask_task_ne _ heq, htask] at ht'
      exact ht'
  -- another leader would be a second one
  have hleader {t' : Thread} {m : Nat} {p : ResumePhase}
      (ht' : (s'.setTask t (.leading n' phase')).task t' = .leading m p) : t' = t ∧ p = phase' := by
    by_cases heq : t' = t
    · subst heq
      rw [setTask_task_self] at ht'
      cases ht'
      exact ⟨rfl, rfl⟩
    · rw [setTask_task_ne _ heq, htask] at ht'
      exact absurd (h.one t' t m n p phase ht' ht) heq
  refine ⟨?_, ?_, ?_, ?_, ?_, ?_⟩
  · show s'.conn < s'.dialed
    rw [hconn]
    exact h.conn.trans_le hdialed
  · intro c hc
    have hold : s.dialed ≤ c := hdialed.trans hc
    show s'.written c = [] ∧ s'.received c = []
    rw [hwritten c hold, hreceived]
    exact h.fresh c hold
  · intro c g ht'
    obtain ⟨hlt, hle, hiff⟩ := h.reading c g (hother ht' fun h => nomatch h)
    show c < s'.dialed ∧ g ≤ s'.generation ∧ (g = s'.generation ↔ c = s'.conn)
    rw [hgeneration, hconn]
    exact ⟨hlt.trans_le hdialed, hle, hiff⟩
  · intro t' m p ht'
    obtain ⟨rfl, rfl⟩ := hleader ht'
    obtain ⟨hrec, hfin, -⟩ := h.leads t' n phase ht
    refine ⟨hrecovering.trans hrec, hfinished.trans hfin, ?_⟩
    have hspare {c : Conn} (hc : s'.Spare c) : (s'.setTask t' (.leading n' p)).Spare c := by
      refine ⟨hc.dialed, hc.conn, hc.received, fun g hg => ?_⟩
      have hreader := hother hg fun h => nomatch h
      rw [← htask] at hreader
      exact hc.reader g hreader
    cases p with
    | check | dialing => trivial
    | dialed c | adopted c | resuming c | resumed c | replaying c frames =>
        exact ⟨hspare hleads.1, hleads.2⟩
    | gaveUp e => exact hleads
  · intro t₁ t₂ m m' p p' h₁ h₂
    exact (hleader h₁).1.trans (hleader h₂).1.symm
  · intro t' e ht'
    exact h.failing t' e (hother ht' fun h => nomatch h)

/-- The leader goes on. -/
theorem Synced.leadTo (h : s.Synced ds) {t : Thread} {n : Nat} {phase : ResumePhase}
    (ht : s.task t = .leading n phase) (n' : Nat) {phase' : ResumePhase} (hleads : s.Leads phase') :
    (s.setTask t (.leading n' phase')).Synced ds :=
  ⟨⟨h.queued.le, h.queued.messages, h.queued.samples, h.queued.cursors, h.queued.supported⟩, h.position,
    h.threads.leadTo ht rfl rfl (Nat.le_refl _) rfl rfl rfl rfl (fun _ _ => rfl) hleads, h.stop⟩

/-- The leader writes a frame to its replacement and goes on. -/
theorem Synced.leadWrite (h : s.Synced ds) {t : Thread} {n : Nat} {phase : ResumePhase}
    (ht : s.task t = .leading n phase) {c : Conn} (hc : s.Spare c) {f : ClientFrame}
    (hf : ∀ k sample, f.cursor? = some (k, sample) →
      k ≤ s.lastDeliverySeq ∧ sample = endSample (ds.take k)) (n' : Nat) {phase' : ResumePhase}
    (hleads : (s.write c f).Leads phase') :
    ((s.write c f).setTask t (.leading n' phase')).Synced ds := by
  have hq := h.queued.write c hf
  refine ⟨⟨hq.le, hq.messages, hq.samples, hq.cursors, hq.supported⟩, fun hopen => ?_, ?_, h.stop⟩
  · have hpos := h.position hopen
    unfold At at hpos ⊢
    have hwritten : ((s.write c f).setTask t (.leading n' phase')).written s.conn = s.written s.conn :=
      write_written_ne s hc.conn.symm f
    show Position ds (resumeSeq (((s.write c f).setTask t (.leading n' phase')).written s.conn))
      s.lastDeliverySeq s.recovering (outputFrames (s.received s.conn)) s.pendingAudioHeader
    rw [hwritten]
    exact hpos
  · refine h.threads.leadTo ht rfl rfl (Nat.le_refl _) rfl rfl rfl rfl (fun c' hc' => ?_) hleads
    exact write_written_ne s (fun heq => Nat.lt_irrefl _ ((heq ▸ hc.dialed).trans_le hc')) f

/-- An attempt that fails is followed by another one. -/
theorem Synced.attemptFailed (h : s.Synced ds) {t : Thread} {n : Nat} {phase : ResumePhase}
    (ht : s.task t = .leading n phase) {outcome : ResumeOutcome}
    (hresumes : Retries cfg n outcome) : (s.attemptFailed cfg t n outcome).Synced ds := by
  cases outcome with
  | ok | expired | resumed => exact h
  | rejected | invalid => exact hresumes.elim
  | transport reached error =>
      have hretry : s.attemptFailed cfg t n (.transport reached error)
          = s.setTask t (.leading (n + 1) .check) := if_pos hresumes
      rw [hretry]
      exact h.leadTo ht (n + 1) trivial

/-- The replacement becomes the connection of the session. -/
theorem Synced.attach (h : s.Synced ds) {t : Thread} {n : Nat} {c : Conn} {frames : List ClientFrame}
    (ht : s.task t = .leading n (.replaying c frames)) : (s.attach t c).Synced ds := by
  obtain ⟨-, hfin, hspare, hle, -⟩ := h.threads.leads t n _ ht
  unfold StreamSession.attach
  rw [if_neg (by rw [hfin]; exact Bool.false_ne_true)]
  -- the leader returns with the attachment, so that its task does not outlive it
  have hother {t' : Thread} {task : Task} (ht' : ((s.attached c).recovered t true).task t' = task)
      (hidle : task ≠ .idle) (hexited : task ≠ .exited) : t' ≠ t ∧ s.task t' = task := by
    by_cases heq : t' = t
    · subst heq
      rcases recovered_task_self (s.attached c) t' true with htask | htask
      · exact absurd (ht'.symm.trans htask) hidle
      · exact absurd (ht'.symm.trans htask) hexited
    · rw [recovered_task_ne _ heq] at ht'
      exact ⟨heq, ht'⟩
  rw [recovered_eq]
  refine ⟨⟨h.queued.le, h.queued.messages, h.queued.samples, h.queued.cursors, fun h => nomatch h⟩,
    fun _ => ?_, ⟨hspare.dialed, h.threads.fresh, ?_, ?_, ?_, ?_⟩, h.stop⟩
  · show Position ds (resumeSeq (s.written c)) s.lastDeliverySeq false (outputFrames (s.received c)) none
    rw [hspare.received]
    exact .whole hle (.start (hle.trans h.queued.le))
  · intro c' g ht'
    obtain ⟨-, htask⟩ := hother ht' (fun h => nomatch h) (fun h => nomatch h)
    obtain ⟨hlt, hle', -⟩ := h.threads.reading c' g htask
    refine ⟨hlt, Nat.le_succ_of_le hle', ?_⟩
    constructor
    · intro heq
      have heq' : g = s.generation + 1 := heq
      omega
    · rintro rfl
      exact absurd htask (hspare.reader g)
  · intro t' m p ht'
    obtain ⟨hne, htask⟩ := hother ht' (fun h => nomatch h) (fun h => nomatch h)
    exact absurd (h.threads.one t' t m n p _ htask ht) hne
  · intro t₁ t₂ m m' p p' h₁ h₂
    obtain ⟨hne, htask⟩ := hother h₁ (fun h => nomatch h) (fun h => nomatch h)
    exact absurd (h.threads.one t₁ t m n p _ htask ht) hne
  · intro t' e ht'
    exact h.threads.failing t' e (hother ht' (fun h => nomatch h) (fun h => nomatch h)).2

/-- The leader begins to replay the input, which has no cursors. -/
theorem Synced.beginReplay (h : s.Synced ds) {t : Thread} {n : Nat} {c : Conn} {acked : Nat}
    {closed : Bool} (ht : s.task t = .leading n (.resumed c acked closed)) (hvalid : s.AckValid acked) :
    (s.beginReplay cfg t n c acked closed).Synced ds := by
  obtain ⟨-, -, hspare, hle⟩ := h.threads.leads t n _ ht
  unfold StreamSession.beginReplay
  rw [if_pos hvalid]
  have hsynced : ({ { s.ackTexts acked with inputAcked := closed } with
      ackedAt := Function.update s.ackedAt c acked } : StreamSession).Synced ds :=
    h.kept ⟨rfl, rfl, rfl, rfl, rfl, rfl, .inl rfl, Nat.le_refl _, fun _ _ => rfl, rfl⟩
      ⟨h.queued.le, h.queued.messages, h.queued.samples, h.queued.cursors, h.queued.supported⟩ rfl rfl
      rfl h.stop
  refine hsynced.leadTo ht n ⟨⟨hspare.dialed, hspare.conn, hspare.received, hspare.reader⟩, hle, ?_⟩
  intro f hf
  unfold replayFrames at hf
  rcases List.mem_append.1 hf with hf | hf
  · obtain ⟨entry, -, rfl⟩ := List.mem_map.1 hf
    rfl
  · split at hf
    · exact h.stop f (Option.mem_toList.1 hf)
    · cases hf

theorem Synced.lead (h : s.Synced ds) {t : Thread} {outcome : ResumeOutcome}
    (hclean : s.Clean cfg (.lead t outcome)) : (s.lead cfg t outcome).Synced ds := by
  unfold StreamSession.lead
  split
  case h_2 => exact h
  case h_1 n phase ht =>
    simp only [Clean, ht, OnLeading] at hclean
    obtain ⟨-, hfin, hleads⟩ := h.threads.leads t n phase ht
    have hfin' : ¬ s.transportFinished = true := by
      rw [hfin]
      exact Bool.false_ne_true
    cases phase with
    | check =>
        simp only [leadPhase, if_neg hfin']
        cases outcome with
        | expired => exact hclean.elim
        | ok | resumed | transport | rejected | invalid => exact h.leadTo ht n trivial
    | dialing =>
        have hretries : Retries cfg n outcome := hclean
        cases outcome with
        | ok =>
            have hdialed := h.threads.fresh s.dialed (Nat.le_refl _)
            refine ⟨⟨h.queued.le, h.queued.messages, h.queued.samples, h.queued.cursors,
              h.queued.supported⟩, h.position, ?_, h.stop⟩
            refine h.threads.leadTo ht rfl rfl (Nat.le_succ _) rfl rfl rfl rfl (fun _ _ => rfl) ?_
            refine ⟨⟨Nat.lt_succ_self _, (Nat.ne_of_lt h.threads.conn).symm, hdialed.2, ?_⟩, hdialed.1⟩
            intro g hg
            exact Nat.lt_irrefl _ (h.threads.reading _ g hg).1
        | expired | resumed | transport | rejected | invalid => exact h.attemptFailed ht hretries
    | dialed c =>
        simp only [leadPhase, if_neg hfin']
        exact h.leadTo ht n hleads
    | adopted c =>
        have hretries : Retries cfg n outcome := hclean
        obtain ⟨hspare, hwritten⟩ := hleads
        have hcursor : ∀ k sample,
            (ClientFrame.resume s.lastDeliverySeq s.audioThroughSample).cursor? = some (k, sample) →
              k ≤ s.lastDeliverySeq ∧ sample = endSample (ds.take k) := h.queued.cursor rfl
        cases outcome with
        | ok =>
            refine h.leadWrite ht hspare hcursor n
              ⟨⟨hspare.dialed, hspare.conn, hspare.received, hspare.reader⟩, ?_⟩
            rw [write_written_self, hwritten]
            exact Nat.le_refl _
        | transport reached error =>
            have hretry : (s.write c (.resume s.lastDeliverySeq s.audioThroughSample)).attemptFailed cfg t
                n (.transport reached error)
                = (s.write c (.resume s.lastDeliverySeq s.audioThroughSample)).setTask t
                  (.leading (n + 1) .check) := if_pos hretries
            simp only [leadPhase]
            rw [hretry]
            exact h.leadWrite ht hspare hcursor (n + 1) trivial
        | expired | resumed | rejected | invalid => exact h.attemptFailed ht hretries
    | resuming c =>
        have hretries : Retries cfg n outcome := hclean
        cases outcome with
        | resumed acked closed => exact h.leadTo ht n hleads
        | ok | expired | transport | rejected | invalid => exact h.attemptFailed ht hretries
    | resumed c acked closed => exact h.beginReplay ht hclean
    | replaying c frames =>
        cases frames with
        | nil => exact h.attach ht
        | cons f frames =>
            have hretries : Retries cfg n outcome := hclean
            obtain ⟨hspare, hle, hnone⟩ := hleads
            have hf := hnone f List.mem_cons_self
            have hcursor : ∀ k sample, f.cursor? = some (k, sample) →
                k ≤ s.lastDeliverySeq ∧ sample = endSample (ds.take k) := by
              intro k sample hk
              rw [hf] at hk
              cases hk
            cases outcome with
            | ok =>
                refine h.leadWrite ht hspare hcursor n
                  ⟨⟨hspare.dialed, hspare.conn, hspare.received, hspare.reader⟩, ?_,
                    fun f' hf' => hnone f' (List.mem_cons_of_mem _ hf')⟩
                rw [write_written_self, resumeSeq_append _ (ClientFrame.resumeSeq?_of_cursor? hf)]
                exact hle
            | transport reached error =>
                have hretry (s' : StreamSession) : s'.attemptFailed cfg t n (.transport reached error)
                    = s'.setTask t (.leading (n + 1) .check) := if_pos hretries
                simp only [leadPhase]
                rw [hretry]
                cases reached with
                | true => exact h.leadWrite ht hspare hcursor (n + 1) trivial
                | false => exact h.leadTo ht (n + 1) trivial
            | expired | resumed | rejected | invalid => exact h.attemptFailed ht hretries
    | gaveUp e => exact hleads.elim

/-- What a section keeps. -/
theorem Synced.step (hds : Numbered ds) (h : s.Synced ds) {e : StreamStep} (hserves : s.Serves ds e)
    (hclean : s.Clean cfg e) : (s.step cfg e).Synced ds := by
  cases e with
  | pick => exact h.pick
  | frame f ackOk => exact h.frame hds hserves hclean
  | breaks => exact h.breaks
  | sendText i text seqNo outcome => exact h.sendText i text seqNo outcome
  | finishInput i type outcome => exact h.finishInput i type outcome
  | recover t => exact h.recover hclean
  | wake t => exact h.wake t
  | lead t outcome => exact h.lead hclean
  | fail t => exact h.fail t

/-! ## Exactly once -/

/-- Messages whose audio continues the axis of samples at `sample`. -/
def ContiguousMessages : Nat → List Message → Prop
  | _, [] => True
  | sample, .audio chunk :: messages =>
      chunk.outputSampleStart = some sample ∧ ∃ endSample, chunk.outputSampleEnd = some endSample ∧
        sample < endSample ∧ ContiguousMessages endSample messages
  | sample, .event _ :: messages => ContiguousMessages sample messages

theorem contiguousMessages_map {sample : Nat} (h : Contiguous sample ds) :
    ContiguousMessages sample (ds.map Delivery.message) := by
  induction ds generalizing sample with
  | nil => trivial
  | cons d ds ih =>
      cases d with
      | audio startSample endSample format pcmBytes =>
          obtain ⟨rfl, hlt, hrest⟩ := h
          exact ⟨rfl, endSample, rfl, hlt, ih hrest⟩
      | event e => exact ih h

/-- A ledger that has published the first `m` deliveries. -/
structure Publishes (ds : List Delivery) (m : Nat) (ledger : Session.DeliveryLedger) : Prop where
  log : ledger.LogInv
  next : ledger.nextDeliverySeq = m + 1
  sample : ledger.nextAudioSample = endSample (ds.take m)
  trimmed : ∃ k : Nat, ledger.trimmedThroughSeq = k ∧ ledger.trimmedAudioSample = endSample (ds.take k)
  records : ∀ r ∈ ledger.records, ∃ k : Nat, r.deliverySeq = k ∧ r.endSample = endSample (ds.take k)

/-- The end of a delivery that was published is neither ahead nor a mismatch; it may have been trimmed. -/
theorem Publishes.validateCursor {m k : Nat} {ledger : Session.DeliveryLedger}
    (h : Publishes ds m ledger) (hds : Numbered ds) (hk : k ≤ m) {e : Session.LedgerError}
    (he : ledger.validateCursor k (endSample (ds.take k)) = .error e) : e.code = .cursorExpired := by
  have hmono := hds.endSample_mono hk
  unfold Session.DeliveryLedger.validateCursor at he
  rw [h.next, h.sample] at he
  simp only at he
  split at he
  · next hlt => omega
  · split at he
    · next hlt => omega
    · split at he
      · cases he
        rfl
      · split at he
        · cases he
          rfl
        · split at he
          · cases he
            rfl
          · next expected hexpected =>
            -- the cursor that is looked up is the end of the same delivery
            have hsame : expected = endSample (ds.take k) := by
              split at hexpected
              · next heq =>
                obtain ⟨j, hj, hsample⟩ := h.trimmed
                cases hexpected
                rw [hj, Nat.cast_inj] at heq
                rw [hsample, heq]
              · obtain ⟨r, hr, hseq, hend⟩ := (h.log.chained.findEnd_eq _ _).1 hexpected
                obtain ⟨j, hj, hsample⟩ := h.records r hr
                rw [hj, Nat.cast_inj] at hseq
                rw [← hend, hsample, hseq]
            rw [if_neg (by rw [hsame]; exact fun hne => hne rfl)] at he
            cases he

/-- The messages are the first `n` deliveries, each once and in order: their audio covers the axis of
samples, and nothing follows a terminal. Every cursor written is the end of a delivery among them (or the
start), so that a ledger that has published them does not refuse it as ahead or mismatched. -/
structure DeliveredOnce (ds : List Delivery) (n : Nat) (s : StreamSession) : Prop where
  messages : n ≤ ds.length ∧ s.messages = (ds.take n).map Delivery.message
  contiguous : ContiguousMessages 0 s.messages
  terminal : ∀ pre e post, s.messages = pre ++ .event e :: post → e.isTerminal = true → post = []
  cursors : ∀ c, ∀ f ∈ s.written c, ∀ k sample, f.cursor? = some (k, sample) →
    k ≤ n ∧ sample = endSample (ds.take k)
  accepted : ∀ m ledger, Publishes ds m ledger → n ≤ m →
    ∀ c, ∀ f ∈ s.written c, ∀ k sample, f.cursor? = some (k, sample) →
      ∀ e, ledger.validateCursor k sample = .error e → e.code = .cursorExpired

theorem Synced.deliveredOnce (hds : Numbered ds) (h : s.Synced ds) :
    s.DeliveredOnce ds s.lastDeliverySeq := by
  have hmessages := h.queued.messages
  refine ⟨⟨h.queued.le, hmessages⟩, ?_, ?_, h.queued.cursors, ?_⟩
  · rw [hmessages]
    have hc := hds.contiguous
    rw [← List.take_append_drop s.lastDeliverySeq ds] at hc
    exact contiguousMessages_map (contiguous_append hc).1
  · intro pre e post hsplit hterminal
    rw [hmessages] at hsplit
    obtain ⟨pre', post', htake, -, hpost⟩ := List.map_eq_append_iff.1 hsplit
    cases post' with
    | nil => cases hpost
    | cons d post' =>
        rw [List.map_cons, List.cons.injEq] at hpost
        have hd : d.isTerminal = true := by
          cases d with
          | audio => cases hpost.1
          | event e' =>
              cases hpost.1
              exact hterminal
        have hall := hds.terminal pre' d (post' ++ ds.drop s.lastDeliverySeq) (by
          rw [← List.cons_append, ← List.append_assoc, ← htake, List.take_append_drop]) hd
        rw [← hpost.2, (List.append_eq_nil_iff.1 hall).1]
        rfl
  · intro m ledger hledger hle c f hf k sample hk e he
    obtain ⟨hkn, rfl⟩ := h.queued.cursors c f hf k sample hk
    exact hledger.validateCursor hds (hkn.trans hle) he

/-- In every run against a server that numbers its deliveries and replays those behind the cursor of a
resume, the session queues the deliveries once and in order, with cursors that no ledger of them refuses
as ahead or mismatched, as long as the reader is handed no frame that a recovery has made unreadable and
no recovery is given up. -/
theorem output_delivered_once (hds : Numbered ds) {es : List StreamStep}
    (hrun : Along (step cfg) (fun s e => s.Serves ds e ∧ s.Clean cfg e) new es) :
    (run (step cfg) new es).DeliveredOnce ds (run (step cfg) new es).lastDeliverySeq := by
  have hsynced : (run (step cfg) new es).Synced ds :=
    run_induct (new_synced ds) (fun s e h hstep => h.step hds hstep.1 hstep.2) hrun
  exact hsynced.deliveredOnce hds

/-! ### Two short streams -/

section

instance (P : Conn → Nat → Prop) [∀ c g, Decidable (P c g)] : (t : Task) → Decidable (OnReading P t)
  | .receiving c g => inferInstanceAs (Decidable (P c g))
  | .idle | .broken .. | .waiting _ | .leading .. | .failing _ | .exited => .isTrue trivial

instance (P : Nat → ResumePhase → Prop) [∀ n p, Decidable (P n p)] :
    (t : Task) → Decidable (OnLeading P t)
  | .leading n p => inferInstanceAs (Decidable (P n p))
  | .idle | .receiving .. | .broken .. | .waiting _ | .failing _ | .exited => .isTrue trivial

instance (ds : List Delivery) (s : StreamSession) (c : Conn) :
    (f : ServerFrame) → Decidable (s.ServesFrame ds c f)
  | .audioHeader _ | .audio _ | .event .. => inferInstanceAs (Decidable (_ <+: _))
  | .textAck _ | .inputAck | .other => .isTrue trivial
  | .resumeError _ | .playbackProgressError _ => .isFalse id

instance (ds : List Delivery) (s : StreamSession) : (e : StreamStep) → Decidable (s.Serves ds e)
  | .frame _ _ => inferInstanceAs (Decidable (OnReading _ _))
  | .pick | .breaks | .sendText .. | .finishInput .. | .recover _ | .wake _ | .lead .. | .fail _ =>
      .isTrue trivial

instance (s : StreamSession) (g : Nat) : (f : ServerFrame) → Decidable (s.CleanFrame g f)
  | .audio _ => inferInstanceAs (Decidable (_ → _))
  | .event _ _ => inferInstanceAs (Decidable (_ → _ → _))
  | .textAck n => inferInstanceAs (Decidable (s.AckValid n))
  | .audioHeader _ | .inputAck | .resumeError _ | .playbackProgressError _ | .other => .isTrue trivial

instance (cfg : ResumeConfig) (n : Nat) : (o : ResumeOutcome) → Decidable (Retries cfg n o)
  | .transport _ _ => inferInstanceAs (Decidable (_ < _))
  | .rejected _ | .invalid _ => .isFalse id
  | .ok | .expired | .resumed .. => .isTrue trivial

instance (cfg : ResumeConfig) (s : StreamSession) (n : Nat) (o : ResumeOutcome) :
    (p : ResumePhase) → Decidable (s.Resumes cfg n o p)
  | .check =>
      match o with
      | .expired => .isFalse id
      | .ok | .resumed .. | .transport .. | .rejected _ | .invalid _ => .isTrue trivial
  | .resumed _ acked _ => inferInstanceAs (Decidable (s.AckValid acked))
  | .dialed _ | .replaying _ [] | .gaveUp _ => .isTrue trivial
  | .dialing | .adopted _ | .resuming _ | .replaying _ (_ :: _) =>
      inferInstanceAs (Decidable (Retries cfg n o))

instance (cfg : ResumeConfig) (s : StreamSession) : (e : StreamStep) → Decidable (s.Clean cfg e)
  | .frame _ _ => inferInstanceAs (Decidable (OnReading _ _))
  | .recover _ => inferInstanceAs (Decidable (_ < _))
  | .lead _ _ => inferInstanceAs (Decidable (OnLeading _ _))
  | .pick | .breaks | .sendText .. | .finishInput .. | .wake _ | .fail _ => .isTrue trivial

/-- Two attempts, and an acknowledgement for each delivery. -/
def shortConfig : ResumeConfig := ⟨"s", 1, 2⟩

/-- The header of the one audio delivery of the stream. -/
def shortHeader : AudioHeader := ⟨some 1, some 0, some 2, ⟨"pcm_u8", 1⟩⟩

/-- The end of the stream. -/
def doneEvent : StreamEvent := ⟨.done, "", none⟩

/-- A stream of two samples. -/
def shortStream : List Delivery := [.audio 0 2 ⟨"pcm_u8", 1⟩ [1, 2], .event doneEvent]

theorem shortStream_numbered : Numbered shortStream where
  contiguous := ⟨rfl, by decide, trivial⟩
  terminal pre d post hsplit hterminal := by
    match pre with
    | [] =>
        cases hsplit
        cases hterminal
    | [_] =>
        cases hsplit
        rfl
    | _ :: _ :: pre =>
        rw [List.cons_append, List.cons_append, shortStream, List.cons.injEq, List.cons.injEq] at hsplit
        exact absurd hsplit.2.2.symm (List.append_ne_nil_of_right_ne_nil _ (List.cons_ne_nil _ _))

/-- The connection breaks between a header and its payload; the first attempt to resume fails. -/
def brokenBehindHeader : List StreamStep :=
  [.pick, .frame (.audioHeader shortHeader) true, .pick, .sendText 0 "a" none .ok, .breaks,
    .recover .reader, .lead .reader .ok, .lead .reader (.transport false "refused"), .lead .reader .ok,
    .lead .reader .ok, .lead .reader .ok, .lead .reader .ok, .lead .reader (.resumed 0 false),
    .lead .reader .ok, .lead .reader .ok, .lead .reader .ok, .pick,
    .frame (.audioHeader shortHeader) true, .pick, .frame (.audio [1, 2]) true, .pick,
    .frame (.textAck 1) true, .pick, .frame (.event (some 2) doneEvent) true]

theorem output_delivered_once_broken :
    (run (step shortConfig) new brokenBehindHeader).messages = shortStream.map Delivery.message ∧
      (run (step shortConfig) new brokenBehindHeader).DeliveredOnce shortStream
        (run (step shortConfig) new brokenBehindHeader).lastDeliverySeq :=
  ⟨by decide +kernel,
    @output_delivered_once shortStream shortConfig shortStream_numbered brokenBehindHeader
      (by decide +kernel)⟩

/-- A caller's write fails while the reader waits for the payload, which then arrives. -/
def headerDropped : List StreamStep :=
  [.pick, .frame (.audioHeader shortHeader) true, .pick, .sendText 0 "a" none (.failed false),
    .recover (.caller 0), .frame (.audio [1, 2]) true, .fail .reader]

/-- The stream ends with an error of the client, although its server is there to be resumed. -/
theorem payload_without_header :
    Along (step shortConfig) (fun s e => s.Serves shortStream e) new headerDropped ∧
      (run (step shortConfig) new headerDropped).messages
        = [.event ⟨.error, "resumable audio binary frame is missing audio_header", none⟩] ∧
      ∀ n, ¬ (run (step shortConfig) new headerDropped).DeliveredOnce shortStream n := by
  have hmessages : (run (step shortConfig) new headerDropped).messages
      = [.event ⟨.error, "resumable audio binary frame is missing audio_header", none⟩] := by
    decide +kernel
  refine ⟨by decide +kernel, hmessages, fun n honce => ?_⟩
  have hprefix := honce.messages.2
  rw [hmessages] at hprefix
  cases n with
  | zero => cases hprefix
  | succ n =>
      rw [shortStream, List.take_succ_cons, List.map_cons, List.cons.injEq] at hprefix
      cases hprefix.1

end

end StreamSession

end StreamingTts.Client
