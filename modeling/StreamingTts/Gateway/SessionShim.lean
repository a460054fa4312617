import Std.Data.String.ToInt
import StreamingTts.Session.Types

/-!
# The session shim

`_raw_frame_to_output` and `RealtimeSessionServiceBackend._to_legacy_frame` in `engine/gateway/session_backend.py`:
the frames of the legacy gateway become typed outputs, and these become frames again. A key that a frame
may lack is an `Option`, the metadata are association lists, and `int` reads a string of the metadata and
may raise.

The two converters give back what they get, except for an event of the segment 0: `int(x or -1)` makes it
an event of no segment.
-/

namespace StreamingTts.Gateway.Shim

open Session

/-! ## The frames -/

/-- The keys of the audio format in a frame. -/
structure FormatKeys where
  encoding : Option String := none
  sampleRate : Option Int := none
  channels : Option Int := none
  deriving DecidableEq, Repr

/-- `frame["audio"]`. -/
structure AudioFrame where
  pcmData : Option (List UInt8) := none
  format : FormatKeys := {}
  metaMap : List (String × String) := []
  deriving DecidableEq, Repr

/-- `frame["event"]`. -/
structure EventFrame where
  type : Option String := none
  sessionId : Option String := none
  audio : FormatKeys := {}
  segmentId : Option Int := none
  text : Option String := none
  message : Option String := none
  metaMap : List (String × String) := []
  deriving DecidableEq, Repr

/-- A frame of the legacy gateway, by its `type`. -/
inductive LegacyFrame
  | audio (frame : AudioFrame)
  | event (frame : EventFrame)
  | other (type : String)
  deriving DecidableEq, Repr

/-- The fields of `SessionStartRequest` that the converters read. -/
structure SessionStartRequest where
  sessionId : String
  audio : AudioFormat
  deriving DecidableEq, Repr

/-- `ValueError` of `int`. -/
structure ValueError where
  literal : String
  deriving DecidableEq, Repr

/-! ## From frames to outputs -/

/-- `value or default` of a string. -/
def textOr (value : Option String) (default : String) : String :=
  if value.getD "" = "" then default else value.getD ""

/-- `value or default` of an integer. -/
def intOr (value : Option Int) (default : Int) : Int :=
  if value.getD 0 = 0 then default else value.getD 0

/-- `_audio_format`. -/
def audioFormat (payload : FormatKeys) (fallback : AudioFormat) : AudioFormat :=
  ⟨textOr payload.encoding fallback.encoding, intOr payload.sampleRate fallback.sampleRate,
    intOr payload.channels fallback.channels⟩

/-- `_sample_count`. -/
def sampleCount (pcm : List UInt8) (encoding : String) (channels : Int) : Int :=
  let width : Int := if encoding = "pcm_f32" then 4 else 2
  let divisor := max 1 (width * channels)
  pcm.length / divisor

section
variable (int : String → Option Int)

/-- `int` of a string. -/
def readInt (literal : String) : Except ValueError Int :=
  match int literal with
  | some n => .ok n
  | none => .error ⟨literal⟩

/-- `int(meta.get(key, default) or other)`. -/
def readSample (metaMap : List (String × String)) (key : String) (default other : Int) :
    Except ValueError Int :=
  match metaMap.lookup key with
  | none => .ok (if default = 0 then other else default)
  | some literal => if literal = "" then .ok other else readInt int literal

/-- `_raw_frame_to_output`. -/
def rawFrameToOutput (startRequest : SessionStartRequest) (sampleCursor : Int) :
    LegacyFrame → Except ValueError (Option (SessionOutput × Int))
  | .audio audio =>
      let pcm := audio.pcmData.getD []
      if pcm = [] then .ok none
      else do
        let format := audioFormat audio.format startRequest.audio
        let start ← readSample int audio.metaMap "output_sample_start" sampleCursor sampleCursor
        let stop ← readSample int audio.metaMap "output_sample_end"
          (start + sampleCount pcm format.encoding format.channels) start
        pure (some (.audio ⟨startRequest.sessionId, pcm, format, start, stop, audio.metaMap⟩, stop))
  | .event event =>
      let eventType := event.type.getD ""
      let sessionId := textOr event.sessionId startRequest.sessionId
      if eventType = "start" then
        .ok (some (.started ⟨sessionId, audioFormat event.audio startRequest.audio, event.metaMap⟩,
          sampleCursor))
      else if eventType = "done" ∨ eventType = "error" then
        let reason := (event.metaMap.lookup "terminal_reason").getD ""
        let status : TerminalStatus :=
          if reason = "cancelled" then .cancelled
          else if eventType = "error" then .failed
          else .completed
        .ok (some (.terminal ⟨sessionId, status, event.message.getD "", event.metaMap, []⟩, sampleCursor))
      else
        .ok (some (.event ⟨sessionId, eventType, intOr (some (event.segmentId.getD (-1))) (-1),
          event.text.getD "", event.message.getD "", event.metaMap⟩, sampleCursor))
  | .other _ => .ok none

end

/-! ## From outputs to frames -/

/-- `dict.setdefault`. -/
def setDefault (metaMap : List (String × String)) (key value : String) : List (String × String) :=
  match metaMap.lookup key with
  | some _ => metaMap
  | none => metaMap ++ [(key, value)]

/-- All the keys of a format. -/
def formatKeys (audio : AudioFormat) : FormatKeys :=
  ⟨some audio.encoding, some audio.sampleRate, some audio.channels⟩

/-- `RealtimeSessionServiceBackend._to_legacy_frame`. -/
def toLegacyFrame : SessionOutput → LegacyFrame
  | .started output =>
      .event
        { type := some "start"
          sessionId := some output.sessionId
          audio := formatKeys output.audio
          metaMap := output.metaMap }
  | .audio output =>
      .audio
        { pcmData := some output.pcmBytes
          format := formatKeys output.audio
          metaMap :=
            setDefault (setDefault output.metaMap "output_sample_start" output.outputSampleStart.repr)
              "output_sample_end" output.outputSampleEnd.repr }
  | .terminal output =>
      .event
        { type := some (if output.status = .failed then "error" else "done")
          sessionId := some output.sessionId
          message := some output.message
          metaMap := setDefault output.metrics "terminal_reason" output.status.value }
  | .event output =>
      .event
        { type := some output.eventType
          sessionId := some output.sessionId
          segmentId := some output.segmentId
          text := some output.text
          message := some output.message
          metaMap := output.metaMap }

/-! ## The lemmas of the defaults -/

theorem lookup_append (xs ys : List (String × String)) (k : String) :
    (xs ++ ys).lookup k = (xs.lookup k).or (ys.lookup k) := by
  induction xs with
  | nil => rfl
  | cons x xs ih =>
      obtain ⟨k', v⟩ := x
      rw [List.cons_append, List.lookup_cons, List.lookup_cons]
      cases k == k' with
      | true => rfl
      | false => exact ih

theorem lookup_setDefault (metaMap : List (String × String)) (key value : String) :
    (setDefault metaMap key value).lookup key = some ((metaMap.lookup key).getD value) := by
  unfold setDefault
  cases hlookup : metaMap.lookup key with
  | some old => exact hlookup
  | none =>
      dsimp only
      rw [lookup_append, hlookup]
      simp

theorem lookup_setDefault_of_ne (metaMap : List (String × String)) {key key' : String}
    (hne : key' ≠ key) (value : String) :
    (setDefault metaMap key value).lookup key' = metaMap.lookup key' := by
  unfold setDefault
  cases hlookup : metaMap.lookup key with
  | some old => rfl
  | none =>
      dsimp only
      rw [lookup_append, List.lookup_cons, beq_false_of_ne hne]
      exact Option.or_none

theorem int_repr_ne_empty (n : Int) : n.repr ≠ "" := by
  rw [Int.repr_eq_if]
  split
  · simp
  · simp

theorem textOr_some {value default : String} (h : value ≠ "" ∨ default = "") :
    textOr (some value) default = value := by
  unfold textOr
  simp only [Option.getD_some]
  split_ifs with hempty
  · rcases h with h | h
    · exact absurd hempty h
    · rw [h, hempty]
  · rfl

theorem intOr_some {value default : Int} (h : value ≠ 0 ∨ default = 0) :
    intOr (some value) default = value := by
  unfold intOr
  simp only [Option.getD_some]
  split_ifs with hzero
  · rcases h with h | h
    · exact absurd hzero h
    · rw [h, hzero]
  · rfl

/-- The format is a format of the session: where it has no value, the session has none. -/
structure FormatGiven (fallback audio : AudioFormat) : Prop where
  encoding : audio.encoding ≠ "" ∨ fallback.encoding = ""
  sampleRate : audio.sampleRate ≠ 0 ∨ fallback.sampleRate = 0
  channels : audio.channels ≠ 0 ∨ fallback.channels = 0

theorem audioFormat_formatKeys {fallback audio : AudioFormat} (h : FormatGiven fallback audio) :
    audioFormat (formatKeys audio) fallback = audio := by
  unfold audioFormat formatKeys
  rw [textOr_some h.encoding, intOr_some h.sampleRate, intOr_some h.channels]

theorem audioFormat_given (payload : FormatKeys) (fallback : AudioFormat) :
    FormatGiven fallback (audioFormat payload fallback) := by
  have hint : ∀ (value : Option Int) (default : Int), intOr value default ≠ 0 ∨ default = 0 := by
    intro value default
    unfold intOr
    split_ifs with hzero
    · exact (em (default = 0)).symm
    · exact .inl hzero
  refine ⟨?_, hint _ _, hint _ _⟩
  change textOr payload.encoding fallback.encoding ≠ "" ∨ _
  unfold textOr
  split_ifs with hempty
  · exact (em (fallback.encoding = "")).symm
  · exact .inl hempty

/-! ## There and back -/

section
variable (int : String → Option Int)

/-- The entry of the metadata, where there is one, is the sample. -/
def SampleGiven (metaMap : List (String × String)) (key : String) (sample : Int) : Prop :=
  ∀ literal, metaMap.lookup key = some literal → literal ≠ "" ∧ int literal = some sample

/-- The outputs that the engine can produce in a session: audio has samples and metadata that agree with
its range, an event is none of those that have a class of their own, and a reason among the metrics of a
terminal output says whether it is a cancellation. -/
inductive Producible (startRequest : SessionStartRequest) : SessionOutput → Prop
  | started (o : StartedOutput) (name : o.sessionId ≠ "" ∨ startRequest.sessionId = "")
      (format : FormatGiven startRequest.audio o.audio) : Producible startRequest (.started o)
  | audio (o : AudioOutput) (name : o.sessionId = startRequest.sessionId) (pcm : o.pcmBytes ≠ [])
      (format : FormatGiven startRequest.audio o.audio)
      (start : SampleGiven int o.metaMap "output_sample_start" o.outputSampleStart)
      (stop : SampleGiven int o.metaMap "output_sample_end" o.outputSampleEnd) :
      Producible startRequest (.audio o)
  | event (o : EventOutput) (name : o.sessionId ≠ "" ∨ startRequest.sessionId = "")
      (start : o.eventType ≠ "start") (done : o.eventType ≠ "done") (error : o.eventType ≠ "error") :
      Producible startRequest (.event o)
  | terminal (o : TerminalOutput) (name : o.sessionId ≠ "" ∨ startRequest.sessionId = "")
      (reason : ∀ reason, o.metrics.lookup "terminal_reason" = some reason →
        (reason = "cancelled" ↔ o.status = .cancelled)) : Producible startRequest (.terminal o)

/-- The two outputs are of one class and have the same fields, but for the metadata. -/
inductive Same : SessionOutput → SessionOutput → Prop
  | started (o o' : StartedOutput) (sessionId : o'.sessionId = o.sessionId) (audio : o'.audio = o.audio) :
      Same (.started o) (.started o')
  | audio (o o' : AudioOutput) (sessionId : o'.sessionId = o.sessionId)
      (pcmBytes : o'.pcmBytes = o.pcmBytes) (audio : o'.audio = o.audio)
      (start : o'.outputSampleStart = o.outputSampleStart) (stop : o'.outputSampleEnd = o.outputSampleEnd) :
      Same (.audio o) (.audio o')
  | event (o o' : EventOutput) (sessionId : o'.sessionId = o.sessionId)
      (eventType : o'.eventType = o.eventType) (segmentId : o'.segmentId = o.segmentId)
      (text : o'.text = o.text) (message : o'.message = o.message) : Same (.event o) (.event o')
  | terminal (o o' : TerminalOutput) (sessionId : o'.sessionId = o.sessionId)
      (status : o'.status = o.status) (message : o'.message = o.message) : Same (.terminal o) (.terminal o')

/-- The output comes back the same. -/
def RoundTrips (startRequest : SessionStartRequest) (sampleCursor : Int) (o : SessionOutput) : Prop :=
  ∃ o' cursor, rawFrameToOutput int startRequest sampleCursor (toLegacyFrame o) = .ok (some (o', cursor)) ∧
    Same o o'

/-- An event of the segment 0. -/
def OfFirstSegment : SessionOutput → Prop
  | .event o => o.segmentId = 0
  | _ => False

/-- The frame has samples, and the places that its metadata name are places. -/
def WellFormed : LegacyFrame → Prop
  | .audio frame =>
      frame.pcmData.getD [] ≠ [] ∧
        ∀ key ∈ ["output_sample_start", "output_sample_end"], ∀ literal,
          frame.metaMap.lookup key = some literal →
            literal ≠ "" ∧ ∃ sample, int literal = some sample ∧ 0 ≤ sample
  | .event _ => True
  | .other _ => False

/-- The sample at which a frame ends. -/
def frameEnd (sampleCursor : Int) (stop : Int) (pcm : List UInt8) (format : AudioFormat)
    (metaMap : List (String × String)) : Prop :=
  match metaMap.lookup "output_sample_end" with
  | some literal => int literal = some stop
  | none =>
      match metaMap.lookup "output_sample_start" with
      | some literal => ∃ start, int literal = some start ∧
          stop = start + sampleCount pcm format.encoding format.channels
      | none => stop = sampleCursor + sampleCount pcm format.encoding format.channels

/-- What the output of a frame keeps of it, and the cursor behind it. -/
def Keeps (sampleCursor : Int) : LegacyFrame → SessionOutput → Int → Prop
  | .audio frame, .audio o, cursor =>
      o.pcmBytes = frame.pcmData.getD [] ∧ o.metaMap = frame.metaMap ∧ cursor = o.outputSampleEnd ∧
        frameEnd int sampleCursor cursor o.pcmBytes o.audio o.metaMap
  | .event frame, .started o, cursor => o.metaMap = frame.metaMap ∧ cursor = sampleCursor
  | .event frame, .terminal o, cursor =>
      o.message = frame.message.getD "" ∧ o.metrics = frame.metaMap ∧ cursor = sampleCursor
  | .event frame, .event o, cursor =>
      o.segmentId = frame.segmentId.getD (-1) ∧ o.text = frame.text.getD "" ∧
        o.message = frame.message.getD "" ∧ o.metaMap = frame.metaMap ∧ cursor = sampleCursor
  | _, _, _ => False

/-- A frame of an event of the segment 0, of a type that does not start or end the session. -/
def FrameOfFirstSegment : LegacyFrame → Prop
  | .event frame => frame.segmentId = some 0 ∧ frame.type.getD "" ∉ ["start", "done", "error"]
  | _ => False

end

section
variable {int : String → Option Int} {startRequest : SessionStartRequest} {sampleCursor : Int}

/-- The place of the samples, from metadata that name it or do not. -/
theorem readSample_eq {metaMap : List (String × String)} {key literal : String} {sample : Int}
    (hlookup : metaMap.lookup key = some literal) (hne : literal ≠ "") (hint : int literal = some sample)
    (default other : Int) : readSample int metaMap key default other = .ok sample := by
  unfold readSample readInt
  rw [hlookup]
  simp only [if_neg hne, hint]

/-- After `setdefault` the metadata name the sample. -/
theorem readSample_setDefault (hint : ∀ n : Int, int n.repr = some n)
    {metaMap metaMap' : List (String × String)} {key : String} {sample : Int}
    (hgiven : SampleGiven int metaMap key sample)
    (hlookup : metaMap'.lookup key = some ((metaMap.lookup key).getD sample.repr)) (default other : Int) :
    readSample int metaMap' key default other = .ok sample := by
  cases hold : metaMap.lookup key with
  | some literal =>
      rw [hold] at hlookup
      obtain ⟨hne, hread⟩ := hgiven literal hold
      exact readSample_eq hlookup hne hread default other
  | none =>
      rw [hold] at hlookup
      refine readSample_eq hlookup (int_repr_ne_empty sample) (hint sample) default other

/-- **There and back.** An output comes back the same exactly when it is not an event of the segment 0. -/
theorem roundTrips_iff (hint : ∀ n : Int, int n.repr = some n) {o : SessionOutput}
    (h : Producible int startRequest o) :
    RoundTrips int startRequest sampleCursor o ↔ ¬ OfFirstSegment o := by
  cases h with
  | started o name format =>
      refine iff_of_true ?_ id
      have hraw : rawFrameToOutput int startRequest sampleCursor (toLegacyFrame (.started o))
          = .ok (some (.started ⟨textOr (some o.sessionId) startRequest.sessionId,
              audioFormat (formatKeys o.audio) startRequest.audio, o.metaMap⟩, sampleCursor)) := rfl
      exact ⟨_, _, hraw, .started _ _ (textOr_some name) (audioFormat_formatKeys format)⟩
  | audio o name pcm format start stop =>
      refine iff_of_true ?_ id
      let metaMap := setDefault (setDefault o.metaMap "output_sample_start" o.outputSampleStart.repr)
        "output_sample_end" o.outputSampleEnd.repr
      refine ⟨.audio ⟨startRequest.sessionId, o.pcmBytes, o.audio, o.outputSampleStart,
        o.outputSampleEnd, metaMap⟩, o.outputSampleEnd, ?_, .audio _ _ name.symm rfl rfl rfl rfl⟩
      unfold toLegacyFrame rawFrameToOutput
      dsimp only
      rw [Option.getD_some, if_neg pcm, audioFormat_formatKeys format]
      have hne : "output_sample_start" ≠ "output_sample_end" := by decide
      have hstart := lookup_setDefault o.metaMap "output_sample_start" o.outputSampleStart.repr
      have hstop := lookup_setDefault (setDefault o.metaMap "output_sample_start" o.outputSampleStart.repr)
        "output_sample_end" o.outputSampleEnd.repr
      rw [lookup_setDefault_of_ne o.metaMap hne.symm] at hstop
      rw [← lookup_setDefault_of_ne _ hne o.outputSampleEnd.repr] at hstart
      rw [readSample_setDefault hint start hstart]
      dsimp only [bind, Except.bind]
      rw [readSample_setDefault hint stop hstop]
      rfl
  | event o name start done error =>
      have hraw : rawFrameToOutput int startRequest sampleCursor (toLegacyFrame (.event o))
          = .ok (some (.event ⟨textOr (some o.sessionId) startRequest.sessionId, o.eventType,
              intOr (some o.segmentId) (-1), o.text, o.message, o.metaMap⟩, sampleCursor)) := by
        unfold toLegacyFrame rawFrameToOutput
        simp only [Option.getD_some, if_neg start, done, error, or_self, if_false]
      unfold RoundTrips
      rw [hraw]
      constructor
      · rintro ⟨o', cursor, heq, hsame⟩ hfirst
        cases heq
        cases hsame with
        | event o o' sessionId eventType segmentId text message =>
            have hzero : o.segmentId = 0 := hfirst
            have hback : intOr (some o.segmentId) (-1) = o.segmentId := segmentId
            rw [hzero] at hback
            exact absurd hback (by decide)
      · intro hfirst
        exact ⟨_, _, rfl, .event _ _ (textOr_some name) rfl (intOr_some (.inl hfirst)) rfl rfl⟩
  | terminal o name reason =>
      refine iff_of_true ?_ id
      unfold RoundTrips toLegacyFrame rawFrameToOutput
      have htype : (if o.status = .failed then "error" else "done") ≠ "start" ∧
          ((if o.status = .failed then "error" else "done") = "done" ∨
            (if o.status = .failed then "error" else "done") = "error") := by
        split_ifs <;> decide
      simp only [Option.getD_some, if_neg htype.1, if_pos htype.2, lookup_setDefault]
      refine ⟨_, _, rfl, .terminal _ _ (textOr_some name) ?_ rfl⟩
      have hreason : (o.metrics.lookup "terminal_reason").getD o.status.value = "cancelled"
          ↔ o.status = .cancelled := by
        cases hlookup : o.metrics.lookup "terminal_reason" with
        | some literal => exact reason literal hlookup
        | none =>
            rw [Option.getD_none]
            cases o.status <;> decide
      dsimp only
      by_cases hcancelled : o.status = .cancelled
      · rw [if_pos (hreason.2 hcancelled), hcancelled]
      · rw [if_neg fun h => hcancelled (hreason.1 h)]
        cases hstatus : o.status with
        | cancelled => exact absurd hstatus hcancelled
        | completed => rfl
        | failed => rfl

/-- The place of the samples is read where the metadata are well formed. -/
theorem readSample_cases {metaMap : List (String × String)} {key : String}
    (h : ∀ literal, metaMap.lookup key = some literal →
      literal ≠ "" ∧ ∃ sample, int literal = some sample ∧ 0 ≤ sample) (default other : Int) :
    ∃ sample, readSample int metaMap key default other = .ok sample ∧
      (∀ literal, metaMap.lookup key = some literal → int literal = some sample ∧ 0 ≤ sample) ∧
      (metaMap.lookup key = none → sample = if default = 0 then other else default) := by
  cases hlookup : metaMap.lookup key with
  | none =>
      refine ⟨_, ?_, fun literal hl => (nomatch hl), fun _ => rfl⟩
      unfold readSample
      rw [hlookup]
  | some literal =>
      obtain ⟨hne, sample, hsample, hnonneg⟩ := h literal hlookup
      refine ⟨sample, readSample_eq hlookup hne hsample default other, fun literal' hl => ?_,
        fun hnone => (nomatch hnone)⟩
      cases hl
      exact ⟨hsample, hnonneg⟩

theorem sampleCount_nonneg (pcm : List UInt8) (encoding : String) (channels : Int) :
    0 ≤ sampleCount pcm encoding channels := by
  unfold sampleCount
  exact Int.ediv_nonneg (Int.natCast_nonneg _) (by omega)

/-- An audio frame gives audio up to the frame's end. -/
theorem rawFrameToOutput_audio (hcursor : 0 ≤ sampleCursor) {frame : AudioFrame}
    (h : WellFormed int (.audio frame)) :
    ∃ o cursor, rawFrameToOutput int startRequest sampleCursor (.audio frame) = .ok (some (o, cursor)) ∧
      Keeps int sampleCursor (.audio frame) o cursor := by
  obtain ⟨hpcm, hkeys⟩ := h
  obtain ⟨start, hreadStart, hgivenStart, hmissingStart⟩ :=
    readSample_cases (hkeys "output_sample_start" List.mem_cons_self) sampleCursor sampleCursor
  set format := audioFormat frame.format startRequest.audio with hformat
  obtain ⟨stop, hreadStop, hgivenStop, hmissingStop⟩ :=
    readSample_cases (hkeys "output_sample_end" (List.mem_cons_of_mem _ List.mem_cons_self))
      (start + sampleCount (frame.pcmData.getD []) format.encoding format.channels) start
  refine ⟨.audio ⟨startRequest.sessionId, frame.pcmData.getD [], format, start, stop, frame.metaMap⟩, stop,
    ?_, rfl, rfl, rfl, ?_⟩
  · unfold rawFrameToOutput
    dsimp only [bind, Except.bind]
    rw [if_neg hpcm, hreadStart]
    dsimp only
    rw [← hformat, hreadStop]
    rfl
  · unfold frameEnd
    dsimp only
    have hcount := sampleCount_nonneg (frame.pcmData.getD []) format.encoding format.channels
    cases hstop : frame.metaMap.lookup "output_sample_end" with
    | some literal => exact (hgivenStop literal hstop).1
    | none =>
        have hend := hmissingStop hstop
        -- an end at the sample 0 is the start, which is 0 then
        have hsum : 0 ≤ start → stop
            = start + sampleCount (frame.pcmData.getD []) format.encoding format.channels := by
          intro hnonneg
          rw [hend]
          split_ifs with hzero
          · omega
          · rfl
        dsimp only
        cases hbegin : frame.metaMap.lookup "output_sample_start" with
        | some literal =>
            obtain ⟨hread, hnonneg⟩ := hgivenStart literal hbegin
            exact ⟨start, hread, hsum hnonneg⟩
        | none =>
            have hcursorStart : start = sampleCursor := by
              rw [hmissingStart hbegin]
              exact ite_self _
            rw [← hcursorStart]
            exact hsum (by omega)

/-- An event frame keeps the cursor, and its segment unless that is the segment 0. -/
theorem rawFrameToOutput_event (frame : EventFrame) :
    (∃ o cursor, rawFrameToOutput int startRequest sampleCursor (.event frame) = .ok (some (o, cursor)) ∧
      Keeps int sampleCursor (.event frame) o cursor) ↔ ¬ FrameOfFirstSegment (.event frame) := by
  have htypes : frame.type.getD "" ∈ ["start", "done", "error"] ↔ frame.type.getD "" = "start" ∨
      frame.type.getD "" = "done" ∨ frame.type.getD "" = "error" := by
    simp only [List.mem_cons, List.not_mem_nil, or_false]
  unfold rawFrameToOutput FrameOfFirstSegment
  by_cases hstart : frame.type.getD "" = "start"
  · simp only [if_pos hstart]
    exact iff_of_true ⟨_, _, rfl, rfl, rfl⟩ fun h => h.2 (htypes.2 (.inl hstart))
  · by_cases hend : frame.type.getD "" = "done" ∨ frame.type.getD "" = "error"
    · simp only [if_neg hstart, if_pos hend]
      exact iff_of_true ⟨_, _, rfl, rfl, rfl, rfl⟩ fun h => h.2 (htypes.2 (.inr hend))
    · simp only [if_neg hstart, if_neg hend]
      have hother : frame.type.getD "" ∉ ["start", "done", "error"] := by
        rw [htypes]
        exact fun h => h.elim hstart hend
      constructor
      · rintro ⟨o, cursor, heq, hkeeps⟩ ⟨hzero, -⟩
        cases heq
        have hsegment : intOr (some (frame.segmentId.getD (-1))) (-1) = frame.segmentId.getD (-1) :=
          hkeeps.1
        rw [hzero] at hsegment
        exact absurd hsegment (by decide)
      · intro hfirst
        have hne : frame.segmentId.getD (-1) ≠ 0 := by
          intro hzero
          refine hfirst ⟨?_, hother⟩
          cases hsegment : frame.segmentId with
          | none =>
              rw [hsegment] at hzero
              exact absurd hzero (by decide)
          | some segment =>
              rw [hsegment] at hzero
              exact congrArg some hzero
        exact ⟨_, _, rfl, intOr_some (.inl hne), rfl, rfl, rfl, rfl⟩

/-- What the gateway makes of a well-formed frame is an output that the engine can produce. -/
theorem producible_of_rawFrame {frame : LegacyFrame} {o : SessionOutput} {cursor : Int}
    (h : WellFormed int frame)
    (ho : rawFrameToOutput int startRequest sampleCursor frame = .ok (some (o, cursor))) :
    Producible int startRequest o := by
  have hname : ∀ name : Option String,
      textOr name startRequest.sessionId ≠ "" ∨ startRequest.sessionId = "" := by
    intro name
    unfold textOr
    split_ifs with hempty
    · exact (em (startRequest.sessionId = "")).symm
    · exact .inl hempty
  cases frame with
  | other type => exact h.elim
  | audio frame =>
      obtain ⟨hpcm, hkeys⟩ := h
      unfold rawFrameToOutput at ho
      dsimp only at ho
      rw [if_neg hpcm] at ho
      obtain ⟨start, hreadStart, hgivenStart, -⟩ :=
        readSample_cases (hkeys "output_sample_start" List.mem_cons_self) sampleCursor sampleCursor
      rw [hreadStart] at ho
      dsimp only [bind, Except.bind] at ho
      obtain ⟨stop, hreadStop, hgivenStop, -⟩ :=
        readSample_cases (hkeys "output_sample_end" (List.mem_cons_of_mem _ List.mem_cons_self))
          (start + sampleCount (frame.pcmData.getD []) (audioFormat frame.format startRequest.audio).encoding
            (audioFormat frame.format startRequest.audio).channels) start
      rw [hreadStop] at ho
      cases ho
      refine .audio _ rfl hpcm (audioFormat_given _ _) (fun literal hl => ?_) (fun literal hl => ?_)
      · exact ⟨(hkeys _ List.mem_cons_self literal hl).1, (hgivenStart literal hl).1⟩
      · exact ⟨(hkeys _ (List.mem_cons_of_mem _ List.mem_cons_self) literal hl).1,
          (hgivenStop literal hl).1⟩
  | event frame =>
      unfold rawFrameToOutput at ho
      dsimp only at ho
      split_ifs at ho with hstart hend hcancelled
      · cases ho
        exact .started _ (hname _) (audioFormat_given _ _)
      · cases ho
        refine .terminal _ (hname _) fun reason hlookup => ?_
        have hreason : reason = "cancelled" := by
          rw [← hcancelled]
          exact (congrArg (fun r : Option String => r.getD "") hlookup).symm
        exact iff_of_true hreason rfl
      · cases ho
        refine .terminal _ (hname _) fun reason hlookup => iff_of_false (fun hreason => ?_) nofun
        refine hcancelled ?_
        rw [← hreason]
        exact congrArg (fun r : Option String => r.getD "") hlookup
      · cases ho
        refine .terminal _ (hname _) fun reason hlookup => iff_of_false (fun hreason => ?_) nofun
        refine hcancelled ?_
        rw [← hreason]
        exact congrArg (fun r : Option String => r.getD "") hlookup
      · cases ho
        exact .event _ (hname _) hstart (fun hdone => hend (.inl hdone)) fun herror => hend (.inr herror)

/-- **The shim.** An output that the engine can produce comes back the same, and a frame keeps its fields
and moves the cursor to its end, exactly when it is not an event of the segment 0. -/
theorem shim_transparent_iff (hint : ∀ n : Int, int n.repr = some n) (hcursor : 0 ≤ sampleCursor) :
    (∀ o, Producible int startRequest o →
      (RoundTrips int startRequest sampleCursor o ↔ ¬ OfFirstSegment o)) ∧
    ∀ frame, WellFormed int frame →
      ((∃ o cursor, rawFrameToOutput int startRequest sampleCursor frame = .ok (some (o, cursor)) ∧
        Keeps int sampleCursor frame o cursor) ↔ ¬ FrameOfFirstSegment frame) := by
  refine ⟨fun o ho => roundTrips_iff hint ho, fun frame hframe => ?_⟩
  cases frame with
  | audio frame => exact iff_of_true (rawFrameToOutput_audio hcursor hframe) id
  | event frame => exact rawFrameToOutput_event frame
  | other type => exact hframe.elim

end

/-- A session without a name for its events. -/
def monoRequest : SessionStartRequest := ⟨"sid", ⟨"pcm_f32", 24000, 1⟩⟩

/-- An event at the start of a segment. -/
def segmentStart (segmentId : Int) : EventOutput := ⟨"sid", "segment_start", segmentId, "", "", []⟩

/-- The second segment comes back. -/
theorem shim_transparent_secondSegment :
    RoundTrips String.toInt? monoRequest 0 (.event (segmentStart 1)) ∧ ∃ o cursor,
      rawFrameToOutput String.toInt? monoRequest 0 (toLegacyFrame (.event (segmentStart 1)))
        = .ok (some (o, cursor)) ∧
      Keeps String.toInt? 0 (toLegacyFrame (.event (segmentStart 1))) o cursor := by
  have hshim := @shim_transparent_iff String.toInt? monoRequest 0 Int.toInt?_repr (Int.le_refl 0)
  refine ⟨(hshim.1 _ (.event _ (.inl (by decide)) (by decide) (by decide) (by decide))).2 fun hfirst => ?_,
    (hshim.2 (toLegacyFrame (.event (segmentStart 1))) trivial).2 fun hfirst => ?_⟩
  · exact absurd (show (1 : Int) = 0 from hfirst) (by decide)
  · exact absurd hfirst.1 (by decide)

/-- The first segment comes back as no segment. -/
theorem first_segment_lost :
    Producible String.toInt? monoRequest (.event (segmentStart 0)) ∧
      ¬ RoundTrips String.toInt? monoRequest 0 (.event (segmentStart 0)) ∧
      rawFrameToOutput String.toInt? monoRequest 0 (toLegacyFrame (.event (segmentStart 0)))
        = .ok (some (.event (segmentStart (-1)), 0)) := by
  have hproducible : Producible String.toInt? monoRequest (.event (segmentStart 0)) :=
    .event _ (.inl (by decide)) (by decide) (by decide) (by decide)
  exact ⟨hproducible, fun h => (roundTrips_iff Int.toInt?_repr hproducible).1 h rfl, rfl⟩

end StreamingTts.Gateway.Shim
