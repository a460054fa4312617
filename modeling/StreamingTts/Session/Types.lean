import Mathlib.Data.List.Basic

/-!
# Typed outputs of one logical synthesis

The closed output types of `engine/session/types.py`. Dictionaries are association lists, and the
values of `metrics` and `usage` are carried as the text the wire projections print of them.
-/

namespace StreamingTts.Session

/-- How a logical session ended (`TerminalStatus`). -/
inductive TerminalStatus
  | completed
  | cancelled
  | failed
  deriving DecidableEq, Repr

/-- The wire spelling of a terminal status. -/
def TerminalStatus.value : TerminalStatus → String
  | .completed => "completed"
  | .cancelled => "cancelled"
  | .failed => "failed"

/-- The final format of an audio payload (`AudioFormat`). -/
structure AudioFormat where
  encoding : String
  sampleRate : Int
  channels : Int
  deriving DecidableEq, Repr

/-- The first output of a session (`StartedOutput`). -/
structure StartedOutput where
  sessionId : String
  audio : AudioFormat
  metaMap : List (String × String) := []
  deriving DecidableEq, Repr

/-- One chunk of audio with its place on the output sample axis (`AudioOutput`). -/
structure AudioOutput where
  sessionId : String
  pcmBytes : List UInt8
  audio : AudioFormat
  outputSampleStart : Int
  outputSampleEnd : Int
  metaMap : List (String × String) := []
  deriving DecidableEq, Repr

/-- A text or progress event (`EventOutput`). -/
structure EventOutput where
  sessionId : String
  eventType : String
  segmentId : Int := -1
  text : String := ""
  message : String := ""
  metaMap : List (String × String) := []
  deriving DecidableEq, Repr

/-- The last output of a session (`TerminalOutput`). -/
structure TerminalOutput where
  sessionId : String
  status : TerminalStatus
  message : String := ""
  metrics : List (String × String) := []
  usage : List (String × String) := []
  deriving DecidableEq, Repr

/-- The outputs a logical session produces (`SessionOutput`). -/
inductive SessionOutput
  | started (o : StartedOutput)
  | audio (o : AudioOutput)
  | event (o : EventOutput)
  | terminal (o : TerminalOutput)
  deriving DecidableEq, Repr

end StreamingTts.Session
