import StreamingTts.Client.RealtimeDelivery

/-!
# How the browser client takes the events of its server

`handleResponseEvent` and `trackDelivery` of `RealtimeTTSClient` in
`web/packages/browser-sdk/src/realtime-client.ts`, while a response is active. The events are those of
`Client.RealtimeDelivery`. The client checks no delivery number; it remembers the largest one among the
events it has a branch for, and it writes one acknowledgement, with the end of the response.
-/

namespace StreamingTts.Client

open Session (TerminalStatus)

namespace Browser

open Realtime (ServerEvent ResponseObject TextEventKind)

/-- The fields of the client and of its `ActiveResponse` that the events of a response work on. -/
structure Reader where
  lastDeliverySequence : Int
  responseId : String
  sampleCursor : Int
  nextSequence : Int
  acceptedSequence : Int
  deriving DecidableEq, Repr

/-- `createResponse`. -/
def Reader.init : Reader := ⟨0, "", 0, 1, 0⟩

/-- The event that resolves `done`. -/
inductive TerminalEvent
  | completed (responseId : String)
  | cancelled (responseId : String)
  | error (code message : String)
  deriving DecidableEq, Repr

/-- What the handler of an event comes to. -/
inductive Handled
  | goesOn (reader : Reader)
  /-- the response is over; `ack` is the cursor of the `qwen.response.terminal_ack` -/
  | ends (event : TerminalEvent) (ack : Option (Int × Int))
  /-- an exception leaves `onmessage` -/
  | throws
  deriving DecidableEq, Repr

namespace Reader

variable (s : Reader)

/-- `trackDelivery`. -/
def trackDelivery (seq : Option Int) : Reader :=
  if 0 < seq.getD 0 then { s with lastDeliverySequence := max s.lastDeliverySequence (seq.getD 0) }
  else s

/-- The branch for `response.output_audio.delta`. `BigInt` throws for half a sample. -/
def handleAudioDelta (delta : Option (List UInt8)) (seq sampleStart sampleEnd : Option Int) : Handled :=
  let s := s.trackDelivery seq
  match delta with
  | none => .throws
  | some bytes =>
      if bytes.length % 2 ≠ 0 then .throws
      else
        let start := sampleStart.getD s.sampleCursor
        let expected := start + (bytes.length / 2 : Nat)
        let stop := sampleEnd.getD expected
        if start ≠ s.sampleCursor ∨ stop ≠ expected then
          .ends (.error "non_contiguous_audio" "Realtime audio sample cursor is not contiguous") none
        else .goesOn { s with sampleCursor := stop }

/-- The event that a `response.done` resolves the run with. -/
def terminalEvent (response : ResponseObject) : TerminalEvent :=
  match response.status with
  | .cancelled => .cancelled response.id
  | .failed =>
      .error "synthesis_failed" (if response.failure = "" then "Synthesis failed" else response.failure)
  | .completed => .completed response.id

/-- `handleResponseEvent` of an active response. -/
def handleResponseEvent : ServerEvent → Handled
  | .error code message => .ends (.error code message) none
  | .responseCreated id => .goesOn { s with responseId := id }
  | .textAck sequence =>
      if sequence < s.acceptedSequence ∨ sequence ≥ s.nextSequence then .throws
      else .goesOn { s with acceptedSequence := sequence }
  | .audioDelta delta seq sampleStart sampleEnd =>
      s.handleAudioDelta delta seq sampleStart sampleEnd
  | .text .textProgress _ _ _ seq _ => .goesOn (s.trackDelivery seq)
  | .responseDone response seq _ =>
      let s := s.trackDelivery seq
      .ends (terminalEvent response) (some (s.lastDeliverySequence, s.sampleCursor))
  | _ => .goesOn s

end Reader

end Browser

end StreamingTts.Client
