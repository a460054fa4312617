import Mathlib
import StreamingTts.Lib.Transition

/-!
# Guarded delivery

`DeliveryHoldWindow` and `PrefixGateGuardBypass` of `engine/frontend/hold_window.py`, `SemanticStartGate` of
`engine/frontend/text_commitment/start_gate.py`, and the path of a chunk through them in `_consume_results` of
`engine/frontend/interface.py`: `_deliver`, `_send_chunks`, `_settle_hold` and the two tickers. The lock of the
hold is taken for a release and kept until the batch is behind the gate, the lock of the gate is taken for
what happens to the batch there; `inFlight` is the batch between the two, and an event is one critical
section. Any of them may come at any time its lock is free.

Chunks leave in the order they came, each once, and only those that a verdict condemns are lost
(`chunks_conserved`); the hold releases no more than the playback window and one chunk (`release_paced`).
-/

namespace StreamingTts.Frontend.GuardedDelivery

open Lib (run run_invariant)

/-- An audio chunk of a segment, as it comes out of the reorder buffer. -/
structure Chunk where
  segmentIdx : Int
  pcm : List UInt8
  nonempty : pcm ≠ []
  deriving DecidableEq

/-- The length of a chunk. -/
def Chunk.size (c : Chunk) : Nat := c.pcm.length

/-- The bytes of some chunks. -/
def bytes (cs : List Chunk) : Nat := (cs.map Chunk.size).sum

/-! ## The hold -/

/-- `DeliveryHoldWindow`. -/
structure DeliveryHoldWindow where
  windowSec : ℚ
  bytesPerSec : ℚ
  clockStart : Option ℚ := none
  releasedBytes : Nat := 0
  held : List Chunk := []

namespace DeliveryHoldWindow

variable (w : DeliveryHoldWindow)

/-- `held_bytes`. -/
def heldBytes : Nat := bytes w.held

/-- `push` of one chunk. -/
def push (c : Chunk) : DeliveryHoldWindow := { w with held := w.held ++ [c] }

/-- `record_external_release`. -/
def recordExternalRelease (now : ℚ) (audioBytes : Nat) : DeliveryHoldWindow :=
  if audioBytes = 0 then w
  else { w with
    clockStart := some (w.clockStart.getD now)
    releasedBytes := w.releasedBytes + audioBytes }

/-- The loop of `release_due`: what is released, and what stays. -/
def releaseLoop (budgetBytes : ℚ) : Nat → List Chunk → List Chunk × List Chunk
  | _, [] => ([], [])
  | released, c :: cs =>
      if (released : ℚ) < budgetBytes then
        let (out, rest) := releaseLoop budgetBytes (released + c.size) cs
        (c :: out, rest)
      else ([], c :: cs)

/-- The bytes that the client may have played or buffered. -/
def budgetBytes (start now : ℚ) : ℚ := (now - start + w.windowSec) * w.bytesPerSec

/-- `release_due`. -/
def releaseDue (now : ℚ) : List Chunk × DeliveryHoldWindow :=
  if w.held = [] then ([], w)
  else
    let start := w.clockStart.getD now
    let (out, rest) := releaseLoop (w.budgetBytes start now) w.releasedBytes w.held
    (out, { w with
      clockStart := some start
      releasedBytes := w.releasedBytes + bytes out
      held := rest })

/-- `flush`. -/
def flush : List Chunk × DeliveryHoldWindow :=
  (w.held, { w with releasedBytes := w.releasedBytes + bytes w.held, held := [] })

/-- `discard`. -/
def discard : DeliveryHoldWindow := { w with held := [] }

/-- The loop of `discard_tail`, on the newest chunks first. -/
def discardLoop : Int → List Chunk → List Chunk
  | _, [] => []
  | remaining, c :: cs => if 0 < remaining then discardLoop (remaining - c.size) cs else c :: cs

/-- `discard_tail`. -/
def discardTail (discardBytes : Int) : DeliveryHoldWindow :=
  { w with held := (discardLoop discardBytes w.held.reverse).reverse }

end DeliveryHoldWindow

/-! ## The gate -/

/-- `SemanticStartGate`. -/
structure SemanticStartGate where
  bytesPerSec : ℚ
  minAudioMs : ℚ := 160
  maxHoldMs : ℚ := 300
  startedAt : Option ℚ := none
  held : List Chunk := []
  released : Bool := false

namespace SemanticStartGate

variable (g : SemanticStartGate)

/-- `push`. -/
def push (now : ℚ) (cs : List Chunk) : SemanticStartGate :=
  { g with
    startedAt := if cs = [] then g.startedAt else some (g.startedAt.getD now)
    held := if g.released then g.held else g.held ++ cs }

/-- `held_audio_ms`. -/
def heldAudioMs : ℚ := bytes g.held / g.bytesPerSec * 1000

/-- `_drain`. -/
def drain : List Chunk × SemanticStartGate := (g.held, { g with held := [] })

/-- `release_due`. -/
def releaseDue (now : ℚ) (semanticPending : Bool) (safeWaitMs : ℚ) : List Chunk × SemanticStartGate :=
  if g.held = [] then ([], g)
  else if g.released then g.drain
  else
    let elapsedMs := match g.startedAt with
      | none => 0
      | some start => (now - start) * 1000
    let timedOut := g.maxHoldMs ≤ elapsedMs
    let enoughAudio := g.minAudioMs ≤ g.heldAudioMs
    let enoughCredit := min g.maxHoldMs g.heldAudioMs ≤ safeWaitMs
    if timedOut ∨ !semanticPending ∧ (enoughAudio ∨ enoughCredit) then { g with released := true }.drain
    else ([], g)

/-- `flush`. -/
def flush : List Chunk × SemanticStartGate := { g with released := true }.drain

/-- The loop of `discard_segment`, on the newest chunks first. -/
def discardLoop (segmentIdx : Int) (discardAll : Bool) : Int → List Chunk → List Chunk
  | _, [] => []
  | remaining, c :: cs =>
      if c.segmentIdx ≠ segmentIdx then c :: discardLoop segmentIdx discardAll remaining cs
      else if discardAll ∨ 0 < remaining then discardLoop segmentIdx discardAll (remaining - c.size) cs
      else c :: discardLoop segmentIdx discardAll remaining cs

/-- `discard_segment`. -/
def discardSegment (segmentIdx : Int) (discardAll : Bool) (discardBytes : Int) : SemanticStartGate :=
  { g with held := (discardLoop segmentIdx discardAll (max discardBytes 0) g.held.reverse).reverse }

end SemanticStartGate

/-! ## The path of a chunk -/

/-- The verdict on a segment, as far as its audio goes. -/
structure Verdict where
  segIdx : Int
  discardAll : Bool
  discardBytes : Int
  deriving DecidableEq

/-- The delivery of a session: the hold, the gate, if there is one, and whether the prefix gate is waiting.
`came` and `sent` are the chunks that came and those that `on_audio` was called with, `unpaced` the bytes
that left the hold by a flush or around it. -/
structure Delivery where
  now : ℚ
  hold : DeliveryHoldWindow
  gate : Option SemanticStartGate
  bypass : Bool
  inFlight : Option (List Chunk) := none
  came : List Chunk := []
  sent : List Chunk := []
  unpaced : Nat := 0

/-- A session; one with a prefix gate has no semantic gate. -/
inductive Mode
  | plain
  | prefixGate
  | semanticGate (minAudioMs maxHoldMs : ℚ)

/-- The delivery of a new session: `_guarded_hold_for` keeps the window between 100 ms and 10 s, and the audio
is float32. -/
def Delivery.new (now windowMs : ℚ) (sampleRate : Nat) (mode : Mode) : Delivery where
  now := now
  hold := { windowSec := min (max windowMs 100) 10000 / 1000, bytesPerSec := sampleRate * 4 }
  gate := match mode with
    | .semanticGate minAudioMs maxHoldMs =>
        some { bytesPerSec := max (sampleRate * 4) 1, minAudioMs := max minAudioMs 0,
               maxHoldMs := max maxHoldMs 0 }
    | .plain | .prefixGate => none
  bypass := match mode with
    | .prefixGate => true
    | .plain | .semanticGate .. => false

namespace Delivery

variable (d : Delivery)

/-- `_deliver` of a chunk that waits for the first effective one: it goes around the hold. `effective` are
the bytes of that one, if it is marked while the chunk is sent. -/
def deliverPrefix (c : Chunk) (effective : Option Nat) : Delivery :=
  { d with
    came := d.came ++ [c]
    sent := d.sent ++ [c]
    bypass := effective.isNone
    unpaced := d.unpaced + effective.getD 0
    hold := match effective with
      | some audioBytes => d.hold.recordExternalRelease d.now audioBytes
      | none => d.hold }

/-- `_deliver` of another chunk, up to its release. -/
def deliver (c : Chunk) : Delivery :=
  { d with came := d.came ++ [c], hold := d.hold.push c }

/-- A release under the lock of the hold, of `_deliver` or of the ticker. -/
def release : Delivery :=
  { d with inFlight := some (d.hold.releaseDue d.now).1, hold := (d.hold.releaseDue d.now).2 }

/-- `_settle_hold` under the lock of the hold. -/
def settle (v : Verdict) : Delivery :=
  let gate := if v.discardAll ∨ 0 < v.discardBytes then
      d.gate.map (·.discardSegment v.segIdx v.discardAll v.discardBytes) else d.gate
  let kept := if v.discardAll then d.hold.discard
    else if 0 < v.discardBytes then d.hold.discardTail v.discardBytes else d.hold
  { d with
    gate := gate
    inFlight := some kept.flush.1
    hold := kept.flush.2
    unpaced := d.unpaced + bytes kept.flush.1 }

/-- `_send_chunks` of a batch, under the lock of the gate. -/
def sendChunks (cs : List Chunk) (semanticPending : Bool) (safeWaitMs : ℚ) : Delivery :=
  match d.gate with
  | none => { d with inFlight := none, sent := d.sent ++ cs }
  | some g =>
      if cs = [] then { d with inFlight := none }
      else if g.released then { d with inFlight := none, sent := d.sent ++ cs }
      else
        let due := (g.push d.now cs).releaseDue d.now semanticPending safeWaitMs
        { d with inFlight := none, gate := some due.2, sent := d.sent ++ due.1 }

/-- `_release_semantic_due`. -/
def releaseSemanticDue (force semanticPending : Bool) (safeWaitMs : ℚ) : Delivery :=
  match d.gate with
  | none => d
  | some g =>
      let due := if force then g.flush else g.releaseDue d.now semanticPending safeWaitMs
      { d with gate := some due.2, sent := d.sent ++ due.1 }

end Delivery

/-- What happens to a delivery. -/
inductive Event
  | elapse (seconds : ℚ≥0)
  | deliver (c : Chunk) (effective : Option Nat)
  | release
  | settle (v : Verdict)
  | send (semanticPending : Bool) (safeWaitMs : ℚ)
  | semanticTick (force semanticPending : Bool) (safeWaitMs : ℚ)

/-- An event; a section whose lock is taken does not run. -/
def step (d : Delivery) : Event → Delivery
  | .elapse seconds => { d with now := d.now + seconds }
  | .deliver c effective => if d.bypass then d.deliverPrefix c effective else d.deliver c
  | .release => if d.inFlight.isSome then d else d.release
  | .settle v => if d.inFlight.isSome then d else d.settle v
  | .send semanticPending safeWaitMs =>
      match d.inFlight with
      | some cs => d.sendChunks cs semanticPending safeWaitMs
      | none => d
  | .semanticTick force semanticPending safeWaitMs => d.releaseSemanticDue force semanticPending safeWaitMs

/-! ## What one section does -/

namespace DeliveryHoldWindow

/-- What is released comes before what stays. -/
theorem releaseLoop_append (budgetBytes : ℚ) (released : Nat) (cs : List Chunk) :
    (releaseLoop budgetBytes released cs).1 ++ (releaseLoop budgetBytes released cs).2 = cs := by
  induction cs generalizing released with
  | nil => rfl
  | cons c cs ih =>
      unfold releaseLoop
      split
      · exact congrArg (c :: ·) (ih (released + c.size))
      · rfl

/-- What is released is within the budget, but for the last chunk. -/
theorem releaseLoop_le (budgetBytes : ℚ) (m : Nat) (released : Nat) (cs : List Chunk)
    (hsize : ∀ c ∈ cs, c.size ≤ m) :
    (releaseLoop budgetBytes released cs).1 = [] ∨
      ((released + bytes (releaseLoop budgetBytes released cs).1 : Nat) : ℚ) ≤ budgetBytes + m := by
  induction cs generalizing released with
  | nil => exact .inl rfl
  | cons c cs ih =>
      unfold releaseLoop
      split
      · next hdue =>
        right
        have hc : (c.size : ℚ) ≤ m := Nat.cast_le.2 (hsize c List.mem_cons_self)
        have hbytes : bytes (c :: (releaseLoop budgetBytes (released + c.size) cs).1) =
            c.size + bytes (releaseLoop budgetBytes (released + c.size) cs).1 := rfl
        show ((released + bytes (c :: (releaseLoop budgetBytes (released + c.size) cs).1) : Nat) : ℚ) ≤ _
        rw [hbytes, ← Nat.add_assoc]
        rcases ih (released + c.size) (fun c' hc' => hsize c' (List.mem_cons_of_mem _ hc')) with hnil | hle
        · rw [hnil]
          have hsum : bytes [] = 0 := rfl
          rw [hsum, Nat.add_zero, Nat.cast_add]
          linarith
        · exact hle
      · exact .inl rfl

/-- What is due is released. -/
theorem releaseLoop_due (budgetBytes : ℚ) (released : Nat) (cs : List Chunk) :
    (releaseLoop budgetBytes released cs).2 = [] ∨
      budgetBytes ≤ ((released + bytes (releaseLoop budgetBytes released cs).1 : Nat) : ℚ) := by
  induction cs generalizing released with
  | nil => exact .inl rfl
  | cons c cs ih =>
      unfold releaseLoop
      split
      · have hbytes : bytes (c :: (releaseLoop budgetBytes (released + c.size) cs).1) =
            c.size + bytes (releaseLoop budgetBytes (released + c.size) cs).1 := rfl
        show (releaseLoop budgetBytes (released + c.size) cs).2 = [] ∨ budgetBytes ≤
          ((released + bytes (c :: (releaseLoop budgetBytes (released + c.size) cs).1) : Nat) : ℚ)
        rw [hbytes, ← Nat.add_assoc]
        exact ih (released + c.size)
      · next hover => exact .inr (not_lt.1 hover)

theorem releaseDue_append (w : DeliveryHoldWindow) (now : ℚ) :
    (w.releaseDue now).1 ++ (w.releaseDue now).2.held = w.held := by
  unfold releaseDue
  split
  · rfl
  · exact releaseLoop_append _ _ _

/-- `discard_tail` keeps the older chunks and drops the fewest newest ones that reach the bytes. -/
theorem discardLoop_spec (remaining : Int) (cs : List Chunk) :
    ∃ dropped, cs = dropped ++ discardLoop remaining cs ∧
      (discardLoop remaining cs = [] ∨ remaining ≤ bytes dropped) ∧
      ∀ pre c, dropped = pre ++ [c] → (bytes pre : Int) < remaining := by
  induction cs generalizing remaining with
  | nil =>
      refine ⟨[], rfl, .inl rfl, ?_⟩
      intro pre c hpre
      exact absurd hpre.symm (List.append_ne_nil_of_right_ne_nil pre (List.cons_ne_nil c []))
  | cons c cs ih =>
      unfold discardLoop
      split
      · next hpos =>
        obtain ⟨dropped, hsplit, hall, hfew⟩ := ih (remaining - c.size)
        have hbytes : ∀ ds, bytes (c :: ds) = c.size + bytes ds := fun ds => rfl
        refine ⟨c :: dropped, congrArg (c :: ·) hsplit, ?_, ?_⟩
        · rcases hall with hnil | hle
          · exact .inl hnil
          · rw [hbytes, Nat.cast_add]
            exact .inr (by omega)
        · intro pre c' hpre
          cases pre with
          | nil => exact hpos
          | cons c'' pre =>
              obtain ⟨rfl, hrest⟩ := List.cons.inj hpre
              have hlt := hfew pre c' hrest
              rw [hbytes, Nat.cast_add]
              omega
      · next hdone =>
        refine ⟨[], rfl, .inr ?_, ?_⟩
        · have hzero : bytes [] = 0 := rfl
          rw [hzero]
          omega
        · intro pre c' hpre
          exact absurd hpre.symm (List.append_ne_nil_of_right_ne_nil pre (List.cons_ne_nil c' []))

theorem discardTail_sublist (w : DeliveryHoldWindow) (discardBytes : Int) :
    (w.discardTail discardBytes).held.Sublist w.held := by
  obtain ⟨dropped, hsplit, -⟩ := discardLoop_spec discardBytes w.held.reverse
  show (discardLoop discardBytes w.held.reverse).reverse.Sublist w.held
  rw [← List.reverse_sublist, List.reverse_reverse]
  conv_rhs => rw [hsplit]
  exact List.sublist_append_right _ _

end DeliveryHoldWindow

namespace SemanticStartGate

/-- A gate that is open holds nothing. -/
def Open (g : SemanticStartGate) : Prop := g.released = true → g.held = []

theorem releaseDue_spec {g : SemanticStartGate} (h : g.Open) (now : ℚ) (semanticPending : Bool)
    (safeWaitMs : ℚ) :
    (g.releaseDue now semanticPending safeWaitMs).1 ++ (g.releaseDue now semanticPending safeWaitMs).2.held =
        g.held ∧
      (g.releaseDue now semanticPending safeWaitMs).2.Open := by
  unfold releaseDue
  split
  · next hnil => exact ⟨rfl, h⟩
  · split
    · exact ⟨List.append_nil _, fun _ => rfl⟩
    · next hclosed =>
      split <;> dsimp only
      · split
        · exact ⟨List.append_nil _, fun _ => rfl⟩
        · exact ⟨rfl, h⟩
      · split
        · exact ⟨List.append_nil _, fun _ => rfl⟩
        · exact ⟨rfl, h⟩

theorem discardLoop_sublist (segmentIdx : Int) (discardAll : Bool) (remaining : Int) (cs : List Chunk) :
    (discardLoop segmentIdx discardAll remaining cs).Sublist cs := by
  induction cs generalizing remaining with
  | nil => exact List.Sublist.refl _
  | cons c cs ih =>
      unfold discardLoop
      split
      · exact (ih remaining).cons_cons c
      · split
        · exact (ih (remaining - c.size)).cons c
        · exact (ih remaining).cons_cons c

theorem discardSegment_spec {g : SemanticStartGate} (h : g.Open) (segmentIdx : Int) (discardAll : Bool)
    (discardBytes : Int) :
    (g.discardSegment segmentIdx discardAll discardBytes).held.Sublist g.held ∧
      (g.discardSegment segmentIdx discardAll discardBytes).Open := by
  refine ⟨?_, ?_⟩
  · rw [← List.reverse_sublist]
    show (discardLoop _ _ _ _).reverse.reverse.Sublist _
    rw [List.reverse_reverse]
    exact discardLoop_sublist _ _ _ _
  · intro hreleased
    show (discardLoop _ _ _ g.held.reverse).reverse = []
    rw [h hreleased]
    rfl

end SemanticStartGate

/-! ## The order of the chunks -/

namespace Delivery

/-- The chunks that the gate holds. -/
def gateHeld (d : Delivery) : List Chunk :=
  match d.gate with
  | some g => g.held
  | none => []

/-- The chunks on their way, the oldest first. -/
def onWay (d : Delivery) : List Chunk := d.gateHeld ++ d.inFlight.getD [] ++ d.hold.held

/-- The chunks that were sent or are on their way. -/
def path (d : Delivery) : List Chunk := d.sent ++ d.onWay

/-- The gate holds nothing once it is open, and nothing is on its way while the prefix gate waits. -/
structure Shaped (d : Delivery) : Prop where
  gate : ∀ g, d.gate = some g → g.Open
  bypass : d.bypass = true → d.gate = none ∧ d.onWay = []

end Delivery

/-- The chunks that an event brings. -/
def Event.arrived : Event → List Chunk
  | .deliver c _ => [c]
  | _ => []

/-- A verdict that condemns audio. -/
def Event.Condemns : Event → Prop
  | .settle v => v.discardAll = true ∨ 0 < v.discardBytes
  | _ => False

/-- An event keeps the order of the chunks on their way: it adds the one that came at the end, and takes some
out of them only if it condemns them. -/
structure Moves (d d' : Delivery) (e : Event) : Prop where
  shaped : d'.Shaped
  came : d'.came = d.came ++ e.arrived
  path : ∃ kept, kept.Sublist d.path ∧ d'.path = kept ++ e.arrived ∧ (¬ e.Condemns → kept = d.path)

section
variable {d : Delivery}

theorem Delivery.Shaped.moves_of_eq (h : d.Shaped) {d' : Delivery} {e : Event} (harrived : e.arrived = [])
    (hgate : ∀ g, d'.gate = some g → g.Open) (hbypass : d'.bypass = d.bypass)
    (hnone : d.gate = none → d'.gate = none ∧ (d.onWay = [] → d'.onWay = [])) (hcame : d'.came = d.came)
    (hpath : d'.path = d.path) : Moves d d' e := by
  refine ⟨⟨hgate, ?_⟩, ?_, d.path, List.Sublist.refl _, ?_, fun _ => rfl⟩
  · intro hwaiting
    rw [hbypass] at hwaiting
    obtain ⟨hno, hnothing⟩ := h.bypass hwaiting
    exact ⟨(hnone hno).1, (hnone hno).2 hnothing⟩
  · rw [harrived, List.append_nil, hcame]
  · rw [harrived, List.append_nil, hpath]

theorem Delivery.Shaped.deliver (h : d.Shaped) (c : Chunk) (effective : Option Nat) :
    Moves d (step d (.deliver c effective)) (.deliver c effective) := by
  unfold step
  dsimp only
  split
  · next hwaiting =>
    obtain ⟨hgate, hnothing⟩ := h.bypass hwaiting
    have hheld : (d.deliverPrefix c effective).hold.held = d.hold.held := by
      cases effective with
      | none => rfl
      | some audioBytes =>
          unfold Delivery.deliverPrefix DeliveryHoldWindow.recordExternalRelease
          dsimp only
          split <;> rfl
    have honWay : (d.deliverPrefix c effective).onWay = d.onWay := by
      unfold Delivery.onWay
      rw [hheld]
      rfl
    refine ⟨⟨?_, ?_⟩, rfl, d.path, List.Sublist.refl _, ?_, fun _ => rfl⟩
    · intro g hg
      cases hgate.symm.trans hg
    · intro _
      exact ⟨hgate, honWay.trans hnothing⟩
    · unfold Delivery.path
      rw [honWay, hnothing, List.append_nil, List.append_nil]
      rfl
  · next hopen =>
    refine ⟨⟨h.gate, fun hwaiting => absurd hwaiting hopen⟩, rfl, d.path, List.Sublist.refl _, ?_,
      fun _ => rfl⟩
    show d.sent ++ (d.gateHeld ++ d.inFlight.getD [] ++ (d.hold.held ++ [c])) = d.path ++ [c]
    unfold Delivery.path Delivery.onWay
    simp only [List.append_assoc]

theorem Delivery.Shaped.release (h : d.Shaped) : Moves d (step d .release) .release := by
  unfold step
  dsimp only
  split
  · exact h.moves_of_eq rfl h.gate rfl (fun hno => ⟨hno, id⟩) rfl rfl
  · next hfree =>
    have hnone : d.inFlight = none := by simpa using hfree
    have honWay : d.release.onWay = d.onWay := by
      unfold Delivery.onWay
      rw [hnone]
      show d.gateHeld ++ (d.hold.releaseDue d.now).1 ++ (d.hold.releaseDue d.now).2.held = _
      rw [List.append_assoc, d.hold.releaseDue_append]
      exact congrArg (· ++ _) (List.append_nil _).symm
    exact h.moves_of_eq rfl h.gate rfl (fun hno => ⟨hno, honWay.trans⟩) rfl (congrArg (d.sent ++ ·) honWay)

theorem Delivery.Shaped.settle (h : d.Shaped) (v : Verdict) :
    Moves d (step d (.settle v)) (.settle v) := by
  unfold step
  dsimp only
  split
  · exact h.moves_of_eq rfl h.gate rfl (fun hno => ⟨hno, id⟩) rfl rfl
  · next hfree =>
    have hnone : d.inFlight = none := by simpa using hfree
    -- what the verdict leaves of the gate and of the hold
    have hgate : (∀ g, (d.settle v).gate = some g → g.Open) ∧ (d.settle v).gateHeld.Sublist d.gateHeld ∧
        (d.gate = none → (d.settle v).gate = none) := by
      unfold Delivery.gateHeld Delivery.settle
      dsimp only
      split
      · cases hg : d.gate with
        | none => exact ⟨fun g hg' => (by cases hg'), List.Sublist.refl _, fun _ => rfl⟩
        | some g =>
            obtain ⟨hsub, hopen⟩ := SemanticStartGate.discardSegment_spec (h.gate g hg) v.segIdx v.discardAll
              v.discardBytes
            refine ⟨?_, hsub, ?_⟩
            · intro g' hg'
              cases hg'
              exact hopen
            · intro hno
              cases hno
      · exact ⟨h.gate, List.Sublist.refl _, id⟩
    have hkept : ((d.settle v).inFlight.getD []).Sublist d.hold.held ∧ (d.settle v).hold.held = [] := by
      unfold Delivery.settle
      dsimp only
      refine ⟨?_, rfl⟩
      rw [Option.getD_some]
      show List.Sublist (DeliveryHoldWindow.held _) d.hold.held
      split
      · exact List.nil_sublist _
      · split
        · exact d.hold.discardTail_sublist _
        · exact List.Sublist.refl _
    have honWay : (d.settle v).onWay.Sublist d.onWay := by
      unfold Delivery.onWay
      rw [hkept.2, hnone, List.append_nil]
      show List.Sublist _ (d.gateHeld ++ [] ++ d.hold.held)
      rw [List.append_nil]
      exact hgate.2.1.append hkept.1
    refine ⟨⟨hgate.1, ?_⟩, (List.append_nil _).symm, (d.settle v).path, honWay.append_left _,
      (List.append_nil _).symm, ?_⟩
    · intro hwaiting
      obtain ⟨hno, hnothing⟩ := h.bypass hwaiting
      rw [hnothing] at honWay
      exact ⟨hgate.2.2 hno, List.sublist_nil.1 honWay⟩
    · intro hharmless
      have hfew : ¬ (v.discardAll = true ∨ 0 < v.discardBytes) := hharmless
      rw [not_or] at hfew
      unfold Delivery.path Delivery.onWay Delivery.gateHeld Delivery.settle
      dsimp only
      rw [if_neg (not_or.2 hfew), if_neg hfew.1, if_neg hfew.2, hnone]
      simp [DeliveryHoldWindow.flush]

theorem Delivery.gateHeld_some {g : SemanticStartGate} (hgate : d.gate = some g) : d.gateHeld = g.held := by
  unfold Delivery.gateHeld
  rw [hgate]

theorem Delivery.Shaped.send (h : d.Shaped) (semanticPending : Bool) (safeWaitMs : ℚ) :
    Moves d (step d (.send semanticPending safeWaitMs)) (.send semanticPending safeWaitMs) := by
  unfold step
  dsimp only
  split
  · next cs hflight =>
    have hpath : d.path = d.sent ++ (d.gateHeld ++ cs ++ d.hold.held) := by
      unfold Delivery.path Delivery.onWay
      rw [hflight]
      rfl
    unfold Delivery.sendChunks
    split
    · next hgate =>
      have hheld : d.gateHeld = [] := by
        unfold Delivery.gateHeld
        rw [hgate]
      refine h.moves_of_eq rfl h.gate rfl ?_ rfl ?_
      · refine fun hno => ⟨hno, fun hnothing => ?_⟩
        unfold Delivery.onWay at hnothing
        show d.gateHeld ++ [] ++ d.hold.held = []
        rw [hheld, (List.append_eq_nil_iff.1 hnothing).2]
        rfl
      · rw [hpath]
        show d.sent ++ cs ++ (d.gateHeld ++ [] ++ d.hold.held) = _
        rw [hheld]
        simp
    · next g hgate =>
      have hsome : ∀ {p : Prop}, d.gate = none → p := fun hno => absurd (hgate.symm.trans hno) (by simp)
      split
      · next hnil =>
        refine h.moves_of_eq rfl h.gate rfl hsome rfl ?_
        rw [hpath, hnil]
        rfl
      · split
        · next hreleased =>
          refine h.moves_of_eq rfl h.gate rfl hsome rfl ?_
          rw [hpath]
          show d.sent ++ cs ++ (d.gateHeld ++ [] ++ d.hold.held) = _
          rw [d.gateHeld_some hgate, h.gate g hgate hreleased]
          simp
        · next hclosed =>
          have hpush : (g.push d.now cs).Open := fun hreleased => absurd hreleased hclosed
          have hheldPush : (g.push d.now cs).held = g.held ++ cs := if_neg hclosed
          obtain ⟨happend, hopen⟩ :=
            SemanticStartGate.releaseDue_spec hpush d.now semanticPending safeWaitMs
          rw [hheldPush] at happend
          refine h.moves_of_eq rfl ?_ rfl hsome rfl ?_
          · intro g' hg'
            cases hg'
            exact hopen
          · rw [hpath, d.gateHeld_some hgate, ← happend]
            show d.sent ++ _ ++ (_ ++ [] ++ d.hold.held) = _
            simp only [List.append_nil, List.append_assoc]
            rfl
  · exact h.moves_of_eq rfl h.gate rfl (fun hno => ⟨hno, id⟩) rfl rfl

theorem Delivery.Shaped.semanticTick (h : d.Shaped) (force semanticPending : Bool) (safeWaitMs : ℚ) :
    Moves d (step d (.semanticTick force semanticPending safeWaitMs))
      (.semanticTick force semanticPending safeWaitMs) := by
  unfold step Delivery.releaseSemanticDue
  dsimp only
  split
  · exact h.moves_of_eq rfl h.gate rfl (fun hno => ⟨hno, id⟩) rfl rfl
  · next g hgate =>
    have hdue : ∃ due : List Chunk × SemanticStartGate,
        (if force then g.flush else g.releaseDue d.now semanticPending safeWaitMs) = due ∧
          due.1 ++ due.2.held = g.held ∧ due.2.Open := by
      refine ⟨_, rfl, ?_⟩
      cases force with
      | true => exact ⟨List.append_nil _, fun _ => rfl⟩
      | false => exact SemanticStartGate.releaseDue_spec (h.gate g hgate) _ _ _
    obtain ⟨due, hsame, happend, hopen⟩ := hdue
    rw [hsame]
    refine h.moves_of_eq rfl ?_ rfl (fun hno => absurd (hgate.symm.trans hno) (by simp)) rfl ?_
    · intro g' hg'
      cases hg'
      exact hopen
    · show d.sent ++ due.1 ++ (due.2.held ++ d.inFlight.getD [] ++ d.hold.held) = d.path
      unfold Delivery.path Delivery.onWay
      rw [d.gateHeld_some hgate, ← happend]
      simp only [List.append_assoc]

theorem Delivery.Shaped.step (h : d.Shaped) (e : Event) : Moves d (step d e) e := by
  cases e with
  | elapse seconds => exact h.moves_of_eq rfl h.gate rfl (fun hno => ⟨hno, id⟩) rfl rfl
  | deliver c effective => exact h.deliver c effective
  | release => exact h.release
  | settle v => exact h.settle v
  | send semanticPending safeWaitMs => exact h.send semanticPending safeWaitMs
  | semanticTick force semanticPending safeWaitMs => exact h.semanticTick force semanticPending safeWaitMs

end

theorem shaped_new (now windowMs : ℚ) (sampleRate : Nat) (mode : Mode) :
    (Delivery.new now windowMs sampleRate mode).Shaped := by
  cases mode with
  | plain | prefixGate =>
      refine ⟨?_, fun _ => ⟨rfl, rfl⟩⟩
      intro g hg
      cases hg
  | semanticGate minAudioMs maxHoldMs =>
      refine ⟨?_, ?_⟩
      · intro g hg
        cases hg
        exact fun _ => rfl
      · intro hwaiting
        cases hwaiting

/-- **Chunks are delivered in order, each once.** In every run the chunks that were sent, and then those that
are on their way, stand in the order in which they came; as long as no verdict condemns audio, they are all
the chunks that came. -/
theorem chunks_conserved (now windowMs : ℚ) (sampleRate : Nat) (mode : Mode) (events : List Event) :
    let d := run step (Delivery.new now windowMs sampleRate mode) events
    d.path.Sublist d.came ∧ ((∀ e ∈ events, ¬ e.Condemns) → d.path = d.came) := by
  have hrun : ∀ (es : List Event) (d : Delivery), d.Shaped → d.path.Sublist d.came →
      (run step d es).path.Sublist (run step d es).came ∧
        (d.path = d.came → (∀ e ∈ es, ¬ e.Condemns) → (run step d es).path = (run step d es).came) := by
    intro es
    induction es with
    | nil => exact fun d _ hsub => ⟨hsub, fun hsame _ => hsame⟩
    | cons e es ih =>
        intro d hshaped hsub
        have hmoves := hshaped.step e
        obtain ⟨kept, hkept, hpath, hharmless⟩ := hmoves.path
        have hnext : (step d e).path.Sublist (step d e).came := by
          rw [hpath, hmoves.came]
          exact (hkept.trans hsub).append (List.Sublist.refl _)
        obtain ⟨hall, hsame⟩ := ih (step d e) hmoves.shaped hnext
        refine ⟨hall, fun heq hes => hsame ?_ fun e' he' => hes e' (List.mem_cons_of_mem _ he')⟩
        rw [hpath, hmoves.came, hharmless (hes e List.mem_cons_self), heq]
  intro d
  have hstart : (Delivery.new now windowMs sampleRate mode).path =
      (Delivery.new now windowMs sampleRate mode).came := by
    cases mode <;> rfl
  obtain ⟨hall, hsame⟩ := hrun events _ (shaped_new now windowMs sampleRate mode)
    (hstart ▸ List.Sublist.refl _)
  exact ⟨hall, hsame hstart⟩

/-! ## The pace of the hold -/

/-- The hold has released no more than what was flushed or went around it, the playback window, and one chunk
of at most `m` bytes. -/
structure Paced (m : Nat) (d : Delivery) : Prop where
  sizes : ∀ c ∈ d.hold.held, c.size ≤ m
  windowSec : 0 ≤ d.hold.windowSec
  bytesPerSec : 0 ≤ d.hold.bytesPerSec
  idle : d.hold.clockStart = none → d.hold.releasedBytes ≤ d.unpaced
  paced : ∀ start, d.hold.clockStart = some start → start ≤ d.now ∧
    (d.hold.releasedBytes : ℚ) ≤ d.unpaced + (d.hold.budgetBytes start d.now + m)

theorem DeliveryHoldWindow.budget_mono {w : DeliveryHoldWindow} (h : 0 ≤ w.bytesPerSec) (start : ℚ)
    {now now' : ℚ} (hnow : now ≤ now') : w.budgetBytes start now ≤ w.budgetBytes start now' := by
  unfold DeliveryHoldWindow.budgetBytes
  exact mul_le_mul_of_nonneg_right (by linarith) h

theorem DeliveryHoldWindow.budget_nonneg {w : DeliveryHoldWindow} (hwindow : 0 ≤ w.windowSec)
    (hrate : 0 ≤ w.bytesPerSec) {start now : ℚ} (hstart : start ≤ now) : 0 ≤ w.budgetBytes start now := by
  unfold DeliveryHoldWindow.budgetBytes
  exact mul_nonneg (by linarith) hrate

section
variable {m : Nat} {d : Delivery}

/-- A step that changes nothing of the hold. -/
theorem Paced.frame (h : Paced m d) (gate : Option SemanticStartGate) (bypass : Bool)
    (inFlight : Option (List Chunk)) (came sent : List Chunk) :
    Paced m { d with gate := gate, bypass := bypass, inFlight := inFlight, came := came, sent := sent } :=
  ⟨h.sizes, h.windowSec, h.bytesPerSec, h.idle, h.paced⟩

theorem Paced.elapse (h : Paced m d) (seconds : ℚ≥0) : Paced m { d with now := d.now + seconds } := by
  have hlater : d.now ≤ d.now + seconds := le_add_of_nonneg_right seconds.2
  refine ⟨h.sizes, h.windowSec, h.bytesPerSec, h.idle, ?_⟩
  intro start hstart
  obtain ⟨hle, hpaced⟩ := h.paced start hstart
  have hmono := DeliveryHoldWindow.budget_mono h.bytesPerSec start hlater
  refine ⟨hle.trans hlater, ?_⟩
  show (d.hold.releasedBytes : ℚ) ≤ d.unpaced + (d.hold.budgetBytes start (d.now + seconds) + m)
  linarith

/-- Bytes that are flushed, or go around the hold while its clock runs. -/
theorem Paced.unpace (h : Paced m d) (extra : Nat) {held : List Chunk} (hheld : ∀ c ∈ held, c.size ≤ m) :
    Paced m { d with
      unpaced := d.unpaced + extra
      hold := { d.hold with releasedBytes := d.hold.releasedBytes + extra, held := held } } := by
  refine ⟨hheld, h.windowSec, h.bytesPerSec, ?_, ?_⟩
  · intro hidle
    exact Nat.add_le_add_right (h.idle hidle) extra
  · intro start hstart
    obtain ⟨hle, hpaced⟩ := h.paced start hstart
    refine ⟨hle, ?_⟩
    show ((d.hold.releasedBytes + extra : Nat) : ℚ) ≤
      ((d.unpaced + extra : Nat) : ℚ) + (d.hold.budgetBytes start d.now + m)
    rw [Nat.cast_add, Nat.cast_add]
    linarith

/-- The clock of the hold starts. -/
theorem Paced.startClock (h : Paced m d) :
    Paced m { d with hold := { d.hold with clockStart := some (d.hold.clockStart.getD d.now) } } := by
  refine ⟨h.sizes, h.windowSec, h.bytesPerSec, fun hidle => absurd hidle (Option.some_ne_none _), ?_⟩
  intro start hstart
  obtain rfl := Option.some.inj hstart
  cases hclock : d.hold.clockStart with
  | some start => exact h.paced start hclock
  | none =>
      rw [Option.getD_none]
      refine ⟨le_refl _, ?_⟩
      have hidle : (d.hold.releasedBytes : ℚ) ≤ d.unpaced := Nat.cast_le.2 (h.idle hclock)
      have hbudget := DeliveryHoldWindow.budget_nonneg h.windowSec h.bytesPerSec (le_refl d.now)
      have hm : (0 : ℚ) ≤ m := Nat.cast_nonneg m
      show (d.hold.releasedBytes : ℚ) ≤ d.unpaced + (d.hold.budgetBytes d.now d.now + m)
      linarith

theorem Paced.deliver (h : Paced m d) {c : Chunk} (hc : c.size ≤ m) (effective : Option Nat) :
    Paced m (step d (.deliver c effective)) := by
  unfold step
  dsimp only
  split
  · cases effective with
    | none => exact h.frame _ _ _ _ _
    | some audioBytes =>
        unfold Delivery.deliverPrefix DeliveryHoldWindow.recordExternalRelease
        dsimp only
        split
        · next hzero =>
          rw [Option.getD_some, hzero]
          exact h.frame _ _ _ _ _
        · exact ((h.startClock.unpace audioBytes h.sizes).frame _ _ _ _ _)
  · refine ⟨?_, h.windowSec, h.bytesPerSec, h.idle, h.paced⟩
    intro c' hc'
    rcases List.mem_append.1 hc' with hold | hnew
    · exact h.sizes c' hold
    · rw [List.mem_singleton.1 hnew]
      exact hc

theorem Paced.release (h : Paced m d) : Paced m (step d .release) := by
  unfold step
  dsimp only
  split
  · exact h
  · unfold Delivery.release DeliveryHoldWindow.releaseDue
    split
    · exact h.frame _ _ _ _ _
    · have hstarted := h.startClock
      obtain ⟨hle, hpaced⟩ := hstarted.paced _ rfl
      refine ⟨?_, h.windowSec, h.bytesPerSec, fun hidle => absurd hidle (Option.some_ne_none _), ?_⟩
      · intro c hc
        refine h.sizes c ?_
        rw [← DeliveryHoldWindow.releaseLoop_append
          (d.hold.budgetBytes (d.hold.clockStart.getD d.now) d.now) d.hold.releasedBytes d.hold.held]
        exact List.mem_append_right _ hc
      · intro start hstart
        obtain rfl := Option.some.inj hstart
        refine ⟨hle, ?_⟩
        rcases DeliveryHoldWindow.releaseLoop_le
          (d.hold.budgetBytes (d.hold.clockStart.getD d.now) d.now) m d.hold.releasedBytes d.hold.held
          h.sizes with hnil | hbound
        · dsimp only
          rw [hnil]
          exact hpaced
        · have hunpaced : (0 : ℚ) ≤ d.unpaced := Nat.cast_nonneg _
          dsimp only
          exact hbound.trans (le_add_of_nonneg_left hunpaced)

theorem Paced.settle (h : Paced m d) (v : Verdict) : Paced m (step d (.settle v)) := by
  unfold step
  dsimp only
  split
  · exact h
  · -- the verdict only takes chunks out of the hold
    have hkept : ∃ held, (if v.discardAll then d.hold.discard
        else if 0 < v.discardBytes then d.hold.discardTail v.discardBytes else d.hold) =
          { d.hold with held := held } := by
      split
      · exact ⟨[], rfl⟩
      · split
        · exact ⟨_, rfl⟩
        · exact ⟨d.hold.held, rfl⟩
    obtain ⟨held, hsame⟩ := hkept
    unfold Delivery.settle
    dsimp only
    rw [hsame]
    refine ((h.unpace (bytes held) ?_).frame _ _ _ _ _)
    intro c hc
    cases hc

/-- An event keeps the pace, if the chunk that it brings is no longer than `m`. -/
theorem Paced.step (h : Paced m d) (e : Event) (hsize : ∀ c ∈ e.arrived, c.size ≤ m) :
    Paced m (step d e) := by
  cases e with
  | elapse seconds => exact h.elapse seconds
  | deliver c effective => exact h.deliver (hsize c List.mem_cons_self) effective
  | release => exact h.release
  | settle v => exact h.settle v
  | send semanticPending safeWaitMs =>
      unfold GuardedDelivery.step Delivery.sendChunks
      dsimp only
      split
      · split
        · exact h.frame _ _ _ _ _
        · split
          · exact h.frame _ _ _ _ _
          · split <;> exact h.frame _ _ _ _ _
      · exact h
  | semanticTick force semanticPending safeWaitMs =>
      unfold GuardedDelivery.step Delivery.releaseSemanticDue
      dsimp only
      split
      · exact h
      · exact h.frame _ _ _ _ _

end

theorem paced_new (m : Nat) (now windowMs : ℚ) (sampleRate : Nat) (mode : Mode) :
    Paced m (Delivery.new now windowMs sampleRate mode) := by
  refine ⟨?_, ?_, ?_, fun _ => Nat.le_refl _, ?_⟩
  · intro c hc
    cases hc
  · show (0 : ℚ) ≤ min (max windowMs 100) 10000 / 1000
    have hmin : (0 : ℚ) ≤ min (max windowMs 100) 10000 :=
      le_min (le_trans (by norm_num) (le_max_right windowMs 100)) (by norm_num)
    exact div_nonneg hmin (by norm_num)
  · show (0 : ℚ) ≤ sampleRate * 4
    positivity
  · intro start hstart
    cases hstart

/-- **Guarded delivery keeps the client's lead short.** In every run whose chunks have at most `m` bytes, the
bytes that left the hold, but for those that a verdict flushed or that went around it, are no more than the
playback window since its clock started, and one chunk; and behind a release nothing is held that the window
has room for. -/
theorem release_paced (m : Nat) (now windowMs : ℚ) (sampleRate : Nat) (mode : Mode) (events : List Event)
    (hsizes : ∀ e ∈ events, ∀ c ∈ e.arrived, c.size ≤ m) :
    let d := run step (Delivery.new now windowMs sampleRate mode) events
    (∀ start, d.hold.clockStart = some start →
        (d.hold.releasedBytes : ℚ) ≤ d.unpaced + (d.hold.budgetBytes start d.now + m)) ∧
      (d.inFlight = none → (step d .release).hold.held = [] ∨
        ∃ start, (step d .release).hold.clockStart = some start ∧
          d.hold.budgetBytes start d.now ≤ (step d .release).hold.releasedBytes) := by
  have hrun : ∀ (es : List Event) (d : Delivery), Paced m d →
      (∀ e ∈ es, ∀ c ∈ e.arrived, c.size ≤ m) → Paced m (run step d es) := by
    intro es
    induction es with
    | nil => exact fun d h _ => h
    | cons e es ih =>
        intro d h hes
        exact ih _ (h.step e (hes e List.mem_cons_self)) fun e' he' => hes e' (List.mem_cons_of_mem _ he')
  intro d
  have h : Paced m d := hrun events _ (paced_new m now windowMs sampleRate mode) hsizes
  refine ⟨fun start hstart => (h.paced start hstart).2, ?_⟩
  intro hfree
  unfold step
  dsimp only
  rw [hfree, if_neg (by simp)]
  unfold Delivery.release DeliveryHoldWindow.releaseDue
  split
  · next hnil => exact .inl hnil
  · rcases DeliveryHoldWindow.releaseLoop_due
      (d.hold.budgetBytes (d.hold.clockStart.getD d.now) d.now) d.hold.releasedBytes d.hold.held with
      hnil | hdue
    · exact .inl hnil
    · exact .inr ⟨_, rfl, hdue⟩

theorem release_paced_short :
    let d := run step (Delivery.new 0 100 24000 .plain)
      [.deliver ⟨0, [1, 2, 3, 4], List.cons_ne_nil _ _⟩ none, .release, .send false 0]
    (∀ start, d.hold.clockStart = some start →
        (d.hold.releasedBytes : ℚ) ≤ d.unpaced + (d.hold.budgetBytes start d.now + (4 : Nat))) ∧
      (d.inFlight = none → (step d .release).hold.held = [] ∨
        ∃ start, (step d .release).hold.clockStart = some start ∧
          d.hold.budgetBytes start d.now ≤ (step d .release).hold.releasedBytes) := by
  refine release_paced 4 0 100 24000 .plain
    [.deliver ⟨0, [1, 2, 3, 4], List.cons_ne_nil _ _⟩ none, .release, .send false 0] ?_
  intro e he c hc
  rcases List.mem_cons.1 he with rfl | he
  · obtain rfl := List.mem_singleton.1 hc
    decide
  · rcases List.mem_cons.1 he with rfl | he
    · cases hc
    · obtain rfl := List.mem_singleton.1 he
      cases hc

end StreamingTts.Frontend.GuardedDelivery
