import Mathlib.Data.List.Basic
import Mathlib.Tactic.Common

/-!
# The per-segment driver

`StreamingDriver` of `engine/frontend/spliter/driver.py`, on the guarded state machine of
`engine/frontend/spliter/core.py`. One driver serves one segment: it turns the tokens of the segment
into a `PREFILL` and `DECODE`s, and closes the segment with a `FLUSH` when a punctuation threshold or
the capacity is reached, or when the splitter sends it `END`. The states `PREFILL`, `PAD_TEXT_EOS`
and `PAD_TEXT_NOP` are passed within one `feed`.
-/

namespace StreamingTts.Split

/-- `SplitThresholds`: the least numbers of tokens at which a punctuation tier splits, and the
capacity of a segment. -/
structure SplitThresholds where
  minTokensL1 : Int
  minTokensL2 : Int
  minTokensL3 : Int
  forceSplitAt : Int
  deriving DecidableEq, Repr

/-- `SpliterState`, as far as the driver's table goes. -/
inductive SpliterState
  | halt
  | idle
  | prefill
  | textInputing
  | padTextEos
  | padTextNop
  deriving DecidableEq, Repr

/-- `SpliterEventType`. -/
inductive SpliterEventType
  | unknown
  | start
  | end_
  | startToken
  | endToken
  | normalToken
  | punctuationToken
  deriving DecidableEq, Repr

/-- `SpliterEvent`. -/
structure SpliterEvent where
  type : SpliterEventType := .unknown
  token : Int := -1
  text : String := ""
  punctLevel : Int := 0
  deriving DecidableEq, Repr

/-- `ActionType`. -/
inductive ActionType
  | prefill
  | decode
  | flushEos
  | flushNop
  deriving DecidableEq, Repr

/-- `ActionResult`. -/
structure ActionResult where
  type : ActionType
  token : Int := -1
  deriving DecidableEq, Repr

/-- `StreamingDriver`, with the state of its machine. -/
structure StreamingDriver where
  thresholds : SplitThresholds
  isFinal : Bool := false
  tokenCount : Int := 0
  state : SpliterState := .idle
  deriving DecidableEq, Repr

/-- `Rule`: a guarded transition with its action. -/
structure Rule where
  target : SpliterState
  guard : StreamingDriver → SpliterEvent → Bool
  action : StreamingDriver → SpliterEvent → StreamingDriver × Option ActionResult

namespace StreamingDriver

/-! ## Guards -/

/-- `_meets_split_threshold`. -/
def meetsSplitThreshold (d : StreamingDriver) (e : SpliterEvent) (tokenCount : Int) : Bool :=
  if e.punctLevel = 1 ∧ d.thresholds.minTokensL1 ≤ tokenCount then true
  else if e.punctLevel = 2 ∧ d.thresholds.minTokensL2 ≤ tokenCount then true
  else if e.punctLevel = 3 ∧ d.thresholds.minTokensL3 ≤ tokenCount then true
  else false

/-- `_evt`. -/
def evt (types : List SpliterEventType) (_ : StreamingDriver) (e : SpliterEvent) : Bool :=
  decide (e.type ∈ types)

/-- `_normal_overflow`. -/
def normalOverflow (d : StreamingDriver) (e : SpliterEvent) : Bool :=
  decide (e.type = .normalToken ∧ d.thresholds.forceSplitAt ≤ d.tokenCount + 1)

/-- `_normal_no_overflow`. -/
def normalNoOverflow (d : StreamingDriver) (e : SpliterEvent) : Bool :=
  decide (e.type = .normalToken ∧ d.tokenCount + 1 < d.thresholds.forceSplitAt)

/-- `_punct_should_split`. -/
def punctShouldSplit (d : StreamingDriver) (e : SpliterEvent) : Bool :=
  if e.type ≠ .punctuationToken then false
  else decide (d.thresholds.forceSplitAt ≤ d.tokenCount + 1)
    || d.meetsSplitThreshold e (d.tokenCount + 1)

/-- `_punct_no_split`. -/
def punctNoSplit (d : StreamingDriver) (e : SpliterEvent) : Bool :=
  decide (e.type = .punctuationToken) && !d.punctShouldSplit e

/-- `_prefill_should_split`. -/
def prefillShouldSplit (d : StreamingDriver) (e : SpliterEvent) : Bool :=
  if d.thresholds.forceSplitAt ≤ d.tokenCount then true
  else decide (e.type = .punctuationToken) && d.meetsSplitThreshold e d.tokenCount

/-- `_check_final`. -/
def checkFinal (d : StreamingDriver) (_ : SpliterEvent) : Bool := d.isFinal

/-- `ALWAYS`. -/
def always (_ : StreamingDriver) (_ : SpliterEvent) : Bool := true

/-! ## Actions -/

/-- `_nop`. -/
def nop (d : StreamingDriver) (_ : SpliterEvent) : StreamingDriver × Option ActionResult := (d, none)

/-- `_reset_context`. -/
def resetContext (d : StreamingDriver) (_ : SpliterEvent) : StreamingDriver × Option ActionResult :=
  ({ d with isFinal := false, tokenCount := 0 }, none)

/-- `_prefill`. -/
def prefillToken (d : StreamingDriver) (e : SpliterEvent) : StreamingDriver × Option ActionResult :=
  ({ d with tokenCount := 1 }, some ⟨.prefill, e.token⟩)

/-- `_set_final`. -/
def setFinal (d : StreamingDriver) (_ : SpliterEvent) : StreamingDriver × Option ActionResult :=
  ({ d with isFinal := true }, none)

/-- `_decode`. -/
def decodeToken (d : StreamingDriver) (e : SpliterEvent) : StreamingDriver × Option ActionResult :=
  ({ d with tokenCount := d.tokenCount + 1 }, some ⟨.decode, e.token⟩)

/-- `_flush_eos`. -/
def flushEos (d : StreamingDriver) (_ : SpliterEvent) : StreamingDriver × Option ActionResult :=
  ({ d with tokenCount := 0 }, some ⟨.flushEos, -1⟩)

/-- `_flush_nop`. -/
def flushNop (d : StreamingDriver) (_ : SpliterEvent) : StreamingDriver × Option ActionResult :=
  ({ d with tokenCount := 0 }, some ⟨.flushNop, -1⟩)

/-! ## The machine -/

/-- The table of `_build_fsm`. -/
def table : SpliterState → List Rule
  | .idle =>
      [⟨.halt, evt [.end_], nop⟩, ⟨.idle, evt [.start], resetContext⟩,
        ⟨.prefill, evt [.startToken, .normalToken, .punctuationToken], prefillToken⟩,
        ⟨.idle, evt [.endToken], nop⟩, ⟨.idle, evt [.unknown], nop⟩]
  | .prefill => [⟨.padTextEos, prefillShouldSplit, nop⟩, ⟨.textInputing, always, nop⟩]
  | .textInputing =>
      [⟨.padTextEos, evt [.end_], setFinal⟩, ⟨.padTextNop, evt [.endToken], decodeToken⟩,
        ⟨.padTextEos, normalOverflow, decodeToken⟩,
        ⟨.textInputing, normalNoOverflow, decodeToken⟩,
        ⟨.padTextEos, punctShouldSplit, decodeToken⟩,
        ⟨.textInputing, punctNoSplit, decodeToken⟩,
        ⟨.textInputing, evt [.startToken, .start, .unknown], nop⟩]
  | .padTextEos => [⟨.halt, checkFinal, flushEos⟩, ⟨.idle, always, flushEos⟩]
  | .padTextNop => [⟨.halt, checkFinal, flushNop⟩, ⟨.idle, always, flushNop⟩]
  | .halt => []

/-- `FSM.step`: the first rule whose guard holds is taken; without one nothing happens. -/
def step (d : StreamingDriver) (e : SpliterEvent) : StreamingDriver × Option ActionResult :=
  match (table d.state).find? (fun r => r.guard d e) with
  | none => (d, none)
  | some r => ({ (r.action d e).1 with state := r.target }, (r.action d e).2)

/-- The members of `_TRANSIENT`. -/
def transient : SpliterState → Bool
  | .prefill => true
  | .padTextEos => true
  | .padTextNop => true
  | _ => false

/-- The loop of `feed` over transient states, for the given number of turns. -/
def settle (e : SpliterEvent) : Nat → StreamingDriver → StreamingDriver × List ActionResult
  | 0, d => (d, [])
  | turns + 1, d =>
      if transient d.state then
        let next := d.step e
        let rest := if next.1.state = d.state then (next.1, []) else settle e turns next.1
        (rest.1, next.2.toList ++ rest.2)
      else (d, [])

/-- `feed`; no event passes more than three transient states. -/
def feed (d : StreamingDriver) (e : SpliterEvent) : StreamingDriver × List ActionResult :=
  let first := d.step e
  let rest := settle e 3 first.1
  (rest.1, first.2.toList ++ rest.2)

/-- A driver for a new segment. -/
def new (thresholds : SplitThresholds) : StreamingDriver := { thresholds := thresholds }

/-! ## What a driver does in a segment -/

section
variable {d : StreamingDriver} {e : SpliterEvent}

/-- Whether the token of `e` closes a segment of which it is the `n`-th token. -/
def splits (d : StreamingDriver) (e : SpliterEvent) (n : Int) : Bool :=
  decide (d.thresholds.forceSplitAt ≤ n)
    || decide (e.type = .punctuationToken) && d.meetsSplitThreshold e n

/-- `START` prepares a new driver. -/
theorem feed_start (thresholds : SplitThresholds) :
    (new thresholds).feed { type := .start } = (new thresholds, []) := by
  rfl

/-- The prefill state closes the segment or takes further text. -/
theorem settle_prefill (hstate : d.state = .prefill) (hfinal : d.isFinal = false) :
    settle e 3 d
      = if d.splits e d.tokenCount then
          ({ d with tokenCount := 0, state := .idle }, [⟨.flushEos, -1⟩])
        else ({ d with state := .textInputing }, []) := by
  have hguard : d.prefillShouldSplit e = d.splits e d.tokenCount := by
    unfold prefillShouldSplit splits
    split
    · next h => simp [h]
    · next h => rw [decide_eq_false h, Bool.false_or]
  cases hs : d.splits e d.tokenCount with
  | true =>
      rw [hs] at hguard
      simp [settle, transient, step, table, hstate, hguard, hfinal, nop, checkFinal, always, flushEos]
  | false =>
      rw [hs] at hguard
      simp [settle, transient, step, table, hstate, hguard, nop, always]

/-- The end-of-text state closes the segment. -/
theorem settle_padTextEos (hstate : d.state = .padTextEos) :
    settle e 3 d
      = ({ d with tokenCount := 0, state := if d.isFinal then .halt else .idle },
          [⟨.flushEos, -1⟩]) := by
  cases hf : d.isFinal <;>
    simp [settle, transient, step, table, hstate, hf, checkFinal, always, flushEos]

/-- The first text token of a segment. -/
theorem feed_first (hstate : d.state = .idle) (hfinal : d.isFinal = false)
    (he : e.type = .normalToken ∨ e.type = .punctuationToken) :
    d.feed e
      = if d.splits e 1 then
          ({ d with tokenCount := 0, state := .idle }, [⟨.prefill, e.token⟩, ⟨.flushEos, -1⟩])
        else ({ d with tokenCount := 1, state := .textInputing }, [⟨.prefill, e.token⟩]) := by
  have hstep : d.step e
      = ({ d with tokenCount := 1, state := .prefill }, some ⟨.prefill, e.token⟩) := by
    rcases he with he | he <;> simp [step, table, hstate, evt, he, prefillToken]
  unfold feed
  simp only [hstep]
  rw [settle_prefill (d := { d with tokenCount := 1, state := .prefill }) rfl hfinal]
  have hsplits : StreamingDriver.splits { d with tokenCount := 1, state := .prefill } e 1
      = d.splits e 1 := rfl
  simp only [hsplits]
  split <;> rfl

/-- A further text token of a segment. -/
theorem feed_next (hstate : d.state = .textInputing) (hfinal : d.isFinal = false)
    (he : e.type = .normalToken ∨ e.type = .punctuationToken) :
    d.feed e
      = if d.splits e (d.tokenCount + 1) then
          ({ d with tokenCount := 0, state := .idle }, [⟨.decode, e.token⟩, ⟨.flushEos, -1⟩])
        else ({ d with tokenCount := d.tokenCount + 1 }, [⟨.decode, e.token⟩]) := by
  have hstep : d.step e
      = ({ d with
            tokenCount := d.tokenCount + 1
            state := if d.splits e (d.tokenCount + 1) then .padTextEos else .textInputing },
          some ⟨.decode, e.token⟩) := by
    rcases he with he | he
    · cases hf : decide (d.thresholds.forceSplitAt ≤ d.tokenCount + 1) with
      | true =>
          have hle := of_decide_eq_true hf
          simp [step, table, hstate, evt, he, normalOverflow, hle, decodeToken, splits]
      | false =>
          have hlt : ¬ d.thresholds.forceSplitAt ≤ d.tokenCount + 1 := of_decide_eq_false hf
          have hlt' : d.tokenCount + 1 < d.thresholds.forceSplitAt := by omega
          simp [step, table, hstate, evt, he, normalOverflow, normalNoOverflow, hlt, hlt',
            decodeToken, splits]
    · have hguard : d.punctShouldSplit e = d.splits e (d.tokenCount + 1) := by
        simp [punctShouldSplit, splits, he]
      cases hs : d.splits e (d.tokenCount + 1) with
      | true =>
          rw [hs] at hguard
          simp [step, table, hstate, evt, he, normalOverflow, normalNoOverflow, hguard, decodeToken]
      | false =>
          rw [hs] at hguard
          simp [step, table, hstate, evt, he, normalOverflow, normalNoOverflow, punctNoSplit,
            hguard, decodeToken]
  unfold feed
  simp only [hstep]
  cases hs : d.splits e (d.tokenCount + 1) with
  | true =>
      rw [settle_padTextEos (by simp)]
      simp [hfinal]
  | false => simp [settle, transient, hstate]

/-- `END` closes a segment that has taken text. -/
theorem feed_end (hstate : d.state = .textInputing) :
    d.feed { type := .end_ }
      = ({ d with isFinal := true, tokenCount := 0, state := .halt }, [⟨.flushEos, -1⟩]) := by
  have hstep : d.step { type := .end_ } = ({ d with isFinal := true, state := .padTextEos }, none) := by
    simp [step, table, hstate, evt, setFinal]
  unfold feed
  simp only [hstep]
  rw [settle_padTextEos rfl]
  rfl

end
end StreamingDriver

end StreamingTts.Split
