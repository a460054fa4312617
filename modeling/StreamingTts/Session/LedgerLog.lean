import Mathlib.Algebra.Order.BigOperators.Group.List
import Mathlib.Tactic.Ring
import StreamingTts.Lib.Transition
import StreamingTts.Session.Reliability

/-!
# The retained log of a delivery ledger

The seven counters of a `DeliveryLedger` are redundant: they all describe one chain of deliveries
from the trimmed cursor to the newest one. `Chained` is that chain and `LogInv` the invariant it
gives, which every operation keeps whether it returns or raises (`step_logInv`). From it follow the
shape of the retained records, the equality of the acknowledged and the trimmed cursor, and exactly
which cursors `attach` and `acknowledge` accept.
-/

namespace StreamingTts.Session

open Lib (run Mailbox run_invariant)

namespace DeliveryLedger

/-! ## Chains of deliveries -/

/-- The deliveries `rs` continue the cursor `a = (seq, sample)` one by one and end at `b`. -/
def Chained : Int × Int → List ReliableDelivery → Int × Int → Prop
  | a, [], b => a = b
  | a, r :: rs, b =>
      r.deliverySeq = a.1 + 1 ∧ r.startSample = a.2 ∧ a.2 ≤ r.endSample ∧
        Chained (r.deliverySeq, r.endSample) rs b

/-- A chain moves neither cursor backwards, and ends one number later per delivery. -/
theorem Chained.le {a b : Int × Int} {rs : List ReliableDelivery} (h : Chained a rs b) :
    b.1 = a.1 + rs.length ∧ a.2 ≤ b.2 := by
  induction rs generalizing a with
  | nil => cases h; simp
  | cons r rs ih =>
      obtain ⟨hseq, -, hend, hrest⟩ := h
      obtain ⟨h₁, h₂⟩ := ih hrest
      simp only [List.length_cons, Nat.cast_add, Nat.cast_one]
      exact ⟨by omega, by omega⟩

/-- A chain extends by a delivery that continues its end. -/
theorem Chained.snoc {a b : Int × Int} {rs : List ReliableDelivery} {r : ReliableDelivery}
    (h : Chained a rs b) (hseq : r.deliverySeq = b.1 + 1) (hstart : r.startSample = b.2)
    (hend : b.2 ≤ r.endSample) : Chained a (rs ++ [r]) (r.deliverySeq, r.endSample) := by
  induction rs generalizing a with
  | nil => cases h; exact ⟨hseq, hstart, hend, rfl⟩
  | cons r' rs ih =>
      obtain ⟨h₁, h₂, h₃, hrest⟩ := h
      exact ⟨h₁, h₂, h₃, ih hrest⟩

/-- The deliveries of a chain are numbered consecutively from its start. -/
theorem Chained.seqs {a b : Int × Int} {rs : List ReliableDelivery} (h : Chained a rs b) :
    rs.map (·.deliverySeq) = (List.range rs.length).map fun i : Nat => a.1 + 1 + (i : Int) := by
  induction rs generalizing a with
  | nil => rfl
  | cons r rs ih =>
      obtain ⟨hseq, -, -, hrest⟩ := h
      rw [List.map_cons, ih hrest, List.length_cons, List.range_succ_eq_map, List.map_cons,
        List.map_map, hseq]
      refine List.cons_eq_cons.2 ⟨by simp, List.map_congr_left fun i _ => ?_⟩
      simp only [Function.comp_apply]
      omega

/-- The sample ranges of a chain meet end to start. -/
theorem Chained.samples {a b : Int × Int} {rs : List ReliableDelivery} (h : Chained a rs b) :
    rs.IsChain (fun r r' => r'.startSample = r.endSample) ∧
      ((rs.head?.map (·.startSample)).getD b.2 = a.2) ∧
      ((rs.getLast?.map (·.endSample)).getD a.2 = b.2) := by
  induction rs generalizing a with
  | nil => cases h; simp
  | cons r rs ih =>
      obtain ⟨-, hstart, -, hrest⟩ := h
      obtain ⟨hch, hhead, hlast⟩ := ih hrest
      refine ⟨?_, by simpa using hstart, ?_⟩
      · cases rs with
        | nil => exact .singleton r
        | cons r' rs => exact .cons_cons (by simpa using hhead) hch
      · cases rs with
        | nil => simpa using hlast
        | cons r' rs =>
            rw [List.getLast?_cons_cons]
            cases hl : (r' :: rs).getLast? with
            | none => simp at hl
            | some l => rw [hl] at hlast; simpa using hlast

/-- A delivery of a chain lies strictly behind its start and not behind its end. -/
theorem Chained.mem {a b : Int × Int} {rs : List ReliableDelivery} {r : ReliableDelivery}
    (h : Chained a rs b) (hr : r ∈ rs) :
    a.1 < r.deliverySeq ∧ r.deliverySeq ≤ b.1 ∧ a.2 ≤ r.endSample ∧ r.endSample ≤ b.2 := by
  induction rs generalizing a with
  | nil => cases hr
  | cons r' rs ih =>
      obtain ⟨hseq, -, hend, hrest⟩ := h
      have hle := hrest.le
      rcases List.mem_cons.1 hr with rfl | hr
      · simp only at hle
        exact ⟨by omega, by omega, hend, hle.2⟩
      · have := ih hrest hr
        simp only at this
        exact ⟨by omega, by omega, by omega, by omega⟩

/-- The lookup of a retained end is the lookup of a delivery of the chain. -/
theorem Chained.findEnd_eq {a b : Int × Int} {rs : List ReliableDelivery} (h : Chained a rs b)
    (seq sample : Int) :
    findEnd seq rs = some sample ↔ ∃ r ∈ rs, r.deliverySeq = seq ∧ r.endSample = sample := by
  induction rs generalizing a with
  | nil => simp [findEnd]
  | cons r rs ih =>
      obtain ⟨-, -, -, hrest⟩ := h
      unfold findEnd
      split
      · next hseq =>
        constructor
        · intro he
          exact ⟨r, List.mem_cons_self, hseq, by simpa using he⟩
        · rintro ⟨r', hr', hs, rfl⟩
          rcases List.mem_cons.1 hr' with rfl | hr'
          · rfl
          · have := (hrest.mem hr').1
            simp only at this
            omega
      · next hseq =>
        rw [ih hrest]
        constructor
        · rintro ⟨r', hr', h'⟩
          exact ⟨r', List.mem_cons_of_mem _ hr', h'⟩
        · rintro ⟨r', hr', hs, he⟩
          rcases List.mem_cons.1 hr' with rfl | hr'
          · exact absurd hs hseq
          · exact ⟨r', hr', hs, he⟩

/-! ## The invariant -/

/-- The counters of the ledger describe its retained records, and the acknowledged cursor is the
trimmed one. -/
structure LogInv (s : DeliveryLedger) : Prop where
  chained : Chained (s.trimmedThroughSeq, s.trimmedAudioSample) s.records
    (s.nextDeliverySeq - 1, s.nextAudioSample)
  bytes : s.retainedBytes = (s.records.map (·.retainedBytes)).sum
  bounded : s.retainedBytes ≤ s.limits.maxBufferBytes
  sizes : ∀ r ∈ s.records, 0 ≤ r.retainedBytes
  acked : (s.ackedDeliverySeq, s.ackedAudioSample) = (s.trimmedThroughSeq, s.trimmedAudioSample)
  origin : 0 ≤ s.trimmedThroughSeq ∧ 0 ≤ s.trimmedAudioSample

/-- The cursor `(seq, sample)` is the trimmed cursor or the end of a retained delivery. -/
def IsDeliveryEnd (s : DeliveryLedger) (seq sample : Int) : Prop :=
  (seq = s.trimmedThroughSeq ∧ sample = s.trimmedAudioSample) ∨
    ∃ r ∈ s.records, r.deliverySeq = seq ∧ r.endSample = sample

theorem init_logInv (limits : LedgerLimits) : LogInv (init limits) where
  chained := rfl
  bytes := rfl
  bounded := by simp [init]
  sizes := by simp [init]
  acked := rfl
  origin := by simp [init]

/-- The invariant does not read the attachments, the queues, the terminal or the failure. -/
theorem LogInv.frame {s : DeliveryLedger} (h : LogInv s) (generation : Nat)
    (attachment : Option Nat) (queues : Nat → Mailbox LedgerMessage)
    (terminal : Option TerminalOutput) (terminalAcked : Bool) (failure : Option LedgerError) :
    LogInv { s with generation, attachment, queues, terminal, terminalAcked, failure } :=
  ⟨h.chained, h.bytes, h.bounded, h.sizes, h.acked, h.origin⟩

/-- A cursor passes `_validate_cursor` iff it is the trimmed cursor or the end of a retained
delivery. -/
theorem LogInv.validateCursor_iff {s : DeliveryLedger} (h : LogInv s) (seq sample : Int) :
    s.validateCursor seq sample = .ok () ↔ s.IsDeliveryEnd seq sample := by
  have hle := h.chained.le
  simp only at hle
  unfold validateCursor IsDeliveryEnd
  constructor
  · intro hv
    by_cases ht : seq = s.trimmedThroughSeq
    · left
      simp only [ht, ↓reduceIte] at hv
      split_ifs at hv
      exact ⟨ht, by omega⟩
    · right
      simp only [ht, ↓reduceIte] at hv
      split_ifs at hv
      cases hf : findEnd seq s.records with
      | none => simp [hf] at hv
      | some e =>
          simp only [hf] at hv
          split_ifs at hv with he
          · exact (h.chained.findEnd_eq seq sample).1 (by simpa [hf] using Eq.symm (not_not.1 he))
  · rintro (⟨rfl, rfl⟩ | ⟨r, hr, rfl, rfl⟩)
    · rw [if_neg (by omega), if_neg (by omega), if_neg (by omega), if_neg (by omega)]
      simp
    · obtain ⟨h₁, h₂, h₃, h₄⟩ := h.chained.mem hr
      simp only at h₁ h₂ h₃ h₄
      rw [if_neg (by omega), if_neg (by omega), if_neg (by omega), if_neg (by omega)]
      simp only [if_neg (show ¬ r.deliverySeq = s.trimmedThroughSeq by omega),
        (h.chained.findEnd_eq _ _).2 ⟨r, hr, rfl, rfl⟩]
      simp

/-! ## Every operation keeps the invariant -/

/-- A put changes the queues and nothing else. -/
theorem putControl_frame (s : DeliveryLedger) (generation : Nat) (message : LedgerMessage) :
    ∃ queues, (s.putControl generation message).2 = s.setQueues queues := by
  unfold putControl; split
  · exact ⟨s.queues, rfl⟩
  · exact ⟨_, rfl⟩

/-- The replay of `attach` changes the queues and nothing else. -/
theorem replay_frame (generation : Nat) (seq : Int) (rs : List ReliableDelivery)
    (s : DeliveryLedger) : ∃ queues, (replay generation seq rs s).2 = s.setQueues queues := by
  induction rs generalizing s with
  | nil => exact ⟨s.queues, rfl⟩
  | cons r rs ih =>
      unfold replay
      split
      · exact ih s
      · obtain ⟨queues, hp⟩ := putControl_frame s generation (.delivery r)
        split
        · next hq => rw [hq] at hp; exact ⟨queues, hp⟩
        · next s' hq =>
          rw [hq] at hp
          obtain ⟨queues', hr⟩ := ih s'
          exact ⟨queues', by rw [hr, show s' = _ from hp]; rfl⟩

/-- The fence of the superseded attachment changes the queues and nothing else. -/
theorem fenceOld_frame (s : DeliveryLedger) (old : Option Nat) :
    ∃ queues, (s.fenceOld old).2 = s.setQueues queues := by
  cases old with
  | none => exact ⟨s.queues, rfl⟩
  | some old => exact putControl_frame s old _

/-- An `attach` whose checks fail changes nothing. -/
theorem attach_of_refused {s : DeliveryLedger} {seq sample : Int} {e : LedgerError}
    (hc : s.checkAttach seq sample = .error e) : s.attach seq sample = (.error e, s) := by
  rw [attach, hc]

/-- An `attach` whose checks pass installs the new attachment and changes the queues, whether it
then returns or raises. -/
theorem attach_of_checked {s : DeliveryLedger} {seq sample : Int}
    (hc : s.checkAttach seq sample = .ok ()) :
    ∃ queues, (s.attach seq sample).2 = s.install.setQueues queues := by
  unfold attach
  rw [hc]
  obtain ⟨queues, hf⟩ := fenceOld_frame s.install s.attachment
  dsimp only
  split
  · next hq => rw [hq] at hf; exact ⟨queues, hf⟩
  · next s₁ hq =>
    rw [hq] at hf
    obtain ⟨queues', hr⟩ := replay_frame s₁.generation seq s₁.records s₁
    have hr' : (replay s₁.generation seq s₁.records s₁).2 = s.install.setQueues queues' := by
      rw [hr, show s₁ = _ from hf]; rfl
    split <;> next hq' => rw [hq'] at hr'; exact ⟨queues', hr'⟩

theorem attach_logInv {s : DeliveryLedger} (h : LogInv s) (seq sample : Int) :
    LogInv (s.attach seq sample).2 := by
  cases hc : s.checkAttach seq sample with
  | error e => rw [attach_of_refused hc]; exact h
  | ok u =>
      obtain ⟨queues, hs⟩ := attach_of_checked hc
      rw [hs]
      exact h.frame ..

theorem detach_logInv {s : DeliveryLedger} (h : LogInv s) (generation : Nat) :
    LogInv (s.detach generation).2 := by
  unfold detach; split
  · exact h.frame ..
  · exact h

/-- A message to the current attachment changes the queues and nothing else. -/
theorem notify_frame (s : DeliveryLedger) (message : LedgerMessage) :
    ∃ queues, (s.notify message).2 = s.setQueues queues := by
  unfold notify; split
  · exact ⟨s.queues, rfl⟩
  · exact putControl_frame ..

/-- An admitted sample range continues the canonical cursor forwards. -/
theorem sampleRange_ok {s : DeliveryLedger} {payload : SessionOutput} {range : Int × Int}
    (h : s.sampleRange payload = .ok range) :
    range.1 = s.nextAudioSample ∧ s.nextAudioSample ≤ range.2 := by
  cases payload with
  | audio o =>
      simp only [sampleRange] at h
      split_ifs at h with hg
      cases hc : audioSampleCount o with
      | error e => simp [hc] at h
      | ok n =>
          simp only [hc] at h
          split_ifs at h
          cases h
          exact ⟨by simp only; omega, by simp only; omega⟩
  | started o => cases h; exact ⟨rfl, Int.le_refl _⟩
  | event o => cases h; exact ⟨rfl, Int.le_refl _⟩
  | terminal o => cases h; exact ⟨rfl, Int.le_refl _⟩

theorem payloadSize_nonneg (jsonLen : SessionOutput → Nat) (payload : SessionOutput) :
    0 ≤ payloadSize jsonLen payload := by
  cases payload <;> simp [payloadSize]

section
variable (jsonLen : SessionOutput → Nat)

/-- A record that fits the window extends the log. -/
theorem append_logInv {s : DeliveryLedger} (h : LogInv s) {payload : SessionOutput}
    {range : Int × Int} (hr : s.sampleRange payload = .ok range)
    (hfit : ¬ s.retainedBytes + payloadSize jsonLen payload > s.limits.maxBufferBytes) :
    LogInv (s.append (s.recordOf jsonLen payload range)) := by
  obtain ⟨hstart, hend⟩ := sampleRange_ok hr
  refine ⟨?_, ?_, ?_, ?_, h.acked, h.origin⟩
  · have := h.chained.snoc (r := s.recordOf jsonLen payload range) (by simp [recordOf])
      (by simpa [recordOf] using hstart) (by simpa [recordOf] using hend)
    simpa [append, recordOf, max_eq_right hend] using this
  · simp [append, h.bytes]
  · simp only [append, recordOf] at hfit ⊢
    omega
  · intro r hmem
    rcases List.mem_append.1 hmem with hmem | hmem
    · exact h.sizes r hmem
    · rw [List.mem_singleton.1 hmem]; exact payloadSize_nonneg jsonLen payload

/-- `publish` numbers and retains the payload, with this sample range. -/
def Admits (s : DeliveryLedger) (payload : SessionOutput) (range : Int × Int) : Prop :=
  s.terminal = none ∧ s.sampleRange payload = .ok range ∧
    s.retainedBytes + payloadSize jsonLen payload ≤ s.limits.maxBufferBytes

/-- The state `publish` leaves: untouched, with the failure of the replay window recorded, or with
one more record; the queue of the current attachment is told about the last two. -/
theorem publish_state (s : DeliveryLedger) (payload : SessionOutput) :
    (s.publish jsonLen payload).2 = s ∨
      (s.publish jsonLen payload).2 =
        ({ s with failure := some bufferExceeded }.notify (.failure bufferExceeded)).2 ∨
      ∃ range, s.Admits jsonLen payload range ∧ (s.publish jsonLen payload).2 =
        ((s.append (s.recordOf jsonLen payload range)).notify
          (.delivery (s.recordOf jsonLen payload range))).2 := by
  unfold publish
  split
  · exact .inl rfl
  · next hterm =>
    split
    · exact .inl rfl
    · next range hr =>
      split
      · refine .inr (.inl ?_)
        split <;> next hq => rw [hq]
      · next hfit =>
        refine .inr (.inr ⟨range, ⟨by simpa using hterm, hr, not_lt.1 hfit⟩, ?_⟩)
        dsimp only
        split <;> next hq => rw [hq]

theorem publish_logInv {s : DeliveryLedger} (h : LogInv s) (payload : SessionOutput) :
    LogInv (s.publish jsonLen payload).2 := by
  rcases publish_state jsonLen s payload with hs | hs | ⟨range, ⟨-, hr, hfit⟩, hs⟩
  · rw [hs]; exact h
  · obtain ⟨queues, hn⟩ :=
      notify_frame { s with failure := some bufferExceeded } (.failure bufferExceeded)
    rw [hs, hn]
    exact h.frame ..
  · obtain ⟨queues, hn⟩ := notify_frame (s.append (s.recordOf jsonLen payload range))
      (.delivery (s.recordOf jsonLen payload range))
    rw [hs, hn]
    exact (append_logInv jsonLen h hr (not_lt.2 hfit)).frame ..

/-- The trimming loop stops exactly at the cursor it was given, when that cursor is the start of
the chain or the end of one of its deliveries. -/
theorem trim_spec {rs : List ReliableDelivery} {b : Int × Int} (seq sample : Int)
    (s : DeliveryLedger)
    (hch : Chained (s.trimmedThroughSeq, s.trimmedAudioSample) rs b)
    (hcur : (seq = s.trimmedThroughSeq ∧ sample = s.trimmedAudioSample) ∨
      ∃ r ∈ rs, r.deliverySeq = seq ∧ r.endSample = sample) :
    ∃ done kept, rs = done ++ kept ∧ Chained (seq, sample) kept b ∧
      trim seq sample rs s =
        { s with
          records := kept
          retainedBytes := s.retainedBytes - (done.map (·.retainedBytes)).sum
          trimmedThroughSeq := seq
          trimmedAudioSample := sample } := by
  induction rs generalizing s with
  | nil =>
      rcases hcur with ⟨rfl, rfl⟩ | ⟨r, hr, -⟩
      · exact ⟨[], [], rfl, hch, by simp [trim]⟩
      · cases hr
  | cons r rs ih =>
      obtain ⟨hseq, hstart, hend, hrest⟩ := hch
      simp only at hseq hend
      by_cases ht : seq = s.trimmedThroughSeq
      · -- the cursor is where the log already starts: the first record is newer
        have hs : sample = s.trimmedAudioSample := by
          rcases hcur with ⟨-, hs⟩ | ⟨r', hr', hs, -⟩
          · exact hs
          · have := (show Chained (s.trimmedThroughSeq, s.trimmedAudioSample) (r :: rs) b from
              ⟨hseq, hstart, hend, hrest⟩).mem hr'
            simp only at this
            omega
        subst ht hs
        refine ⟨[], r :: rs, rfl, ⟨hseq, hstart, hend, hrest⟩, ?_⟩
        rw [trim, if_pos (by omega)]
        simp
      · -- the first record is covered by the cursor, and the loop goes on behind it
        have hmem : ∃ r' ∈ r :: rs, r'.deliverySeq = seq ∧ r'.endSample = sample := by
          rcases hcur with ⟨h, -⟩ | h
          · exact absurd h ht
          · exact h
        have hcur' : (seq = r.deliverySeq ∧ sample = r.endSample) ∨
            ∃ r' ∈ rs, r'.deliverySeq = seq ∧ r'.endSample = sample := by
          obtain ⟨r', hr', hs, he⟩ := hmem
          rcases List.mem_cons.1 hr' with rfl | hr'
          · exact .inl ⟨hs.symm, he.symm⟩
          · exact .inr ⟨r', hr', hs, he⟩
        have hle : ¬ r.deliverySeq > seq ∧ ¬ r.endSample > sample := by
          rcases hcur' with ⟨h₁, h₂⟩ | ⟨r', hr', h₁, h₂⟩
          · omega
          · have := hrest.mem hr'
            simp only at this
            omega
        have hmax : max s.trimmedAudioSample r.endSample = r.endSample := max_eq_right hend
        obtain ⟨done, kept, hsplit, hkept, heq⟩ := ih
          { s with
            retainedBytes := s.retainedBytes - r.retainedBytes
            trimmedThroughSeq := r.deliverySeq
            trimmedAudioSample := max s.trimmedAudioSample r.endSample }
          (by simpa only [hmax] using hrest) (by simpa only [hmax] using hcur')
        refine ⟨r :: done, kept, by rw [hsplit, List.cons_append], hkept, ?_⟩
        rw [trim, if_neg hle.1, if_neg hle.2, heq]
        simp only [List.map_cons, List.sum_cons]
        congr 1
        ring

/-- An accepted acknowledgement trims the log up to its cursor. -/
theorem trim_logInv {s : DeliveryLedger} (h : LogInv s) {seq sample : Int}
    (hcur : s.IsDeliveryEnd seq sample) :
    LogInv (trim seq sample s.records
      { s with ackedDeliverySeq := seq, ackedAudioSample := sample }) := by
  obtain ⟨done, kept, hsplit, hkept, heq⟩ := trim_spec seq sample
    { s with ackedDeliverySeq := seq, ackedAudioSample := sample } h.chained hcur
  have hbytes := h.bytes
  have hbound := h.bounded
  rw [hsplit, List.map_append, List.sum_append] at hbytes
  have hdone : 0 ≤ (done.map (·.retainedBytes)).sum :=
    List.sum_nonneg fun n hn => by
      obtain ⟨r, hr, rfl⟩ := List.mem_map.1 hn
      exact h.sizes r (by rw [hsplit]; exact List.mem_append_left _ hr)
  have horigin : 0 ≤ seq ∧ 0 ≤ sample := by
    have := h.origin
    rcases hcur with ⟨rfl, rfl⟩ | ⟨r, hr, rfl, rfl⟩
    · exact this
    · have hm := h.chained.mem hr
      simp only at hm
      omega
  rw [heq]
  exact ⟨hkept, by simp only; omega, by simp only; omega,
    fun r hr => h.sizes r (by rw [hsplit]; exact List.mem_append_right _ hr), rfl, horigin⟩

theorem acknowledge_logInv {s : DeliveryLedger} (h : LogInv s) (generation : Nat)
    (seq sample : Int) : LogInv (s.acknowledge generation seq sample).2 := by
  unfold acknowledge
  split
  · exact h
  · split
    · exact h
    · split
      · exact h
      · split
        · exact h
        · next hv =>
          split
          · exact h
          · split
            · exact h
            · exact trim_logInv h ((h.validateCursor_iff seq sample).1 hv)

theorem terminalAck_logInv {s : DeliveryLedger} (h : LogInv s) (generation : Nat) :
    LogInv (s.terminalAck generation).2 := by
  unfold terminalAck
  split
  · exact h
  · split
    · exact h
    · exact h.frame ..

/-- Every operation keeps the log invariant, whether it returns or raises. -/
theorem step_logInv (s : DeliveryLedger) (op : Op) (h : LogInv s) : LogInv (s.step jsonLen op) := by
  cases op with
  | attach seq sample => exact attach_logInv h seq sample
  | publish payload => exact publish_logInv jsonLen h payload
  | acknowledge generation seq sample => exact acknowledge_logInv h generation seq sample
  | detach generation => exact detach_logInv h generation
  | terminalAck generation => exact terminalAck_logInv h generation
  | read generation => exact h.frame ..

/-- The log invariant holds after every history of a ledger. -/
theorem run_logInv (limits : LedgerLimits) (ops : List Op) :
    LogInv (run (step jsonLen) (init limits) ops) :=
  run_invariant (init_logInv limits) (step_logInv jsonLen) ops

/-! ## What a reader of the counters may rely on -/

/-- `_validate_cursor` raises only the three cursor codes. -/
theorem validateCursor_error {s : DeliveryLedger} {seq sample : Int} {e : LedgerError}
    (h : s.validateCursor seq sample = .error e) :
    e.code = .cursorAhead ∨ e.code = .cursorExpired ∨ e.code = .cursorMismatch := by
  unfold validateCursor at h
  dsimp only at h
  repeat' split at h
  all_goals cases h
  all_goals simp

/-- The counters of a ledger and its retained records tell one story. -/
structure Consistent (s : DeliveryLedger) : Prop where
  seqs : s.records.map (·.deliverySeq) =
    (List.range s.records.length).map fun i : Nat => s.trimmedThroughSeq + 1 + (i : Int)
  newest : s.trimmedThroughSeq + s.records.length = s.nextDeliverySeq - 1
  firstStart : (s.records.head?.map (·.startSample)).getD s.nextAudioSample = s.trimmedAudioSample
  ranges : s.records.IsChain fun r r' => r'.startSample = r.endSample
  lastEnd : (s.records.getLast?.map (·.endSample)).getD s.trimmedAudioSample = s.nextAudioSample
  bytes : s.retainedBytes = (s.records.map (·.retainedBytes)).sum
  bounded : s.retainedBytes ≤ s.limits.maxBufferBytes
  acked : (s.ackedDeliverySeq, s.ackedAudioSample) = (s.trimmedThroughSeq, s.trimmedAudioSample)
  released : ∀ r ∈ s.records, s.ackedDeliverySeq < r.deliverySeq
  noRegression : ∀ generation seq sample message s',
    s.acknowledge generation seq sample ≠ (.error ⟨.ackRegression, message⟩, s')

/-- Acknowledgements of the current attachment are refused only for their cursor: negative, or
ahead of the acknowledged cursor without being the end of a delivery. -/
theorem LogInv.acknowledge_eq {s : DeliveryLedger} (h : LogInv s) {generation : Nat}
    (hg : s.attachment = some generation) (seq sample : Int) :
    s.acknowledge generation seq sample =
      if seq < 0 ∨ sample < 0 then
        (.error ⟨.invalidAck, "ACK values must be non-negative"⟩, s)
      else if seq ≤ s.ackedDeliverySeq ∧ sample ≤ s.ackedAudioSample then (.ok (), s)
      else
        match s.validateCursor seq sample with
        | .error e => (.error e, s)
        | .ok () => (.ok (), trim seq sample s.records
            { s with ackedDeliverySeq := seq, ackedAudioSample := sample }) := by
  obtain ⟨hseq, hsample⟩ := Prod.mk.inj h.acked
  unfold acknowledge
  split
  · rfl
  · rw [requireGeneration, if_pos hg]
    dsimp only
    split
    · rfl
    · cases hv : s.validateCursor seq sample with
      | error e => rfl
      | ok u =>
        -- an accepted cursor is nowhere behind the acknowledged one
        have hge : ¬ seq < s.ackedDeliverySeq ∧ ¬ sample < s.ackedAudioSample := by
          rcases (h.validateCursor_iff seq sample).1 hv with ⟨h₁, h₂⟩ | ⟨r, hr, h₁, h₂⟩
          · omega
          · have := h.chained.mem hr
            simp only at this
            omega
        dsimp only
        rw [if_neg hge.1, if_neg hge.2]

theorem LogInv.consistent {s : DeliveryLedger} (h : LogInv s) : Consistent s := by
  obtain ⟨hch, hhead, hlast⟩ := h.chained.samples
  have hle := h.chained.le
  simp only at hle hhead hlast
  obtain ⟨hseq, -⟩ := Prod.mk.inj h.acked
  refine ⟨h.chained.seqs, by omega, hhead, hch, hlast, h.bytes, h.bounded, h.acked, ?_, ?_⟩
  · intro r hr
    have := (h.chained.mem hr).1
    simp only at this
    omega
  · intro generation seq sample message s' heq
    by_cases hg : s.attachment = some generation
    · rw [h.acknowledge_eq hg] at heq
      split_ifs at heq
      · simp at heq
      · cases heq
      · split at heq
        · next e he => cases heq; simpa using validateCursor_error he
        · cases heq
    · unfold acknowledge at heq
      rw [requireGeneration, if_neg hg] at heq
      split_ifs at heq <;> simp at heq

/-- Whether an operation was refused because of the cursor it was given. -/
def cursorRefused {α : Type} : Except LedgerError α → Bool
  | .ok _ => false
  | .error e =>
      e.code ∈ [LedgerCode.invalidCursor, .invalidAck, .ackRegression, .cursorAhead,
        .cursorExpired, .cursorMismatch]

theorem putControl_error {s s' : DeliveryLedger} {generation : Nat} {message : LedgerMessage}
    {e : LedgerError} (h : s.putControl generation message = (.error e, s')) :
    e.code = .attachmentOverflow := by
  unfold putControl at h
  split at h <;> cases h
  rfl

theorem replay_error {generation : Nat} {seq : Int} {rs : List ReliableDelivery}
    {s s' : DeliveryLedger} {e : LedgerError} (h : replay generation seq rs s = (.error e, s')) :
    e.code = .attachmentOverflow := by
  induction rs generalizing s with
  | nil => cases h
  | cons r rs ih =>
      unfold replay at h
      split at h
      · exact ih h
      · split at h
        · next hp => cases h; exact putControl_error hp
        · exact ih h

/-- Once its checks passed, `attach` fails only for lack of room. -/
theorem attach_error_of_checked {s s' : DeliveryLedger} {seq sample : Int} {e : LedgerError}
    (hc : s.checkAttach seq sample = .ok ()) (h : s.attach seq sample = (.error e, s')) :
    e.code = .attachmentOverflow := by
  unfold attach at h
  rw [hc] at h
  dsimp only at h
  split at h
  · next hf =>
    cases h
    cases ha : s.attachment with
    | none => rw [ha] at hf; cases hf
    | some old => rw [ha] at hf; exact putControl_error hf
  · split at h
    · next hr => cases h; exact replay_error hr
    · cases h

/-- A checked `attach` is refused for its cursor iff the cursor is no end of a delivery. -/
theorem LogInv.attach_cursorRefused {s : DeliveryLedger} (h : LogInv s) (hf : s.failure = none)
    (seq sample : Int) :
    cursorRefused (s.attach seq sample).1 = false ↔ s.IsDeliveryEnd seq sample := by
  have hsign : s.IsDeliveryEnd seq sample → ¬ (seq < 0 ∨ sample < 0) := by
    have ho := h.origin
    rintro (⟨rfl, rfl⟩ | ⟨r, hr, rfl, rfl⟩)
    · omega
    · have := h.chained.mem hr
      simp only at this
      omega
  cases hc : s.checkAttach seq sample with
  | error e =>
      have hcode : cursorRefused (.error e : Except LedgerError Nat) = true := by
        unfold checkAttach at hc
        rw [hf] at hc
        split_ifs at hc
        · cases hc; rfl
        · rcases validateCursor_error hc with h | h | h <;> simp [cursorRefused, h]
      have hno : ¬ s.IsDeliveryEnd seq sample := by
        intro hd
        rw [checkAttach, if_neg (hsign hd), hf, (h.validateCursor_iff seq sample).2 hd] at hc
        cases hc
      rw [attach, hc]
      simp [hcode, hno]
  | ok u =>
      have hd : s.IsDeliveryEnd seq sample := by
        unfold checkAttach at hc
        rw [hf] at hc
        split_ifs at hc
        exact (h.validateCursor_iff seq sample).1 hc
      simp only [hd, iff_true]
      cases ha : s.attach seq sample with
      | mk result s' =>
      cases result with
      | ok g => rfl
      | error e => simp [cursorRefused, attach_error_of_checked hc ha]

/-- In every history of a ledger, operations that raise included, the counters describe the
retained records and the acknowledged cursor is the trimmed one. A resume cursor is refused iff it
is neither the trimmed cursor nor the end of a retained delivery; an acknowledgement of the current
attachment is accepted iff its cursor is one of these or lies at or behind the acknowledged cursor,
and in the latter case it changes nothing. -/
theorem ledger_consistent (limits : LedgerLimits) (ops : List Op) :
    let s := run (step jsonLen) (init limits) ops
    Consistent s ∧
      ∀ seq sample,
        (s.failure = none →
          (cursorRefused (s.attach seq sample).1 = false ↔ s.IsDeliveryEnd seq sample)) ∧
        ∀ generation, s.attachment = some generation →
          ((s.acknowledge generation seq sample).1 = .ok () ↔
            s.IsDeliveryEnd seq sample ∨
              (0 ≤ seq ∧ 0 ≤ sample ∧ seq ≤ s.ackedDeliverySeq ∧ sample ≤ s.ackedAudioSample)) ∧
          (0 ≤ seq → 0 ≤ sample → seq ≤ s.ackedDeliverySeq → sample ≤ s.ackedAudioSample →
            (s.acknowledge generation seq sample).2 = s) := by
  intro s
  have h : LogInv s := run_logInv jsonLen limits ops
  refine ⟨h.consistent, fun seq sample => ⟨fun hf => h.attach_cursorRefused hf seq sample, ?_⟩⟩
  intro generation hg
  have ho := h.origin
  rw [h.acknowledge_eq hg]
  constructor
  · split_ifs with hneg hold
    · simp only [false_iff]
      rintro (hd | hold)
      · rcases hd with ⟨h₁, h₂⟩ | ⟨r, hr, h₁, h₂⟩
        · omega
        · have := h.chained.mem hr
          simp only at this
          omega
      · omega
    · simp only [true_iff]
      exact .inr (by omega)
    · have hiff := h.validateCursor_iff seq sample
      cases hv : s.validateCursor seq sample with
      | error e =>
          rw [hv] at hiff
          simp only [reduceCtorEq, false_iff] at hiff ⊢
          rintro (hd | hb)
          · exact hiff hd
          · exact hold ⟨hb.2.2.1, hb.2.2.2⟩
      | ok u => simp [hiff.1 hv]
  · intro h₁ h₂ h₃ h₄
    rw [if_neg (by omega), if_pos ⟨h₃, h₄⟩]

/-- An acknowledgement at or behind the acknowledged cursor is accepted whatever its coordinates:
after the end of delivery `2` at sample `3` is acknowledged, the cursor `(1, 2)`, which is the end of
no delivery at all, is accepted too. -/
theorem acknowledge_accepts_stale_cursor :
    let s := run (step fun _ => 1) (init ⟨10, 4, by decide, by decide⟩)
      [.publish (.event ⟨"sid", "text_progress", -1, "", "", []⟩),
        .publish (.audio ⟨"sid", [0, 0, 0], ⟨"pcm_u8", 24000, 1⟩, 0, 3, []⟩),
        .attach 0 0, .acknowledge 1 2 3]
    s.attachment = some 1 ∧ (s.acknowledge 1 1 2).1 = .ok () ∧ ¬ s.IsDeliveryEnd 1 2 := by
  refine ⟨rfl, rfl, ?_⟩
  rintro (⟨h, -⟩ | ⟨r, hr, -⟩)
  · exact absurd h (by decide)
  · cases hr

end

end DeliveryLedger

end StreamingTts.Session
