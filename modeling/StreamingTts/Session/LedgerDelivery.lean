import StreamingTts.Session.LedgerLog

/-!
# What an attachment's queue receives

Replay (`attach`) and live delivery (`publish`) are two ways into one bounded queue. The queue put
is the last thing either of them does, after the generation, the attachment or the log has already
changed, so a full queue leaves a half-made operation behind. `AttachOverflows` and `HasRoom` say
when that happens: outside of these states `attach` is atomic on error (`attach_atomic_iff`), and
over histories that avoid them every attachment is given, in order and once each, exactly the
deliveries behind its cursor (`delivery_exactly_once`).

The statement about whole histories needs to remember what the ledger forgets: `Traced` carries
every record the ledger ever numbered and the cursor each attachment resumed from.
-/

namespace StreamingTts.Session

open Lib (run Along Mailbox run_induct)

namespace DeliveryLedger

/-! ## Room in the queues -/

/-- The retained deliveries `attach` replays behind the cursor `seq`. -/
def replayed (s : DeliveryLedger) (seq : Int) : List ReliableDelivery :=
  s.records.filter fun r => seq < r.deliverySeq

/-- `attach` runs out of room: the superseded attachment's queue cannot take the fence, or the new
queue cannot take the replay. -/
def AttachOverflows (s : DeliveryLedger) (seq : Int) : Prop :=
  (∃ old, s.attachment = some old ∧
      (s.queues old).full s.limits.attachmentQueueMaxsize = true) ∨
    s.limits.attachmentQueueMaxsize < (s.replayed seq).length

/-- The generation of the current attachment is one that was issued. -/
def Issued (s : DeliveryLedger) : Prop := ∀ g, s.attachment = some g → 1 ≤ g ∧ g ≤ s.generation

theorem putControl_of_room (s : DeliveryLedger) (generation : Nat) (message : LedgerMessage)
    (h : (s.queues generation).full s.limits.attachmentQueueMaxsize = false) :
    ∃ q, s.putControl generation message =
        (.ok (), s.setQueues (Function.update s.queues generation q)) ∧
      q.placed = (s.queues generation).placed ++ [message] ∧
      q.size = (s.queues generation).size + 1 := by
  obtain ⟨q, hq⟩ := Mailbox.exists_put message h
  obtain ⟨-, hplaced, hsize⟩ := Mailbox.put_eq_some hq
  exact ⟨q, by rw [putControl, hq], hplaced, hsize⟩

theorem putControl_of_full (s : DeliveryLedger) (generation : Nat) (message : LedgerMessage)
    (h : (s.queues generation).full s.limits.attachmentQueueMaxsize = true) :
    ∃ e, s.putControl generation message = (.error e, s) := by
  rw [putControl, Mailbox.put_eq_none.2 h]
  exact ⟨_, rfl⟩

/-- A replay that fits appends the deliveries behind the cursor, in order. -/
theorem replay_of_room (generation : Nat) (seq : Int) (rs : List ReliableDelivery)
    (s : DeliveryLedger)
    (h : (s.queues generation).size + (rs.filter fun r => seq < r.deliverySeq).length ≤
      s.limits.attachmentQueueMaxsize) :
    ∃ q, replay generation seq rs s =
        (.ok (), s.setQueues (Function.update s.queues generation q)) ∧
      q.placed = (s.queues generation).placed ++
        (rs.filter fun r => seq < r.deliverySeq).map .delivery := by
  induction rs generalizing s with
  | nil => exact ⟨s.queues generation, by simp [replay, setQueues], by simp⟩
  | cons r rs ih =>
      unfold replay
      by_cases hr : r.deliverySeq ≤ seq
      · rw [if_pos hr]
        rw [List.filter_cons_of_neg (by simpa using hr)] at h ⊢
        exact ih s h
      · rw [if_neg hr]
        rw [List.filter_cons_of_pos (by simpa using hr)] at h ⊢
        simp only [List.length_cons] at h
        have hroom : (s.queues generation).full s.limits.attachmentQueueMaxsize = false := by
          simp only [Mailbox.full, Bool.and_eq_false_iff, decide_eq_false_iff_not]
          omega
        obtain ⟨q, hput, hplaced, hsize⟩ := putControl_of_room s generation (.delivery r) hroom
        rw [hput]
        obtain ⟨q', hrep, hplaced'⟩ := ih
          (s.setQueues (Function.update s.queues generation q))
          (by simp only [setQueues_queues, setQueues_limits, Function.update_self]; omega)
        refine ⟨q', ?_, ?_⟩
        · dsimp only
          rw [hrep, setQueues_setQueues, setQueues_queues, Function.update_idem]
        · rw [hplaced', setQueues_queues, Function.update_self, hplaced]
          simp

/-- A replay that does not fit raises. -/
theorem replay_of_overflow (generation : Nat) (seq : Int) (rs : List ReliableDelivery)
    (s : DeliveryLedger)
    (h : s.limits.attachmentQueueMaxsize <
      (s.queues generation).size + (rs.filter fun r => seq < r.deliverySeq).length)
    (hfit : (s.queues generation).size ≤ s.limits.attachmentQueueMaxsize) :
    ∃ e s', replay generation seq rs s = (.error e, s') := by
  induction rs generalizing s with
  | nil => simp only [List.filter_nil, List.length_nil] at h; omega
  | cons r rs ih =>
      unfold replay
      by_cases hr : r.deliverySeq ≤ seq
      · rw [if_pos hr]
        rw [List.filter_cons_of_neg (by simpa using hr)] at h
        exact ih s h hfit
      · rw [if_neg hr]
        rw [List.filter_cons_of_pos (by simpa using hr), List.length_cons] at h
        cases hfull : (s.queues generation).full s.limits.attachmentQueueMaxsize with
        | true =>
            obtain ⟨e, he⟩ := putControl_of_full s generation (.delivery r) hfull
            exact ⟨e, s, by rw [he]⟩
        | false =>
            obtain ⟨q, hput, -, hsize⟩ := putControl_of_room s generation (.delivery r) hfull
            rw [hput]
            have hpos := s.limits.attachmentQueueMaxsize_pos
            simp only [Mailbox.full, Bool.and_eq_false_iff, decide_eq_false_iff_not] at hfull
            exact ih (s.setQueues (Function.update s.queues generation q))
              (by simp only [setQueues_queues, setQueues_limits, Function.update_self]; omega)
              (by simp only [setQueues_queues, setQueues_limits, Function.update_self]; omega)

/-- The fence of a superseded attachment whose queue has room for it. -/
theorem install_fenceOld {s : DeliveryLedger} (hi : s.Issued)
    (hold : ∀ old, s.attachment = some old →
      (s.queues old).full s.limits.attachmentQueueMaxsize = false) :
    ∃ queues, s.install.fenceOld s.attachment = (.ok (), s.install.setQueues queues) ∧
      queues (s.generation + 1) = .empty ∧
      (∀ old, s.attachment = some old →
        (queues old).placed = (s.queues old).placed ++ [.fence (s.generation + 1)]) ∧
      ∀ g, g ≠ s.generation + 1 → s.attachment ≠ some g → queues g = s.queues g := by
  cases ha : s.attachment with
  | none =>
      refine ⟨s.install.queues, rfl, by simp, by simp, fun g hg _ => ?_⟩
      simp [Function.update_of_ne hg]
  | some old =>
      have hne : old ≠ s.generation + 1 := by have := hi old ha; omega
      have hqold : s.install.queues old = s.queues old := by simp [Function.update_of_ne hne]
      obtain ⟨q, hput, hplaced, -⟩ := putControl_of_room s.install old
        (.fence (s.generation + 1)) (by rw [hqold]; simpa using hold old ha)
      refine ⟨Function.update s.install.queues old q, hput, ?_, ?_, ?_⟩
      · simp [Function.update_of_ne hne.symm]
      · rintro old' h
        cases h
        rw [Function.update_self, hplaced, hqold]
      · intro g hg hne'
        have hgo : g ≠ old := fun h => hne' (by rw [h])
        rw [Function.update_of_ne hgo]
        simp [Function.update_of_ne hg]

/-- What a checked `attach` with room does: a fresh generation with the replayed deliveries in its
queue, a fence in the superseded one, and nothing else. -/
theorem attach_of_room {s : DeliveryLedger} {seq sample : Int} (hi : s.Issued)
    (hc : s.checkAttach seq sample = .ok ()) (hroom : ¬ s.AttachOverflows seq) :
    ∃ queues, s.attach seq sample = (.ok (s.generation + 1), s.install.setQueues queues) ∧
      (queues (s.generation + 1)).placed = (s.replayed seq).map .delivery ∧
      (∀ old, s.attachment = some old →
        (queues old).placed = (s.queues old).placed ++ [.fence (s.generation + 1)]) ∧
      ∀ g, g ≠ s.generation + 1 → s.attachment ≠ some g → queues g = s.queues g := by
  simp only [AttachOverflows, not_or, not_exists, not_and, Bool.not_eq_true] at hroom
  obtain ⟨hold, hfit⟩ := hroom
  obtain ⟨queues, hfence, hfresh, hq, hother⟩ := install_fenceOld hi hold
  -- the replay goes into the empty queue of the new generation
  obtain ⟨q, hrep, hplaced⟩ := replay_of_room (s.generation + 1) seq s.records
    (s.install.setQueues queues)
    (by
      rw [setQueues_queues, hfresh, Mailbox.empty_size, Nat.zero_add]
      exact Nat.not_lt.1 hfit)
  refine ⟨Function.update queues (s.generation + 1) q, ?_, ?_, ?_, ?_⟩
  · simp only [attach, hc, hfence, setQueues_generation, install_generation, setQueues_records,
      install_records, hrep]
    rfl
  · rw [Function.update_self, hplaced, setQueues_queues, hfresh]
    simp [replayed]
  · intro old ha
    have hne : old ≠ s.generation + 1 := by have := hi old ha; omega
    rw [Function.update_of_ne hne]
    exact hq old ha
  · intro g hg hne
    rw [Function.update_of_ne hg]
    exact hother g hg hne

/-- A checked `attach` without room raises after it has issued a new generation. -/
theorem attach_of_overflow {s : DeliveryLedger} {seq sample : Int} (hi : s.Issued)
    (hc : s.checkAttach seq sample = .ok ()) (hover : s.AttachOverflows seq) :
    ∃ e queues, s.attach seq sample = (.error e, s.install.setQueues queues) := by
  have herr : ∃ e s', s.attach seq sample = (.error e, s') := by
    unfold attach
    rw [hc]
    dsimp only
    by_cases hold : ∀ old, s.attachment = some old →
        (s.queues old).full s.limits.attachmentQueueMaxsize = false
    · -- the fence fits, so the replay is what overflows
      obtain ⟨queues, hfence, hfresh, -, -⟩ := install_fenceOld hi hold
      have hlong : s.limits.attachmentQueueMaxsize < (s.replayed seq).length := by
        rcases hover with ⟨old, ha, hfull⟩ | h
        · rw [hold old ha] at hfull; cases hfull
        · exact h
      obtain ⟨e, s', hr⟩ := replay_of_overflow (s.generation + 1) seq s.records
        (s.install.setQueues queues)
        (by rw [setQueues_queues, hfresh, Mailbox.empty_size, Nat.zero_add]; exact hlong)
        (by rw [setQueues_queues, hfresh, Mailbox.empty_size]; exact Nat.zero_le _)
      refine ⟨e, s', ?_⟩
      rw [hfence]
      simp only [setQueues_generation, install_generation, setQueues_records, install_records, hr]
    · push Not at hold
      obtain ⟨old, ha, hfull⟩ := hold
      have hne : old ≠ s.generation + 1 := by have := hi old ha; omega
      have hqold : s.install.queues old = s.queues old := by simp [Function.update_of_ne hne]
      obtain ⟨e, he⟩ := putControl_of_full s.install old
        (.fence s.install.generation) (by rw [hqold]; simpa using hfull)
      rw [ha, fenceOld, he]
      exact ⟨e, _, rfl⟩
  obtain ⟨e, s', he⟩ := herr
  obtain ⟨queues, hs⟩ := attach_of_checked hc
  rw [he] at hs
  exact ⟨e, queues, by rw [he, show s' = _ from hs]⟩

/-! ## Attaching is atomic unless it overflows -/

theorem setQueues_issued {s : DeliveryLedger} (h : s.Issued)
    (queues : Nat → Mailbox LedgerMessage) : (s.setQueues queues).Issued := h

theorem publish_attachment (jsonLen : SessionOutput → Nat) (s : DeliveryLedger)
    (payload : SessionOutput) :
    (s.publish jsonLen payload).2.attachment = s.attachment ∧
      (s.publish jsonLen payload).2.generation = s.generation := by
  rcases publish_state jsonLen s payload with hs | hs | ⟨range, -, hs⟩
  · rw [hs]; exact ⟨rfl, rfl⟩
  · obtain ⟨queues, hn⟩ :=
      notify_frame { s with failure := some bufferExceeded } (.failure bufferExceeded)
    rw [hs, hn]
    exact ⟨rfl, rfl⟩
  · obtain ⟨queues, hn⟩ := notify_frame (s.append (s.recordOf jsonLen payload range))
      (.delivery (s.recordOf jsonLen payload range))
    rw [hs, hn]
    exact ⟨rfl, rfl⟩

theorem trim_attachment (seq sample : Int) (rs : List ReliableDelivery) (s : DeliveryLedger) :
    (trim seq sample rs s).attachment = s.attachment ∧
      (trim seq sample rs s).generation = s.generation ∧
      (trim seq sample rs s).queues = s.queues := by
  induction rs generalizing s with
  | nil => exact ⟨rfl, rfl, rfl⟩
  | cons r rs ih =>
      unfold trim
      split_ifs
      · exact ⟨rfl, rfl, rfl⟩
      · exact ⟨rfl, rfl, rfl⟩
      · exact ih _

theorem acknowledge_attachment (s : DeliveryLedger) (generation : Nat) (seq sample : Int) :
    (s.acknowledge generation seq sample).2.attachment = s.attachment ∧
      (s.acknowledge generation seq sample).2.generation = s.generation ∧
      (s.acknowledge generation seq sample).2.queues = s.queues := by
  unfold acknowledge
  split
  · exact ⟨rfl, rfl, rfl⟩
  · split
    · exact ⟨rfl, rfl, rfl⟩
    · split
      · exact ⟨rfl, rfl, rfl⟩
      · split
        · exact ⟨rfl, rfl, rfl⟩
        · split_ifs
          · exact ⟨rfl, rfl, rfl⟩
          · exact ⟨rfl, rfl, rfl⟩
          · exact trim_attachment ..

section
variable (jsonLen : SessionOutput → Nat)

/-- The current attachment is always an issued one. -/
theorem step_issued (s : DeliveryLedger) (op : Op) (h : s.Issued) : (s.step jsonLen op).Issued := by
  cases op with
  | attach seq sample =>
      cases hc : s.checkAttach seq sample with
      | error e => rw [step, attach_of_refused hc]; exact h
      | ok u =>
          obtain ⟨queues, hs⟩ := attach_of_checked hc
          rw [step, hs]
          intro g hg
          cases hg
          simp
  | publish payload =>
      obtain ⟨ha, hg⟩ := publish_attachment jsonLen s payload
      simpa [step, Issued, ha, hg] using h
  | acknowledge generation seq sample =>
      obtain ⟨ha, hg, -⟩ := acknowledge_attachment s generation seq sample
      simpa [step, Issued, ha, hg] using h
  | detach generation =>
      simp only [step, detach]
      split
      · intro g hg; cases hg
      · exact h
  | terminalAck generation =>
      simp only [step, terminalAck]
      split
      · exact h
      · split <;> exact h
  | read generation => exact setQueues_issued h _

theorem run_issued (limits : LedgerLimits) (ops : List Op) :
    (run (step jsonLen) (init limits) ops).Issued :=
  Lib.run_invariant (fun _ h => by cases h) (step_issued jsonLen) ops

/-- What a caller of `attach` can see of the ledger is the same in `s` and `s'`: the generation, the
current attachment, the retained records, and who may issue commands. -/
def SameOwner (s s' : DeliveryLedger) : Prop :=
  s'.generation = s.generation ∧ s'.attachment = s.attachment ∧ s'.records = s.records ∧
    ∀ g, s'.requireGeneration g = s.requireGeneration g

/-- In every reachable ledger and for every cursor, an `attach` that raises leaves the ownership
and the log as they were, except in exactly one case: the cursor was accepted and the fence or the
replay found a full queue. -/
theorem attach_atomic_iff (limits : LedgerLimits) (ops : List Op) (seq sample : Int) :
    let s := run (step jsonLen) (init limits) ops
    (∀ e s', s.attach seq sample = (.error e, s') → s.SameOwner s') ↔
      ¬ (s.checkAttach seq sample = .ok () ∧ s.AttachOverflows seq) := by
  intro s
  have hi : s.Issued := run_issued jsonLen limits ops
  constructor
  · rintro hatomic ⟨hc, hover⟩
    obtain ⟨e, queues, he⟩ := attach_of_overflow hi hc hover
    have hgen := (hatomic e _ he).1
    simp at hgen
  · intro hno e s' he
    cases hc : s.checkAttach seq sample with
    | error e' =>
        rw [attach_of_refused hc] at he
        cases he
        exact ⟨rfl, rfl, rfl, fun _ => rfl⟩
    | ok u =>
        obtain ⟨queues, hok, -⟩ := attach_of_room hi hc fun hover => hno ⟨hc, hover⟩
        rw [hok] at he
        cases he

end

/-- A superseded attachment with a full queue: `attach` raises, and the generation has moved on and
the old attachment may issue no further command. -/
theorem attach_overflow_not_atomic :
    let s := run (step fun _ => 1) (init ⟨10, 1, by decide, by decide⟩)
      [.attach 0 0, .publish (.event ⟨"sid", "text_progress", -1, "", "", []⟩)]
    ∃ e s', s.attach 1 0 = (.error e, s') ∧ s.requireGeneration 1 = .ok () ∧
      s'.requireGeneration 1 ≠ .ok () ∧ ¬ s.SameOwner s' := by
  intro s
  refine ⟨⟨.attachmentOverflow, "attachment queue is full"⟩, (s.attach 1 0).2, rfl, rfl, ?_, ?_⟩
  · intro h
    cases h
  · rintro ⟨hgen, -⟩
    exact absurd hgen (by decide)

/-! ## What every attachment received -/

/-- The deliveries among the messages of a queue. -/
def deliveries (messages : List LedgerMessage) : List ReliableDelivery :=
  messages.filterMap fun
    | .delivery r => some r
    | .fence _ => none
    | .failure _ => none

@[simp] theorem deliveries_append (ms ms' : List LedgerMessage) :
    deliveries (ms ++ ms') = deliveries ms ++ deliveries ms' := by
  simp [deliveries]

@[simp] theorem deliveries_map (rs : List ReliableDelivery) :
    deliveries (rs.map .delivery) = rs := by
  induction rs with
  | nil => rfl
  | cons r rs ih => simp [deliveries]

@[simp] theorem deliveries_delivery (r : ReliableDelivery) : deliveries [.delivery r] = [r] := rfl

@[simp] theorem deliveries_fence (g : Nat) : deliveries [.fence g] = [] := rfl

@[simp] theorem deliveries_failure (e : LedgerError) : deliveries [.failure e] = [] := rfl

/-- A ledger with what it forgets: every record it numbered, in order, and the delivery cursor each
attachment was opened with. -/
structure Traced where
  ledger : DeliveryLedger
  published : List ReliableDelivery
  resumedFrom : Nat → Int

/-- A new ledger has numbered nothing and opened no attachment. -/
def Traced.init (limits : LedgerLimits) : Traced where
  ledger := .init limits
  published := []
  resumedFrom := fun _ => 0

section
variable (jsonLen : SessionOutput → Nat)

/-- One operation on a traced ledger. `publish` only ever appends to the records, so the new ones
are those behind the old length; a generation is opened when the generation number moves. -/
def Traced.step (t : Traced) (op : Op) : Traced where
  ledger := t.ledger.step jsonLen op
  published :=
    match op with
    | .publish _ =>
        t.published ++ (t.ledger.step jsonLen op).records.drop t.ledger.records.length
    | _ => t.published
  resumedFrom :=
    match op with
    | .attach seq _ =>
        if (t.ledger.step jsonLen op).generation = t.ledger.generation then t.resumedFrom
        else Function.update t.resumedFrom (t.ledger.step jsonLen op).generation seq
    | _ => t.resumedFrom

/-- The operation does not meet a full queue after it has changed the ledger. -/
def HasRoom (s : DeliveryLedger) : Op → Prop
  | .attach seq sample => s.checkAttach seq sample = .ok () → ¬ s.AttachOverflows seq
  | .publish payload => ∀ range g, s.Admits jsonLen payload range → s.attachment = some g →
      (s.queues g).full s.limits.attachmentQueueMaxsize = false
  | _ => True

/-- Exactly-once delivery: the numbered records are `1, 2, …`; every attachment ever opened was
given an initial part of those behind its cursor, the current one all of them; the numbers it saw
are its cursor plus `1, 2, …`; and a fence is the last message of its queue. -/
structure ExactlyOnce (t : Traced) : Prop where
  numbered : t.published.map (·.deliverySeq) =
    (List.range t.published.length).map fun i : Nat => 1 + (i : Int)
  received : ∀ g, 1 ≤ g → g ≤ t.ledger.generation →
    deliveries (t.ledger.queues g).placed <+: t.published.drop (t.resumedFrom g).toNat
  seqs : ∀ g, 1 ≤ g → g ≤ t.ledger.generation →
    (deliveries (t.ledger.queues g).placed).map (·.deliverySeq) =
      (List.range (deliveries (t.ledger.queues g).placed).length).map
        fun i : Nat => t.resumedFrom g + 1 + (i : Int)
  current : ∀ g, t.ledger.attachment = some g →
    deliveries (t.ledger.queues g).placed = t.published.drop (t.resumedFrom g).toNat
  fenced : ∀ g ms g' ms', (t.ledger.queues g).placed = ms ++ .fence g' :: ms' → ms' = []

/-- The invariant behind `ExactlyOnce`. The retained records are the published ones behind the
trimmed cursor, which is what makes a replay continue the live deliveries. -/
structure DeliveryInv (t : Traced) : Prop where
  log : LogInv t.ledger
  issued : t.ledger.Issued
  chained : Chained (0, 0) t.published (t.ledger.nextDeliverySeq - 1, t.ledger.nextAudioSample)
  retained : t.ledger.records = t.published.drop t.ledger.trimmedThroughSeq.toNat
  cursors : ∀ g, 0 ≤ t.resumedFrom g ∧ (t.resumedFrom g).toNat ≤ t.published.length
  received : ∀ g, 1 ≤ g → g ≤ t.ledger.generation →
    deliveries (t.ledger.queues g).placed <+: t.published.drop (t.resumedFrom g).toNat
  current : ∀ g, t.ledger.attachment = some g →
    deliveries (t.ledger.queues g).placed = t.published.drop (t.resumedFrom g).toNat
  unfenced : ∀ g g', t.ledger.attachment = some g → .fence g' ∉ (t.ledger.queues g).placed
  fenced : ∀ g ms g' ms', (t.ledger.queues g).placed = ms ++ .fence g' :: ms' → ms' = []

/-- The deliveries of a chain behind a cursor are a suffix of it. -/
theorem Chained.filter_eq_drop {a b : Int × Int} {rs : List ReliableDelivery} (h : Chained a rs b)
    {seq : Int} (hseq : a.1 ≤ seq) :
    (rs.filter fun r => seq < r.deliverySeq) = rs.drop (seq - a.1).toNat := by
  induction rs generalizing a with
  | nil => simp
  | cons r rs ih =>
      obtain ⟨hr, hstart, hend, hrest⟩ := h
      rcases Int.lt_or_eq_of_le hseq with hlt | heq
      · rw [List.filter_cons_of_neg (by simp only [decide_eq_true_eq]; omega),
          ih hrest (by simp only; omega),
          show (seq - a.1).toNat = (seq - r.deliverySeq).toNat + 1 by omega, List.drop_succ_cons]
      · have hall : ∀ r' ∈ r :: rs, decide (seq < r'.deliverySeq) = true := by
          intro r' hr'
          have := (show Chained a (r :: rs) b from ⟨hr, hstart, hend, hrest⟩).mem hr'
          simp only [decide_eq_true_eq]
          omega
        rw [List.filter_eq_self.2 hall, ← heq]
        simp

/-- The message of `publish` goes to the current attachment's queue, which must have room. -/
theorem notify_queues (s : DeliveryLedger) (message : LedgerMessage) :
    ∃ queues, (s.notify message).2 = s.setQueues queues ∧
      (∀ g, s.attachment ≠ some g → queues g = s.queues g) ∧
      ∀ g, s.attachment = some g → (queues g).placed = (s.queues g).placed ++
        if (s.queues g).full s.limits.attachmentQueueMaxsize then [] else [message] := by
  unfold notify
  cases ha : s.attachment with
  | none => exact ⟨s.queues, rfl, fun _ _ => rfl, fun g hg => by cases hg⟩
  | some g =>
      cases hf : (s.queues g).full s.limits.attachmentQueueMaxsize with
      | true =>
          obtain ⟨e, he⟩ := putControl_of_full s g message hf
          refine ⟨s.queues, congrArg Prod.snd he, fun _ _ => rfl, ?_⟩
          rintro g' ⟨⟩
          simp [hf]
      | false =>
          obtain ⟨q, hput, hplaced, -⟩ := putControl_of_room s g message hf
          refine ⟨Function.update s.queues g q, congrArg Prod.snd hput, ?_, ?_⟩
          · intro g' hne
            exact Function.update_of_ne (fun h => hne (by rw [h])) _ _
          · rintro g' ⟨⟩
            simp [hf, hplaced]

/-- What keeps the invariant without numbering a record or opening an attachment: the log may be
trimmed, the attachment released, and a failure told to the current attachment. -/
theorem DeliveryInv.frame {t : Traced} (h : DeliveryInv t) {s : DeliveryLedger} (hlog : LogInv s)
    (hiss : s.Issued)
    (hnext : s.nextDeliverySeq = t.ledger.nextDeliverySeq ∧
      s.nextAudioSample = t.ledger.nextAudioSample ∧ s.generation = t.ledger.generation)
    (hret : s.records = t.published.drop s.trimmedThroughSeq.toNat)
    (hatt : ∀ g, s.attachment = some g → t.ledger.attachment = some g)
    (hq : ∀ g, (s.queues g).placed = (t.ledger.queues g).placed ∨
      t.ledger.attachment = some g ∧ ∃ e,
        (s.queues g).placed = (t.ledger.queues g).placed ++ [.failure e]) :
    DeliveryInv ⟨s, t.published, t.resumedFrom⟩ := by
  obtain ⟨hn, ha, hg⟩ := hnext
  have hdel : ∀ g, deliveries (s.queues g).placed = deliveries (t.ledger.queues g).placed := by
    intro g
    rcases hq g with he | ⟨-, e, he⟩ <;> rw [he]
    simp
  refine ⟨hlog, hiss, ?_, hret, h.cursors, ?_, ?_, ?_, ?_⟩
  · rw [show (Traced.mk s t.published t.resumedFrom).ledger = s from rfl, hn, ha]
    exact h.chained
  · intro g h₁ h₂
    simp only at h₂ ⊢
    rw [hdel]
    exact h.received g h₁ (by omega)
  · intro g hs
    simp only at hs ⊢
    rw [hdel]
    exact h.current g (hatt g hs)
  · intro g g' hs
    have hu := h.unfenced g g' (hatt g hs)
    simp only
    rcases hq g with he | ⟨-, e, he⟩ <;> rw [he]
    · exact hu
    · simpa using hu
  · intro g ms g' ms' hms
    simp only at hms
    rcases hq g with he | ⟨hcur, e, he⟩
    · exact h.fenced g ms g' ms' (by rw [← he, hms])
    · -- the failure went to the current attachment, whose queue holds no fence
      have hmem : (.fence g' : LedgerMessage) ∈ (t.ledger.queues g).placed ++ [.failure e] := by
        rw [← he, hms]; simp
      simp only [List.mem_append, List.mem_singleton, reduceCtorEq, or_false] at hmem
      exact absurd hmem (h.unfenced g g' hcur)

/-- The published records are as many as the newest delivery number says. -/
theorem DeliveryInv.length_published {t : Traced} (h : DeliveryInv t) :
    (t.published.length : Int) = t.ledger.nextDeliverySeq - 1 := by
  have := h.chained.le
  simp only at this
  omega

theorem init_deliveryInv (limits : LedgerLimits) : DeliveryInv (Traced.init limits) := by
  refine ⟨init_logInv limits, fun g hg => (by cases hg), rfl, rfl, fun _ => ⟨le_rfl, le_rfl⟩, ?_, ?_,
    ?_, ?_⟩
  · intro g h₁ h₂
    simp only [Traced.init, init] at h₂
    omega
  · intro g hg; cases hg
  · intro g g' hg; cases hg
  · intro g ms g' ms' hms
    simp [Traced.init, init] at hms

/-- An `attach` with room opens its queue with the published records behind its cursor and fences
the queue it supersedes. -/
theorem DeliveryInv.attach {t : Traced} (h : DeliveryInv t) (seq sample : Int)
    (hroom : t.ledger.HasRoom jsonLen (.attach seq sample)) :
    DeliveryInv (t.step jsonLen (.attach seq sample)) := by
  cases hc : t.ledger.checkAttach seq sample with
  | error e =>
      have hs : t.step jsonLen (.attach seq sample) = t := by
        simp [Traced.step, DeliveryLedger.step, attach_of_refused hc]
      rw [hs]
      exact h
  | ok u =>
      obtain ⟨queues, hok, hnew, hold, hother⟩ := attach_of_room h.issued hc (hroom hc)
      have hs : t.step jsonLen (.attach seq sample) = ⟨t.ledger.install.setQueues queues,
          t.published, Function.update t.resumedFrom (t.ledger.generation + 1) seq⟩ := by
        simp [Traced.step, DeliveryLedger.step, hok]
      have hlog : LogInv (t.ledger.install.setQueues queues) := by
        have := attach_logInv h.log seq sample
        rwa [hok] at this
      -- the accepted cursor lies between the trimmed one and the newest delivery
      have hcur : 0 ≤ seq ∧ t.ledger.trimmedThroughSeq ≤ seq ∧
          seq ≤ t.ledger.nextDeliverySeq - 1 := by
        have hv : t.ledger.IsDeliveryEnd seq sample := by
          unfold checkAttach at hc
          split_ifs at hc
          split at hc
          · cases hc
          · exact (h.log.validateCursor_iff seq sample).1 hc
        have hle := h.log.chained.le
        have ho := h.log.origin
        rcases hv with ⟨rfl, -⟩ | ⟨r, hr, rfl, -⟩
        · simp only at hle; omega
        · have := h.log.chained.mem hr
          simp only at this; omega
      have hrep : t.ledger.replayed seq = t.published.drop seq.toNat := by
        have ho := h.log.origin
        rw [replayed, h.log.chained.filter_eq_drop (by simpa using hcur.2.1), h.retained,
          List.drop_drop]
        congr 1
        simp only
        omega
      have hlen := h.length_published
      rw [hs]
      refine ⟨hlog, ?_, h.chained, h.retained, ?_, ?_, ?_, ?_, ?_⟩
      · rintro g ⟨⟩; simp
      · intro g
        by_cases hg : g = t.ledger.generation + 1
        · subst hg; simp only [Function.update_self]; omega
        · simp only [Function.update_of_ne hg]; exact h.cursors g
      · intro g h₁ h₂
        simp only [setQueues_generation, install_generation, setQueues_queues] at h₂ ⊢
        by_cases hg : g = t.ledger.generation + 1
        · subst hg
          refine ⟨[], ?_⟩
          rw [List.append_nil, hnew, deliveries_map, hrep, Function.update_self]
        · rw [Function.update_of_ne hg]
          have hrec := h.received g h₁ (by omega)
          by_cases hatt : t.ledger.attachment = some g
          · simpa [hold g hatt] using hrec
          · rwa [hother g hg hatt]
      · rintro g ⟨⟩
        simp only [setQueues_queues, Function.update_self]
        rw [hnew, deliveries_map, hrep]
      · rintro g g' ⟨⟩
        simp [hnew]
      · intro g ms g' ms' hms
        simp only [setQueues_queues] at hms
        by_cases hg : g = t.ledger.generation + 1
        · subst hg
          have hmem : (.fence g' : LedgerMessage) ∈ (t.ledger.replayed seq).map .delivery := by
            rw [← hnew, hms]; simp
          simp at hmem
        · by_cases hatt : t.ledger.attachment = some g
          · rw [hold g hatt] at hms
            rcases List.eq_nil_or_concat ms' with hnil | ⟨ms'', m, rfl⟩
            · exact hnil
            · -- an earlier fence would lie in the queue of the current attachment
              rw [List.concat_eq_append, ← List.cons_append, ← List.append_assoc] at hms
              have := (List.append_inj' hms rfl).1
              exact absurd (by rw [this]; simp) (h.unfenced g g' hatt)
          · rw [hother g hg hatt] at hms
            exact h.fenced g ms g' ms' hms

/-- A `publish` with room appends the record to the published ones and to the current queue. -/
theorem DeliveryInv.publish {t : Traced} (h : DeliveryInv t) (payload : SessionOutput)
    (hroom : t.ledger.HasRoom jsonLen (.publish payload)) :
    DeliveryInv (t.step jsonLen (.publish payload)) := by
  have hlog := publish_logInv jsonLen h.log payload
  have hiss := step_issued jsonLen t.ledger (.publish payload) h.issued
  rcases publish_state jsonLen t.ledger payload with hs | hs | ⟨range, hadm, hs⟩
  · have ht : t.step jsonLen (.publish payload) = t := by
      simp [Traced.step, DeliveryLedger.step, hs]
    rw [ht]
    exact h
  · obtain ⟨queues, hn, hother, hcur⟩ :=
      notify_queues { t.ledger with failure := some bufferExceeded } (.failure bufferExceeded)
    rw [hn] at hs
    have ht : t.step jsonLen (.publish payload) =
        ⟨(t.ledger.publish jsonLen payload).2, t.published, t.resumedFrom⟩ := by
      simp [Traced.step, DeliveryLedger.step, hs]
    rw [ht]
    refine h.frame hlog hiss ?_ ?_ ?_ ?_
    · rw [hs]; exact ⟨rfl, rfl, rfl⟩
    · rw [hs]; exact h.retained
    · rw [hs]; exact fun g hg => hg
    · intro g
      rw [hs]
      by_cases hg : t.ledger.attachment = some g
      · have hc := hcur g hg
        simp only [setQueues_queues] at hc ⊢
        split at hc
        · exact .inl (by simpa using hc)
        · exact .inr ⟨hg, bufferExceeded, hc⟩
      · exact .inl (by rw [setQueues_queues, hother g hg])
  · obtain ⟨hstart, hend⟩ := sampleRange_ok hadm.2.1
    generalize hr : t.ledger.recordOf jsonLen payload range = r at hs
    obtain ⟨queues, hn, hother, hcur⟩ := notify_queues (t.ledger.append r) (.delivery r)
    rw [hn] at hs
    have ht : t.step jsonLen (.publish payload) =
        ⟨(t.ledger.append r).setQueues queues, t.published ++ [r], t.resumedFrom⟩ := by
      simp [Traced.step, DeliveryLedger.step, hs, append]
    have hlen := h.length_published
    have htrim : t.ledger.trimmedThroughSeq.toNat ≤ t.published.length := by
      have := h.log.chained.le
      have := h.log.origin
      simp only at *
      omega
    have hput : ∀ g, t.ledger.attachment = some g →
        (queues g).placed = (t.ledger.queues g).placed ++ [.delivery r] := by
      intro g hg
      have hc := hcur g hg
      simp only [append] at hc
      simpa only [hroom range g hadm hg, Bool.false_eq_true, ↓reduceIte] using hc
    rw [hs] at hlog
    simp only [DeliveryLedger.step, hs] at hiss
    rw [ht]
    refine ⟨hlog, hiss, ?_, ?_, ?_, ?_, ?_, ?_, ?_⟩
    · have := h.chained.snoc (r := r) (by simp [← hr, recordOf])
        (by simpa [← hr, recordOf] using hstart) (by simpa [← hr, recordOf] using hend)
      simpa [append, ← hr, recordOf, max_eq_right hend] using this
    · simp only [setQueues_records, setQueues_trimmedThroughSeq, append]
      rw [List.drop_append_of_le_length htrim, ← h.retained]
    · intro g
      have := h.cursors g
      simp only [List.length_append, List.length_singleton]
      omega
    · intro g h₁ h₂
      simp only [setQueues_queues]
      rw [List.drop_append_of_le_length (h.cursors g).2]
      by_cases hg : t.ledger.attachment = some g
      · refine ⟨[], ?_⟩
        rw [List.append_nil, hput g hg, deliveries_append, h.current g hg, deliveries_delivery]
      · rw [hother g hg]
        exact (h.received g h₁ h₂).trans (List.prefix_append _ _)
    · intro g hg
      simp only [setQueues_queues]
      rw [List.drop_append_of_le_length (h.cursors g).2, hput g hg, deliveries_append,
        h.current g hg, deliveries_delivery]
    · intro g g' hg
      simp only [setQueues_queues]
      rw [hput g hg]
      simpa using h.unfenced g g' hg
    · intro g ms g' ms' hms
      simp only [setQueues_queues] at hms
      by_cases hg : t.ledger.attachment = some g
      · have hmem : (.fence g' : LedgerMessage) ∈ (queues g).placed := by rw [hms]; simp
        rw [hput g hg] at hmem
        exact absurd (by simpa using hmem) (h.unfenced g g' hg)
      · rw [hother g hg] at hms
        exact h.fenced g ms g' ms' hms

/-- An acknowledgement leaves the published records behind the cursor it accepted. -/
theorem DeliveryInv.retained_acknowledge {t : Traced} (h : DeliveryInv t) (generation : Nat)
    (seq sample : Int) :
    let s := (t.ledger.acknowledge generation seq sample).2
    s.records = t.published.drop s.trimmedThroughSeq.toNat ∧
      s.nextDeliverySeq = t.ledger.nextDeliverySeq ∧
      s.nextAudioSample = t.ledger.nextAudioSample := by
  intro s
  have hsame : t.ledger.records = t.published.drop t.ledger.trimmedThroughSeq.toNat ∧
      t.ledger.nextDeliverySeq = t.ledger.nextDeliverySeq ∧
      t.ledger.nextAudioSample = t.ledger.nextAudioSample := ⟨h.retained, rfl, rfl⟩
  by_cases hg : t.ledger.attachment = some generation
  · have hs := h.log.acknowledge_eq hg seq sample
    rw [show s = (t.ledger.acknowledge generation seq sample).2 from rfl, hs]
    split_ifs
    · exact hsame
    · exact hsame
    · cases hv : t.ledger.validateCursor seq sample with
      | error e => exact hsame
      | ok u =>
          obtain ⟨done, kept, hsplit, hkept, heq⟩ := trim_spec seq sample
            { t.ledger with ackedDeliverySeq := seq, ackedAudioSample := sample }
            h.log.chained ((h.log.validateCursor_iff seq sample).1 hv)
          -- the numbers of the chain say how many records were released
          have hlen : seq = t.ledger.trimmedThroughSeq + done.length := by
            have h₁ := h.log.chained.le
            have h₂ := hkept.le
            rw [hsplit, List.length_append] at h₁
            simp only at h₁ h₂
            omega
          have ho := h.log.origin
          simp only [heq]
          refine ⟨?_, trivial, trivial⟩
          rw [show seq.toNat = t.ledger.trimmedThroughSeq.toNat + done.length by omega,
            ← List.drop_drop, ← h.retained, hsplit, List.drop_left]
  · have hs : s = t.ledger := by
      show (t.ledger.acknowledge generation seq sample).2 = t.ledger
      unfold acknowledge
      rw [requireGeneration, if_neg hg]
      split <;> rfl
    rw [hs]
    exact hsame

/-- Every operation with room keeps the invariant. -/
theorem step_deliveryInv (t : Traced) (op : Op) (h : DeliveryInv t)
    (hroom : t.ledger.HasRoom jsonLen op) : DeliveryInv (t.step jsonLen op) := by
  have hlog := step_logInv jsonLen t.ledger op h.log
  have hiss := step_issued jsonLen t.ledger op h.issued
  cases op with
  | attach seq sample => exact h.attach jsonLen seq sample hroom
  | publish payload => exact h.publish jsonLen payload hroom
  | acknowledge generation seq sample =>
      obtain ⟨hret, hn, ha⟩ := h.retained_acknowledge generation seq sample
      obtain ⟨hatt, hgen, hq⟩ := acknowledge_attachment t.ledger generation seq sample
      exact h.frame hlog hiss ⟨hn, ha, hgen⟩ hret (fun g hg => by rwa [← hatt])
        fun g => .inl (congrArg (fun queues => (queues g).placed) hq)
  | detach generation =>
      refine h.frame hlog hiss ?_ ?_ ?_ ?_
      all_goals simp only [DeliveryLedger.step, detach]
      · split <;> simp
      · split <;> exact h.retained
      · split
        · rintro g ⟨⟩
        · exact fun g hg => hg
      · split <;> simp
  | terminalAck generation =>
      have hs : ∃ acked, t.ledger.step jsonLen (.terminalAck generation) =
          { t.ledger with terminalAcked := acked } := by
        simp only [DeliveryLedger.step, terminalAck]
        split
        · exact ⟨_, rfl⟩
        · split <;> exact ⟨_, rfl⟩
      obtain ⟨acked, hs⟩ := hs
      rw [hs] at hlog hiss
      have ht : t.step jsonLen (.terminalAck generation) =
          ⟨{ t.ledger with terminalAcked := acked }, t.published, t.resumedFrom⟩ := by
        simp [Traced.step, hs]
      rw [ht]
      exact h.frame hlog hiss ⟨rfl, rfl, rfl⟩ h.retained (fun g hg => hg) fun g => .inl rfl
  | read generation =>
      refine h.frame hlog hiss ⟨rfl, rfl, rfl⟩ h.retained (fun g hg => hg) fun g => .inl ?_
      simp only [DeliveryLedger.step, setQueues_queues]
      by_cases hg : g = generation
      · subst hg; simp
      · rw [Function.update_of_ne hg]

theorem DeliveryInv.exactlyOnce {t : Traced} (h : DeliveryInv t) : ExactlyOnce t := by
  have hnum : t.published.map (·.deliverySeq) =
      (List.range t.published.length).map fun i : Nat => 1 + (i : Int) := by
    simpa using h.chained.seqs
  refine ⟨hnum, h.received, ?_, h.current, h.fenced⟩
  intro g h₁ h₂
  obtain ⟨rest, hrest⟩ := h.received g h₁ h₂
  have hc := h.cursors g
  refine List.ext_getElem (by simp) fun i hi hi' => ?_
  have hpub : (t.published.map (·.deliverySeq))[(t.resumedFrom g).toNat + i]? =
      some (t.resumedFrom g + 1 + (i : Int)) := by
    have hlt : (t.resumedFrom g).toNat + i < t.published.length := by
      have := congrArg List.length hrest
      simp only [List.length_append, List.length_drop, List.length_map] at this hi
      omega
    rw [hnum, List.getElem?_map, List.getElem?_range hlt]
    simp only [Option.map_some, Option.some.injEq]
    omega
  have hplaced : (t.published.map (·.deliverySeq))[(t.resumedFrom g).toNat + i]? =
      ((deliveries (t.ledger.queues g).placed).map (·.deliverySeq))[i]? := by
    rw [← List.getElem?_drop, ← List.map_drop, ← hrest, List.map_append,
      List.getElem?_append_left hi]
  rw [hpub, List.getElem?_eq_getElem hi] at hplaced
  simpa using (Option.some.inj hplaced).symm

/-- In every history of a ledger whose operations never meet a full queue after they have changed
the ledger, operations that raise included, every attachment is given exactly the deliveries behind
its cursor, in order, once each, as they were first numbered, and nothing after its fence. -/
theorem delivery_exactly_once (limits : LedgerLimits) (ops : List Op)
    (hroom : Along (Traced.step jsonLen) (fun t op => t.ledger.HasRoom jsonLen op)
      (Traced.init limits) ops) :
    ExactlyOnce (run (Traced.step jsonLen) (Traced.init limits) ops) :=
  (run_induct (init_deliveryInv limits) (step_deliveryInv jsonLen) hroom).exactlyOnce

end

/-- A history with a reconnect: two deliveries, one of them read and acknowledged, and a second
attachment that resumes behind the first delivery. -/
theorem delivery_exactly_once_reconnect :
    let event : SessionOutput := .event ⟨"sid", "text_progress", -1, "", "", []⟩
    ExactlyOnce (run (Traced.step fun _ => 1) (Traced.init ⟨10, 2, by decide, by decide⟩)
      [.attach 0 0, .publish event, .read 1, .acknowledge 1 1 0, .publish event, .attach 1 0]) := by
  intro event
  refine delivery_exactly_once (fun _ => 1) ⟨10, 2, by decide, by decide⟩ _ ?_
  refine ⟨?_, ?_, trivial, trivial, ?_, ?_, trivial⟩
  · rintro - (⟨old, h, -⟩ | h)
    · cases h
    · exact absurd h (by decide)
  · rintro range g - ⟨⟩; rfl
  · rintro range g - ⟨⟩; rfl
  · rintro - (⟨old, h, hfull⟩ | h)
    · cases h; exact absurd hfull (by decide)
    · exact absurd h (by decide)

/-- A live delivery that meets a full queue is numbered but never placed: the attachment is given
the deliveries `1` and `3`. -/
theorem delivery_gap_on_full_queue :
    let event : SessionOutput := .event ⟨"sid", "text_progress", -1, "", "", []⟩
    ¬ ExactlyOnce (run (Traced.step fun _ => 1) (Traced.init ⟨10, 1, by decide, by decide⟩)
      [.attach 0 0, .publish event, .publish event, .read 1, .publish event]) := by
  intro event h
  have hseqs := h.seqs 1 le_rfl (by decide)
  exact absurd hseqs (by decide)

end DeliveryLedger

end StreamingTts.Session
