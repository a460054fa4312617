import StreamingTts.Session.LedgerDelivery

/-!
# Clients that keep up with the replay window

A response whose client handles every delivery as soon as it is sent, and whose gateway handles every
acknowledgement as soon as it is written. `Exceeded` says that a publication of such a response runs out
of the replay window. A client that acknowledges its cursor once in `interval` deliveries is safe when
`interval` deliveries fit into the window; a client that says nothing for as many deliveries as the
window has bytes is not, however small its deliveries are.
-/

namespace StreamingTts.Session

open Lib DeliveryLedger

namespace DeliveryLedger

/-- The publication runs out of the replay window. -/
def Exceeds (jsonLen : SessionOutput → Nat) (s : DeliveryLedger) (payload : SessionOutput) : Prop :=
  s.terminal = none ∧ (s.sampleRange payload).toBool
    ∧ s.retainedBytes + payloadSize jsonLen payload > s.limits.maxBufferBytes

instance (jsonLen : SessionOutput → Nat) (s : DeliveryLedger) (payload : SessionOutput) :
    Decidable (s.Exceeds jsonLen payload) :=
  inferInstanceAs (Decidable (_ ∧ _ ∧ _))

/-- How `publish` comes out: it refuses the payload and changes nothing; it runs out of the replay
window; or it numbers the payload, and returns iff the queue of the attachment has room. -/
theorem publish_cases (jsonLen : SessionOutput → Nat) (s : DeliveryLedger) (payload : SessionOutput) :
    (∃ e, s.publish jsonLen payload = (.error e, s))
      ∨ (s.Exceeds jsonLen payload ∧ ∃ e queues, s.publish jsonLen payload
        = (.error e, { s with failure := some bufferExceeded, queues := queues }))
      ∨ ∃ range, s.Admits jsonLen payload range
        ∧ ((s.append (s.recordOf jsonLen payload range)).notify
              (.delivery (s.recordOf jsonLen payload range))
            = (.ok (), (s.publish jsonLen payload).2)
            ∧ (s.publish jsonLen payload).1 = .ok (s.recordOf jsonLen payload range)
          ∨ ∃ e, (s.append (s.recordOf jsonLen payload range)).notify
              (.delivery (s.recordOf jsonLen payload range))
            = (.error e, (s.publish jsonLen payload).2)
            ∧ (s.publish jsonLen payload).1 = .error e) := by
  unfold publish
  split
  · exact .inl ⟨_, rfl⟩
  · next hterm =>
    have hnone : s.terminal = none := by simpa using hterm
    split
    · exact .inl ⟨_, rfl⟩
    · next range hr =>
      split
      · next hfull =>
        refine .inr (.inl ⟨⟨hnone, by simp [hr, Except.toBool], hfull⟩, ?_⟩)
        obtain ⟨queues, hn⟩ :=
          notify_frame { s with failure := some bufferExceeded } (.failure bufferExceeded)
        split
        · next e s' hq =>
          rw [hq] at hn
          exact ⟨e, queues, congrArg (Prod.mk _) hn⟩
        · next s' hq =>
          rw [hq] at hn
          exact ⟨bufferExceeded, queues, congrArg (Prod.mk _) hn⟩
      · next hfit =>
        refine .inr (.inr ⟨range, ⟨hnone, hr, not_lt.1 hfit⟩, ?_⟩)
        dsimp only
        split
        · next e s' hq => exact .inr ⟨e, hq, rfl⟩
        · next s' hq => exact .inl ⟨hq, rfl⟩

/-- The sample range of a payload is never refused for the replay window. -/
theorem sampleRange_code {s : DeliveryLedger} {payload : SessionOutput} {e : LedgerError}
    (h : s.sampleRange payload = .error e) : e.code ≠ .resumeBufferExceeded := by
  cases payload with
  | audio o =>
      simp only [sampleRange] at h
      split at h
      · cases h
        simp
      · split at h
        · next hcount =>
          cases h
          unfold audioSampleCount at hcount
          split at hcount
          · cases hcount
            simp
          · dsimp only at hcount
            split at hcount
            · cases hcount
              simp
            · cases hcount
        · split at h
          · cases h
            simp
          · cases h
  | started o => cases h
  | event o => cases h
  | terminal o => cases h

/-- A message that is refused is refused for a full queue. -/
theorem notify_code {s t : DeliveryLedger} {m : LedgerMessage} {e : LedgerError}
    (h : s.notify m = (.error e, t)) : e.code = .attachmentOverflow := by
  simp only [notify] at h
  split at h
  · cases h
  · simp only [putControl] at h
    split at h
    · cases h
      rfl
    · cases h

/-- `publish` raises `resume_buffer_exceeded` only if the payload runs out of the replay window. -/
theorem publish_exceeded {jsonLen : SessionOutput → Nat} {s t : DeliveryLedger}
    {payload : SessionOutput} {e : LedgerError} (h : s.publish jsonLen payload = (.error e, t))
    (hcode : e.code = .resumeBufferExceeded) : s.Exceeds jsonLen payload := by
  unfold publish at h
  split at h
  · cases h
    cases hcode
  · next hterm =>
    split at h
    · next hrange =>
      cases h
      exact absurd hcode (sampleRange_code hrange)
    · next hrange =>
      split at h
      · next hfull =>
        exact ⟨by simpa using hterm, by simp [hrange, Except.toBool], hfull⟩
      · dsimp only at h
        split at h
        · next hnotify =>
          cases h
          rw [notify_code hnotify] at hcode
          cases hcode
        · cases h

/-- A payload that `publish` returns a record of was admitted, and is the last record. -/
theorem publish_ok {jsonLen : SessionOutput → Nat} {s t : DeliveryLedger} {payload : SessionOutput}
    {r : ReliableDelivery} (h : s.publish jsonLen payload = (.ok r, t)) :
    ∃ range queues, s.Admits jsonLen payload range ∧ r = s.recordOf jsonLen payload range
      ∧ t = (s.append r).setQueues queues := by
  rcases publish_cases jsonLen s payload with ⟨e, hpub⟩ | ⟨-, e, queues, hpub⟩ | ⟨range, hadmits, hcase⟩
  · rw [hpub] at h
    cases h
  · rw [hpub] at h
    cases h
  · rcases hcase with ⟨hnotify, hok⟩ | ⟨e, -, herror⟩
    · rw [h] at hnotify hok
      cases hok
      obtain ⟨queues, hframe⟩ := notify_frame (s.append (s.recordOf jsonLen payload range))
        (.delivery (s.recordOf jsonLen payload range))
      rw [hnotify] at hframe
      exact ⟨range, queues, hadmits, rfl, hframe⟩
    · rw [h] at herror
      cases herror

/-- The sample range of a record is the one its payload says, a point if it says none. -/
def Ranged (r : ReliableDelivery) : Prop :=
  match r.payload with
  | .audio o => r.startSample = o.outputSampleStart ∧ r.endSample = o.outputSampleEnd
  | _ => r.endSample = r.startSample

/-- The record of an admitted payload has its sample range. -/
theorem recordOf_ranged {jsonLen : SessionOutput → Nat} {s : DeliveryLedger} {payload : SessionOutput}
    {range : Int × Int} (h : s.sampleRange payload = .ok range) :
    Ranged (s.recordOf jsonLen payload range) := by
  cases payload with
  | audio o =>
      simp only [sampleRange] at h
      split at h
      · cases h
      · split at h
        · cases h
        · split at h
          · cases h
          · cases h
            exact ⟨rfl, rfl⟩
  | started o =>
      cases h
      rfl
  | event o =>
      cases h
      rfl
  | terminal o =>
      cases h
      rfl

/-- A chain ends where it starts, or at its last delivery. -/
theorem Chained.end_mem {a b : Int × Int} {rs : List ReliableDelivery} (h : Chained a rs b) :
    b = a ∨ ∃ r ∈ rs, r.deliverySeq = b.1 ∧ r.endSample = b.2 := by
  induction rs generalizing a with
  | nil => exact .inl h.symm
  | cons r rs ih =>
      obtain ⟨-, -, -, hrest⟩ := h
      rcases ih hrest with rfl | ⟨r', hr', hb⟩
      · exact .inr ⟨r, List.mem_cons_self, rfl, rfl⟩
      · exact .inr ⟨r', List.mem_cons_of_mem r hr', hb⟩

/-- The end of the log is a cursor that can be acknowledged. -/
theorem LogInv.end_valid {s : DeliveryLedger} (h : LogInv s) :
    s.IsDeliveryEnd (s.nextDeliverySeq - 1) s.nextAudioSample := by
  rcases h.chained.end_mem with heq | hmem
  · obtain ⟨hseq, hsample⟩ := Prod.mk.inj heq
    exact .inl ⟨hseq, hsample⟩
  · exact .inr hmem

end DeliveryLedger

/-- A client as the ledger sees it: what it makes of a delivery, and the cursors it acknowledges while it
does. `none` is a client that raises, or whose response has ended. -/
structure SdkClient (σ : Type) where
  deliver : σ → ReliableDelivery → Option (σ × List (Int × Int))

namespace SdkClient

/-- The gateway handles the acknowledgements of attachment `g`. -/
def acknowledgeAll (g : Nat) (acks : List (Int × Int)) (s : DeliveryLedger) : DeliveryLedger :=
  acks.foldl (fun s ack => (s.acknowledge g ack.1 ack.2).2) s

section
variable {σ : Type} (client : SdkClient σ) (jsonLen : SessionOutput → Nat) (g : Nat)

/-- Some publication of the response `outputs` runs out of the replay window, although the client on
attachment `g` keeps up. The pump stops at the first publication that raises. -/
def Exceeded : DeliveryLedger → σ → List SessionOutput → Prop
  | _, _, [] => False
  | s, a, o :: outputs =>
      match s.publish jsonLen o with
      | (.error e, _) => e.code = .resumeBufferExceeded
      | (.ok r, s) =>
          match client.deliver a r with
          | none => False
          | some (a, acks) =>
              Exceeded (acknowledgeAll g acks (s.step jsonLen (.read g))) a outputs

/-- A run of a response can be evaluated. -/
instance Exceeded.decidable : (s : DeliveryLedger) → (a : σ) → (outputs : List SessionOutput) →
    Decidable (client.Exceeded jsonLen g s a outputs)
  | _, _, [] => .isFalse id
  | s, a, o :: outputs => by
      unfold Exceeded
      split
      · infer_instance
      · split
        · infer_instance
        · exact Exceeded.decidable _ _ outputs

end

/-- A new ledger with its first attachment. -/
def attached (limits : LedgerLimits) : DeliveryLedger := ((DeliveryLedger.init limits).attach 0 0).2

/-- Deliveries of at most `b` bytes never run out of the replay window of a client that keeps up,
however long the response is and whatever its outputs that are not audio look like. -/
def NeverExceeds {σ : Type} (client : SdkClient σ) (a : σ) (limits : LedgerLimits) (b : Nat) : Prop :=
  ∀ (jsonLen : SessionOutput → Nat) (outputs : List SessionOutput),
    (∀ o ∈ outputs, payloadSize jsonLen o ≤ b) →
      ¬ client.Exceeded jsonLen 1 (attached limits) a outputs

/-! ## Clients that acknowledge -/

/-- The client acknowledges its cursor at least once in `interval` deliveries. `ready a cursor` says
that the client in state `a` has handled everything through `cursor`, and `since a` counts the
deliveries behind its last acknowledgement. -/
structure Acknowledges {σ : Type} (client : SdkClient σ) (interval : Nat) (since : σ → Nat)
    (ready : σ → Int × Int → Prop) : Prop where
  deliver : ∀ a cursor r a' acks, ready a cursor → r.deliverySeq = cursor.1 + 1 →
    r.startSample = cursor.2 → cursor.2 ≤ r.endSample → Ranged r →
    client.deliver a r = some (a', acks) →
    ready a' (r.deliverySeq, r.endSample)
      ∧ ((acks = [] ∧ since a' = since a + 1 ∧ since a' < interval)
        ∨ (acks = [(r.deliverySeq, r.endSample)] ∧ since a' = 0))

section
variable {σ : Type} {client : SdkClient σ} {jsonLen : SessionOutput → Nat} {s : DeliveryLedger}
  {interval b g : Nat} {since : σ → Nat} {ready : σ → Int × Int → Prop} {a : σ}

/-- The retained records are the `n` deliveries behind the last acknowledgement, and each of them is
small. -/
structure Small (s : DeliveryLedger) (limits : LedgerLimits) (g b n : Nat) : Prop where
  log : LogInv s
  limits : s.limits = limits
  attached : s.attachment = some g
  count : s.records.length = n
  sizes : ∀ r ∈ s.records, r.retainedBytes ≤ b

variable {limits : LedgerLimits} {n : Nat}

/-- `n` small records retain at most `n * b` bytes. -/
theorem Small.retained_le (h : Small s limits g b n) : s.retainedBytes ≤ n * b := by
  have hsum : ∀ rs : List ReliableDelivery, (∀ r ∈ rs, r.retainedBytes ≤ b) →
      (rs.map (·.retainedBytes)).sum ≤ (rs.length : Int) * b := by
    intro rs
    induction rs with
    | nil => simp
    | cons r rs ih =>
        intro hrs
        have hhead := hrs r List.mem_cons_self
        have htail := ih fun r' hr' => hrs r' (List.mem_cons_of_mem r hr')
        simp only [List.map_cons, List.sum_cons, List.length_cons, Nat.cast_add, Nat.cast_one,
          Int.add_mul, Int.one_mul]
        omega
  rw [h.log.bytes, ← h.count]
  exact hsum s.records h.sizes

/-- A publication with fewer than `interval` small records behind it fits. -/
theorem Small.fits (h : Small s limits g b n) (hn : n < interval)
    (hwindow : interval * b ≤ limits.maxBufferBytes) {o : SessionOutput}
    (ho : payloadSize jsonLen o ≤ b) : ¬ s.Exceeds jsonLen o := by
  rintro ⟨-, -, hover⟩
  have hle : ((n + 1) * b : Nat) ≤ limits.maxBufferBytes :=
    le_trans (Nat.mul_le_mul_right b hn) hwindow
  have hretained := h.retained_le
  have hcast : (((n + 1) * b : Nat) : Int) = (n : Int) * b + b := by
    rw [Nat.cast_mul, Nat.cast_add, Nat.cast_one, Int.add_mul, Int.one_mul]
  have hle' : (((n + 1) * b : Nat) : Int) ≤ limits.maxBufferBytes := by exact_mod_cast hle
  rw [h.limits] at hover
  omega

/-- A record that is published is one more. -/
theorem Small.publish {o : SessionOutput} {r : ReliableDelivery} {t : DeliveryLedger}
    (h : Small s limits g b n) (ho : payloadSize jsonLen o ≤ b)
    (hpub : s.publish jsonLen o = (.ok r, t)) :
    Small (t.step jsonLen (.read g)) limits g b (n + 1)
      ∧ r.deliverySeq = s.nextDeliverySeq ∧ r.startSample = s.nextAudioSample
      ∧ s.nextAudioSample ≤ r.endSample ∧ Ranged r
      ∧ (t.step jsonLen (.read g)).nextDeliverySeq = s.nextDeliverySeq + 1
      ∧ (t.step jsonLen (.read g)).nextAudioSample = r.endSample := by
  have hlog : LogInv t := by
    have := publish_logInv jsonLen h.log o
    rwa [hpub] at this
  obtain ⟨range, queues, hadmits, rfl, rfl⟩ := publish_ok hpub
  obtain ⟨hstart, hend⟩ := sampleRange_ok hadmits.2.1
  refine ⟨⟨hlog.frame .., h.limits, h.attached, ?_, ?_⟩, rfl, hstart, hend,
    recordOf_ranged hadmits.2.1, rfl, max_eq_right hend⟩
  · show (s.records ++ [_]).length = n + 1
    rw [List.length_append, h.count, List.length_singleton]
  · intro r hr
    rcases List.mem_append.1 (show r ∈ s.records ++ [_] from hr) with hr | hr
    · exact h.sizes r hr
    · rw [List.mem_singleton.1 hr]
      exact ho

/-- An acknowledgement of the whole log empties it. -/
theorem Small.acknowledge (h : Small s limits g b n) :
    Small (s.acknowledge g (s.nextDeliverySeq - 1) s.nextAudioSample).2 limits g b 0
      ∧ (s.acknowledge g (s.nextDeliverySeq - 1) s.nextAudioSample).2.nextDeliverySeq
        = s.nextDeliverySeq
      ∧ (s.acknowledge g (s.nextDeliverySeq - 1) s.nextAudioSample).2.nextAudioSample
        = s.nextAudioSample := by
  have hlog := acknowledge_logInv h.log g (s.nextDeliverySeq - 1) s.nextAudioSample
  have hle := h.log.chained.le
  simp only at hle
  have horigin := h.log.origin
  obtain ⟨hackedSeq, hackedSample⟩ := Prod.mk.inj h.log.acked
  rw [h.log.acknowledge_eq h.attached] at hlog ⊢
  rw [if_neg (by omega)] at hlog ⊢
  split
  · next hold =>
    have hcount : s.records.length = 0 := by omega
    exact ⟨⟨h.log, h.limits, h.attached, hcount, h.sizes⟩, rfl, rfl⟩
  · next hnew =>
    rw [if_neg hnew, (h.log.validateCursor_iff _ _).2 h.log.end_valid] at hlog
    rw [(h.log.validateCursor_iff _ _).2 h.log.end_valid]
    obtain ⟨done, kept, hsplit, hkept, heq⟩ := trim_spec (s.nextDeliverySeq - 1) s.nextAudioSample
      { s with ackedDeliverySeq := s.nextDeliverySeq - 1, ackedAudioSample := s.nextAudioSample }
      h.log.chained h.log.end_valid
    have hnil : kept = [] := by
      have hlength := hkept.le.1
      simp only at hlength
      exact List.eq_nil_of_length_eq_zero (by omega)
    subst hnil
    dsimp only at hlog ⊢
    rw [heq] at hlog ⊢
    exact ⟨⟨hlog, h.limits, h.attached, rfl, fun r hr => nomatch hr⟩, rfl, rfl⟩

/-- A client that acknowledges once in `interval` deliveries keeps the retained records below
`interval`, so deliveries of which `interval` fit into the window never run out of it. -/
theorem Acknowledges.not_exceeded (hclient : client.Acknowledges interval since ready)
    (hwindow : interval * b ≤ limits.maxBufferBytes) (outputs : List SessionOutput)
    (hsizes : ∀ o ∈ outputs, payloadSize jsonLen o ≤ b) (hsmall : Small s limits g b (since a))
    (hsince : since a < interval) (hready : ready a (s.nextDeliverySeq - 1, s.nextAudioSample)) :
    ¬ client.Exceeded jsonLen g s a outputs := by
  induction outputs generalizing s a with
  | nil => exact fun h => h
  | cons o outputs ih =>
      have ho := hsizes o List.mem_cons_self
      have hrest : ∀ o' ∈ outputs, payloadSize jsonLen o' ≤ b := fun o' ho' =>
        hsizes o' (List.mem_cons_of_mem o ho')
      unfold Exceeded
      split
      · next e t hpub =>
        exact fun hcode => hsmall.fits hsince hwindow ho (publish_exceeded hpub hcode)
      · next r t hpub =>
        obtain ⟨hsmall', hseq, hstart, hend, hranged, hnext, hsample⟩ := hsmall.publish ho hpub
        split
        · exact fun h => h
        · next a' acks hdeliver =>
          obtain ⟨hready', hacks⟩ := hclient.deliver a _ r a' acks hready
            (by rw [hseq]; omega) hstart hend hranged hdeliver
          have hcursor : (r.deliverySeq, r.endSample)
              = ((t.step jsonLen (.read g)).nextDeliverySeq - 1,
                (t.step jsonLen (.read g)).nextAudioSample) := by
            rw [hnext, hsample, hseq]
            simp
          rcases hacks with ⟨rfl, hsince', hlt⟩ | ⟨rfl, hsince'⟩
          · refine ih hrest ?_ hlt ?_
            · rw [hsince']
              exact hsmall'
            · rw [hcursor] at hready'
              exact hready'
          · rw [hcursor] at hready' ⊢
            obtain ⟨hempty, hnext', hsample'⟩ := hsmall'.acknowledge
            refine ih hrest ?_ (by omega) ?_
            · rw [hsince']
              exact hempty
            · simp only [acknowledgeAll, List.foldl_cons, List.foldl_nil]
              rw [hnext', hsample']
              exact hready'

/-- The first attachment retains nothing. -/
theorem attached_small (limits : LedgerLimits) (b : Nat) : Small (attached limits) limits 1 b 0 where
  log := attach_logInv (init_logInv limits) 0 0
  limits := rfl
  attached := rfl
  count := rfl
  sizes _ hr := nomatch hr

/-- A client that acknowledges never runs out of a window that `interval` deliveries fit into. -/
theorem Acknowledges.neverExceeds (hclient : client.Acknowledges interval since ready)
    (hwindow : interval * b ≤ limits.maxBufferBytes) (hinterval : 0 < interval) (hsince : since a = 0)
    (hready : ready a (0, 0)) : client.NeverExceeds a limits b := by
  intro jsonLen outputs hsizes
  refine hclient.not_exceeded hwindow outputs hsizes ?_ (by omega) hready
  rw [hsince]
  exact attached_small limits b

end

/-! ## Clients that keep silent -/

/-- An event that the clients have no branch for. -/
def plainEvent : SessionOutput := .event ⟨"sid", "segment", -1, "", "", []⟩

section
variable {σ : Type} {client : SdkClient σ} {s : DeliveryLedger} {a : σ} {limits : LedgerLimits}

/-- The ledger retains `k` bytes of events, and the reader of its attachment has read all of them. -/
structure Filled (s : DeliveryLedger) (limits : LedgerLimits) (k : Nat) : Prop where
  limits : s.limits = limits
  retained : s.retainedBytes = k
  terminal : s.terminal = none
  sample : s.nextAudioSample = 0
  attached : s.attachment = some 1
  read : (s.queues 1).size = 0

/-- A new attachment is filled with nothing. -/
theorem attached_filled (limits : LedgerLimits) : Filled (attached limits) limits 0 where
  limits := rfl
  retained := rfl
  terminal := rfl
  sample := rfl
  attached := rfl
  read := rfl

/-- The queue that everything was read of has room. -/
theorem Filled.room {k : Nat} (h : Filled s limits k) :
    (s.queues 1).full s.limits.attachmentQueueMaxsize = false := by
  have hpos := s.limits.attachmentQueueMaxsize_pos
  simp only [Mailbox.full, h.read, Bool.and_eq_false_iff, decide_eq_false_iff_not]
  omega

/-- The attachment is told every message. -/
theorem Filled.notify {k : Nat} (h : Filled s limits k) {t : DeliveryLedger} {m : LedgerMessage}
    (hattached : t.attachment = s.attachment) (hqueues : t.queues = s.queues)
    (hlimits : t.limits = s.limits) :
    ∃ q, t.notify m = (.ok (), t.setQueues (Function.update t.queues 1 q)) ∧ q.size = 1 := by
  obtain ⟨q, hput, -, hsize⟩ := putControl_of_room t 1 m (by rw [hqueues, hlimits]; exact h.room)
  refine ⟨q, ?_, by rw [hsize, hqueues, h.read]⟩
  simp only [DeliveryLedger.notify, hattached, h.attached, hput]

/-- One more event that fits. -/
theorem Filled.publish {k w : Nat} {jsonLen : SessionOutput → Nat} (h : Filled s limits k)
    (hw : jsonLen plainEvent = w) (hk : k + w ≤ limits.maxBufferBytes) :
    ∃ r t, s.publish jsonLen plainEvent = (.ok r, t) ∧ r.payload = plainEvent
      ∧ r.deliverySeq = s.nextDeliverySeq ∧ r.startSample = 0 ∧ r.endSample = 0
      ∧ Filled (t.step jsonLen (.read 1)) limits (k + w)
      ∧ (t.step jsonLen (.read 1)).nextDeliverySeq = s.nextDeliverySeq + 1 := by
  have hsize : payloadSize jsonLen plainEvent = w := by
    show ((jsonLen plainEvent : Nat) : Int) = w
    rw [hw]
  have hfits : ¬ s.retainedBytes + payloadSize jsonLen plainEvent > s.limits.maxBufferBytes := by
    rw [h.limits, h.retained, hsize]
    omega
  obtain ⟨r, hr⟩ : ∃ r, r = s.recordOf jsonLen plainEvent (s.nextAudioSample, s.nextAudioSample) :=
    ⟨_, rfl⟩
  have hsame : (s.append r).attachment = s.attachment ∧ (s.append r).queues = s.queues
      ∧ (s.append r).limits = s.limits := ⟨rfl, rfl, rfl⟩
  obtain ⟨q, hnotify, hone⟩ := Filled.notify (m := .delivery r) h hsame.1 hsame.2.1 hsame.2.2
  have hpub : s.publish jsonLen plainEvent
      = (.ok r, (s.append r).setQueues (Function.update (s.append r).queues 1 q)) := by
    unfold DeliveryLedger.publish
    rw [if_neg (by simp [h.terminal]),
      show s.sampleRange plainEvent = .ok (s.nextAudioSample, s.nextAudioSample) from rfl]
    dsimp only
    rw [if_neg hfits, ← hr, hnotify]
  refine ⟨r, _, hpub, by rw [hr]; rfl, by rw [hr]; rfl, by rw [hr]; exact h.sample,
    by rw [hr]; exact h.sample, ⟨h.limits, ?_, ?_, ?_, h.attached, ?_⟩, rfl⟩
  · show s.retainedBytes + r.retainedBytes = ((k + w : Nat) : Int)
    rw [h.retained, hr]
    show (k : Int) + payloadSize jsonLen plainEvent = ((k + w : Nat) : Int)
    rw [hsize, Nat.cast_add]
  · show (terminalOf r.payload).or s.terminal = none
    rw [hr, h.terminal]
    rfl
  · show max s.nextAudioSample r.endSample = 0
    rw [hr]
    show max s.nextAudioSample s.nextAudioSample = 0
    rw [max_self, h.sample]
  · simp only [DeliveryLedger.step, setQueues, Function.update_self, Mailbox.take_size, hone]

/-- An event that the window has no room for. -/
theorem Filled.publish_full {k : Nat} {jsonLen : SessionOutput → Nat} (h : Filled s limits k)
    (hk : limits.maxBufferBytes < k + jsonLen plainEvent) :
    ∃ t, s.publish jsonLen plainEvent = (.error bufferExceeded, t) := by
  have hover : s.retainedBytes + payloadSize jsonLen plainEvent > s.limits.maxBufferBytes := by
    rw [h.limits, h.retained]
    show (k : Int) + (jsonLen plainEvent : Nat) > limits.maxBufferBytes
    omega
  obtain ⟨q, hnotify, -⟩ := Filled.notify (t := { s with failure := some bufferExceeded })
    (m := .failure bufferExceeded) h rfl rfl rfl
  have hraise : (s.publish jsonLen plainEvent).1 = .error bufferExceeded := by
    unfold DeliveryLedger.publish
    rw [if_neg (by simp [h.terminal]),
      show s.sampleRange plainEvent = .ok (s.nextAudioSample, s.nextAudioSample) from rfl]
    dsimp only
    rw [if_pos hover, hnotify]
  exact ⟨(s.publish jsonLen plainEvent).2, Prod.ext hraise rfl⟩

/-- A client that handles as many events as fit into the window and acknowledges none of them runs out
of the window. `silent k` are the states of the client behind `k` of them. -/
theorem exceeded_of_silent {silent : Nat → σ → Int → Prop} {total : Nat} {jsonLen : SessionOutput → Nat}
    (hsilent : ∀ k a seq r, k < total → silent k a seq → r.payload = plainEvent →
      r.deliverySeq = seq + 1 → r.startSample = 0 → r.endSample = 0 →
      ∃ a', client.deliver a r = some (a', []) ∧ silent (k + 1) a' (seq + 1))
    (hfit : total * jsonLen plainEvent ≤ limits.maxBufferBytes)
    (hover : limits.maxBufferBytes < (total + 1) * jsonLen plainEvent)
    (n k : Nat) (hk : k + n = total) (hfilled : Filled s limits (k * jsonLen plainEvent))
    (ha : silent k a (s.nextDeliverySeq - 1)) :
    client.Exceeded jsonLen 1 s a (List.replicate (n + 1) plainEvent) := by
  induction n generalizing k s a with
  | zero =>
      obtain rfl : k = total := by omega
      obtain ⟨t, hpub⟩ := hfilled.publish_full (by rw [← Nat.succ_mul]; exact hover)
      rw [List.replicate_one]
      unfold Exceeded
      rw [hpub]
      rfl
  | succ n ih =>
      have hroom : (k + 1) * jsonLen plainEvent ≤ limits.maxBufferBytes :=
        le_trans (Nat.mul_le_mul_right _ (by omega)) hfit
      obtain ⟨r, t, hpub, hpayload, hseq, hstart, hend, hfilled', hnext⟩ :=
        hfilled.publish rfl (by rw [← Nat.succ_mul]; exact hroom)
      obtain ⟨a', hdeliver, ha'⟩ := hsilent k a _ r (by omega) ha hpayload (by rw [hseq]; omega)
        hstart hend
      rw [List.replicate_succ]
      unfold Exceeded
      rw [hpub]
      dsimp only
      rw [hdeliver]
      refine ih (k + 1) (by omega) (by rw [Nat.succ_mul]; exact hfilled') ?_
      have hcursor : (acknowledgeAll 1 [] (t.step jsonLen (.read 1))).nextDeliverySeq - 1
          = s.nextDeliverySeq - 1 + 1 := by
        have hnext' : (acknowledgeAll 1 [] (t.step jsonLen (.read 1))).nextDeliverySeq
            = s.nextDeliverySeq + 1 := hnext
        omega
      rw [hcursor]
      exact ha'

/-- A client that keeps silent while the window fills runs out of it, whatever size an event has. -/
theorem silent_exceeds (silent : Nat → σ → Int → Prop) {jsonLen : SessionOutput → Nat}
    (hw : 0 < jsonLen plainEvent)
    (hsilent : ∀ k a seq r, k < limits.maxBufferBytes / jsonLen plainEvent → silent k a seq →
      r.payload = plainEvent → r.deliverySeq = seq + 1 → r.startSample = 0 → r.endSample = 0 →
      ∃ a', client.deliver a r = some (a', []) ∧ silent (k + 1) a' (seq + 1))
    (ha : silent 0 a 0) :
    client.Exceeded jsonLen 1 (attached limits) a
      (List.replicate (limits.maxBufferBytes / jsonLen plainEvent + 1) plainEvent) :=
  exceeded_of_silent hsilent (Nat.div_mul_le_self _ _)
    (by rw [Nat.succ_mul]; exact Nat.lt_div_mul_add hw) _ 0 (by omega)
    (by rw [Nat.zero_mul]; exact attached_filled limits) ha

/-- A bound that admits an event does not save a silent client. -/
theorem not_neverExceeds_of_silent (silent : Nat → σ → Int → Prop)
    (hsilent : ∀ k a seq r, k < limits.maxBufferBytes → silent k a seq → r.payload = plainEvent →
      r.deliverySeq = seq + 1 → r.startSample = 0 → r.endSample = 0 →
      ∃ a', client.deliver a r = some (a', []) ∧ silent (k + 1) a' (seq + 1))
    (ha : silent 0 a 0) {b : Nat} (hb : 0 < b) : ¬ client.NeverExceeds a limits b := by
  intro h
  refine h (fun _ => 1) _ ?_ (silent_exceeds silent Nat.one_pos ?_ ha)
  · intro o ho
    rw [List.eq_of_mem_replicate ho]
    simp only [plainEvent, payloadSize]
    omega
  · rw [Nat.div_one]
    exact hsilent

end

end SdkClient

end StreamingTts.Session
