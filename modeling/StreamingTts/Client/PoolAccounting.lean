import Mathlib.Data.Set.Card
import StreamingTts.Client.Leases

/-!
# The accounts of the pool

`_connecting` counts the capacity slots that dials and recoveries have reserved, and the pool never
tracks and reserves more than `max_connections` connections. Both are read off one fact about a step:
it changes the slots of at most one owner, and `_connecting` by as much (`SlotMove`). The fact fails
where `_new_connection` and the handlers of `_recover_connection` decide differently about the slot of
a failed dial; `DialClean` is the condition that they agree.
-/

namespace StreamingTts.Client

namespace ConnectionPool

section
variable {cfg : AdapterConfig} {p q : ConnectionPool} {waiter : Option Token} {fresh : Token}
  {expired : Bool}

/-! ## Capacity -/

theorem removeWaiter?_connecting : (p.removeWaiter? waiter).connecting = p.connecting := by
  cases waiter <;> rfl

theorem serve_connecting : (p.serve waiter).connecting = p.connecting := removeWaiter?_connecting

theorem block_connecting {prewarm : Bool} :
    (p.block waiter fresh prewarm expired).1.connecting = p.connecting := by
  unfold ConnectionPool.block
  cases waiter <;> cases expired <;> rfl

theorem checkoutBlock_connecting :
    (p.checkoutBlock cfg waiter fresh expired).1.connecting = p.connecting
      ∧ (p.checkoutBlock cfg waiter fresh expired).2 ≠ .reserved := by
  unfold ConnectionPool.checkoutBlock
  split
  · exact ⟨rfl, by simp⟩
  · have hblock : (p.block waiter fresh false expired).1.connecting = p.connecting := block_connecting
    split <;> next heq => rw [heq] at hblock; exact ⟨hblock, by simp⟩

/-- A turn of `_checkout_connection` reserves a slot only if there is one. -/
theorem checkoutTurn_connecting :
    let r := p.checkoutTurn cfg waiter fresh expired
    (r.2 ≠ .reserved ∧ r.1.connecting = p.connecting)
      ∨ (r.2 = .reserved ∧ r.1.connecting = p.connecting + 1 ∧ p.load < cfg.maxConnections) := by
  intro r
  simp only [r]
  unfold ConnectionPool.checkoutTurn
  split
  · exact .inl ⟨by simp, removeWaiter?_connecting⟩
  · split
    · exact .inl ⟨by simp, rfl⟩
    · split
      · unfold ConnectionPool.checkoutServe
        split
        · next heq =>
          obtain rfl : p.takeIdle.2 = _ := congrArg Prod.snd heq
          exact .inl ⟨by simp, serve_connecting⟩
        · next heq =>
          obtain rfl : p.takeIdle.2 = _ := congrArg Prod.snd heq
          split
          · next hload => exact .inr ⟨rfl, serve_connecting, hload⟩
          · obtain ⟨hconnecting, hne⟩ := checkoutBlock_connecting (p := p.takeIdle.2)
            exact .inl ⟨hne, hconnecting⟩
      · obtain ⟨hconnecting, hne⟩ := checkoutBlock_connecting (p := p)
        exact .inl ⟨hne, hconnecting⟩

/-- A turn of `_checkout_connection` tracks nothing new. -/
theorem CheckoutMove.connections {outcome : CheckoutOutcome} (hmove : CheckoutMove p q waiter outcome) :
    q.connections = p.connections := by
  cases hmove with
  | handed _ _ hconnections => exact hconnections
  | idle _ hconnections => exact hconnections
  | none hsame => exact hsame.connections

/-- A turn of `_reserve_new_connection` reserves a slot only if there is one. -/
theorem reserveTurn_connecting {idleTarget : Nat} :
    let r := p.reserveTurn cfg idleTarget waiter fresh expired
    (r.2 ≠ .reserved ∧ r.1.connecting = p.connecting)
      ∨ (r.2 = .reserved ∧ r.1.connecting = p.connecting + 1 ∧ p.load < cfg.maxConnections) := by
  intro r
  simp only [r]
  unfold ConnectionPool.reserveTurn
  split
  · exact .inl ⟨by simp, removeWaiter?_connecting⟩
  · split
    · refine .inl ⟨by simp, ?_⟩
      split
      · exact removeWaiter?_connecting
      · rfl
    · split
      · next hserve => exact .inr ⟨rfl, serve_connecting, hserve.2⟩
      · split
        · exact .inl ⟨by simp, rfl⟩
        · have hblock : (p.block waiter fresh true expired).1.connecting = p.connecting :=
            block_connecting
          split <;> next heq => rw [heq] at hblock; exact .inl ⟨by simp, hblock⟩

/-- `_release_connection` reserves nothing and tracks nothing new. -/
theorem releaseConnection_connecting (c : Conn) (idleSince : Option Int) (now : Int) :
    (p.releaseConnection cfg c idleSince now).connecting = p.connecting
      ∧ (p.releaseConnection cfg c idleSince now).connections ⊆ p.connections := by
  have hidle (p : ConnectionPool) : (p.releaseIdle cfg c idleSince now).connecting = p.connecting
      ∧ (p.releaseIdle cfg c idleSince now).connections ⊆ p.connections := by
    unfold ConnectionPool.releaseIdle
    repeat' split
    · exact ⟨rfl, Finset.erase_subset _ _⟩
    · exact ⟨rfl, subset_rfl⟩
    · exact ⟨rfl, subset_rfl⟩
  unfold ConnectionPool.releaseConnection
  split
  · exact ⟨rfl, Finset.erase_subset _ _⟩
  · unfold ConnectionPool.releaseLive
    split
    · exact hidle _
    · split
      · exact hidle _
      · exact ⟨rfl, subset_rfl⟩

theorem expire_connecting (now : Int) :
    (p.expireIdleConnections cfg now).connecting = p.connecting
      ∧ (p.expireIdleConnections cfg now).connections ⊆ p.connections := by
  unfold ConnectionPool.expireIdleConnections
  split
  · exact ⟨rfl, subset_rfl⟩
  · split <;> exact ⟨rfl, Finset.filter_subset _ _⟩

/-- Fewer tracked connections leave more capacity. -/
theorem load_le_of_subset (hconnecting : q.connecting = p.connecting)
    (hsub : q.connections ⊆ p.connections) : q.load ≤ p.load := by
  have hcard := Finset.card_le_card hsub
  unfold load
  omega

/-- Apart from the turns, no critical section uses up capacity. -/
theorem Upkeep.load_le (hstep : Upkeep cfg p q) : q.load ≤ p.load := by
  cases hstep with
  | stay => exact le_rfl
  | wake w => exact le_rfl
  | discard c => exact load_le_of_subset rfl (Finset.erase_subset _ _)
  | @replace c q hreplace =>
      unfold replaceConnection at hreplace
      split at hreplace
      · cases hreplace
      · split at hreplace
        · cases hreplace
        · next hmem =>
          cases hreplace
          -- the slot of the old connection is the one that is reserved
          have hcard : (p.connections.erase c).card + 1 = p.connections.card :=
            Finset.card_erase_add_one (not_not.1 hmem)
          simp only [load, ConnectionPool.notifyAll, ConnectionPool.forget]
          omega
  | dialOk c createdAt =>
      unfold newConnectionOk
      have hcard := Finset.card_insert_le c p.connections
      split <;>
        simp only [load, dropReservation, fillReservation, ConnectionPool.notifyAll] <;> omega
  | dialFailed b exc =>
      unfold newConnectionFailed
      split <;> simp only [load, dropReservation, ConnectionPool.notifyAll] <;> omega
  | releaseReserved =>
      simp only [load, releaseReservedReplacement, dropReservation, ConnectionPool.notifyAll]
      omega
  | release c idleSince now =>
      have hrelease := @releaseConnection_connecting cfg p c idleSince now
      exact load_le_of_subset hrelease.1 hrelease.2
  | keepalive htake =>
      unfold keepaliveTake at htake
      split at htake
      · cases htake
      · split at htake <;> cases htake
        exact le_rfl
  | expire now =>
      have hexpire := @expire_connecting cfg p now
      exact load_le_of_subset hexpire.1 hexpire.2
  | close =>
      unfold ConnectionPool.close
      split
      · exact le_rfl
      · exact load_le_of_subset rfl (Finset.empty_subset _)

end

end ConnectionPool

namespace Adapter

section
variable {ι κ : Type} [DecidableEq ι] [DecidableEq κ] {cfg : AdapterConfig} {s s' : Adapter ι κ}

/-! ## Slots -/

/-- The slots that an owner has reserved: at most one. -/
def reserved (s : Adapter ι κ) : Owner ι κ → Nat
  | .caller i => (s.callers i).reserved
  | .session j => (s.sessions j).reserved

/-- The owners of a reserved slot. -/
def slotHolders (s : Adapter ι κ) : Set (Owner ι κ) := { o | s.reserved o = 1 }

omit [DecidableEq ι] [DecidableEq κ] in
theorem reserved_le (o : Owner ι κ) : s.reserved o ≤ 1 := by
  cases o with
  | caller i =>
      simp only [reserved]
      cases s.callers i <;> simp [CallerPhase.reserved]
  | session j =>
      simp only [reserved, StreamTransport.reserved]
      cases (s.sessions j).recovery with
      | none => simp
      | some r =>
          simp only [Option.elim_some, Recovery.reserved]
          split <;> simp

/-- At most one owner's slots change, and `_connecting` changes with them. -/
inductive SlotMove (s s' : Adapter ι κ) : Prop
  | none (hsame : ∀ o, s'.reserved o = s.reserved o)
      (hconnecting : s'.pool.connecting = s.pool.connecting)
  | at (o : Owner ι κ) (hother : ∀ o', o' ≠ o → s'.reserved o' = s.reserved o')
      (hown : s'.pool.connecting - s'.reserved o = s.pool.connecting - s.reserved o)

/-- `_connecting` is the number of reserved slots. -/
structure SlotsOk (s : Adapter ι κ) : Prop where
  finite : s.slotHolders.Finite
  connecting : s.pool.connecting = s.slotHolders.ncard

omit [DecidableEq ι] [DecidableEq κ] in
theorem SlotsOk.new : SlotsOk (new : Adapter ι κ) := by
  have hempty : (Adapter.new : Adapter ι κ).slotHolders = ∅ := by
    refine Set.eq_empty_of_forall_notMem fun o ho => ?_
    cases o <;> cases ho
  refine ⟨by rw [hempty]; exact Set.finite_empty, ?_⟩
  rw [hempty, Set.ncard_empty]
  rfl

/-- A step that moves slots together with `_connecting` keeps the account. -/
theorem SlotsOk.move (h : SlotsOk s) (hmove : SlotMove s s') : SlotsOk s' := by
  cases hmove with
  | none hsame hconnecting =>
      have hholders : s'.slotHolders = s.slotHolders := by
        ext o
        exact Eq.congr_left (hsame o)
      exact ⟨hholders ▸ h.finite, by rw [hconnecting, hholders, h.connecting]⟩
  | «at» o hother hown =>
      have hbefore : s.reserved o ≤ 1 := reserved_le o
      have hafter : s'.reserved o ≤ 1 := reserved_le o
      have hconnecting := h.connecting
      have hmem : ∀ x, x ≠ o → (x ∈ s'.slotHolders ↔ x ∈ s.slotHolders) :=
        fun x hx => Eq.congr_left (hother x hx)
      have hinsert {A B : Set (Owner ι κ)} (hAB : ∀ x, x ≠ o → (x ∈ A ↔ x ∈ B)) (ho : o ∈ A) :
          A = insert o B := by
        ext x
        by_cases hx : x = o
        · simp [hx, ho]
        · simp [hx, hAB x hx]
      have hequal (ho : o ∈ s'.slotHolders ↔ o ∈ s.slotHolders) : SlotsOk s' := by
        have hholders : s'.slotHolders = s.slotHolders := by
          ext x
          by_cases hx : x = o
          · rw [hx, ho]
          · exact hmem x hx
        have ho : s'.reserved o = 1 ↔ s.reserved o = 1 := ho
        refine ⟨hholders ▸ h.finite, ?_⟩
        rw [hholders]
        omega
      by_cases hin : o ∈ s.slotHolders <;> by_cases hin' : o ∈ s'.slotHolders
      · exact hequal (iff_of_true hin' hin)
      · have hholders := hinsert (fun x hx => (hmem x hx).symm) hin
        have hfinite : s'.slotHolders.Finite :=
          h.finite.subset (hholders ▸ Set.subset_insert o s'.slotHolders)
        have hcard := Set.ncard_insert_of_notMem hin' hfinite
        rw [← hholders] at hcard
        have hin : s.reserved o = 1 := hin
        have hin' : s'.reserved o ≠ 1 := hin'
        refine ⟨hfinite, ?_⟩
        omega
      · have hholders := hinsert hmem hin'
        have hcard := Set.ncard_insert_of_notMem hin h.finite
        rw [← hholders] at hcard
        have hin : s.reserved o ≠ 1 := hin
        have hin' : s'.reserved o = 1 := hin'
        refine ⟨hholders ▸ h.finite.insert o, ?_⟩
        omega
      · exact hequal (iff_of_false hin' hin)

omit [DecidableEq ι] in
/-- Only the session `j` moves. -/
theorem SlotMove.session {j : κ} {t : StreamTransport} {n : Int} (hcallers : s'.callers = s.callers)
    (hsessions : s'.sessions = Function.update s.sessions j t) (hn : s'.pool.connecting = n)
    (hown : n - t.reserved = s.pool.connecting - (s.sessions j).reserved) : SlotMove s s' := by
  subst hn
  refine .at (.session j) (fun o ho => ?_) ?_
  · cases o with
    | caller i => simp only [reserved, hcallers]
    | session k =>
        have hk : k ≠ j := fun he => ho (by rw [he])
        simp only [reserved, hsessions, Function.update_of_ne hk]
  · simpa only [reserved, hsessions, Function.update_self] using hown

omit [DecidableEq κ] in
/-- Only the caller `i` moves. -/
theorem SlotMove.caller {i : ι} {phase : CallerPhase} {n : Int}
    (hcallers : s'.callers = Function.update s.callers i phase) (hsessions : s'.sessions = s.sessions)
    (hn : s'.pool.connecting = n)
    (hown : n - phase.reserved = s.pool.connecting - (s.callers i).reserved) : SlotMove s s' := by
  subst hn
  refine .at (.caller i) (fun o ho => ?_) ?_
  · cases o with
    | caller k =>
        have hk : k ≠ i := fun he => ho (by rw [he])
        simp only [reserved, hcallers, Function.update_of_ne hk]
    | session j => simp only [reserved, hsessions]
  · simpa only [reserved, hcallers, Function.update_self] using hown

omit [DecidableEq ι] [DecidableEq κ] in
/-- Nobody moves. -/
theorem SlotMove.pool (hcallers : s'.callers = s.callers) (hsessions : s'.sessions = s.sessions)
    (hconnecting : s'.pool.connecting = s.pool.connecting) : SlotMove s s' := by
  refine .none (fun o => ?_) hconnecting
  cases o with
  | caller i => simp only [reserved, hcallers]
  | session j => simp only [reserved, hsessions]

omit [DecidableEq ι] [DecidableEq κ] in
theorem SlotMove.refl : SlotMove s s := .pool rfl rfl rfl

/-! ## Callers -/

omit [DecidableEq ι] [DecidableEq κ] in
/-- `_release_connection` touches neither the callers nor the sessions nor the slots. -/
theorem releaseConnection_slots (c : Conn) (settimeoutOk : Bool) (idleSince : Option Int) (now : Int) :
    (s.releaseConnection cfg c settimeoutOk idleSince now).callers = s.callers
      ∧ (s.releaseConnection cfg c settimeoutOk idleSince now).sessions = s.sessions
      ∧ (s.releaseConnection cfg c settimeoutOk idleSince now).pool.connecting
          = s.pool.connecting := by
  have hrelease := (@ConnectionPool.releaseConnection_connecting cfg s.pool c idleSince now).1
  unfold Adapter.releaseConnection
  simp only
  split
  · split <;> exact ⟨rfl, rfl, hrelease⟩
  · exact ⟨rfl, rfl, rfl⟩

omit [DecidableEq κ] in
theorem turn_slotMove (i : ι) (expired : Bool) : SlotMove s (s.turn cfg i expired) := by
  unfold Adapter.turn
  split
  · next waiter hphase =>
    have hfree : (s.callers i).reserved = 0 := by rw [hphase]; rfl
    split
    · have hturn := @ConnectionPool.checkoutTurn_connecting cfg s.pool waiter s.nextToken expired
      generalize s.pool.checkoutTurn cfg waiter s.nextToken expired = r at hturn
      obtain ⟨q, outcome⟩ := r
      rcases hturn with ⟨hne, hconnecting⟩ | ⟨hreserved, hconnecting, -⟩
      · cases outcome with
        | reserved => exact absurd rfl hne
        | leased | waits | closed | saturated | timedOut =>
            exact .caller (i := i) rfl rfl hconnecting (by rw [hfree]; rfl)
      · cases hreserved
        refine .caller (i := i) rfl rfl hconnecting ?_
        rw [hfree, CallerPhase.reserved]
        omega
    · exact .refl
  · next target waiter hphase =>
    have hfree : (s.callers i).reserved = 0 := by rw [hphase]; rfl
    split
    · have hturn := @ConnectionPool.reserveTurn_connecting cfg s.pool waiter s.nextToken expired target
      generalize s.pool.reserveTurn cfg target waiter s.nextToken expired = r at hturn
      obtain ⟨q, outcome⟩ := r
      rcases hturn with ⟨hne, hconnecting⟩ | ⟨hreserved, hconnecting, -⟩
      · cases outcome with
        | reserved => exact absurd rfl hne
        | unneeded | waits | closed | saturated | timedOut =>
            exact .caller (i := i) rfl rfl hconnecting (by rw [hfree]; rfl)
      · cases hreserved
        refine .caller (i := i) rfl rfl hconnecting ?_
        rw [hfree, CallerPhase.reserved]
        omega
    · exact .refl
  · exact .refl

omit [DecidableEq κ] in
/-- An event of a caller moves the slot of that caller. -/
theorem callerStep_slotMove (i : ι) (e : CallerEvent) : SlotMove s (s.callerStep cfg i e) := by
  -- the slot of a caller that dials, and of any other
  have hdialing {phase : CallerPhase} (hphase : s.callers i = .dialing) (hnext : phase.reserved = 0) :
      s.pool.connecting - 1 - phase.reserved = s.pool.connecting - (s.callers i).reserved := by
    rw [hphase, hnext, CallerPhase.reserved]
    omega
  have hfree {phase next : CallerPhase} (hphase : s.callers i = phase) (hzero : phase.reserved = 0)
      (hnext : next.reserved = 0) :
      s.pool.connecting - next.reserved = s.pool.connecting - (s.callers i).reserved := by
    rw [hphase, hzero, hnext]
  cases e with
  | checkout | reserve target =>
      simp only [Adapter.callerStep]
      split
      · next hphase => exact .caller rfl rfl rfl (hfree hphase rfl rfl)
      · exact .refl
  | turn expired => exact turn_slotMove i expired
  | timeout =>
      simp only [Adapter.callerStep, Adapter.timeout]
      split
      · exact .pool rfl rfl rfl
      · exact .pool rfl rfl rfl
      · exact .refl
  | dialOk createdAt =>
      simp only [Adapter.callerStep]
      split
      · next hphase =>
        unfold Adapter.callerDialOk ConnectionPool.newConnectionOk
        cases s.pool.closed <;>
          exact .caller rfl rfl rfl (hdialing hphase rfl)
      · exact .refl
  | dialFailed exc =>
      simp only [Adapter.callerStep]
      split
      · next hphase => exact .caller rfl rfl rfl (hdialing hphase rfl)
      · exact .refl
  | keepalive c =>
      simp only [Adapter.callerStep]
      split
      · next p hphase hp =>
        unfold ConnectionPool.keepaliveTake at hp
        split at hp
        · cases hp
        · split at hp <;> cases hp
          exact .caller rfl rfl rfl (hfree hphase rfl rfl)
      · exact .refl
  | release settimeoutOk idleSince now =>
      simp only [Adapter.callerStep]
      split
      · next c hphase =>
        obtain ⟨hcallers, hsessions, hconnecting⟩ :=
          @releaseConnection_slots _ _ cfg s c settimeoutOk idleSince now
        have hmoved : ((s.releaseConnection cfg c settimeoutOk idleSince now).setCaller i .idle).callers
            = Function.update s.callers i .idle := by
          simp only [Adapter.setCaller, hcallers]
        exact .caller hmoved hsessions hconnecting (hfree hphase rfl rfl)
      · exact .refl
  | discard =>
      simp only [Adapter.callerStep]
      split
      · next c hphase => exact .caller rfl rfl rfl (hfree hphase rfl rfl)
      · exact .refl

/-! ## Sessions -/

/-- The handlers of a recovery agree with `_new_connection` about the slot of a dial: a dial from a
reservation that was kept ends in no exception other than a dial failure, and a dial with an attempt
left does not fail in a closed adapter. -/
def DialClean (cfg : AdapterConfig) (s : Adapter ι κ) : AdapterEvent ι κ → Prop
  | .session j (.recoverDialOk _) =>
      ∀ r, (s.sessions j).recovery = some r → r.pc = .dialing → s.pool.closed = true →
        r.replacementReservationHeld = false
  | .session j (.recoverDialFailed exc) =>
      ∀ r, (s.sessions j).recovery = some r → r.pc = .dialing →
        (exc = .dialFailure → moreAttempts cfg r = true → s.pool.closed = false)
          ∧ (exc = .other → r.replacementReservationHeld = false)
  | _ => True

omit [DecidableEq ι] in
theorem finishTransport_slotMove (j : κ) (reusable settimeoutOk : Bool) (now : Int) :
    SlotMove s (s.finishTransport cfg j reusable settimeoutOk now) := by
  unfold Adapter.finishTransport
  simp only
  split
  · exact .refl
  · split
    · obtain ⟨hcallers, hsessions, hconnecting⟩ := @releaseConnection_slots _ _ cfg
        (s.setSession j (s.sessions j).finish) (s.sessions j).conn settimeoutOk none now
      exact .session hcallers hsessions hconnecting rfl
    · exact .session (n := s.pool.connecting) rfl rfl rfl rfl

omit [DecidableEq ι] in
/-- The session of a recovery moves. -/
theorem SlotMove.recovery {j : κ} {r : Recovery} {t : StreamTransport} {n : Int}
    (hr : (s.sessions j).recovery = some r) (hcallers : s'.callers = s.callers)
    (hsessions : s'.sessions = Function.update s.sessions j t) (hn : s'.pool.connecting = n)
    (hown : n - t.reserved = s.pool.connecting - r.reserved) : SlotMove s s' := by
  refine .session hcallers hsessions hn ?_
  rw [hown, StreamTransport.reserved, hr]
  rfl

/-- A recovery that neither dials nor has kept a reservation has no slot. -/
theorem Recovery.reserved_eq_zero {r : Recovery} (hpc : r.pc ≠ .dialing)
    (hheld : r.replacementReservationHeld = false) : r.reserved = 0 := by
  simp [Recovery.reserved, hpc, hheld]

/-- A recovery that dials has a slot. -/
theorem Recovery.reserved_dialing {r : Recovery} (hpc : r.pc = .dialing) : r.reserved = 1 := by
  simp [Recovery.reserved, hpc]

/-- Away from the dial only a kept reservation counts. -/
theorem Recovery.reserved_congr {r r' : Recovery} (hpc : r.pc ≠ .dialing) (hpc' : r'.pc ≠ .dialing)
    (hheld : r'.replacementReservationHeld = r.replacementReservationHeld) :
    r'.reserved = r.reserved := by
  simp [Recovery.reserved, hpc, hpc', hheld]

omit [DecidableEq ι] in
/-- The dial of a recovery takes the slot of the connection it replaces, or uses the one it kept. -/
theorem recoverDial_slotMove {j : κ} {r : Recovery} (hr : (s.sessions j).recovery = some r)
    (hok : RecoveryOk s.pool.connections (s.sessions j) r) (hpc : r.pc = .dial) :
    SlotMove s (s.recoverDial j r) := by
  have hne : r.pc ≠ .dialing := by simp [hpc]
  have hcleanup : SlotMove s (s.setSession j ((s.sessions j).setRecovery { r with pc := .cleanup })) := by
    refine .recovery hr rfl rfl rfl ?_
    congr 2
    exact Recovery.reserved_congr hne (by simp) rfl
  unfold Adapter.recoverDial
  simp only
  split
  · next c hc =>
    split
    · exact hcleanup
    · next p hp =>
      have hconnecting : p.connecting = s.pool.connecting + 1 := by
        unfold ConnectionPool.replaceConnection at hp
        split at hp
        · cases hp
        · split at hp <;> cases hp
          rfl
      have hbefore : r.reserved = 0 := Recovery.reserved_eq_zero hne (hok.current_held c hc)
      have hafter : ({ r with pc := .dialing } : Recovery).reserved = 1 := Recovery.reserved_dialing rfl
      refine .recovery hr rfl rfl hconnecting ?_
      show s.pool.connecting + 1 - ({ r with pc := .dialing } : Recovery).reserved = _
      rw [hbefore, hafter]
      omega
  · split
    · next hheld =>
      have hbefore : r.reserved = 1 := by simp [Recovery.reserved, hheld]
      have hafter : ({ r with pc := .dialing } : Recovery).reserved = 1 := Recovery.reserved_dialing rfl
      refine .recovery hr rfl rfl rfl ?_
      show s.pool.connecting - ({ r with pc := .dialing } : Recovery).reserved = _
      rw [hbefore, hafter]
    · exact hcleanup

omit [DecidableEq ι] in
theorem recoverDialOk_slotMove {j : κ} {r : Recovery} (hr : (s.sessions j).recovery = some r)
    (hpc : r.pc = .dialing) (hclosed : s.pool.closed = true → r.replacementReservationHeld = false)
    (createdAt : Int) : SlotMove s (s.recoverDialOk j r createdAt) := by
  have hbefore : r.reserved = 1 := Recovery.reserved_dialing hpc
  unfold Adapter.recoverDialOk ConnectionPool.newConnectionOk
  cases h : s.pool.closed with
  | true =>
      refine .recovery (n := s.pool.connecting - 1) hr rfl rfl rfl ?_
      show s.pool.connecting - 1 - ({ r with pc := .cleanup } : Recovery).reserved = _
      have hafter : ({ r with pc := .cleanup } : Recovery).reserved = 0 :=
        Recovery.reserved_eq_zero (fun hc => by cases hc) (hclosed h)
      rw [hbefore, hafter]
      omega
  | false =>
      refine .recovery (n := s.pool.connecting - 1) hr rfl rfl rfl ?_
      rw [hbefore]
      simp [StreamTransport.reserved, StreamTransport.setRecovery, Recovery.reserved]

omit [DecidableEq ι] in
theorem recoverDialFailed_slotMove {j : κ} {r : Recovery} (hr : (s.sessions j).recovery = some r)
    (hpc : r.pc = .dialing) {exc : DialError}
    (hfailure : exc = .dialFailure → moreAttempts cfg r = true → s.pool.closed = false)
    (hother : exc = .other → r.replacementReservationHeld = false) :
    SlotMove s (s.recoverDialFailed cfg j r exc) := by
  have hbefore : r.reserved = 1 := Recovery.reserved_dialing hpc
  unfold Adapter.recoverDialFailed ConnectionPool.newConnectionFailed
  cases exc with
  | dialFailure =>
      cases hmore : moreAttempts cfg r with
      | true =>
          have hretain : s.pool.retainForRetry false .dialFailure = true := by
            simp [ConnectionPool.retainForRetry, hfailure rfl hmore]
          simp only [Bool.not_true, hretain, if_true]
          refine .recovery (n := s.pool.connecting) hr rfl rfl rfl ?_
          rw [hbefore]
          simp [StreamTransport.reserved, StreamTransport.setRecovery, Recovery.reserved]
      | false =>
          refine .recovery (n := s.pool.connecting - 1) hr rfl rfl rfl ?_
          rw [hbefore]
          simp [StreamTransport.reserved, StreamTransport.setRecovery, Recovery.reserved]
  | other =>
      have hdrop : s.pool.retainForRetry (!moreAttempts cfg r) .other = false := by
        simp [ConnectionPool.retainForRetry]
      simp only [hdrop, Bool.false_eq_true, if_false]
      refine .recovery (n := s.pool.connecting - 1) hr rfl rfl rfl ?_
      show s.pool.connecting - 1 - ({ r with pc := .cleanup } : Recovery).reserved = _
      have hafter : ({ r with pc := .cleanup } : Recovery).reserved = 0 :=
        Recovery.reserved_eq_zero (fun hc => by cases hc) (hother rfl)
      rw [hbefore, hafter]
      omega
  | interrupt =>
      have hdrop : s.pool.retainForRetry (!moreAttempts cfg r) .interrupt = false := by
        simp [ConnectionPool.retainForRetry]
      simp only [hdrop, Bool.false_eq_true, if_false]
      refine .recovery (n := s.pool.connecting - 1) hr rfl rfl rfl ?_
      rw [hbefore]
      simp [StreamTransport.reserved]

omit [DecidableEq ι] in
/-- An event of a recovery moves the slot of that recovery. -/
theorem recoveryStep_slotMove (h : LeaseInv s) {j : κ} {r : Recovery}
    (hr : (s.sessions j).recovery = some r) {e : SessionEvent}
    (hclean : DialClean cfg s (.session j e)) : SlotMove s (s.recoveryStep cfg j r e) := by
  have hok := (h.sessions j).recovery r hr
  -- away from the dial, and with the reservation as it was
  have hkeep {s' : Adapter ι κ} {t : StreamTransport} {r' : Recovery}
      (hcallers : s'.callers = s.callers) (hsessions : s'.sessions = Function.update s.sessions j t)
      (hn : s'.pool.connecting = s.pool.connecting) (ht : t.recovery = some r')
      (hpc : r.pc ≠ .dialing) (hpc' : r'.pc ≠ .dialing)
      (hheld : r'.replacementReservationHeld = r.replacementReservationHeld) : SlotMove s s' := by
    refine .recovery hr hcallers hsessions hn ?_
    rw [StreamTransport.reserved, ht, Option.elim_some, Recovery.reserved_congr hpc hpc' hheld]
  -- the recovery returns without a reservation
  have hend {s' : Adapter ι κ} {t : StreamTransport} (hpc : r.pc ≠ .dialing)
      (hheld : r.replacementReservationHeld = false) (ht : t.recovery = none)
      (hcallers : s'.callers = s.callers) (hsessions : s'.sessions = Function.update s.sessions j t)
      (hn : s'.pool.connecting = s.pool.connecting) : SlotMove s s' := by
    refine .recovery hr hcallers hsessions hn ?_
    rw [StreamTransport.reserved, ht, Option.elim_none, Recovery.reserved_eq_zero hpc hheld]
  cases e with
  | recoverCheck deadlinePassed =>
      simp only [Adapter.recoveryStep, Adapter.recoverCheck]
      split
      · next hpc => split <;> exact hkeep rfl rfl rfl rfl (by simp [hpc]) (by simp) rfl
      · exact .refl
  | recoverDial =>
      simp only [Adapter.recoveryStep]
      split
      · next hpc => exact recoverDial_slotMove hr hok hpc
      · exact .refl
  | recoverDialOk createdAt =>
      simp only [Adapter.recoveryStep]
      split
      · next hpc => exact recoverDialOk_slotMove hr hpc (hclean r hr hpc) createdAt
      · exact .refl
  | recoverDialFailed exc =>
      simp only [Adapter.recoveryStep]
      split
      · next hpc =>
        obtain ⟨hfailure, hother⟩ := hclean r hr hpc
        exact recoverDialFailed_slotMove hr hpc hfailure hother
      · exact .refl
  | recoverAdopt =>
      simp only [Adapter.recoveryStep]
      split
      · next c hpc =>
        have hheld := hok.current_held c (hok.new_current c (.inl hpc))
        simp only [Adapter.recoverAdopt]
        split
        · exact hend (by simp [hpc]) hheld rfl rfl rfl rfl
        · exact hkeep rfl rfl rfl rfl (by simp [hpc]) (by simp) rfl
      · exact .refl
  | resumeOk =>
      simp only [Adapter.recoveryStep]
      split
      · next c hpc =>
        have hheld := hok.current_held c (hok.new_current c (.inr hpc))
        simp only [Adapter.resumeOk]
        split
        · exact hend (by simp [hpc]) hheld rfl rfl rfl rfl
        · exact hend (by simp [hpc]) hheld rfl rfl rfl rfl
      · exact .refl
  | resumeFailed err =>
      simp only [Adapter.recoveryStep]
      split
      · next c hpc =>
        cases err <;> exact hkeep rfl rfl rfl rfl (by simp [hpc]) (by simp) rfl
      · exact .refl
  | recoverCleanup =>
      simp only [Adapter.recoveryStep]
      split
      · next hpc => exact hkeep rfl rfl rfl rfl (by simp [hpc]) (by simp) rfl
      · exact .refl
  | recoverGiveBack =>
      simp only [Adapter.recoveryStep, Adapter.recoverGiveBack]
      split
      · next hpc =>
        split
        · next hheld =>
          refine .recovery (n := s.pool.connecting - 1) hr rfl rfl rfl ?_
          have hbefore : r.reserved = 1 := by simp [Recovery.reserved, hheld]
          rw [hbefore]
          simp [StreamTransport.reserved, StreamTransport.setRecovery, Recovery.reserved]
        · next hheld =>
          have hheld := Bool.eq_false_iff.2 hheld
          split <;> exact hkeep rfl rfl rfl rfl (by simp [hpc]) (by simp) hheld.symm
      · exact .refl
  | recoverEnd =>
      simp only [Adapter.recoveryStep]
      split
      · next hpc => exact hend (by simp [hpc]) (hok.failing_held hpc) rfl rfl rfl rfl
      · exact .refl
  | send | ack | progress | frame | terminal | recoverBegin | resumeWrite | failTerminal | hardStop
  | closeBegin | closeDiscard => exact .refl

omit [DecidableEq ι] [DecidableEq κ] in
/-- What came before changed no slot. -/
theorem SlotMove.after {s₁ : Adapter ι κ} (hmove : SlotMove s₁ s')
    (hsame : ∀ o, s₁.reserved o = s.reserved o)
    (hconnecting : s₁.pool.connecting = s.pool.connecting) : SlotMove s s' := by
  cases hmove with
  | none hsame' hconnecting' =>
      exact .none (fun o => (hsame' o).trans (hsame o)) (hconnecting'.trans hconnecting)
  | «at» o hother hown =>
      refine .at o (fun o' ho => (hother o' ho).trans (hsame o')) ?_
      rw [hown, hconnecting, hsame]

omit [DecidableEq ι] in
/-- An event of a session moves the slot of its recovery. -/
theorem sessionStep_slotMove (h : LeaseInv s) (j : κ) {e : SessionEvent}
    (hclean : DialClean cfg s (.session j e)) : SlotMove s (s.sessionStep cfg j e) := by
  have hrecovery := recoveryEvent cfg (SlotMove s) j .refl fun r hr => recoveryStep_slotMove h hr hclean
  -- flags that no slot depends on
  have hflags {t : StreamTransport} (ht : t.recovery = (s.sessions j).recovery) :
      SlotMove s (s.setSession j t) := by
    refine .session (n := s.pool.connecting) rfl rfl rfl ?_
    rw [StreamTransport.reserved, ht, StreamTransport.reserved]
  cases e with
  | send | ack | progress | resumeWrite => exact .refl
  | frame supported =>
      simp only [Adapter.sessionStep]
      split
      · exact hflags rfl
      · exact .refl
  | terminal reusable settimeoutOk now =>
      simp only [Adapter.sessionStep]
      split
      · exact finishTransport_slotMove j reusable settimeoutOk now
      · exact .refl
  | recoverBegin =>
      simp only [Adapter.sessionStep, Adapter.recoverBegin]
      split
      · exact .refl
      · next hopen =>
        split
        · exact hflags rfl
        · split
          · exact .refl
          · next hidle =>
            -- a session whose transport has not finished has one recovery at a time
            have hnone : (s.sessions j).recovery = none := by
              by_contra hne
              simp only [not_or, Bool.not_eq_true, StreamTransport.stopped,
                Bool.or_eq_false_iff] at hopen
              rcases (h.sessions j).leader (Option.isSome_iff_ne_none.2 hne) with hr | hfin
              · exact hidle hr
              · rw [hopen.2.2] at hfin
                cases hfin
            refine .session (n := s.pool.connecting) rfl rfl rfl ?_
            simp [StreamTransport.reserved, Recovery.reserved, hnone]
  | failTerminal =>
      simp only [Adapter.sessionStep, Adapter.failTerminal]
      split
      · exact .refl
      · refine (finishTransport_slotMove j false true 0).after (fun o => ?_) rfl
        cases o with
        | caller i => rfl
        | session k =>
            by_cases hk : k = j
            · subst hk
              simp [reserved, Adapter.setSession, StreamTransport.reserved]
            · simp [reserved, Adapter.setSession, Function.update_of_ne hk]
  | hardStop =>
      simp only [Adapter.sessionStep]
      split
      · exact finishTransport_slotMove j false true 0
      · exact .refl
  | closeBegin =>
      simp only [Adapter.sessionStep]
      split
      · exact hflags rfl
      · exact .refl
  | closeDiscard =>
      simp only [Adapter.sessionStep]
      split
      · exact .refl
      · exact .session (n := s.pool.connecting) rfl rfl rfl rfl
  | recoverCheck | recoverDial | recoverDialOk | recoverDialFailed | recoverAdopt | resumeOk
  | resumeFailed | recoverCleanup | recoverGiveBack | recoverEnd => exact hrecovery

/-! ## Every run -/

/-- Every event moves at most one slot. -/
theorem step_slotMove (h : LeaseInv s) {e : AdapterEvent ι κ} (hclean : DialClean cfg s e) :
    SlotMove s (step cfg s e) := by
  cases e with
  | caller i e => exact callerStep_slotMove i e
  | session j e => exact sessionStep_slotMove h j hclean
  | openStream i j =>
      simp only [Adapter.step, Adapter.openStream]
      split
      · next c hphase hunopened =>
        have hnone : s.sessions j = .unopened := (h.sessions j).unopened hunopened
        refine .none (fun o => ?_) rfl
        cases o with
        | caller k =>
            by_cases hk : k = i
            · subst hk
              simp [reserved, Adapter.lease, Adapter.setSession, Adapter.setCaller, hphase,
                CallerPhase.reserved]
            · simp [reserved, Adapter.lease, Adapter.setSession, Adapter.setCaller,
                Function.update_of_ne hk]
        | session k =>
            by_cases hk : k = j
            · subst hk
              simp [reserved, Adapter.lease, Adapter.setSession, Adapter.setCaller, hnone,
                StreamTransport.reserved, StreamTransport.start, StreamTransport.unopened]
            · simp [reserved, Adapter.lease, Adapter.setSession, Adapter.setCaller,
                Function.update_of_ne hk]
      · exact .refl
  | expire now => exact .pool rfl rfl (ConnectionPool.expire_connecting now).1
  | close =>
      refine .pool rfl rfl ?_
      simp only [Adapter.step, Adapter.setPool, ConnectionPool.close]
      split <;> rfl

/-- No event takes the pool over its capacity. -/
theorem step_load (hqueue : QueueInv cfg s) (h : LeaseInv s) (hload : s.pool.load ≤ cfg.maxConnections)
    (e : AdapterEvent ι κ) : (step cfg s e).pool.load ≤ cfg.maxConnections := by
  -- a turn that reserves a slot has seen that there is one
  have hturn {q : ConnectionPool} {taken : Prop} (hsame : q.connections = s.pool.connections)
      (hconnecting : (¬ taken ∧ q.connecting = s.pool.connecting) ∨
        (taken ∧ q.connecting = s.pool.connecting + 1 ∧ s.pool.load < cfg.maxConnections)) :
      q.load ≤ cfg.maxConnections := by
    unfold ConnectionPool.load at hload ⊢
    rw [hsame]
    rcases hconnecting with ⟨-, hq⟩ | ⟨-, hq, hlt⟩
    · omega
    · unfold ConnectionPool.load at hlt
      omega
  by_cases hcase : ∃ i expired, e = .caller i (.turn expired)
  · obtain ⟨i, expired, rfl⟩ := hcase
    simp only [Adapter.step, Adapter.callerStep, Adapter.turn]
    split
    · next waiter hphase =>
      split
      · rw [(afterCheckout_spec i _).1]
        refine hturn ?_ ConnectionPool.checkoutTurn_connecting
        exact (ConnectionPool.checkoutTurn_move hqueue.queue h.custody.idle_tracked).connections
      · exact hload
    · next target waiter hphase =>
      split
      · rw [(afterReserve_spec i target _).1]
        refine hturn ?_ ConnectionPool.reserveTurn_connecting
        refine (ConnectionPool.reserveTurn_samePlaces hqueue.queue fun w hw => ?_).connections
        exact hqueue.tokens.marked i w (by rw [hphase, hw]; rfl)
      · exact hload
    · exact hload
  · have hcalm : Calm cfg s (Adapter.step cfg s e) :=
      step_calm fun i expired he => hcase ⟨i, expired, he⟩
    exact hcalm.pool.load_le.trans hload

/-- In every run in which recoveries and `_new_connection` agree about the slots of failed dials,
`_connecting` is the number of reserved slots, the capacity is not exceeded, and every tracked
connection is in one place: idle (once), handed to one waiter, or leased to an owner that will give it
back. -/
theorem pool_accounting (evs : List (AdapterEvent ι κ))
    (hclean : Lib.Along (step cfg) (DialClean cfg) new evs) :
    let s := Lib.run (step cfg) (new : Adapter ι κ) evs
    (s.slotHolders.Finite ∧ s.pool.connecting = s.slotHolders.ncard ∧ 0 ≤ s.pool.connecting)
      ∧ s.pool.load ≤ cfg.maxConnections
      ∧ s.pool.idleConnections.Nodup
      ∧ ∀ c ∈ s.pool.connections,
          s.custody.InOnePlace c ∧ ∀ o, s.lessee c = some o → s.Holds o c := by
  intro s
  have hstep : ∀ (s : Adapter ι κ) e,
      ((QueueInv cfg s ∧ LeaseInv s) ∧ SlotsOk s ∧ s.pool.load ≤ cfg.maxConnections) →
      DialClean cfg s e →
      ((QueueInv cfg (step cfg s e) ∧ LeaseInv (step cfg s e)) ∧ SlotsOk (step cfg s e)
        ∧ (step cfg s e).pool.load ≤ cfg.maxConnections) := by
    rintro s e ⟨⟨hqueue, hlease⟩, hslots, hload⟩ hclean
    exact ⟨⟨hqueue.step e, hlease.step hqueue e⟩, hslots.move (step_slotMove hlease hclean),
      step_load hqueue hlease hload e⟩
  have hnew : (0 : Int) ≤ cfg.maxConnections := Int.natCast_nonneg _
  obtain ⟨⟨-, hlease⟩, hslots, hload⟩ :=
    Lib.run_induct ⟨⟨.new, .new⟩, .new, hnew⟩ hstep hclean
  refine ⟨⟨hslots.finite, hslots.connecting, ?_⟩, hload, hlease.custody.idle_nodup, ?_⟩
  · rw [hslots.connecting]
    exact Int.natCast_nonneg _
  · exact fun c hc => ⟨hlease.custody.inOnePlace hc, fun o ho => hlease.holds o c hc ho⟩

end

/-- A session loses its connection, and the first dial of its recovery fails. -/
def firstDialFails : List (AdapterEvent Nat Nat) :=
  [.caller 0 .checkout, .caller 0 (.turn false), .caller 0 (.dialOk 0), .openStream 0 0,
    .session 0 .recoverBegin, .session 0 (.recoverCheck false), .session 0 .recoverDial,
    .session 0 (.recoverDialFailed .dialFailure)]

/-- The slot of the failed dial is kept for the next one. -/
theorem pool_accounting_kept :
    let s := Lib.run (step exampleConfig) new firstDialFails
    s.pool.connecting = 1 ∧ s.pool.connecting = s.slotHolders.ncard := by
  have hclean : Lib.Along (step exampleConfig) (DialClean exampleConfig) new firstDialFails := by
    refine ⟨trivial, trivial, trivial, trivial, trivial, trivial, trivial, ?_, trivial⟩
    intro r _ _
    exact ⟨fun _ _ => rfl, fun he => by cases he⟩
  exact ⟨by decide +kernel, (pool_accounting firstDialFails hclean).1.2.1⟩

/-- The adapter is closed, the second dial finds that out, and the recovery gives back the slot that
`_new_connection` has already released. -/
theorem connecting_negative :
    (Lib.run (step exampleConfig) (new : Adapter Nat Nat)
      (firstDialFails ++ [.close, .session 0 (.recoverCheck false), .session 0 .recoverDial,
        .session 0 (.recoverDialFailed .other), .session 0 .recoverCleanup,
        .session 0 .recoverGiveBack])).pool.connecting = -1 := by
  decide +kernel

end Adapter

end StreamingTts.Client
