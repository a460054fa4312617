import StreamingTts.Client.PoolQueue
import StreamingTts.Lib.Custody

/-!
# Who holds which connection

`Adapter.custody` reads the places of the connections off the pool and the leases, so that each
critical section is a move of `Lib.Custody`. `Refs` are the connections that a caller or a session
refers to as its own, and `Holds` those it is going to give back or discard; `LeaseInv` ties both to
the leases, and is kept by every event of every run. The one reference that it leaves out is the
connection that a recovery is about to replace.
-/

namespace StreamingTts.Client

open Lib (Custody)

/-! ## What a session refers to -/

namespace StreamTransport

/-- The connections of a session, apart from the one its recovery is about to replace. -/
def Refs (t : StreamTransport) (c : Conn) : Prop :=
  (t.opened = true ∧ t.transportFinished = false ∧ t.conn = c) ∨ t.recoveryConn = some c
    ∨ c ∈ t.closing ∨ ∃ r, t.recovery = some r ∧ (r.pc = .dialed c ∨ r.pc = .resuming c)

/-- The connections that a session will give back or discard. -/
def Holds (t : StreamTransport) (c : Conn) : Prop :=
  (t.opened = true ∧ t.transportFinished = false ∧ t.conn = c)
    ∨ ∃ r, t.recovery = some r ∧ r.current = some c

end StreamTransport

/-- The local variables of a recovery fit together. -/
structure RecoveryOk (tracked : Finset Conn) (t : StreamTransport) (r : Recovery) : Prop where
  /-- a recovery with a connection to replace has kept no reservation -/
  current_held : ∀ c, r.current = some c → r.replacementReservationHeld = false
  new_current : ∀ c, r.pc = .dialed c ∨ r.pc = .resuming c → r.current = some c
  failing_held : r.pc = .failing → r.replacementReservationHeld = false
  /-- a replaced or discarded connection has left the pool -/
  dialing_gone : r.pc = .dialing ∨ r.pc = .failing → ∀ c, r.current = some c → c ∉ tracked
  conn_gone : t.transportFinished = false → r.current ≠ some t.conn → t.conn ∉ tracked

/-- The fields of a session fit together. -/
structure TransportOk (tracked : Finset Conn) (next : Conn) (t : StreamTransport) : Prop where
  unopened : t.opened = false → t = .unopened
  recoveryConn_ne : t.transportFinished = false → t.recoveryConn ≠ some t.conn
  closing_ne : t.transportFinished = false → t.conn ∉ t.closing
  new_ne : t.transportFinished = false → ∀ r, t.recovery = some r →
    r.pc ≠ .dialed t.conn ∧ r.pc ≠ .resuming t.conn
  closing_hard : t.closing ≠ [] → t.hardClosed = true
  /-- a recovery at work is visible, or the transport has finished -/
  leader : t.recovery.isSome = true → t.recovering = true ∨ t.transportFinished = true
  conn_lt : t.opened = true → t.conn < next
  current_lt : ∀ r c, t.recovery = some r → r.current = some c → c < next
  recovery : ∀ r, t.recovery = some r → RecoveryOk tracked t r

/-- Connections that leave the pool do not come back. -/
theorem RecoveryOk.mono {tracked tracked' : Finset Conn} {next : Conn} {t : StreamTransport}
    {r : Recovery} (h : RecoveryOk tracked t r)
    (hsub : ∀ c, c < next → c ∈ tracked' → c ∈ tracked) (hconn : t.conn < next)
    (hcurrent : ∀ c, r.current = some c → c < next) : RecoveryOk tracked' t r :=
  { h with
    dialing_gone := fun hpc c hc hmem => h.dialing_gone hpc c hc (hsub c (hcurrent c hc) hmem)
    conn_gone := fun hf hne hmem => h.conn_gone hf hne (hsub _ hconn hmem) }

theorem TransportOk.mono {tracked tracked' : Finset Conn} {next next' : Conn} {t : StreamTransport}
    (h : TransportOk tracked next t) (hsub : ∀ c, c < next → c ∈ tracked' → c ∈ tracked)
    (hnext : next ≤ next') : TransportOk tracked' next' t :=
  { h with
    conn_lt := fun ho => lt_of_lt_of_le (h.conn_lt ho) hnext
    current_lt := fun r c hr hc => lt_of_lt_of_le (h.current_lt r c hr hc) hnext
    recovery := by
      intro r hr
      have hopened : t.opened = true := by
        by_contra hne
        rw [h.unopened (Bool.eq_false_iff.2 hne)] at hr
        cases hr
      exact (h.recovery r hr).mono hsub (h.conn_lt hopened) fun c hc => h.current_lt r c hr hc }

theorem TransportOk.new {next : Conn} : TransportOk ∅ next .unopened where
  unopened _ := rfl
  recoveryConn_ne _ := by simp [StreamTransport.unopened]
  closing_ne _ := by simp [StreamTransport.unopened]
  new_ne _ r hr := by simp [StreamTransport.unopened] at hr
  closing_hard hne := by simp [StreamTransport.unopened] at hne
  leader hr := by simp [StreamTransport.unopened] at hr
  conn_lt ho := by simp [StreamTransport.unopened] at ho
  current_lt r c hr := by simp [StreamTransport.unopened] at hr
  recovery r hr := by simp [StreamTransport.unopened] at hr

section
variable {tracked : Finset Conn} {next : Conn} {t : StreamTransport} {r : Recovery} {c : Conn}

/-- A new socket changes nothing about older ones. -/
theorem TransportOk.track (h : TransportOk tracked next t) :
    TransportOk (insert next tracked) (next + 1) t := by
  refine h.mono (fun x hx hmem => ?_) (Nat.le_succ _)
  exact Finset.mem_of_mem_insert_of_ne hmem (Nat.ne_of_lt hx)

/-- A finished transport fits together. -/
theorem TransportOk.finish (h : TransportOk tracked next t) (hopened : t.opened = true) :
    TransportOk tracked next t.finish where
  unopened ho := absurd (hopened.symm.trans ho) (by simp)
  recoveryConn_ne hf := absurd hf (by simp [StreamTransport.finish])
  closing_ne hf := absurd hf (by simp [StreamTransport.finish])
  new_ne hf := absurd hf (by simp [StreamTransport.finish])
  closing_hard := h.closing_hard
  leader _ := .inr rfl
  conn_lt := h.conn_lt
  current_lt := h.current_lt
  recovery r hr :=
    { h.recovery r hr with conn_gone := fun hf => absurd hf (by simp [StreamTransport.finish]) }

/-- A finished transport refers to what it did before, except for its connection. -/
theorem TransportOk.refs_finish (h : TransportOk tracked next t) (hf : t.transportFinished = false)
    (hc : t.finish.Refs c) : t.Refs c ∧ c ≠ t.conn := by
  rcases hc with ⟨-, hf', -⟩ | hconn | hclosing | ⟨r, hr, hpc⟩
  · cases hf'
  · refine ⟨.inr (.inl hconn), fun he => h.recoveryConn_ne hf (he ▸ hconn)⟩
  · exact ⟨.inr (.inr (.inl hclosing)), fun he => h.closing_ne hf (he ▸ hclosing)⟩
  · refine ⟨.inr (.inr (.inr ⟨r, hr, hpc⟩)), ?_⟩
    rintro rfl
    obtain ⟨hdialed, hresuming⟩ := h.new_ne hf r hr
    exact hpc.elim hdialed hresuming

theorem StreamTransport.Holds.finish (hc : t.Holds c) (hne : c ≠ t.conn) : t.finish.Holds c := by
  rcases hc with ⟨-, -, he⟩ | hr
  · exact absurd he.symm hne
  · exact .inr hr

end

/-! ## Turns move connections only to their caller -/

namespace ConnectionPool

section
variable {cfg : AdapterConfig} {p q : ConnectionPool} {waiter : Option Token} {fresh : Token}
  {expired : Bool}

/-- No connection has moved. -/
structure SamePlaces (p q : ConnectionPool) : Prop where
  connections : q.connections = p.connections
  idle : q.idleConnections = p.idleConnections
  handoffs : q.waiterHandoffs = p.waiterHandoffs

theorem SamePlaces.refl : SamePlaces p p := ⟨rfl, rfl, rfl⟩

theorem SamePlaces.notifyAll (h : SamePlaces p q) : SamePlaces p q.notifyAll :=
  ⟨h.connections, h.idle, h.handoffs⟩

/-- A caller that was handed nothing leaves the queue. -/
theorem SamePlaces.removeWaiter (h : SamePlaces p q) {w : Token}
    (hnone : p.waiterHandoffs w = none) : SamePlaces p (q.removeWaiter w) where
  connections := h.connections
  idle := h.idle
  handoffs := by
    have hupdate : Function.update p.waiterHandoffs w none = p.waiterHandoffs :=
      Function.update_eq_self_iff.2 hnone.symm
    simp only [ConnectionPool.removeWaiter, h.handoffs, hupdate]

theorem SamePlaces.removeWaiter? (h : SamePlaces p q)
    (hnone : ∀ w, waiter = some w → p.waiterHandoffs w = none) :
    SamePlaces p (q.removeWaiter? waiter) := by
  cases waiter with
  | none => exact h
  | some w => exact h.removeWaiter (hnone w rfl)

theorem SamePlaces.serve (h : SamePlaces p q)
    (hnone : ∀ w, waiter = some w → p.waiterHandoffs w = none) : SamePlaces p (q.serve waiter) := by
  have hremoved : SamePlaces p (q.removeWaiter? waiter) := h.removeWaiter? hnone
  exact ⟨hremoved.connections, hremoved.idle, hremoved.handoffs⟩

theorem SamePlaces.block {prewarm : Bool} (h : SamePlaces p q)
    (hnone : ∀ w, waiter = some w → p.waiterHandoffs w = none) (hfresh : p.waiterHandoffs fresh = none) :
    SamePlaces p (q.block waiter fresh prewarm expired).1 := by
  have hown : p.waiterHandoffs (waiter.getD fresh) = none := by
    cases waiter with
    | none => exact hfresh
    | some w => exact hnone w rfl
  unfold ConnectionPool.block
  cases waiter <;> cases expired
  · exact ⟨h.connections, h.idle, h.handoffs⟩
  · refine SamePlaces.notifyAll (SamePlaces.removeWaiter ?_ hown)
    exact ⟨h.connections, h.idle, h.handoffs⟩
  · exact ⟨h.connections, h.idle, h.handoffs⟩
  · exact (h.removeWaiter hown).notifyAll

theorem SamePlaces.checkoutBlock (h : SamePlaces p q)
    (hnone : ∀ w, waiter = some w → p.waiterHandoffs w = none) (hfresh : p.waiterHandoffs fresh = none) :
    SamePlaces p (q.checkoutBlock cfg waiter fresh expired).1 := by
  unfold ConnectionPool.checkoutBlock
  split
  · exact h
  · have hblock : SamePlaces p (q.block waiter fresh false expired).1 := h.block hnone hfresh
    split <;> next heq => rw [heq] at hblock; exact hblock

/-- With all idle connections tracked, the last one is taken. -/
theorem takeIdle_spec (htracked : ∀ c ∈ p.idleConnections, c ∈ p.connections) :
    (p.takeIdle.1 = none ∧ SamePlaces p p.takeIdle.2)
      ∨ ∃ c init, p.idleConnections = init ++ [c] ∧ p.takeIdle.1 = some c
        ∧ p.takeIdle.2.idleConnections = init := by
  rcases List.eq_nil_or_concat p.idleConnections with hidle | ⟨init, c, hidle⟩
  · refine .inl ⟨by simp [takeIdle, hidle, popIdle], rfl, ?_, rfl⟩
    simp [takeIdle, hidle, popIdle]
  · rw [List.concat_eq_append] at hidle
    have hc : c ∈ p.connections := htracked c (by simp [hidle])
    refine .inr ⟨c, init, hidle, ?_, ?_⟩ <;> simp [takeIdle, hidle, popIdle, hc]

/-- What a turn of `_checkout_connection` moves: the connection that was handed to the caller, the last
idle one, or nothing. -/
inductive CheckoutMove (p q : ConnectionPool) (waiter : Option Token) : CheckoutOutcome → Prop
  | handed {w : Token} {c : Conn} (hwaiter : waiter = some w) (hc : p.waiterHandoffs w = some c)
      (hconnections : q.connections = p.connections) (hidle : q.idleConnections = p.idleConnections)
      (hhandoffs : q.waiterHandoffs = Function.update p.waiterHandoffs w none) :
      CheckoutMove p q waiter (.leased c)
  | idle {c : Conn} {init : List Conn} (hp : p.idleConnections = init ++ [c])
      (hconnections : q.connections = p.connections) (hidle : q.idleConnections = init)
      (hhandoffs : q.waiterHandoffs = p.waiterHandoffs) : CheckoutMove p q waiter (.leased c)
  | none {outcome : CheckoutOutcome} (hsame : SamePlaces p q) (hno : ∀ c, outcome ≠ .leased c) :
      CheckoutMove p q waiter outcome

theorem checkoutBlock_ne_leased (c : Conn) :
    (p.checkoutBlock cfg waiter fresh expired).2 ≠ .leased c := by
  unfold ConnectionPool.checkoutBlock
  repeat' split
  all_goals simp

theorem checkoutTurn_move {next : Token} (hqueue : QueueOk cfg next p)
    (htracked : ∀ c ∈ p.idleConnections, c ∈ p.connections) :
    CheckoutMove p (p.checkoutTurn cfg waiter next expired).1 waiter
      (p.checkoutTurn cfg waiter next expired).2 := by
  have hfresh : p.waiterHandoffs next = none := by
    by_contra hne
    have hserved := hqueue.handed_served next hne
    exact Nat.lt_irrefl _ (hqueue.queued_lt next
      (hqueue.order.mem (List.mem_append_left _ hserved)))
  unfold ConnectionPool.checkoutTurn
  split
  · next hclosed =>
    refine .none (SamePlaces.refl.removeWaiter? fun w _ => ?_) (by simp)
    exact (hqueue.closed_clear hclosed).2 w
  · split
    · next c hc =>
      cases waiter with
      | none => cases hc
      | some w => exact .handed rfl hc rfl rfl rfl
    · next hnone =>
      have hnone : ∀ w, waiter = some w → p.waiterHandoffs w = none := by
        rintro w rfl
        exact hnone
      split
      · unfold ConnectionPool.checkoutServe
        rcases takeIdle_spec htracked with ⟨hfound, hsame⟩ | ⟨c, init, hidle, hfound, hrest⟩
        · split
          · next heq => rw [heq] at hfound; cases hfound
          · next q heq =>
            obtain rfl : p.takeIdle.2 = q := congrArg Prod.snd heq
            split
            · refine .none (SamePlaces.serve ⟨hsame.connections, hsame.idle, hsame.handoffs⟩ hnone)
                (by simp)
            · exact .none (hsame.checkoutBlock hnone hfresh) fun c => checkoutBlock_ne_leased c
        · split
          · next c' q heq =>
            obtain rfl : p.takeIdle.2 = q := congrArg Prod.snd heq
            obtain rfl : c = c' := by
              rw [heq] at hfound
              exact (Option.some.inj hfound).symm
            have hserved : SamePlaces p.takeIdle.2 (p.takeIdle.2.serve waiter) :=
              SamePlaces.refl.serve hnone
            exact .idle hidle hserved.connections (hserved.idle.trans hrest) hserved.handoffs
          · next heq => rw [heq] at hfound; cases hfound
      · exact .none (SamePlaces.refl.checkoutBlock hnone hfresh) fun c => checkoutBlock_ne_leased c

/-- A turn of `_reserve_new_connection` moves nothing. -/
theorem reserveTurn_samePlaces {next : Token} {idleTarget : Nat} (hqueue : QueueOk cfg next p)
    (hmarked : ∀ w, waiter = some w → w ∈ p.newConnectionWaiters ∨ p.closed = true) :
    SamePlaces p (p.reserveTurn cfg idleTarget waiter next expired).1 := by
  have hfresh : p.waiterHandoffs next = none := by
    by_contra hne
    have hserved := hqueue.handed_served next hne
    exact Nat.lt_irrefl _ (hqueue.queued_lt next
      (hqueue.order.mem (List.mem_append_left _ hserved)))
  have hnone : ∀ w, waiter = some w → p.waiterHandoffs w = none := by
    intro w hw
    rcases hmarked w hw with hmem | hclosed
    · exact hqueue.waiter_unhanded (hqueue.new_queued w hmem)
    · exact (hqueue.closed_clear hclosed).2 w
  unfold ConnectionPool.reserveTurn
  split
  · exact SamePlaces.refl.removeWaiter? hnone
  · split
    · split
      · exact (SamePlaces.refl.removeWaiter? hnone).notifyAll
      · exact .refl
    · split
      · exact SamePlaces.serve ⟨rfl, rfl, rfl⟩ hnone
      · split
        · exact .refl
        · have hblock : SamePlaces p (p.block waiter next true expired).1 :=
            SamePlaces.refl.block hnone hfresh
          split <;> next heq => rw [heq] at hblock; exact hblock

end

end ConnectionPool

namespace Adapter

section
variable {ι κ : Type} [DecidableEq ι] [DecidableEq κ] {cfg : AdapterConfig} {s : Adapter ι κ}

/-- The places of the connections. -/
def custody (s : Adapter ι κ) : Custody Conn Token (Owner ι κ) where
  tracked := s.pool.connections
  idle := s.pool.idleConnections
  handed := s.pool.waiterHandoffs
  lessee := s.lessee

/-- The connections that an owner refers to. -/
def Refs (s : Adapter ι κ) : Owner ι κ → Conn → Prop
  | .caller i, c => s.callers i = .leased c
  | .session j, c => (s.sessions j).Refs c

/-- The connections that an owner will give back or discard. -/
def Holds (s : Adapter ι κ) : Owner ι κ → Conn → Prop
  | .caller i, c => s.callers i = .leased c
  | .session j, c => (s.sessions j).Holds c

/-- Who refers to a connection has its lease, and who has the lease of a tracked connection holds
it. -/
structure LeaseInv (s : Adapter ι κ) : Prop where
  custody : s.custody.Ok (· < s.nextConn)
  refs : ∀ o c, s.Refs o c → s.lessee c = some o
  holds : ∀ o c, c ∈ s.pool.connections → s.lessee c = some o → s.Holds o c
  sessions : ∀ j, TransportOk s.pool.connections s.nextConn (s.sessions j)

omit [DecidableEq ι] [DecidableEq κ] in
theorem LeaseInv.new : LeaseInv (new : Adapter ι κ) where
  custody := by constructor <;> simp [Adapter.custody, Adapter.new, ConnectionPool.new]
  refs := by
    intro o c hc
    cases o with
    | caller i => simp [Refs, Adapter.new] at hc
    | session j => simp [Refs, Adapter.new, StreamTransport.Refs, StreamTransport.unopened] at hc
  holds o c hc := by simp [Adapter.new, ConnectionPool.new] at hc
  sessions j := TransportOk.new

/-! ## Changes of one part -/

omit [DecidableEq ι] [DecidableEq κ] in
/-- Connections leave the pool. -/
theorem LeaseInv.setPool (h : LeaseInv s) {p : ConnectionPool}
    (hcustody : (s.setPool p).custody.Ok (· < s.nextConn))
    (hsub : p.connections ⊆ s.pool.connections) : LeaseInv (s.setPool p) where
  custody := hcustody
  refs := h.refs
  holds o c hc ho := h.holds o c (hsub hc) ho
  sessions j := (h.sessions j).mono (fun _ _ hc => hsub hc) le_rfl

omit [DecidableEq ι] in
/-- A session moves on without a change of its leases. -/
theorem LeaseInv.setSession (h : LeaseInv s) {j : κ} {t : StreamTransport}
    (hok : TransportOk s.pool.connections s.nextConn t)
    (hrefs : ∀ c, t.Refs c → s.lessee c = some (.session j))
    (hholds : ∀ c ∈ s.pool.connections, s.lessee c = some (.session j) → t.Holds c) :
    LeaseInv (s.setSession j t) := by
  have hself : (s.setSession j t).sessions j = t := by simp [Adapter.setSession]
  have hother : ∀ k, k ≠ j → (s.setSession j t).sessions k = s.sessions k := by
    intro k hk
    simp [Adapter.setSession, Function.update_of_ne hk]
  constructor
  case custody => exact h.custody
  case refs =>
    intro o c hc
    cases o with
    | caller i => exact h.refs (.caller i) c hc
    | session k =>
        by_cases hk : k = j
        · subst hk
          rw [Refs, hself] at hc
          exact hrefs c hc
        · rw [Refs, hother k hk] at hc
          exact h.refs (.session k) c hc
  case holds =>
    intro o c hc ho
    cases o with
    | caller i => exact h.holds (.caller i) c hc ho
    | session k =>
        by_cases hk : k = j
        · subst hk
          rw [Holds, hself]
          exact hholds c hc ho
        · rw [Holds, hother k hk]
          exact h.holds (.session k) c hc ho
  case sessions =>
    intro k
    by_cases hk : k = j
    · subst hk
      rw [hself]
      exact hok
    · rw [hother k hk]
      exact h.sessions k

omit [DecidableEq κ] in
/-- A caller moves on without a change of its leases. -/
theorem LeaseInv.setCaller (h : LeaseInv s) {i : ι} {phase : CallerPhase}
    (hrefs : ∀ c, phase = .leased c → s.lessee c = some (.caller i))
    (hholds : ∀ c ∈ s.pool.connections, s.lessee c = some (.caller i) → phase = .leased c) :
    LeaseInv (s.setCaller i phase) := by
  have hself : (s.setCaller i phase).callers i = phase := by simp [Adapter.setCaller]
  have hother : ∀ x, x ≠ i → (s.setCaller i phase).callers x = s.callers x := by
    intro x hx
    simp [Adapter.setCaller, Function.update_of_ne hx]
  constructor
  case custody => exact h.custody
  case refs =>
    intro o c hc
    cases o with
    | session j => exact h.refs (.session j) c hc
    | caller x =>
        by_cases hx : x = i
        · subst hx
          rw [Refs, hself] at hc
          exact hrefs c hc
        · rw [Refs, hother x hx] at hc
          exact h.refs (.caller x) c hc
  case holds =>
    intro o c hc ho
    cases o with
    | session j => exact h.holds (.session j) c hc ho
    | caller x =>
        by_cases hx : x = i
        · subst hx
          rw [Holds, hself]
          exact hholds c hc ho
        · rw [Holds, hother x hx]
          exact h.holds (.caller x) c hc ho
  case sessions => exact h.sessions

omit [DecidableEq κ] in
/-- A caller without a connection in the pool goes on without one. -/
theorem LeaseInv.setCaller_free (h : LeaseInv s) {i : ι} {phase : CallerPhase}
    (hbefore : ∀ c ∈ s.pool.connections, s.callers i ≠ .leased c)
    (hafter : ∀ c, phase ≠ .leased c) : LeaseInv (s.setCaller i phase) := by
  refine h.setCaller (fun c hc => absurd hc (hafter c)) (fun c hc hlc => ?_)
  exact absurd (h.holds (.caller i) c hc hlc) (hbefore c hc)

/-! ## Changes of a lease -/

omit [DecidableEq ι] [DecidableEq κ] in
/-- An owner gains the lease of a connection that nobody else had. -/
theorem LeaseInv.gain (h : LeaseInv s) {s' : Adapter ι κ} {o : Owner ι κ} {c : Conn}
    (hcustody : s'.custody.Ok (· < s'.nextConn))
    (hlessee : s'.lessee = Function.update s.lessee c (some o)) (hnone : s.lessee c = none)
    (htracked : ∀ x ∈ s'.pool.connections, x = c ∨ x ∈ s.pool.connections)
    (hother : ∀ o', o' ≠ o → s'.Refs o' = s.Refs o' ∧ s'.Holds o' = s.Holds o')
    (hrefs : ∀ x, s'.Refs o x → x = c ∨ s.Refs o x) (hown : s'.Holds o c)
    (hholds : ∀ x ∈ s.pool.connections, s.Holds o x → s'.Holds o x)
    (hsessions : ∀ j, TransportOk s'.pool.connections s'.nextConn (s'.sessions j)) :
    LeaseInv s' := by
  have hsame : ∀ x, x ≠ c → s'.lessee x = s.lessee x := by
    intro x hx
    rw [hlessee, Function.update_of_ne hx]
  have hc : s'.lessee c = some o := by rw [hlessee, Function.update_self]
  constructor
  case custody => exact hcustody
  case refs =>
    intro o' x hx
    by_cases ho : o' = o
    · subst ho
      rcases hrefs x hx with rfl | hx
      · exact hc
      · have hne : x ≠ c := by
          rintro rfl
          rw [h.refs o' x hx] at hnone
          cases hnone
        rw [hsame x hne]
        exact h.refs o' x hx
    · rw [(hother o' ho).1] at hx
      have hne : x ≠ c := by
        rintro rfl
        rw [h.refs o' x hx] at hnone
        cases hnone
      rw [hsame x hne]
      exact h.refs o' x hx
  case holds =>
    intro o' x hx hlx
    by_cases hxc : x = c
    · subst hxc
      cases hc.symm.trans hlx
      exact hown
    · rw [hsame x hxc] at hlx
      have hmem := (htracked x hx).resolve_left hxc
      have hheld := h.holds o' x hmem hlx
      by_cases ho : o' = o
      · subst ho
        exact hholds x hmem hheld
      · rw [(hother o' ho).2]
        exact hheld
  case sessions => exact hsessions

omit [DecidableEq ι] [DecidableEq κ] in
/-- An owner gives the lease of a connection back. -/
theorem LeaseInv.lose (h : LeaseInv s) {s' : Adapter ι κ} {o : Owner ι κ} {c : Conn}
    (hcustody : s'.custody.Ok (· < s'.nextConn))
    (hlessee : s'.lessee = Function.update s.lessee c none) (hmine : s.lessee c = some o)
    (htracked : s'.pool.connections ⊆ s.pool.connections)
    (hother : ∀ o', o' ≠ o → s'.Refs o' = s.Refs o' ∧ s'.Holds o' = s.Holds o')
    (hrefs : ∀ x, s'.Refs o x → x ≠ c ∧ s.Refs o x)
    (hholds : ∀ x, x ≠ c → s.Holds o x → s'.Holds o x)
    (hsessions : ∀ j, TransportOk s'.pool.connections s'.nextConn (s'.sessions j)) :
    LeaseInv s' := by
  have hsame : ∀ x, x ≠ c → s'.lessee x = s.lessee x := by
    intro x hx
    rw [hlessee, Function.update_of_ne hx]
  constructor
  case custody => exact hcustody
  case refs =>
    intro o' x hx
    by_cases ho : o' = o
    · subst ho
      obtain ⟨hne, hx⟩ := hrefs x hx
      rw [hsame x hne]
      exact h.refs o' x hx
    · rw [(hother o' ho).1] at hx
      have hne : x ≠ c := by
        rintro rfl
        exact ho (Option.some.inj ((h.refs o' x hx).symm.trans hmine))
      rw [hsame x hne]
      exact h.refs o' x hx
  case holds =>
    intro o' x hx hlx
    have hne : x ≠ c := by
      rintro rfl
      rw [hlessee, Function.update_self] at hlx
      cases hlx
    rw [hsame x hne] at hlx
    have hheld := h.holds o' x (htracked hx) hlx
    by_cases ho : o' = o
    · subst ho
      exact hholds x hne hheld
    · rw [(hother o' ho).2]
      exact hheld
  case sessions => exact hsessions

/-! ## Pool operations -/

omit [DecidableEq ι] [DecidableEq κ] in
theorem LeaseInv.discard (h : LeaseInv s) (c : Conn) :
    LeaseInv (s.setPool (s.pool.discardConnection c)) :=
  h.setPool (h.custody.drop c) (Finset.erase_subset _ _)

omit [DecidableEq ι] [DecidableEq κ] in
theorem LeaseInv.replace (h : LeaseInv s) {c : Conn} {p : ConnectionPool}
    (hreplace : s.pool.replaceConnection c = .ok p) :
    LeaseInv (s.setPool p) ∧ c ∉ p.connections ∧ p.connections ⊆ s.pool.connections := by
  unfold ConnectionPool.replaceConnection at hreplace
  split at hreplace
  · cases hreplace
  · split at hreplace
    · cases hreplace
    · cases hreplace
      exact ⟨h.setPool (h.custody.drop c) (Finset.erase_subset _ _), Finset.notMem_erase c _,
        Finset.erase_subset _ _⟩

omit [DecidableEq ι] [DecidableEq κ] in
theorem LeaseInv.expire (h : LeaseInv s) (now : Int) :
    LeaseInv (s.setPool (s.pool.expireIdleConnections cfg now)) := by
  have hretain := h.custody.retain (s.pool.retained cfg now) List.filter_sublist
  unfold ConnectionPool.expireIdleConnections
  split
  · exact h
  · split <;> exact h.setPool hretain (Finset.filter_subset _ _)

omit [DecidableEq ι] [DecidableEq κ] in
theorem LeaseInv.close (h : LeaseInv s) : LeaseInv (s.setPool s.pool.close) := by
  unfold ConnectionPool.close
  split
  · exact h
  · exact h.setPool h.custody.clear (Finset.empty_subset _)

omit [DecidableEq ι] [DecidableEq κ] in
/-- A pool operation that moves no connection. -/
theorem LeaseInv.samePlaces (h : LeaseInv s) {p : ConnectionPool}
    (hconnections : p.connections = s.pool.connections)
    (hidle : p.idleConnections = s.pool.idleConnections)
    (hhandoffs : p.waiterHandoffs = s.pool.waiterHandoffs) : LeaseInv (s.setPool p) := by
  refine h.setPool ?_ (by rw [hconnections])
  have hsame : (s.setPool p).custody = s.custody := by
    simp only [Adapter.custody, Adapter.setPool, hconnections, hidle, hhandoffs]
  rw [hsame]
  exact h.custody

/-! ## Release -/

omit [DecidableEq ι] [DecidableEq κ] in
/-- `_release_connection` of a leased connection: the pool lets go of it, or keeps it as idle or handed
over. -/
theorem LeaseInv.release (h : LeaseInv s) (hqueue : ConnectionPool.QueueOk cfg s.nextToken s.pool)
    {o : Owner ι κ} {c : Conn} (hc : s.lessee c = some o) (idleSince : Option Int) (now : Int) :
    (c ∉ (s.pool.releaseConnection cfg c idleSince now).connections
        ∧ LeaseInv (s.setPool (s.pool.releaseConnection cfg c idleSince now)))
      ∨ (c ∈ (s.pool.releaseConnection cfg c idleSince now).connections
        ∧ (s.pool.releaseConnection cfg c idleSince now).connections = s.pool.connections
        ∧ ((s.setPool (s.pool.releaseConnection cfg c idleSince now)).unlease c).custody.Ok
            (· < s.nextConn)) := by
  obtain ⟨hidle, hhanded⟩ := h.custody.leased_elsewhere hc
  have hidle : c ∉ s.pool.idleConnections := hidle
  -- nobody waits: the connection is closed or idle
  have hfree (p : ConnectionPool) (hconnections : p.connections = s.pool.connections)
      (hidles : p.idleConnections = s.pool.idleConnections)
      (hhandoffs : p.waiterHandoffs = s.pool.waiterHandoffs) (htracked : c ∈ s.pool.connections) :
      (c ∉ (p.releaseIdle cfg c idleSince now).connections
          ∧ LeaseInv (s.setPool (p.releaseIdle cfg c idleSince now)))
        ∨ (c ∈ (p.releaseIdle cfg c idleSince now).connections
          ∧ (p.releaseIdle cfg c idleSince now).connections = s.pool.connections
          ∧ ((s.setPool (p.releaseIdle cfg c idleSince now)).unlease c).custody.Ok
              (· < s.nextConn)) := by
    unfold ConnectionPool.releaseIdle
    split
    · have hdrop : (s.setPool (p.forget c).notifyAll).custody = s.custody.drop c := by
        simp only [Adapter.custody, Adapter.setPool, ConnectionPool.notifyAll, ConnectionPool.forget,
          Custody.drop, hconnections, hidles, hhandoffs, List.erase_of_not_mem hidle]
      refine .inl ⟨Finset.notMem_erase c _, h.setPool (hdrop ▸ h.custody.drop c) ?_⟩
      intro x hx
      rw [← hconnections]
      exact Finset.mem_of_mem_erase hx
    · rw [if_neg (by rw [hidles]; exact hidle)]
      refine .inr ⟨by rw [← hconnections] at htracked; exact htracked, hconnections, ?_⟩
      have hgive := h.custody.giveIdle hc htracked
      simpa only [Adapter.custody, Adapter.setPool, Adapter.unlease, ConnectionPool.notifyAll,
        Custody.giveIdle, hconnections, hidles, hhandoffs] using hgive
  unfold ConnectionPool.releaseConnection
  split
  · exact .inl ⟨Finset.notMem_erase c _, h.discard c⟩
  · next hkeep =>
    have htracked : c ∈ s.pool.connections := by
      simp only [ConnectionPool.releaseCloses, Bool.or_eq_true, not_or, Bool.not_eq_true,
        decide_eq_false_iff_not, not_not] at hkeep
      exact hkeep.1.2
    unfold ConnectionPool.releaseLive
    split
    · exact hfree _ rfl rfl rfl htracked
    · next w rest hwaiters =>
      split
      · exact hfree _ rfl rfl rfl htracked
      · have hwaiters : s.pool.acquireWaiters = w :: rest := hwaiters
        have hnone : s.pool.waiterHandoffs w = none := hqueue.waiter_unhanded (by simp [hwaiters])
        exact .inr ⟨htracked, rfl, h.custody.giveHanded hc hnone⟩

omit [DecidableEq κ] in
/-- A caller gives its connection back. -/
theorem LeaseInv.callerRelease (h : LeaseInv s)
    (hqueue : ConnectionPool.QueueOk cfg s.nextToken s.pool) {i : ι} {c : Conn}
    (hphase : s.callers i = .leased c) (settimeoutOk : Bool) (idleSince : Option Int) (now : Int) :
    LeaseInv ((s.releaseConnection cfg c settimeoutOk idleSince now).setCaller i .idle) := by
  have hmine : s.lessee c = some (.caller i) := h.refs (.caller i) c hphase
  -- once the connection has left the pool, the caller holds nothing
  have hgone {p : ConnectionPool} (hp : LeaseInv (s.setPool p)) (hc : c ∉ p.connections) :
      LeaseInv ((s.setPool p).setCaller i .idle) := by
    refine hp.setCaller_free (i := i) (fun x hx hheld => ?_) (by simp)
    have hheld : s.callers i = .leased x := hheld
    rw [hphase] at hheld
    cases hheld
    exact hc hx
  unfold Adapter.releaseConnection
  split
  · rcases h.release hqueue hmine idleSince now with ⟨hc, hinv⟩ | ⟨hc, hconnections, hcustody⟩
    · simp only [if_neg hc]
      exact hgone hinv hc
    · simp only [if_pos hc]
      refine h.lose (o := .caller i) (c := c) hcustody rfl hmine hconnections.le ?_ ?_ ?_ ?_
      · intro o' ho
        cases o' with
        | session j => exact ⟨rfl, rfl⟩
        | caller x =>
            have hx : x ≠ i := fun he => ho (by rw [he])
            constructor <;> funext y <;>
              simp [Refs, Holds, Adapter.setCaller, Adapter.unlease, Adapter.setPool,
                Function.update_of_ne hx]
      · intro x hx
        simp [Refs, Adapter.setCaller] at hx
      · intro x hx hheld
        rw [Holds, hphase] at hheld
        cases hheld
        exact absurd rfl hx
      · intro j
        exact (h.sessions j).mono (fun _ _ hx => hconnections ▸ hx) le_rfl
  · exact hgone (h.discard c) (Finset.notMem_erase c _)

omit [DecidableEq ι] in
/-- Other owners do not see a session move. -/
theorem setSession_other {j : κ} {t : StreamTransport} {o : Owner ι κ} (ho : o ≠ .session j) :
    (s.setSession j t).Refs o = s.Refs o ∧ (s.setSession j t).Holds o = s.Holds o := by
  cases o with
  | caller i => exact ⟨rfl, rfl⟩
  | session k =>
      have hk : k ≠ j := fun he => ho (by rw [he])
      constructor <;> funext x <;>
        simp [Refs, Holds, Adapter.setSession, Function.update_of_ne hk]

omit [DecidableEq ι] in
/-- `_finish_transport_locked` keeps the leases. -/
theorem LeaseInv.finishTransport (h : LeaseInv s)
    (hqueue : ConnectionPool.QueueOk cfg s.nextToken s.pool) {j : κ}
    (hopened : (s.sessions j).opened = true) (reusable settimeoutOk : Bool) (now : Int) :
    LeaseInv (s.finishTransport cfg j reusable settimeoutOk now) := by
  unfold Adapter.finishTransport
  simp only
  split
  · exact h
  · next hf =>
    have hf : (s.sessions j).transportFinished = false := Bool.eq_false_iff.2 hf
    have hmine : s.lessee (s.sessions j).conn = some (.session j) :=
      h.refs (.session j) _ (.inl ⟨hopened, hf, rfl⟩)
    have hrefs : ∀ x, (s.sessions j).finish.Refs x →
        s.lessee x = some (.session j) ∧ x ≠ (s.sessions j).conn := by
      intro x hx
      obtain ⟨hx, hne⟩ := (h.sessions j).refs_finish hf hx
      exact ⟨h.refs (.session j) x hx, hne⟩
    -- once the connection has left the pool, the session can forget it
    have hgone {p : ConnectionPool} (hp : LeaseInv (s.setPool p))
        (hc : (s.sessions j).conn ∉ p.connections) :
        LeaseInv ((s.setPool p).setSession j (s.sessions j).finish) := by
      refine hp.setSession ((hp.sessions j).finish hopened) (fun x hx => (hrefs x hx).1) ?_
      intro x hx hlx
      refine StreamTransport.Holds.finish (hp.holds (.session j) x hx hlx) ?_
      rintro rfl
      exact hc hx
    split
    · unfold Adapter.releaseConnection
      split
      · simp only
        split
        · next hmem =>
          obtain ⟨hconnections, hcustody⟩ := (h.release hqueue hmine none now).resolve_left
            (fun hgone => hgone.1 hmem) |>.2
          refine h.lose (o := .session j) (c := (s.sessions j).conn) hcustody rfl hmine
            hconnections.le (fun o ho => setSession_other (s := s) ho) ?_ ?_ ?_
          · intro x hx
            have hx : (s.sessions j).finish.Refs x := by
              simpa [Refs, Adapter.setSession, Adapter.setPool, Adapter.unlease] using hx
            exact ⟨(hrefs x hx).2, ((h.sessions j).refs_finish hf hx).1⟩
          · intro x hx hheld
            have hheld := StreamTransport.Holds.finish hheld hx
            simpa [Holds, Adapter.setSession, Adapter.setPool, Adapter.unlease] using hheld
          · intro k
            have hmono {t : StreamTransport} (ht : TransportOk s.pool.connections s.nextConn t) :=
              ht.mono (fun _ _ hx => hconnections ▸ hx) (le_refl s.nextConn)
            refine hmono ?_
            by_cases hk : k = j
            · subst hk
              simpa [Adapter.setSession, Adapter.setPool, Adapter.unlease] using
                (h.sessions k).finish hopened
            · simpa [Adapter.setSession, Adapter.setPool, Adapter.unlease,
                Function.update_of_ne hk] using h.sessions k
        · next hmem =>
          obtain ⟨hc, hinv⟩ := (h.release hqueue hmine none now).resolve_right
            (fun hkept => hmem hkept.1)
          exact hgone hinv hc
      · exact hgone (h.discard _) (Finset.notMem_erase _ _)
    · exact hgone (h.discard _) (Finset.notMem_erase _ _)

/-! ## Recoveries -/

omit [DecidableEq ι] [DecidableEq κ] in
/-- A session with a recovery is open. -/
theorem LeaseInv.opened_of_recovery (h : LeaseInv s) {j : κ} {r : Recovery}
    (hr : (s.sessions j).recovery = some r) : (s.sessions j).opened = true := by
  by_contra hne
  rw [(h.sessions j).unopened (Bool.eq_false_iff.2 hne)] at hr
  cases hr

omit [DecidableEq ι] in
/-- The leader of a recovery moves on, with the connection it had or without one that is gone. -/
theorem LeaseInv.setRecovery (h : LeaseInv s) {j : κ} {r r' : Recovery}
    (hr : (s.sessions j).recovery = some r)
    (hok : RecoveryOk s.pool.connections (s.sessions j) r')
    (hnew : ∀ c, r'.pc = .dialed c ∨ r'.pc = .resuming c → r.pc = .dialed c ∨ r.pc = .resuming c)
    (hkeep : ∀ c ∈ s.pool.connections, r.current = some c → r'.current = some c)
    (hcurrent : ∀ c, r'.current = some c → r.current = some c) :
    LeaseInv (s.setSession j ((s.sessions j).setRecovery r')) := by
  have ht := h.sessions j
  have hopened := h.opened_of_recovery hr
  refine h.setSession ?_ ?_ ?_
  · exact
      { ht with
        unopened := fun ho => absurd (hopened.symm.trans ho) (by simp)
        new_ne := by
          rintro hf _ ⟨⟩
          obtain ⟨hdialed, hresuming⟩ := ht.new_ne hf r hr
          constructor <;> intro hpc
          · exact (hnew _ (.inl hpc)).elim hdialed hresuming
          · exact (hnew _ (.inr hpc)).elim hdialed hresuming
        leader := fun _ => ht.leader (by rw [hr]; rfl)
        current_lt := by
          rintro _ c ⟨⟩ hc
          exact ht.current_lt r c hr (hcurrent c hc)
        recovery := by
          rintro _ ⟨⟩
          exact { hok with } }
  · rintro c (hconn | hrecovery | hclosing | ⟨_, ⟨⟩, hpc⟩)
    · exact h.refs (.session j) c (.inl hconn)
    · exact h.refs (.session j) c (.inr (.inl hrecovery))
    · exact h.refs (.session j) c (.inr (.inr (.inl hclosing)))
    · exact h.refs (.session j) c (.inr (.inr (.inr ⟨r, hr, hnew c hpc⟩)))
  · intro c hc hlc
    rcases h.holds (.session j) c hc hlc with hconn | ⟨r₀, hr₀, hc₀⟩
    · exact .inl hconn
    · cases hr.symm.trans hr₀
      exact .inr ⟨r', rfl, hkeep c hc hc₀⟩

omit [DecidableEq ι] in
/-- The leader of a recovery only moves to another point of its program. -/
theorem LeaseInv.movePc (h : LeaseInv s) {j : κ} {r : Recovery}
    (hr : (s.sessions j).recovery = some r) (attempt : Nat) {pc : RecoveryPc}
    (hpc : pc = .check ∨ pc = .dial ∨ pc = .cleanup) :
    LeaseInv (s.setSession j ((s.sessions j).setRecovery
      { r with attempt := attempt, pc := pc })) := by
  have hok := (h.sessions j).recovery r hr
  refine h.setRecovery hr ?_ ?_ (fun _ _ hc => hc) (fun _ hc => hc)
  · exact
      { current_held := hok.current_held
        new_current := by rcases hpc with rfl | rfl | rfl <;> simp
        failing_held := by rcases hpc with rfl | rfl | rfl <;> simp
        dialing_gone := by rcases hpc with rfl | rfl | rfl <;> simp
        conn_gone := hok.conn_gone }
  · rcases hpc with rfl | rfl | rfl <;> simp

omit [DecidableEq ι] in
/-- The leader returns, with nothing of its own left in the pool. -/
theorem LeaseInv.endRecovery (h : LeaseInv s) {j : κ} {r : Recovery} {t : StreamTransport}
    (hr : (s.sessions j).recovery = some r)
    (hgone : ∀ c, r.current = some c → c ∉ s.pool.connections)
    (ht : t = (s.sessions j).endRecovery ∨ t = { (s.sessions j).endRecovery with recoveryError := true }
      ∨ t = { s.sessions j with recovery := none }) :
    LeaseInv (s.setSession j t) := by
  have hok := h.sessions j
  have hopened := h.opened_of_recovery hr
  have hends : t.opened = (s.sessions j).opened ∧ t.conn = (s.sessions j).conn
      ∧ t.transportFinished = (s.sessions j).transportFinished
      ∧ t.hardClosed = (s.sessions j).hardClosed
      ∧ t.recoveryConn = (s.sessions j).recoveryConn ∧ t.closing = (s.sessions j).closing
      ∧ t.recovery = none := by
    rcases ht with rfl | rfl | rfl <;> exact ⟨rfl, rfl, rfl, rfl, rfl, rfl, rfl⟩
  obtain ⟨ho, hconn, hf, hhard, hrc, hclosing, hnone⟩ := hends
  refine h.setSession ?_ ?_ ?_
  · constructor
    case unopened => exact fun hu => absurd (hopened.symm.trans (ho ▸ hu)) (by simp)
    case recoveryConn_ne => rw [hf, hrc, hconn]; exact hok.recoveryConn_ne
    case closing_ne => rw [hf, hclosing, hconn]; exact hok.closing_ne
    case new_ne => rw [hnone]; rintro - r ⟨⟩
    case closing_hard => rw [hclosing, hhard]; exact hok.closing_hard
    case leader => rw [hnone]; rintro ⟨⟩
    case conn_lt => rw [ho, hconn]; exact hok.conn_lt
    case current_lt => rw [hnone]; rintro r c ⟨⟩
    case recovery => rw [hnone]; rintro r ⟨⟩
  · rintro c (⟨-, hf', hc⟩ | hc | hc | ⟨r', hr', -⟩)
    · exact h.refs (.session j) c (.inl ⟨hopened, hf ▸ hf', hconn ▸ hc⟩)
    · exact h.refs (.session j) c (.inr (.inl (hrc ▸ hc)))
    · exact h.refs (.session j) c (.inr (.inr (.inl (hclosing ▸ hc))))
    · rw [hnone] at hr'
      cases hr'
  · intro c hc hlc
    rcases h.holds (.session j) c hc hlc with ⟨-, hf', hc'⟩ | ⟨r₀, hr₀, hc₀⟩
    · exact .inl ⟨ho ▸ hopened, hf ▸ hf', hconn ▸ hc'⟩
    · cases hr.symm.trans hr₀
      exact absurd hc (hgone c hc₀)

omit [DecidableEq ι] in
/-- The dial of a recovery begins. -/
theorem LeaseInv.recoverDial (h : LeaseInv s) {j : κ} {r : Recovery}
    (hr : (s.sessions j).recovery = some r) : LeaseInv (s.recoverDial j r) := by
  have hok := (h.sessions j).recovery r hr
  unfold Adapter.recoverDial
  simp only
  split
  · next c hc =>
    split
    · exact h.movePc hr r.attempt (.inr (.inr rfl))
    · next p hp =>
      obtain ⟨hinv, hgone, hsub⟩ := h.replace hp
      have hok' := (hinv.sessions j).recovery r hr
      have hdialing : RecoveryOk p.connections (s.sessions j) { r with pc := .dialing } :=
        { current_held := hok'.current_held
          new_current := by simp
          failing_held := by simp
          dialing_gone := by
            intro _ x hx
            cases hc.symm.trans hx
            exact hgone
          conn_gone := hok'.conn_gone }
      exact hinv.setRecovery (j := j) hr hdialing (by simp) (fun _ _ hx => hx) (fun _ hx => hx)
  · next hnone =>
    split
    · have hdialing : RecoveryOk s.pool.connections (s.sessions j) { r with pc := .dialing } :=
        { current_held := hok.current_held
          new_current := by simp
          failing_held := by simp
          dialing_gone := by
            intro _ x hx
            cases hnone.symm.trans hx
          conn_gone := hok.conn_gone }
      exact h.setRecovery hr hdialing (by simp) (fun _ _ hx => hx) (fun _ hx => hx)
    · exact h.movePc hr r.attempt (.inr (.inr rfl))

/-- A failed dial moves no connection. -/
theorem newConnectionFailed_places (p : ConnectionPool) (b : Bool) (exc : DialError) :
    (p.newConnectionFailed b exc).connections = p.connections
      ∧ (p.newConnectionFailed b exc).idleConnections = p.idleConnections
      ∧ (p.newConnectionFailed b exc).waiterHandoffs = p.waiterHandoffs := by
  unfold ConnectionPool.newConnectionFailed
  split <;> exact ⟨rfl, rfl, rfl⟩

omit [DecidableEq ι] in
/-- The dial of a recovery fails. -/
theorem LeaseInv.recoverDialFailed (h : LeaseInv s) {j : κ} {r : Recovery}
    (hr : (s.sessions j).recovery = some r) (hpc : r.pc = .dialing) (exc : DialError) :
    LeaseInv (s.recoverDialFailed cfg j r exc) := by
  obtain ⟨hconnections, hidle, hhandoffs⟩ :=
    newConnectionFailed_places s.pool (!moreAttempts cfg r) exc
  have hinv := h.samePlaces hconnections hidle hhandoffs
  have hok := (hinv.sessions j).recovery r hr
  unfold Adapter.recoverDialFailed
  cases exc with
  | other => exact hinv.movePc (j := j) hr r.attempt (.inr (.inr rfl))
  | interrupt => exact hinv.endRecovery (j := j) hr (hok.dialing_gone (.inl hpc)) (.inr (.inr rfl))
  | dialFailure =>
      refine hinv.setRecovery (j := j) hr ?_ (by simp) ?_ (by simp)
      · exact
          { current_held := by simp
            new_current := by simp
            failing_held := by simp
            dialing_gone := by simp
            conn_gone := by
              intro hf _
              by_cases hcurrent : r.current = some (s.sessions j).conn
              · exact hok.dialing_gone (.inl hpc) _ hcurrent
              · exact hok.conn_gone hf hcurrent }
      · intro c hc hcurrent
        exact absurd hc (hok.dialing_gone (.inl hpc) c hcurrent)

omit [DecidableEq ι] in
/-- The new socket of a recovery is taken over, or discarded because the session has ended. -/
theorem LeaseInv.recoverAdopt (h : LeaseInv s) {j : κ} {r : Recovery} {c : Conn}
    (hr : (s.sessions j).recovery = some r) (hpc : r.pc = .dialed c) :
    LeaseInv (s.recoverAdopt j r c) := by
  have ht := h.sessions j
  have hok := ht.recovery r hr
  have hopened := h.opened_of_recovery hr
  have hcurrent : r.current = some c := hok.new_current c (.inl hpc)
  unfold Adapter.recoverAdopt
  simp only
  split
  · refine (h.discard c).endRecovery (j := j) hr ?_ (.inl rfl)
    intro x hx
    cases hcurrent.symm.trans hx
    exact Finset.notMem_erase c _
  · next hstop =>
    have hf : (s.sessions j).transportFinished = false := by
      simp only [StreamTransport.stopped, Bool.or_eq_true, not_or, Bool.not_eq_true] at hstop
      exact hstop.2
    have hne : c ≠ (s.sessions j).conn := by
      rintro rfl
      exact (ht.new_ne hf r hr).1 hpc
    refine h.setSession ?_ ?_ ?_
    · exact
        { ht with
          unopened := fun ho => absurd (hopened.symm.trans ho) (by simp)
          recoveryConn_ne := fun _ he => hne (Option.some.inj he)
          new_ne := by
            rintro - _ ⟨⟩
            exact ⟨by simp, fun he => hne (RecoveryPc.resuming.inj he)⟩
          leader := fun _ => ht.leader (by rw [hr]; rfl)
          current_lt := by
            rintro _ x ⟨⟩ hx
            exact ht.current_lt r x hr hx
          recovery := by
            rintro _ ⟨⟩
            exact
              { current_held := hok.current_held
                new_current := by
                  rintro x (hx | hx)
                  · cases hx
                  · cases hx
                    exact hcurrent
                failing_held := by simp
                dialing_gone := by simp
                conn_gone := hok.conn_gone } }
    · have hmine : s.lessee c = some (.session j) :=
        h.refs (.session j) c (.inr (.inr (.inr ⟨r, hr, .inl hpc⟩)))
      rintro x (hx | hx | hx | ⟨_, ⟨⟩, hx⟩)
      · exact h.refs (.session j) x (.inl hx)
      · cases hx
        exact hmine
      · exact h.refs (.session j) x (.inr (.inr (.inl hx)))
      · rcases hx with hx | hx
        · cases hx
        · cases hx
          exact hmine
    · intro x hx hlx
      rcases h.holds (.session j) x hx hlx with hx | ⟨r₀, hr₀, hx⟩
      · exact .inl hx
      · cases hr.symm.trans hr₀
        exact .inr ⟨_, rfl, hx⟩

omit [DecidableEq ι] in
/-- The resumed connection is attached, or discarded because the session has ended. -/
theorem LeaseInv.resumeOk (h : LeaseInv s) {j : κ} {r : Recovery} {c : Conn}
    (hr : (s.sessions j).recovery = some r) (hpc : r.pc = .resuming c) :
    LeaseInv (s.resumeOk j c) := by
  have ht := h.sessions j
  have hok := ht.recovery r hr
  have hopened := h.opened_of_recovery hr
  have hcurrent : r.current = some c := hok.new_current c (.inr hpc)
  unfold Adapter.resumeOk
  simp only
  split
  · refine (h.discard c).endRecovery (j := j) hr ?_ (.inl rfl)
    intro x hx
    cases hcurrent.symm.trans hx
    exact Finset.notMem_erase c _
  · next hstop =>
    simp only [StreamTransport.stopped, Bool.or_eq_true, not_or, Bool.not_eq_true] at hstop
    obtain ⟨hhard, hf⟩ := hstop
    have hne : c ≠ (s.sessions j).conn := by
      rintro rfl
      exact (ht.new_ne hf r hr).2 hpc
    have hclosing : (s.sessions j).closing = [] := by
      by_contra hne
      exact absurd (ht.closing_hard hne) (by simp [hhard])
    -- the connection that was replaced has left the pool
    have hgone : (s.sessions j).conn ∉ s.pool.connections := by
      refine hok.conn_gone hf fun he => hne ?_
      exact Option.some.inj (hcurrent.symm.trans he)
    have hmine : s.lessee c = some (.session j) :=
      h.refs (.session j) c (.inr (.inr (.inr ⟨r, hr, .inr hpc⟩)))
    refine h.setSession ?_ ?_ ?_
    · exact
        { unopened := fun ho => absurd (hopened.symm.trans ho) (by simp)
          recoveryConn_ne := by simp [StreamTransport.attach]
          closing_ne := by simp [StreamTransport.attach, StreamTransport.endRecovery, hclosing]
          new_ne := by simp [StreamTransport.attach, StreamTransport.endRecovery]
          closing_hard := by simp [StreamTransport.attach, StreamTransport.endRecovery, hclosing]
          leader := by simp [StreamTransport.attach, StreamTransport.endRecovery]
          conn_lt := fun _ => ht.current_lt r c hr hcurrent
          current_lt := by simp [StreamTransport.attach, StreamTransport.endRecovery]
          recovery := by simp [StreamTransport.attach, StreamTransport.endRecovery] }
    · rintro x (⟨-, -, hx⟩ | hx | hx | ⟨r', hr', -⟩)
      · cases hx
        exact hmine
      · cases hx
      · have hx : x ∈ (s.sessions j).closing := hx
        rw [hclosing] at hx
        cases hx
      · cases hr'
    · intro x hx hlx
      rcases h.holds (.session j) x hx hlx with ⟨-, -, rfl⟩ | ⟨r₀, hr₀, hx'⟩
      · exact absurd hx hgone
      · cases hr.symm.trans hr₀
        cases hcurrent.symm.trans hx'
        exact .inl ⟨hopened, hf, rfl⟩

omit [DecidableEq ι] in
/-- The recovery gives back what it holds. -/
theorem LeaseInv.recoverGiveBack (h : LeaseInv s) {j : κ} {r : Recovery}
    (hr : (s.sessions j).recovery = some r) : LeaseInv (s.recoverGiveBack j r) := by
  have hfailing {p : ConnectionPool} (hp : LeaseInv (s.setPool p))
      (hgone : ∀ c, r.current = some c → c ∉ p.connections) :
      LeaseInv ((s.setPool p).setSession j ((s.sessions j).setRecovery
        { r with replacementReservationHeld := false, pc := .failing })) := by
    have hok := (hp.sessions j).recovery r hr
    refine hp.setRecovery (j := j) hr ?_ (by simp) (fun _ _ hx => hx) (fun _ hx => hx)
    exact
      { current_held := by simp
        new_current := by simp
        failing_held := by simp
        dialing_gone := fun _ c hc => hgone c hc
        conn_gone := hok.conn_gone }
  have hok := (h.sessions j).recovery r hr
  unfold Adapter.recoverGiveBack
  simp only
  split
  · next hheld =>
    refine hfailing (h.samePlaces rfl rfl rfl) fun c hc => ?_
    exact absurd (hok.current_held c hc) (by simp [hheld])
  · split
    · next c hc =>
      refine hfailing (h.discard c) fun x hx => ?_
      cases hc.symm.trans hx
      exact Finset.notMem_erase c _
    · next hnone =>
      refine hfailing (p := s.pool) h fun x hx => ?_
      cases hnone.symm.trans hx

/-! ## New connections -/

omit [DecidableEq ι] [DecidableEq κ] in
/-- A socket that was closed again at once. -/
theorem LeaseInv.skipConn (h : LeaseInv s) : LeaseInv { s with nextConn := s.nextConn + 1 } where
  custody := h.custody.mono fun _ hx => Nat.lt_succ_of_lt hx
  refs := h.refs
  holds := h.holds
  sessions j := (h.sessions j).mono (fun _ _ hx => hx) (Nat.le_succ _)

omit [DecidableEq ι] [DecidableEq κ] in
/-- A new socket is in nobody's hands. -/
theorem LeaseInv.fresh (h : LeaseInv s) : s.lessee s.nextConn = none := by
  by_contra hne
  exact Nat.lt_irrefl _ (h.custody.known_leased _ (Option.isSome_iff_ne_none.2 hne))

omit [DecidableEq ι] [DecidableEq κ] in
/-- The places after a handshake. -/
theorem LeaseInv.track (h : LeaseInv s) (o : Owner ι κ) :
    (s.custody.track s.nextConn o).Ok (· < s.nextConn + 1) := by
  refine (h.custody.track (Nat.lt_irrefl s.nextConn) o).mono ?_
  rintro x (hx | rfl)
  · exact Nat.lt_succ_of_lt hx
  · exact Nat.lt_succ_self _

omit [DecidableEq κ] in
/-- A caller without a connection gets one that nobody had. -/
theorem LeaseInv.callerGain (h : LeaseInv s) {s' : Adapter ι κ} {i : ι} {c : Conn}
    (hphase : ∀ x, s.callers i ≠ .leased x)
    (hcallers : s'.callers = Function.update s.callers i (.leased c))
    (hsame : s'.sessions = s.sessions) (hcustody : s'.custody.Ok (· < s'.nextConn))
    (hlessee : s'.lessee = Function.update s.lessee c (some (.caller i)))
    (hnone : s.lessee c = none)
    (htracked : ∀ x ∈ s'.pool.connections, x = c ∨ x ∈ s.pool.connections)
    (hsessions : ∀ j, TransportOk s'.pool.connections s'.nextConn (s'.sessions j)) :
    LeaseInv s' := by
  refine h.gain (o := .caller i) hcustody hlessee hnone htracked ?_ ?_ ?_ ?_ hsessions
  · intro o' ho
    cases o' with
    | session j => constructor <;> funext x <;> simp only [Refs, Holds, hsame]
    | caller x =>
        have hx : x ≠ i := fun he => ho (by rw [he])
        constructor <;> funext y <;> simp only [Refs, Holds, hcallers, Function.update_of_ne hx]
  · intro x hx
    rw [Refs, hcallers, Function.update_self] at hx
    cases hx
    exact .inl rfl
  · rw [Holds, hcallers, Function.update_self]
  · intro x _ hx
    exact absurd hx (hphase x)

omit [DecidableEq κ] in
theorem LeaseInv.callerDialOk (h : LeaseInv s) {i : ι} (hphase : s.callers i = .dialing)
    (createdAt : Int) : LeaseInv (s.callerDialOk i createdAt) := by
  unfold Adapter.callerDialOk ConnectionPool.newConnectionOk
  cases hclosed : s.pool.closed with
  | true =>
    have hinv : LeaseInv (s.setPool s.pool.dropReservation) := h.samePlaces rfl rfl rfl
    have hidle : ∀ c, CallerPhase.idle ≠ .leased c := fun _ hc => by cases hc
    refine hinv.skipConn.setCaller_free (i := i) (fun c _ hc => ?_) hidle
    simp [hphase, Adapter.setPool] at hc
  | false =>
    refine h.callerGain (i := i) (c := s.nextConn) (by simp [hphase]) rfl rfl (h.track _) rfl h.fresh
      ?_ fun j => (h.sessions j).track
    exact fun x hx => Finset.mem_insert.1 hx

omit [DecidableEq ι] in
theorem LeaseInv.recoverDialOk (h : LeaseInv s) {j : κ} {r : Recovery}
    (hr : (s.sessions j).recovery = some r) (hpc : r.pc = .dialing) (createdAt : Int) :
    LeaseInv (s.recoverDialOk j r createdAt) := by
  have ht := h.sessions j
  have hok := ht.recovery r hr
  have hopened := h.opened_of_recovery hr
  unfold Adapter.recoverDialOk ConnectionPool.newConnectionOk
  cases hclosed : s.pool.closed with
  | true =>
    have hinv : LeaseInv (s.setPool s.pool.dropReservation) := h.samePlaces rfl rfl rfl
    exact hinv.skipConn.movePc (j := j) hr r.attempt (.inr (.inr rfl))
  | false =>
    have hnext : (s.sessions j).conn ≠ s.nextConn := Nat.ne_of_lt (ht.conn_lt hopened)
    -- whatever was to be replaced has left the pool
    have hgone : ∀ c, r.current = some c → c ∉ s.pool.connections :=
      hok.dialing_gone (.inl hpc)
    refine h.gain (o := .session j) (c := s.nextConn) (h.track _) rfl h.fresh ?_ ?_ ?_ ?_ ?_ ?_
    · intro x hx
      exact Finset.mem_insert.1 hx
    · intro o' ho
      exact setSession_other (s := s) ho
    · intro x hx
      have hx : ((s.sessions j).setRecovery
          ⟨r.attempt, some s.nextConn, false, .dialed s.nextConn⟩).Refs x := by
        simpa [Refs, Adapter.setSession, Adapter.lease] using hx
      rcases hx with hx | hx | hx | ⟨_, ⟨⟩, hx⟩
      · exact .inr (.inl hx)
      · exact .inr (.inr (.inl hx))
      · exact .inr (.inr (.inr (.inl hx)))
      · rcases hx with hx | hx
        · exact .inl (RecoveryPc.dialed.inj hx).symm
        · cases hx
    · have hheld : ((s.sessions j).setRecovery
          ⟨r.attempt, some s.nextConn, false, .dialed s.nextConn⟩).Holds s.nextConn :=
        .inr ⟨_, rfl, rfl⟩
      simpa [Holds, Adapter.setSession, Adapter.lease] using hheld
    · intro x hx hheld
      rcases hheld with hheld | ⟨r₀, hr₀, hx₀⟩
      · have hheld : ((s.sessions j).setRecovery
            ⟨r.attempt, some s.nextConn, false, .dialed s.nextConn⟩).Holds x := .inl hheld
        simpa [Holds, Adapter.setSession, Adapter.lease] using hheld
      · cases hr.symm.trans hr₀
        exact absurd hx (hgone x hx₀)
    · intro k
      by_cases hk : k = j
      · subst hk
        have htrack := ht.track
        have hdialed : TransportOk (insert s.nextConn s.pool.connections) (s.nextConn + 1)
            ((s.sessions k).setRecovery
              ⟨r.attempt, some s.nextConn, false, .dialed s.nextConn⟩) :=
          { htrack with
            unopened := fun ho => absurd (hopened.symm.trans ho) (by simp)
            new_ne := by
              rintro - _ ⟨⟩
              exact ⟨fun he => hnext (RecoveryPc.dialed.inj he).symm, by simp⟩
            leader := fun _ => ht.leader (by rw [hr]; rfl)
            current_lt := by
              rintro _ c ⟨⟩ hc
              rw [← Option.some.inj hc]
              exact Nat.lt_succ_self _
            recovery := by
              rintro _ ⟨⟩
              exact
                { current_held := fun _ _ => rfl
                  new_current := by
                    rintro c (hc | hc)
                    · rw [RecoveryPc.dialed.inj hc]
                    · cases hc
                  failing_held := by simp
                  dialing_gone := by simp
                  conn_gone := by
                    intro hf _ hmem
                    have hmem := Finset.mem_of_mem_insert_of_ne hmem hnext
                    by_cases hcurrent : r.current = some (s.sessions k).conn
                    · exact hgone _ hcurrent hmem
                    · exact hok.conn_gone hf hcurrent hmem } }
        simpa [Adapter.setSession, Adapter.lease, Adapter.setPool, ConnectionPool.fillReservation,
          ConnectionPool.notifyAll] using hdialed
      · have htrack := (h.sessions k).track
        simpa [Adapter.setSession, Adapter.lease, Adapter.setPool, ConnectionPool.fillReservation,
          ConnectionPool.notifyAll, Function.update_of_ne hk] using htrack

/-! ## Turns -/

omit [DecidableEq κ] in
/-- A caller takes an idle connection. -/
theorem LeaseInv.callerTakeIdle (h : LeaseInv s) {s' : Adapter ι κ} {i : ι} {c : Conn}
    (hphase : ∀ x, s.callers i ≠ .leased x) (hidle : c ∈ s.pool.idleConnections)
    (hcallers : s'.callers = Function.update s.callers i (.leased c))
    (hsame : s'.sessions = s.sessions) (hnext : s'.nextConn = s.nextConn)
    (hcustody : s'.custody = s.custody.takeIdle c (.caller i)) : LeaseInv s' := by
  have hconnections : s'.pool.connections = s.pool.connections := congrArg Custody.tracked hcustody
  refine h.callerGain hphase hcallers hsame ?_ (congrArg Custody.lessee hcustody)
    (h.custody.idle_unleased c hidle) ?_ ?_
  · rw [hcustody, hnext]
    exact h.custody.takeIdle hidle _
  · rw [hconnections]
    exact fun x hx => .inr hx
  · rw [hconnections, hnext, hsame]
    exact h.sessions

omit [DecidableEq κ] in
/-- A caller picks up the connection that it was handed. -/
theorem LeaseInv.callerTakeHanded (h : LeaseInv s) {s' : Adapter ι κ} {i : ι} {w : Token} {c : Conn}
    (hphase : ∀ x, s.callers i ≠ .leased x) (hhanded : s.pool.waiterHandoffs w = some c)
    (hcallers : s'.callers = Function.update s.callers i (.leased c))
    (hsame : s'.sessions = s.sessions) (hnext : s'.nextConn = s.nextConn)
    (hcustody : s'.custody = s.custody.takeHanded w c (.caller i)) : LeaseInv s' := by
  have hconnections : s'.pool.connections = s.pool.connections := congrArg Custody.tracked hcustody
  refine h.callerGain hphase hcallers hsame ?_ (congrArg Custody.lessee hcustody)
    (h.custody.handed_unleased w c hhanded) ?_ ?_
  · rw [hcustody, hnext]
    exact h.custody.takeHanded hhanded _
  · rw [hconnections]
    exact fun x hx => .inr hx
  · rw [hconnections, hnext, hsame]
    exact h.sessions

omit [DecidableEq ι] [DecidableEq κ] in
/-- A token is used up. -/
theorem LeaseInv.useToken (h : LeaseInv s) : LeaseInv s.useToken :=
  ⟨h.custody, h.refs, h.holds, h.sessions⟩

omit [DecidableEq κ] in
theorem LeaseInv.afterCheckout (h : LeaseInv s) {i : ι} {waiter : Option Token}
    (hphase : s.callers i = .checkout waiter) {q : ConnectionPool} {outcome : CheckoutOutcome}
    (hmove : ConnectionPool.CheckoutMove s.pool q waiter outcome) :
    LeaseInv ((s.useToken.setPool q).afterCheckout i outcome) := by
  have hfree : ∀ x, s.callers i ≠ .leased x := by simp [hphase]
  cases hmove with
  | @handed w c hwaiter hc hconnections hidle hhandoffs =>
      refine h.callerTakeHanded (w := w) hfree hc rfl rfl rfl ?_
      simp only [Adapter.afterCheckout, Adapter.custody, Adapter.lease, Adapter.setCaller,
        Adapter.setPool, Adapter.useToken, Custody.takeHanded, hconnections, hidle, hhandoffs]
  | @idle c init hp hconnections hidle hhandoffs =>
      have hmem : c ∈ s.pool.idleConnections := by simp [hp]
      have herase : s.pool.idleConnections.erase c = init := by
        have hnodup : (init ++ [c]).Nodup := hp ▸ h.custody.idle_nodup
        have hc : c ∉ init := fun hc => (List.nodup_append.1 hnodup).2.2 c hc c (by simp) rfl
        rw [hp, List.erase_append_right _ hc]
        simp
      refine h.callerTakeIdle hfree hmem rfl rfl rfl ?_
      simp only [Adapter.afterCheckout, Adapter.custody, Adapter.lease, Adapter.setCaller,
        Adapter.setPool, Adapter.useToken, Custody.takeIdle, hconnections, hidle, hhandoffs, herase]
  | none hsame hno =>
      have hinv : LeaseInv (s.useToken.setPool q) :=
        h.useToken.samePlaces hsame.connections hsame.idle hsame.handoffs
      cases outcome with
      | leased c => exact absurd rfl (hno c)
      | closed | reserved | saturated | timedOut | waits =>
          exact hinv.setCaller_free (fun x _ => hfree x) (by simp)

omit [DecidableEq κ] in
theorem LeaseInv.turn (h : LeaseInv s) (hqueue : QueueInv cfg s) (i : ι) (expired : Bool) :
    LeaseInv (s.turn cfg i expired) := by
  unfold Adapter.turn
  split
  · next waiter hphase =>
    split
    · exact h.afterCheckout hphase
        (ConnectionPool.checkoutTurn_move hqueue.queue h.custody.idle_tracked)
    · exact h
  · next target waiter hphase =>
    split
    · have hsame : ConnectionPool.SamePlaces s.pool
          (s.pool.reserveTurn cfg target waiter s.nextToken expired).1 := by
        refine ConnectionPool.reserveTurn_samePlaces hqueue.queue fun w hw => ?_
        exact hqueue.tokens.marked i w (by rw [hphase, hw]; rfl)
      have hinv := h.useToken.samePlaces hsame.connections hsame.idle hsame.handoffs
      have hfree : ∀ x, s.callers i ≠ .leased x := by simp [hphase]
      simp only
      generalize (s.pool.reserveTurn cfg target waiter s.nextToken expired).2 = outcome
      cases outcome <;> exact hinv.setCaller_free (fun x _ => hfree x) (by simp)
    · exact h
  · exact h

omit [DecidableEq κ] in
/-- One event of a caller keeps the leases. -/
theorem LeaseInv.callerStep (h : LeaseInv s) (hqueue : QueueInv cfg s) (i : ι) (e : CallerEvent) :
    LeaseInv (s.callerStep cfg i e) := by
  cases e with
  | checkout | reserve target =>
      simp only [Adapter.callerStep]
      split
      · next hphase => exact h.setCaller_free (by simp [hphase]) (by simp)
      · exact h
  | turn expired => exact h.turn hqueue i expired
  | timeout =>
      simp only [Adapter.callerStep, Adapter.timeout]
      split
      · exact h.samePlaces rfl rfl rfl
      · exact h.samePlaces rfl rfl rfl
      · exact h
  | dialOk createdAt =>
      simp only [Adapter.callerStep]
      split
      · next hphase => exact h.callerDialOk hphase createdAt
      · exact h
  | dialFailed exc =>
      simp only [Adapter.callerStep]
      split
      · next hphase =>
        obtain ⟨hconnections, hidle, hhandoffs⟩ := newConnectionFailed_places s.pool true exc
        refine (h.samePlaces hconnections hidle hhandoffs).setCaller_free (i := i) ?_ (by simp)
        simp [Adapter.setPool, hphase]
      · exact h
  | keepalive c =>
      simp only [Adapter.callerStep]
      split
      · next p hphase hp =>
        unfold ConnectionPool.keepaliveTake at hp
        split at hp
        · cases hp
        · split at hp
          · cases hp
          · next hidle =>
            cases hp
            refine h.callerTakeIdle (by simp [hphase]) ?_ rfl rfl rfl rfl
            exact not_not.1 fun hc => hidle (.inr hc)
      · exact h
  | release settimeoutOk idleSince now =>
      simp only [Adapter.callerStep]
      split
      · next c hphase => exact h.callerRelease hqueue.queue hphase settimeoutOk idleSince now
      · exact h
  | discard =>
      simp only [Adapter.callerStep]
      split
      · next c hphase =>
        refine (h.discard c).setCaller_free (i := i) (fun x hx hheld => ?_) (by simp)
        have hheld : s.callers i = .leased x := hheld
        rw [hphase] at hheld
        cases hheld
        exact Finset.notMem_erase c _ hx
      · exact h

/-! ## Sessions -/

omit [DecidableEq ι] in
/-- Flags of a session that no lease depends on. -/
theorem LeaseInv.setFlags (h : LeaseInv s) {j : κ} {t : StreamTransport}
    (hopened : (s.sessions j).opened = true)
    (ht : t = { s.sessions j with
      recoveryError := t.recoveryError
      terminalFailurePublished := t.terminalFailurePublished
      resumeSupported := t.resumeSupported }) :
    LeaseInv (s.setSession j t) := by
  have hok := h.sessions j
  rw [ht]
  refine h.setSession ?_ (fun c hc => h.refs (.session j) c hc)
    (fun c hc hlc => h.holds (.session j) c hc hlc)
  exact
    { hok with
      unopened := fun ho => absurd (hopened.symm.trans ho) (by simp)
      recovery := fun r hr => { hok.recovery r hr with } }

omit [DecidableEq ι] in
theorem LeaseInv.recoverBegin (h : LeaseInv s) (j : κ) : LeaseInv (s.recoverBegin cfg j) := by
  have hok := h.sessions j
  unfold Adapter.recoverBegin
  simp only
  split
  · exact h
  · next hopen =>
    simp only [not_or, Bool.not_eq_true, Bool.not_eq_false] at hopen
    obtain ⟨hopened, hstop⟩ := hopen
    have hf : (s.sessions j).transportFinished = false := by
      simp only [StreamTransport.stopped, Bool.or_eq_false_iff] at hstop
      exact hstop.2
    split
    · exact h.setFlags hopened rfl
    · split
      · exact h
      · next hidle =>
        -- no recovery is at work, so that nothing is forgotten
        have hnone : (s.sessions j).recovery = none := by
          by_contra hne
          rcases hok.leader (Option.isSome_iff_ne_none.2 hne) with hr | hfin
          · exact hidle hr
          · rw [hf] at hfin
            cases hfin
        refine h.setSession ?_ ?_ ?_
        · exact
            { hok with
              unopened := fun ho => absurd (hopened.symm.trans ho) (by simp)
              new_ne := by
                rintro - _ ⟨⟩
                exact ⟨by simp, by simp⟩
              leader := fun _ => .inl rfl
              current_lt := by
                rintro _ c ⟨⟩ hc
                rw [← Option.some.inj hc]
                exact hok.conn_lt hopened
              recovery := by
                rintro _ ⟨⟩
                exact
                  { current_held := fun _ _ => rfl
                    new_current := by simp
                    failing_held := by simp
                    dialing_gone := by simp
                    conn_gone := fun _ hne => absurd rfl hne } }
        · rintro c (hc | hc | hc | ⟨_, ⟨⟩, hc⟩)
          · exact h.refs (.session j) c (.inl hc)
          · exact h.refs (.session j) c (.inr (.inl hc))
          · exact h.refs (.session j) c (.inr (.inr (.inl hc)))
          · rcases hc with hc | hc <;> cases hc
        · intro c hc hlc
          rcases h.holds (.session j) c hc hlc with hconn | ⟨r, hr, -⟩
          · exact .inl hconn
          · rw [hnone] at hr
            cases hr

omit [DecidableEq ι] in
theorem LeaseInv.failTerminal (h : LeaseInv s)
    (hqueue : ConnectionPool.QueueOk cfg s.nextToken s.pool) (j : κ) :
    LeaseInv (s.failTerminal cfg j) := by
  unfold Adapter.failTerminal
  simp only
  split
  · exact h
  · next hopen =>
    simp only [not_or, Bool.not_eq_false] at hopen
    have hflags : LeaseInv (s.setSession j { s.sessions j with
        terminalFailurePublished := true, recoveryError := true }) := h.setFlags hopen.1 rfl
    refine hflags.finishTransport hqueue ?_ false true 0
    simpa [Adapter.setSession] using hopen.1

omit [DecidableEq ι] in
/-- The first section of `close` remembers the socket of the recovery. -/
theorem LeaseInv.closeBegin (h : LeaseInv s) {j : κ} (hopened : (s.sessions j).opened = true) :
    LeaseInv (s.setSession j { s.sessions j with
      hardClosed := true
      closing := (s.sessions j).closing ++ (s.sessions j).recoveryConn.toList }) := by
  have hok := h.sessions j
  have hmem : ∀ c, c ∈ (s.sessions j).closing ++ (s.sessions j).recoveryConn.toList ↔
      c ∈ (s.sessions j).closing ∨ (s.sessions j).recoveryConn = some c := by
    simp
  refine h.setSession ?_ ?_ (fun c hc hlc => h.holds (.session j) c hc hlc)
  · exact
      { hok with
        unopened := fun ho => absurd (hopened.symm.trans ho) (by simp)
        closing_ne := by
          intro hf hc
          rcases (hmem _).1 hc with hc | hc
          · exact hok.closing_ne hf hc
          · exact hok.recoveryConn_ne hf hc
        closing_hard := fun _ => rfl
        recovery := fun r hr => { hok.recovery r hr with } }
  · rintro c (hc | hc | hc | hc)
    · exact h.refs (.session j) c (.inl hc)
    · exact h.refs (.session j) c (.inr (.inl hc))
    · rcases (hmem c).1 hc with hc | hc
      · exact h.refs (.session j) c (.inr (.inr (.inl hc)))
      · exact h.refs (.session j) c (.inr (.inl hc))
    · exact h.refs (.session j) c (.inr (.inr (.inr hc)))

omit [DecidableEq ι] in
/-- `close` discards one of the sockets that it remembers. -/
theorem LeaseInv.closeDiscard (h : LeaseInv s) {j : κ} {c : Conn} {rest : List Conn}
    (hclosing : (s.sessions j).closing = c :: rest) :
    LeaseInv ((s.setPool (s.pool.discardConnection c)).setSession j
      { s.sessions j with closing := rest }) := by
  have hinv := h.discard c
  have hok := hinv.sessions j
  have hopened : (s.sessions j).opened = true := by
    by_contra hne
    rw [(h.sessions j).unopened (Bool.eq_false_iff.2 hne)] at hclosing
    cases hclosing
  have hsub : ∀ x ∈ rest, x ∈ (s.sessions j).closing := by
    intro x hx
    rw [hclosing]
    exact List.mem_cons_of_mem _ hx
  refine hinv.setSession ?_ ?_ (fun x hx hlx => hinv.holds (.session j) x hx hlx)
  · exact
      { hok with
        unopened := fun ho => absurd (hopened.symm.trans ho) (by simp)
        closing_ne := fun hf hx => hok.closing_ne hf (hsub _ hx)
        closing_hard := fun _ => (h.sessions j).closing_hard (by simp [hclosing])
        recovery := fun r hr => { hok.recovery r hr with } }
  · rintro x (hx | hx | hx | hx)
    · exact h.refs (.session j) x (.inl hx)
    · exact h.refs (.session j) x (.inr (.inl hx))
    · exact h.refs (.session j) x (.inr (.inr (.inl (hsub x hx))))
    · exact h.refs (.session j) x (.inr (.inr (.inr hx)))

omit [DecidableEq ι] in
/-- Behind the loop the recovery forgets its socket as such. -/
theorem LeaseInv.recoverCleanup (h : LeaseInv s) {j : κ} {r : Recovery}
    (hr : (s.sessions j).recovery = some r) :
    LeaseInv (s.setSession j
      { (s.sessions j).setRecovery { r with pc := .giveBack } with recoveryConn := none }) := by
  have hok := h.sessions j
  have hrec := hok.recovery r hr
  have hopened := h.opened_of_recovery hr
  refine h.setSession ?_ ?_ ?_
  · exact
      { hok with
        unopened := fun ho => absurd (hopened.symm.trans ho) (by simp)
        recoveryConn_ne := by simp
        new_ne := by
          rintro - _ ⟨⟩
          exact ⟨by simp, by simp⟩
        leader := fun _ => hok.leader (by rw [hr]; rfl)
        current_lt := by
          rintro _ c ⟨⟩ hc
          exact hok.current_lt r c hr hc
        recovery := by
          rintro _ ⟨⟩
          exact
            { current_held := hrec.current_held
              new_current := by simp
              failing_held := by simp
              dialing_gone := by simp
              conn_gone := hrec.conn_gone } }
  · rintro c (hc | hc | hc | ⟨_, ⟨⟩, hc⟩)
    · exact h.refs (.session j) c (.inl hc)
    · cases hc
    · exact h.refs (.session j) c (.inr (.inr (.inl hc)))
    · rcases hc with hc | hc <;> cases hc
  · intro c hc hlc
    rcases h.holds (.session j) c hc hlc with hconn | ⟨r₀, hr₀, hc₀⟩
    · exact .inl hconn
    · cases hr.symm.trans hr₀
      exact .inr ⟨_, rfl, hc₀⟩

omit [DecidableEq ι] in
/-- One event of a recovery keeps the leases. -/
theorem LeaseInv.recoveryStep (h : LeaseInv s) {j : κ} {r : Recovery}
    (hr : (s.sessions j).recovery = some r) (e : SessionEvent) :
    LeaseInv (s.recoveryStep cfg j r e) := by
  cases e with
  | recoverCheck deadlinePassed =>
      simp only [Adapter.recoveryStep, Adapter.recoverCheck]
      split
      · split
        · exact h.movePc hr r.attempt (.inr (.inr rfl))
        · exact h.movePc hr r.attempt (.inr (.inl rfl))
      · exact h
  | recoverDial =>
      simp only [Adapter.recoveryStep]
      split
      · exact h.recoverDial hr
      · exact h
  | recoverDialOk createdAt =>
      simp only [Adapter.recoveryStep]
      split
      · next hpc => exact h.recoverDialOk hr hpc createdAt
      · exact h
  | recoverDialFailed exc =>
      simp only [Adapter.recoveryStep]
      split
      · next hpc => exact h.recoverDialFailed hr hpc exc
      · exact h
  | recoverAdopt =>
      simp only [Adapter.recoveryStep]
      split
      · next hpc => exact h.recoverAdopt hr hpc
      · exact h
  | resumeOk =>
      simp only [Adapter.recoveryStep]
      split
      · next hpc => exact h.resumeOk hr hpc
      · exact h
  | resumeFailed err =>
      simp only [Adapter.recoveryStep, Adapter.resumeFailed]
      split
      · cases err with
        | lost => exact h.movePc hr (r.attempt + 1) (.inl rfl)
        | definitive => exact h.movePc hr r.attempt (.inr (.inr rfl))
      · exact h
  | recoverCleanup =>
      simp only [Adapter.recoveryStep]
      split
      · exact h.recoverCleanup hr
      · exact h
  | recoverGiveBack =>
      simp only [Adapter.recoveryStep]
      split
      · exact h.recoverGiveBack hr
      · exact h
  | recoverEnd =>
      simp only [Adapter.recoveryStep]
      split
      · next hpc =>
        have hgone := ((h.sessions j).recovery r hr).dialing_gone (.inr hpc)
        exact h.endRecovery hr hgone (.inr (.inl rfl))
      · exact h
  | send | ack | progress | frame | terminal | recoverBegin | resumeWrite | failTerminal | hardStop
  | closeBegin | closeDiscard => exact h

omit [DecidableEq ι] in
/-- An event of a recovery does nothing without a recovery. -/
theorem recoveryEvent (cfg : AdapterConfig) (P : Adapter ι κ → Prop) (j : κ) {e : SessionEvent}
    (hnone : P s)
    (hsome : ∀ r, (s.sessions j).recovery = some r → P (s.recoveryStep cfg j r e)) :
    P (match (s.sessions j).recovery with
      | none => s
      | some r => s.recoveryStep cfg j r e) := by
  split
  · exact hnone
  · next r hr => exact hsome r hr

omit [DecidableEq ι] in
/-- One event of a session keeps the leases. -/
theorem LeaseInv.sessionStep (h : LeaseInv s)
    (hqueue : ConnectionPool.QueueOk cfg s.nextToken s.pool) (j : κ) (e : SessionEvent) :
    LeaseInv (s.sessionStep cfg j e) := by
  have hrecovery := recoveryEvent cfg LeaseInv j h fun r hr => h.recoveryStep hr e
  cases e with
  | send | ack | progress | resumeWrite => exact h
  | frame supported =>
      simp only [Adapter.sessionStep]
      split
      · next hopen =>
        simp only [Bool.and_eq_true] at hopen
        exact h.setFlags hopen.1.1 rfl
      · exact h
  | terminal reusable settimeoutOk now =>
      simp only [Adapter.sessionStep]
      split
      · next hopened => exact h.finishTransport hqueue hopened reusable settimeoutOk now
      · exact h
  | recoverBegin => exact h.recoverBegin j
  | failTerminal => exact h.failTerminal hqueue j
  | hardStop =>
      simp only [Adapter.sessionStep]
      split
      · next hopened => exact h.finishTransport hqueue hopened false true 0
      · exact h
  | closeBegin =>
      simp only [Adapter.sessionStep]
      split
      · next hopen =>
        simp only [Bool.and_eq_true] at hopen
        exact h.closeBegin hopen.1
      · exact h
  | closeDiscard =>
      simp only [Adapter.sessionStep]
      split
      · exact h
      · next c rest hclosing => exact h.closeDiscard hclosing
  | recoverCheck | recoverDial | recoverDialOk | recoverDialFailed | recoverAdopt | resumeOk
  | resumeFailed | recoverCleanup | recoverGiveBack | recoverEnd => exact hrecovery

/-! ## Every event -/

/-- A new session fits together. -/
theorem TransportOk.start {tracked : Finset Conn} {next : Conn} {c : Conn} (hc : c < next)
    (activeStreamResume : Bool) : TransportOk tracked next (.start c activeStreamResume) where
  unopened ho := by simp [StreamTransport.start] at ho
  recoveryConn_ne _ := by simp [StreamTransport.start, StreamTransport.unopened]
  closing_ne _ := by simp [StreamTransport.start, StreamTransport.unopened]
  new_ne _ r hr := by simp [StreamTransport.start, StreamTransport.unopened] at hr
  closing_hard hne := by simp [StreamTransport.start, StreamTransport.unopened] at hne
  leader hr := by simp [StreamTransport.start, StreamTransport.unopened] at hr
  conn_lt _ := hc
  current_lt r c hr := by simp [StreamTransport.start, StreamTransport.unopened] at hr
  recovery r hr := by simp [StreamTransport.start, StreamTransport.unopened] at hr

/-- The lease goes from the caller to the new session. -/
theorem LeaseInv.openStream (h : LeaseInv s) (i : ι) (j : κ) : LeaseInv (s.openStream cfg i j) := by
  unfold Adapter.openStream
  split
  · next c hphase hunopened =>
    have hmine : s.lessee c = some (.caller i) := h.refs (.caller i) c hphase
    have hlt : c < s.nextConn := h.custody.known_leased c (by
      have hc : s.custody.lessee c = some (.caller i) := hmine
      rw [hc]
      rfl)
    have hnone : s.sessions j = .unopened := (h.sessions j).unopened hunopened
    -- neither of the two has another connection
    have hcaller : ∀ x, s.callers i = .leased x → x = c := by
      intro x hx
      rw [hphase] at hx
      cases hx
      rfl
    have hsession : ∀ x, ¬ (s.sessions j).Holds x := by
      intro x hx
      rw [hnone] at hx
      simp [StreamTransport.Holds, StreamTransport.unopened] at hx
    have hstart : ∀ x, (StreamTransport.start c cfg.activeStreamResume).Refs x → x = c := by
      rintro x (⟨-, -, hx⟩ | hx | hx | ⟨r, hr, -⟩)
      · exact hx.symm
      · cases hx
      · cases hx
      · cases hr
    constructor
    case custody => exact h.custody.transfer hmine _
    case refs =>
      intro o x hx
      by_cases hxc : x = c
      · subst hxc
        cases o with
        | caller k =>
            by_cases hk : k = i
            · simp [Refs, Adapter.lease, Adapter.setSession, Adapter.setCaller, hk] at hx
            · have hx : s.callers k = .leased x := by
                simpa [Refs, Adapter.lease, Adapter.setSession, Adapter.setCaller,
                  Function.update_of_ne hk] using hx
              have hother := h.refs (.caller k) x hx
              rw [hmine] at hother
              cases hother
              exact absurd rfl hk
        | session k =>
            by_cases hk : k = j
            · simp [Adapter.lease, hk]
            · have hx : (s.sessions k).Refs x := by
                simpa [Refs, Adapter.lease, Adapter.setSession, Adapter.setCaller,
                  Function.update_of_ne hk] using hx
              have hother := h.refs (.session k) x hx
              rw [hmine] at hother
              cases hother
      · have hsame : (((s.setCaller i .idle).setSession j (.start c cfg.activeStreamResume)).lease c
            (.session j)).lessee x = s.lessee x := Function.update_of_ne hxc _ _
        rw [hsame]
        cases o with
        | caller k =>
            by_cases hk : k = i
            · simp [Refs, Adapter.lease, Adapter.setSession, Adapter.setCaller, hk] at hx
            · refine h.refs (.caller k) x ?_
              simpa [Refs, Adapter.lease, Adapter.setSession, Adapter.setCaller,
                Function.update_of_ne hk] using hx
        | session k =>
            by_cases hk : k = j
            · have hx : (StreamTransport.start c cfg.activeStreamResume).Refs x := by
                simpa [Refs, Adapter.lease, Adapter.setSession, Adapter.setCaller, hk] using hx
              exact absurd (hstart x hx) hxc
            · refine h.refs (.session k) x ?_
              simpa [Refs, Adapter.lease, Adapter.setSession, Adapter.setCaller,
                Function.update_of_ne hk] using hx
    case holds =>
      intro o x hx hlx
      by_cases hxc : x = c
      · subst hxc
        have ho : o = .session j := by
          simpa [Adapter.lease, eq_comm] using hlx
        subst ho
        have hheld : (StreamTransport.start x cfg.activeStreamResume).Holds x := .inl ⟨rfl, rfl, rfl⟩
        simpa [Holds, Adapter.lease, Adapter.setSession, Adapter.setCaller] using hheld
      · have hlx : s.lessee x = some o := by
          simpa [Adapter.lease, Adapter.setSession, Adapter.setCaller,
            Function.update_of_ne hxc] using hlx
        have hheld := h.holds o x hx hlx
        cases o with
        | caller k =>
            by_cases hk : k = i
            · subst hk
              exact absurd (hcaller x hheld) hxc
            · simpa [Holds, Adapter.lease, Adapter.setSession, Adapter.setCaller,
                Function.update_of_ne hk] using hheld
        | session k =>
            by_cases hk : k = j
            · subst hk
              exact absurd hheld (hsession x)
            · simpa [Holds, Adapter.lease, Adapter.setSession, Adapter.setCaller,
                Function.update_of_ne hk] using hheld
    case sessions =>
      intro k
      by_cases hk : k = j
      · subst hk
        simpa [Adapter.lease, Adapter.setSession, Adapter.setCaller] using
          TransportOk.start hlt cfg.activeStreamResume
      · simpa [Adapter.lease, Adapter.setSession, Adapter.setCaller,
          Function.update_of_ne hk] using h.sessions k
  · exact h

/-- Every event keeps the leases. -/
theorem LeaseInv.step (h : LeaseInv s) (hqueue : QueueInv cfg s) (e : AdapterEvent ι κ) :
    LeaseInv (step cfg s e) := by
  cases e with
  | caller i e => exact h.callerStep hqueue i e
  | session j e => exact h.sessionStep hqueue.queue j e
  | openStream i j => exact h.openStream i j
  | expire now => exact h.expire now
  | close => exact h.close

end

end Adapter

end StreamingTts.Client
