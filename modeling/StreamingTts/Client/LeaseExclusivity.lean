import StreamingTts.Client.Leases

/-!
# A session touches a connection only under its lease

The one reference to a connection that `LeaseInv` leaves out is the connection that a recovery is about
to replace. It is leased to the session of the recovery as long as the pool does not take the
connection back under the recovery's feet, which `_finish_transport_locked` can do: the reader of the
session may get the terminal event on the connection that the recovery has given up. `ReleaseClean`
excludes that step.
-/

namespace StreamingTts.Client

namespace ConnectionPool

/-- Whether `_release_connection` gives a connection to the next caller, or keeps it as an idle one. -/
def takesBack (cfg : AdapterConfig) (p : ConnectionPool) (c : Conn) (now : Int) : Bool :=
  !p.releaseCloses cfg c now
    && (p.acquireWaiters.head?.any (fun w => w ∉ p.newConnectionWaiters)
      || p.idleConnections.length < cfg.maxIdleConnections)

/-- A connection that the pool does not take back is no longer tracked. -/
theorem not_mem_release {cfg : AdapterConfig} {p : ConnectionPool} {c : Conn} {now : Int}
    (hno : p.takesBack cfg c now = false) (idleSince : Option Int) :
    c ∉ (p.releaseConnection cfg c idleSince now).connections := by
  have hidle (q : ConnectionPool) (hlen : cfg.maxIdleConnections ≤ q.idleConnections.length) :
      c ∉ (q.releaseIdle cfg c idleSince now).connections := by
    unfold ConnectionPool.releaseIdle
    rw [if_pos hlen]
    exact Finset.notMem_erase c _
  unfold ConnectionPool.releaseConnection
  split
  · exact Finset.notMem_erase c _
  · next hkeep =>
    simp only [takesBack, Bool.not_eq_true _ ▸ hkeep, Bool.not_false, Bool.true_and,
      Bool.or_eq_false_iff, decide_eq_false_iff_not, not_lt] at hno
    obtain ⟨hhead, hlen⟩ := hno
    unfold ConnectionPool.releaseLive
    split
    · exact hidle _ hlen
    · next w rest hwaiters =>
      split
      · exact hidle _ hlen
      · next hw =>
        have hwaiters : p.acquireWaiters = w :: rest := hwaiters
        have hw : w ∉ p.newConnectionWaiters := hw
        simp [hwaiters, hw] at hhead

end ConnectionPool

namespace Adapter

section
variable {ι κ : Type} [DecidableEq ι] [DecidableEq κ] {cfg : AdapterConfig} {s s' : Adapter ι κ}

/-- The connections that a caller or a session uses, the one that a recovery is about to replace
included. -/
def Uses (s : Adapter ι κ) : Owner ι κ → Conn → Prop
  | .caller i, c => s.callers i = .leased c
  | .session j, c =>
      (s.sessions j).Refs c ∨ ∃ r, (s.sessions j).recovery = some r ∧ r.current = some c

/-- What a recovery is about to replace is leased to its session. -/
def CurrentInv (s : Adapter ι κ) : Prop :=
  ∀ j r c, (s.sessions j).recovery = some r → r.current = some c → s.lessee c = some (.session j)

/-- The reader does not give a connection back to a pool that takes it while a recovery of the same
session is about to replace it. -/
def ReleaseClean (cfg : AdapterConfig) (s : Adapter ι κ) : AdapterEvent ι κ → Prop
  | .session j (.terminal true true now) =>
      (s.sessions j).transportFinished = false → ∀ r, (s.sessions j).recovery = some r →
        r.current = some (s.sessions j).conn →
        s.pool.takesBack cfg (s.sessions j).conn now = false
  | _ => True

/-! ## Callers -/

omit [DecidableEq ι] [DecidableEq κ] in
/-- The recoveries are as they were, and the leases of sessions go on. -/
theorem CurrentInv.keep (h : CurrentInv s) (hsessions : s'.sessions = s.sessions)
    (hlessee : ∀ c k, s.lessee c = some (.session k) → s'.lessee c = some (.session k)) :
    CurrentInv s' := by
  intro j r c hr hc
  rw [hsessions] at hr
  exact hlessee c j (h j r c hr hc)

omit [DecidableEq ι] [DecidableEq κ] in
/-- A lease that is given to somebody who had none leaves those of the sessions alone. -/
theorem lessee_update {c : Conn} {v : Option (Owner ι κ)} (hfree : ∀ k, s.lessee c ≠ some (.session k))
    (x : Conn) (k : κ) (hx : s.lessee x = some (.session k)) :
    Function.update s.lessee c v x = some (.session k) := by
  have hne : x ≠ c := by
    rintro rfl
    exact hfree k hx
  rw [Function.update_of_ne hne]
  exact hx

omit [DecidableEq κ] in
theorem CurrentInv.callerStep (h : CurrentInv s) (hlease : LeaseInv s) (hqueue : QueueInv cfg s) (i : ι)
    (e : CallerEvent) : CurrentInv (s.callerStep cfg i e) := by
  cases e with
  | checkout | reserve target =>
      simp only [Adapter.callerStep]
      split <;> exact h
  | turn expired =>
      simp only [Adapter.callerStep, Adapter.turn]
      split
      · next waiter hphase =>
        split
        · have hmove := @ConnectionPool.checkoutTurn_move cfg s.pool waiter expired s.nextToken
            hqueue.queue hlease.custody.idle_tracked
          generalize s.pool.checkoutTurn cfg waiter s.nextToken expired = r at hmove
          obtain ⟨q, outcome⟩ := r
          have hmove : ConnectionPool.CheckoutMove s.pool q waiter outcome := hmove
          cases hmove with
          | @handed w c hwaiter hc =>
              have hnone : s.lessee c = none := hlease.custody.handed_unleased w c hc
              exact h.keep rfl (lessee_update (by simp [hnone]))
          | @idle c init hp =>
              have hnone : s.lessee c = none := hlease.custody.idle_unleased c (by simp [custody, hp])
              exact h.keep rfl (lessee_update (by simp [hnone]))
          | none hsame hno =>
              cases outcome with
              | leased c => exact absurd rfl (hno c)
              | closed | reserved | saturated | timedOut | waits => exact h
        · exact h
      · split
        · generalize (s.pool.reserveTurn cfg _ _ s.nextToken expired) = r
          obtain ⟨q, outcome⟩ := r
          cases outcome <;> exact h
        · exact h
      · exact h
  | timeout =>
      simp only [Adapter.callerStep, Adapter.timeout]
      split <;> exact h
  | dialOk createdAt =>
      simp only [Adapter.callerStep]
      split
      · unfold Adapter.callerDialOk ConnectionPool.newConnectionOk
        cases s.pool.closed with
        | true => exact h
        | false => exact h.keep rfl (lessee_update (by simp [hlease.fresh]))
      · exact h
  | dialFailed exc =>
      simp only [Adapter.callerStep]
      split <;> exact h
  | keepalive c =>
      simp only [Adapter.callerStep]
      split
      · next p hphase hp =>
        unfold ConnectionPool.keepaliveTake at hp
        split at hp
        · cases hp
        · split at hp
          · cases hp
          · next hidle =>
            cases hp
            have hmem : c ∈ s.pool.idleConnections := not_not.1 fun hc => hidle (.inr hc)
            have hnone : s.lessee c = none := hlease.custody.idle_unleased c hmem
            exact h.keep rfl (lessee_update (by simp [hnone]))
      · exact h
  | release settimeoutOk idleSince now =>
      simp only [Adapter.callerStep]
      split
      · next c hphase =>
        have hmine : s.lessee c = some (.caller i) := hlease.refs (.caller i) c hphase
        unfold Adapter.releaseConnection
        simp only
        split
        · split
          · exact h.keep rfl (lessee_update (by simp [hmine]))
          · exact h
        · exact h
      · exact h
  | discard =>
      simp only [Adapter.callerStep]
      split <;> exact h

/-! ## Sessions -/

omit [DecidableEq ι] in
/-- Only the session `j` moves, and what its recovery is about to replace is leased to it. -/
theorem CurrentInv.session (h : CurrentInv s) {j : κ} {t : StreamTransport}
    (hsessions : s'.sessions = Function.update s.sessions j t)
    (hlessee : ∀ c k, k ≠ j → s.lessee c = some (.session k) → s'.lessee c = some (.session k))
    (hown : ∀ r c, t.recovery = some r → r.current = some c → s'.lessee c = some (.session j)) :
    CurrentInv s' := by
  intro k r c hr hc
  by_cases hk : k = j
  · subst hk
    rw [hsessions, Function.update_self] at hr
    exact hown r c hr hc
  · rw [hsessions, Function.update_of_ne hk] at hr
    exact hlessee c k hk (h k r c hr hc)

omit [DecidableEq ι] in
/-- The session `j` moves without a change of the leases. -/
theorem CurrentInv.setSession (h : CurrentInv s) {j : κ} {t : StreamTransport}
    (hsessions : s'.sessions = Function.update s.sessions j t) (hlessee : s'.lessee = s.lessee)
    (hown : ∀ r c, t.recovery = some r → r.current = some c → s.lessee c = some (.session j)) :
    CurrentInv s' := by
  refine h.session hsessions (fun c k _ hc => ?_) (fun r c hr hc => ?_)
  · rw [hlessee]
    exact hc
  · rw [hlessee]
    exact hown r c hr hc

omit [DecidableEq ι] in
theorem CurrentInv.finishTransport (h : CurrentInv s) (hlease : LeaseInv s) {j : κ}
    (hopened : (s.sessions j).opened = true) {reusable settimeoutOk : Bool} {now : Int}
    (hclean : ReleaseClean cfg s (.session j (.terminal reusable settimeoutOk now))) :
    CurrentInv (s.finishTransport cfg j reusable settimeoutOk now) := by
  unfold Adapter.finishTransport
  simp only
  split
  · exact h
  · next hf =>
    have hf : (s.sessions j).transportFinished = false := Bool.eq_false_iff.2 hf
    have hkeep {p : ConnectionPool} : CurrentInv
        ((s.setSession j (s.sessions j).finish).setPool p) :=
      h.setSession rfl rfl fun r c hr hc => h j r c hr hc
    split
    · next hreusable =>
      unfold Adapter.releaseConnection
      simp only
      split
      · next hok =>
        split
        · next hmem =>
          have hmine : s.lessee (s.sessions j).conn = some (.session j) :=
            hlease.refs (.session j) _ (.inl ⟨hopened, hf, rfl⟩)
          refine h.session (j := j) rfl (fun c k hk hc => ?_) (fun r c hr hc => ?_)
          · refine (Function.update_of_ne ?_ _ _).trans hc
            rintro rfl
            rw [hmine] at hc
            cases hc
            exact hk rfl
          · -- the pool took the connection back, so that no recovery is about to replace it
            have hne : c ≠ (s.sessions j).conn := by
              rintro rfl
              subst hreusable hok
              exact ConnectionPool.not_mem_release (hclean hf r hr hc) none hmem
            exact (Function.update_of_ne hne _ _).trans (h j r c hr hc)
        · exact hkeep
      · exact hkeep
    · exact hkeep

omit [DecidableEq ι] in
theorem CurrentInv.recoveryStep (h : CurrentInv s) (hlease : LeaseInv s) {j : κ} {r : Recovery}
    (hr : (s.sessions j).recovery = some r) (e : SessionEvent) :
    CurrentInv (s.recoveryStep cfg j r e) := by
  -- the recovery goes on with the connection it had, or without one
  have hkeep {s' : Adapter ι κ} {t : StreamTransport}
      (hsessions : s'.sessions = Function.update s.sessions j t) (hlessee : s'.lessee = s.lessee)
      (ht : ∀ r' c, t.recovery = some r' → r'.current = some c → r.current = some c) :
      CurrentInv s' :=
    h.setSession hsessions hlessee fun r' c hr' hc => h j r c hr (ht r' c hr' hc)
  cases e with
  | recoverCheck deadlinePassed =>
      simp only [Adapter.recoveryStep, Adapter.recoverCheck]
      split
      · split <;> exact hkeep rfl rfl (by rintro _ c ⟨⟩ hc; exact hc)
      · exact h
  | recoverDial =>
      simp only [Adapter.recoveryStep, Adapter.recoverDial]
      repeat' split
      all_goals first
        | exact h
        | exact hkeep rfl rfl (by rintro _ c ⟨⟩ hc; exact hc)
  | recoverDialOk createdAt =>
      simp only [Adapter.recoveryStep]
      split
      · unfold Adapter.recoverDialOk ConnectionPool.newConnectionOk
        cases s.pool.closed with
        | true => exact hkeep rfl rfl (by rintro _ c ⟨⟩ hc; exact hc)
        | false =>
            have hnew : ∀ k, s.lessee s.nextConn ≠ some (.session k) := by simp [hlease.fresh]
            refine h.session (j := j) rfl (fun c k _ hc => lessee_update hnew c k hc) ?_
            rintro _ c ⟨⟩ hc
            cases hc
            exact Function.update_self _ _ _
      · exact h
  | recoverDialFailed exc =>
      simp only [Adapter.recoveryStep]
      split
      · unfold Adapter.recoverDialFailed
        cases exc with
        | dialFailure => exact hkeep rfl rfl (by rintro _ c ⟨⟩ hc; cases hc)
        | other => exact hkeep rfl rfl (by rintro _ c ⟨⟩ hc; exact hc)
        | interrupt => exact hkeep rfl rfl (by rintro _ c ⟨⟩)
      · exact h
  | recoverAdopt =>
      simp only [Adapter.recoveryStep]
      split
      · simp only [Adapter.recoverAdopt]
        split
        · exact hkeep rfl rfl (by rintro _ c ⟨⟩)
        · exact hkeep rfl rfl (by rintro _ c ⟨⟩ hc; exact hc)
      · exact h
  | resumeOk =>
      simp only [Adapter.recoveryStep]
      split
      · simp only [Adapter.resumeOk]
        split <;> exact hkeep rfl rfl (by rintro _ c ⟨⟩)
      · exact h
  | resumeFailed err =>
      simp only [Adapter.recoveryStep]
      split
      · cases err <;> exact hkeep rfl rfl (by rintro _ c ⟨⟩ hc; exact hc)
      · exact h
  | recoverCleanup =>
      simp only [Adapter.recoveryStep]
      split
      · exact hkeep rfl rfl (by rintro _ c ⟨⟩ hc; exact hc)
      · exact h
  | recoverGiveBack =>
      simp only [Adapter.recoveryStep, Adapter.recoverGiveBack]
      repeat' split
      all_goals first
        | exact h
        | exact hkeep rfl rfl (by rintro _ c ⟨⟩ hc; exact hc)
  | recoverEnd =>
      simp only [Adapter.recoveryStep]
      split
      · exact hkeep rfl rfl (by rintro _ c ⟨⟩)
      · exact h
  | send | ack | progress | frame | terminal | recoverBegin | resumeWrite | failTerminal | hardStop
  | closeBegin | closeDiscard => exact h

omit [DecidableEq ι] in
theorem CurrentInv.sessionStep (h : CurrentInv s) (hlease : LeaseInv s) (j : κ) {e : SessionEvent}
    (hclean : ReleaseClean cfg s (.session j e)) : CurrentInv (s.sessionStep cfg j e) := by
  have hrecovery := recoveryEvent cfg CurrentInv j h fun r hr => h.recoveryStep hlease hr e
  -- flags that no recovery depends on
  have hflags {t : StreamTransport} (ht : t.recovery = (s.sessions j).recovery) :
      CurrentInv (s.setSession j t) := by
    refine h.setSession rfl rfl fun r c hr hc => h j r c ?_ hc
    rw [← ht]
    exact hr
  cases e with
  | send | ack | progress | resumeWrite => exact h
  | frame supported =>
      simp only [Adapter.sessionStep]
      split
      · exact hflags rfl
      · exact h
  | terminal reusable settimeoutOk now =>
      simp only [Adapter.sessionStep]
      split
      · next hopened => exact h.finishTransport hlease hopened hclean
      · exact h
  | recoverBegin =>
      simp only [Adapter.sessionStep, Adapter.recoverBegin]
      split
      · exact h
      · next hopen =>
        simp only [not_or, Bool.not_eq_true, Bool.not_eq_false, StreamTransport.stopped,
          Bool.or_eq_false_iff] at hopen
        split
        · exact hflags rfl
        · split
          · exact h
          · refine h.setSession rfl rfl ?_
            rintro _ c ⟨⟩ hc
            exact hlease.refs (.session j) c (.inl ⟨hopen.1, hopen.2.2, Option.some.inj hc⟩)
  | failTerminal =>
      simp only [Adapter.sessionStep, Adapter.failTerminal]
      split
      · exact h
      · next hopen =>
        simp only [not_or, Bool.not_eq_false] at hopen
        have hset : LeaseInv (s.setSession j { s.sessions j with
            terminalFailurePublished := true, recoveryError := true }) := hlease.setFlags hopen.1 rfl
        have hcurrent : CurrentInv (s.setSession j { s.sessions j with
            terminalFailurePublished := true, recoveryError := true }) := hflags rfl
        refine hcurrent.finishTransport hset ?_ trivial
        simpa [Adapter.setSession] using hopen.1
  | hardStop =>
      simp only [Adapter.sessionStep]
      split
      · next hopened => exact h.finishTransport hlease hopened trivial
      · exact h
  | closeBegin =>
      simp only [Adapter.sessionStep]
      split
      · exact hflags rfl
      · exact h
  | closeDiscard =>
      simp only [Adapter.sessionStep]
      split
      · exact h
      · exact h.setSession rfl rfl fun r c hr hc => h j r c hr hc
  | recoverCheck | recoverDial | recoverDialOk | recoverDialFailed | recoverAdopt | resumeOk
  | resumeFailed | recoverCleanup | recoverGiveBack | recoverEnd => exact hrecovery

/-! ## Every run -/

theorem CurrentInv.step (h : CurrentInv s) (hlease : LeaseInv s) (hqueue : QueueInv cfg s)
    {e : AdapterEvent ι κ} (hclean : ReleaseClean cfg s e) : CurrentInv (step cfg s e) := by
  cases e with
  | caller i e => exact h.callerStep hlease hqueue i e
  | session j e => exact h.sessionStep hlease j hclean
  | openStream i j =>
      simp only [Adapter.step, Adapter.openStream]
      split
      · next c hphase hunopened =>
        have hmine : s.lessee c = some (.caller i) := hlease.refs (.caller i) c hphase
        have hfree : ∀ k, s.lessee c ≠ some (.session k) := by simp [hmine]
        refine h.session (j := j) rfl (fun x k _ hx => lessee_update hfree x k hx) ?_
        rintro r x hr
        cases hr
      · exact h
  | expire now => exact h
  | close => exact h

omit [DecidableEq ι] [DecidableEq κ] in
/-- Whoever uses a connection has its lease. -/
theorem CurrentInv.uses (h : CurrentInv s) (hlease : LeaseInv s) {o : Owner ι κ} {c : Conn}
    (hc : s.Uses o c) : s.lessee c = some o := by
  cases o with
  | caller i => exact hlease.refs (.caller i) c hc
  | session j =>
      rcases hc with hc | ⟨r, hr, hc⟩
      · exact hlease.refs (.session j) c hc
      · exact h j r c hr hc

omit [DecidableEq ι] [DecidableEq κ] in
/-- A session touches only connections that it uses. -/
theorem uses_of_touches {j : κ} {e : SessionEvent} {c : Conn} (hc : c ∈ s.touches j e) :
    s.Uses (.session j) c := by
  -- an event on the connection of a session that has not finished
  have hlive {b : Bool} (hb : b = true → (s.sessions j).opened = true
        ∧ (s.sessions j).transportFinished = false)
      (hc : c ∈ if b then [(s.sessions j).conn] else []) : s.Uses (.session j) c := by
    split at hc
    · next hcond =>
      obtain ⟨hopened, hf⟩ := hb hcond
      exact .inl (.inl ⟨hopened, hf, (List.mem_singleton.1 hc).symm⟩)
    · cases hc
  cases e with
  | send =>
      refine hlive (fun hb => ?_) hc
      simp only [StreamTransport.sendable, StreamTransport.stopped, Bool.and_eq_true, Bool.not_eq_true',
        Bool.or_eq_false_iff] at hb
      exact ⟨hb.1.1.1, hb.2.2⟩
  | progress =>
      refine hlive (fun hb => ?_) hc
      simp only [StreamTransport.stopped, Bool.and_eq_true, Bool.not_eq_true',
        Bool.or_eq_false_iff] at hb
      exact ⟨hb.1, hb.2.2⟩
  | ack | terminal reusable settimeoutOk now | hardStop =>
      refine hlive (fun hb => ?_) hc
      simpa only [Bool.and_eq_true, Bool.not_eq_true'] using hb
  | failTerminal =>
      refine hlive (fun hb => ?_) hc
      simp only [Bool.and_eq_true, Bool.not_eq_true'] at hb
      exact ⟨hb.1.1, hb.2⟩
  | closeDiscard =>
      have hmem : c ∈ (s.sessions j).closing := by
        simp only [touches, Option.mem_toList] at hc
        exact List.mem_of_head? hc
      exact .inl (.inr (.inr (.inl hmem)))
  | recoverDial =>
      simp only [touches] at hc
      split at hc
      · next r hr =>
        split at hc
        · simp only [Option.mem_toList, Option.filter_eq_some_iff] at hc
          exact .inr ⟨r, hr, hc.1⟩
        · cases hc
      · cases hc
  | recoverAdopt =>
      simp only [touches] at hc
      split at hc
      · next newConn hr =>
        split at hc
        · cases List.mem_singleton.1 hc
          exact .inl (.inr (.inr (.inr ⟨_, hr, .inl rfl⟩)))
        · cases hc
      · cases hc
  | resumeWrite =>
      simp only [touches] at hc
      split at hc
      · next newConn hr =>
        cases List.mem_singleton.1 hc
        exact .inl (.inr (.inr (.inr ⟨_, hr, .inr rfl⟩)))
      · cases hc
  | resumeOk =>
      simp only [touches] at hc
      split at hc
      · next newConn hr =>
        split at hc
        · cases List.mem_singleton.1 hc
          exact .inl (.inr (.inr (.inr ⟨_, hr, .inr rfl⟩)))
        · cases hc
      · cases hc
  | recoverGiveBack =>
      simp only [touches] at hc
      split at hc
      · next r hr =>
        split at hc
        · exact .inr ⟨r, hr, Option.mem_toList.1 hc⟩
        · cases hc
      · cases hc
  | frame | recoverBegin | recoverCheck | recoverDialOk | recoverDialFailed | resumeFailed
  | recoverCleanup | recoverEnd | closeBegin => cases hc

/-- In every run in which no reader gives a connection back to the pool that a recovery of its session
is about to replace: no connection is used by two owners, one that is used is neither idle nor handed
to a waiter, and every connection that a session writes to, replaces, discards or closes is leased to
that session. -/
theorem lease_exclusive (evs : List (AdapterEvent ι κ))
    (hclean : Lib.Along (step cfg) (ReleaseClean cfg) new evs) :
    let s := Lib.run (step cfg) (new : Adapter ι κ) evs
    (∀ o o' c, s.Uses o c → s.Uses o' c → o = o')
      ∧ (∀ o c, s.Uses o c → c ∉ s.pool.idleConnections ∧ ∀ w, s.pool.waiterHandoffs w ≠ some c)
      ∧ ∀ j e, ∀ c ∈ s.touches j e, s.Uses (.session j) c ∧ s.lessee c = some (.session j) := by
  intro s
  have hstep : ∀ (s : Adapter ι κ) e, ((QueueInv cfg s ∧ LeaseInv s) ∧ CurrentInv s) →
      ReleaseClean cfg s e →
      ((QueueInv cfg (step cfg s e) ∧ LeaseInv (step cfg s e)) ∧ CurrentInv (step cfg s e)) := by
    rintro s e ⟨⟨hqueue, hlease⟩, hcurrent⟩ hclean
    exact ⟨⟨hqueue.step e, hlease.step hqueue e⟩, hcurrent.step hlease hqueue hclean⟩
  have hnew : CurrentInv (new : Adapter ι κ) := by
    intro j r c hr
    cases hr
  obtain ⟨⟨-, hlease⟩, hcurrent⟩ := Lib.run_induct ⟨⟨.new, .new⟩, hnew⟩ hstep hclean
  have huses : ∀ o c, s.Uses o c → s.lessee c = some o := fun o c hc => hcurrent.uses hlease hc
  refine ⟨fun o o' c ho ho' => ?_, fun o c hc => ?_, fun j e c hc => ?_⟩
  · exact Option.some.inj ((huses o c ho).symm.trans (huses o' c ho'))
  · exact hlease.custody.leased_elsewhere (huses o c hc)
  · exact ⟨uses_of_touches hc, huses _ c (uses_of_touches hc)⟩

end

/-- A session is opened, a send of it fails, and the recovery sees that the session has not ended. -/
def recoveryAtDial : List (AdapterEvent Nat Nat) :=
  [.caller 0 .checkout, .caller 0 (.turn false), .caller 0 (.dialOk 0), .openStream 0 0,
    .session 0 .recoverBegin, .session 0 (.recoverCheck false)]

/-- The recovery replaces a connection that is leased to its session. -/
theorem lease_exclusive_replace :
    let s := Lib.run (step exampleConfig) new recoveryAtDial
    0 ∈ s.touches 0 .recoverDial ∧ s.lessee 0 = some (.session 0) := by
  have hclean : Lib.Along (step exampleConfig) (ReleaseClean exampleConfig) new recoveryAtDial :=
    ⟨trivial, trivial, trivial, trivial, trivial, trivial, trivial⟩
  have hmem : 0 ∈ (Lib.run (step exampleConfig) new recoveryAtDial).touches 0 .recoverDial := by
    decide +kernel
  exact ⟨hmem, ((lease_exclusive recoveryAtDial hclean).2.2 0 .recoverDial 0 hmem).2⟩

/-- The reader of the session gets the terminal event before the recovery dials, and another session is
opened on the connection that it gives back: the recovery takes the connection away from that session. -/
theorem lease_taken :
    let s := Lib.run (step exampleConfig) (new : Adapter Nat Nat)
      (recoveryAtDial ++ [.session 0 (.terminal true true 0), .caller 1 .checkout,
        .caller 1 (.turn false), .openStream 1 1])
    0 ∈ s.touches 0 .recoverDial ∧ s.lessee 0 = some (.session 1)
      ∧ (s.sessions 1).sendable = true ∧ (s.sessions 1).conn = 0
      ∧ 0 ∈ s.pool.connections ∧ 0 ∉ (step exampleConfig s (.session 0 .recoverDial)).pool.connections := by
  decide +kernel

end Adapter

end StreamingTts.Client
