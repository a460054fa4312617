import StreamingTts.Client.Streams
import StreamingTts.Lib.Transition

/-!
# The queue of blocked callers

`PoolStep` says once what a critical section can do to the pool: every event of an adapter's threads is
one of these steps (`Adapter.step_poolStep`). `QueueOk` is what all of them keep. The caller at the head
of `_acquire_waiters` is either awake or cannot be served: every change that could serve it ends in
`notify_all`. And the callers are served from the head only, so that the served and the waiting tokens
together are in the order in which they queued.
-/

namespace StreamingTts.Client

/-- The token with which a turn of `_checkout_connection` ends in `wait`. -/
def CheckoutOutcome.waiting : CheckoutOutcome → Option Token
  | waits w => some w
  | closed | leased _ | reserved | saturated | timedOut => none

/-- The token with which a turn of `_reserve_new_connection` ends in `wait`. -/
def ReserveOutcome.waiting : ReserveOutcome → Option Token
  | waits w => some w
  | closed | unneeded | reserved | saturated | timedOut => none

namespace ConnectionPool

section
variable {cfg : AdapterConfig} {p : ConnectionPool} {next : Token} {w : Token} {waiter : Option Token}

/-- The callers of the queue. -/
structure QueueOk (cfg : AdapterConfig) (next : Token) (p : ConnectionPool) : Prop where
  closed_clear : p.closed = true → p.acquireWaiters = [] ∧ ∀ w, p.waiterHandoffs w = none
  /-- a sleeping head cannot be served -/
  head : ∀ w, p.acquireWaiters.head? = some w → p.asleep w = true →
    (cfg.maxConnections : Int) ≤ p.load ∧ (w ∉ p.newConnectionWaiters → p.idleConnections = [])
  order : (p.servedLog ++ p.acquireWaiters).Sublist p.queuedLog
  queued_nodup : p.queuedLog.Nodup
  queued_lt : ∀ w ∈ p.queuedLog, w < next
  handed_served : ∀ w, p.waiterHandoffs w ≠ none → w ∈ p.servedLog
  new_queued : ∀ w ∈ p.newConnectionWaiters, w ∈ p.acquireWaiters
  asleep_queued : ∀ w, p.asleep w = true → w ∈ p.acquireWaiters

/-- The waiting callers are distinct, and none of them was served. -/
theorem QueueOk.log_nodup (h : QueueOk cfg next p) : (p.servedLog ++ p.acquireWaiters).Nodup :=
  h.order.nodup h.queued_nodup

theorem QueueOk.waiters_lt (h : QueueOk cfg next p) (hw : w ∈ p.acquireWaiters) : w < next :=
  h.queued_lt w (h.order.mem (List.mem_append_right _ hw))

/-- A waiting caller was handed nothing. -/
theorem QueueOk.waiter_unhanded (h : QueueOk cfg next p) (hw : w ∈ p.acquireWaiters) :
    p.waiterHandoffs w = none := by
  by_contra hne
  exact (List.nodup_append.1 h.log_nodup).2.2 w (h.handed_served w hne) w hw rfl

theorem QueueOk.new : QueueOk cfg 0 .new where
  closed_clear := by simp [ConnectionPool.new]
  head := by simp [ConnectionPool.new]
  order := by simp [ConnectionPool.new]
  queued_nodup := by simp [ConnectionPool.new]
  queued_lt := by simp [ConnectionPool.new]
  handed_served := by simp [ConnectionPool.new]
  new_queued := by simp [ConnectionPool.new]
  asleep_queued := by simp [ConnectionPool.new]

/-- Where the token of a blocked caller is: in the queue, or with a connection, or the adapter was
closed. -/
def Present (p : ConnectionPool) (w : Token) : Prop :=
  w ∈ p.acquireWaiters ∨ p.waiterHandoffs w ≠ none ∨ p.closed = true

/-- A step that wakes everyone and leaves the queue alone. -/
theorem QueueOk.notifyAll (h : QueueOk cfg next p) {q : ConnectionPool}
    (hclosed : q.closed = p.closed) (hwaiters : q.acquireWaiters = p.acquireWaiters)
    (hhandoffs : q.waiterHandoffs = p.waiterHandoffs) (hqueued : q.queuedLog = p.queuedLog)
    (hserved : q.servedLog = p.servedLog) (hnew : q.newConnectionWaiters = p.newConnectionWaiters) :
    QueueOk cfg next q.notifyAll where
  closed_clear := by
    intro hc
    have := h.closed_clear (hclosed ▸ hc)
    exact ⟨hwaiters.trans this.1, fun w => (congrFun hhandoffs w).trans (this.2 w)⟩
  head := by simp [ConnectionPool.notifyAll]
  order := by simpa [ConnectionPool.notifyAll, hwaiters, hqueued, hserved] using h.order
  queued_nodup := by simpa [ConnectionPool.notifyAll, hqueued] using h.queued_nodup
  queued_lt := by simpa [ConnectionPool.notifyAll, hqueued] using h.queued_lt
  handed_served := by simpa [ConnectionPool.notifyAll, hhandoffs, hserved] using h.handed_served
  new_queued := by simpa [ConnectionPool.notifyAll, hnew, hwaiters] using h.new_queued
  asleep_queued := by simp [ConnectionPool.notifyAll]

/-- A caller leaves the queue without being served. -/
theorem QueueOk.removeWaiter (h : QueueOk cfg next p) (w : Token) :
    QueueOk cfg next (p.removeWaiter w).notifyAll where
  closed_clear := by
    intro hc
    obtain ⟨hempty, hnone⟩ := h.closed_clear hc
    refine ⟨by simp [ConnectionPool.notifyAll, ConnectionPool.removeWaiter, hempty], fun x => ?_⟩
    have hupdate : Function.update p.waiterHandoffs w none = p.waiterHandoffs := by
      rw [Function.update_eq_self_iff]
      exact (hnone w).symm
    exact (congrFun hupdate x).trans (hnone x)
  head := by simp [ConnectionPool.notifyAll]
  order := (List.Sublist.append_left List.erase_sublist _).trans h.order
  queued_nodup := h.queued_nodup
  queued_lt := h.queued_lt
  handed_served := by
    intro x hx
    refine h.handed_served x fun hnone => hx ?_
    simp only [ConnectionPool.notifyAll, ConnectionPool.removeWaiter]
    by_cases hxw : x = w
    · rw [hxw, Function.update_self]
    · rw [Function.update_of_ne hxw, hnone]
  new_queued := by
    intro x hx
    obtain ⟨hne, hmem⟩ := Finset.mem_erase.1 hx
    exact (List.mem_erase_of_ne hne).2 (h.new_queued x hmem)
  asleep_queued := by simp [ConnectionPool.notifyAll]

/-- A caller whose turn it is is served. -/
theorem QueueOk.serve (h : QueueOk cfg next p) (hturn : p.isTurn waiter = true) {q : ConnectionPool}
    (hclosed : q.closed = p.closed) (hwaiters : q.acquireWaiters = p.acquireWaiters)
    (hhandoffs : q.waiterHandoffs = p.waiterHandoffs) (hqueued : q.queuedLog = p.queuedLog)
    (hserved : q.servedLog = p.servedLog) (hnew : q.newConnectionWaiters = p.newConnectionWaiters) :
    QueueOk cfg next (q.serve waiter) := by
  cases waiter with
  | none =>
      have hq := h.notifyAll hclosed hwaiters hhandoffs hqueued hserved hnew
      simpa [ConnectionPool.serve, removeWaiter?, ConnectionPool.notifyAll] using hq
  | some w =>
      obtain ⟨rest, hrest⟩ : ∃ rest, p.acquireWaiters = w :: rest :=
        List.head?_eq_some_iff.1 (by simpa [isTurn] using hturn)
      have hq := h.notifyAll hclosed hwaiters hhandoffs hqueued hserved hnew
      have hremoved := hq.removeWaiter w
      have herase : q.acquireWaiters.erase w = rest := by
        rw [hwaiters, hrest, List.erase_cons_head]
      constructor
      case closed_clear => exact hremoved.closed_clear
      case head => exact hremoved.head
      case order =>
        simp only [ConnectionPool.serve, removeWaiter?, ConnectionPool.removeWaiter,
          ConnectionPool.notifyAll, herase, Option.toList_some, List.append_assoc,
          List.singleton_append, hserved, hqueued]
        rw [← hrest]
        exact h.order
      case queued_nodup => exact hremoved.queued_nodup
      case queued_lt => exact hremoved.queued_lt
      case handed_served =>
        intro x hx
        exact List.mem_append_left _ (hremoved.handed_served x hx)
      case new_queued => exact hremoved.new_queued
      case asleep_queued => simp [ConnectionPool.serve, ConnectionPool.notifyAll]

/-- A caller that cannot be served joins the queue, waits on in it, or leaves it. -/
theorem QueueOk.block (h : QueueOk cfg next p) (hopen : p.closed = false) {prewarm : Bool}
    (hwaiter : ∀ w, waiter = some w → w ∈ p.acquireWaiters)
    (hturn : p.isTurn waiter = true → (cfg.maxConnections : Int) ≤ p.load ∧
      (prewarm = false → p.idleConnections = []))
    (hprewarm : ∀ w, waiter = some w → w ∉ p.newConnectionWaiters → prewarm = false)
    (expired : Bool) : QueueOk cfg (next + 1) (p.block waiter next prewarm expired).1 := by
  have hlater : QueueOk cfg (next + 1) p :=
    { h with queued_lt := fun w hw => Nat.lt_succ_of_lt (h.queued_lt w hw) }
  cases waiter with
  | some w =>
      cases expired with
      | true => exact hlater.removeWaiter w
      | false =>
          refine { hlater with head := ?_, asleep_queued := ?asleep }
          case asleep =>
            intro x hasleep
            by_cases hxw : x = w
            · exact hwaiter x (by rw [hxw])
            · refine h.asleep_queued x ?_
              simpa [ConnectionPool.block, Function.update_of_ne hxw] using hasleep
          intro x hx hasleep
          by_cases hxw : x = w
          · subst hxw
            have hhead : p.acquireWaiters.head? = some x := hx
            obtain ⟨hload, hidle⟩ := hturn (by simpa [isTurn] using hhead)
            exact ⟨hload, fun hnew => hidle (hprewarm x rfl hnew)⟩
          · refine h.head x hx ?_
            simpa [ConnectionPool.block, Function.update_of_ne hxw] using hasleep
  | none =>
      have hjoin : QueueOk cfg (next + 1)
          { p with
            acquireWaiters := p.acquireWaiters ++ [next]
            newConnectionWaiters := if prewarm then insert next p.newConnectionWaiters
              else p.newConnectionWaiters
            queuedLog := p.queuedLog ++ [next] } := by
        constructor
        case closed_clear =>
          intro hc
          rw [hopen] at hc
          cases hc
        case head =>
          intro x hx hasleep
          cases hwaiters : p.acquireWaiters with
          | nil =>
              obtain ⟨hload, hidle⟩ := hturn (by simp [isTurn, hwaiters])
              refine ⟨hload, fun hnew => hidle ?_⟩
              simp only [hwaiters, List.nil_append, List.head?_cons, Option.some.injEq] at hx
              cases prewarm with
              | false => rfl
              | true => simp [← hx] at hnew
          | cons y rest =>
              rw [hwaiters] at hx
              obtain ⟨hload, hidle⟩ := h.head x (by rw [hwaiters]; exact hx) hasleep
              refine ⟨hload, fun hnew => hidle fun hmem => hnew ?_⟩
              cases prewarm with
              | false => exact hmem
              | true => exact Finset.mem_insert_of_mem hmem
        case order =>
          rw [← List.append_assoc]
          exact h.order.append_right [next]
        case queued_nodup =>
          refine List.nodup_append.2 ⟨h.queued_nodup, by simp, ?_⟩
          intro a ha b hb hab
          rw [hab, List.mem_singleton.1 hb] at ha
          exact Nat.lt_irrefl next (h.queued_lt next ha)
        case queued_lt =>
          intro w hw
          rcases List.mem_append.1 hw with hw | hw
          · exact Nat.lt_succ_of_lt (h.queued_lt w hw)
          · rw [List.mem_singleton.1 hw]
            exact Nat.lt_succ_self next
        case handed_served => exact h.handed_served
        case new_queued =>
          intro w hw
          refine List.mem_append.2 ?_
          cases prewarm with
          | false => exact .inl (h.new_queued w hw)
          | true =>
              rcases Finset.mem_insert.1 hw with rfl | hw
              · exact .inr (List.mem_singleton.2 rfl)
              · exact .inl (h.new_queued w hw)
        case asleep_queued => exact fun w hw => List.mem_append_left _ (h.asleep_queued w hw)
      cases expired with
      | true => exact hjoin.removeWaiter next
      | false =>
          refine { hjoin with head := ?_, asleep_queued := ?asleep }
          case asleep =>
            intro x hasleep
            refine List.mem_append.2 ?_
            by_cases hxw : x = next
            · exact .inr (List.mem_singleton.2 hxw)
            · refine .inl (h.asleep_queued x ?_)
              simpa [ConnectionPool.block, Function.update_of_ne hxw] using hasleep
          intro x hx hasleep
          by_cases hxw : x = next
          · subst hxw
            -- the fresh token is at the head only of a queue that was empty
            have hempty : p.acquireWaiters = [] := by
              cases hwaiters : p.acquireWaiters with
              | nil => rfl
              | cons y rest =>
                  have hxy : y = x := by simpa [ConnectionPool.block, hwaiters] using hx
                  exact absurd (h.waiters_lt (w := x) (by simp [hwaiters, hxy])) (Nat.lt_irrefl x)
            obtain ⟨hload, hidle⟩ := hturn (by simp [isTurn, hempty])
            refine ⟨hload, fun hnew => hidle ?_⟩
            cases prewarm with
            | false => rfl
            | true => simp [ConnectionPool.block] at hnew
          · refine hjoin.head x hx ?_
            simpa [ConnectionPool.block, Function.update_of_ne hxw] using hasleep

/-- The search for an idle connection that finds none leaves none behind. -/
theorem popIdle_none {connections : Finset Conn} {idle : List Conn}
    (h : (popIdle connections idle).1 = none) : (popIdle connections idle).2 = [] := by
  induction idle with
  | nil => rfl
  | cons c idle ih =>
      rw [popIdle] at h ⊢
      split
      · next hc => simp [hc] at h
      · next hc =>
        rw [if_neg hc] at h
        exact ih h

/-- A caller that finds no connection: it is turned away, or blocks. -/
theorem QueueOk.checkoutBlock (h : QueueOk cfg next p) (hopen : p.closed = false)
    (hwaiter : ∀ w, waiter = some w → w ∈ p.acquireWaiters)
    (hturn : p.isTurn waiter = true →
      (cfg.maxConnections : Int) ≤ p.load ∧ p.idleConnections = []) (expired : Bool) :
    QueueOk cfg (next + 1) (p.checkoutBlock cfg waiter next expired).1 := by
  unfold ConnectionPool.checkoutBlock
  split
  · exact { h with queued_lt := fun w hw => Nat.lt_succ_of_lt (h.queued_lt w hw) }
  · have hblock : QueueOk cfg (next + 1) (p.block waiter next false expired).1 :=
      h.block hopen hwaiter (fun ht => ⟨(hturn ht).1, fun _ => (hturn ht).2⟩) (fun _ _ _ => rfl) expired
    split <;> next heq => rw [heq] at hblock; exact hblock

/-- The turn of the caller at the head. -/
theorem QueueOk.checkoutServe (h : QueueOk cfg next p) (hopen : p.closed = false)
    (hwaiter : ∀ w, waiter = some w → w ∈ p.acquireWaiters)
    (hturn : p.isTurn waiter = true) (expired : Bool) :
    QueueOk cfg (next + 1) (p.checkoutServe cfg waiter next expired).1 := by
  have hlater : QueueOk cfg (next + 1) p :=
    { h with queued_lt := fun w hw => Nat.lt_succ_of_lt (h.queued_lt w hw) }
  unfold ConnectionPool.checkoutServe
  split
  · next c q heq =>
    obtain rfl : p.takeIdle.2 = q := congrArg Prod.snd heq
    exact hlater.serve hturn rfl rfl rfl rfl rfl rfl
  · next q heq =>
    obtain rfl : p.takeIdle.2 = q := congrArg Prod.snd heq
    have hidle : p.takeIdle.2.idleConnections = [] := by
      have hnone := popIdle_none (congrArg Prod.fst heq)
      simp [takeIdle, hnone]
    split
    · exact hlater.serve hturn rfl rfl rfl rfl rfl rfl
    · next hload =>
      have hq : QueueOk cfg next p.takeIdle.2 :=
        { h with head := fun w hw ha => ⟨(h.head w hw ha).1, fun _ => hidle⟩ }
      exact hq.checkoutBlock hopen hwaiter (fun _ => ⟨not_lt.1 hload, hidle⟩) expired

/-- One turn of `_checkout_connection`. -/
theorem QueueOk.checkoutTurn (h : QueueOk cfg next p)
    (hpresent : ∀ w, waiter = some w → p.Present w) (expired : Bool) :
    QueueOk cfg (next + 1) (p.checkoutTurn cfg waiter next expired).1 := by
  have hlater : QueueOk cfg (next + 1) p :=
    { h with queued_lt := fun w hw => Nat.lt_succ_of_lt (h.queued_lt w hw) }
  unfold ConnectionPool.checkoutTurn
  split
  · next hclosed =>
    cases waiter with
    | none => exact hlater
    | some w =>
        refine { hlater.removeWaiter w with head := ?_, asleep_queued := ?_ }
        · intro x hx
          simp [removeWaiter?, ConnectionPool.removeWaiter, (h.closed_clear hclosed).1] at hx
        · intro x hx
          have := h.asleep_queued x hx
          simp [(h.closed_clear hclosed).1] at this
  · next hopen =>
    have hopen : p.closed = false := Bool.eq_false_iff.2 hopen
    split
    · next c hc =>
      cases waiter with
      | none => cases hc
      | some w =>
          refine { hlater with closed_clear := ?_, handed_served := ?_ }
          · intro hclosed
            rw [hopen] at hclosed
            cases hclosed
          · intro x hx
            refine h.handed_served x fun hnone => hx ?_
            by_cases hxw : x = w
            · simp [hxw]
            · simp [Function.update_of_ne hxw, hnone]
    · next hnone =>
      have hwaiter : ∀ w, waiter = some w → w ∈ p.acquireWaiters := by
        rintro w rfl
        rcases hpresent w rfl with hmem | hhanded | hclosed
        · exact hmem
        · exact absurd hnone hhanded
        · exact absurd hclosed (by simp [hopen])
      split
      · next hturn => exact h.checkoutServe hopen hwaiter hturn expired
      · next hturn => exact h.checkoutBlock hopen hwaiter (fun ht => absurd ht hturn) expired

/-- One turn of `_reserve_new_connection`, by a caller whose token is marked. -/
theorem QueueOk.reserveTurn (h : QueueOk cfg next p)
    (hmarked : ∀ w, waiter = some w → w ∈ p.newConnectionWaiters ∨ p.closed = true)
    (idleTarget : Nat) (expired : Bool) :
    QueueOk cfg (next + 1) (p.reserveTurn cfg idleTarget waiter next expired).1 := by
  have hlater : QueueOk cfg (next + 1) p :=
    { h with queued_lt := fun w hw => Nat.lt_succ_of_lt (h.queued_lt w hw) }
  unfold ConnectionPool.reserveTurn
  split
  · next hclosed =>
    cases waiter with
    | none => exact hlater
    | some w =>
        refine { hlater.removeWaiter w with head := ?_, asleep_queued := ?_ }
        · intro x hx
          simp [removeWaiter?, ConnectionPool.removeWaiter, (h.closed_clear hclosed).1] at hx
        · intro x hx
          have := h.asleep_queued x hx
          simp [(h.closed_clear hclosed).1] at this
  · next hopen =>
    have hopen : p.closed = false := Bool.eq_false_iff.2 hopen
    split
    · cases waiter with
      | none => exact hlater
      | some w => exact hlater.removeWaiter w
    · split
      · next hserve => exact hlater.serve hserve.1 rfl rfl rfl rfl rfl rfl
      · next hserve =>
        split
        · exact hlater
        · have hmarked' : ∀ w, waiter = some w → w ∈ p.newConnectionWaiters := by
            intro w hw
            rcases hmarked w hw with hmem | hclosed
            · exact hmem
            · exact absurd hclosed (by simp [hopen])
          have hblock : QueueOk cfg (next + 1) (p.block waiter next true expired).1 :=
            h.block hopen (fun w hw => h.new_queued w (hmarked' w hw))
              (fun ht => ⟨not_lt.1 fun hload => hserve ⟨ht, hload⟩, fun hf => by cases hf⟩)
              (fun w hw hnew => absurd (hmarked' w hw) hnew) expired
          split <;> next heq => rw [heq] at hblock; exact hblock

/-- What a critical section other than a turn of a blocked caller does to the pool. -/
inductive Upkeep (cfg : AdapterConfig) (p : ConnectionPool) : ConnectionPool → Prop
  | stay : Upkeep cfg p p
  | wake (w : Token) : Upkeep cfg p (p.wake w)
  | discard (c : Conn) : Upkeep cfg p (p.discardConnection c)
  | replace {c : Conn} {q : ConnectionPool} : p.replaceConnection c = .ok q → Upkeep cfg p q
  | dialOk (c : Conn) (createdAt : Int) : Upkeep cfg p (p.newConnectionOk c createdAt).1
  | dialFailed (b : Bool) (exc : DialError) : Upkeep cfg p (p.newConnectionFailed b exc)
  | releaseReserved : Upkeep cfg p p.releaseReservedReplacement
  | release (c : Conn) (idleSince : Option Int) (now : Int) :
      Upkeep cfg p (p.releaseConnection cfg c idleSince now)
  | keepalive {c : Conn} {q : ConnectionPool} : p.keepaliveTake c = some q → Upkeep cfg p q
  | expire (now : Int) : Upkeep cfg p (p.expireIdleConnections cfg now)
  | close : Upkeep cfg p p.close

/-- A release that finds a caller waiting for a connection serves the first one. -/
theorem QueueOk.handOver (h : QueueOk cfg next p) (hopen : p.closed = false) {rest : List Token}
    (hwaiters : p.acquireWaiters = w :: rest) (hw : w ∉ p.newConnectionWaiters) (c : Conn) :
    QueueOk cfg next
      { p with
        acquireWaiters := rest
        waiterHandoffs := Function.update p.waiterHandoffs w (some c)
        servedLog := p.servedLog ++ [w] }.notifyAll where
  closed_clear := by
    intro hc
    exact absurd (hopen.symm.trans hc) (by simp)
  head := by simp [ConnectionPool.notifyAll]
  order := by
    have horder := h.order
    rw [hwaiters] at horder
    simpa [ConnectionPool.notifyAll] using horder
  queued_nodup := h.queued_nodup
  queued_lt := h.queued_lt
  handed_served := by
    intro x hx
    refine List.mem_append.2 ?_
    by_cases hxw : x = w
    · exact .inr (List.mem_singleton.2 hxw)
    · refine .inl (h.handed_served x fun hnone => hx ?_)
      simp [ConnectionPool.notifyAll, Function.update_of_ne hxw, hnone]
  new_queued := by
    intro x hx
    have hmem := h.new_queued x hx
    rw [hwaiters] at hmem
    rcases List.mem_cons.1 hmem with rfl | hmem
    · exact absurd hx hw
    · exact hmem
  asleep_queued := by simp [ConnectionPool.notifyAll]

/-- `_release_connection` keeps the queue. -/
theorem QueueOk.releaseConnection (h : QueueOk cfg next p) (c : Conn) (idleSince : Option Int)
    (now : Int) : QueueOk cfg next (p.releaseConnection cfg c idleSince now) := by
  have hidle (q : ConnectionPool) (hclosed : q.closed = p.closed)
      (hwaiters : q.acquireWaiters = p.acquireWaiters)
      (hhandoffs : q.waiterHandoffs = p.waiterHandoffs) (hqueued : q.queuedLog = p.queuedLog)
      (hserved : q.servedLog = p.servedLog)
      (hnew : q.newConnectionWaiters = p.newConnectionWaiters) :
      QueueOk cfg next (q.releaseIdle cfg c idleSince now) := by
    unfold releaseIdle
    split
    · exact h.notifyAll hclosed hwaiters hhandoffs hqueued hserved hnew
    · split <;> exact h.notifyAll hclosed hwaiters hhandoffs hqueued hserved hnew
  unfold ConnectionPool.releaseConnection
  split
  · exact h.notifyAll rfl rfl rfl rfl rfl rfl
  · next hkeep =>
    have hopen : p.closed = false := by
      simp only [releaseCloses, Bool.or_eq_true, not_or, Bool.not_eq_true] at hkeep
      exact hkeep.1.1
    unfold releaseLive
    split
    · exact hidle _ rfl rfl rfl rfl rfl rfl
    · next w rest hwaiters =>
      split
      · exact hidle _ rfl rfl rfl rfl rfl rfl
      · next hw =>
        have hp : QueueOk cfg next
            { p with
              connectionCreatedAt := Function.update p.connectionCreatedAt c
                (some ((p.connectionCreatedAt c).getD now)) } := { h with }
        exact hp.handOver hopen hwaiters hw c

/-- An expiry that drops nothing leaves the tracked connections alone. -/
theorem expire_connections {now : Int}
    (h : (p.retained cfg now).length = p.idleConnections.length) :
    p.connections.filter (fun c => c ∈ p.idleConnections → c ∈ p.retained cfg now)
      = p.connections := by
  have hsame : p.retained cfg now = p.idleConnections :=
    List.filter_sublist.eq_of_length h
  rw [Finset.filter_eq_self]
  intro c _ hc
  rwa [hsame]

/-- Everything but the turn of a blocked caller keeps the queue. -/
theorem QueueOk.upkeep (h : QueueOk cfg next p) {q : ConnectionPool} (hstep : Upkeep cfg p q) :
    QueueOk cfg next q := by
  cases hstep with
  | stay => exact h
  | wake w =>
      have hbefore : ∀ x, (p.wake w).asleep x = true → p.asleep x = true := by
        intro x hasleep
        by_cases hxw : x = w
        · simp [ConnectionPool.wake, hxw] at hasleep
        · simpa [ConnectionPool.wake, Function.update_of_ne hxw] using hasleep
      exact { h with
        head := fun x hx hasleep => h.head x hx (hbefore x hasleep)
        asleep_queued := fun x hasleep => h.asleep_queued x (hbefore x hasleep) }
  | discard c => exact h.notifyAll rfl rfl rfl rfl rfl rfl
  | replace hreplace =>
      unfold replaceConnection at hreplace
      split at hreplace
      · cases hreplace
      · split at hreplace
        · cases hreplace
        · cases hreplace
          exact h.notifyAll rfl rfl rfl rfl rfl rfl
  | dialOk c createdAt =>
      unfold newConnectionOk
      split <;> exact h.notifyAll rfl rfl rfl rfl rfl rfl
  | dialFailed b exc =>
      unfold newConnectionFailed
      split <;> exact h.notifyAll rfl rfl rfl rfl rfl rfl
  | releaseReserved => exact h.notifyAll rfl rfl rfl rfl rfl rfl
  | release c idleSince now => exact h.releaseConnection c idleSince now
  | keepalive htake =>
      unfold keepaliveTake at htake
      split at htake
      · cases htake
      · next hempty =>
        split at htake
        · cases htake
        · cases htake
          refine { h with head := ?_ }
          intro x hx
          rw [not_not.1 hempty] at hx
          cases hx
  | expire now =>
      unfold expireIdleConnections
      split
      · exact h
      · split
        · exact h.notifyAll rfl rfl rfl rfl rfl rfl
        · next hlen =>
          have hlen := not_not.1 hlen
          refine { h with head := ?_ }
          intro x hx hasleep
          obtain ⟨hload, hidle⟩ := h.head x hx hasleep
          refine ⟨?_, fun hnew => ?_⟩
          · simpa only [load, expire_connections hlen] using hload
          · have hempty := hidle hnew
            simp [retained, hempty]
  | close =>
      unfold ConnectionPool.close
      split
      · exact h
      · constructor
        case closed_clear => exact fun _ => ⟨rfl, fun _ => rfl⟩
        case head => simp [ConnectionPool.notifyAll]
        case order =>
          simpa [ConnectionPool.notifyAll] using (List.sublist_append_left _ _).trans h.order
        case queued_nodup => exact h.queued_nodup
        case queued_lt => exact h.queued_lt
        case handed_served => exact fun w hw => absurd rfl hw
        case new_queued => simp [ConnectionPool.notifyAll]
        case asleep_queued => simp [ConnectionPool.notifyAll]

/-! ### What a turn does to the tokens -/

/-- Two pools agree about a token. -/
structure SameToken (p q : ConnectionPool) (x : Token) : Prop where
  mark : x ∈ q.newConnectionWaiters ↔ x ∈ p.newConnectionWaiters
  queued : x ∈ q.acquireWaiters ↔ x ∈ p.acquireWaiters
  handed : q.waiterHandoffs x = p.waiterHandoffs x

theorem SameToken.refl {x : Token} : SameToken p p x := ⟨Iff.rfl, Iff.rfl, rfl⟩

theorem removeWaiter_sameToken {x : Token} (hx : x ≠ w) : SameToken p (p.removeWaiter w) x where
  mark := by simp [ConnectionPool.removeWaiter, hx]
  queued := by simp [ConnectionPool.removeWaiter, List.mem_erase_of_ne hx]
  handed := by simp [ConnectionPool.removeWaiter, Function.update_of_ne hx]

theorem removeWaiter?_sameToken {x : Token} (hx : waiter ≠ some x) :
    SameToken p (p.removeWaiter? waiter) x := by
  cases waiter with
  | none => exact .refl
  | some w => exact removeWaiter_sameToken fun he => hx (by rw [he])

/-- A service concerns only the caller's own token. -/
theorem SameToken.serve {q : ConnectionPool} {x : Token} (h : SameToken p q x)
    (hx : waiter ≠ some x) : SameToken p (q.serve waiter) x := by
  have hsame : SameToken q (q.removeWaiter? waiter) x := removeWaiter?_sameToken hx
  exact ⟨hsame.mark.trans h.mark, hsame.queued.trans h.queued, hsame.handed.trans h.handed⟩

/-- Only the caller's own token changes when it blocks. -/
theorem block_sameToken {fresh : Token} {prewarm expired : Bool} {x : Token}
    (hx : x ≠ waiter.getD fresh) : SameToken p (p.block waiter fresh prewarm expired).1 x := by
  cases waiter <;> cases prewarm <;> cases expired <;> constructor <;>
    simp_all [block, ConnectionPool.notifyAll, ConnectionPool.removeWaiter, List.mem_erase_of_ne]

/-- A caller that blocks waits with the token it had, or with the fresh one, marked if it prewarms. -/
theorem block_waits {fresh : Token} {prewarm expired : Bool}
    (h : (p.block waiter fresh prewarm expired).2 = some w) :
    w = waiter.getD fresh ∧
      (w ∈ (p.block waiter fresh prewarm expired).1.newConnectionWaiters ↔
        w ∈ p.newConnectionWaiters ∨ waiter = none ∧ prewarm = true) ∧
      (waiter = none → w ∈ (p.block waiter fresh prewarm expired).1.acquireWaiters) ∧
      ∀ v, waiter = some v → (p.block waiter fresh prewarm expired).1.acquireWaiters = p.acquireWaiters
        ∧ (p.block waiter fresh prewarm expired).1.waiterHandoffs = p.waiterHandoffs := by
  cases waiter <;> cases prewarm <;> cases expired <;>
    simp_all [block, ConnectionPool.notifyAll, ConnectionPool.removeWaiter]

/-- What a turn of a caller does to the tokens of the others, and to its own. -/
structure TurnMarks (p q : ConnectionPool) (waiter : Option Token) (fresh : Token) (prewarm : Bool)
    (waits : Option Token) : Prop where
  closed : q.closed = p.closed
  others : ∀ x, x ≠ waiter.getD fresh → SameToken p q x
  own : ∀ w, waits = some w → w = waiter.getD fresh
  ownMark : ∀ w, waits = some w →
    (w ∈ q.newConnectionWaiters ↔ w ∈ p.newConnectionWaiters ∨ waiter = none ∧ prewarm = true)
  ownPresent : ∀ w, waits = some w → (∀ v, waiter = some v → p.Present v) → q.Present w

theorem block_turnMarks {fresh : Token} {prewarm expired : Bool} :
    TurnMarks p (p.block waiter fresh prewarm expired).1 waiter fresh prewarm
      (p.block waiter fresh prewarm expired).2 where
  closed := by
    cases waiter <;> cases expired <;> rfl
  others _ hx := block_sameToken hx
  own _ hw := (block_waits hw).1
  ownMark _ hw := (block_waits hw).2.1
  ownPresent := by
    intro w hw hpresent
    obtain ⟨hown, -, hfresh, hsame⟩ := block_waits hw
    cases waiter with
    | none => exact .inl (hfresh rfl)
    | some v =>
        obtain ⟨hqueue, hhanded⟩ := hsame v rfl
        have hclosed : (p.block (some v) fresh prewarm expired).1.closed = p.closed := by
          cases expired <;> rfl
        rw [hown, Option.getD_some]
        simpa only [Present, hqueue, hhanded, hclosed] using hpresent v rfl

/-- A turn that does not end in `wait`. -/
theorem TurnMarks.of_leaves {q : ConnectionPool} {fresh : Token} {prewarm : Bool}
    (hclosed : q.closed = p.closed)
    (hothers : ∀ x, waiter ≠ some x → SameToken p q x) :
    TurnMarks p q waiter fresh prewarm none where
  closed := hclosed
  others x hx := hothers x fun he => hx (by rw [he]; rfl)
  own _ hw := by cases hw
  ownMark _ hw := by cases hw
  ownPresent _ hw := by cases hw

theorem serve_closed : (p.serve waiter).closed = p.closed := by cases waiter <;> rfl

theorem removeWaiter?_closed : (p.removeWaiter? waiter).closed = p.closed := by cases waiter <;> rfl

theorem checkoutBlock_turnMarks {fresh : Token} {expired : Bool} :
    TurnMarks p (p.checkoutBlock cfg waiter fresh expired).1 waiter fresh false
      (p.checkoutBlock cfg waiter fresh expired).2.waiting := by
  unfold ConnectionPool.checkoutBlock
  split
  · exact .of_leaves rfl fun _ _ => .refl
  · have hmarks : TurnMarks p (p.block waiter fresh false expired).1 waiter fresh false
        (p.block waiter fresh false expired).2 := block_turnMarks
    split <;> next heq => rw [heq] at hmarks; exact hmarks

/-- The tokens after a turn of `_checkout_connection`. -/
theorem checkoutTurn_turnMarks {fresh : Token} {expired : Bool} :
    TurnMarks p (p.checkoutTurn cfg waiter fresh expired).1 waiter fresh false
      (p.checkoutTurn cfg waiter fresh expired).2.waiting := by
  unfold ConnectionPool.checkoutTurn
  split
  · exact .of_leaves removeWaiter?_closed fun _ hx => removeWaiter?_sameToken hx
  · split
    · refine .of_leaves rfl fun x hx => ⟨Iff.rfl, Iff.rfl, ?_⟩
      cases waiter with
      | none => rfl
      | some w => exact Function.update_of_ne (fun he => hx (by rw [he])) _ _
    · split
      · unfold ConnectionPool.checkoutServe
        split
        · next heq =>
          obtain rfl : p.takeIdle.2 = _ := congrArg Prod.snd heq
          exact .of_leaves serve_closed fun _ hx => SameToken.serve ⟨Iff.rfl, Iff.rfl, rfl⟩ hx
        · next heq =>
          obtain rfl : p.takeIdle.2 = _ := congrArg Prod.snd heq
          split
          · exact .of_leaves serve_closed fun _ hx => SameToken.serve ⟨Iff.rfl, Iff.rfl, rfl⟩ hx
          · have hmarks : TurnMarks p.takeIdle.2 (p.takeIdle.2.checkoutBlock cfg waiter fresh expired).1
                waiter fresh false (p.takeIdle.2.checkoutBlock cfg waiter fresh expired).2.waiting :=
              checkoutBlock_turnMarks
            exact ⟨hmarks.closed, fun x hx => ⟨(hmarks.others x hx).mark, (hmarks.others x hx).queued,
              (hmarks.others x hx).handed⟩, hmarks.own, hmarks.ownMark, hmarks.ownPresent⟩
      · exact checkoutBlock_turnMarks

/-- The tokens after a turn of `_reserve_new_connection`. -/
theorem reserveTurn_turnMarks {idleTarget : Nat} {fresh : Token} {expired : Bool} :
    TurnMarks p (p.reserveTurn cfg idleTarget waiter fresh expired).1 waiter fresh true
      (p.reserveTurn cfg idleTarget waiter fresh expired).2.waiting := by
  unfold ConnectionPool.reserveTurn
  split
  · exact .of_leaves removeWaiter?_closed fun _ hx => removeWaiter?_sameToken hx
  · split
    · split
      · refine .of_leaves removeWaiter?_closed fun x hx => ?_
        have hsame : SameToken p (p.removeWaiter? waiter) x := removeWaiter?_sameToken hx
        exact ⟨hsame.mark, hsame.queued, hsame.handed⟩
      · exact .of_leaves rfl fun _ _ => .refl
    · split
      · exact .of_leaves serve_closed fun _ hx => SameToken.serve ⟨Iff.rfl, Iff.rfl, rfl⟩ hx
      · split
        · exact .of_leaves rfl fun _ _ => .refl
        · have hmarks : TurnMarks p (p.block waiter fresh true expired).1 waiter fresh true
              (p.block waiter fresh true expired).2 := block_turnMarks
          split <;> next heq => rw [heq] at hmarks; exact hmarks

/-- Apart from turns, a blocked caller's token stays where it is or is served, and its mark stays,
unless the adapter is closed. -/
theorem Upkeep.token {q : ConnectionPool} (hstep : Upkeep cfg p q) :
    (q.newConnectionWaiters = p.newConnectionWaiters ∧ q.closed = p.closed
        ∧ ∀ w, p.Present w → q.Present w)
      ∨ q.newConnectionWaiters = ∅ ∧ q.closed = true := by
  cases hstep with
  | stay | wake | discard | releaseReserved => exact .inl ⟨rfl, rfl, fun _ hw => hw⟩
  | replace hreplace =>
      unfold replaceConnection at hreplace
      split at hreplace
      · cases hreplace
      · split at hreplace <;> cases hreplace
        exact .inl ⟨rfl, rfl, fun _ hw => hw⟩
  | dialOk c createdAt =>
      unfold newConnectionOk
      split <;> exact .inl ⟨rfl, rfl, fun _ hw => hw⟩
  | dialFailed b exc =>
      unfold newConnectionFailed
      split <;> exact .inl ⟨rfl, rfl, fun _ hw => hw⟩
  | release c idleSince now =>
      have hidle (q : ConnectionPool) (hnew : q.newConnectionWaiters = p.newConnectionWaiters)
          (hclosed : q.closed = p.closed) (hqueue : q.acquireWaiters = p.acquireWaiters)
          (hhanded : q.waiterHandoffs = p.waiterHandoffs) :
          (q.releaseIdle cfg c idleSince now).newConnectionWaiters = p.newConnectionWaiters
            ∧ (q.releaseIdle cfg c idleSince now).closed = p.closed
            ∧ ∀ w, p.Present w → (q.releaseIdle cfg c idleSince now).Present w := by
        have hpresent : ∀ w, p.Present w → q.Present w := by
          intro w hw
          simpa only [Present, hqueue, hhanded, hclosed] using hw
        unfold releaseIdle
        repeat' split
        all_goals exact ⟨hnew, hclosed, hpresent⟩
      unfold releaseConnection
      split
      · exact .inl ⟨rfl, rfl, fun _ hw => hw⟩
      · unfold releaseLive
        split
        · exact .inl (hidle _ rfl rfl rfl rfl)
        · next v rest hwaiters =>
          split
          · exact .inl (hidle _ rfl rfl rfl rfl)
          · refine .inl ⟨rfl, rfl, fun w hw => ?_⟩
            have hwaiters : p.acquireWaiters = v :: rest := hwaiters
            by_cases hwv : w = v
            · exact .inr (.inl (by simp [ConnectionPool.notifyAll, hwv]))
            · rcases hw with hmem | hhanded | hclosed
              · rw [hwaiters] at hmem
                exact .inl ((List.mem_cons.1 hmem).resolve_left hwv)
              · refine .inr (.inl ?_)
                simpa [ConnectionPool.notifyAll, Function.update_of_ne hwv] using hhanded
              · exact .inr (.inr hclosed)
  | keepalive htake =>
      unfold keepaliveTake at htake
      split at htake
      · cases htake
      · split at htake <;> cases htake
        exact .inl ⟨rfl, rfl, fun _ hw => hw⟩
  | expire now =>
      unfold expireIdleConnections
      repeat' split
      all_goals exact .inl ⟨rfl, rfl, fun _ hw => hw⟩
  | close =>
      unfold ConnectionPool.close
      split
      · exact .inl ⟨rfl, rfl, fun _ hw => hw⟩
      · exact .inr ⟨rfl, rfl⟩

end

end ConnectionPool

/-- The token of a blocked caller, and whether it is a prewarm reservation. -/
def CallerPhase.waiting : CallerPhase → Option (Token × Bool)
  | checkout waiter => waiter.map fun w => (w, false)
  | reserve _ waiter => waiter.map fun w => (w, true)
  | idle | dialing | leased _ => none

namespace Adapter

section
variable {ι κ : Type} [DecidableEq ι] [DecidableEq κ] {cfg : AdapterConfig} {s : Adapter ι κ}

/-- A step that is no turn of a blocked caller: the pool is kept up, and the blocked callers stay. -/
structure Calm (cfg : AdapterConfig) (s s' : Adapter ι κ) : Prop where
  pool : ConnectionPool.Upkeep cfg s.pool s'.pool
  nextToken : s'.nextToken = s.nextToken
  waiting : ∀ i, (s'.callers i).waiting = (s.callers i).waiting

omit [DecidableEq ι] [DecidableEq κ] in
theorem Calm.refl : Calm cfg s s := ⟨.stay, rfl, fun _ => rfl⟩

omit [DecidableEq ι] [DecidableEq κ] in
/-- A step that leaves the callers alone. -/
theorem Calm.of_callers {s' : Adapter ι κ} (hpool : ConnectionPool.Upkeep cfg s.pool s'.pool)
    (htoken : s'.nextToken = s.nextToken) (hcallers : s'.callers = s.callers) : Calm cfg s s' :=
  ⟨hpool, htoken, fun i => by rw [hcallers]⟩

omit [DecidableEq κ] in
/-- A step of a caller that is not blocked and does not block. -/
theorem Calm.of_caller {s' : Adapter ι κ} {i : ι} (phase : CallerPhase)
    (hpool : ConnectionPool.Upkeep cfg s.pool s'.pool) (htoken : s'.nextToken = s.nextToken)
    (hcallers : s'.callers = Function.update s.callers i phase)
    (hbefore : (s.callers i).waiting = none) (hafter : phase.waiting = none) : Calm cfg s s' := by
  refine ⟨hpool, htoken, fun x => ?_⟩
  rw [hcallers]
  by_cases hx : x = i
  · rw [hx, Function.update_self, hafter, hbefore]
  · rw [Function.update_of_ne hx]

omit [DecidableEq ι] in
theorem Calm.of_setSession {s' : Adapter ι κ} {j : κ} {t : StreamTransport}
    (h : Calm cfg (s.setSession j t) s') : Calm cfg s s' :=
  ⟨h.pool, h.nextToken, h.waiting⟩

omit [DecidableEq ι] [DecidableEq κ] in
theorem releaseConnection_callers (cfg : AdapterConfig) (c : Conn) (settimeoutOk : Bool)
    (idleSince : Option Int) (now : Int) :
    (s.releaseConnection cfg c settimeoutOk idleSince now).callers = s.callers := by
  unfold releaseConnection
  split
  · simp only
    split <;> rfl
  · rfl

omit [DecidableEq ι] [DecidableEq κ] in
theorem releaseConnection_calm (c : Conn) (settimeoutOk : Bool) (idleSince : Option Int) (now : Int) :
    Calm cfg s (s.releaseConnection cfg c settimeoutOk idleSince now) := by
  unfold releaseConnection
  split
  · simp only
    split <;> exact .of_callers (.release c idleSince now) rfl rfl
  · exact .of_callers (.discard c) rfl rfl

omit [DecidableEq ι] in
theorem finishTransport_calm (j : κ) (reusable settimeoutOk : Bool) (now : Int) :
    Calm cfg s (s.finishTransport cfg j reusable settimeoutOk now) := by
  unfold finishTransport
  simp only
  split
  · exact .refl
  · split
    · exact (releaseConnection_calm _ _ _ _).of_setSession
    · exact .of_callers (.discard _) rfl rfl

omit [DecidableEq ι] in
theorem recoveryStep_calm (j : κ) (r : Recovery) (e : SessionEvent) :
    Calm cfg s (s.recoveryStep cfg j r e) := by
  cases e with
  | recoverCheck deadlinePassed =>
      unfold recoveryStep recoverCheck
      simp only
      repeat' split
      all_goals exact .of_callers .stay rfl rfl
  | recoverDial =>
      unfold recoveryStep recoverDial
      simp only
      split
      · split
        · split
          · exact .of_callers .stay rfl rfl
          · next hreplace => exact .of_callers (.replace hreplace) rfl rfl
        · split <;> exact .of_callers .stay rfl rfl
      · exact .refl
  | recoverDialOk createdAt =>
      unfold recoveryStep recoverDialOk
      simp only
      split
      · split <;> exact .of_callers (.dialOk s.nextConn createdAt) rfl rfl
      · exact .refl
  | recoverDialFailed exc =>
      unfold recoveryStep recoverDialFailed
      simp only
      split
      · cases exc <;> exact .of_callers (.dialFailed _ _) rfl rfl
      · exact .refl
  | recoverAdopt =>
      unfold recoveryStep recoverAdopt
      simp only
      split
      · split
        · exact .of_callers (.discard _) rfl rfl
        · exact .of_callers .stay rfl rfl
      · exact .refl
  | resumeOk =>
      unfold recoveryStep resumeOk
      simp only
      split
      · split
        · exact .of_callers (.discard _) rfl rfl
        · exact .of_callers .stay rfl rfl
      · exact .refl
  | resumeFailed err =>
      unfold recoveryStep
      simp only
      split
      · cases err <;> exact .of_callers .stay rfl rfl
      · exact .refl
  | recoverCleanup | recoverEnd =>
      unfold recoveryStep
      simp only
      split
      · exact .of_callers .stay rfl rfl
      · exact .refl
  | recoverGiveBack =>
      unfold recoveryStep recoverGiveBack
      simp only
      split
      · split
        · exact .of_callers .releaseReserved rfl rfl
        · split
          · exact .of_callers (.discard _) rfl rfl
          · exact .of_callers .stay rfl rfl
      · exact .refl
  | send | ack | progress | frame | terminal | recoverBegin | resumeWrite | failTerminal | hardStop
  | closeBegin | closeDiscard => exact .refl

omit [DecidableEq ι] in
theorem sessionStep_calm (j : κ) (e : SessionEvent) : Calm cfg s (s.sessionStep cfg j e) := by
  unfold sessionStep
  simp only
  split
  · exact .refl
  · exact .refl
  · exact .refl
  · exact .refl
  · split
    · exact .of_callers .stay rfl rfl
    · exact .refl
  · split
    · exact finishTransport_calm ..
    · exact .refl
  · unfold recoverBegin
    simp only
    repeat' split
    all_goals exact .of_callers .stay rfl rfl
  · unfold failTerminal
    simp only
    split
    · exact .refl
    · exact (finishTransport_calm j false true 0).of_setSession
  · split
    · exact finishTransport_calm ..
    · exact .refl
  · split
    · exact .of_callers .stay rfl rfl
    · exact .refl
  · split
    · exact .refl
    · exact .of_callers (.discard _) rfl rfl
  · split
    · exact .refl
    · exact recoveryStep_calm ..

omit [DecidableEq κ] in
/-- A caller's event that is no turn of its loop. -/
theorem callerStep_calm (i : ι) {e : CallerEvent} (hturn : ∀ expired, e ≠ .turn expired) :
    Calm cfg s (s.callerStep cfg i e) := by
  cases e with
  | turn expired => exact absurd rfl (hturn expired)
  | checkout | reserve =>
      unfold callerStep
      simp only
      split
      · next hphase => exact .of_caller _ .stay rfl rfl (by rw [hphase]; rfl) rfl
      · exact .refl
  | timeout =>
      unfold callerStep timeout
      simp only
      split
      · exact .of_callers (.wake _) rfl rfl
      · exact .of_callers (.wake _) rfl rfl
      · exact .refl
  | dialOk createdAt =>
      unfold callerStep callerDialOk
      simp only
      split
      · next hphase =>
        have hbefore : (s.callers i).waiting = none := by rw [hphase]; rfl
        split <;> exact .of_caller _ (.dialOk s.nextConn createdAt) rfl rfl hbefore rfl
      · exact .refl
  | dialFailed exc =>
      unfold callerStep
      simp only
      split
      · next hphase => exact .of_caller _ (.dialFailed true exc) rfl rfl (by rw [hphase]; rfl) rfl
      · exact .refl
  | keepalive c =>
      unfold callerStep
      simp only
      split
      · next hphase htake => exact .of_caller _ (.keepalive htake) rfl rfl (by rw [hphase]; rfl) rfl
      · exact .refl
  | release settimeoutOk idleSince now =>
      unfold callerStep
      simp only
      split
      · next c hphase =>
        have hcalm : Calm cfg s (s.releaseConnection cfg c settimeoutOk idleSince now) :=
          releaseConnection_calm c settimeoutOk idleSince now
        have hcallers := releaseConnection_callers (s := s) cfg c settimeoutOk idleSince now
        exact .of_caller .idle hcalm.pool hcalm.nextToken (by rw [setCaller, hcallers])
          (by rw [hphase]; rfl) rfl
      · exact .refl
  | discard =>
      unfold callerStep
      simp only
      split
      · next hphase => exact .of_caller _ (.discard _) rfl rfl (by rw [hphase]; rfl) rfl
      · exact .refl

/-- Every event but the turn of a blocked caller is calm. -/
theorem step_calm {e : AdapterEvent ι κ} (hturn : ∀ i expired, e ≠ .caller i (.turn expired)) :
    Calm cfg s (step cfg s e) := by
  cases e with
  | caller i e => exact callerStep_calm i fun expired he => hturn i expired (by rw [he])
  | session j e => exact sessionStep_calm j e
  | openStream i j =>
      unfold step openStream
      simp only
      split
      · next hphase _ => exact .of_caller _ .stay rfl rfl (by rw [hphase]; rfl) rfl
      · exact .refl
  | expire now => exact .of_callers (.expire now) rfl rfl
  | close => exact .of_callers .close rfl rfl

/-! ## The invariant -/

/-- The tokens of the blocked callers are distinct, and those of prewarm reservations are marked. -/
structure TokensOk (s : Adapter ι κ) : Prop where
  lt : ∀ i w b, (s.callers i).waiting = some (w, b) → w < s.nextToken
  inj : ∀ i i' w b b', (s.callers i).waiting = some (w, b) → (s.callers i').waiting = some (w, b') →
    i = i'
  marked : ∀ i w, (s.callers i).waiting = some (w, true) →
    w ∈ s.pool.newConnectionWaiters ∨ s.pool.closed = true
  unmarked : ∀ i w, (s.callers i).waiting = some (w, false) → w ∉ s.pool.newConnectionWaiters
  present : ∀ i w b, (s.callers i).waiting = some (w, b) → s.pool.Present w

omit [DecidableEq ι] [DecidableEq κ] in
theorem TokensOk.calm {s' : Adapter ι κ} (h : TokensOk s) (hcalm : Calm cfg s s') : TokensOk s' where
  lt i w b hw := hcalm.nextToken ▸ h.lt i w b (hcalm.waiting i ▸ hw)
  inj i i' w b b' hw hw' := h.inj i i' w b b' (hcalm.waiting i ▸ hw) (hcalm.waiting i' ▸ hw')
  marked := by
    intro i w hw
    rcases hcalm.pool.token with ⟨hnew, hclosed, -⟩ | ⟨-, hclosed⟩
    · rw [hnew, hclosed]
      exact h.marked i w (hcalm.waiting i ▸ hw)
    · exact .inr hclosed
  unmarked := by
    intro i w hw
    rcases hcalm.pool.token with ⟨hnew, -, -⟩ | ⟨hnew, -⟩
    · rw [hnew]
      exact h.unmarked i w (hcalm.waiting i ▸ hw)
    · simp [hnew]
  present := by
    intro i w b hw
    rcases hcalm.pool.token with ⟨-, -, hpresent⟩ | ⟨-, hclosed⟩
    · exact hpresent w (h.present i w b (hcalm.waiting i ▸ hw))
    · exact .inr (.inr hclosed)

omit [DecidableEq ι] [DecidableEq κ] in
/-- The tokens after a turn of caller `i`. -/
theorem TokensOk.turn {s' : Adapter ι κ} {i : ι} {waiter waits : Option Token} {prewarm : Bool}
    (h : TokensOk s) (hqueue : ConnectionPool.QueueOk cfg s.nextToken s.pool)
    (hbefore : (s.callers i).waiting = waiter.map fun w => (w, prewarm))
    (hafter : (s'.callers i).waiting = waits.map fun w => (w, prewarm))
    (hothers : ∀ x, x ≠ i → s'.callers x = s.callers x) (hnext : s'.nextToken = s.nextToken + 1)
    (hmarks : ConnectionPool.TurnMarks s.pool s'.pool waiter s.nextToken prewarm waits) :
    TokensOk s' := by
  have hold : ∀ w, waiter = some w → (s.callers i).waiting = some (w, prewarm) := by
    intro w hw
    rw [hbefore, hw]
    rfl
  -- the token of another caller is not the one this turn is about
  have hother : ∀ x w b, x ≠ i → (s.callers x).waiting = some (w, b) →
      w ≠ waiter.getD s.nextToken := by
    intro x w b hx hw he
    cases hwaiter : waiter with
    | none =>
        rw [hwaiter, Option.getD_none] at he
        exact absurd (h.lt x w b hw) (by rw [he]; exact Nat.lt_irrefl _)
    | some v =>
        rw [hwaiter, Option.getD_some] at he
        exact hx (h.inj x i w b prewarm hw (he ▸ hold v hwaiter))
  have hfresh : s.nextToken ∉ s.pool.newConnectionWaiters := fun hmem =>
    Nat.lt_irrefl _ (hqueue.waiters_lt (hqueue.new_queued _ hmem))
  -- and the token of this caller
  have hown : ∀ w b, (s'.callers i).waiting = some (w, b) →
      waits = some w ∧ b = prewarm ∧ w = waiter.getD s.nextToken := by
    intro w b hw
    rw [hafter, Option.map_eq_some_iff] at hw
    obtain ⟨v, hv, he⟩ := hw
    cases he
    exact ⟨hv, rfl, hmarks.own w hv⟩
  have hownlt : waiter.getD s.nextToken < s.nextToken + 1 := by
    cases hwaiter : waiter with
    | none => exact Nat.lt_succ_self _
    | some v => exact Nat.lt_succ_of_lt (h.lt i v prewarm (hold v hwaiter))
  constructor
  case lt =>
    intro x w b hw
    rw [hnext]
    by_cases hx : x = i
    · subst hx
      rw [(hown w b hw).2.2]
      exact hownlt
    · rw [hothers x hx] at hw
      exact Nat.lt_succ_of_lt (h.lt x w b hw)
  case inj =>
    intro x y w b b' hw hw'
    by_cases hx : x = i
    · by_cases hy : y = i
      · rw [hx, hy]
      · subst hx
        rw [hothers y hy] at hw'
        exact absurd (hown w b hw).2.2 (hother y w b' hy hw')
    · rw [hothers x hx] at hw
      by_cases hy : y = i
      · subst hy
        exact absurd (hown w b' hw').2.2 (hother x w b hx hw)
      · rw [hothers y hy] at hw'
        exact h.inj x y w b b' hw hw'
  case marked =>
    intro x w hw
    rw [hmarks.closed]
    by_cases hx : x = i
    · subst hx
      obtain ⟨hwaits, rfl, hw⟩ := hown w true hw
      rw [hmarks.ownMark w hwaits]
      cases hwaiter : waiter with
      | none => exact .inl (.inr ⟨rfl, rfl⟩)
      | some v =>
          rw [hwaiter, Option.getD_some] at hw
          rcases h.marked x v (hold v hwaiter) with hm | hm
          · exact .inl (.inl (hw ▸ hm))
          · exact .inr hm
    · rw [hothers x hx] at hw
      rcases h.marked x w hw with hm | hm
      · exact .inl ((hmarks.others w (hother x w true hx hw)).mark.2 hm)
      · exact .inr hm
  case unmarked =>
    intro x w hw
    by_cases hx : x = i
    · subst hx
      obtain ⟨hwaits, rfl, hwt⟩ := hown w false hw
      rw [hmarks.ownMark w hwaits]
      rintro (hm | ⟨-, hf⟩)
      · cases hwaiter : waiter with
        | none =>
            rw [hwaiter, Option.getD_none] at hwt
            exact hfresh (hwt ▸ hm)
        | some v =>
            rw [hwaiter, Option.getD_some] at hwt
            exact h.unmarked x v (hold v hwaiter) (hwt ▸ hm)
      · cases hf
    · rw [hothers x hx] at hw
      rw [(hmarks.others w (hother x w false hx hw)).mark]
      exact h.unmarked x w hw
  case present =>
    intro x w b hw
    by_cases hx : x = i
    · subst hx
      refine hmarks.ownPresent w (hown w b hw).1 fun v hv => ?_
      exact h.present x v prewarm (hold v hv)
    · rw [hothers x hx] at hw
      have hsame := hmarks.others w (hother x w b hx hw)
      have := h.present x w b hw
      simpa only [ConnectionPool.Present, hsame.queued, hsame.handed, hmarks.closed] using this

/-- The queue and the tokens of the blocked callers. -/
structure QueueInv (cfg : AdapterConfig) (s : Adapter ι κ) : Prop where
  queue : ConnectionPool.QueueOk cfg s.nextToken s.pool
  tokens : TokensOk s

omit [DecidableEq ι] [DecidableEq κ] in
theorem QueueInv.new : QueueInv cfg (new : Adapter ι κ) where
  queue := .new
  tokens := by
    constructor <;> intro i <;> simp [Adapter.new, CallerPhase.waiting]

omit [DecidableEq κ] in
/-- Behind a turn of `_checkout_connection` only the caller itself has moved. -/
theorem afterCheckout_spec (i : ι) (outcome : CheckoutOutcome) :
    (s.afterCheckout i outcome).pool = s.pool
      ∧ (s.afterCheckout i outcome).nextToken = s.nextToken
      ∧ ((s.afterCheckout i outcome).callers i).waiting = outcome.waiting.map (fun w => (w, false))
      ∧ ∀ x, x ≠ i → (s.afterCheckout i outcome).callers x = s.callers x := by
  cases outcome <;>
    exact ⟨rfl, rfl, by simp [afterCheckout, setCaller, lease, CallerPhase.waiting,
      CheckoutOutcome.waiting], fun x hx => Function.update_of_ne hx _ _⟩

omit [DecidableEq κ] in
/-- Behind a turn of `_reserve_new_connection` only the caller itself has moved. -/
theorem afterReserve_spec (i : ι) (idleTarget : Nat) (outcome : ReserveOutcome) :
    (s.afterReserve i idleTarget outcome).pool = s.pool
      ∧ (s.afterReserve i idleTarget outcome).nextToken = s.nextToken
      ∧ ((s.afterReserve i idleTarget outcome).callers i).waiting
          = outcome.waiting.map (fun w => (w, true))
      ∧ ∀ x, x ≠ i → (s.afterReserve i idleTarget outcome).callers x = s.callers x := by
  cases outcome <;>
    exact ⟨rfl, rfl, by simp [afterReserve, setCaller, CallerPhase.waiting,
      ReserveOutcome.waiting], fun x hx => Function.update_of_ne hx _ _⟩

omit [DecidableEq κ] in
/-- A turn of a caller keeps the queue. -/
theorem QueueInv.turn (h : QueueInv cfg s) (i : ι) (expired : Bool) :
    QueueInv cfg (s.turn cfg i expired) := by
  unfold Adapter.turn
  split
  · next waiter hphase =>
    split
    · have hqueue : ConnectionPool.QueueOk cfg (s.nextToken + 1)
          (s.pool.checkoutTurn cfg waiter s.nextToken expired).1 := by
        refine h.queue.checkoutTurn (fun w hw => ?_) expired
        exact h.tokens.present i w false (by rw [hphase, hw]; rfl)
      have hmarks : ConnectionPool.TurnMarks s.pool
          (s.pool.checkoutTurn cfg waiter s.nextToken expired).1 waiter s.nextToken false
          (s.pool.checkoutTurn cfg waiter s.nextToken expired).2.waiting :=
        ConnectionPool.checkoutTurn_turnMarks
      generalize s.pool.checkoutTurn cfg waiter s.nextToken expired = res at hqueue hmarks
      obtain ⟨q, outcome⟩ := res
      obtain ⟨hpool, hnext, hown, hothers⟩ := afterCheckout_spec (s := s.useToken.setPool q) i outcome
      refine ⟨by rw [hpool, hnext]; exact hqueue, ?_⟩
      exact h.tokens.turn h.queue (by rw [hphase]; rfl) hown hothers hnext (by rw [hpool]; exact hmarks)
    · exact h
  · next target waiter hphase =>
    split
    · have hmarked : ∀ w, waiter = some w →
          w ∈ s.pool.newConnectionWaiters ∨ s.pool.closed = true := by
        intro w hw
        exact h.tokens.marked i w (by rw [hphase, hw]; rfl)
      have hqueue : ConnectionPool.QueueOk cfg (s.nextToken + 1)
          (s.pool.reserveTurn cfg target waiter s.nextToken expired).1 :=
        h.queue.reserveTurn hmarked target expired
      have hmarks : ConnectionPool.TurnMarks s.pool
          (s.pool.reserveTurn cfg target waiter s.nextToken expired).1 waiter s.nextToken true
          (s.pool.reserveTurn cfg target waiter s.nextToken expired).2.waiting :=
        ConnectionPool.reserveTurn_turnMarks
      generalize s.pool.reserveTurn cfg target waiter s.nextToken expired = res at hqueue hmarks
      obtain ⟨q, outcome⟩ := res
      obtain ⟨hpool, hnext, hown, hothers⟩ :=
        afterReserve_spec (s := s.useToken.setPool q) i target outcome
      refine ⟨by rw [hpool, hnext]; exact hqueue, ?_⟩
      exact h.tokens.turn h.queue (by rw [hphase]; rfl) hown hothers hnext (by rw [hpool]; exact hmarks)
    · exact h
  · exact h

/-- Every event keeps the queue. -/
theorem QueueInv.step (h : QueueInv cfg s) (e : AdapterEvent ι κ) : QueueInv cfg (step cfg s e) := by
  by_cases hturn : ∃ i expired, e = .caller i (.turn expired)
  · obtain ⟨i, expired, rfl⟩ := hturn
    exact h.turn i expired
  · have hcalm : Calm cfg s (Adapter.step cfg s e) :=
      step_calm fun i expired he => hturn ⟨i, expired, he⟩
    exact ⟨hcalm.nextToken ▸ h.queue.upkeep hcalm.pool, h.tokens.calm hcalm⟩

/-- The queue in every state of a run. -/
theorem run_queueInv (evs : List (AdapterEvent ι κ)) : QueueInv cfg (Lib.run (step cfg) new evs) :=
  Lib.run_invariant .new (fun _ e h => h.step e) evs

/-! ## Blocked checkouts -/

/-- Nobody in the queue is about to run. -/
def Quiet (s : Adapter ι κ) : Prop := ∀ w ∈ s.pool.acquireWaiters, s.pool.asleep w = true

/-- The token of a caller that is blocked in `_checkout_connection`. -/
def BlockedCheckout (s : Adapter ι κ) (w : Token) : Prop :=
  s.pool.asleep w = true ∧ ∃ i, s.callers i = .checkout (some w)

/-- A prewarm reservation is at the head of the queue. -/
def PrewarmHead (s : Adapter ι κ) : Prop :=
  ∃ w, s.pool.acquireWaiters.head? = some w ∧ w ∈ s.pool.newConnectionWaiters

/-- In every reachable state in which nobody is about to run and a checkout is blocked, there is no
capacity left, and there is no idle connection exactly if none waits behind a prewarm reservation at
the head of the queue. Served and waiting callers are in the order in which they queued. -/
theorem blocked_checkout_iff (evs : List (AdapterEvent ι κ)) :
    let s := Lib.run (step cfg) (new : Adapter ι κ) evs
    ((s.pool.servedLog ++ s.pool.acquireWaiters).Sublist s.pool.queuedLog ∧ s.pool.queuedLog.Nodup)
      ∧ (s.Quiet → ∀ w, s.BlockedCheckout w →
        ((s.pool.idleConnections = [] ∧ (cfg.maxConnections : Int) ≤ s.pool.load)
          ↔ ¬ (s.PrewarmHead ∧ s.pool.idleConnections ≠ []))) := by
  intro s
  have hinv : QueueInv cfg s := run_queueInv evs
  refine ⟨⟨hinv.queue.order, hinv.queue.queued_nodup⟩, fun hquiet w hw => ?_⟩
  -- the head of the queue sleeps, so it cannot be served
  obtain ⟨v, hv⟩ : ∃ v, s.pool.acquireWaiters.head? = some v := by
    have hmem := hinv.queue.asleep_queued w hw.1
    cases hq : s.pool.acquireWaiters with
    | nil => rw [hq] at hmem; cases hmem
    | cons v rest => exact ⟨v, rfl⟩
  obtain ⟨hload, hidle⟩ := hinv.queue.head v hv (hquiet v (List.mem_of_head? hv))
  constructor
  · rintro ⟨hempty, -⟩ ⟨-, hne⟩
    exact hne hempty
  · intro hhead
    refine ⟨?_, hload⟩
    by_cases hnew : v ∈ s.pool.newConnectionWaiters
    · by_contra hne
      exact hhead ⟨⟨v, hv, hnew⟩, hne⟩
    · exact hidle hnew

end

/-- A pool of two connections. -/
def exampleConfig : AdapterConfig where
  maxConnections := 2
  maxIdleConnections := 2
  maxPendingAcquires := 256
  idleTtl := none
  maxLifetime := none
  streamResumeAttempts := 2
  activeStreamResume := true
  maxConnections_pos := by decide
  maxIdleConnections_le := by decide

/-- Callers 0 and 1 take both connections; a prewarm worker and then a checkout queue; caller 0 gives
its connection back, and the two that wait look at the pool again. -/
def prewarmFirst : List (AdapterEvent Nat Nat) :=
  [.caller 0 .checkout, .caller 0 (.turn false), .caller 0 (.dialOk 0),
    .caller 1 .checkout, .caller 1 (.turn false), .caller 1 (.dialOk 0),
    .caller 2 (.reserve 2), .caller 2 (.turn false),
    .caller 3 .checkout, .caller 3 (.turn false),
    .caller 0 (.release true none 0), .caller 2 (.turn false), .caller 3 (.turn false)]

/-- The connection stays idle, and the checkout stays blocked. -/
theorem idle_behind_prewarm :
    let s := Lib.run (step exampleConfig) new prewarmFirst
    s.Quiet ∧ s.BlockedCheckout 3 ∧ s.pool.idleConnections = [0] := by
  refine ⟨?_, ⟨by decide +kernel, 3, rfl⟩, by decide +kernel⟩
  show ∀ w ∈ _, _
  decide +kernel

end Adapter

end StreamingTts.Client
