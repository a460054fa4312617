import StreamingTts.Engine.Types
import StreamingTts.Lib.Mailbox
import StreamingTts.Lib.Transition

/-!
# The way of a result to its session

`_send_result`, `_process_step_output` and `_deliver_result_batch` of
`engine/backend/engine_loop.py`, as far as the asyncio loop goes. The engine thread schedules callbacks
with `call_soon_threadsafe`: one for each result sent between two steps, and one for the whole batch of
a step. The loop runs the callbacks in the order they were scheduled, and a callback puts its results
into the bounded queues of their sessions (`Session.result_queue`), from which each session's consumer
reads. Both kinds of put are `put_nowait`: a batch catches `QueueFull` item by item, and a direct put
leaves it to the loop's exception handler.

A queue is a `Lib.Mailbox`, so that what a session was ever given is `placed`.
-/

namespace StreamingTts.Engine

open Frontend (Text)
open Lib (Mailbox run)

/-- A callback on the asyncio loop. -/
inductive Callback
  /-- `_deliver_result_batch(items)` -/
  | batch (items : List (Nat × EngineResult))
  /-- `q.put_nowait(result)` -/
  | direct (queue : Nat) (result : EngineResult)
  deriving DecidableEq

/-- The puts of a callback, in order. -/
def Callback.items : Callback → List (Nat × EngineResult)
  | .batch items => items
  | .direct q result => [(q, result)]

/-- `_SESSION_RESULT_QUEUE_MAXSIZE`, unless the environment sets another one. -/
def sessionResultQueueMaxsize : Nat := 4096

/-- The asyncio side: the result queues, the callbacks that wait for the loop, and the log of the puts
that raised `QueueFull`. -/
structure ResultDelivery where
  queues : Nat → Mailbox EngineResult
  callbacks : List Callback
  dropped : List (Nat × EngineResult)

namespace ResultDelivery

/-- Before anything was sent. -/
def new : ResultDelivery where
  queues _ := .empty
  callbacks := []
  dropped := []

/-- What happens on the two threads. -/
inductive Event
  /-- `_process_step_output` ends with the results of its step -/
  | step (batch : List (Nat × EngineResult))
  /-- `_send_result` outside of a step -/
  | send (queue : Nat) (result : EngineResult)
  /-- the loop runs its next callback -/
  | callback
  /-- a consumer's `result_queue.get()` returns -/
  | get (queue : Nat)

variable (maxsize : Nat) (s : ResultDelivery)

/-- `q.put_nowait(result)`. -/
def putNowait (q : Nat) (result : EngineResult) : ResultDelivery :=
  match (s.queues q).put maxsize result with
  | some m => { s with queues := Function.update s.queues q m }
  | none => { s with dropped := s.dropped ++ [(q, result)] }

/-- `_deliver_result_batch`; the put of a direct send is a batch of one. -/
def deliverResultBatch (items : List (Nat × EngineResult)) : ResultDelivery :=
  items.foldl (fun s item => s.putNowait maxsize item.1 item.2) s

/-- `call_soon_threadsafe`. -/
def schedule (c : Callback) : ResultDelivery := { s with callbacks := s.callbacks ++ [c] }

/-- One event. An empty batch is not scheduled. -/
def step : ResultDelivery → Event → ResultDelivery
  | s, .step batch => if batch = [] then s else s.schedule (.batch batch)
  | s, .send q result => s.schedule (.direct q result)
  | s, .callback =>
      match s.callbacks with
      | [] => s
      | c :: rest => { s with callbacks := rest }.deliverResultBatch maxsize c.items
  | s, .get q => { s with queues := Function.update s.queues q (s.queues q).take }

/-! ## One queue by itself -/

/-- What one queue sees. -/
inductive QueueAct
  | put (result : EngineResult)
  | get

/-- A bounded queue by itself, with the results it had no room for: a put is taken when there is room
and lost when there is none, whatever the type of the result. -/
def QueueAct.fill : Mailbox EngineResult × List EngineResult → QueueAct →
    Mailbox EngineResult × List EngineResult
  | (m, lost), .put result =>
      if m.full maxsize then (m, lost ++ [result]) else (((m.put maxsize result).getD m), lost)
  | (m, lost), .get => (m.take, lost)

/-- The result of a put. -/
def QueueAct.put? : QueueAct → Option EngineResult
  | .put result => some result
  | .get => none

/-- Whether the act is a read. -/
def QueueAct.isGet : QueueAct → Bool
  | .put _ => false
  | .get => true

/-- The results for the queue `q`, of some results with their queues. -/
def forQueue (q : Nat) (items : List (Nat × EngineResult)) : List EngineResult :=
  items.filterMap fun item => if item.1 = q then some item.2 else none

/-- What an event sends to the queue `q`. -/
def Event.sends (q : Nat) : Event → List EngineResult
  | .step batch => forQueue q batch
  | .send q' result => forQueue q [(q', result)]
  | .callback | .get _ => []

/-- Everything that a run sends to the queue `q`, in the order sent. -/
def sentTo (q : Nat) (evs : List Event) : List EngineResult := evs.flatMap (Event.sends q)

/-- The number of reads of the queue `q` in a run. -/
def readsOf (q : Nat) (evs : List Event) : Nat :=
  evs.countP fun e => match e with
    | .get q' => q' = q
    | _ => false

/-- What still waits for the loop on its way to the queue `q`. -/
def pendingFor (q : Nat) : List EngineResult := forQueue q (s.callbacks.flatMap Callback.items)

/-- What was dropped on its way to the queue `q`. -/
def droppedFor (q : Nat) : List EngineResult := forQueue q s.dropped

/-- What an event does to the queue `q`, in the state it happens in. -/
def Event.acts (q : Nat) (s : ResultDelivery) : Event → List QueueAct
  | .callback =>
      match s.callbacks with
      | [] => []
      | c :: _ => (forQueue q c.items).map .put
  | .get q' => if q' = q then [.get] else []
  | .step _ | .send _ _ => []

/-- What a run does to the queue `q`. -/
def actsOf (q : Nat) : ResultDelivery → List Event → List QueueAct
  | _, [] => []
  | s, e :: evs => e.acts q s ++ actsOf q (step maxsize s e) evs

section
variable {maxsize : Nat} {s : ResultDelivery} {q : Nat}

@[simp] theorem forQueue_nil : forQueue q [] = [] := rfl

@[simp] theorem forQueue_append (xs ys : List (Nat × EngineResult)) :
    forQueue q (xs ++ ys) = forQueue q xs ++ forQueue q ys := by
  simp [forQueue]

/-- A put is what the queue by itself does, and no other queue sees it. -/
theorem putNowait_spec (q' : Nat) (result : EngineResult) :
    ((s.putNowait maxsize q' result).queues q, (s.putNowait maxsize q' result).droppedFor q)
      = ((forQueue q [(q', result)]).map QueueAct.put).foldl (QueueAct.fill maxsize)
          (s.queues q, s.droppedFor q) := by
  unfold putNowait
  by_cases hq : q' = q
  · subst hq
    cases hput : (s.queues q').put maxsize result with
    | none =>
        have hfull := Mailbox.put_eq_none.1 hput
        simp [forQueue, droppedFor, QueueAct.fill, hfull]
    | some m =>
        have hfull := (Mailbox.put_eq_some hput).1
        simp [forQueue, droppedFor, QueueAct.fill, hfull, hput]
  · cases hput : (s.queues q').put maxsize result with
    | none => simp [forQueue, droppedFor, hq]
    | some m => simp [forQueue, droppedFor, hq, Function.update_of_ne (Ne.symm hq)]

@[simp] theorem putNowait_callbacks (q' : Nat) (result : EngineResult) :
    (s.putNowait maxsize q' result).callbacks = s.callbacks := by
  unfold putNowait
  split <;> rfl

/-- A batch is delivered item by item: each queue sees its own items, in order. -/
theorem deliverResultBatch_spec (items : List (Nat × EngineResult)) :
    ((s.deliverResultBatch maxsize items).queues q, (s.deliverResultBatch maxsize items).droppedFor q)
      = ((forQueue q items).map QueueAct.put).foldl (QueueAct.fill maxsize)
          (s.queues q, s.droppedFor q) := by
  induction items generalizing s with
  | nil => rfl
  | cons item items ih =>
      have hitem : forQueue q (item :: items) = forQueue q [item] ++ forQueue q items :=
        forQueue_append [item] items
      rw [hitem, List.map_append, List.foldl_append, ← putNowait_spec item.1 item.2]
      exact ih

@[simp] theorem deliverResultBatch_callbacks (items : List (Nat × EngineResult)) :
    (s.deliverResultBatch maxsize items).callbacks = s.callbacks := by
  induction items generalizing s with
  | nil => rfl
  | cons item items ih => exact (ih (s := s.putNowait maxsize item.1 item.2)).trans (by simp)

/-- What an event does to a queue is what the queue by itself does with the event's acts. -/
theorem step_fill (e : Event) :
    ((step maxsize s e).queues q, (step maxsize s e).droppedFor q)
      = (e.acts q s).foldl (QueueAct.fill maxsize) (s.queues q, s.droppedFor q) := by
  cases e with
  | step batch => by_cases hb : batch = [] <;> simp [step, Event.acts, hb, schedule, droppedFor]
  | send q' result => rfl
  | callback =>
      cases hc : s.callbacks with
      | nil => simp [step, Event.acts, hc]
      | cons c rest =>
          simp only [step, Event.acts, hc]
          exact deliverResultBatch_spec c.items
  | get q' =>
      by_cases hq : q' = q
      · subst hq
        simp [step, Event.acts, QueueAct.fill, droppedFor]
      · simp [step, Event.acts, hq, droppedFor, Function.update_of_ne (Ne.symm hq)]

/-- What is on its way to a queue, and what an event adds to it, is put or still on its way. -/
theorem step_pending (e : Event) :
    (e.acts q s).filterMap QueueAct.put? ++ (step maxsize s e).pendingFor q
      = s.pendingFor q ++ e.sends q := by
  have hput (rs : List EngineResult) : (rs.map QueueAct.put).filterMap QueueAct.put? = rs := by
    simp [List.filterMap_map, Function.comp_def, QueueAct.put?]
  cases e with
  | step batch =>
      by_cases hb : batch = []
      · simp [step, hb, Event.acts, Event.sends]
      · simp [step, hb, Event.acts, Event.sends, pendingFor, schedule, Callback.items]
  | send q' result => simp [step, Event.acts, Event.sends, pendingFor, schedule, Callback.items]
  | callback =>
      cases hc : s.callbacks with
      | nil => simp [step, Event.acts, Event.sends, pendingFor, hc]
      | cons c rest => simp [step, Event.acts, Event.sends, pendingFor, hc, hput]
  | get q' =>
      by_cases hq : q' = q
      · simp [step, Event.acts, Event.sends, hq, QueueAct.put?, pendingFor]
      · simp [step, Event.acts, Event.sends, hq, pendingFor]

/-- A queue after a run is the queue by itself after its own acts. -/
theorem run_fill (evs : List Event) :
    ((run (step maxsize) s evs).queues q, (run (step maxsize) s evs).droppedFor q)
      = (actsOf maxsize q s evs).foldl (QueueAct.fill maxsize) (s.queues q, s.droppedFor q) := by
  induction evs generalizing s with
  | nil => rfl
  | cons e evs ih =>
      rw [Lib.run_cons, ih, actsOf, List.foldl_append, step_fill]

/-- The puts of a queue are the results sent to it, less those that still wait, in the order sent. -/
theorem run_pending (evs : List Event) :
    (actsOf maxsize q s evs).filterMap QueueAct.put? ++ (run (step maxsize) s evs).pendingFor q
      = s.pendingFor q ++ sentTo q evs := by
  induction evs generalizing s with
  | nil => simp [actsOf, sentTo]
  | cons e evs ih =>
      have hsent : sentTo q (e :: evs) = e.sends q ++ sentTo q evs := rfl
      rw [Lib.run_cons, actsOf, List.filterMap_append, List.append_assoc, ih, hsent,
        ← List.append_assoc, step_pending, List.append_assoc]

/-- A queue by itself only ever loses more. -/
theorem fill_lost (maxsize : Nat) (acts : List QueueAct) (m : Mailbox EngineResult) (lost : List EngineResult) :
    lost <+: (acts.foldl (QueueAct.fill maxsize) (m, lost)).2 := by
  induction acts generalizing m lost with
  | nil => exact List.prefix_refl lost
  | cons act acts ih =>
      cases act with
      | get => exact ih _ _
      | put result =>
          rw [List.foldl_cons, QueueAct.fill]
          split
          · exact (List.prefix_append lost [result]).trans (ih _ _)
          · exact ih _ _

/-- A queue by itself that lost nothing was given every put, in order. -/
theorem fill_placed {acts : List QueueAct} {m : Mailbox EngineResult}
    (h : (acts.foldl (QueueAct.fill maxsize) (m, [])).2 = []) :
    (acts.foldl (QueueAct.fill maxsize) (m, [])).1.placed
      = m.placed ++ acts.filterMap QueueAct.put? := by
  induction acts generalizing m with
  | nil => simp
  | cons act acts ih =>
      cases act with
      | get =>
          rw [List.foldl_cons, QueueAct.fill] at h ⊢
          rw [ih h, List.filterMap_cons_none rfl, Mailbox.take_placed]
      | put result =>
          rw [List.foldl_cons, QueueAct.fill] at h ⊢
          split at h
          · next hfull =>
            have hlost := fill_lost maxsize acts m [result]
            rw [List.nil_append] at h
            rw [h] at hlost
            cases List.prefix_nil.1 hlost
          · next hfull =>
            rw [if_neg hfull]
            obtain ⟨m', hm'⟩ := Mailbox.exists_put result (Bool.eq_false_iff.2 hfull)
            rw [hm', Option.getD_some] at h ⊢
            rw [ih h, (Mailbox.put_eq_some hm').2.1]
            simp [QueueAct.put?]

/-- A queue by itself takes as many puts as it has room for. -/
theorem fill_puts (maxsize : Nat) (rs : List EngineResult) {m : Mailbox EngineResult} (lost : List EngineResult)
    (h : m.size + rs.length ≤ maxsize) :
    ∃ m', (rs.map QueueAct.put).foldl (QueueAct.fill maxsize) (m, lost) = (m', lost)
      ∧ m'.placed = m.placed ++ rs ∧ m'.size = m.size + rs.length := by
  induction rs generalizing m with
  | nil => exact ⟨m, rfl, by simp, rfl⟩
  | cons r rs ih =>
      rw [List.length_cons] at h
      have hroom : m.full maxsize = false := by
        simp only [Mailbox.full, Bool.and_eq_false_iff, decide_eq_false_iff_not]
        omega
      obtain ⟨m₁, hm₁⟩ := Mailbox.exists_put r hroom
      obtain ⟨-, hplaced, hsize⟩ := Mailbox.put_eq_some hm₁
      obtain ⟨m', hfold, hplaced', hsize'⟩ := ih (m := m₁) (by omega)
      refine ⟨m', ?_, ?_, ?_⟩
      · rw [List.map_cons, List.foldl_cons, QueueAct.fill, if_neg (by simp [hroom]), hm₁]
        exact hfold
      · rw [hplaced', hplaced, List.append_assoc]
        rfl
      · rw [hsize', hsize, List.length_cons]
        omega

end

/-! ## What a session receives -/

/-- In every run, each session's queue is what it would be by itself: its results are put in the order
they were sent, each one is taken when the queue has room and dropped when it has none, and no other
queue has a say. A session none of whose results met a full queue is given all of them. -/
theorem result_delivery (maxsize : Nat) (evs : List Event) (q : Nat) :
    let s := run (step maxsize) new evs
    let acts := actsOf maxsize q new evs
    acts.filterMap QueueAct.put? ++ s.pendingFor q = sentTo q evs
      ∧ (s.queues q, s.droppedFor q) = acts.foldl (QueueAct.fill maxsize) (.empty, [])
      ∧ (s.droppedFor q = [] → (s.queues q).placed ++ s.pendingFor q = sentTo q evs) := by
  intro s acts
  have hpending : acts.filterMap QueueAct.put? ++ s.pendingFor q = sentTo q evs :=
    run_pending (s := new) evs
  have hfill : (s.queues q, s.droppedFor q) = acts.foldl (QueueAct.fill maxsize) (.empty, []) :=
    run_fill (s := new) evs
  refine ⟨hpending, hfill, fun hdrop => ?_⟩
  have hlost : (acts.foldl (QueueAct.fill maxsize) (.empty, [])).2 = [] := by
    rw [← hfill]
    exact hdrop
  have hplaced := fill_placed hlost
  rw [← hfill] at hplaced
  rw [hplaced, ← hpending]
  rfl

/-- A step fills an empty queue to the brim: the next result, of whatever type, is dropped. -/
theorem drops_behind_full_batch (n : Nat) (chunk last : EngineResult) (hne : last ≠ chunk) :
    let s := run (step (n + 1)) new
      [.step (List.replicate (n + 1) (0, chunk)), .send 0 last, .callback, .callback]
    s.droppedFor 0 = [last] ∧ last ∉ (s.queues 0).placed ∧ s.callbacks = [] := by
  intro s
  have hitems : forQueue 0 (List.replicate (n + 1) (0, chunk)) = List.replicate (n + 1) chunk :=
    List.filterMap_replicate_of_some (by simp)
  have hbatch : List.replicate (n + 1) (0, chunk) ≠ [] := by simp
  have hacts : actsOf (n + 1) 0 new
      [.step (List.replicate (n + 1) (0, chunk)), .send 0 last, .callback, .callback]
      = (List.replicate (n + 1) chunk).map QueueAct.put ++ [.put last] := by
    simp only [actsOf, Event.acts, step, if_neg hbatch, new, schedule, Callback.items,
      List.nil_append, List.singleton_append, List.append_nil, hitems, deliverResultBatch_callbacks]
    simp [forQueue]
  have hfill : (s.queues 0, s.droppedFor 0) = _ := run_fill (s := new) _
  obtain ⟨m, hfold, hplaced, hsize⟩ :=
    fill_puts (n + 1) (List.replicate (n + 1) chunk) (m := .empty) [] (by simp)
  have hfull : m.full (n + 1) = true := by
    rw [List.length_replicate, Mailbox.empty_size] at hsize
    simp [Mailbox.full, hsize]
  rw [hacts, List.foldl_append] at hfill
  change (s.queues 0, s.droppedFor 0) = List.foldl _ (List.foldl _ (.empty, []) _) _ at hfill
  rw [hfold, List.foldl_cons, QueueAct.fill, if_pos hfull, List.foldl_nil, Prod.mk.injEq] at hfill
  refine ⟨hfill.2, ?_, ?_⟩
  · rw [hfill.1, hplaced]
    simpa using hne
  · simp only [s, run, List.foldl_cons, List.foldl_nil, step, if_neg hbatch, new, schedule,
      List.nil_append, List.singleton_append, deliverResultBatch_callbacks]

/-- A queue of the default size that a step fills with audio: the `SESSION_DONE` behind it is dropped,
and the consumer that has read all of the audio waits for nothing. -/
theorem sessionDone_dropped :
    let chunk : EngineResult := ⟨"s".toList, 0, .audioChunk [0, 0, 128, 63]⟩
    let done : EngineResult := ⟨"s".toList, 0, .sessionDone false none⟩
    let s := run (step sessionResultQueueMaxsize) new
      [.step (List.replicate sessionResultQueueMaxsize (0, chunk)), .send 0 done, .callback, .callback]
    s.droppedFor 0 = [done] ∧ done ∉ (s.queues 0).placed ∧ s.callbacks = [] := by
  intro chunk done
  have hsize : sessionResultQueueMaxsize = 4095 + 1 := rfl
  rw [hsize]
  exact drops_behind_full_batch 4095 chunk done (by decide)

end ResultDelivery

end StreamingTts.Engine
