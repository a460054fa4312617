import StreamingTts.Gateway.RealtimeConnection

/-!
# A rejected `response.create`

`_create_response` takes the pending input out of the connection before it asks the other components.
So a rejection leaves the connection as it was if it comes before that, or if nothing was pending; and
once the logical session is registered and attached, a text or an end of input that raises leaves it so,
with an attachment that no handler of the connection knows of.
-/

namespace StreamingTts.Gateway

open Session

namespace Realtime

namespace Connection

/-- The call has left nothing behind: the pending input and the active response are as before, and no
logical session that the call created is registered with an attachment. -/
structure LeavesNothing (s s' : Connection) (registry registry' : Option Registry) : Prop where
  conversationText : s'.conversationText = s.conversationText
  buffer : s'.buffer = s.buffer
  active : s'.active = s.active
  registry : ∀ r r', registry = some r → registry' = some r' →
    ∀ id token, r.created ≤ id → id < r'.created → r'.registered token = some id →
      (r'.slots id).session.ledger.attachment = none

/-- A rejected `response.create` changes nothing. -/
def RejectionHarmless (s : Connection) (response : Option ResponseOptions) (fingerprint : String)
    (registry : Option Registry) (answers : Answers) : Prop :=
  ∀ e s' registry', s.createResponse response fingerprint registry answers = (.error e, s', registry') →
    LeavesNothing s s' registry registry'

/-- There is input that the next response takes along. -/
def Pending (s : Connection) : Prop :=
  s.conversationText ≠ [] ∨ s.buffer.chunks ≠ [] ∨ s.buffer.committed = true

/-- The event is rejected before the input is taken: a response is under way, or the options are no
object or have an invalid `input`. -/
def RefusedEarly (s : Connection) (response : Option ResponseOptions) : Prop :=
  s.responding = true ∨ response = none
    ∨ ∃ options e, response = some options ∧ textFromResponseInput options.input = .error e

/-- A session for a valid new token is registered and attached. -/
def Attaches (options : ResponseOptions) (registry : Option Registry) (answers : Answers) : Prop :=
  answers.configValid = true ∧ ∃ token r, options.resumeToken = some token ∧ token ≠ ""
    ∧ registry = some r ∧ 16 ≤ token.length ∧ r.registered token = none ∧ answers.starts = true
    ∧ answers.attaches = true

/-- The call gets by everything that can reject it before a session is attached. -/
def Passes (options : ResponseOptions) (registry : Option Registry) (answers : Answers) : Prop :=
  (answers.configValid = true ∧ options.resumeToken = some "") ∨ Attaches options registry answers

/-- A text of the initial input or its end raises. -/
def FillFails (s : Connection) (explicitText : String) (answers : Answers) : Prop :=
  (∃ i text, (s.initialChunks explicitText)[i]? = some text
      ∧ (text = "" ∨ answers.pushes (i + 1) = false))
    ∨ (s.commitRequested explicitText = true ∧ answers.completes = false)

/-! ## The initial input of a logical session -/

section
variable {handle : SessionHandle} {seq : Nat} {text : String}

/-- A logical session with its first `n` texts. -/
structure Filled (n : Nat) (handle : SessionHandle) : Prop where
  execution : ∃ e, handle.execution = some e
  next : handle.nextSeq = n + 1
  unused : ∀ i : Int, n < i → handle.acceptedText i = none
  isOpen : handle.InputOpen

theorem started_filled : Filled 0 .started := ⟨⟨_, rfl⟩, rfl, fun _ _ => rfl, rfl, rfl⟩

/-- The next text is taken if it is not empty and its push returns. -/
theorem Filled.append {n : Nat} (h : Filled n handle) (text : String) (pushes : Bool) :
    (text ≠ "" ∧ pushes = true → ∃ ack handle', handle.appendText ⟨(n + 1 : Nat), text⟩ (!pushes)
      = (.ok ack, handle') ∧ Filled (n + 1) handle')
    ∧ (text = "" ∨ pushes = false → ∃ e handle',
      handle.appendText ⟨(n + 1 : Nat), text⟩ (!pushes) = (.error e, handle')) := by
  obtain ⟨⟨e, he⟩, hnext, hunused, hopen⟩ := h
  have hnew : handle.acceptedText ((n + 1 : Nat) : Int) = none := hunused _ (by omega)
  have haccepts (htext : text ≠ "") : handle.AcceptsText ⟨(n + 1 : Nat), text⟩ :=
    ⟨by simp only; omega, htext, hopen, hnew, by simp only; omega⟩
  constructor
  · rintro ⟨htext, rfl⟩
    obtain ⟨-, hok⟩ := SessionHandle.appendText_of_accepts (haccepts htext) he
    refine ⟨_, _, hok, ⟨⟨_, rfl⟩, ?_, ?_, hopen⟩⟩
    · show handle.nextSeq + 1 = _
      rw [hnext]
      push_cast
      rfl
    · intro i hi
      show Function.update handle.acceptedText ((n + 1 : Nat) : Int) (some text) i = none
      rw [Function.update_of_ne (by push_cast at hi ⊢; omega)]
      exact hunused i (by push_cast at hi; omega)
  · intro hfails
    by_cases htext : text = ""
    · have hempty : handle.appendText ⟨(n + 1 : Nat), text⟩ (!pushes)
          = (.error (.protocol ⟨.emptyText, "text must not be empty"⟩), handle) := by
        unfold SessionHandle.appendText
        rw [if_neg (by simp only; omega), if_pos htext]
      exact ⟨_, _, hempty⟩
    · have hraises : pushes = false := by
        rcases hfails with hempty | hraises
        · exact absurd hempty htext
        · exact hraises
      obtain ⟨herror, -⟩ := SessionHandle.appendText_of_accepts (haccepts htext) he
      rw [hraises]
      exact ⟨_, _, herror⟩

/-- The initial chunks are taken if none of them is empty and every push returns. -/
theorem appendInitial_iff (pushes : Nat → Bool) (chunks : List String) {n : Nat} (h : Filled n handle) :
    (∃ handle', appendInitial pushes (n + 1) chunks handle = .ok handle'
        ∧ Filled (n + chunks.length) handle'
        ∧ ∀ i text, chunks[i]? = some text → text ≠ "" ∧ pushes (n + i + 1) = true)
      ∨ ((∃ e, appendInitial pushes (n + 1) chunks handle = .error e)
        ∧ ∃ i text, chunks[i]? = some text ∧ (text = "" ∨ pushes (n + i + 1) = false)) := by
  induction chunks generalizing n handle with
  | nil => exact .inl ⟨handle, rfl, h, fun i text hi => nomatch hi⟩
  | cons text chunks ih =>
      obtain ⟨htaken, hraises⟩ := h.append text (pushes (n + 1))
      by_cases hfirst : text ≠ "" ∧ pushes (n + 1) = true
      · obtain ⟨ack, handle', happend, hfilled⟩ := htaken hfirst
        have hnext : appendInitial pushes (n + 1) (text :: chunks) handle
            = appendInitial pushes (n + 1 + 1) chunks handle' := by
          simp only [appendInitial]
          rw [happend]
        rcases ih hfilled with ⟨handle'', hok, hfilled', hall⟩ | ⟨⟨e, herror⟩, i, text', hi, hbad⟩
        · refine .inl ⟨handle'', hnext.trans hok, ?_, ?_⟩
          · rw [List.length_cons, show n + (chunks.length + 1) = n + 1 + chunks.length by omega]
            exact hfilled'
          · intro i text' hi
            cases i with
            | zero =>
                cases hi
                exact hfirst
            | succ i =>
                rw [List.getElem?_cons_succ] at hi
                rw [show n + (i + 1) + 1 = n + 1 + i + 1 by omega]
                exact hall i text' hi
        · refine .inr ⟨⟨e, hnext.trans herror⟩, i + 1, text', ?_, ?_⟩
          · rw [List.getElem?_cons_succ]
            exact hi
          · rw [show n + (i + 1) + 1 = n + 1 + i + 1 by omega]
            exact hbad
      · have hbad : text = "" ∨ pushes (n + 1) = false := by
          by_cases htext : text = ""
          · exact .inl htext
          · exact .inr (by simpa using fun hp => hfirst ⟨htext, hp⟩)
        obtain ⟨e, handle', herror⟩ := hraises hbad
        refine .inr ⟨⟨e, ?_⟩, 0, text, rfl, hbad⟩
        simp only [appendInitial]
        rw [herror]

/-- The end of the initial input raises if it is asked for and does not return. -/
theorem completeInitial_iff {n : Nat} (h : Filled n handle) (completes commitRequested : Bool) :
    (∃ e, completeInitial completes commitRequested handle = .error e)
      ↔ commitRequested = true ∧ completes = false := by
  obtain ⟨⟨e, he⟩, hnext, -, hopen⟩ := h
  unfold completeInitial
  cases commitRequested with
  | false => simp
  | true =>
      have hfinal : ¬ handle.acceptedTextSeq < 0 := by
        unfold SessionHandle.acceptedTextSeq
        omega
      have hcomplete : handle.completeInput ⟨handle.acceptedTextSeq⟩ (!completes)
          = if completes then (.ok ⟨handle.acceptedTextSeq, false⟩,
              { handle with inputComplete := true, execution := some { e with completed := true } })
            else (.error .execution, { handle with inputComplete := true }) := by
        unfold SessionHandle.completeInput
        rw [if_neg hfinal, if_neg (by simp [hopen.2]), SessionHandle.ensureInputOpen_of_open hopen he]
        simp only [SessionHandle.acceptedTextSeq, ne_eq, not_true_eq_false, if_false]
        cases completes <;> rfl
      rw [hcomplete]
      cases completes <;> simp

end

/-- The logical session gets the initial input unless a part of it raises. -/
theorem fillSession_error_iff (s : Connection) (explicitText : String) (answers : Answers) :
    (∃ e, s.fillSession explicitText answers = .error e) ↔ s.FillFails explicitText answers := by
  have happend := appendInitial_iff answers.pushes (s.initialChunks explicitText) started_filled
  simp only [Nat.zero_add] at happend
  unfold fillSession FillFails
  rcases happend with ⟨handle, hok, hfilled, hall⟩ | ⟨⟨e, herror⟩, hbad⟩
  · have hcomplete := completeInitial_iff hfilled answers.completes (s.commitRequested explicitText)
    rw [hok]
    dsimp only
    constructor
    · rintro ⟨e, he⟩
      refine .inr (hcomplete.1 ?_)
      split at he
      · next e' he' => exact ⟨e', he'⟩
      · cases he
    · rintro (⟨i, text, hi, htext | hpush⟩ | hend)
      · exact absurd htext (hall i text hi).1
      · rw [(hall i text hi).2] at hpush
        cases hpush
      · obtain ⟨e, he⟩ := hcomplete.2 hend
        rw [he]
        exact ⟨_, rfl⟩
  · rw [herror]
    exact ⟨fun _ => .inl hbad, fun _ => ⟨_, rfl⟩⟩

/-! ## The logical session of the call -/

section
variable {r : Registry} {token fingerprint protocol : String} {answers : Answers}

/-- The registry with a session for a new token. -/
def claimed (r : Registry) (token fingerprint protocol : String) : Registry :=
  { r with
    slots := Function.update r.slots r.created
      ⟨.init r.limits token fingerprint protocol, true, 0, []⟩
    created := r.created + 1
    registered := Function.update r.registered token (some r.created) }

theorem claimStart_new (htoken : token ≠ "") (hnew : r.registered token = none) :
    r.claimStart token fingerprint protocol
      = (.ok (r.created, true), claimed r token fingerprint protocol) := by
  unfold Registry.claimStart
  rw [if_neg htoken, hnew]
  rfl

/-- The session of a new token, initialized. -/
theorem claimed_initialized (r : Registry) (token fingerprint protocol : String) (ok : Bool) :
    let r' := (claimed r token fingerprint protocol).initialized r.created ok
    r'.created = r.created + 1
      ∧ (r'.slots r.created).session.ledger = .init r.limits
      ∧ (ok = true → r'.registered token = some r.created
        ∧ r'.slots r.created
          = ⟨(LogicalSession.init r.limits token fingerprint protocol).initializeWith true, true, 0,
            []⟩) := by
  have hslot : (claimed r token fingerprint protocol).slots r.created
      = ⟨.init r.limits token fingerprint protocol, true, 0, []⟩ := Function.update_self ..
  have hregistered : (claimed r token fingerprint protocol).registered token = some r.created :=
    Function.update_self ..
  intro r'
  have hr' : r' = (claimed r token fingerprint protocol).initialized r.created ok := rfl
  unfold Registry.initialized at hr'
  rw [hslot] at hr'
  dsimp only at hr'
  rw [if_pos ⟨rfl, rfl⟩] at hr'
  cases ok with
  | true =>
      rw [if_pos rfl] at hr'
      rw [hr']
      refine ⟨rfl, ?_, fun _ => ⟨hregistered, ?_⟩⟩
      · rw [Registry.setSlot_slots, Function.update_self]
        rfl
      · rw [Registry.setSlot_slots, Function.update_self]
  | false =>
      rw [if_neg Bool.false_ne_true] at hr'
      refine ⟨?_, ?_, fun h => nomatch h⟩
      · rw [hr']
        unfold Registry.remove
        dsimp only
        split <;> rfl
      · rw [hr']
        unfold Registry.remove
        dsimp only
        split
        · simp only [Registry.setSession, Registry.setSlot_slots, Function.update_self]
          rfl
        · rw [Registry.setSlot_slots, Function.update_self]
          rfl

/-- A session for a new token is registered and attached. -/
theorem claimSession_attaches (fingerprint protocol : String) (htoken : token ≠ "")
    (hnew : r.registered token = none)
    (hstarts : answers.starts = true) (hattaches : answers.attaches = true) :
    ∃ r', claimSession r token fingerprint protocol answers = (.ok (), r')
      ∧ r'.created = r.created + 1 ∧ r'.registered token = some r.created
      ∧ (r'.slots r.created).session.ledger.attachment = some 1 := by
  obtain ⟨hcreated, -, hready⟩ :=
    claimed_initialized r token fingerprint protocol true
  obtain ⟨hregistered, hslot⟩ := hready rfl
  simp only [claimSession, claimStart_new htoken hnew, hstarts, hattaches, Bool.not_true,
    Bool.false_eq_true, if_false]
  refine ⟨_, rfl, ?_⟩
  unfold Registry.attach
  rw [hslot]
  dsimp only
  rw [if_pos ⟨rfl, rfl, rfl⟩]
  refine ⟨hcreated, hregistered, ?_⟩
  rw [Registry.setSlot_slots, Function.update_self]
  rfl

/-- A session is attached for new tokens only. -/
theorem claimSession_ok {u : Unit} {r' : Registry} (htoken : token ≠ "")
    (h : claimSession r token fingerprint protocol answers = (.ok u, r')) :
    r.registered token = none ∧ answers.starts = true ∧ answers.attaches = true := by
  unfold claimSession at h
  cases hregistered : r.registered token with
  | some old =>
      rw [Registry.claimStart, if_neg htoken, hregistered] at h
      dsimp only at h
      split at h
      · cases h
      · cases h
      · next heq =>
        split at heq
        · cases heq
        · cases heq
  | none =>
      rw [claimStart_new htoken hregistered] at h
      dsimp only at h
      split at h
      · cases h
      · next hstarts =>
        split at h
        · cases h
        · next hattaches =>
          exact ⟨rfl, by simpa using hstarts, by simpa using hattaches⟩

/-- A call that is rejected before the attach leaves no attachment of a session it created. -/
theorem claimSession_refused {e : CreateError} {r' : Registry}
    (h : claimSession r token fingerprint protocol answers = (.error e, r')) (id : Nat)
    (hid : r.created ≤ id) (hcreated : id < r'.created) :
    (r'.slots id).session.ledger.attachment = none := by
  unfold claimSession at h
  by_cases htoken : token = ""
  · rw [Registry.claimStart, if_pos htoken] at h
    cases h
    omega
  · cases hregistered : r.registered token with
    | some old =>
        rw [Registry.claimStart, if_neg htoken, hregistered] at h
        dsimp only at h
        split at h
        · next heq =>
          split at heq
          · cases heq
            cases h
            omega
          · cases heq
        · next heq =>
          split at heq
          · cases heq
          · cases heq
            cases h
            exact absurd hcreated (Nat.not_lt.2 hid)
        · next heq =>
          split at heq
          · cases heq
          · cases heq
    | none =>
        rw [claimStart_new htoken hregistered] at h
        dsimp only at h
        obtain ⟨hmade, hledger, -⟩ := claimed_initialized r token fingerprint protocol answers.starts
        have hnone (heq : r' = (claimed r token fingerprint protocol).initialized r.created
            answers.starts) : (r'.slots id).session.ledger.attachment = none := by
          obtain rfl : id = r.created := by
            rw [heq, hmade] at hcreated
            omega
          rw [heq, hledger]
          rfl
        split at h
        · exact hnone (Prod.mk.inj h).2.symm
        · split at h
          · exact hnone (Prod.mk.inj h).2.symm
          · cases h

end

/-! ## Which rejections are harmless -/

section
variable {s : Connection} {response : Option ResponseOptions} {fingerprint : String}
  {registry : Option Registry} {answers : Answers}

/-- Taking the input changes nothing if and only if nothing is pending. -/
theorem taken_eq_iff (s : Connection) :
    (s.taken.conversationText = s.conversationText ∧ s.taken.buffer = s.buffer) ↔ ¬ s.Pending := by
  obtain ⟨conversationText, ⟨chunks, committed, next, accepted⟩, active, past⟩ := s
  simp only [taken, Pending, TextBuffer.mk.injEq, and_true, not_or, ne_eq, not_not,
    Bool.not_eq_true]
  constructor
  · rintro ⟨htext, hchunks, hcommitted⟩
    exact ⟨htext.symm, hchunks.symm, hcommitted.symm⟩
  · rintro ⟨htext, hchunks, hcommitted⟩
    exact ⟨htext.symm, hchunks.symm, hcommitted.symm⟩

/-- A session for the token can be registered and attached. -/
def Claims (token : String) (registry : Option Registry) (answers : Answers) : Prop :=
  ∃ r, registry = some r ∧ 16 ≤ token.length ∧ r.registered token = none ∧ answers.starts = true
    ∧ answers.attaches = true

/-- How the part behind the resume token comes out. -/
theorem createResumable_cases (s : Connection) (explicitText fingerprint : String)
    (registry : Option Registry) (answers : Answers) {token : String} (hne : token ≠ "") :
    (Claims token registry answers ∧ ∃ r r', registry = some r ∧ r'.created = r.created + 1
        ∧ r'.registered token = some r.created
        ∧ (r'.slots r.created).session.ledger.attachment = some 1
        ∧ ((¬ s.FillFails explicitText answers
            ∧ ∃ s', s.createResumable s.taken explicitText token fingerprint registry answers
              = (.ok (), s', some r'))
          ∨ (s.FillFails explicitText answers
            ∧ ∃ e, s.createResumable s.taken explicitText token fingerprint registry answers
              = (.error e, s.taken, some r'))))
      ∨ (¬ Claims token registry answers
        ∧ ∃ e registry', s.createResumable s.taken explicitText token fingerprint registry answers
            = (.error e, s.taken, registry')
          ∧ ∀ r r', registry = some r → registry' = some r' → ∀ id, r.created ≤ id → id < r'.created →
            (r'.slots id).session.ledger.attachment = none) := by
  unfold createResumable
  cases registry with
  | none =>
      refine .inr ⟨?_, _, none, rfl, fun r r' hr => nomatch hr⟩
      rintro ⟨r, hr, -⟩
      cases hr
  | some r =>
      dsimp only
      by_cases hshort : token.length < 16
      · rw [if_pos hshort]
        refine .inr ⟨?_, _, some r, rfl, ?_⟩
        · rintro ⟨r', -, hlong, -⟩
          omega
        · rintro _ _ ⟨⟩ ⟨⟩ id hid hlt
          exact absurd hlt (Nat.not_lt.2 hid)
      · rw [if_neg hshort]
        cases hclaim : claimSession r token fingerprint "openai-realtime-v1" answers with
        | mk result r' =>
            cases result with
            | error e =>
                refine .inr ⟨?_, e, some r', rfl, ?_⟩
                · rintro ⟨_, ⟨⟩, -, hnew, hstarts, hattaches⟩
                  obtain ⟨r'', hok, -⟩ :=
                    claimSession_attaches fingerprint "openai-realtime-v1" hne hnew hstarts hattaches
                  rw [hclaim] at hok
                  cases hok
                · rintro _ _ ⟨⟩ ⟨⟩ id hid hlt
                  exact claimSession_refused hclaim id hid hlt
            | ok u =>
                obtain ⟨hnew, hstarts, hattaches⟩ := claimSession_ok hne hclaim
                obtain ⟨r'', hok, hcreated, hregistered, hattached⟩ :=
                  claimSession_attaches fingerprint "openai-realtime-v1" hne hnew hstarts hattaches
                obtain rfl : r'' = r' := (Prod.mk.inj (hok.symm.trans hclaim)).2
                refine .inl ⟨⟨r, rfl, Nat.not_lt.1 hshort, hnew, hstarts, hattaches⟩, r, r'', rfl,
                  hcreated, hregistered, hattached, ?_⟩
                have hfill := s.fillSession_error_iff explicitText answers
                dsimp only
                cases hsession : s.fillSession explicitText answers with
                | error e => exact .inr ⟨hfill.1 ⟨e, hsession⟩, e, rfl⟩
                | ok response =>
                    refine .inl ⟨?_, _, rfl⟩
                    intro hfails
                    obtain ⟨e, he⟩ := hfill.2 hfails
                    rw [hsession] at he
                    cases he

/-- How a call that is not rejected early comes out. -/
theorem createResponse_cases (fingerprint : String) (registry : Option Registry) (answers : Answers)
    {options : ResponseOptions} {explicitText : String}
    (hidle : s.responding = false) (hinput : textFromResponseInput options.input = .ok explicitText) :
    (Passes options registry answers
        ∧ ((∃ s' registry', s.createResponse (some options) fingerprint registry answers
              = (.ok (), s', registry')
            ∧ ¬ (Attaches options registry answers ∧ s.FillFails explicitText answers))
          ∨ (Attaches options registry answers ∧ s.FillFails explicitText answers
            ∧ ∃ e r r' token, registry = some r ∧ r'.created = r.created + 1
              ∧ r'.registered token = some r.created
              ∧ (r'.slots r.created).session.ledger.attachment = some 1
              ∧ s.createResponse (some options) fingerprint registry answers
                = (.error e, s.taken, some r'))))
      ∨ (¬ Passes options registry answers
        ∧ ∃ e registry', s.createResponse (some options) fingerprint registry answers
            = (.error e, s.taken, registry')
          ∧ ∀ r r', registry = some r → registry' = some r' → ∀ id, r.created ≤ id → id < r'.created →
            (r'.slots id).session.ledger.attachment = none) := by
  have hsame : ∀ r r' : Registry, registry = some r → registry = some r' → ∀ id, r.created ≤ id →
      id < r'.created → (r'.slots id).session.ledger.attachment = none := by
    intro r r' hr hr' id hid hlt
    cases hr.symm.trans hr'
    exact absurd hlt (Nat.not_lt.2 hid)
  unfold createResponse
  rw [if_neg (by rw [hidle]; exact Bool.false_ne_true)]
  dsimp only
  rw [hinput]
  dsimp only
  cases hconfig : answers.configValid with
  | false =>
      refine .inr ⟨?_, _, _, rfl, hsame⟩
      rintro (⟨hvalid, -⟩ | ⟨hvalid, -⟩)
      · rw [hconfig] at hvalid
        cases hvalid
      · rw [hconfig] at hvalid
        cases hvalid
  | true =>
      rw [Bool.not_true, if_neg Bool.false_ne_true]
      cases htoken : options.resumeToken with
      | none =>
          refine .inr ⟨?_, _, _, rfl, hsame⟩
          rintro (⟨-, hempty⟩ | ⟨-, token, r, hsome, -⟩)
          · rw [htoken] at hempty
            cases hempty
          · rw [htoken] at hsome
            cases hsome
      | some token =>
          dsimp only
          by_cases hempty : token = ""
          · rw [if_pos hempty]
            refine .inl ⟨.inl ⟨hconfig, by rw [htoken, hempty]⟩, .inl ⟨_, _, rfl, ?_⟩⟩
            rintro ⟨⟨-, token', r, hsome, hne, -⟩, -⟩
            rw [htoken] at hsome
            exact hne ((Option.some.inj hsome).symm.trans hempty)
          · rw [if_neg hempty]
            have hiff : Attaches options registry answers ↔ Claims token registry answers := by
              constructor
              · rintro ⟨-, token', r, hsome, -, hr, hlong, hnew, hstarts, hattaches⟩
                obtain rfl : token = token' := by
                  rw [htoken] at hsome
                  exact Option.some.inj hsome
                exact ⟨r, hr, hlong, hnew, hstarts, hattaches⟩
              · rintro ⟨r, hr, hlong, hnew, hstarts, hattaches⟩
                exact ⟨hconfig, token, r, htoken, hempty, hr, hlong, hnew, hstarts, hattaches⟩
            have hpasses : Passes options registry answers ↔ Claims token registry answers := by
              constructor
              · rintro (⟨-, hnone⟩ | hattaches)
                · rw [htoken] at hnone
                  exact absurd (Option.some.inj hnone) hempty
                · exact hiff.1 hattaches
              · exact fun hclaims => .inr (hiff.2 hclaims)
            rcases createResumable_cases s explicitText fingerprint registry answers hempty with
              ⟨hclaims, r, r', hr, hcreated, hregistered, hattached, hcase⟩ | ⟨hrefused, hcase⟩
            · refine .inl ⟨hpasses.2 hclaims, ?_⟩
              rcases hcase with ⟨hfills, s', hok⟩ | ⟨hfails, e, herror⟩
              · exact .inl ⟨s', some r', hok, fun h => hfills h.2⟩
              · exact .inr ⟨hiff.2 hclaims, hfails, e, r, r', token, hr, hcreated, hregistered,
                  hattached, herror⟩
            · exact .inr ⟨fun h => hrefused (hpasses.1 h), hcase⟩

/-- A rejected `response.create` changes nothing if and only if it is rejected before the input is taken,
or else whatever rejects it before a session is attached finds no input pending and, behind the attach,
the initial input goes through. -/
theorem rejection_harmless_iff (s : Connection) (response : Option ResponseOptions)
    (fingerprint : String) (registry : Option Registry) (answers : Answers) :
    RejectionHarmless s response fingerprint registry answers ↔
      RefusedEarly s response ∨ ∃ options explicitText, response = some options
        ∧ textFromResponseInput options.input = .ok explicitText
        ∧ (Passes options registry answers ∨ ¬ s.Pending)
        ∧ ¬ (Attaches options registry answers ∧ s.FillFails explicitText answers) := by
  have hunchanged (registry : Option Registry) : LeavesNothing s s registry registry := by
    refine ⟨rfl, rfl, rfl, ?_⟩
    intro r r' hr hr' id token hid hlt
    cases hr.symm.trans hr'
    exact absurd hlt (Nat.not_lt.2 hid)
  have hearly : RefusedEarly s response → RejectionHarmless s response fingerprint registry answers := by
    intro hrefused e s' registry' hcreate
    have hsame : (s, registry) = (s', registry') := by
      unfold createResponse at hcreate
      split at hcreate
      · exact (Prod.mk.inj hcreate).2
      · next hidle =>
        rcases hrefused with hbusy | rfl | ⟨options, e', rfl, hinput⟩
        · exact absurd hbusy hidle
        · exact (Prod.mk.inj hcreate).2
        · dsimp only at hcreate
          rw [hinput] at hcreate
          exact (Prod.mk.inj hcreate).2
    obtain ⟨rfl, rfl⟩ := Prod.mk.inj hsame
    exact hunchanged registry
  constructor
  · intro hharmless
    by_cases hrefused : RefusedEarly s response
    · exact .inl hrefused
    · have hidle : s.responding = false := by
        cases hbusy : s.responding with
        | false => rfl
        | true => exact absurd (.inl hbusy) hrefused
      cases response with
      | none => exact absurd (.inr (.inl rfl)) hrefused
      | some options =>
          cases hinput : textFromResponseInput options.input with
          | error e => exact absurd (.inr (.inr ⟨options, e, rfl, hinput⟩)) hrefused
          | ok explicitText =>
              refine .inr ⟨options, explicitText, rfl, hinput, ?_⟩
              rcases createResponse_cases fingerprint registry answers hidle hinput with
                ⟨hpasses, ⟨s', registry', -, hfills⟩ | ⟨-, -, e, r, r', token, hr, hcreated,
                  hregistered, hattached, herror⟩⟩ | ⟨hrefuses, e, registry', herror, -⟩
              · exact ⟨.inl hpasses, hfills⟩
              · have hnone := (hharmless e _ _ herror).registry r r' hr rfl r.created token (Nat.le_refl _)
                  (by rw [hcreated]; exact Nat.lt_succ_self _) hregistered
                rw [hattached] at hnone
                cases hnone
              · have hleaves := hharmless e _ _ herror
                refine ⟨.inr ((taken_eq_iff s).1 ⟨hleaves.conversationText, hleaves.buffer⟩), ?_⟩
                exact fun h => hrefuses (.inr h.1)
  · rintro (hrefused | ⟨options, explicitText, rfl, hinput, hpending, hfills⟩)
    · exact hearly hrefused
    · intro e s' registry' hcreate
      cases hbusy : s.responding with
      | true => exact hearly (.inl hbusy) e s' registry' hcreate
      | false =>
          rcases createResponse_cases fingerprint registry answers hbusy hinput with
            ⟨-, ⟨s'', registry'', hok, -⟩ | ⟨hattaches, hfails, -⟩⟩ |
            ⟨hrefuses, e', registry'', herror, hnone⟩
          · rw [hok] at hcreate
            cases hcreate
          · exact absurd ⟨hattaches, hfails⟩ hfills
          · rw [herror] at hcreate
            obtain ⟨-, rfl, rfl⟩ := hcreate
            obtain ⟨hconversation, hbuffer⟩ :=
              (taken_eq_iff s).2 (hpending.resolve_left hrefuses)
            exact ⟨hconversation, hbuffer, rfl,
              fun r r' hr hr' id _ hid hlt _ => hnone r r' hr hr' id hid hlt⟩

/-- A connection whose client has created one item. -/
def withItem : Connection := (Connection.new.createConversationItem "Hello").2

/-- Everything goes well. -/
def allWell : Answers := ⟨true, true, true, fun _ => true, true⟩

/-- A resume token that is too short costs the client its conversation item; and when the execution does
not take the text, the logical session stays registered with an attachment. -/
theorem rejected_create_takes_input :
    withItem.conversationText = ["Hello"]
      ∧ (withItem.createResponse (some ⟨.absent, none, some "short"⟩) "f"
          (some (.init ⟨8, 8, by decide, by decide⟩)) allWell).1
        = .error (.protocol ⟨"invalid_resume_token",
          "qwen_resume_token must contain at least 16 characters",
          "response.metadata.qwen_resume_token"⟩)
      ∧ (withItem.createResponse (some ⟨.absent, none, some "short"⟩) "f"
          (some (.init ⟨8, 8, by decide, by decide⟩)) allWell).2.1.conversationText = []
      ∧ ¬ RejectionHarmless withItem (some ⟨.absent, none, some "short"⟩) "f"
          (some (.init ⟨8, 8, by decide, by decide⟩)) allWell
      ∧ ((withItem.createResponse (some ⟨.absent, none, some "0123456789abcdef"⟩) "f"
            (some (.init ⟨8, 8, by decide, by decide⟩))
            { allWell with pushes := fun _ => false }).2.2.map fun r =>
          (r.registered "0123456789abcdef", (r.slots 0).session.ledger.attachment))
        = some (some 0, some 1) := by
  refine ⟨rfl, rfl, rfl, ?_, rfl⟩
  intro h
  exact absurd (h _ _ _ rfl).conversationText (by decide)

end

end Connection

end Realtime

end StreamingTts.Gateway
