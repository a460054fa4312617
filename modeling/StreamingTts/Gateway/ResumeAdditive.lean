import Mathlib.Data.List.Forall2
import StreamingTts.Gateway.RealtimeCreate
import StreamingTts.Lib.Transition

/-!
# What a resume token changes for the input

One connection whose responses carry no resume token beside one whose responses carry a fresh one, on a
backend that starts at once and never fails. Without a token the appended texts are numbered by the
buffer of the connection, which a new response resets; with one they are numbered by the logical session,
behind the texts that the response took along. So the two number alike (`Orderly`) as long as nothing is
appended to a response that took text along, and nothing is buffered behind a response that texts were
appended to.
-/

namespace StreamingTts.Gateway

open Session Lib

namespace Realtime

/-- A resume token that no logical session has yet, with the registry in which it is claimed. -/
structure FreshToken where
  token : String
  fingerprint : String
  registry : Registry
  long : 16 ≤ token.length
  fresh : registry.registered token = none

/-- An event of the client, or the end of the active response. The token is the one that a response
carries if it carries one. -/
inductive InputEvent
  | append (sequence : Option Int) (text : String)
  | commit
  | item (text : String)
  | create (input : InputField) (claim : FreshToken)
  | cancel
  | finish (output : TerminalOutput)

/-- A connection whose responses carry a resume token or not. -/
structure Endpoint where
  resumable : Bool
  connection : Connection

namespace Endpoint

/-- A new connection. -/
def new (resumable : Bool) : Endpoint := ⟨resumable, .new⟩

variable (e : Endpoint)

/-- `response.create` with a token or without one, and the start of its response. -/
def create (input : InputField) (claim : FreshToken) : Outcome × Connection :=
  match e.connection.createResponse
      (some ⟨input, none, some (if e.resumable then claim.token else "")⟩) claim.fingerprint
      (some claim.registry) Connection.allWell with
  | (.error _, connection, _) => (.rejected, connection)
  | (.ok (), connection, _) => (.accepted, connection.startBackend)

/-- What the connection answers, and where it is then. -/
def handle : InputEvent → Outcome × Connection
  | .append sequence text => e.connection.appendText sequence text false
  | .commit => e.connection.commitText
  | .item text => e.connection.createConversationItem text
  | .create input claim => e.create input claim
  | .cancel => e.connection.cancelActive
  | .finish output => (.accepted, e.connection.finishResponse output)

/-- One event. -/
def step (e : Endpoint) (event : InputEvent) : Endpoint × List Outcome :=
  ({ e with connection := (e.handle event).2 }, [(e.handle event).1])

/-- The connection behind a history. -/
def after (e : Endpoint) (events : List InputEvent) : Connection :=
  (run (fun e event => (step e event).1) e events).connection

end Endpoint

/-- The texts that a response was sent on its own. -/
def Response.appended (r : Response) : List String := r.inputChunks.drop r.initialChunks.length

namespace Connection

/-- The responses of a connection. -/
def responses (s : Connection) : List Response := s.past ++ s.active.toList

/-- The texts that were pushed to the execution of each response. -/
def spoken (s : Connection) : List (List String) := s.responses.map (·.sink.execution.pushed)

/-- The number is one that the two journals have or expect, of which one has `n` texts and the other
none. -/
def Contested (n : Nat) (sequence : Option Int) : Prop :=
  n ≠ 0 ∧ ∃ seq, sequence = some seq ∧ 1 ≤ seq ∧ seq ≤ n + 1

instance (n : Nat) (sequence : Option Int) : Decidable (Contested n sequence) :=
  match sequence with
  | none => .isFalse fun h => h.2.elim fun _ h' => nomatch h'.1
  | some seq =>
      decidable_of_iff (n ≠ 0 ∧ 1 ≤ seq ∧ seq ≤ n + 1)
        ⟨fun h => ⟨h.1, seq, rfl, h.2⟩, fun h => ⟨h.1, by
          obtain ⟨_, heq, hseq⟩ := h.2
          cases heq
          exact hseq⟩⟩

/-- The number does not matter for the last response: its input is closed, or it took nothing along; or
it has ended, and nothing was appended to it. -/
def Uncontested (sequence : Option Int) : Option Response → Prop
  | none => True
  | some r =>
      if r.finished then ¬ Contested r.appended.length sequence
      else r.inputComplete = true ∨ ¬ Contested r.initialChunks.length sequence

instance (sequence : Option Int) : (r : Option Response) → Decidable (Uncontested sequence r)
  | none => .isTrue trivial
  | some r =>
      inferInstanceAs (Decidable (if r.finished then ¬ Contested r.appended.length sequence
        else r.inputComplete = true ∨ ¬ Contested r.initialChunks.length sequence))

/-- No text is appended, with a number that matters, to a response that took text along and whose input
is open, or between two responses if the one before was appended to. -/
def Orderly (s : Connection) : InputEvent → Prop
  | .append sequence _ => Uncontested sequence s.active
  | _ => True

instance (s : Connection) : (event : InputEvent) → Decidable (s.Orderly event)
  | .append sequence _ => inferInstanceAs (Decidable (Uncontested sequence s.active))
  | .commit | .item _ | .create _ _ | .cancel | .finish _ => .isTrue trivial

end Connection

/-! ## Journals -/

/-- The numbers of a list of texts. -/
def journalOf (texts : List String) (seq : Int) : Option String :=
  if seq ≤ 0 then none else texts[(seq - 1).toNat]?

theorem journalOf_nil (seq : Int) : journalOf [] seq = none := by
  unfold journalOf
  split <;> rfl

/-- A text that is appended gets the next number. -/
theorem journalOf_concat (texts : List String) (text : String) :
    Function.update (journalOf texts) (texts.length + 1 : Int) (some text)
      = journalOf (texts ++ [text]) := by
  funext seq
  by_cases hseq : seq = (texts.length + 1 : Int)
  · subst hseq
    rw [Function.update_self]
    unfold journalOf
    rw [if_neg (by omega), show ((texts.length + 1 : Int) - 1).toNat = texts.length by omega]
    simp
  · rw [Function.update_of_ne hseq]
    unfold journalOf
    split
    · rfl
    · next hpos =>
      by_cases hlt : (seq - 1).toNat < texts.length
      · rw [List.getElem?_append_left hlt]
      · rw [List.getElem?_eq_none (by omega), List.getElem?_eq_none (by simp; omega)]

/-- The next number is free. -/
theorem journalOf_next (texts : List String) : journalOf texts (texts.length + 1 : Int) = none := by
  unfold journalOf
  rw [if_neg (by omega), List.getElem?_eq_none (by omega)]

/-- The buffer has numbered `texts`. -/
structure TextBuffer.Holds (b : TextBuffer) (texts : List String) : Prop where
  accepted : b.acceptedSequences = journalOf texts
  next : b.nextSequence = texts.length + 1

/-- The logical session has numbered `texts` and passed them on. -/
structure HandleHolds (h : SessionHandle) (texts : List String) : Prop where
  accepted : h.acceptedText = journalOf texts
  next : h.nextSeq = texts.length + 1
  execution : ∃ e, h.execution = some e ∧ e.pushed = texts

/-- How a journal of `texts` answers a text with a number. -/
def answer (texts : List String) (sequence : Option Int) (text : String) : Outcome :=
  match sequence with
  | none => .rejected
  | some seq =>
      if text = "" then .rejected
      else
        match journalOf texts seq with
        | some prior => if prior = text then .duplicate else .rejected
        | none => if seq = texts.length + 1 then .accepted else .rejected

section
variable {b : TextBuffer} {h : SessionHandle} {texts : List String}

/-- A buffer that is not committed answers by its journal. -/
theorem TextBuffer.Holds.append (hb : b.Holds texts) (hopen : b.committed = false)
    (sequence : Option Int) (text : String) :
    (answer texts sequence text = .rejected ∧ ∃ e, b.append text sequence = (.error e, b))
      ∨ (answer texts sequence text = .duplicate
        ∧ ∃ seq, b.append text sequence = (.ok (seq, true), b))
      ∨ (answer texts sequence text = .accepted ∧ text ≠ "" ∧ ∃ seq b',
        b.append text sequence = (.ok (seq, false), b') ∧ b'.Holds (texts ++ [text])
          ∧ b'.chunks = b.chunks ++ [text] ∧ b'.committed = false) := by
  obtain ⟨haccepted, hnext⟩ := hb
  unfold TextBuffer.append answer
  by_cases htext : text = ""
  · refine .inl ?_
    rw [if_pos htext]
    cases sequence with
    | none => exact ⟨rfl, _, rfl⟩
    | some seq => exact ⟨if_pos htext, _, rfl⟩
  · rw [if_neg htext]
    cases sequence with
    | none => exact .inl ⟨rfl, _, rfl⟩
    | some seq =>
        dsimp only
        rw [if_neg htext, haccepted]
        cases hprior : journalOf texts seq with
        | some prior =>
            dsimp only
            by_cases hsame : prior = text
            · rw [if_pos hsame, if_neg (fun hne => hne hsame)]
              exact .inr (.inl ⟨rfl, seq, rfl⟩)
            · rw [if_neg hsame, if_pos hsame]
              exact .inl ⟨rfl, _, rfl⟩
        | none =>
            dsimp only
            by_cases hseq : seq = texts.length + 1
            · rw [if_pos hseq, if_neg (by rw [hnext]; exact fun hne => hne hseq),
                if_neg (by rw [hopen]; exact Bool.false_ne_true)]
              refine .inr (.inr ⟨rfl, htext, seq, _, rfl, ⟨?_, ?_⟩, rfl, hopen⟩)
              · rw [hseq]
                exact journalOf_concat texts text
              · show b.nextSequence + 1 = _
                rw [hnext, List.length_append]
                simp
            · rw [if_neg hseq, if_pos (by rw [hnext]; exact hseq)]
              exact .inl ⟨rfl, _, rfl⟩

/-- A logical session whose input is open answers by its journal. -/
theorem HandleHolds.append (hh : HandleHolds h texts) (hopen : h.InputOpen) (seq : Int)
    (text : String) :
    (answer texts (some seq) text = .rejected
        ∧ ∃ e, h.appendText ⟨seq, text⟩ false = (.error e, h))
      ∨ (answer texts (some seq) text = .duplicate
        ∧ h.appendText ⟨seq, text⟩ false = (.ok ⟨seq, true⟩, h))
      ∨ (answer texts (some seq) text = .accepted ∧ ∃ h',
        h.appendText ⟨seq, text⟩ false = (.ok ⟨seq, false⟩, h')
          ∧ HandleHolds h' (texts ++ [text]) ∧ h'.InputOpen) := by
  obtain ⟨haccepted, hnext, e, he, hpushed⟩ := hh
  have hensure := SessionHandle.ensureInputOpen_of_open hopen he
  unfold SessionHandle.appendText answer
  dsimp only
  by_cases hpos : seq ≤ 0
  · rw [if_pos hpos]
    refine .inl ⟨?_, _, rfl⟩
    have hnone : journalOf texts seq = none := if_pos hpos
    have hlast : ¬ seq = texts.length + 1 := by omega
    simp only [hnone, if_neg hlast, ite_self]
  · rw [if_neg hpos]
    by_cases htext : text = ""
    · rw [if_pos htext, if_pos htext]
      exact .inl ⟨rfl, _, rfl⟩
    · rw [if_neg htext, if_neg htext, hensure]
      dsimp only
      rw [haccepted]
      cases hprior : journalOf texts seq with
      | some prior =>
          dsimp only
          by_cases hsame : prior = text
          · rw [if_pos hsame, if_neg (fun hne => hne hsame)]
            exact .inr (.inl ⟨rfl, rfl⟩)
          · rw [if_neg hsame, if_pos hsame]
            exact .inl ⟨rfl, _, rfl⟩
      | none =>
          dsimp only
          by_cases hseq : seq = texts.length + 1
          · rw [if_pos hseq, if_neg (by rw [hnext]; exact fun hne => hne hseq),
              if_neg Bool.false_ne_true]
            refine .inr (.inr ⟨rfl, _, rfl, ⟨?_, ?_, _, rfl, ?_⟩, hopen⟩)
            · show Function.update h.acceptedText seq (some text) = _
              rw [haccepted, hseq]
              exact journalOf_concat texts text
            · show h.nextSeq + 1 = _
              rw [hnext, List.length_append]
              simp
            · show e.pushed ++ [text] = _
              rw [hpushed]
          · rw [if_neg hseq, if_pos (by rw [hnext]; exact hseq)]
            exact .inl ⟨rfl, _, rfl⟩

/-- A logical session whose input is closed refuses every text. -/
theorem appendText_closed (hclosed : h.inputComplete = true) (seq : Int) (text : String) :
    ∃ e, h.appendText ⟨seq, text⟩ false = (.error e, h) := by
  have hensure : ∃ e, h.ensureInputOpen = .error e := by
    unfold SessionHandle.ensureInputOpen
    split
    · exact ⟨_, rfl⟩
    · exact ⟨_, rfl⟩
  obtain ⟨e, he⟩ := hensure
  unfold SessionHandle.appendText
  split
  · exact ⟨_, rfl⟩
  · split
    · exact ⟨_, rfl⟩
    · rw [he]
      exact ⟨_, rfl⟩

/-- Numbers outside of the range of a journal are refused. -/
theorem answer_of_outside {sequence : Option Int} (text : String)
    (htexts : ∀ seq, sequence = some seq → seq < 1 ∨ texts.length + 1 < seq) :
    answer texts sequence text = .rejected := by
  unfold answer
  cases sequence with
  | none => rfl
  | some seq =>
      dsimp only
      have houtside := htexts seq rfl
      have hnone : journalOf texts seq = none := by
        unfold journalOf
        split
        · rfl
        · exact List.getElem?_eq_none (by omega)
      have hlast : ¬ seq = texts.length + 1 := by omega
      simp only [hnone, if_neg hlast, ite_self]

end

/-! ## The two connections beside each other -/

/-- A response without a token beside the one with a token. -/
structure SameResponse (r r' : Response) : Prop where
  initialChunks : r'.initialChunks = r.initialChunks
  inputChunks : r'.inputChunks = r.inputChunks
  finished : r'.finished = r.finished
  spoken : r.sink.execution.pushed = r.inputChunks
  spoken' : r'.sink.execution.pushed = r.inputChunks
  chunks : r.inputChunks = r.initialChunks ++ r.appended

/-- A response that takes input: the buffer without a token has numbered the texts that were appended,
and the logical session all of them. -/
structure Filling (b b' : TextBuffer) (r r' : Response) : Prop where
  sink : ∃ e, r.sink = .backend e
  started : r.engineStarted = true
  handle : ∃ h, r'.sink = .reliable h ∧ HandleHolds h r.inputChunks ∧ h.terminal = none
    ∧ h.inputComplete = r.inputComplete
  inputComplete : r'.inputComplete = r.inputComplete
  buffer : b.Holds r.appended
  buffer' : b'.Holds []
  chunks : b.chunks = []
  committed : b.committed = false
  /-- the numbers of a response that took text along were not used -/
  disjoint : r.initialChunks = [] ∨ r.appended = []

/-- The buffers between two responses. -/
def Between (b b' : TextBuffer) (appended : List String) : Prop :=
  (appended = [] ∧ b.Holds b.chunks ∧ b'.Holds b.chunks)
    ∨ (appended ≠ [] ∧ b.Holds appended ∧ b'.Holds [])

/-- The last responses of the two connections. -/
def SameActive (b b' : TextBuffer) : Option Response → Option Response → Prop
  | none, none => Between b b' []
  | some r, some r' =>
      SameResponse r r' ∧ if r.finished then Between b b' r.appended else Filling b b' r r'
  | _, _ => False

/-- The two connections have taken the same input, and their responses were told the same. -/
structure Same (p q : Connection) : Prop where
  conversationText : q.conversationText = p.conversationText
  chunks : q.buffer.chunks = p.buffer.chunks
  committed : q.buffer.committed = p.buffer.committed
  nonempty : ∀ text ∈ p.buffer.chunks, text ≠ ""
  past : List.Forall₂ SameResponse p.past q.past
  active : SameActive p.buffer q.buffer p.active q.active

section
variable {p q : Connection}

/-- Buffers with the same texts are the same. -/
theorem TextBuffer.Holds.eq {b b' : TextBuffer} {texts : List String} (h : b.Holds texts)
    (h' : b'.Holds texts) (hchunks : b'.chunks = b.chunks) (hcommitted : b'.committed = b.committed) :
    b' = b := by
  obtain ⟨chunks, committed, next, accepted⟩ := b
  obtain ⟨chunks', committed', next', accepted'⟩ := b'
  simp only at hchunks hcommitted
  have hnext : next' = next := h'.next.trans h.next.symm
  have haccepted : accepted' = accepted := h'.accepted.trans h.accepted.symm
  rw [hchunks, hcommitted, hnext, haccepted]

/-- A committed buffer takes nothing new. -/
theorem append_committed {b : TextBuffer} (h : b.committed = true) (text : String)
    (sequence : Option Int) : (b.append text sequence).2 = b := by
  unfold TextBuffer.append
  split
  · rfl
  · split
    · rfl
    · split
      · split <;> rfl
      · split
        · rfl
        · rfl

/-- The texts of a buffer keep their numbers. -/
theorem append_holds {b : TextBuffer} (h : b.Holds b.chunks) (text : String)
    (sequence : Option Int) (hnonempty : ∀ t ∈ b.chunks, t ≠ "") :
    (b.append text sequence).2.Holds (b.append text sequence).2.chunks
      ∧ ∀ t ∈ (b.append text sequence).2.chunks, t ≠ "" := by
  cases hcommitted : b.committed with
  | true =>
      rw [append_committed hcommitted]
      exact ⟨h, hnonempty⟩
  | false =>
      rcases h.append hcommitted sequence text with
        ⟨-, e, heq⟩ | ⟨-, seq, heq⟩ | ⟨-, htext, seq, b', heq, hholds, hchunks, -⟩
      · rw [heq]
        exact ⟨h, hnonempty⟩
      · rw [heq]
        exact ⟨h, hnonempty⟩
      · rw [heq]
        show b'.Holds b'.chunks ∧ ∀ t ∈ b'.chunks, t ≠ ""
        rw [hchunks]
        refine ⟨hholds, ?_⟩
        intro t ht
        rcases List.mem_append.1 ht with ht | ht
        · exact hnonempty t ht
        · rw [List.mem_singleton.1 ht]
          exact htext

/-- A buffer refuses the numbers outside of its range. -/
theorem TextBuffer.Holds.refuses {b : TextBuffer} {texts : List String} (hb : b.Holds texts)
    (text : String) (sequence : Option Int)
    (houtside : ∀ seq, sequence = some seq → seq < 1 ∨ texts.length + 1 < seq) :
    ∃ e, b.append text sequence = (.error e, b) := by
  obtain ⟨haccepted, hnext⟩ := hb
  unfold TextBuffer.append
  split
  · exact ⟨_, rfl⟩
  · cases sequence with
    | none => exact ⟨_, rfl⟩
    | some seq =>
        have hseq := houtside seq rfl
        have hnone : b.acceptedSequences seq = none := by
          rw [haccepted]
          unfold journalOf
          split
          · rfl
          · exact List.getElem?_eq_none (by omega)
        have hgap : seq ≠ b.nextSequence := by
          rw [hnext]
          omega
        dsimp only
        rw [hnone, if_pos hgap]
        exact ⟨_, rfl⟩

/-- Numbers that do not matter are outside of both journals. -/
theorem outside_of_uncontested {n : Nat} {sequence : Option Int} (hn : n ≠ 0)
    (h : ¬ Connection.Contested n sequence) :
    ∀ seq, sequence = some seq → seq < 1 ∨ n + 1 < seq := by
  intro seq hseq
  by_contra hinside
  exact h ⟨hn, seq, hseq, by omega, by omega⟩

/-- What a client is told about a text for the buffer. -/
def told : Except RealtimeProtocolError (Int × Bool) × TextBuffer → Outcome
  | (.error _, _) => .rejected
  | (.ok (_, true), _) => .duplicate
  | (.ok (_, false), _) => .accepted

/-- A refused text leaves the buffer as it is. -/
theorem append_error {b b' : TextBuffer} {text : String} {sequence : Option Int}
    {e : RealtimeProtocolError} (h : b.append text sequence = (.error e, b')) : b' = b := by
  unfold TextBuffer.append at h
  split at h
  · exact (Prod.mk.inj h).2.symm
  · split at h
    · exact (Prod.mk.inj h).2.symm
    · split at h
      · split at h
        · exact (Prod.mk.inj h).2.symm
        · cases h
      · split at h
        · exact (Prod.mk.inj h).2.symm
        · split at h
          · exact (Prod.mk.inj h).2.symm
          · cases h

/-- A text for the buffer of a connection. -/
theorem bufferText_eq (s : Connection) (sequence : Option Int) (text : String) :
    s.bufferText sequence text
      = (told (s.buffer.append text sequence),
        { s with buffer := (s.buffer.append text sequence).2 }) := by
  unfold Connection.bufferText
  split
  · next heq =>
    rw [heq, append_error heq]
    rfl
  · next heq => rw [heq]; rfl
  · next heq => rw [heq]; rfl

/-- A text for the buffers between two responses. -/
theorem Between.append {b b' : TextBuffer} {appended : List String} (h : Between b b' appended)
    (hchunks : b'.chunks = b.chunks) (hcommitted : b'.committed = b.committed)
    (hnonempty : ∀ t ∈ b.chunks, t ≠ "") {sequence : Option Int} (text : String)
    (huncontested : ¬ Connection.Contested appended.length sequence) :
    told (b.append text sequence) = told (b'.append text sequence)
      ∧ Between (b.append text sequence).2 (b'.append text sequence).2 appended
      ∧ (b'.append text sequence).2.chunks = (b.append text sequence).2.chunks
      ∧ (b'.append text sequence).2.committed = (b.append text sequence).2.committed
      ∧ ∀ t ∈ (b.append text sequence).2.chunks, t ≠ "" := by
  rcases h with ⟨happended, hb, hb'⟩ | ⟨happended, hb, hb'⟩
  · obtain rfl := hb.eq hb' hchunks hcommitted
    obtain ⟨hholds, hnew⟩ := append_holds hb text sequence hnonempty
    exact ⟨rfl, .inl ⟨happended, hholds, hholds⟩, rfl, rfl, hnew⟩
  · -- the plain buffer has the numbers of the last response, the other one has none
    have houtside := outside_of_uncontested
      (fun hzero => happended (List.eq_nil_of_length_eq_zero hzero)) huncontested
    obtain ⟨e, heq⟩ := hb.refuses text sequence houtside
    obtain ⟨e', heq'⟩ := hb'.refuses text sequence fun seq hseq => by
      have := houtside seq hseq
      have : 0 < appended.length := List.length_pos_of_ne_nil happended
      simp only [List.length_nil]
      omega
    rw [heq, heq']
    exact ⟨rfl, .inr ⟨happended, hb, hb'⟩, hchunks, hcommitted, hnonempty⟩

/-- The two connections answer alike and stay alike. -/
def Agree (a b : Outcome × Connection) : Prop := a.1 = b.1 ∧ Same a.2 b.2

/-- Between two responses a text goes to the buffers. -/
theorem Same.bufferText (h : Same p q) {appended : List String}
    (hbetween : Between p.buffer q.buffer appended)
    (hactive : ∀ b b', Between b b' appended → SameActive b b' p.active q.active)
    {sequence : Option Int} (text : String)
    (huncontested : ¬ Connection.Contested appended.length sequence) :
    Agree (p.bufferText sequence text) (q.bufferText sequence text) := by
  obtain ⟨htold, hbetween, hchunks, hcommitted, hnonempty⟩ :=
    hbetween.append h.chunks h.committed h.nonempty text huncontested
  rw [bufferText_eq, bufferText_eq]
  exact ⟨htold, h.conversationText, hchunks, hcommitted, hnonempty, h.past, hactive _ _ hbetween⟩

variable {b b' : TextBuffer} {r r' : Response}

/-- The texts that were appended grow by the last one. -/
theorem SameResponse.appended_concat (h : SameResponse r r') (text : String) (sink : Sink) :
    Response.appended { r with inputChunks := r.inputChunks ++ [text], sink := sink }
      = r.appended ++ [text] := by
  unfold Response.appended
  have hlength : r.initialChunks.length ≤ r.inputChunks.length := by
    rw [h.chunks, List.length_append]
    exact Nat.le_add_right _ _
  exact List.drop_append_of_le_length hlength

/-- The journals of a response that takes input refuse a number together, or they are the same. -/
theorem Filling.journals (hsame : SameResponse r r') (h : Filling b b' r r') {sequence : Option Int}
    (huncontested : ¬ Connection.Contested r.initialChunks.length sequence) :
    (∀ seq, sequence = some seq →
        (seq < 1 ∨ r.appended.length + 1 < seq) ∧ (seq < 1 ∨ r.inputChunks.length + 1 < seq))
      ∨ r.inputChunks = r.appended := by
  by_cases hinitial : r.initialChunks = []
  · refine .inr ?_
    rw [hsame.chunks, hinitial, List.nil_append]
  · refine .inl fun seq hseq => ?_
    have happended : r.appended = [] := h.disjoint.resolve_left hinitial
    have hlength : r.inputChunks.length = r.initialChunks.length := by
      rw [hsame.chunks, happended, List.append_nil]
    have houtside := outside_of_uncontested
      (fun hzero => hinitial (List.eq_nil_of_length_eq_zero hzero)) huncontested seq hseq
    rw [happended, hlength]
    simp only [List.length_nil]
    omega

/-- How the answer of a journal shows in the two connections. -/
theorem HandleHolds.refuses {handle : SessionHandle} {texts : List String}
    (h : HandleHolds handle texts) (hopen : handle.InputOpen) {seq : Int} (text : String)
    (houtside : seq < 1 ∨ texts.length + 1 < seq) :
    ∃ e, handle.appendText ⟨seq, text⟩ false = (.error e, handle) := by
  have hanswer : answer texts (some seq) text = .rejected :=
    answer_of_outside text fun _ heq => by
      cases heq
      exact houtside
  have happend := h.append hopen seq text
  rw [hanswer] at happend
  obtain ⟨-, he⟩ | ⟨⟨⟩, -⟩ | ⟨⟨⟩, -⟩ := happend
  exact he

/-- What a logical session has passed on. -/
theorem HandleHolds.spoken {handle : SessionHandle} {texts : List String}
    (h : HandleHolds handle texts) : (Sink.reliable handle).execution.pushed = texts := by
  obtain ⟨execution, hexecution, hpushed⟩ := h.execution
  show (handle.execution.getD {}).pushed = _
  rw [hexecution]
  exact hpushed

/-- A text that both journals of a response take. -/
theorem Filling.grow (hsame : SameResponse r r') (h : Filling b b' r r') {execution : Execution}
    (hsink : r.sink = .backend execution) (hall : r.inputChunks = r.appended)
    (hclosed : r.inputComplete = false) {text : String} (buffer : TextBuffer)
    {handle : SessionHandle} (hbuffer : buffer.Holds (r.appended ++ [text]))
    (hcommitted : buffer.committed = false) (hchunks : buffer.chunks = [])
    (hhandle : HandleHolds handle (r.appended ++ [text])) (hopen : handle.InputOpen) :
    SameResponse
        { r with
          inputChunks := r.inputChunks ++ [text]
          sink := .backend { execution with pushed := execution.pushed ++ [text] } }
        { r' with sink := .reliable handle, inputChunks := r'.inputChunks ++ [text] }
      ∧ Filling buffer b'
        { r with
          inputChunks := r.inputChunks ++ [text]
          sink := .backend { execution with pushed := execution.pushed ++ [text] } }
        { r' with sink := .reliable handle, inputChunks := r'.inputChunks ++ [text] } := by
  have happended := hsame.appended_concat text
    (.backend { execution with pushed := execution.pushed ++ [text] })
  have hinitial : r.initialChunks = [] := by
    have hlength := congrArg List.length hsame.chunks
    rw [hall, List.length_append] at hlength
    exact List.eq_nil_of_length_eq_zero (by omega)
  have hpushed : execution.pushed = r.inputChunks := by
    have hspoken := hsame.spoken
    rw [hsink] at hspoken
    exact hspoken
  have hspoken' : (Sink.reliable handle).execution.pushed = r.inputChunks ++ [text] := by
    rw [hall]
    exact hhandle.spoken
  constructor
  · refine ⟨hsame.initialChunks, ?_, hsame.finished, ?_, hspoken', ?_⟩
    · exact congrArg (· ++ [text]) hsame.inputChunks
    · exact congrArg (· ++ [text]) hpushed
    · rw [happended, ← List.append_assoc, ← hsame.chunks]
  · refine ⟨⟨_, rfl⟩, h.started, ⟨handle, rfl, ?_, hopen.1, hopen.2.trans hclosed.symm⟩,
      h.inputComplete, ?_, h.buffer', hchunks, hcommitted, .inl hinitial⟩
    · show HandleHolds handle (r.inputChunks ++ [text])
      rw [hall]
      exact hhandle
    · rw [happended]
      exact hbuffer

/-- A text for a response that takes input. -/
theorem Same.appendFilling (h : Same p q) (hp : p.active = some r) (hq : q.active = some r')
    (hsame : SameResponse r r') (hfinished : r.finished = false)
    (hfilling : Filling p.buffer q.buffer r r') {sequence : Option Int} (text : String)
    (huncontested : r.inputComplete = true
      ∨ ¬ Connection.Contested r.initialChunks.length sequence) :
    Agree (p.appendText sequence text false) (q.appendText sequence text false) := by
  obtain ⟨execution, hsink⟩ := hfilling.sink
  obtain ⟨handle, hsink', hholds, hterminal, hcomplete⟩ := hfilling.handle
  have hfinished' : r'.finished = false := hsame.finished.trans hfinished
  have hrestore : ({ r' with sink := .reliable handle } : Response) = r' := by
    rw [← hsink']
  have hkeep : ({ q with active := some r' } : Connection) = q := by
    rw [← hq]
  have hleft : p.appendText sequence text false = p.appendBackend r execution sequence text := by
    unfold Connection.appendText
    simp only [hp, hfinished, hsink, Bool.false_eq_true, if_false]
  have hright : q.appendText sequence text false = q.appendReliable r' handle sequence text false := by
    unfold Connection.appendText
    simp only [hq, hfinished', hsink', Bool.false_eq_true, if_false]
  rw [hleft, hright]
  unfold Connection.appendBackend Connection.appendReliable
  by_cases hclosed : r.inputComplete = true
  · rw [if_pos hclosed]
    cases sequence with
    | none => exact ⟨rfl, h⟩
    | some seq =>
        obtain ⟨e, he⟩ := appendText_closed (hcomplete.trans hclosed) seq text
        dsimp only
        rw [he]
        dsimp only
        rw [hrestore, hkeep]
        exact ⟨rfl, h⟩
  · rw [if_neg hclosed]
    have hfalse : r.inputComplete = false := Bool.eq_false_iff.2 hclosed
    have hopen : handle.InputOpen := ⟨hterminal, hcomplete.trans hfalse⟩
    rcases hfilling.journals hsame (huncontested.resolve_left hclosed) with houtside | hall
    · obtain ⟨e, he⟩ := hfilling.buffer.refuses text sequence fun seq hseq => (houtside seq hseq).1
      rw [he]
      cases sequence with
      | none => exact ⟨rfl, h⟩
      | some seq =>
          obtain ⟨e', he'⟩ := hholds.refuses hopen text (houtside seq rfl).2
          dsimp only
          rw [he']
          dsimp only
          rw [hrestore, hkeep]
          exact ⟨rfl, h⟩
    · cases sequence with
      | none =>
          obtain ⟨e, he⟩ := hfilling.buffer.refuses text none fun _ heq => nomatch heq
          rw [he]
          exact ⟨rfl, h⟩
      | some seq =>
          rw [hall] at hholds
          have happend := hholds.append hopen seq text
          dsimp only
          rcases hfilling.buffer.append hfilling.committed (some seq) text with
            ⟨hanswer, e, he⟩ | ⟨hanswer, _, he⟩ | ⟨hanswer, htext, _, buffer, he, hb, hchunks, hcommitted⟩
          · rw [hanswer] at happend
            obtain ⟨-, e', he'⟩ | ⟨⟨⟩, -⟩ | ⟨⟨⟩, -⟩ := happend
            rw [he, he']
            dsimp only
            rw [hrestore, hkeep]
            exact ⟨rfl, h⟩
          · rw [hanswer] at happend
            obtain ⟨⟨⟩, -⟩ | ⟨-, he'⟩ | ⟨⟨⟩, -⟩ := happend
            rw [he, he']
            dsimp only
            rw [if_pos rfl, hrestore, hkeep]
            exact ⟨rfl, h⟩
          · rw [hanswer] at happend
            obtain ⟨⟨⟩, -⟩ | ⟨⟨⟩, -⟩ | ⟨-, handle', he', hholds', hopen'⟩ := happend
            rw [he, he']
            dsimp only
            rw [if_neg Bool.false_ne_true, if_pos hfilling.started]
            have hempty : buffer.chunks.dropLast = [] := by
              rw [hchunks, hfilling.chunks]
              rfl
            obtain ⟨hresponse, hgrown⟩ := hfilling.grow hsame hsink hall hfalse
              { buffer with chunks := buffer.chunks.dropLast } ⟨hb.accepted, hb.next⟩
              hcommitted hempty hholds' hopen'
            refine ⟨rfl, h.conversationText, ?_, ?_, ?_, h.past, hresponse, ?_⟩
            · exact (h.chunks.trans hfilling.chunks).trans hempty.symm
            · exact (h.committed.trans hfilling.committed).trans hcommitted.symm
            · show ∀ t ∈ buffer.chunks.dropLast, t ≠ ""
              rw [hempty]
              exact fun _ ht => nomatch ht
            · rw [if_neg (by rw [hfinished]; exact Bool.false_ne_true)]
              exact hgrown

/-- Responses of which only the state has changed. -/
theorem SameResponse.changed {t t' : Response} (h : SameResponse r r')
    (hinitial : t.initialChunks = r.initialChunks) (hinput : t.inputChunks = r.inputChunks)
    (hinitial' : t'.initialChunks = r'.initialChunks) (hinput' : t'.inputChunks = r'.inputChunks)
    (hfinished : t'.finished = t.finished)
    (hspoken : t.sink.execution.pushed = r.sink.execution.pushed)
    (hspoken' : t'.sink.execution.pushed = r.inputChunks) : SameResponse t t' where
  initialChunks := by rw [hinitial', h.initialChunks, hinitial]
  inputChunks := by rw [hinput', h.inputChunks, hinput]
  finished := hfinished
  spoken := by rw [hspoken, h.spoken, hinput]
  spoken' := by rw [hspoken', hinput]
  chunks := by
    unfold Response.appended
    rw [hinitial, hinput]
    exact h.chunks

/-- The last responses of two connections that are alike. -/
theorem Same.cases (h : Same p q) :
    (p.active = none ∧ q.active = none ∧ Between p.buffer q.buffer [])
      ∨ (∃ r r', p.active = some r ∧ q.active = some r' ∧ SameResponse r r' ∧ r.finished = true
        ∧ Between p.buffer q.buffer r.appended)
      ∨ ∃ r r', p.active = some r ∧ q.active = some r' ∧ SameResponse r r' ∧ r.finished = false
        ∧ Filling p.buffer q.buffer r r' := by
  have hactive := h.active
  cases hp : p.active with
  | none =>
      cases hq : q.active with
      | none =>
          rw [hp, hq] at hactive
          exact .inl ⟨rfl, rfl, hactive⟩
      | some r' =>
          rw [hp, hq] at hactive
          exact hactive.elim
  | some r =>
      cases hq : q.active with
      | none =>
          rw [hp, hq] at hactive
          exact hactive.elim
      | some r' =>
          rw [hp, hq] at hactive
          obtain ⟨hsame, hrest⟩ := hactive
          refine .inr ?_
          cases hfinished : r.finished with
          | true =>
              rw [if_pos hfinished] at hrest
              exact .inl ⟨r, r', rfl, rfl, hsame, hfinished, hrest⟩
          | false =>
              rw [if_neg (by rw [hfinished]; exact Bool.false_ne_true)] at hrest
              exact .inr ⟨r, r', rfl, rfl, hsame, hfinished, hrest⟩

/-- A response that has ended stays as it is. -/
theorem sameActive_finished (hsame : SameResponse r r') (hfinished : r.finished = true)
    (h : Between b b' r.appended) : SameActive b b' (some r) (some r') := by
  refine ⟨hsame, ?_⟩
  rw [if_pos hfinished]
  exact h

/-- A response that takes input. -/
theorem sameActive_filling (hsame : SameResponse r r') (hfinished : r.finished = false)
    (h : Filling b b' r r') : SameActive b b' (some r) (some r') := by
  refine ⟨hsame, ?_⟩
  rw [if_neg (by rw [hfinished]; exact Bool.false_ne_true)]
  exact h

/-- `qwen.input_text_buffer.append`. -/
theorem Same.appendText (h : Same p q) {sequence : Option Int} {text : String}
    (horderly : p.Orderly (.append sequence text)) :
    Agree (p.appendText sequence text false) (q.appendText sequence text false) := by
  have huncontested : Connection.Uncontested sequence p.active := horderly
  obtain ⟨hp, hq, hbetween⟩ | ⟨r, r', hp, hq, hsame, hfinished, hbetween⟩
    | ⟨r, r', hp, hq, hsame, hfinished, hfilling⟩ := h.cases
  · unfold Connection.appendText
    rw [hp, hq]
    refine h.bufferText hbetween (fun b b' hb => ?_) text fun hcontested => hcontested.1 rfl
    rw [hp, hq]
    exact hb
  · rw [hp] at huncontested
    unfold Connection.Uncontested at huncontested
    dsimp only at huncontested
    rw [if_pos hfinished] at huncontested
    unfold Connection.appendText
    rw [hp, hq]
    dsimp only
    rw [if_pos hfinished, if_pos (hsame.finished.trans hfinished)]
    refine h.bufferText hbetween (fun b b' hb => ?_) text huncontested
    rw [hp, hq]
    exact sameActive_finished hsame hfinished hb
  · rw [hp] at huncontested
    unfold Connection.Uncontested at huncontested
    dsimp only at huncontested
    rw [if_neg (by rw [hfinished]; exact Bool.false_ne_true)] at huncontested
    exact h.appendFilling hp hq hsame hfinished hfilling text huncontested

/-- Committed buffers are still between two responses. -/
theorem Between.commit {appended : List String} (h : Between b b' appended) :
    Between { b with committed := true } { b' with committed := true } appended := by
  rcases h with ⟨happended, hb, hb'⟩ | ⟨happended, hb, hb'⟩
  · exact .inl ⟨happended, ⟨hb.accepted, hb.next⟩, ⟨hb'.accepted, hb'.next⟩⟩
  · exact .inr ⟨happended, ⟨hb.accepted, hb.next⟩, ⟨hb'.accepted, hb'.next⟩⟩

/-- The end of the input of a logical session. -/
theorem HandleHolds.complete {handle : SessionHandle} {texts : List String}
    (h : HandleHolds handle texts) (hopen : handle.InputOpen) :
    ∃ handle', handle.completeInput ⟨handle.acceptedTextSeq⟩ false
        = (.ok ⟨handle.acceptedTextSeq, false⟩, handle') ∧ HandleHolds handle' texts
      ∧ handle'.terminal = none ∧ handle'.inputComplete = true := by
  obtain ⟨execution, hexecution, hpushed⟩ := h.execution
  have hpos : 0 ≤ handle.acceptedTextSeq := by
    unfold SessionHandle.acceptedTextSeq
    rw [h.next]
    omega
  have haccepts : handle.AcceptsCompletion ⟨handle.acceptedTextSeq⟩ := ⟨hpos, hopen, rfl⟩
  obtain ⟨-, hcomplete⟩ := SessionHandle.completeInput_of_accepts haccepts hexecution
  exact ⟨_, hcomplete, ⟨h.accepted, h.next, _, rfl, hpushed⟩, hopen.1, rfl⟩

/-- `qwen.input_text_buffer.commit`. -/
theorem Same.commitText (h : Same p q) : Agree p.commitText q.commitText := by
  unfold Connection.commitText
  obtain ⟨hp, hq, hbetween⟩ | ⟨r, r', hp, hq, hsame, hfinished, hbetween⟩
    | ⟨r, r', hp, hq, hsame, hfinished, hfilling⟩ := h.cases
  · rw [hp, hq]
    refine ⟨rfl, h.conversationText, h.chunks, rfl, h.nonempty, h.past, ?_⟩
    exact hbetween.commit
  · rw [hp, hq]
    dsimp only
    rw [if_pos hfinished, if_pos (hsame.finished.trans hfinished)]
    refine ⟨rfl, h.conversationText, h.chunks, rfl, h.nonempty, h.past, ?_⟩
    exact sameActive_finished hsame hfinished hbetween.commit
  · obtain ⟨execution, hsink⟩ := hfilling.sink
    obtain ⟨handle, hsink', hholds, hterminal, hcomplete⟩ := hfilling.handle
    simp only [hp, hq, hfinished, hsame.finished.trans hfinished, hsink, hsink', hfilling.started,
      hfilling.inputComplete, Bool.false_eq_true, if_false, if_true]
    by_cases hclosed : r.inputComplete = true
    · rw [if_pos hclosed, if_pos hclosed]
      exact ⟨rfl, h⟩
    · rw [if_neg hclosed, if_neg hclosed]
      obtain ⟨handle', heq, hholds', hterminal', hcomplete'⟩ :=
        hholds.complete ⟨hterminal, hcomplete.trans (Bool.eq_false_iff.2 hclosed)⟩
      rw [heq]
      refine ⟨rfl, h.conversationText, h.chunks, h.committed, h.nonempty, h.past, ?_⟩
      refine sameActive_filling ?_ rfl ?_
      · refine hsame.changed rfl rfl rfl rfl rfl ?_ hholds'.spoken
        rw [hsink]
        rfl
      · exact ⟨⟨_, rfl⟩, rfl, ⟨handle', rfl, hholds', hterminal', hcomplete'⟩, rfl, hfilling.buffer,
          hfilling.buffer', hfilling.chunks, hfilling.committed, hfilling.disjoint⟩

/-- `conversation.item.create`. -/
theorem Same.createConversationItem (h : Same p q) (text : String) :
    Agree (p.createConversationItem text) (q.createConversationItem text) := by
  unfold Connection.createConversationItem
  split
  · exact ⟨rfl, h⟩
  · refine ⟨rfl, ?_, h.chunks, h.committed, h.nonempty, h.past, h.active⟩
    exact congrArg (· ++ [text]) h.conversationText

/-- The buffers at the end of a response. -/
theorem Filling.between (h : Filling b b' r r') : Between b b' r.appended := by
  by_cases happended : r.appended = []
  · refine .inl ⟨happended, ?_, ?_⟩
    · rw [h.chunks, ← happended]
      exact h.buffer
    · rw [h.chunks]
      exact h.buffer'
  · exact .inr ⟨happended, h.buffer, h.buffer'⟩

/-- A terminal output does not change what was passed on. -/
theorem emitTerminal_spoken (handle : SessionHandle) (output : TerminalOutput) :
    (Sink.reliable (handle.emitTerminal output)).execution.pushed
      = (Sink.reliable handle).execution.pushed := by
  unfold SessionHandle.emitTerminal
  split
  · rfl
  · rfl

/-- Neither does a cancellation. -/
theorem cancel_spoken (handle : SessionHandle) :
    (Sink.reliable handle.cancel).execution.pushed = (Sink.reliable handle).execution.pushed := by
  unfold SessionHandle.cancel
  split
  · rfl
  · obtain ⟨execution, accepted, next, complete, terminal⟩ := handle
    cases execution with
    | none => rfl
    | some execution => rfl

/-- `response.cancel`. -/
theorem Same.cancelActive (h : Same p q) : Agree p.cancelActive q.cancelActive := by
  unfold Connection.cancelActive
  obtain ⟨hp, hq, -⟩ | ⟨r, r', hp, hq, hsame, hfinished, -⟩
    | ⟨r, r', hp, hq, hsame, hfinished, hfilling⟩ := h.cases
  · simp only [hp, hq]
    exact ⟨rfl, h⟩
  · simp only [hp, hq, hfinished, hsame.finished.trans hfinished, if_true]
    exact ⟨rfl, h⟩
  · obtain ⟨execution, hsink⟩ := hfilling.sink
    obtain ⟨handle, hsink', hholds, -, -⟩ := hfilling.handle
    simp only [hp, hq, hfinished, hsame.finished.trans hfinished, hsink, hsink',
      Bool.false_eq_true, if_false]
    refine ⟨rfl, h.conversationText, h.chunks, h.committed, h.nonempty, h.past, ?_⟩
    refine sameActive_finished ?_ rfl hfilling.between
    refine hsame.changed rfl rfl rfl rfl rfl ?_ ?_
    · rw [hsink]
      rfl
    · show (Sink.reliable (handle.cancel.emitTerminal _)).execution.pushed = _
      rw [emitTerminal_spoken, cancel_spoken]
      exact hholds.spoken

/-- The end of a response changes nothing in what it was told. -/
theorem finishResponse_eq {s : Connection} (hactive : s.active = some r) (output : TerminalOutput) :
    ∃ sink, sink.execution.pushed = r.sink.execution.pushed
      ∧ s.finishResponse output
        = { s with active := some { r with finished := true, sink := sink } } := by
  unfold Connection.finishResponse
  simp only [hactive]
  cases r.sink with
  | backend execution => exact ⟨.backend execution, rfl, rfl⟩
  | reliable handle => exact ⟨_, emitTerminal_spoken handle output, rfl⟩

/-- Both responses end. -/
theorem Same.finished (h : Same p q) (hp : p.active = some r) (hq : q.active = some r')
    (hsame : SameResponse r r') (hbetween : Between p.buffer q.buffer r.appended)
    (output : TerminalOutput) : Same (p.finishResponse output) (q.finishResponse output) := by
  obtain ⟨sink, hsink, heq⟩ := finishResponse_eq hp output
  obtain ⟨sink', hsink', heq'⟩ := finishResponse_eq hq output
  rw [heq, heq']
  refine ⟨h.conversationText, h.chunks, h.committed, h.nonempty, h.past, ?_⟩
  refine sameActive_finished ?_ rfl hbetween
  exact hsame.changed rfl rfl rfl rfl rfl hsink (hsink'.trans hsame.spoken')

/-- The end of a response. -/
theorem Same.finishResponse (h : Same p q) (output : TerminalOutput) :
    Same (p.finishResponse output) (q.finishResponse output) := by
  obtain ⟨hp, hq, -⟩ | ⟨r, r', hp, hq, hsame, hfinished, hbetween⟩
    | ⟨r, r', hp, hq, hsame, hfinished, hfilling⟩ := h.cases
  · unfold Connection.finishResponse
    simp only [hp, hq]
    exact h
  · exact h.finished hp hq hsame hbetween output
  · exact h.finished hp hq hsame hfilling.between output

/-! ## A new response -/

/-- A logical session takes the texts of a new response, one after the other. -/
theorem HandleHolds.appendInitial {pushes : Nat → Bool} (hpushes : ∀ seq, pushes seq = true)
    (chunks : List String) {texts : List String} {handle : SessionHandle}
    (h : HandleHolds handle texts) (hopen : handle.InputOpen) (hchunks : ∀ t ∈ chunks, t ≠ "") :
    ∃ handle', Connection.appendInitial pushes (texts.length + 1) chunks handle = .ok handle'
      ∧ HandleHolds handle' (texts ++ chunks) ∧ handle'.InputOpen := by
  induction chunks generalizing texts handle with
  | nil =>
      refine ⟨handle, rfl, ?_, hopen⟩
      rw [List.append_nil]
      exact h
  | cons text rest ih =>
      have hanswer : answer texts (some ((texts.length + 1 : Nat) : Int)) text = .accepted := by
        unfold answer
        dsimp only
        rw [if_neg (hchunks text List.mem_cons_self), Int.natCast_succ, journalOf_next texts]
        exact if_pos rfl
      have happend := h.append hopen ((texts.length + 1 : Nat) : Int) text
      rw [hanswer] at happend
      obtain ⟨⟨⟩, -⟩ | ⟨⟨⟩, -⟩ | ⟨-, handle', heq, hholds, hopen'⟩ := happend
      obtain ⟨last, hlast, hlastHolds, hlastOpen⟩ :=
        ih hholds hopen' fun t ht => hchunks t (List.mem_cons_of_mem _ ht)
      refine ⟨last, ?_, ?_, hlastOpen⟩
      · unfold Connection.appendInitial
        rw [hpushes, Bool.not_true, heq]
        dsimp only
        rw [← hlast, List.length_append]
        rfl
      · rw [List.append_assoc] at hlastHolds
        exact hlastHolds

/-- A new logical session has numbered nothing. -/
theorem started_holds : HandleHolds .started [] where
  accepted := funext fun seq => (journalOf_nil seq).symm
  next := rfl
  execution := ⟨_, rfl, rfl⟩

/-- A new buffer has numbered nothing. -/
theorem new_holds : TextBuffer.new.Holds [] where
  accepted := funext fun seq => (journalOf_nil seq).symm
  next := rfl

/-- The texts of a new response are not empty. -/
theorem initialChunks_nonempty {s : Connection} (h : ∀ t ∈ s.buffer.chunks, t ≠ "")
    (explicitText : String) : ∀ t ∈ s.initialChunks explicitText, t ≠ "" := by
  intro t ht
  unfold Connection.initialChunks at ht
  rcases List.mem_append.1 ht with ht | ht
  · split at ht
    · next hne =>
      rw [List.mem_singleton.1 ht]
      exact hne
    · split at ht
      · next hne =>
        rw [List.mem_singleton.1 ht]
        exact hne
      · exact nomatch ht
  · exact h t ht

/-- A logical session that gets the input of a new response. -/
theorem fillSession_ok {s : Connection} (h : ∀ t ∈ s.buffer.chunks, t ≠ "") (explicitText : String) :
    ∃ handle, s.fillSession explicitText Connection.allWell
        = .ok { s.newResponse explicitText (.reliable handle) with
            engineStarted := true
            inputComplete := s.commitRequested explicitText }
      ∧ HandleHolds handle (s.initialChunks explicitText) ∧ handle.terminal = none
      ∧ handle.inputComplete = s.commitRequested explicitText := by
  obtain ⟨handle, heq, hholds, hopen⟩ := started_holds.appendInitial (fun _ => rfl)
    (s.initialChunks explicitText) ⟨rfl, rfl⟩ (initialChunks_nonempty h explicitText)
  unfold Connection.fillSession
  have hfilled : Connection.appendInitial Connection.allWell.pushes 1
      (s.initialChunks explicitText) .started = .ok handle := heq
  rw [hfilled]
  unfold Connection.completeInitial
  by_cases hcommit : s.commitRequested explicitText = true
  · obtain ⟨handle', heq', hholds', hterminal, hcomplete⟩ := hholds.complete hopen
    refine ⟨handle', ?_, hholds', hterminal, hcomplete.trans hcommit.symm⟩
    have hcompleted : handle.completeInput ⟨handle.acceptedTextSeq⟩
        (!Connection.allWell.completes) = _ := heq'
    dsimp only
    rw [if_pos hcommit, hcompleted]
  · refine ⟨handle, ?_, hholds, hopen.1, hopen.2.trans (Bool.eq_false_iff.2 hcommit).symm⟩
    dsimp only
    rw [if_neg hcommit]

/-- Both connections have a response under way, or none has. -/
theorem Same.responding (h : Same p q) : q.responding = p.responding := by
  unfold Connection.responding
  obtain ⟨hp, hq, -⟩ | ⟨r, r', hp, hq, hsame, -⟩ | ⟨r, r', hp, hq, hsame, -⟩ := h.cases
  · rw [hp, hq]
  · rw [hp, hq]
    simp only [Option.any_some, hsame.finished]
  · rw [hp, hq]
    simp only [Option.any_some, hsame.finished]

/-- Both connections hand over the same input. -/
theorem Same.initialChunks (h : Same p q) (explicitText : String) :
    q.initialChunks explicitText = p.initialChunks explicitText := by
  unfold Connection.initialChunks
  rw [h.conversationText, h.chunks]

/-- Both connections hand over an input that is complete, or both do not. -/
theorem Same.commitRequested (h : Same p q) (explicitText : String) :
    q.commitRequested explicitText = p.commitRequested explicitText := by
  unfold Connection.commitRequested
  rw [h.conversationText, h.chunks, h.committed]

/-- The last responses of two connections, as a list. -/
theorem Same.actives (h : Same p q) :
    List.Forall₂ SameResponse p.active.toList q.active.toList := by
  obtain ⟨hp, hq, -⟩ | ⟨r, r', hp, hq, hsame, -⟩ | ⟨r, r', hp, hq, hsame, -⟩ := h.cases
  · rw [hp, hq]
    exact .nil
  · rw [hp, hq]
    exact .cons hsame .nil
  · rw [hp, hq]
    exact .cons hsame .nil

/-- The response without a token, behind its start. -/
def startedResponse (s : Connection) (explicitText : String) : Response :=
  { s.newResponse explicitText (.backend
      { pushed := s.initialChunks explicitText
        completed := s.commitRequested explicitText }) with
    engineStarted := true
    pendingChunks := []
    inputComplete := s.commitRequested explicitText }

/-- The start of a response without a token. -/
theorem startBackend_activate (s t : Connection) (explicitText : String) :
    (t.activate (s.newResponse explicitText (.backend {}))).startBackend
      = t.activate (startedResponse s explicitText) := by
  unfold Connection.startBackend Connection.activate startedResponse Connection.newResponse
  simp

/-- A response with a token is started already. -/
theorem startBackend_reliable (t : Connection) {response : Response} {handle : SessionHandle}
    (hsink : response.sink = .reliable handle) :
    (t.activate response).startBackend = t.activate response := by
  unfold Connection.startBackend Connection.activate
  simp only [hsink]

/-- Two responses that are created alike. -/
theorem Same.activate (h : Same p q) (explicitText : String) {handle : SessionHandle}
    (hholds : HandleHolds handle (q.initialChunks explicitText)) (hterminal : handle.terminal = none)
    (hcomplete : handle.inputComplete = q.commitRequested explicitText) :
    Same (p.taken.activate (startedResponse p explicitText))
      (q.taken.activate { q.newResponse explicitText (.reliable handle) with
        engineStarted := true
        inputComplete := q.commitRequested explicitText }) := by
  rw [h.initialChunks explicitText] at hholds
  rw [h.commitRequested explicitText] at hcomplete
  have happended : (startedResponse p explicitText).appended = [] :=
    List.drop_length
  refine ⟨rfl, rfl, rfl, fun _ ht => (nomatch ht), List.rel_append h.past h.actives, ?_⟩
  refine sameActive_filling ⟨?_, ?_, rfl, rfl, ?_, ?_⟩ rfl ?_
  · exact h.initialChunks explicitText
  · exact h.initialChunks explicitText
  · exact hholds.spoken
  · rw [happended, List.append_nil]
    rfl
  · refine ⟨⟨_, rfl⟩, rfl, ⟨handle, rfl, hholds, hterminal, hcomplete⟩, ?_, ?_, new_holds, rfl, rfl,
      .inr happended⟩
    · exact h.commitRequested explicitText
    · rw [happended]
      exact new_holds

/-- `response.create` is refused by both connections, or both create the response. -/
theorem Same.create (h : Same p q) (input : InputField) (claim : FreshToken) :
    Agree (Endpoint.create ⟨false, p⟩ input claim) (Endpoint.create ⟨true, q⟩ input claim) := by
  have htoken : claim.token ≠ "" := by
    intro hempty
    have hlong := claim.long
    rw [hempty] at hlong
    exact absurd hlong (by decide)
  unfold Endpoint.create Connection.createResponse
  dsimp only
  rw [h.responding]
  by_cases hresponding : p.responding = true
  · rw [if_pos hresponding, if_pos hresponding]
    exact ⟨rfl, h⟩
  · rw [if_neg hresponding, if_neg hresponding]
    cases textFromResponseInput input with
    | error e => exact ⟨rfl, h⟩
    | ok explicitText =>
        obtain ⟨handle, hfill, hholds, hterminal, hcomplete⟩ :=
          fillSession_ok (s := q) (fun t ht => h.nonempty t (h.chunks ▸ ht)) explicitText
        have hstarts : Connection.allWell.starts = true := rfl
        obtain ⟨registry, hclaim, -⟩ := Connection.claimSession_attaches claim.fingerprint
          "openai-realtime-v1" htoken claim.fresh hstarts rfl
        have hcreate : q.createResumable q.taken explicitText claim.token claim.fingerprint
            (some claim.registry) Connection.allWell
              = (.ok (), q.taken.activate { q.newResponse explicitText (.reliable handle) with
                  engineStarted := true
                  inputComplete := q.commitRequested explicitText }, some registry) := by
          unfold Connection.createResumable
          dsimp only
          rw [if_neg (Nat.not_lt.2 claim.long), hclaim]
          dsimp only
          rw [hfill]
        have hvalid : Connection.allWell.configValid = true := rfl
        simp only [hvalid, Bool.not_true, Bool.false_eq_true, if_false, if_true, if_neg htoken, hcreate]
        rw [startBackend_activate, startBackend_reliable _ rfl]
        exact ⟨rfl, h.activate explicitText hholds hterminal hcomplete⟩

/-- Every event that is in order is answered alike. -/
theorem Same.handle (h : Same p q) {event : InputEvent} (horderly : p.Orderly event) :
    Agree (Endpoint.handle ⟨false, p⟩ event) (Endpoint.handle ⟨true, q⟩ event) := by
  cases event with
  | append sequence text => exact h.appendText horderly
  | commit => exact h.commitText
  | item text => exact h.createConversationItem text
  | create input claim => exact h.create input claim
  | cancel => exact h.cancelActive
  | finish output => exact ⟨rfl, h.finishResponse output⟩

end

/-! ## Texts that are sent again -/

/-- The texts of the response under way, or those that are pending for the next one. -/
def Connection.held (s : Connection) : List String :=
  match s.active with
  | none => s.buffer.chunks
  | some r => if r.finished then s.buffer.chunks else r.inputChunks

section
variable {p q : Connection}

/-- Both connections hold the same texts. -/
theorem Same.held (h : Same p q) : q.held = p.held := by
  unfold Connection.held
  obtain ⟨hp, hq, -⟩ | ⟨r, r', hp, hq, hsame, hfinished, -⟩ | ⟨r, r', hp, hq, hsame, hfinished, -⟩ :=
    h.cases
  · rw [hp, hq]
    exact h.chunks
  · simp only [hp, hq, hsame.finished, hfinished, if_true]
    exact h.chunks
  · simp only [hp, hq, hsame.finished, hfinished, Bool.false_eq_true, if_false]
    exact hsame.inputChunks

/-- Responses that are alike, one by one, were told the same. -/
theorem spoken_eq {rs rs' : List Response} (h : List.Forall₂ SameResponse rs rs') :
    rs.map (·.sink.execution.pushed) = rs'.map (·.sink.execution.pushed) := by
  induction h with
  | nil => rfl
  | cons hsame _ ih =>
      rw [List.map_cons, List.map_cons, ih, hsame.spoken, hsame.spoken']

/-- The responses of both connections were told the same. -/
theorem Same.spoken (h : Same p q) : p.spoken = q.spoken :=
  spoken_eq (List.rel_append h.past h.actives)

/-- The answer of a buffer to a text with a number. -/
theorem TextBuffer.Holds.told {b : TextBuffer} {texts : List String} (h : b.Holds texts) (seq : Int)
    (text : String) :
    (told (b.append text (some seq)) = .accepted
        ∧ seq = texts.length + 1 ∧ (b.append text (some seq)).2.chunks = b.chunks ++ [text])
      ∨ ((b.append text (some seq)).2 = b
        ∧ (told (b.append text (some seq)) = .rejected
          ∨ told (b.append text (some seq)) = .duplicate ∧ text ∈ texts)) := by
  obtain ⟨haccepted, hnext⟩ := h
  unfold TextBuffer.append
  split
  · exact .inr ⟨rfl, .inl rfl⟩
  · dsimp only
    split
    · next prior hprior =>
      split
      · exact .inr ⟨rfl, .inl rfl⟩
      · next hsame =>
        refine .inr ⟨rfl, .inr ⟨rfl, ?_⟩⟩
        rw [haccepted] at hprior
        unfold journalOf at hprior
        split at hprior
        · cases hprior
        · rw [← not_not.1 hsame]
          exact List.mem_of_getElem? hprior
    · split
      · exact .inr ⟨rfl, .inl rfl⟩
      · next hseq =>
        split
        · exact .inr ⟨rfl, .inl rfl⟩
        · exact .inl ⟨rfl, (not_not.1 hseq).trans hnext, rfl⟩

/-- What a text does: it gets the next number, or it changes nothing, and then it is refused or the
connection holds it already. -/
def Appends (s : Connection) (seq : Int) (text : String) (result : Outcome × Connection) : Prop :=
  (result.1 = .accepted ∧ seq = s.held.length + 1 ∧ result.2.held = s.held ++ [text])
    ∨ (result.2 = s ∧ (result.1 = .rejected ∨ result.1 = .duplicate ∧ text ∈ s.held))

/-- A text for the buffer between two responses. -/
theorem Between.appends {b' : TextBuffer} {appended : List String}
    (h : Between p.buffer b' appended)
    (hheld : ∀ b, Connection.held { p with buffer := b } = b.chunks) {seq : Int} (text : String)
    (huncontested : ¬ Connection.Contested appended.length (some seq)) :
    Appends p seq text (p.bufferText (some seq) text) := by
  have hchunks : p.held = p.buffer.chunks := hheld p.buffer
  rw [bufferText_eq]
  unfold Appends
  dsimp only
  rw [hchunks, hheld]
  rcases h with ⟨-, hb, -⟩ | ⟨happended, hb, -⟩
  · rcases hb.told seq text with haccepted | ⟨hkeeps, hrest⟩
    · exact .inl haccepted
    · refine .inr ⟨?_, hrest⟩
      rw [hkeeps]
  · obtain ⟨e, heq⟩ := hb.refuses text (some seq) (outside_of_uncontested
      (fun hzero => happended (List.eq_nil_of_length_eq_zero hzero)) huncontested)
    rw [heq]
    exact .inr ⟨rfl, .inl rfl⟩

/-- A text that is in order. -/
theorem Same.appends (h : Same p q) {seq : Int} {text : String}
    (horderly : p.Orderly (.append (some seq) text)) :
    Appends p seq text (p.appendText (some seq) text false) := by
  have huncontested : Connection.Uncontested (some seq) p.active := horderly
  obtain ⟨hp, -, hbetween⟩ | ⟨r, r', hp, -, hsame, hfinished, hbetween⟩
    | ⟨r, r', hp, -, hsame, hfinished, hfilling⟩ := h.cases
  · unfold Connection.appendText
    rw [hp]
    refine hbetween.appends (fun b => ?_) text fun hcontested => hcontested.1 rfl
    unfold Connection.held
    rw [hp]
  · rw [hp] at huncontested
    unfold Connection.Uncontested at huncontested
    dsimp only at huncontested
    rw [if_pos hfinished] at huncontested
    unfold Connection.appendText
    rw [hp]
    dsimp only
    rw [if_pos hfinished]
    refine hbetween.appends (fun b => ?_) text huncontested
    unfold Connection.held
    simp only [hp, hfinished, if_true]
  · rw [hp] at huncontested
    unfold Connection.Uncontested at huncontested
    dsimp only at huncontested
    rw [if_neg (by rw [hfinished]; exact Bool.false_ne_true)] at huncontested
    obtain ⟨execution, hsink⟩ := hfilling.sink
    have hheld : p.held = r.inputChunks := by
      unfold Connection.held
      simp only [hp, hfinished, Bool.false_eq_true, if_false]
    unfold Connection.appendText
    simp only [hp, hfinished, hsink, Bool.false_eq_true, if_false]
    unfold Connection.appendBackend Appends
    rw [hheld]
    by_cases hclosed : r.inputComplete = true
    · rw [if_pos hclosed]
      exact .inr ⟨rfl, .inl rfl⟩
    · rw [if_neg hclosed]
      rcases hfilling.journals hsame (huncontested.resolve_left hclosed) with houtside | hall
      · obtain ⟨e, he⟩ :=
          hfilling.buffer.refuses text (some seq) fun seq hseq => (houtside seq hseq).1
        rw [he]
        exact .inr ⟨rfl, .inl rfl⟩
      · have htold := hfilling.buffer.told seq text
        rcases hfilling.buffer.append hfilling.committed (some seq) text with
          ⟨-, e, he⟩ | ⟨-, number, he⟩ | ⟨-, -, number, buffer, he, -, -, -⟩
        · rw [he]
          exact .inr ⟨rfl, .inl rfl⟩
        · rw [he] at htold ⊢
          have hmem : text ∈ r.appended := by simpa [told] using htold
          rw [hall]
          exact .inr ⟨rfl, .inr ⟨rfl, hmem⟩⟩
        · rw [he] at htold ⊢
          have hseq : seq = r.appended.length + 1 := by
            simp only [told, reduceCtorEq, false_and, or_false, and_false] at htold
            exact htold.2.1
          refine .inl ⟨rfl, ?_, ?_⟩
          · rw [hall]
            exact hseq
          · dsimp only
            rw [if_pos hfilling.started]
            unfold Connection.held
            simp only [hfinished, Bool.false_eq_true, if_false]

/-- Without a token `response.create` is refused and changes nothing, or the response takes the pending
texts along. -/
theorem create_plain (s : Connection) (input : InputField) (claim : FreshToken) :
    Endpoint.create ⟨false, s⟩ input claim = (.rejected, s)
      ∨ s.responding = false ∧ ∃ explicitText, Endpoint.create ⟨false, s⟩ input claim
        = (.accepted, s.taken.activate (startedResponse s explicitText)) := by
  unfold Endpoint.create Connection.createResponse
  dsimp only
  by_cases hresponding : s.responding = true
  · rw [if_pos hresponding]
    exact .inl rfl
  · rw [if_neg hresponding]
    cases textFromResponseInput input with
    | error e => exact .inl rfl
    | ok explicitText =>
        refine .inr ⟨Bool.eq_false_iff.2 hresponding, explicitText, ?_⟩
        have hvalid : Connection.allWell.configValid = true := rfl
        simp only [hvalid, Bool.not_true, Bool.false_eq_true, if_false, if_true]
        rw [startBackend_activate]

/-- Between two responses the texts are in the buffer. -/
theorem held_of_not_responding {s : Connection} (h : s.responding = false) :
    s.held = s.buffer.chunks := by
  unfold Connection.responding at h
  unfold Connection.held
  cases hactive : s.active with
  | none => rfl
  | some r =>
      rw [hactive] at h
      have hfinished : r.finished = true := by simpa using h
      exact if_pos hfinished

/-- A text without a number changes nothing. -/
theorem appendText_none (s : Connection) (text : String) (raises : Bool) :
    (s.appendText none text raises).2 = s := by
  have hbuffer : ∃ e, s.buffer.append text none = (.error e, s.buffer) := by
    unfold TextBuffer.append
    split
    · exact ⟨_, rfl⟩
    · exact ⟨_, rfl⟩
  obtain ⟨e, he⟩ := hbuffer
  unfold Connection.appendText Connection.bufferText Connection.appendBackend
  rw [he]
  split
  · rfl
  · split
    · rfl
    · split
      · rfl
      · split
        · rfl
        · rfl

/-- A commit does not change the texts. -/
theorem commitText_held (s : Connection) : s.commitText.2.held = s.held := by
  unfold Connection.commitText
  cases hactive : s.active with
  | none =>
      unfold Connection.held
      simp only [hactive]
  | some r =>
      have hheld : s.held = if r.finished then s.buffer.chunks else r.inputChunks := by
        unfold Connection.held
        rw [hactive]
      dsimp only
      by_cases hfinished : r.finished = true
      · rw [if_pos hfinished]
        unfold Connection.held
        simp only [hactive]
      · rw [if_neg hfinished]
        split
        · split
          · rfl
          · split
            · rw [hheld]; rfl
            · rw [hheld]; rfl
        · split
          · rfl
          · split
            · rw [hheld]; rfl
            · rw [hheld]; rfl

/-- The event ends a response that is under way. -/
def InputEvent.Ends : InputEvent → Prop
  | .cancel | .finish _ => True
  | _ => False

/-- The texts that are held do not get fewer before the response ends. -/
theorem Same.held_length (h : Same p q) {event : InputEvent} (horderly : p.Orderly event)
    (hends : ¬ event.Ends) :
    p.held.length ≤ (Endpoint.handle ⟨false, p⟩ event).2.held.length := by
  cases event with
  | append sequence text =>
      cases sequence with
      | none =>
          show _ ≤ (p.appendText none text false).2.held.length
          simp only [appendText_none, Nat.le_refl]
      | some seq =>
          show _ ≤ (p.appendText (some seq) text false).2.held.length
          rcases h.appends horderly with ⟨-, -, hheld⟩ | ⟨hkeeps, -⟩
          · rw [hheld, List.length_append]
            exact Nat.le_add_right _ _
          · simp only [hkeeps, Nat.le_refl]
  | commit =>
      show _ ≤ p.commitText.2.held.length
      simp only [commitText_held, Nat.le_refl]
  | item text =>
      show _ ≤ (p.createConversationItem text).2.held.length
      unfold Connection.createConversationItem
      split
      · exact Nat.le_refl _
      · exact Nat.le_refl _
  | create input claim =>
      show _ ≤ (Endpoint.create ⟨false, p⟩ input claim).2.held.length
      rcases create_plain p input claim with heq | ⟨hresponding, explicitText, heq⟩
      · simp only [heq, Nat.le_refl]
      · rw [heq, held_of_not_responding hresponding]
        show _ ≤ (p.initialChunks explicitText).length
        unfold Connection.initialChunks
        rw [List.length_append]
        exact Nat.le_add_left _ _
  | cancel => exact absurd trivial hends
  | finish output => exact absurd trivial hends

end

/-! ## Whole histories -/

namespace Endpoint

/-- A connection without tokens beside one with tokens. -/
def Beside (e f : Endpoint) : Prop :=
  e.resumable = false ∧ f.resumable = true ∧ Same e.connection f.connection

/-- Two new connections. -/
theorem new_beside : Beside (new false) (new true) := by
  refine ⟨rfl, rfl, rfl, rfl, rfl, fun _ ht => (nomatch ht), .nil, ?_⟩
  exact .inl ⟨rfl, new_holds, new_holds⟩

/-- The two connections answer an event that is in order alike. -/
theorem Beside.step {e f : Endpoint} (h : Beside e f) {event : InputEvent}
    (horderly : e.connection.Orderly event) :
    (e.step event).2 = (f.step event).2 ∧ Beside (e.step event).1 (f.step event).1 := by
  obtain ⟨resumable, p⟩ := e
  obtain ⟨resumable', q⟩ := f
  obtain ⟨hplain, hresumable, hsame⟩ := h
  simp only at hplain hresumable hsame
  subst hplain hresumable
  obtain ⟨hanswer, hsame'⟩ := hsame.handle horderly
  exact ⟨congrArg (fun answer => [answer]) hanswer, rfl, rfl, hsame'⟩

/-- The number of texts that are held. -/
theorem Beside.held {e f : Endpoint} (h : Beside e f) {event : InputEvent}
    (horderly : e.connection.Orderly event) (hends : ¬ event.Ends) :
    e.connection.held.length ≤ (e.step event).1.connection.held.length := by
  obtain ⟨resumable, p⟩ := e
  obtain ⟨hplain, -, hsame⟩ := h
  simp only at hplain hsame
  subst hplain
  exact hsame.held_length horderly hends

end Endpoint

/-- A resume token makes no difference for a history: every event is answered alike, the executions of
the responses are told the same texts, an appended text that was accepted is not accepted again before its
response ends, and one that is answered as a duplicate is held already. -/
structure Additive (events : List InputEvent) : Prop where
  outcomes : outputs Endpoint.step (.new false) events = outputs Endpoint.step (.new true) events
  spoken : ((Endpoint.new false).after events).spoken = ((Endpoint.new true).after events).spoken
  once : ∀ resumable earlier others seq text text',
    events = earlier ++ .append (some seq) text :: (others ++ [.append (some seq) text']) →
    (((Endpoint.new resumable).after earlier).appendText (some seq) text false).1 = .accepted →
    (∀ event ∈ others, ¬ event.Ends) →
    (((Endpoint.new resumable).after
        (earlier ++ .append (some seq) text :: others)).appendText (some seq) text' false).1 ≠ .accepted
      ∧ ((Endpoint.new resumable).after events).spoken
        = ((Endpoint.new resumable).after (earlier ++ .append (some seq) text :: others)).spoken
  kept : ∀ resumable earlier seq text,
    events = earlier ++ [.append (some seq) text] →
    (((Endpoint.new resumable).after earlier).appendText (some seq) text false).1 = .duplicate →
    text ∈ ((Endpoint.new resumable).after events).held

/-- The events of the history are in order on a connection without tokens. -/
def OrderlyHistory (events : List InputEvent) : Prop :=
  Along (fun e event => (Endpoint.step e event).1) (fun e event => e.connection.Orderly event)
    (.new false) events

instance (events : List InputEvent) : Decidable (OrderlyHistory events) :=
  inferInstanceAs (Decidable (Along _ _ _ events))

section
variable {events earlier others : List InputEvent} {seq : Int} {text text' : String}

/-- The two connections behind a history that is in order. -/
theorem OrderlyHistory.beside (h : OrderlyHistory events) :
    Endpoint.Beside (run (fun e event => (Endpoint.step e event).1) (.new false) events)
      (run (fun e event => (Endpoint.step e event).1) (.new true) events) :=
  run_of_sim Endpoint.new_beside (fun _ _ _ hbeside horderly => hbeside.step horderly) h

/-- A history in order up to its last event. -/
theorem orderlyHistory_concat {event : InputEvent} :
    OrderlyHistory (earlier ++ [event]) ↔
      OrderlyHistory earlier ∧ ((Endpoint.new false).after earlier).Orderly event := by
  unfold OrderlyHistory Endpoint.after
  rw [along_append, along_cons]
  simp only [along_nil, and_true]

/-- The connection behind one more event. -/
theorem after_concat (e : Endpoint) (event : InputEvent) :
    e.after (earlier ++ [event])
      = ((run (fun e event => (Endpoint.step e event).1) e earlier).handle event).2 := by
  unfold Endpoint.after
  rw [run_append]
  rfl

/-- An accepted text stays held until its response ends. -/
theorem OrderlyHistory.held (h : OrderlyHistory (earlier ++ .append (some seq) text :: others))
    (haccepted : (((Endpoint.new false).after earlier).appendText (some seq) text false).1 = .accepted)
    (hends : ∀ event ∈ others, ¬ event.Ends) :
    seq ≤ ((Endpoint.new false).after (earlier ++ .append (some seq) text :: others)).held.length := by
  unfold OrderlyHistory at h
  rw [along_append, along_cons] at h
  obtain ⟨hearlier, horderly, hothers⟩ := h
  have hbeside := OrderlyHistory.beside hearlier
  obtain ⟨-, hnext⟩ := hbeside.step horderly
  have hseq : seq ≤ (((Endpoint.new false).after earlier).appendText (some seq) text
      false).2.held.length := by
    rcases hbeside.2.2.appends horderly with ⟨-, hseq, hheld⟩ | ⟨-, hrejected | ⟨hduplicate, -⟩⟩
    · unfold Endpoint.after
      rw [hheld, List.length_append, List.length_singleton]
      omega
    · exact nomatch haccepted.symm.trans hrejected
    · exact nomatch haccepted.symm.trans hduplicate
  -- the number stays below the length along the other events
  have hlast := run_of_sim
    (R := fun e f => Endpoint.Beside e f ∧ seq ≤ e.connection.held.length) ⟨hnext, hseq⟩
    (fun e f event hrel horderly => by
      obtain ⟨hanswer, hbeside⟩ := hrel.1.step horderly.1
      have hlength := hrel.1.held horderly.1 horderly.2
      exact ⟨hanswer, hbeside, Int.le_trans hrel.2 (Int.ofNat_le.2 hlength)⟩)
    (hothers.and_mem hends)
  unfold Endpoint.after
  rw [run_append, run_cons]
  exact hlast.2

/-- A text whose number was accepted is not accepted again. -/
theorem OrderlyHistory.once
    (h : OrderlyHistory (earlier ++ .append (some seq) text :: others ++ [.append (some seq) text']))
    (haccepted : (((Endpoint.new false).after earlier).appendText (some seq) text false).1 = .accepted)
    (hends : ∀ event ∈ others, ¬ event.Ends) :
    (((Endpoint.new false).after (earlier ++ .append (some seq) text :: others)).appendText
        (some seq) text' false).1 ≠ .accepted
      ∧ ((Endpoint.new false).after (earlier ++ .append (some seq) text :: others
          ++ [.append (some seq) text'])).spoken
        = ((Endpoint.new false).after (earlier ++ .append (some seq) text :: others)).spoken := by
  obtain ⟨hbefore, horderly⟩ := orderlyHistory_concat.1 h
  have hheld := hbefore.held haccepted hends
  rw [after_concat]
  rcases hbefore.beside.2.2.appends horderly with ⟨-, hseq, -⟩ | ⟨hkeeps, hrefused⟩
  · unfold Endpoint.after at hheld
    omega
  · refine ⟨fun hagain => ?_, congrArg Connection.spoken hkeeps⟩
    rcases hrefused with hrejected | ⟨hduplicate, -⟩
    · exact nomatch hagain.symm.trans hrejected
    · exact nomatch hagain.symm.trans hduplicate

/-- A text that is answered as a duplicate is held. -/
theorem OrderlyHistory.kept (h : OrderlyHistory (earlier ++ [.append (some seq) text]))
    (hduplicate : (((Endpoint.new false).after earlier).appendText (some seq) text false).1
      = .duplicate) :
    text ∈ ((Endpoint.new false).after (earlier ++ [.append (some seq) text])).held := by
  obtain ⟨hbefore, horderly⟩ := orderlyHistory_concat.1 h
  rw [after_concat]
  rcases hbefore.beside.2.2.appends horderly with ⟨haccepted, -⟩ | ⟨hkeeps, hrejected | ⟨-, hmem⟩⟩
  · exact nomatch haccepted.symm.trans hduplicate
  · exact nomatch hduplicate.symm.trans hrejected
  · exact (congrArg Connection.held hkeeps).symm ▸ hmem

/-- The answers of the two connections to a text that is in order. -/
theorem OrderlyHistory.answers (h : OrderlyHistory (earlier ++ [.append (some seq) text])) :
    (((Endpoint.new false).after earlier).appendText (some seq) text false).1
      = (((Endpoint.new true).after earlier).appendText (some seq) text false).1 := by
  obtain ⟨hbefore, horderly⟩ := orderlyHistory_concat.1 h
  exact (hbefore.beside.2.2.appendText horderly).1

/-- A history whose first part is in order. -/
theorem OrderlyHistory.left (h : OrderlyHistory (earlier ++ others)) : OrderlyHistory earlier :=
  ((along_append _ _ _ _).1 h).1

/-- A resume token makes no difference for the input as long as no text is appended, with a number that
matters, to a response that took text along, or between two responses behind one that was appended to. -/
theorem resume_additive (events : List InputEvent) (h : OrderlyHistory events) : Additive events where
  outcomes :=
    outputs_eq_of_sim Endpoint.new_beside (fun _ _ _ hbeside horderly => hbeside.step horderly) h
  spoken := h.beside.2.2.spoken
  once := by
    rintro resumable earlier others seq text text' rfl haccepted hends
    have hall : OrderlyHistory
        (earlier ++ .append (some seq) text :: others ++ [.append (some seq) text']) := by
      rw [List.append_assoc]
      exact h
    have hsplit : OrderlyHistory
        (earlier ++ [.append (some seq) text] ++ (others ++ [.append (some seq) text'])) := by
      rw [List.append_assoc]
      exact h
    have hfirst : OrderlyHistory (earlier ++ [.append (some seq) text]) := hsplit.left
    cases resumable with
    | false =>
        obtain ⟨hrefused, hspoken⟩ := hall.once haccepted hends
        rw [List.append_assoc] at hspoken
        exact ⟨hrefused, hspoken⟩
    | true =>
        rw [← hfirst.answers] at haccepted
        obtain ⟨hrefused, hspoken⟩ := hall.once haccepted hends
        rw [List.append_assoc] at hspoken
        rw [← hall.answers]
        refine ⟨hrefused, ?_⟩
        exact h.beside.2.2.spoken.symm.trans (hspoken.trans hall.left.beside.2.2.spoken)
  kept := by
    rintro resumable earlier seq text rfl hduplicate
    cases resumable with
    | false => exact h.kept hduplicate
    | true =>
        rw [← h.answers] at hduplicate
        exact h.beside.2.2.held ▸ h.kept hduplicate

/-- A fresh token. -/
def freshToken : FreshToken where
  token := "0123456789abcdef"
  fingerprint := ""
  registry := .init ⟨16777216, 4096, by decide, by decide⟩
  long := by decide
  fresh := rfl

/-- A response that two texts are appended to, each of them twice. -/
def twiceSent : List InputEvent :=
  [.create .absent freshToken, .append (some 1) "Hello ", .append (some 1) "Hello ",
    .append (some 2) "there.", .append (some 1) "Hello ", .commit, .append (some 2) "there.",
    .finish ⟨"", .completed, "eos", [], []⟩]

/-- Both connections speak these texts once. -/
theorem resume_additive_twiceSent :
    OrderlyHistory twiceSent ∧ Additive twiceSent
      ∧ ((Endpoint.new true).after twiceSent).spoken = [["Hello ", "there."]]
      ∧ outputs Endpoint.step (.new true) twiceSent
        = [.accepted, .accepted, .duplicate, .accepted, .duplicate, .accepted, .rejected,
          .accepted] :=
  ⟨by decide +kernel, resume_additive twiceSent (by decide +kernel), by decide +kernel,
    by decide +kernel⟩

/-- A text is appended, a response takes it along, and the text is appended again. -/
def sentAgain : List InputEvent :=
  [.append (some 1) "a", .create .absent freshToken, .append (some 1) "a"]

/-- A text is appended to a response, the response ends, and a text is appended for the next one. -/
def sentNext : List InputEvent :=
  [.create .absent freshToken, .append (some 1) "a", .cancel, .append (some 1) "a",
    .create .absent freshToken]

/-- Without a token a text that was buffered and sent again is spoken twice, and the first text behind a
response that was appended to vanishes. -/
theorem resume_not_additive :
    ¬ Additive sentAgain ∧ ¬ Additive sentNext
      ∧ ((Endpoint.new false).after sentAgain).spoken = [["a", "a"]]
      ∧ ((Endpoint.new true).after sentAgain).spoken = [["a"]]
      ∧ ((Endpoint.new false).after sentNext).spoken = [["a"], []]
      ∧ ((Endpoint.new true).after sentNext).spoken = [["a"], ["a"]] := by
  refine ⟨fun h => ?_, fun h => ?_, ?_, ?_, ?_, ?_⟩
  · exact absurd h.spoken (by decide +kernel)
  · exact absurd h.spoken (by decide +kernel)
  · decide +kernel
  · decide +kernel
  · decide +kernel
  · decide +kernel

end

end Realtime

end StreamingTts.Gateway
