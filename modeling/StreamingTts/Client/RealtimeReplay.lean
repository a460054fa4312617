import StreamingTts.Client.InputReplay
import StreamingTts.Client.RealtimeInput

/-!
# When the input of a Realtime session survives recoveries

A connection of the session `Carries` the texts in order: every text stands behind the ones before it
down to the text that was acknowledged when the connection was resumed. The leader of a recovery makes
such a connection out of the journal (`Leads`), and installs it with every text that was journaled,
unless a caller journals one more between the end of the replay and the installation: the caller holds
`_send_lock` and the reader `_recovery_lock`, so nothing keeps them apart. A caller that finds the
connection replaced takes its text for replayed, which `Undisturbed` runs make true.
-/

namespace StreamingTts.Client

open Lib

namespace Realtime

namespace InputSession

/-! ### Frames -/

section
variable {fs : List InputFrame} {acked next : Nat}

theorem sequences_concat_append (fs : List InputFrame) (n : Nat) (text : String) :
    sequences (fs ++ [.append n text]) = sequences fs ++ [n] :=
  List.filterMap_append

/-- A frame that is no text adds no number. -/
theorem sequences_concat_other (fs : List InputFrame) {f : InputFrame} (hf : sequence? f = none) :
    sequences (fs ++ [f]) = sequences fs := by
  unfold sequences
  rw [List.filterMap_append, List.filterMap_cons, hf, List.filterMap_nil, List.append_nil]

theorem sequences_subset_concat (fs : List InputFrame) (f : InputFrame) {m : Nat}
    (h : m ∈ sequences fs) : m ∈ sequences (fs ++ [f]) := by
  unfold sequences at h ⊢
  rw [List.filterMap_append]
  exact List.mem_append_left _ h

/-- A frame of a longer list is the last one or one of the shorter list. -/
theorem split_concat {pre post : List InputFrame} {f g : InputFrame}
    (h : fs ++ [f] = pre ++ g :: post) : (pre = fs ∧ g = f) ∨ ∃ post', fs = pre ++ g :: post' := by
  rcases List.eq_nil_or_concat post with rfl | ⟨post', last, rfl⟩
  · obtain ⟨rfl, hlast⟩ := List.append_inj' h rfl
    exact .inl ⟨rfl, (List.cons.inj hlast).1.symm⟩
  · rw [List.concat_eq_append, ← List.cons_append, ← List.append_assoc] at h
    exact .inr ⟨post', (List.append_inj' h rfl).1⟩

/-- A frame that everything due stands before may be written. -/
theorem Gapless.concat (h : Gapless acked next fs) {f : InputFrame}
    (hf : ∀ m, acked < m → Due next m f → m ∈ sequences fs) : Gapless acked next (fs ++ [f]) := by
  intro pre g post heq m hm hdue
  rcases split_concat heq with ⟨rfl, rfl⟩ | ⟨post', hfs⟩
  · exact hf m hm hdue
  · exact h pre g post' hfs m hm hdue

/-- One more text may be sent as long as no commit was written. -/
theorem Gapless.succ (h : Gapless acked next fs) (hcommit : .commit ∉ fs) :
    Gapless acked (next + 1) fs := by
  intro pre f post heq m hm hdue
  refine h pre f post heq m hm ?_
  cases f with
  | append n text => exact hdue
  | commit =>
      refine absurd ?_ hcommit
      rw [heq]
      exact List.mem_append_right _ List.mem_cons_self
  | resume => exact hdue
  | cancel => exact hdue

theorem gapless_resume : Gapless acked next [.resume] := by
  intro pre f post heq m _ hdue
  cases pre with
  | nil =>
      obtain ⟨rfl, -⟩ := List.cons.inj heq
      exact absurd hdue id
  | cons g pre =>
      have := (List.cons.inj heq).2
      simp at this

end

/-! ## The invariant -/

/-- The server has text `m`: it had acknowledged it when connection `c` was resumed, or it is written
there. -/
def On (d : InputState) (c : Conn) (m : Nat) : Prop := m ≤ d.ackedAt c ∨ m ∈ sequences (d.written c)

/-- Every text that was journaled is on connection `c`. -/
def AllOn (d : InputState) (c : Conn) : Prop := ∀ m < d.nextSequence, On d c m

/-- The frames on connection `c` are in order. -/
structure Carries (d : InputState) (c : Conn) : Prop where
  resumed : c ≠ 0 → ∃ fs, d.written c = .resume :: fs
  below : ∀ n ∈ sequences (d.written c), n < d.nextSequence
  ordered : (sequences (d.written c)).Pairwise (· ≤ ·)
  gapless : Gapless (d.ackedAt c) d.nextSequence (d.written c)
  base : d.ackedAt c ≤ d.acknowledged
  commits : .commit ∈ d.written c → d.commitSent = true

/-- What was written to a replacement while the entries `rest` are still to be written. -/
structure Replays (d : InputState) (new : Conn) (rest : List (Nat × String)) : Prop where
  carries : Carries d new
  uncommitted : .commit ∉ d.written new
  rest : ∃ k, rest.map (·.1) = List.range' k rest.length ∧ k + rest.length = d.nextSequence
    ∧ (∀ m < k, On d new m) ∧ ∀ n ∈ sequences (d.written new), n < k

/-- Connection `new` is a replacement that is not installed yet. -/
structure Replacement (d : InputState) (new : Conn) : Prop where
  ne : new ≠ d.conn
  dialed : new < d.dialed

/-- What the leader of a recovery has made of its replacement. -/
def Leads (d : InputState) : ResumePhase → Prop
  | .dialing _ => True
  | .resumed _ new acked _ =>
      Replacement d new ∧ d.written new = [.resume] ∧ acked < d.nextSequence
  | .replaying _ new rest _ version =>
      Replacement d new ∧ version ≤ d.version ∧ (version = d.version → Replays d new rest)
  | .replayed new => Replacement d new ∧ Carries d new ∧ AllOn d new

/-- A thread in `_recover_connection`. -/
def RecoveryOk (d : InputState) : Recovery → Prop
  | .called => True
  | .waiting _ => d.resumeSupported = true
  | .leading phase => d.resumeSupported = true ∧ d.closed d.conn = true ∧ Leads d phase

/-- The connection is closed, or it has every text. -/
def Settled (d : InputState) : Prop := d.closed d.conn = false → AllOn d d.conn

/-- The call under way. A caller that waits for the recovery of the reader has its text on the connection
that the reader installs. -/
def CallerOk (d : InputState) : CallerTask → Prop
  | .idle | .again => Settled d
  | .writing (.sendText n _) =>
      n + 1 = d.nextSequence ∧ (d.closed d.conn = false → ∀ m < n, On d d.conn m)
  | .writing .end => Settled d ∧ d.commitSent = true
  | .writing .cancel => Settled d
  | .recovering call r =>
      Settled d ∧ (∀ n text, call = .sendText n text → n < d.nextSequence)
        ∧ (∀ c, r = .waiting c → c ≠ d.conn → AllOn d d.conn) ∧ RecoveryOk d r

/-- The reader. -/
def ReaderOk (d : InputState) : ReaderTask → Prop
  | .recovering r => RecoveryOk d r
  | _ => True

/-- The texts that were not acknowledged are in the journal. -/
def Journaled (d : InputState) : Prop :=
  ∃ j ≤ d.acknowledged, d.textJournal.map (·.1) = List.range' (j + 1) (d.nextSequence - (j + 1))

/-- What holds of the texts and the connections whatever the threads do. -/
structure Core (d : InputState) : Prop where
  carries : Carries d d.conn
  dialed : d.conn < d.dialed
  fresh : ∀ c, d.dialed ≤ c → d.written c = []
  acknowledged : d.acknowledged < d.nextSequence
  returned : ∀ n ∈ d.returned, n < d.nextSequence ∧ On d d.conn n
  journal : d.resumeSupported = true → Journaled d

/-- The invariant of a session. -/
structure Inv (s : InputSession) : Prop where
  core : Core s.toInputState
  commit : s.commitSent = true → s.inputClosed = true
  caller : CallerOk s.toInputState s.caller
  reader : ReaderOk s.toInputState s.reader
  /-- `_recovery_lock` has one holder -/
  one : ∀ call p q, s.caller = .recovering call (.leading p) → s.reader = .recovering (.leading q) →
    False

section
variable {d d' : InputState} {c new : Conn}

/-- A connection that nothing was done to. -/
theorem Carries.frame (h : Carries d c) (hwritten : d'.written c = d.written c)
    (hat : d'.ackedAt c = d.ackedAt c) (hnext : d'.nextSequence = d.nextSequence)
    (hacked : d.acknowledged ≤ d'.acknowledged) (hcommit : d.commitSent = true → d'.commitSent = true) :
    Carries d' c where
  resumed := by
    rw [hwritten]
    exact h.resumed
  below := by
    rw [hwritten, hnext]
    exact h.below
  ordered := by
    rw [hwritten]
    exact h.ordered
  gapless := by
    rw [hwritten, hat, hnext]
    exact h.gapless
  base := by
    rw [hat]
    exact le_trans h.base hacked
  commits := by
    rw [hwritten]
    exact fun hc => hcommit (h.commits hc)

/-- A frame that everything due stands before is written. -/
theorem Carries.write (h : Carries d c) {f : InputFrame}
    (hwritten : d'.written c = d.written c ++ [f]) (hat : d'.ackedAt c = d.ackedAt c)
    (hnext : d'.nextSequence = d.nextSequence) (hacked : d.acknowledged ≤ d'.acknowledged)
    (hcommit : d.commitSent = true → d'.commitSent = true)
    (hdue : ∀ m, d.ackedAt c < m → Due d.nextSequence m f → m ∈ sequences (d.written c))
    (hlast : ∀ n text, f = .append n text →
      n < d.nextSequence ∧ ∀ m ∈ sequences (d.written c), m ≤ n)
    (hcommits : f = .commit → d'.commitSent = true) : Carries d' c := by
  have hseqs : sequences (d.written c ++ [f]) = sequences (d.written c)
      ∨ ∃ n text, f = .append n text
        ∧ sequences (d.written c ++ [f]) = sequences (d.written c) ++ [n] := by
    cases f with
    | append n text => exact .inr ⟨n, text, rfl, sequences_concat_append _ n text⟩
    | resume => exact .inl (sequences_concat_other _ rfl)
    | commit => exact .inl (sequences_concat_other _ rfl)
    | cancel => exact .inl (sequences_concat_other _ rfl)
  constructor
  · intro hc
    obtain ⟨fs, hfs⟩ := h.resumed hc
    exact ⟨fs ++ [f], by rw [hwritten, hfs, List.cons_append]⟩
  · rw [hwritten, hnext]
    rcases hseqs with hsame | ⟨n, text, rfl, hmore⟩
    · rw [hsame]
      exact h.below
    · rw [hmore]
      intro m hm
      rcases List.mem_append.1 hm with hm | hm
      · exact h.below m hm
      · rw [List.mem_singleton.1 hm]
        exact (hlast n text rfl).1
  · rw [hwritten]
    rcases hseqs with hsame | ⟨n, text, rfl, hmore⟩
    · rw [hsame]
      exact h.ordered
    · rw [hmore]
      refine List.pairwise_append.2 ⟨h.ordered, List.pairwise_singleton _ _, ?_⟩
      intro a ha b hb
      rw [List.mem_singleton.1 hb]
      exact (hlast n text rfl).2 a ha
  · rw [hwritten, hat, hnext]
    exact h.gapless.concat hdue
  · rw [hat]
    exact le_trans h.base hacked
  · rw [hwritten]
    intro hc
    rcases List.mem_append.1 hc with hc | hc
    · exact hcommit (h.commits hc)
    · exact hcommits (List.mem_singleton.1 hc).symm

/-- A text stays on a connection that grows. -/
theorem On.mono {m : Nat} (h : On d c m) (hat : d.ackedAt c ≤ d'.ackedAt c)
    (hwritten : sequences (d.written c) ⊆ sequences (d'.written c)) : On d' c m :=
  h.imp (fun hle => le_trans hle hat) fun hmem => hwritten hmem

/-- The current connection stays and loses nothing. -/
structure Grows (d d' : InputState) : Prop where
  conn : d'.conn = d.conn
  next : d'.nextSequence = d.nextSequence
  supported : d'.resumeSupported = d.resumeSupported
  dialed : d.dialed ≤ d'.dialed
  version : d.version ≤ d'.version
  acknowledged : d.acknowledged ≤ d'.acknowledged
  commitSent : d.commitSent = true → d'.commitSent = true
  closed : d.closed d.conn = true → d'.closed d.conn = true
  ackedAt : d'.ackedAt d.conn = d.ackedAt d.conn
  sequences : sequences (d.written d.conn) ⊆ sequences (d'.written d.conn)

/-- The other connections stay as they are. -/
def OthersKept (d d' : InputState) : Prop :=
  ∀ c ≠ d.conn, d'.written c = d.written c ∧ d'.ackedAt c = d.ackedAt c

theorem Grows.allOn (g : Grows d d') (h : AllOn d d.conn) : AllOn d' d'.conn := by
  intro m hm
  rw [g.next] at hm
  rw [g.conn]
  exact (h m hm).mono (le_of_eq g.ackedAt.symm) g.sequences

theorem Grows.settled (g : Grows d d') (h : Settled d) : Settled d' := by
  intro hopen
  refine g.allOn (h ?_)
  cases hclosed : d.closed d.conn with
  | false => rfl
  | true =>
      rw [g.conn, g.closed hclosed] at hopen
      cases hopen

theorem Replacement.frame (h : Replacement d new) (g : Grows d d') : Replacement d' new :=
  ⟨by rw [g.conn]; exact h.ne, lt_of_lt_of_le h.dialed g.dialed⟩

theorem OthersKept.carries (ho : OthersKept d d') (g : Grows d d') (hnew : Replacement d new)
    (h : Carries d new) : Carries d' new :=
  h.frame (ho new hnew.ne).1 (ho new hnew.ne).2 g.next g.acknowledged g.commitSent

theorem OthersKept.on (ho : OthersKept d d') (hnew : Replacement d new) {m : Nat} (h : On d new m) :
    On d' new m := by
  obtain ⟨hwritten, hat⟩ := ho new hnew.ne
  unfold On
  rw [hwritten, hat]
  exact h

/-- A leader keeps what it has made of its replacement while the other thread works on the current
connection. -/
theorem Leads.frame {p : ResumePhase} (h : Leads d p) (g : Grows d d') (ho : OthersKept d d') :
    Leads d' p := by
  cases p with
  | dialing attempt => trivial
  | resumed attempt new acked inputClosed =>
      obtain ⟨hnew, hwritten, hacked⟩ := h
      refine ⟨hnew.frame g, ?_, by rw [g.next]; exact hacked⟩
      rw [(ho new hnew.ne).1]
      exact hwritten
  | replaying attempt new rest inputClosed version =>
      obtain ⟨hnew, hversion, hreplays⟩ := h
      refine ⟨hnew.frame g, le_trans hversion g.version, ?_⟩
      intro hsame
      have hcount : version = d.version := by
        have := g.version
        omega
      obtain ⟨hcarries, huncommitted, k, hk, hnext, hon, hbelow⟩ := hreplays hcount
      refine ⟨ho.carries g hnew hcarries, ?_, k, hk, by rw [g.next]; exact hnext,
        fun m hm => ho.on hnew (hon m hm), ?_⟩
      · rw [(ho new hnew.ne).1]
        exact huncommitted
      · rw [(ho new hnew.ne).1]
        exact hbelow
  | replayed new =>
      obtain ⟨hnew, hcarries, hall⟩ := h
      refine ⟨hnew.frame g, ho.carries g hnew hcarries, fun m hm => ho.on hnew (hall m ?_)⟩
      rw [← g.next]
      exact hm

theorem RecoveryOk.frame {r : Recovery} (h : RecoveryOk d r) (g : Grows d d')
    (ho : r.leads = true → OthersKept d d') : RecoveryOk d' r := by
  cases r with
  | called => trivial
  | waiting c => exact g.supported.trans h
  | leading p =>
      obtain ⟨hsupported, hclosed, hleads⟩ := h
      refine ⟨g.supported.trans hsupported, ?_, hleads.frame g (ho rfl)⟩
      rw [g.conn]
      exact g.closed hclosed

theorem ReaderOk.frame {task : ReaderTask} (h : ReaderOk d task) (g : Grows d d')
    (ho : ∀ r, task = .recovering r → r.leads = true → OthersKept d d') : ReaderOk d' task := by
  cases task with
  | recovering r => exact RecoveryOk.frame h g (ho r rfl)
  | idle | receiving | exited => trivial

theorem CallerOk.frame {task : CallerTask} (h : CallerOk d task) (g : Grows d d')
    (ho : ∀ call r, task = .recovering call r → r.leads = true → OthersKept d d') :
    CallerOk d' task := by
  cases task with
  | idle => exact g.settled h
  | again => exact g.settled h
  | writing call =>
      cases call with
      | «end» => exact ⟨g.settled h.1, g.commitSent h.2⟩
      | cancel => exact g.settled h
      | sendText n text =>
          obtain ⟨hn, hon⟩ := h
          refine ⟨by rw [g.next]; exact hn, ?_⟩
          intro hopen m hm
          rw [g.conn] at hopen ⊢
          refine (hon ?_ m hm).mono (le_of_eq g.ackedAt.symm) g.sequences
          cases hclosed : d.closed d.conn with
          | false => rfl
          | true =>
              rw [g.closed hclosed] at hopen
              cases hopen
  | recovering call r =>
      obtain ⟨hsettled, hbelow, hwaiting, hok⟩ := h
      refine ⟨g.settled hsettled, ?_, ?_, RecoveryOk.frame hok g (ho call r rfl)⟩
      · intro n text heq
        rw [g.next]
        exact hbelow n text heq
      · intro c hr hne
        rw [g.conn] at hne
        exact g.allOn (hwaiting c hr hne)

/-- A recovery of which another thread has the lock goes on with any connections. -/
theorem CallerOk.of_allOn {task : CallerTask} (h : CallerOk d task) (hall : AllOn d' d'.conn)
    (hnext : d'.nextSequence = d.nextSequence) (hsupported : d'.resumeSupported = d.resumeSupported)
    (hsent : d'.commitSent = d.commitSent) (hleads : ∀ call r, task = .recovering call r → r.leads = false) : CallerOk d' task := by
  cases task with
  | idle => exact fun _ => hall
  | again => exact fun _ => hall
  | writing call =>
      cases call with
      | «end» => exact ⟨fun _ => hall, hsent.trans h.2⟩
      | cancel => exact fun _ => hall
      | sendText n text =>
          refine ⟨by rw [hnext]; exact h.1, fun _ m hm => hall m ?_⟩
          have := h.1
          omega
  | recovering call r =>
      obtain ⟨-, hbelow, -, hok⟩ := h
      refine ⟨fun _ => hall, by rw [hnext]; exact hbelow, fun _ _ _ => hall, ?_⟩
      cases r with
      | called => trivial
      | waiting c => exact hsupported.trans hok
      | leading p => cases hleads call _ rfl

/-! ### What the operations do to the texts -/

/-- A frame is written to the current connection. -/
theorem Core.write (h : Core d) {f : InputFrame}
    (hdue : ∀ m, d.ackedAt d.conn < m → Due d.nextSequence m f →
      m ∈ sequences (d.written d.conn))
    (hlast : ∀ n text, f = .append n text → n + 1 = d.nextSequence)
    (hcommits : f = .commit → d.commitSent = true) :
    let d' := { d with written := Function.update d.written d.conn (d.written d.conn ++ [f]) }
    Core d' ∧ Grows d d' ∧ OthersKept d d' ∧ d'.written d.conn = d.written d.conn ++ [f] := by
  intro d'
  have hwritten : d'.written d.conn = d.written d.conn ++ [f] := Function.update_self ..
  have hothers : OthersKept d d' := fun c hc => ⟨Function.update_of_ne hc .., rfl⟩
  have hsub : sequences (d.written d.conn) ⊆ sequences (d'.written d.conn) := by
    rw [hwritten]
    exact fun m hm => sequences_subset_concat _ f hm
  have hgrows : Grows d d' :=
    ⟨rfl, rfl, rfl, le_refl _, le_refl _, le_refl _, id, id, rfl, hsub⟩
  have hcarries : Carries d' d.conn := by
    refine h.carries.write hwritten hgrows.ackedAt hgrows.next hgrows.acknowledged hgrows.commitSent
      hdue ?_ (fun hf => hgrows.commitSent (hcommits hf))
    intro n text hf
    have hn := hlast n text hf
    refine ⟨by omega, fun m hm => ?_⟩
    have := h.carries.below m hm
    omega
  refine ⟨⟨hcarries, h.dialed, ?_, h.acknowledged, ?_, h.journal⟩, hgrows, hothers, hwritten⟩
  · intro c hc
    have hne : c ≠ d.conn := Nat.ne_of_gt (Nat.lt_of_lt_of_le h.dialed hc)
    rw [(hothers c hne).1]
    exact h.fresh c hc
  · intro n hn
    obtain ⟨hlt, hon⟩ := h.returned n hn
    exact ⟨hlt, hon.mono (le_refl _) hsub⟩

/-- What an acknowledgement leaves of the journal. -/
theorem Journaled.pop {entries : List (Nat × String)} {j a next : Nat}
    (h : entries.map (·.1) = List.range' (j + 1) (next - (j + 1))) (ha : a < next) (hj : j < next) :
    (entries.dropWhile fun entry => decide (entry.1 ≤ a)).map (·.1)
      = List.range' (max j a + 1) (next - (max j a + 1)) := by
  rcases Nat.le_total j a with hle | hle
  · rw [max_eq_right hle, dropWhile_entries h hle (by omega)]
    congr 1
    omega
  · rw [max_eq_left hle, ← h]
    cases entries with
    | nil => rfl
    | cons entry rest =>
        have hcount : next - (j + 1) ≠ 0 := by
          intro hzero
          rw [hzero] at h
          cases h
        obtain ⟨count, hsucc⟩ := Nat.exists_eq_succ_of_ne_zero hcount
        rw [hsucc, List.range'_succ, List.map_cons] at h
        have hhead : entry.1 = j + 1 := (List.cons.inj h).1
        rw [List.dropWhile_cons_of_neg (by simp only [decide_eq_true_eq]; omega)]

end

section
variable {s : InputSession}

/-- `_handle_text_ack` of a number in range. -/
theorem Core.popAcked (h : Core s.toInputState) {a : Nat} (ha : a < s.nextSequence) :
    Core (s.popAcked a).toInputState ∧ Grows s.toInputState (s.popAcked a).toInputState
      ∧ OthersKept s.toInputState (s.popAcked a).toInputState := by
  have hgrows : Grows s.toInputState (s.popAcked a).toInputState :=
    ⟨rfl, rfl, rfl, le_refl _, Nat.le_add_right .., le_max_left .., id, id, rfl, fun _ hm => hm⟩
  have hothers : OthersKept s.toInputState (s.popAcked a).toInputState := fun c _ => ⟨rfl, rfl⟩
  refine ⟨⟨?_, h.dialed, h.fresh, max_lt h.acknowledged ha, h.returned, ?_⟩, hgrows, hothers⟩
  · exact h.carries.frame rfl rfl rfl hgrows.acknowledged id
  · intro hsupported
    obtain ⟨j, hj, hentries⟩ := h.journal hsupported
    refine ⟨max j a, max_le_max hj (le_refl a), ?_⟩
    exact Journaled.pop hentries ha (lt_of_le_of_lt hj h.acknowledged)

/-! ### The calls -/

/-- The reader's leader survives a text that is journaled before the journal was replayed. -/
theorem RecoveryOk.journaled {d d' : InputState} {r : Recovery} (h : RecoveryOk d r)
    (hnot : ∀ new, r ≠ .leading (.replayed new)) (hconn : d'.conn = d.conn)
    (hnext : d.nextSequence ≤ d'.nextSequence) (hsupported : d'.resumeSupported = d.resumeSupported)
    (hversion : d.resumeSupported = true → d.version < d'.version) (hdialed : d'.dialed = d.dialed)
    (hclosed : d'.closed = d.closed) (hwritten : d'.written = d.written) : RecoveryOk d' r := by
  cases r with
  | called => trivial
  | waiting c => exact hsupported.trans h
  | leading p =>
      obtain ⟨hs, hc, hleads⟩ := h
      refine ⟨hsupported.trans hs, by rw [hclosed, hconn]; exact hc, ?_⟩
      have hreplacement {new : Conn} (hnew : Replacement d new) : Replacement d' new :=
        ⟨by rw [hconn]; exact hnew.ne, by rw [hdialed]; exact hnew.dialed⟩
      cases p with
      | dialing attempt => trivial
      | resumed attempt new acked inputClosed =>
          obtain ⟨hnew, hfs, hacked⟩ := hleads
          exact ⟨hreplacement hnew, by rw [hwritten]; exact hfs, lt_of_lt_of_le hacked hnext⟩
      | replaying attempt new rest inputClosed version =>
          obtain ⟨hnew, hle, -⟩ := hleads
          have hlt := hversion hs
          exact ⟨hreplacement hnew, by omega, fun hsame => by omega⟩
      | replayed new => exact absurd rfl (hnot new)

theorem Inv.sendText (h : Inv s) (text : String) (seqNo : Option Nat)
    (hundisturbed : s.Undisturbed (.sendText text seqNo)) : Inv (s.sendText text seqNo) := by
  unfold InputSession.sendText
  split
  · next hidle =>
    split
    · exact h
    · split
      · exact h
      · next hopen =>
        dsimp only
        split
        · exact h
        · next hseq =>
          have hopen' : s.inputClosed = false := by
            simp only [inputOpen, Bool.not_eq_true', Bool.not_eq_false, Bool.and_eq_true,
              Bool.not_eq_true'] at hopen
            exact hopen.1
          have hnotSent : s.commitSent ≠ true := by
            intro hsent
            rw [h.commit hsent] at hopen'
            cases hopen'
          have hsettled : Settled s.toInputState := by
            have := h.caller
            rw [hidle] at this
            exact this
          have hcarries := h.core.carries
          refine ⟨⟨⟨hcarries.resumed, ?_, hcarries.ordered, ?_, hcarries.base, hcarries.commits⟩,
            h.core.dialed, h.core.fresh, ?_, ?_, ?_⟩, h.commit, ?_, ?_, ?_⟩
          · exact fun n hn => Nat.lt_succ_of_lt (hcarries.below n hn)
          · exact hcarries.gapless.succ fun hc => hnotSent (hcarries.commits hc)
          · exact Nat.lt_succ_of_lt h.core.acknowledged
          · intro n hn
            obtain ⟨hlt, hon⟩ := h.core.returned n hn
            exact ⟨Nat.lt_succ_of_lt hlt, hon⟩
          · intro hsupported
            obtain ⟨j, hj, hentries⟩ := h.core.journal hsupported
            refine ⟨j, hj, ?_⟩
            have hjn : j < s.nextSequence := lt_of_le_of_lt hj h.core.acknowledged
            have hcount : s.nextSequence + 1 - (j + 1) = s.nextSequence - (j + 1) + 1 := by omega
            have hlast : j + 1 + 1 * (s.nextSequence - (j + 1)) = s.nextSequence := by omega
            show (if s.resumeSupported = true
                then s.textJournal ++ [(seqNo.getD s.nextSequence, text)]
                else s.textJournal).map (·.1)
              = List.range' (j + 1) (s.nextSequence + 1 - (j + 1))
            rw [if_pos hsupported, List.map_append, hentries, hcount, List.range'_concat, hlast,
              not_ne_iff.1 hseq]
            rfl
          · refine ⟨?_, ?_⟩
            · have := not_ne_iff.1 hseq
              show seqNo.getD s.nextSequence + 1 = s.nextSequence + 1
              rw [this]
            · intro hc m hm
              rw [not_ne_iff.1 hseq] at hm
              exact hsettled hc m hm
          · have hreader := h.reader
            show ReaderOk _ s.reader
            cases htask : s.reader with
            | recovering r =>
                rw [htask] at hreader
                refine RecoveryOk.journaled hreader ?_ rfl (Nat.le_succ _) rfl ?_ rfl rfl rfl
                · intro new hr
                  have hfree : awaitsInstall s.reader = false := hundisturbed
                  rw [htask, hr] at hfree
                  cases hfree
                · intro hsupported
                  simp only [hsupported, if_true]
                  exact Nat.lt_succ_self _
            | idle | receiving | exited => trivial
          · intro call p q hcall
            cases hcall
  · exact h

theorem Inv.endInput (h : Inv s) : Inv s.endInput := by
  unfold InputSession.endInput
  split
  · next hidle =>
    split
    · exact h
    · have hgrows : Grows s.toInputState { s.toInputState with commitSent := true } :=
        ⟨rfl, rfl, rfl, le_refl _, le_refl _, le_refl _, fun _ => rfl, id, rfl, fun _ hm => hm⟩
      have hcaller := h.caller
      rw [hidle] at hcaller
      refine ⟨⟨?_, h.core.dialed, h.core.fresh, h.core.acknowledged, h.core.returned, h.core.journal⟩,
        fun _ => rfl, ?_, ?_, ?_⟩
      · exact h.core.carries.frame rfl rfl rfl (le_refl _) fun _ => rfl
      · exact ⟨hgrows.settled hcaller, rfl⟩
      · exact h.reader.frame hgrows fun _ _ _ c _ => ⟨rfl, rfl⟩
      · intro call p q hcall
        cases hcall
  · exact h

theorem Inv.cancel (h : Inv s) : Inv s.cancel := by
  unfold InputSession.cancel
  split
  · next hidle =>
    split
    · exact h
    · have hcaller := h.caller
      rw [hidle] at hcaller
      refine ⟨h.core, fun _ => rfl, hcaller, h.reader, ?_⟩
      intro call p q hcall
      cases hcall
  · exact h

/-- A write that raises closes the connection. -/
theorem close_grows (d : InputState) (c : Conn) :
    Grows d { d with closed := Function.update d.closed c true }
      ∧ OthersKept d { d with closed := Function.update d.closed c true } := by
  refine ⟨⟨rfl, rfl, rfl, le_refl _, le_refl _, le_refl _, id, ?_, rfl, fun _ hm => hm⟩,
    fun c _ => ⟨rfl, rfl⟩⟩
  intro hclosed
  by_cases hc : d.conn = c
  · show Function.update d.closed c true d.conn = true
    rw [hc, Function.update_self]
  · show Function.update d.closed c true d.conn = true
    rw [Function.update_of_ne hc]
    exact hclosed

/-- The current connection of a state in which it was closed is settled. -/
theorem settled_of_closed {d : InputState} (h : d.closed d.conn = true) : Settled d := by
  intro hopen
  rw [h] at hopen
  cases hopen

theorem Core.closes {d : InputState} (h : Core d) (c : Conn) :
    Core { d with closed := Function.update d.closed c true } :=
  ⟨⟨h.carries.resumed, h.carries.below, h.carries.ordered, h.carries.gapless, h.carries.base,
    h.carries.commits⟩, h.dialed, h.fresh, h.acknowledged, h.returned, h.journal⟩

/-- A text whose `send_text` returns is on the current connection. -/
theorem Core.returns {d : InputState} (h : Core d) {n : Nat} (hn : n < d.nextSequence)
    (hon : On d d.conn n) : Core { d with returned := d.returned ++ [n] } := by
  refine ⟨⟨h.carries.resumed, h.carries.below, h.carries.ordered, h.carries.gapless, h.carries.base,
    h.carries.commits⟩, h.dialed, h.fresh, h.acknowledged, ?_, h.journal⟩
  intro m hm
  rcases List.mem_append.1 hm with hm | hm
  · exact h.returned m hm
  · rw [List.mem_singleton.1 hm]
    exact ⟨hn, hon⟩

/-- The caller is where it leads no recovery. -/
theorem Inv.of_idle (hcore : Core s.toInputState) (hcommit : s.commitSent = true → s.inputClosed = true)
    (hreader : ReaderOk s.toInputState s.reader) (hcaller : CallerOk s.toInputState s.caller)
    (hidle : ∀ call p, s.caller ≠ .recovering call (.leading p)) : Inv s :=
  ⟨hcore, hcommit, hcaller, hreader, fun call p _ htask => absurd htask (hidle call p)⟩

/-- A call whose connection has every text returns. -/
theorem Inv.finishCall (hcore : Core s.toInputState)
    (hcommit : s.commitSent = true → s.inputClosed = true) (hreader : ReaderOk s.toInputState s.reader)
    (call : Call) (hn : ∀ n text, call = .sendText n text → n < s.nextSequence)
    (hall : AllOn s.toInputState s.conn) : Inv (s.finishCall call) := by
  cases call with
  | sendText n text =>
      have hlt := hn n text rfl
      have hreader' : ReaderOk { s.toInputState with returned := s.returned ++ [n] } s.reader :=
        hreader.frame ⟨rfl, rfl, rfl, le_refl _, le_refl _, le_refl _, id, id, rfl, fun _ hm => hm⟩
          fun _ _ _ c _ => ⟨rfl, rfl⟩
      exact .of_idle (hcore.returns hlt (hall n hlt)) hcommit hreader' (fun _ => hall)
        fun _ _ h => nomatch h
  | «end» => exact .of_idle hcore hcommit hreader (fun _ => hall) fun _ _ h => nomatch h
  | cancel => exact .of_idle hcore hcommit hreader (fun _ => hall) fun _ _ h => nomatch h

/-- A text that is on the connection or due is on it with its own write. -/
theorem on_of_write {d d' : InputState} {c : Conn} {m n : Nat} {text : String}
    (hwritten : d'.written c = d.written c ++ [.append n text]) (hat : d'.ackedAt c = d.ackedAt c)
    (h : m = n ∨ On d c m) : On d' c m := by
  rcases h with rfl | h
  · refine .inr ?_
    rw [hwritten, sequences_concat_append]
    exact List.mem_append_right _ (List.mem_singleton_self _)
  · refine h.mono (le_of_eq hat.symm) ?_
    rw [hwritten]
    exact fun k hk => sequences_subset_concat _ _ hk

/-- What a caller with a frame to write knows of an open connection. -/
theorem CallerOk.due {d : InputState} {call : Call} (h : CallerOk d (.writing call))
    (hopen : d.closed d.conn = false) :
    (∀ n text, call = .sendText n text → n + 1 = d.nextSequence)
      ∧ ∀ m < d.nextSequence, (∃ text, call = .sendText m text) ∨ On d d.conn m := by
  cases call with
  | sendText n text =>
      obtain ⟨hn, hon⟩ := h
      refine ⟨fun k text' heq => by cases heq; exact hn, fun m hm => ?_⟩
      rcases Nat.lt_or_ge m n with hlt | hge
      · exact .inr (hon hopen m hlt)
      · obtain rfl : m = n := by omega
        exact .inl ⟨text, rfl⟩
  | «end» => exact ⟨(fun n text heq => nomatch heq), fun m hm => .inr (h.1 hopen m hm)⟩
  | cancel => exact ⟨(fun n text heq => nomatch heq), fun m hm => .inr (h hopen m hm)⟩

/-- A call writes its frame to an open connection. -/
theorem Inv.writeCall (h : Inv s) {call : Call} (htask : s.caller = .writing call)
    (hopen : s.closed s.conn = false) :
    Inv (s.writeTo s.conn call.frame) ∧ AllOn (s.writeTo s.conn call.frame).toInputState s.conn := by
  have hcaller := h.caller
  rw [htask] at hcaller
  obtain ⟨hlast, hall⟩ := hcaller.due hopen
  have hdue : ∀ m, s.ackedAt s.conn < m → Due s.nextSequence m call.frame →
      m ∈ sequences (s.written s.conn) := by
    intro m hm hdue
    have hon : On s.toInputState s.conn m := by
      cases call with
      | sendText n text =>
          have hlt : m < n := hdue
          have hn := hlast n text rfl
          rcases hall m (by omega) with ⟨text', heq⟩ | hon
          · cases heq
            exact absurd hlt (lt_irrefl m)
          · exact hon
      | «end» => exact hcaller.1 hopen m hdue
      | cancel => exact absurd hdue id
    rcases hon with hle | hmem
    · exact absurd hm (not_lt.2 hle)
    · exact hmem
  have hnumber : ∀ n text, call.frame = .append n text → n + 1 = s.nextSequence := by
    intro n text hf
    cases call with
    | sendText n' text' =>
        cases hf
        exact hlast n text rfl
    | «end» => cases hf
    | cancel => cases hf
  have hsent : call.frame = .commit → s.commitSent = true := by
    intro hf
    cases call with
    | sendText n' text' => cases hf
    | «end» => exact hcaller.2
    | cancel => cases hf
  obtain ⟨hcore, hgrows, hothers, hwritten⟩ := h.core.write hdue hnumber hsent
  refine ⟨⟨hcore, h.commit, ?_, h.reader.frame hgrows fun _ _ _ => hothers, h.one⟩, ?_⟩
  · exact h.caller.frame hgrows fun _ _ _ _ => hothers
  · intro m hm
    rcases hall m hm with ⟨text, rfl⟩ | hon
    · exact on_of_write hwritten rfl (.inl rfl)
    · exact hon.mono (le_of_eq hgrows.ackedAt.symm) hgrows.sequences

theorem Inv.write (h : Inv s) (ok : Bool) : Inv (s.write ok) := by
  have hfails (task : CallerTask) (hok : CallerOk (s.close s.conn).toInputState task)
      (hone : ∀ call p, task ≠ .recovering call (.leading p)) :
      Inv { s.close s.conn with caller := task } := by
    obtain ⟨hgrows, hothers⟩ := close_grows s.toInputState s.conn
    exact ⟨h.core.closes s.conn, h.commit, hok, h.reader.frame hgrows fun _ _ _ => hothers,
      fun call p _ htask => absurd htask (hone call p)⟩
  have hclosed : Settled (s.close s.conn).toInputState :=
    settled_of_closed (Function.update_self ..)
  unfold InputSession.write
  split
  · next call htask =>
    split
    · next hwrites =>
      have hopen : s.closed s.conn = false := by
        rw [Bool.and_eq_true, Bool.not_eq_true'] at hwrites
        exact hwrites.2
      obtain ⟨hinv, hall⟩ := h.writeCall htask hopen
      refine Inv.finishCall hinv.core hinv.commit hinv.reader call ?_ hall
      have hcaller := h.caller
      rw [htask] at hcaller
      intro n text heq
      have hn := (hcaller.due hopen).1 n text heq
      show n < s.nextSequence
      omega
    · refine hfails _ ⟨hclosed, ?_, (fun c hr => nomatch hr), trivial⟩ fun _ _ htask => nomatch htask
      intro n text heq
      have hcaller := h.caller
      rw [htask, heq] at hcaller
      have hn := hcaller.1
      show n < s.nextSequence
      omega
  · next htask =>
    split
    · next hwrites =>
      have hcaller := h.caller
      rw [htask] at hcaller
      obtain ⟨hcore, hgrows, hothers, -⟩ := h.core.write (f := .cancel)
        (fun m _ hdue => absurd hdue id) (fun n text hf => nomatch hf) (fun hf => nomatch hf)
      exact ⟨hcore, h.commit, hgrows.settled hcaller, h.reader.frame hgrows fun _ _ _ => hothers,
        fun call p q hcall => nomatch hcall⟩
    · exact hfails _ hclosed fun _ _ htask => nomatch htask
  · exact h

/-! ### The reader -/

/-- The reader goes to a place where it has no connection of its own. -/
theorem Inv.readerAt (h : Inv s) (task : ReaderTask) (transportClosed responseTerminal : Bool)
    (hcalled : ∀ r, task = .recovering r → r = .called) :
    Inv { s with
      transportClosed := transportClosed
      responseTerminal := responseTerminal
      reader := task } := by
  refine ⟨h.core, h.commit, h.caller, ?_, ?_⟩
  · cases task with
    | recovering r =>
        rw [hcalled r rfl]
        trivial
    | idle | receiving | exited => trivial
  · intro _ _ q _ hq
    cases hcalled _ hq

theorem Inv.pick (h : Inv s) : Inv s.pick := by
  unfold InputSession.pick
  split
  · split
    · exact h.readerAt _ _ _ (by rintro r ⟨⟩)
    · exact h.readerAt _ _ _ (by rintro r ⟨⟩)
  · exact h

theorem Inv.textAck (h : Inv s) (sequence : Nat) : Inv (s.textAck sequence) := by
  unfold InputSession.textAck
  split
  · split
    · exact h.readerAt _ _ _ (by rintro r ⟨⟩; rfl)
    · next hrange =>
      obtain ⟨hcore, hgrows, hothers⟩ := h.core.popAcked (a := sequence) (by omega)
      exact ⟨hcore, h.commit, h.caller.frame hgrows fun _ _ _ _ => hothers, trivial,
        fun _ _ _ _ hq => nomatch hq⟩
  · exact h

theorem Inv.responseDone (h : Inv s) : Inv s.responseDone := by
  unfold InputSession.responseDone
  split
  · exact h.readerAt _ _ _ (by rintro r ⟨⟩)
  · exact h

theorem Inv.event (h : Inv s) : Inv s.event := by
  unfold InputSession.event
  split
  · exact h.readerAt _ _ _ (by rintro r ⟨⟩)
  · exact h

theorem Inv.breaks (h : Inv s) : Inv s.breaks := by
  unfold InputSession.breaks
  split
  · exact h.readerAt _ _ _ (by rintro r ⟨⟩; rfl)
  · exact h

/-! ### The recovery -/

/-- What a step of `_recover_connection` leaves behind: the texts and connections are in order, a thread
that goes on knows what it did, and one that returns `True` finds every text on the connection. -/
structure Recovered (s : InputSession) (r : Recovery) (s' : InputSession) (progress : Progress) :
    Prop where
  core : Core s'.toInputState
  tasks : s'.caller = s.caller ∧ s'.reader = s.reader ∧ s'.inputClosed = s.inputClosed
  next : s'.nextSequence = s.nextSequence
  supported : s'.resumeSupported = s.resumeSupported
  commitSent : s'.commitSent = s.commitSent
  /-- the current connection stays, or a new one that has every text is installed -/
  grows : Grows s.toInputState s'.toInputState ∨ AllOn s'.toInputState s'.conn
  others : r.leads = false →
    Grows s.toInputState s'.toInputState ∧ OthersKept s.toInputState s'.toInputState
  going : ∀ r', progress = .going r' → RecoveryOk s'.toInputState r'
    ∧ (∀ c, r' = .waiting c → c = s'.conn ∨ (s' = s ∧ r = .waiting c))
    ∧ (r'.leads = true → r.leads = true ∨ s.recovering = false)
  ok : progress = .returned true →
    AllOn s'.toInputState s'.conn ∨ (s' = s ∧ ∃ c, r = .waiting c ∧ c ≠ s.conn)

/-- The replacement of a leader gets a frame. -/
theorem Core.writeNew {d : InputState} (h : Core d) {new : Conn} (hnew : Replacement d new)
    (f : InputFrame) :
    let d' := { d with written := Function.update d.written new (d.written new ++ [f]) }
    Core d' ∧ Grows d d' := by
  intro d'
  have hsame : d'.written d.conn = d.written d.conn := Function.update_of_ne hnew.ne.symm ..
  have hsub : sequences (d.written d.conn) ⊆ sequences (d'.written d.conn) := by
    rw [hsame]
    exact fun _ hm => hm
  refine ⟨⟨h.carries.frame hsame rfl rfl (le_refl _) id, h.dialed, ?_, h.acknowledged, ?_, h.journal⟩,
    ⟨rfl, rfl, rfl, le_refl _, le_refl _, le_refl _, id, id, rfl, hsub⟩⟩
  · intro c hc
    have hne : c ≠ new := Nat.ne_of_gt (Nat.lt_of_lt_of_le hnew.dialed hc)
    show Function.update d.written new _ c = []
    rw [Function.update_of_ne hne]
    exact h.fresh c hc
  · intro n hn
    obtain ⟨hlt, hon⟩ := h.returned n hn
    exact ⟨hlt, hon.mono (le_refl _) hsub⟩

/-- One more connection was dialed. -/
theorem Core.dials {d : InputState} (h : Core d) :
    Core { d with dialed := d.dialed + 1 } ∧ Grows d { d with dialed := d.dialed + 1 } := by
  refine ⟨⟨?_, Nat.lt_succ_of_lt h.dialed, ?_, h.acknowledged, h.returned, h.journal⟩,
    ⟨rfl, rfl, rfl, Nat.le_succ _, le_refl _, le_refl _, id, id, rfl, fun _ hm => hm⟩⟩
  · exact h.carries.frame rfl rfl rfl (le_refl _) id
  · exact fun c hc => h.fresh c (Nat.le_of_succ_le hc)

theorem Grows.trans {d₁ d₂ d₃ : InputState} (h : Grows d₁ d₂) (g : Grows d₂ d₃) : Grows d₁ d₃ where
  conn := g.conn.trans h.conn
  next := g.next.trans h.next
  supported := g.supported.trans h.supported
  dialed := le_trans h.dialed g.dialed
  version := le_trans h.version g.version
  acknowledged := le_trans h.acknowledged g.acknowledged
  commitSent := fun hc => g.commitSent (h.commitSent hc)
  closed := fun hc => by
    have := g.closed (by rw [h.conn]; exact h.closed hc)
    rwa [h.conn] at this
  ackedAt := by
    have := g.ackedAt
    rw [h.conn] at this
    exact this.trans h.ackedAt
  sequences := fun _ hm => by
    have := g.sequences
    rw [h.conn] at this
    exact this (h.sequences hm)

/-- A leader that goes on with its connection. -/
theorem Recovered.leads {s : InputSession} (s' : InputSession) {p p' : ResumePhase} (hcore : Core s'.toInputState)
    (hgrows : Grows s.toInputState s'.toInputState) (hok : RecoveryOk s.toInputState (.leading p))
    (htasks : s'.caller = s.caller ∧ s'.reader = s.reader ∧ s'.inputClosed = s.inputClosed)
    (hsent : s'.commitSent = s.commitSent) (hleads : Leads s'.toInputState p') :
    Recovered s (.leading p) s' (.going (.leading p')) where
  core := hcore
  tasks := htasks
  next := hgrows.next
  supported := hgrows.supported
  commitSent := hsent
  grows := .inl hgrows
  others := fun hr => nomatch hr
  going := by
    rintro r' ⟨⟩
    refine ⟨⟨hgrows.supported.trans hok.1, ?_, hleads⟩, fun c hr => (nomatch hr), fun _ => .inl rfl⟩
    rw [hgrows.conn]
    exact hgrows.closed hok.2.1
  ok := fun h => nomatch h

/-- A leader whose attempt has failed. -/
theorem Recovered.fails {s : InputSession} (s' : InputSession) {p : ResumePhase} (hcore : Core s'.toInputState)
    (hgrows : Grows s.toInputState s'.toInputState) (hok : RecoveryOk s.toInputState (.leading p))
    (htasks : s'.caller = s.caller ∧ s'.reader = s.reader ∧ s'.inputClosed = s.inputClosed)
    (hsent : s'.commitSent = s.commitSent) (attempt : Nat) :
    Recovered s (.leading p) s' (s.attemptFailed attempt) := by
  unfold attemptFailed
  split
  · exact .leads s' hcore hgrows hok htasks hsent trivial
  · exact ⟨hcore, htasks, hgrows.next, hgrows.supported, hsent, .inl hgrows, (fun h => nomatch h),
      fun _ h => (nomatch h), fun h => nomatch h⟩

/-- The attempt gets an answer to its `qwen.response.resume`. -/
theorem handleResumed_spec (h : Core s.toInputState) {attempt : Nat}
    (hok : RecoveryOk s.toInputState (.leading (.dialing attempt))) (acked : Nat) (inputClosed : Bool) :
    Recovered s (.leading (.dialing attempt)) (s.handleResumed attempt acked inputClosed).1
      (s.handleResumed attempt acked inputClosed).2 := by
  obtain ⟨hdials, hgrows⟩ := h.dials
  have hnew : Replacement { s.toInputState with dialed := s.dialed + 1 } s.dialed :=
    ⟨Nat.ne_of_gt h.dialed, Nat.lt_succ_self _⟩
  unfold handleResumed
  split
  · exact .fails ({ s with dialed := s.dialed + 1 }.close s.dialed) (hdials.closes s.dialed)
      (hgrows.trans (close_grows _ s.dialed).1) hok ⟨rfl, rfl, rfl⟩ rfl attempt
  · next hrange =>
    obtain ⟨hwrites, hgrows'⟩ := hdials.writeNew hnew .resume
    refine .leads _ hwrites (hgrows.trans hgrows') hok ⟨rfl, rfl, rfl⟩ rfl ⟨⟨hnew.ne, hnew.dialed⟩, ?_, ?_⟩
    · show Function.update s.written s.dialed (s.written s.dialed ++ [.resume]) s.dialed = _
      rw [Function.update_self, h.fresh s.dialed (le_refl _)]
      rfl
    · have hpos := h.acknowledged
      show acked < s.nextSequence
      omega

/-- The journal is popped, and its replay begins. -/
theorem resumed_spec (h : Core s.toInputState) {attempt acked : Nat} {new : Conn} {inputClosed : Bool}
    (hok : RecoveryOk s.toInputState (.leading (.resumed attempt new acked inputClosed)))
    (outcome : ResumeOutcome) :
    Recovered s (.leading (.resumed attempt new acked inputClosed))
      (s.lead outcome (.resumed attempt new acked inputClosed)).1
      (s.lead outcome (.resumed attempt new acked inputClosed)).2 := by
  obtain ⟨hsupported, hclosed, hnew, hwritten, hacked⟩ := hok
  obtain ⟨hcore, hgrows, -⟩ := h.popAcked hacked
  obtain ⟨j, hj, hentries⟩ := hcore.journal hsupported
  have hjn : j < s.nextSequence := lt_of_le_of_lt hj hcore.acknowledged
  let ackedAt := Function.update s.ackedAt new (s.popAcked acked).acknowledged
  have hat : ackedAt s.conn = s.ackedAt s.conn := Function.update_of_ne hnew.ne.symm ..
  have hatNew : ackedAt new = (s.popAcked acked).acknowledged := Function.update_self ..
  let d' : InputState := { (s.popAcked acked).toInputState with ackedAt := ackedAt }
  have hnew' : Replacement d' new := ⟨hnew.ne, hnew.dialed⟩
  have hmoved : Grows (s.popAcked acked).toInputState d' :=
    ⟨rfl, rfl, rfl, le_refl _, le_refl _, le_refl _, id, id, hat, fun _ hm => hm⟩
  have hcore' : Core d' := by
    refine ⟨hcore.carries.frame rfl hat rfl (le_refl _) id, hcore.dialed, hcore.fresh,
      hcore.acknowledged, ?_, hcore.journal⟩
    intro n hn
    obtain ⟨hlt, hon⟩ := hcore.returned n hn
    exact ⟨hlt, hon.mono (le_of_eq hat.symm) fun _ hm => hm⟩
  have hcarries : Carries d' new := by
    have hempty : sequences (d'.written new) = [] := by
      show sequences (s.written new) = []
      rw [hwritten]
      rfl
    refine ⟨fun _ => ⟨[], hwritten⟩, ?_, ?_, ?_, le_of_eq hatNew, ?_⟩
    · rw [hempty]
      exact fun n hn => nomatch hn
    · rw [hempty]
      exact List.Pairwise.nil
    · show Gapless _ _ (s.written new)
      rw [hwritten]
      exact gapless_resume
    · show .commit ∈ s.written new → _
      rw [hwritten]
      exact fun hc => nomatch List.mem_singleton.1 hc
  refine .leads _ hcore' (hgrows.trans hmoved) ⟨hsupported, hclosed, hnew, hwritten, hacked⟩ ⟨rfl, rfl, rfl⟩
    rfl ⟨hnew', le_refl _, fun _ => ⟨hcarries, ?_, j + 1, ?_, ?_, ?_, ?_⟩⟩
  · show .commit ∉ s.written new
    rw [hwritten]
    exact fun hc => nomatch List.mem_singleton.1 hc
  · have hlength := congrArg List.length hentries
    rw [List.length_map, List.length_range'] at hlength
    rw [hlength]
    exact hentries
  · have hlength := congrArg List.length hentries
    rw [List.length_map, List.length_range'] at hlength
    rw [hlength]
    show j + 1 + (s.nextSequence - (j + 1)) = s.nextSequence
    omega
  · intro m hm
    refine .inl ?_
    show m ≤ ackedAt new
    rw [hatNew]
    omega
  · show ∀ n ∈ sequences (s.written new), n < j + 1
    rw [hwritten]
    exact fun n hn => nomatch hn

/-- A leader writes a frame that everything due stands before to its replacement. -/
theorem Carries.writeNew {d : InputState} {new : Conn} (h : Carries d new) {f : InputFrame}
    (hdue : ∀ m, d.ackedAt new < m → Due d.nextSequence m f → On d new m)
    (hlast : ∀ n text, f = .append n text →
      n < d.nextSequence ∧ ∀ m ∈ sequences (d.written new), m ≤ n)
    (hcommits : f = .commit → d.commitSent = true) :
    Carries { d with written := Function.update d.written new (d.written new ++ [f]) } new := by
  refine h.write (Function.update_self ..) rfl rfl (le_refl _) id ?_ hlast hcommits
  intro m hm hd
  rcases hdue m hm hd with hle | hmem
  · exact absurd hm (not_lt.2 hle)
  · exact hmem

/-- The replay is over, and the commit is written if the input was closed. -/
theorem finishReplay_spec (h : Core s.toInputState) {attempt version : Nat} {new : Conn}
    {inputClosed : Bool}
    (hok : RecoveryOk s.toInputState (.leading (.replaying attempt new [] inputClosed version)))
    (hversion : version = s.version) (outcome : ResumeOutcome) :
    Recovered s (.leading (.replaying attempt new [] inputClosed version))
      (s.finishReplay attempt new inputClosed outcome).1
      (s.finishReplay attempt new inputClosed outcome).2 := by
  obtain ⟨hnew, -, hreplays⟩ := hok.2.2
  obtain ⟨hcarries, -, k, -, hnext, hon, -⟩ := hreplays hversion
  have hall : AllOn s.toInputState new := fun m hm => hon m (by
    simp only [List.length_nil] at hnext
    omega)
  unfold finishReplay
  split
  · next hcommit =>
    split
    · obtain ⟨hwrites, hgrows⟩ := h.writeNew hnew .commit
      refine .leads _ hwrites hgrows hok ⟨rfl, rfl, rfl⟩ rfl ⟨⟨hnew.ne, hnew.dialed⟩, ?_, ?_⟩
      · refine hcarries.writeNew (fun m _ hdue => hall m hdue) (fun n text hf => nomatch hf) fun _ => ?_
        rw [Bool.and_eq_true] at hcommit
        exact hcommit.1
      · intro m hm
        refine (hall m hm).mono (le_refl _) ?_
        show _ ⊆ sequences (Function.update s.written new (s.written new ++ [.commit]) new)
        rw [Function.update_self]
        exact fun _ hk => sequences_subset_concat _ _ hk
    · exact .fails (s.close new) (h.closes new) (close_grows _ new).1 hok ⟨rfl, rfl, rfl⟩ rfl attempt
  · refine .leads s h ⟨rfl, rfl, rfl, le_refl _, le_refl _, le_refl _, id, id, rfl, fun _ hm => hm⟩ hok
      ⟨rfl, rfl, rfl⟩ rfl ⟨hnew, hcarries, hall⟩

/-- A state that nothing was done to. -/
theorem Grows.refl (d : InputState) : Grows d d :=
  ⟨rfl, rfl, rfl, le_refl _, le_refl _, le_refl _, id, id, rfl, fun _ hm => hm⟩

/-- An entry of the journal is replayed. -/
theorem replayEntry_spec (h : Core s.toInputState) {attempt version : Nat} {new : Conn}
    {entry : Nat × String} {rest : List (Nat × String)} {inputClosed : Bool}
    (hok : RecoveryOk s.toInputState
      (.leading (.replaying attempt new (entry :: rest) inputClosed version)))
    (hversion : version = s.version) :
    Recovered s (.leading (.replaying attempt new (entry :: rest) inputClosed version))
      (s.writeTo new (.append entry.1 entry.2))
      (.going (.leading (.replaying attempt new rest inputClosed version))) := by
  obtain ⟨hnew, hle, hreplays⟩ := hok.2.2
  obtain ⟨hcarries, huncommitted, k, hseqs, hnext, hon, hbelow⟩ := hreplays hversion
  rw [List.map_cons, List.length_cons, List.range'_succ, List.cons.injEq] at hseqs
  obtain ⟨rfl, hrest⟩ := hseqs
  rw [List.length_cons] at hnext
  obtain ⟨hwrites, hgrows⟩ := h.writeNew hnew (.append entry.1 entry.2)
  have hwritten : (s.writeTo new (.append entry.1 entry.2)).written new
      = s.written new ++ [.append entry.1 entry.2] := Function.update_self ..
  refine .leads _ hwrites hgrows hok ⟨rfl, rfl, rfl⟩ rfl
    ⟨⟨hnew.ne, hnew.dialed⟩, hle, fun _ => ⟨?_, ?_, entry.1 + 1, hrest, ?_, ?_, ?_⟩⟩
  · refine hcarries.writeNew (fun m _ hdue => hon m hdue) ?_ fun hf => nomatch hf
    intro n text hf
    cases hf
    exact ⟨by omega, fun m hm => Nat.le_of_lt (hbelow m hm)⟩
  · rw [hwritten]
    intro hc
    rcases List.mem_append.1 hc with hc | hc
    · exact huncommitted hc
    · exact nomatch List.mem_singleton.1 hc
  · show entry.1 + 1 + rest.length = s.nextSequence
    omega
  · intro m hm
    refine on_of_write hwritten rfl ?_
    rcases Nat.lt_succ_iff_lt_or_eq.1 hm with hlt | heq
    · exact .inr (hon m hlt)
    · exact .inl heq
  · rw [hwritten, sequences_concat_append]
    intro n hn
    rcases List.mem_append.1 hn with hn | hn
    · exact Nat.lt_succ_of_lt (hbelow n hn)
    · rw [List.mem_singleton.1 hn]
      exact Nat.lt_succ_self _

/-- The replacement is installed. -/
theorem install_spec (h : Core s.toInputState) {new : Conn}
    (hok : RecoveryOk s.toInputState (.leading (.replayed new))) :
    Recovered s (.leading (.replayed new)) { s with conn := new } (.returned true) := by
  obtain ⟨hnew, hcarries, hall⟩ := hok.2.2
  refine ⟨⟨?_, hnew.dialed, h.fresh, h.acknowledged, ?_, h.journal⟩, ⟨rfl, rfl, rfl⟩, rfl, rfl, rfl,
    .inr hall, (fun hr => nomatch hr), (fun _ hr => nomatch hr), fun _ => .inl hall⟩
  · exact hcarries.frame rfl rfl rfl (le_refl _) id
  · intro n hn
    have hlt := (h.returned n hn).1
    exact ⟨hlt, hall n hlt⟩

/-- A leader goes on. -/
theorem lead_spec (h : Core s.toInputState) {p : ResumePhase}
    (hok : RecoveryOk s.toInputState (.leading p)) (outcome : ResumeOutcome) :
    Recovered s (.leading p) (s.lead outcome p).1 (s.lead outcome p).2 := by
  cases p with
  | dialing attempt =>
      have hfails := Recovered.fails s h (.refl _) hok ⟨rfl, rfl, rfl⟩ rfl attempt
      cases outcome with
      | failed => exact hfails
      | ok => exact hfails
      | unsupported =>
          exact ⟨h, ⟨rfl, rfl, rfl⟩, rfl, rfl, rfl, .inl (.refl _), (fun hr => nomatch hr),
            (fun _ hr => nomatch hr),
            fun hr => nomatch hr⟩
      | resumed acked inputClosed => exact handleResumed_spec h hok acked inputClosed
  | resumed attempt new acked inputClosed => exact resumed_spec h hok outcome
  | replaying attempt new rest inputClosed version =>
      simp only [lead]
      split
      · exact ⟨h, ⟨rfl, rfl, rfl⟩, rfl, rfl, rfl, .inl (.refl _), (fun hr => nomatch hr),
            (fun _ hr => nomatch hr),
          fun hr => nomatch hr⟩
      · next hversion =>
        have hsame := not_ne_iff.1 hversion
        cases rest with
        | nil => exact finishReplay_spec h hok hsame outcome
        | cons entry rest =>
            dsimp only
            split
            · exact replayEntry_spec h hok hsame
            · exact .fails (s.close new) (h.closes new) (close_grows _ new).1 hok ⟨rfl, rfl, rfl⟩ rfl
                attempt
  | replayed new => exact install_spec h hok

/-- A step of `_recover_connection`. -/
theorem recoverStep_spec (h : Core s.toInputState) {r : Recovery} (hok : RecoveryOk s.toInputState r)
    (outcome : ResumeOutcome) :
    Recovered s r (s.recoverStep outcome r).1 (s.recoverStep outcome r).2 := by
  have hsame : Grows s.toInputState s.toInputState ∧ OthersKept s.toInputState s.toInputState :=
    ⟨.refl _, fun _ _ => ⟨rfl, rfl⟩⟩
  cases r with
  | called =>
      simp only [recoverStep]
      split
      · exact ⟨h, ⟨rfl, rfl, rfl⟩, rfl, rfl, rfl, .inl (.refl _), (fun _ => hsame),
          (fun _ hr => nomatch hr),
          fun hr => nomatch hr⟩
      · next hflags =>
        refine ⟨h, ⟨rfl, rfl, rfl⟩, rfl, rfl, rfl, .inl (.refl _), (fun _ => hsame), ?_,
          fun hr => nomatch hr⟩
        rintro r' ⟨⟩
        refine ⟨?_, ?_, fun hr => nomatch hr⟩
        · simp only [Bool.or_eq_true, Bool.not_eq_true', not_or, Bool.not_eq_false] at hflags
          exact hflags.1.1
        · rintro c ⟨⟩
          exact .inl rfl
  | waiting c =>
      simp only [recoverStep]
      split
      · refine ⟨h, ⟨rfl, rfl, rfl⟩, rfl, rfl, rfl, .inl (.refl _), (fun _ => hsame), ?_,
          fun hr => nomatch hr⟩
        rintro r' ⟨⟩
        refine ⟨hok, ?_, fun hr => nomatch hr⟩
        rintro c' ⟨⟩
        exact .inr ⟨rfl, rfl⟩
      · next hfree =>
        split
        · next hchanged =>
          exact ⟨h, ⟨rfl, rfl, rfl⟩, rfl, rfl, rfl, .inl (.refl _), (fun _ => hsame),
          (fun _ hr => nomatch hr),
            fun _ => .inr ⟨rfl, c, rfl, hchanged.symm⟩⟩
        · next hconn =>
          refine ⟨h.closes c, ⟨rfl, rfl, rfl⟩, rfl, rfl, rfl, .inl (close_grows _ c).1,
            (fun _ => close_grows _ c), ?_, fun hr => nomatch hr⟩
          rintro r' ⟨⟩
          refine ⟨⟨hok, ?_, trivial⟩, fun _ hr => (nomatch hr), fun _ => .inr (by simpa using hfree)⟩
          show Function.update s.closed c true s.conn = true
          rw [not_ne_iff.1 hconn, Function.update_self]
  | leading p => exact lead_spec h hok outcome

/-- The recovery of the other thread goes on. -/
theorem Recovered.recoveryOk {s' : InputSession} {r other : Recovery} {progress : Progress}
    (h : Recovered s r s' progress) (hok : RecoveryOk s.toInputState other)
    (hone : r.leads = true → other.leads = false) : RecoveryOk s'.toInputState other := by
  cases hr : r.leads with
  | false =>
      obtain ⟨hgrows, hothers⟩ := h.others hr
      exact hok.frame hgrows fun _ => hothers
  | true =>
      cases other with
      | called => trivial
      | waiting c => exact h.supported.trans hok
      | leading p => cases hone hr

/-- The reader while the caller goes on in `_recover_connection`. -/
theorem Recovered.readerOk {s' : InputSession} {r : Recovery} {progress : Progress}
    (h : Recovered s r s' progress) (hok : ReaderOk s.toInputState s.reader)
    (hone : ∀ q, r.leads = true → s.reader ≠ .recovering (.leading q)) :
    ReaderOk s'.toInputState s'.reader := by
  rw [h.tasks.2.1]
  cases htask : s.reader with
  | recovering other =>
      rw [htask] at hok
      refine Recovered.recoveryOk h hok fun hr => ?_
      cases other with
      | called | waiting => rfl
      | leading q => exact absurd htask (hone q hr)
  | idle | receiving | exited => trivial

/-- The caller while the reader goes on in `_recover_connection`. -/
theorem Recovered.callerOk {s' : InputSession} {r : Recovery} {progress : Progress}
    (h : Recovered s r s' progress) (hok : CallerOk s.toInputState s.caller)
    (hone : ∀ call p, r.leads = true → s.caller ≠ .recovering call (.leading p)) :
    CallerOk s'.toInputState s'.caller := by
  rw [h.tasks.1]
  cases hr : r.leads with
  | false =>
      obtain ⟨hgrows, hothers⟩ := h.others hr
      exact hok.frame hgrows fun _ _ _ _ => hothers
  | true =>
      have hnot : ∀ call other, s.caller = .recovering call other → other.leads = false := by
        intro call other htask
        cases other with
        | called | waiting => rfl
        | leading p => exact absurd htask (hone call p hr)
      rcases h.grows with hgrows | hall
      · refine hok.frame hgrows fun call other htask hleads => ?_
        rw [hnot call other htask] at hleads
        cases hleads
      · exact hok.of_allOn hall h.next h.supported h.commitSent hnot

/-- A session whose connection stays or has every text is settled. -/
theorem Recovered.settled {s' : InputSession} {r : Recovery} {progress : Progress}
    (h : Recovered s r s' progress) (hsettled : Settled s.toInputState) : Settled s'.toInputState := by
  rcases h.grows with hgrows | hall
  · exact hgrows.settled hsettled
  · exact fun _ => hall

/-- A thread that leads finds the lock free or has it. -/
theorem leads_of_recovering (h : s.recovering = false) :
    (∀ call p, s.caller ≠ .recovering call (.leading p))
      ∧ ∀ q, s.reader ≠ .recovering (.leading q) := by
  simp only [recovering, Bool.or_eq_false_iff] at h
  constructor
  · intro call p htask
    rw [htask] at h
    cases h.1
  · intro q htask
    rw [htask] at h
    cases h.2

theorem Inv.callerRecovers (h : Inv s) (outcome : ResumeOutcome) : Inv (s.callerRecovers outcome) := by
  unfold InputSession.callerRecovers
  split
  · next call r htask =>
    have hcaller := h.caller
    rw [htask] at hcaller
    obtain ⟨hsettled, hbelow, hwaiting, hok⟩ := hcaller
    have hone : ∀ q, r.leads = true → s.reader ≠ .recovering (.leading q) := by
      intro q hr hreader
      cases r with
      | called | waiting => cases hr
      | leading p => exact h.one call p q htask hreader
    have hspec := recoverStep_spec h.core hok outcome
    have hcommit : (s.recoverStep outcome r).1.commitSent = true →
        (s.recoverStep outcome r).1.inputClosed = true := by
      rw [hspec.commitSent, hspec.tasks.2.2]
      exact h.commit
    have hreader := hspec.readerOk h.reader hone
    have hsettled' := hspec.settled hsettled
    have hbelow' : ∀ n text, call = .sendText n text →
        n < (s.recoverStep outcome r).1.nextSequence := by
      rw [hspec.next]
      exact hbelow
    split
    · next s' r' heq =>
      rw [heq] at hspec hcommit hreader hsettled' hbelow'
      obtain ⟨hok', hwait, hlock⟩ := hspec.going r' rfl
      refine ⟨hspec.core, hcommit, ⟨hsettled', hbelow', ?_, hok'⟩, hreader, ?_⟩
      · intro c hr hne
        rcases hwait c hr with hc | ⟨rfl, hr₀⟩
        · exact absurd hc hne
        · exact hwaiting c hr₀ hne
      · intro call' p q htask' hq
        cases htask'
        have hq' : s.reader = .recovering (.leading q) := hspec.tasks.2.1.symm.trans hq
        rcases hlock rfl with hr | hfree
        · exact hone q hr hq'
        · exact (leads_of_recovering hfree).2 q hq'
    · next s' ok heq =>
      rw [heq] at hspec hcommit hreader hsettled' hbelow'
      cases ok with
      | true =>
          have hall : AllOn s'.toInputState s'.conn := by
            rcases hspec.ok rfl with hall | ⟨rfl, c, hr, hne⟩
            · exact hall
            · exact hwaiting c hr hne
          cases call with
          | cancel => exact .of_idle hspec.core hcommit hreader (fun _ => hall) fun _ _ h => nomatch h
          | sendText n text => exact Inv.finishCall hspec.core hcommit hreader _ hbelow' hall
          | «end» => exact Inv.finishCall hspec.core hcommit hreader _ hbelow' hall
      | false =>
          cases call with
          | cancel => exact .of_idle hspec.core hcommit hreader hsettled' fun _ _ h => nomatch h
          | sendText n text => exact .of_idle hspec.core hcommit hreader hsettled' fun _ _ h => nomatch h
          | «end» => exact .of_idle hspec.core hcommit hreader hsettled' fun _ _ h => nomatch h
    · next s' heq =>
      rw [heq] at hspec hcommit hreader hsettled'
      exact .of_idle hspec.core hcommit hreader hsettled' fun _ _ h => nomatch h
  · exact h

theorem Inv.readerRecovers (h : Inv s) (outcome : ResumeOutcome) : Inv (s.readerRecovers outcome) := by
  unfold InputSession.readerRecovers
  split
  · next r htask =>
    have hok := h.reader
    rw [htask] at hok
    have hone : ∀ call p, r.leads = true → s.caller ≠ .recovering call (.leading p) := by
      intro call p hr hcaller
      cases r with
      | called | waiting => cases hr
      | leading q => exact h.one call p q hcaller htask
    have hspec := recoverStep_spec h.core hok outcome
    have hcommit : (s.recoverStep outcome r).1.commitSent = true →
        (s.recoverStep outcome r).1.inputClosed = true := by
      rw [hspec.commitSent, hspec.tasks.2.2]
      exact h.commit
    have hcaller := hspec.callerOk h.caller hone
    split
    · next s' r' heq =>
      rw [heq] at hspec hcommit hcaller
      obtain ⟨hok', -, hlock⟩ := hspec.going r' rfl
      refine ⟨hspec.core, hcommit, hcaller, hok', ?_⟩
      intro call p q htask' hq
      have htask₀ : s.caller = .recovering call (.leading p) := hspec.tasks.1.symm.trans htask'
      cases hq
      rcases hlock rfl with hr | hfree
      · exact hone call p hr htask₀
      · exact (leads_of_recovering hfree).1 call p htask₀
    · next s' ok heq =>
      rw [heq] at hspec hcommit hcaller
      unfold readerRecovered
      split
      · exact ⟨hspec.core, hcommit, hcaller, trivial, fun _ _ _ _ hq => nomatch hq⟩
      · exact ⟨hspec.core, hcommit, hcaller, trivial, fun _ _ _ _ hq => nomatch hq⟩
    · next s' heq =>
      rw [heq] at hspec hcommit hcaller
      exact ⟨hspec.core, hcommit, hcaller, trivial, fun _ _ _ _ hq => nomatch hq⟩
  · exact h

/-! ## The runs -/

/-- What a step keeps. -/
theorem Inv.step (h : Inv s) {i : InputStep} (hundisturbed : s.Undisturbed i) : Inv (s.step i) := by
  cases i with
  | sendText text seqNo => exact h.sendText text seqNo hundisturbed
  | «end» => exact h.endInput
  | cancel => exact h.cancel
  | write ok => exact h.write ok
  | pick => exact h.pick
  | textAck sequence => exact h.textAck sequence
  | responseDone => exact h.responseDone
  | event => exact h.event
  | breaks => exact h.breaks
  | recover t outcome =>
      cases t with
      | caller => exact h.callerRecovers outcome
      | reader => exact h.readerRecovers outcome

end

/-! ### A text before and a text behind the replay -/

section

end

end InputSession

end Realtime

end StreamingTts.Client
