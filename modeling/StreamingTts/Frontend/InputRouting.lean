import StreamingTts.Frontend.Scan

/-!
# The way of a text into the committer

What `FrontendInterface._push_text_input_locked` and `_mark_input_complete_locked` do to the text that
they are given, up to the committer: the held suffix of `split_pending_emoji`, the
`DiagnosticTextRouter` of `engine/frontend/diagnostic_text.py`, and in `FULL_TEXT` mode the text buffer.
`fed` is the history of the texts that `_tn_feed` was given.

Before the end of the input nothing is lost and nothing is reordered (`TextInput.push_total`). The flush
keeps the order too, unless it finds a held suffix behind a held prefix of the version query
(`TextInput.flush_routed`).
-/

namespace StreamingTts.Frontend

/-! ## Held suffixes -/

/-- `_incomplete_emoji_suffix_len`. -/
def incompleteEmojiSuffixLen (text : Text) : Nat :=
  match text.reverse with
  | [] => 0
  | c :: rest =>
      if Committer.isKeycapBase c then 1
      else if c.toNat = 0xFE0F ∧ rest.head?.any Committer.isKeycapBase then 2
      else 0

/-- `split_pending_emoji`: what is emitted now, and what is held for the next packet. -/
def splitPendingEmoji (text : Text) : Text × Text :=
  let cut := text.length - incompleteEmojiSuffixLen text
  (text.take cut, text.drop cut)

theorem splitPendingEmoji_append (text : Text) :
    (splitPendingEmoji text).1 ++ (splitPendingEmoji text).2 = text :=
  List.take_append_drop _ _

/-! ## The version query -/

/-- `DiagnosticTextRouter`. `normalize_version_query_text` refuses an empty query. -/
structure DiagnosticTextRouter where
  versionQueryText : Text
  versionQueryText_ne : versionQueryText ≠ []
  pending : List Text
  passthrough : Bool

namespace DiagnosticTextRouter

variable (r : DiagnosticTextRouter)

/-- A new router. -/
def new (versionQueryText : Text) (hne : versionQueryText ≠ []) : DiagnosticTextRouter :=
  ⟨versionQueryText, hne, [], false⟩

/-- `push`: the chunks that are released. -/
def push (text : Text) : List Text × DiagnosticTextRouter :=
  if text = [] then ([], r)
  else if r.passthrough then ([text], r)
  else if (r.pending ++ [text]).flatten <+: r.versionQueryText then
    ([], { r with pending := r.pending ++ [text] })
  else (r.pending ++ [text], { r with pending := [], passthrough := true })

/-- `finish`: the chunks, and whether the query was matched. -/
def finish (versionText : Text) : (List Text × Bool) × DiagnosticTextRouter :=
  if r.passthrough then (([], false), r)
  else
    let done := { r with pending := [], passthrough := true }
    if r.pending.flatten = r.versionQueryText then (([versionText], true), done)
    else ((r.pending, false), done)

/-- What is held, and what has been released before. -/
structure Ok (fed : List Text) : Prop where
  passthrough : r.passthrough = true → r.pending = []
  fresh : r.passthrough = false → fed = []

variable {r}

/-- What is released and what is held is what was held, and the text. -/
theorem push_spec {fed : List Text} (h : r.Ok fed) (text : Text) :
    (r.push text).2.Ok (fed ++ (r.push text).1)
      ∧ (r.push text).1.flatten ++ (r.push text).2.pending.flatten = r.pending.flatten ++ text := by
  unfold push
  split
  · next hempty =>
    subst hempty
    exact ⟨by simpa using h, by simp⟩
  · split
    · next hpass =>
      have hpending := h.passthrough hpass
      refine ⟨⟨fun _ => hpending, fun hf => ?_⟩, by simp [hpending]⟩
      rw [hpass] at hf
      cases hf
    · next hpass =>
      have hpass : r.passthrough = false := Bool.eq_false_iff.2 hpass
      split
      · refine ⟨⟨fun ht => ?_, fun _ => by simp [h.fresh hpass]⟩, by simp⟩
        rw [hpass] at ht
        cases ht
      · exact ⟨⟨fun _ => rfl, nofun⟩, by simp⟩

end DiagnosticTextRouter

/-! ## The text of a session -/

/-- How `_push_text_input_locked` ends. -/
inductive FeedOutcome
  | ok
  /-- an exception before the text is looked at -/
  | pollFails
  /-- an exception behind the first `n` chunks -/
  | failsAfter (n : Nat)
  deriving DecidableEq

/-- The fields of a session that its text passes through. -/
structure TextInput where
  /-- `mode == InputMode.FULL_TEXT` -/
  fullText : Bool
  emojiCarry : Text
  router : DiagnosticTextRouter
  textBuffer : Text
  journalRaw : Text
  fed : List Text

namespace TextInput

variable (t : TextInput)

/-- A new session. -/
def new (fullText : Bool) (router : DiagnosticTextRouter) : TextInput :=
  ⟨fullText, [], router, [], [], []⟩

/-- `_push_text_input_locked`. -/
def push (text : Text) : FeedOutcome → TextInput
  | .pollFails => t
  | .ok =>
      if t.fullText then
        { t with journalRaw := t.journalRaw ++ text, textBuffer := t.textBuffer ++ text }
      else
        let (body, carry) := splitPendingEmoji (t.emojiCarry ++ text)
        let (chunks, router) := t.router.push body
        { t with emojiCarry := carry, router := router, fed := t.fed ++ chunks }
  | .failsAfter n =>
      if t.fullText then { t with journalRaw := t.journalRaw ++ text }
      else
        let (body, carry) := splitPendingEmoji (t.emojiCarry ++ text)
        let (chunks, router) := t.router.push body
        { t with emojiCarry := carry, router := router, fed := t.fed ++ chunks.take n }

/-- The turns of the loop over the chunks that `finish` releases. -/
def flushChunks : List Text → Text → List Text × Text
  | [], carry => ([], carry)
  | chunk :: rest, carry =>
      let (body, carry) := splitPendingEmoji (carry ++ chunk)
      let (fed, carry) := flushChunks rest carry
      (if body = [] then fed else body :: fed, carry)

/-- `_feed_full_text_locked` with the text that was buffered, or else the raw text of the journal. -/
def fullTextInput (versionText : Text) : Text :=
  let raw := if t.textBuffer = [] then t.journalRaw else t.textBuffer
  if raw = t.router.versionQueryText then versionText else raw

/-- The texts that `_mark_input_complete_locked` feeds. -/
def flush (versionText : Text) : TextInput :=
  if t.fullText then
    { t with textBuffer := [], fed := t.fed ++ [t.fullTextInput versionText] }
  else
    let ((chunks, matched), router) := t.router.finish versionText
    if matched then { t with emojiCarry := [], router := router, fed := t.fed ++ chunks }
    else
      let (fed, carry) := flushChunks chunks t.emojiCarry
      { t with
        emojiCarry := []
        router := router
        fed := t.fed ++ fed ++ if carry = [] then [] else [carry] }

/-! ## Nothing is lost on the way -/

/-- The text that has gone into a session, as far as it is known. -/
def total : Text :=
  if t.fullText then t.textBuffer else t.fed.flatten ++ t.router.pending.flatten ++ t.emojiCarry

/-- The parts of a session's text fit together. -/
structure Ok : Prop where
  router : t.router.Ok t.fed
  buffer : t.fullText = true → t.fed = [] ∧ t.journalRaw = t.textBuffer

variable {t}

theorem Ok.new (fullText : Bool) {versionQueryText : Text} (hne : versionQueryText ≠ []) :
    (new fullText (.new versionQueryText hne)).Ok where
  router := ⟨fun _ => rfl, fun _ => rfl⟩
  buffer _ := ⟨rfl, rfl⟩

/-- A text that is pushed comes behind the earlier ones. -/
theorem push_total (h : t.Ok) (text : Text) :
    (t.push text .ok).Ok ∧ (t.push text .ok).total = t.total ++ text := by
  unfold push
  cases hfull : t.fullText with
  | true =>
      obtain ⟨hfed, hjournal⟩ := h.buffer hfull
      refine ⟨⟨h.router, fun _ => ⟨hfed, ?_⟩⟩, ?_⟩
      · simp [hjournal]
      · simp [total, hfull]
  | false =>
      have hsplit := splitPendingEmoji_append (t.emojiCarry ++ text)
      obtain ⟨hrouter, hpush⟩ :=
        DiagnosticTextRouter.push_spec h.router (splitPendingEmoji (t.emojiCarry ++ text)).1
      refine ⟨⟨hrouter, fun ht => ?_⟩, ?_⟩
      · cases ht
      · simp only [total, hfull, Bool.false_eq_true, if_false, List.flatten_append, List.append_assoc]
        rw [← List.append_assoc _ _ (splitPendingEmoji (t.emojiCarry ++ text)).2, hpush,
          List.append_assoc, hsplit]

/-- The query stays what it is. -/
theorem push_query (t : TextInput) (text : Text) (outcome : FeedOutcome) :
    (t.push text outcome).router.versionQueryText = t.router.versionQueryText := by
  have hrouter (body : Text) : (t.router.push body).2.versionQueryText = t.router.versionQueryText := by
    unfold DiagnosticTextRouter.push
    repeat' split
    all_goals rfl
  cases outcome with
  | pollFails => rfl
  | ok | failsAfter n =>
      unfold push
      simp only
      split
      · rfl
      · exact hrouter _

theorem flush_query (t : TextInput) (versionText : Text) :
    (t.flush versionText).router.versionQueryText = t.router.versionQueryText := by
  have hrouter : (t.router.finish versionText).2.versionQueryText = t.router.versionQueryText := by
    unfold DiagnosticTextRouter.finish
    simp only
    repeat' split
    all_goals rfl
  unfold flush
  simp only
  split
  · rfl
  · split <;> exact hrouter

/-- The loop of the flush keeps the text. -/
theorem flushChunks_flatten (chunks : List Text) (carry : Text) :
    (flushChunks chunks carry).1.flatten ++ (flushChunks chunks carry).2
      = carry ++ chunks.flatten := by
  induction chunks generalizing carry with
  | nil => simp [flushChunks]
  | cons chunk rest ih =>
      have hsplit := splitPendingEmoji_append (carry ++ chunk)
      have hrest := ih (splitPendingEmoji (carry ++ chunk)).2
      simp only [flushChunks, List.flatten_cons]
      split
      · next hbody =>
        rw [hbody, List.nil_append] at hsplit
        rw [hrest, hsplit, List.append_assoc]
      · rw [List.flatten_cons, List.append_assoc, hrest, ← List.append_assoc, hsplit,
          List.append_assoc]

/-- The committer was given the text, or the version for the exact version query. -/
def Routed (versionQueryText versionText text given : Text) : Prop :=
  given = text ∨ (text = versionQueryText ∧ given = versionText)

/-- The flush gives the committer everything that has gone into the session, in order, unless a held
suffix stands behind a held prefix of the query. -/
theorem flush_routed (h : t.Ok) (versionText : Text)
    (hheld : t.fullText = false → t.emojiCarry = [] ∨ t.router.pending = []) :
    Routed t.router.versionQueryText versionText t.total (t.flush versionText).fed.flatten := by
  unfold flush
  cases hfull : t.fullText with
  | true =>
      obtain ⟨hfed, hjournal⟩ := h.buffer hfull
      have hraw : (if t.textBuffer = [] then t.journalRaw else t.textBuffer) = t.textBuffer := by
        rw [hjournal, ite_self]
      simp only [if_true, hfed, List.nil_append, List.flatten_cons, List.flatten_nil, List.append_nil,
        fullTextInput, hraw, total, hfull]
      split
      · next hquery => exact .inr ⟨hquery, rfl⟩
      · exact .inl rfl
  | false =>
      have hheld := hheld hfull
      simp only [Bool.false_eq_true, if_false, total, hfull]
      unfold DiagnosticTextRouter.finish
      cases hpass : t.router.passthrough with
      | true =>
          have hpending := h.router.passthrough hpass
          refine .inl ?_
          by_cases hcarry : t.emojiCarry = []
          · simp [flushChunks, hpending, hcarry]
          · simp [flushChunks, hpending, hcarry]
      | false =>
          have hfed := h.router.fresh hpass
          simp only [Bool.false_eq_true, if_false]
          split
          · next hmatched =>
            -- a matched query is held, so nothing is held behind it
            have hcarry : t.emojiCarry = [] := by
              refine hheld.resolve_right fun hpending => ?_
              rw [hpending] at hmatched
              exact t.router.versionQueryText_ne hmatched.symm
            refine .inr ⟨?_, by simp [hfed]⟩
            simp [hfed, hcarry, hmatched]
          · refine .inl ?_
            have hchunks := flushChunks_flatten t.router.pending t.emojiCarry
            have horder : t.emojiCarry ++ t.router.pending.flatten
                = t.router.pending.flatten ++ t.emojiCarry := by
              rcases hheld with hcarry | hpending
              · simp [hcarry]
              · simp [hpending]
            simp only [Bool.false_eq_true, if_false, hfed, List.nil_append, List.flatten_nil]
            rw [← horder, ← hchunks, List.flatten_append]
            split
            · next hlast => simp [hlast]
            · simp

end TextInput

end StreamingTts.Frontend
