import StreamingTts.Frontend.ScanBlocks

/-!
# An open Markdown span keeps the invariant

The blocks of an open Markdown span look at a span that took the character already. At most one of
its flags is set, and each flag has its own way out: the construct is confirmed, it stays open, or the
span is cut back, closed and the character scanned again.
-/

namespace StreamingTts.Frontend

namespace Committer

variable {F : Type}

section
variable {e : Env F} {exact : Prop} {skip : Text → Nat → Prop} {past : List TextCommit}
  {c d : Committer F} {ch : Char} {pos : Nat}

/-- A Markdown span that took the character. -/
structure Took (c d : Committer F) (ch : Char) (pos : Nat) : Prop extends Extended c d ch pos where
  kind : d.pending.kind = .markdown
  bang : d.candidates.bang = false
  leadingDecimal : d.leadingDecimal = false

/-- It has two characters at least. -/
theorem Extended.length_ge (h : Extended c d ch pos) (hc : ¬ c.Closed) : 2 ≤ d.pending.raw.length := by
  have hlen : 0 < c.pending.raw.length := List.length_pos_iff.2 hc
  rw [h.raw, List.length_append, List.length_singleton]
  omega

theorem Extended.open (h : Extended c d ch pos) : ¬ d.Closed := by
  unfold Closed
  rw [h.raw]
  simp

/-- The flags of a Markdown span of more than one character, by the one flag that is set. -/
theorem Took.flags (h : Took c d ch pos) (hc : ¬ c.Closed) (hsolo : d.candidates.Solo)
    (himage : d.candidates.image = false) (hordered : d.candidates.orderedMarker = false)
    (hline : d.candidates.lineMarker = true → d.pending.raw.all (fun x => x = '-') = true) :
    Flags d where
  solo := hsolo
  kind := fun _ => ⟨h.kind, h.open⟩
  opener := fun x hx _ => absurd (h.length_ge hc) (by rw [hx]; simp)
  image := fun hi => absurd hi (by rw [himage]; simp)
  line := fun hl => .inr (hline hl)
  ordered := fun ho => absurd ho (by rw [hordered]; simp)
  bang := fun hb => absurd hb (by rw [h.bang]; simp)
  paren := fun _ _ => h.pendingGap
  decimal := fun hd => absurd hd (by rw [h.leadingDecimal]; simp)

/-- The quote state is not part of the layout. -/
theorem Took.setQuotes (h : Took c d ch pos) (jsonInString jsonEscape : Bool) :
    Took c { d with jsonInString, jsonEscape } ch pos :=
  ⟨⟨h.source, h.raw, h.start, h.stop, h.pendingGap, h.plain, h.terminator, h.outbox, h.commitFence,
    h.nextCommitId, h.inlineHashGap⟩, h.kind, h.bang, h.leadingDecimal⟩

/-- Other flags of a Markdown span. -/
theorem Took.setFlags (h : Took c d ch pos) {k : Candidates} (hbang : k.bang = false) :
    Took c { d with candidates := k } ch pos :=
  ⟨⟨h.source, h.raw, h.start, h.stop, h.pendingGap, h.plain, h.terminator, h.outbox, h.commitFence,
    h.nextCommitId, h.inlineHashGap⟩, h.kind, hbang, h.leadingDecimal⟩

theorem trackBracketQuote_eq (c : Committer F) (ch : Char) (first : Option Char) :
    ∃ jsonInString jsonEscape, c.trackBracketQuote ch first = { c with jsonInString, jsonEscape } := by
  unfold trackBracketQuote
  split
  · exact ⟨_, _, rfl⟩
  · split
    · exact ⟨_, _, rfl⟩
    · split
      · exact ⟨_, _, rfl⟩
      · exact ⟨_, _, rfl⟩

/-- The dot of an ordered marker is the last character before this one. -/
theorem Flags.afterDot (h : Flags c) (hordered : c.candidates.orderedMarker = true)
    (hdot : '.' ∈ c.pending.raw) (ch : Char) :
    (c.pending.raw ++ [ch]).idxOf? '.' = some (c.pending.raw.length - 1) ∧
      (c.pending.raw ++ [ch])[c.pending.raw.length - 1 + 1]? = some ch := by
  obtain ⟨hlen, hnot⟩ := h.ordered hordered
  have hne : c.pending.raw ≠ [] := List.length_pos_iff.1 (by omega)
  have hlast : c.pending.raw.getLast hne = '.' := by
    have hsplit := List.dropLast_append_getLast hne
    rw [← hsplit] at hdot
    rcases List.mem_append.1 hdot with hm | hm
    · exact absurd hm hnot
    · exact (List.mem_singleton.1 hm).symm
  constructor
  · have hsplit : c.pending.raw ++ [ch] = c.pending.raw.dropLast ++ '.' :: [ch] := by
      conv_lhs => rw [← List.dropLast_append_getLast hne, hlast]
      simp
    rw [hsplit, ← List.length_dropLast]
    refine List.idxOf?_eq_some_iff.2 ⟨by simp, by simp, fun j hj hdot => hnot ?_⟩
    rw [List.getElem_append_left hj] at hdot
    rw [← hdot]
    exact List.getElem_mem hj
  · have hidx : c.pending.raw.length - 1 + 1 = c.pending.raw.length := by omega
    rw [hidx, List.getElem?_append_right (Nat.le_refl _), Nat.sub_self]
    rfl

/-! ## What a span can do with the next character -/

/-- An open span with the next character, where nothing is deferred. -/
structure Ready (u : UnicodeData) (exact : Prop) (skip : Text → Nat → Prop) (past : List TextCommit)
    (c : Committer F) (ch : Char) (pos : Nat) : Prop where
  inv : Inv u exact skip past c pos
  isOpen : ¬ c.Closed
  gap : c.pendingGap = []
  get : c.raw[pos]? = some ch
  hash : c.inlineHashGap = false
  decimal : c.leadingDecimal = false

/-- The span ends at the position. -/
theorem Ready.end_eq (h : Ready e.u exact skip past c ch pos) :
    c.pending.start + c.pending.raw.length = pos := by
  have hend := h.inv.reach h.isOpen
  simpa only [gapText, h.gap, List.map_nil, List.append_nil] using hend

/-- The span takes the character. -/
theorem Ready.take (h : Ready e.u exact skip past c ch pos) (hx : Extended c d ch pos) (hflags : Flags d) :
    Good e.u exact skip past c.raw pos (.done d) :=
  ⟨hx.source, h.inv.extended h.isOpen h.gap h.get h.hash hx hflags⟩

end

section
variable [Zero F] [Sub F] [LT F] [DecidableLT F] {e : Env F} {exact cover : Prop}
  {skip : Text → Nat → Prop} {past : List TextCommit} {c d : Committer F} {ch : Char} {pos : Nat}

/-- The span takes the character and is closed. -/
theorem Ready.takeClose (h : Ready e.u exact skip past c ch pos) (hx : Extended c d ch pos)
    (hdecimal : d.leadingDecimal = false) (reason : CloseReason) :
    Good e.u exact skip past c.raw pos (.done (closePending e d reason)) := by
  obtain ⟨hcore, hreach⟩ := h.inv.extendedCore h.isOpen h.gap h.get hx
  have hclose := hcore.closePending hx.open e reason (.inl hreach)
  exact ⟨hclose.source.trans hx.source, hclose.inv (fun hd => absurd hd (by rw [hdecimal]; simp))
    (hx.inlineHashGap.trans h.hash)⟩

/-- The span is cut back and closed, and the character scanned again. -/
theorem Ready.rollBack (h : Ready e.u exact skip past c ch pos) (t t' : Text) {rest : Text}
    (hraw : c.pending.raw = t ++ rest) (hne : t' ≠ []) (hlen : t'.length = t.length)
    (hexact : exact → t' = t) (hskip : ∀ i, c.pending.start + t.length ≤ i → i < pos → skip c.raw i)
    (hcut : Cut c d t') (hend : rest = [] ∨ d.pending.kind ≠ .englishWord) (reason : CloseReason) :
    Good e.u exact skip past c.raw pos (.rescan (closePending e d reason)) := by
  have hpos := h.end_eq
  rw [hraw, List.length_append] at hpos
  have hend' : c.pending.start + t.length = pos ∨ d.pending.kind ≠ .englishWord := by
    refine hend.imp_left fun hr => ?_
    rw [hr] at hpos
    simpa using hpos
  exact (h.inv.closeCut h.isOpen h.gap hraw hne hlen hexact (by omega) (Nat.le_refl _) hskip hcut hend'
    reason).rescan h.decimal h.hash

/-- The span without the character is closed, and the character scanned again. -/
theorem Ready.giveBack (h : Ready e.u exact skip past c ch pos) (hcut : Cut c d c.pending.raw)
    (reason : CloseReason) : Good e.u exact skip past c.raw pos (.rescan (closePending e d reason)) := by
  have hpos := h.end_eq
  exact h.rollBack c.pending.raw c.pending.raw (List.append_nil _).symm h.isOpen rfl (fun _ => rfl)
    (fun i hi hi' => absurd hi (by omega)) hcut (.inl rfl) reason

/-! ## The flags one by one -/

/-- The blocks that look at a flag leave spans without it to the next block. -/
theorem scanBracket_off (h : c.candidates.bracket = false) (h' : c.candidates.bracketClosed = false) :
    scanBracket e c ch pos = .next c := by
  simp [scanBracket, h, h']

theorem scanOrderedMarker_off (h : c.candidates.orderedMarker = false) : scanOrderedMarker e c = .next c := by
  simp [scanOrderedMarker, h]

theorem scanImage_off (h : c.candidates.image = false) :
    scanImage e c = .next c := by
  simp [scanImage, h]

theorem scanAutolink_off (h : c.candidates.autolink = false) :
    scanAutolink e c ch = .next c := by
  simp [scanAutolink, h]

theorem scanLineMarker_off (h : c.candidates.lineMarker = false) : scanLineMarker e c ch = .next c := by
  simp [scanLineMarker, h]

/-- A span without a flag, or with a bracket that is still open, is closed if it is complete. -/
theorem Ready.finish (h : Ready e.u exact skip past c ch pos) (hx : Took c d ch pos)
    (hk : d.candidates.markdown = {} ∨ d.candidates.markdown = { bracket := true }) :
    Good e.u exact skip past c.raw pos
      (if markdownClosed d.pending.raw ch then .done (closePending e d .boundary)
        else .done (d.closeAtLimit e)) := by
  split
  · exact h.takeClose hx.toExtended hx.leadingDecimal .boundary
  · unfold closeAtLimit
    split
    · exact h.takeClose (d := { d with limitFallback := true }) ⟨hx.source, hx.raw, hx.start, hx.stop, hx.pendingGap, hx.plain, hx.terminator,
        hx.outbox, hx.commitFence, hx.nextCommitId, hx.inlineHashGap⟩
        hx.leadingDecimal .maxPending
    · refine h.take hx.toExtended (hx.flags h.isOpen ?_ ?_ ?_ ?_)
      · exact hk.imp_right .inl
      · show d.candidates.markdown.image = false
        rcases hk with hk | hk <;> rw [hk]
      · show d.candidates.markdown.orderedMarker = false
        rcases hk with hk | hk <;> rw [hk]
      · intro hl
        have hl' : d.candidates.markdown.lineMarker = true := hl
        rcases hk with hk | hk <;> rw [hk] at hl' <;> cases hl'

/-- The flag of a line marker is off. -/
theorem Ready.finishAutolink (h : Ready e.u exact skip past c ch pos) (hx : Took c d ch pos)
    (hk : d.candidates.markdown = {} ∨ d.candidates.markdown = { bracket := true }) :
    Good e.u exact skip past c.raw pos ((scanLineMarker e d ch).andThen fun c =>
      if markdownClosed c.pending.raw ch then .done (closePending e c .boundary)
      else .done (c.closeAtLimit e)) := by
  have hline : d.candidates.markdown.lineMarker = false := by rcases hk with hk | hk <;> rw [hk]
  rw [scanLineMarker_off hline]
  exact h.finish hx hk

/-- The flags behind the image are off. -/
theorem Ready.finishImage (h : Ready e.u exact skip past c ch pos) (hx : Took c d ch pos)
    (hk : d.candidates.markdown = {} ∨ d.candidates.markdown = { bracket := true }) :
    Good e.u exact skip past c.raw pos ((scanAutolink e d ch).andThen fun c =>
      (scanLineMarker e c ch).andThen fun c =>
        if markdownClosed c.pending.raw ch then .done (closePending e c .boundary)
        else .done (c.closeAtLimit e)) := by
  have hauto : d.candidates.markdown.autolink = false := by rcases hk with hk | hk <;> rw [hk]
  rw [scanAutolink_off hauto]
  exact h.finishAutolink hx hk

/-- The flags behind the bracket are off. -/
theorem Ready.finishBracket (h : Ready e.u exact skip past c ch pos) (hx : Took c d ch pos)
    (hk : d.candidates.markdown = {} ∨ d.candidates.markdown = { bracket := true }) :
    Good e.u exact skip past c.raw pos ((scanImage e d).andThen fun c =>
      (scanAutolink e c ch).andThen fun c => (scanLineMarker e c ch).andThen fun c =>
        if markdownClosed c.pending.raw ch then .done (closePending e c .boundary)
        else .done (c.closeAtLimit e)) := by
  have himage : d.candidates.markdown.image = false := by rcases hk with hk | hk <;> rw [hk]
  rw [scanImage_off himage]
  exact h.finishImage hx hk

/-- A provisional bracket is confirmed as an array or a link label, or stays provisional. -/
theorem Ready.scanBracket (h : Ready e.u exact skip past c ch pos) (hx : Took c d ch pos)
    (hk : d.candidates.markdown = { bracket := true }) :
    Good e.u exact skip past c.raw pos ((scanBracket e d ch pos).andThen fun c =>
      (scanImage e c).andThen fun c => (scanAutolink e c ch).andThen fun c =>
        (scanLineMarker e c ch).andThen fun c =>
          if markdownClosed c.pending.raw ch then .done (closePending e c .boundary)
          else .done (c.closeAtLimit e)) := by
  have hbracket : d.candidates.bracket = true := congrArg (·.bracket) hk
  have hclosed : d.candidates.bracketClosed = false := congrArg (·.bracketClosed) hk
  have hoff : ({ d.candidates with bracket := false } : Candidates).markdown = {} := by
    show ({ d.candidates.markdown with bracket := false } : Candidates) = {}
    rw [hk]
  unfold Committer.scanBracket
  rw [if_pos hbracket]
  obtain ⟨inString, escape, hquotes⟩ := trackBracketQuote_eq d ch
    (d.pending.raw.tail.dropWhile e.u.isSpace).head?
  simp only [hquotes]
  have hx' := hx.setQuotes inString escape
  split
  · refine h.take ⟨hx.source, hx.raw, hx.start, hx.stop, hx.pendingGap, hx.plain, hx.terminator, hx.outbox,
      hx.commitFence, hx.nextCommitId, hx.inlineHashGap⟩ (.of_markdown_eq ?_ hx.bang
        (fun _ hm => (by cases hm)) (fun hd => absurd hd (by simp [setKind, hx.leadingDecimal])))
    show ({ d.candidates.markdown with bracket := false, bracketClosed := false } : Candidates) = {}
    rw [hk]
  · split
    · have hx₂ := hx'.setFlags (k := { d.candidates with bracket := false, bracketClosed := true }) hx.bang
      refine h.take hx₂.toExtended (hx₂.flags h.isOpen (.inr (.inr (.inl ?_))) ?_ ?_ ?_)
      · show ({ d.candidates.markdown with bracket := false, bracketClosed := true } : Candidates) = _
        rw [hk]
      · show d.candidates.markdown.image = false
        rw [hk]
      · show d.candidates.markdown.orderedMarker = false
        rw [hk]
      · intro hl
        have hl' : d.candidates.markdown.lineMarker = true := hl
        rw [hk] at hl'
        cases hl'
    · split
      · exact h.finishBracket (hx'.setFlags (k := { d.candidates with bracket := false }) hx.bang) (.inl hoff)
      · exact h.finishBracket hx' (.inr hk)

/-- A closed bracket is a link label before a parenthesis, and an array before everything else. -/
theorem Ready.scanBracketClosed (h : Ready e.u exact skip past c ch pos) (hx : Took c d ch pos)
    (hk : d.candidates.markdown = { bracketClosed := true }) :
    Good e.u exact skip past c.raw pos ((Committer.scanBracket e d ch pos).andThen fun c =>
      (scanImage e c).andThen fun c => (scanAutolink e c ch).andThen fun c =>
        (scanLineMarker e c ch).andThen fun c =>
          if markdownClosed c.pending.raw ch then .done (closePending e c .boundary)
          else .done (c.closeAtLimit e)) := by
  have hbracket : d.candidates.bracket = false := congrArg (·.bracket) hk
  have hclosed : d.candidates.bracketClosed = true := congrArg (·.bracketClosed) hk
  unfold Committer.scanBracket
  rw [if_neg (by simp [hbracket]), if_pos hclosed]
  dsimp only
  split
  · refine h.finishBracket (hx.setFlags
      (k := { d.candidates with bracket := false, bracketClosed := false }) hx.bang) (.inl ?_)
    show ({ d.candidates.markdown with bracket := false, bracketClosed := false } : Candidates) = {}
    rw [hk]
  · have hpos := h.end_eq
    refine Good.andThen (h.giveBack ?_ .boundary) _
    refine ⟨hx.source, ?_, hx.start, ?_, hx.pendingGap, hx.plain, hx.terminator, hx.outbox,
      hx.commitFence, hx.nextCommitId, ?_, hx.inlineHashGap⟩
    · simp [setKind, truncate, hx.raw]
    · simpa [setKind, truncate] using hpos.symm
    · exact hx.leadingDecimal.trans h.decimal.symm

/-- A provisional ordered marker is confirmed by whitespace, becomes a number, or is closed. -/
theorem Ready.scanOrderedMarker (h : Ready e.u exact skip past c ch pos) (hx : Took c d ch pos)
    (hk : d.candidates.orderedMarker = true)
    (hdot : (c.pending.raw ++ [ch]).idxOf? '.' = some (c.pending.raw.length - 1) ∧
      (c.pending.raw ++ [ch])[c.pending.raw.length - 1 + 1]? = some ch)
    (hoff : ({ d.candidates with orderedMarker := false } : Candidates).markdown = {})
    (hlen : 2 ≤ c.pending.raw.length) :
    Good e.u exact skip past c.raw pos (Committer.scanOrderedMarker e d) := by
  unfold Committer.scanOrderedMarker
  rw [if_pos hk]
  dsimp only
  rw [hx.raw, hdot.1]
  simp only [Option.bind_some, hdot.2]
  have hx' := hx.setFlags (k := { d.candidates with orderedMarker := false }) hx.bang
  split
  · exact h.takeClose hx'.toExtended hx.leadingDecimal .boundary
  · split
    · refine h.take ⟨hx.source, hx.raw, hx.start, hx.stop, hx.pendingGap, hx.plain, hx.terminator,
        hx.outbox, hx.commitFence, hx.nextCommitId, hx.inlineHashGap⟩ ?_
      exact .of_markdown_eq hoff hx.bang (fun _ _ => hx.pendingGap)
        (fun hd => absurd hd (by simp [reclassify, setKind, hx.leadingDecimal]))
    · rw [if_pos (by rw [List.length_append, List.length_singleton]; omega)]
      have hmarker : (c.pending.raw ++ [ch]).take (c.pending.raw.length - 1 + 1) = c.pending.raw := by
        rw [show c.pending.raw.length - 1 + 1 = c.pending.raw.length by omega, List.take_left]
      rw [hmarker]
      refine h.giveBack ?_ .boundary
      refine ⟨hx.source, rfl, hx.start, ?_, hx.pendingGap, hx.plain, hx.terminator, hx.outbox,
        hx.commitFence, hx.nextCommitId, ?_, hx.inlineHashGap⟩
      · simp only [truncate, hx.start]
      · exact hx.leadingDecimal.trans h.decimal.symm

/-- A provisional image is confirmed by a bracket, and otherwise its exclamation mark is closed. -/
theorem Ready.scanImage (h : Ready e.u exact skip past c ch pos) (hx : Took c d ch pos)
    (hk : d.candidates.markdown = { image := true }) (hlen : c.pending.raw.length = 1)
    (hexact : exact → c.pending.raw = ['!']) :
    Good e.u exact skip past c.raw pos ((Committer.scanImage e d).andThen fun c =>
      (scanAutolink e c ch).andThen fun c => (scanLineMarker e c ch).andThen fun c =>
        if markdownClosed c.pending.raw ch then .done (closePending e c .boundary)
        else .done (c.closeAtLimit e)) := by
  have himage : d.candidates.image = true := congrArg (·.image) hk
  unfold Committer.scanImage
  rw [if_pos himage]
  dsimp only
  split
  · have hx' := hx.setFlags (k := { d.candidates with image := false }) hx.bang
    refine h.finishImage hx' (.inl ?_)
    show ({ d.candidates.markdown with image := false } : Candidates) = {}
    rw [hk]
  · have hlong := hx.length_ge h.isOpen
    rw [if_pos (by omega)]
    refine Good.andThen (h.rollBack c.pending.raw ['!'] (List.append_nil _).symm ?_ ?_ ?_ ?_ ?_ (.inl rfl)
      .boundary) _
    · simp
    · rw [hlen]
      rfl
    · exact fun he => (hexact he).symm
    · intro i hi hi'
      have := h.end_eq
      omega
    · exact ⟨hx.source, rfl, hx.start, by simp [truncate, hx.start], hx.pendingGap, hx.plain,
        hx.terminator, hx.outbox, hx.commitFence, hx.nextCommitId, hx.leadingDecimal.trans h.decimal.symm,
        hx.inlineHashGap⟩

/-- A provisional autolink is complete, stays open, or its bracket is closed. -/
theorem Ready.scanAutolink (h : Ready e.u exact skip past c ch pos) (hx : Took c d ch pos)
    (hk : d.candidates.markdown = { autolink := true })
    (hexact : exact → autolinkFails e c.pending.raw ch → c.pending.raw.head? = some '<')
    (hkept : autolinkFails e c.pending.raw ch → c.pending.raw.length = 1 ∨ ∀ src i, skip src i) :
    Good e.u exact skip past c.raw pos ((Committer.scanAutolink e d ch).andThen fun c =>
      (scanLineMarker e c ch).andThen fun c =>
        if markdownClosed c.pending.raw ch then .done (closePending e c .boundary)
        else .done (c.closeAtLimit e)) := by
  have hauto : d.candidates.autolink = true := congrArg (·.autolink) hk
  have hline : d.candidates.lineMarker = false := congrArg (·.lineMarker) hk
  unfold Committer.scanAutolink
  rw [if_pos hauto]
  dsimp only
  split
  · have hx' := hx.setFlags (k := { d.candidates with autolink := false }) hx.bang
    refine h.finishAutolink hx' (.inl ?_)
    show ({ d.candidates.markdown with autolink := false } : Candidates) = {}
    rw [hk]
  · next hnot =>
    split
    · refine h.take hx.toExtended (hx.flags h.isOpen ?_ ?_ ?_ ?_)
      · exact .inr (.inr (.inr (.inr (.inr (.inr hk)))))
      · exact congrArg (·.image) hk
      · exact congrArg (·.orderedMarker) hk
      · intro hl
        rw [hline] at hl
        cases hl
    · next hopen =>
      have hfails : autolinkFails e c.pending.raw ch := by
        rw [hx.raw] at hnot hopen
        exact ⟨Bool.eq_false_iff.2 hnot, Bool.eq_false_iff.2 hopen⟩
      obtain ⟨x, rest, hraw⟩ := List.exists_cons_of_ne_nil (show c.pending.raw ≠ [] from h.isOpen)
      refine Good.andThen (h.rollBack [x] ['<'] hraw ?_ ?_ ?_ ?_ ?_ ?_ .boundary) _
      · simp
      · rfl
      · intro he
        have hhead := hexact he hfails
        rw [hraw, List.head?_cons, Option.some.injEq] at hhead
        rw [hhead]
      · intro i hi hi'
        rcases hkept hfails with hone | hall
        · have := h.end_eq
          rw [List.length_singleton] at hi
          omega
        · exact hall _ _
      · exact ⟨hx.source, rfl, hx.start, by simp [truncate, hx.start], hx.pendingGap, hx.plain,
          hx.terminator, hx.outbox, hx.commitFence, hx.nextCommitId,
          hx.leadingDecimal.trans h.decimal.symm, hx.inlineHashGap⟩
      · right
        simp [truncate, hx.kind]

/-- A line marker of one character is rolled back only behind that character. -/
theorem single_of_lineMarker {raw : Text} (hne : raw ≠ [])
    (hline : raw.length = 1 ∨ raw.all (fun x => x = '-') = true)
    (hrule : ¬ ((raw ++ [ch]).head? = some '-' ∧ (raw ++ [ch]).all (fun x => x = '-') = true ∧ ch = '-'))
    (hword : ¬ ((raw ++ [ch]).head? = some '-' ∧ startsWith (raw ++ [ch]) "--" = true ∧
      ¬ (raw ++ [ch]).all (fun x => x = '-') = true)) : raw.length = 1 := by
  rcases hline with hone | hall
  · exact hone
  · match raw, hne, hall with
    | [x], _, _ => rfl
    | x :: y :: rest, _, hall =>
        exfalso
        simp only [List.all_cons, Bool.and_eq_true, decide_eq_true_eq] at hall
        obtain ⟨rfl, rfl, hrest⟩ := hall
        -- two hyphens are a rule or a word, by the character behind them
        have hstart : startsWith ('-' :: '-' :: rest ++ [ch]) "--" = true := by
          simp [startsWith, List.isPrefixOf]
        have hrule' : ('-' :: '-' :: rest ++ [ch]).all (fun x => x = '-') = true := by
          by_contra hnot
          exact hword ⟨rfl, hstart, hnot⟩
        have hch : ch = '-' := by
          rw [List.all_append, Bool.and_eq_true] at hrule'
          simpa using hrule'.2
        exact hrule ⟨rfl, hrule', hch⟩

/-- A line marker is confirmed, stays open, becomes a word or a number, or is closed. -/
theorem Ready.scanLineMarker (h : Ready e.u exact skip past c ch pos) (hx : Took c d ch pos)
    (hk : d.candidates.markdown = { lineMarker := true })
    (hline : c.pending.raw.length = 1 ∨ c.pending.raw.all (fun x => x = '-') = true) :
    Good e.u exact skip past c.raw pos (Committer.scanLineMarker e d ch) := by
  have hflag : d.candidates.lineMarker = true := congrArg (·.lineMarker) hk
  have hoff : ({ d.candidates with lineMarker := false } : Candidates).markdown = {} := by
    show ({ d.candidates.markdown with lineMarker := false } : Candidates) = {}
    rw [hk]
  have hx' := hx.setFlags (k := { d.candidates with lineMarker := false }) hx.bang
  have hstays : d.pending.raw.all (fun x => x = '-') = true → Flags d := by
    intro hall
    refine hx.flags h.isOpen (.inr (.inr (.inr (.inl hk)))) ?_ ?_ (fun _ => hall)
    · exact congrArg (·.image) hk
    · exact congrArg (·.orderedMarker) hk
  have hlong := hx.length_ge h.isOpen
  unfold Committer.scanLineMarker
  rw [if_pos hflag]
  dsimp only
  split
  · next hrun => exact h.take hx.toExtended (hstays hrun.2.1)
  split
  · exact h.takeClose hx'.toExtended hx.leadingDecimal .boundary
  split
  · next hrun => exact h.take hx.toExtended (hstays hrun.2.1)
  next hrule =>
  split
  · refine h.take ⟨hx.source, hx.raw, hx.start, hx.stop, hx.pendingGap, hx.plain, hx.terminator, hx.outbox,
      hx.commitFence, hx.nextCommitId, hx.inlineHashGap⟩ ?_
    exact .of_markdown_eq hoff hx.bang (fun _ _ => hx.pendingGap)
      (fun hd => absurd hd (by simp [setKind, hx.leadingDecimal]))
  next hword =>
  split
  · exact h.takeClose hx'.toExtended hx.leadingDecimal .boundary
  split
  · refine h.take ⟨hx.source, hx.raw, hx.start, hx.stop, hx.pendingGap, hx.plain, hx.terminator, hx.outbox,
      hx.commitFence, hx.nextCommitId, hx.inlineHashGap⟩ ?_
    exact .of_markdown_eq hoff hx.bang (fun _ _ => hx.pendingGap)
      (fun hd => absurd hd (by simp [reclassify, setKind, hx.leadingDecimal]))
  rw [hx.raw] at hrule hword
  have hone := single_of_lineMarker h.isOpen hline hrule hword
  obtain ⟨x, hx₁⟩ := List.length_eq_one_iff.1 hone
  refine h.giveBack ?_ .boundary
  exact ⟨hx.source, by simp [truncate, hx.raw, hx₁], hx.start, by simp [truncate, hx.start, hx₁],
    hx.pendingGap, hx.plain, hx.terminator, hx.outbox, hx.commitFence, hx.nextCommitId,
    hx.leadingDecimal.trans h.decimal.symm, hx.inlineHashGap⟩

/-! ## The whole block -/

/-- A Markdown span takes the character, by the flag that is set. -/
theorem Ready.scanMarkdown (h : Ready e.u exact skip past c ch pos) (hx : Took c d ch pos)
    (hsame : c.candidates = d.candidates) (hok : CharOk exact cover e c ch pos)
    (hfilter : e.u.filtered ch = false) (hloose : ¬ cover → ∀ src i, skip src i) :
    Good e.u exact skip past c.raw pos ((Committer.scanOrderedMarker e d).andThen fun c =>
      (Committer.scanBracket e c ch pos).andThen fun c => (Committer.scanImage e c).andThen fun c =>
        (Committer.scanAutolink e c ch).andThen fun c => (Committer.scanLineMarker e c ch).andThen fun c =>
          if markdownClosed c.pending.raw ch then .done (closePending e c .boundary)
          else .done (c.closeAtLimit e)) := by
  have hflags := h.inv.flags
  have hsolo := hflags.solo
  rw [hsame] at hsolo
  rcases hsolo with hk | hk | hk | hk | hk | hk | hk
  · rw [scanOrderedMarker_off (congrArg (·.orderedMarker) hk), Outcome.andThen,
      scanBracket_off (congrArg (·.bracket) hk) (congrArg (·.bracketClosed) hk)]
    exact h.finishBracket hx (.inl hk)
  · rw [scanOrderedMarker_off (congrArg (·.orderedMarker) hk)]
    exact h.scanBracket hx hk
  · rw [scanOrderedMarker_off (congrArg (·.orderedMarker) hk)]
    exact h.scanBracketClosed hx hk
  · have hflag : c.candidates.lineMarker = true := by rw [hsame]; exact congrArg (·.lineMarker) hk
    rw [scanOrderedMarker_off (congrArg (·.orderedMarker) hk), Outcome.andThen,
      scanBracket_off (congrArg (·.bracket) hk) (congrArg (·.bracketClosed) hk), Outcome.andThen,
      scanImage_off (congrArg (·.image) hk), Outcome.andThen, scanAutolink_off (congrArg (·.autolink) hk)]
    exact (h.scanLineMarker hx hk (hflags.line hflag)).andThen _
  · have hflag : d.candidates.orderedMarker = true := congrArg (·.orderedMarker) hk
    have hflag' : c.candidates.orderedMarker = true := by rw [hsame]; exact hflag
    refine Good.andThen (h.scanOrderedMarker hx hflag ?_ ?_ (hflags.ordered hflag').1) _
    · exact hflags.afterDot hflag' (hok.ordered hflag' hfilter) ch
    · show ({ d.candidates.markdown with orderedMarker := false } : Candidates) = {}
      rw [hk]
  · have hflag : c.candidates.image = true := by rw [hsame]; exact congrArg (·.image) hk
    rw [scanOrderedMarker_off (congrArg (·.orderedMarker) hk), Outcome.andThen,
      scanBracket_off (congrArg (·.bracket) hk) (congrArg (·.bracketClosed) hk)]
    exact h.scanImage hx hk (hflags.image hflag) (fun he => hok.image he hflag hfilter)
  · have hflag : c.candidates.autolink = true := by rw [hsame]; exact congrArg (·.autolink) hk
    rw [scanOrderedMarker_off (congrArg (·.orderedMarker) hk), Outcome.andThen,
      scanBracket_off (congrArg (·.bracket) hk) (congrArg (·.bracketClosed) hk), Outcome.andThen,
      scanImage_off (congrArg (·.image) hk)]
    refine h.scanAutolink hx hk (fun he => hok.autolink he hflag hfilter) fun hfails => ?_
    rcases Classical.em cover with hcover | hcover
    · exact .inl (hok.autolinkKept hcover hflag hfilter hfails)
    · exact .inr (hloose hcover)

theorem scanMarkdown_good (h : Inv e.u exact skip past c pos) (hget : c.raw[pos]? = some ch)
    (hash : c.inlineHashGap = false) (hdecimal : c.leadingDecimal = false)
    (hbang : c.candidates.bang = false) (hok : CharOk exact cover e c ch pos)
    (hfilter : e.u.filtered ch = false) (hloose : ¬ cover → ∀ src i, skip src i) (now : F) :
    Good e.u exact skip past c.raw pos (scanMarkdown e c ch pos now) ∨
      scanMarkdown e c ch pos now = .next c ∧ (c.Closed ∨ c.pending.kind ≠ .markdown) := by
  unfold Committer.scanMarkdown
  split
  · next hfire =>
    obtain ⟨hc, hkind⟩ := hfire
    have hgap := h.gap_eq (by rw [hkind]; rintro (h | h | h) <;> cases h)
    have hready : Ready e.u exact skip past c ch pos := ⟨h, hc, hgap, hget, hash, hdecimal⟩
    have hx : Took c (c.extend ch pos now) ch pos :=
      ⟨⟨rfl, rfl, rfl, rfl, hgap, rfl, rfl, rfl, rfl, rfl, rfl⟩, hkind, hbang, hdecimal⟩
    exact .inl (hready.scanMarkdown hx rfl hok hfilter hloose)
  · next hfire =>
    refine .inr ⟨rfl, ?_⟩
    rcases Classical.em c.Closed with hc | hc
    · exact .inl hc
    · exact .inr fun hk => hfire ⟨hc, hk⟩

end

end Committer

end StreamingTts.Frontend
