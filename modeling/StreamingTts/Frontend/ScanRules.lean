import StreamingTts.Frontend.Rescan

/-!
# The other blocks, and the whole character

The blocks behind the Markdown block keep the invariant. `scanOnce_good` chains all blocks of the
loop body, `scan_inv` is one character, and `append_inv` the text of a packet.
-/

namespace StreamingTts.Frontend

namespace Committer

variable {F : Type}

section
variable {e : Env F} {exact : Prop} {skip : Text → Nat → Prop} {past : List TextCommit}
  {c d : Committer F} {ch : Char} {pos : Nat}

/-! ## An open span of another kind -/

/-- The kind of the span is not part of the layout. -/
theorem Extended.setKind (h : Extended c d ch pos) {kind : SpanKind} :
    Extended c (d.setKind kind) ch pos :=
  ⟨h.source, h.raw, h.start, h.stop, h.pendingGap, h.plain, h.terminator, h.outbox, h.commitFence,
    h.nextCommitId, h.inlineHashGap⟩

/-- The flags of a span that is no Markdown span and took the character. -/
theorem Ready.flags (h : Ready e.u exact skip past c ch pos) (hkind : c.pending.kind ≠ .markdown)
    (hx : Extended c d ch pos) (hmark : d.candidates.markdown = c.candidates.markdown)
    (hbang : d.candidates.bang = true → d.pending.kind = .englishWord)
    (hdecimal : d.leadingDecimal = true → d.pending.kind = .number) : Flags d := by
  have hnone : d.candidates.markdown = {} := hmark.trans (h.inv.markdown_eq (.inl hkind))
  obtain ⟨hp, ht⟩ := h.inv.core.alone h.isOpen
  exact {
    solo := .inl hnone
    kind := fun hne => absurd hnone hne
    opener := fun _ _ _ => hnone
    image := fun hi => absurd (hi.symm.trans (congrArg (·.image) hnone)) (by simp)
    line := fun hl => absurd (hl.symm.trans (congrArg (·.lineMarker) hnone)) (by simp)
    ordered := fun ho => absurd (ho.symm.trans (congrArg (·.orderedMarker) hnone)) (by simp)
    bang := fun hb => ⟨hbang hb, hx.length_ge h.isOpen⟩
    paren := fun _ _ => hx.pendingGap
    decimal := fun hd => ⟨hx.pendingGap, hx.plain.trans hp, hx.terminator.trans ht, fun _ => hdecimal hd⟩ }

/-- The span takes the character, and no flag is set. -/
theorem Ready.takeOther (h : Ready e.u exact skip past c ch pos) (hkind : c.pending.kind ≠ .markdown)
    (hx : Extended c d ch pos) (hmark : d.candidates.markdown = c.candidates.markdown)
    (hbang : d.candidates.bang = false) (hdecimal : d.leadingDecimal = false) :
    Good e.u exact skip past c.raw pos (.done d) :=
  h.take hx (h.flags hkind hx hmark (fun hb => absurd hb (by rw [hbang]; simp))
    (fun hd => absurd hd (by rw [hdecimal]; simp)))

/-- The dot behind digits may be the marker of an ordered list. -/
theorem Ready.takeOrdered (h : Ready e.u exact skip past c ch pos) (hkind : c.pending.kind ≠ .markdown)
    (hbang : c.candidates.bang = false) (hdot : '.' ∉ c.pending.raw) (now : F) :
    Good e.u exact skip past c.raw pos (.done { (c.extend ch pos now).setKind .markdown with
      candidates := { c.candidates with orderedMarker := true } }) := by
  have hmark := h.inv.markdown_eq (.inl hkind)
  have hx : Took c { (c.extend ch pos now).setKind .markdown with
      candidates := { c.candidates with orderedMarker := true } } ch pos :=
    ⟨⟨rfl, rfl, rfl, rfl, h.gap, rfl, rfl, rfl, rfl, rfl, rfl⟩, rfl, hbang, h.decimal⟩
  have hlen := hx.length_ge h.isOpen
  refine h.take hx.toExtended ⟨.inr (.inr (.inr (.inr (.inl ?_)))), fun _ => ⟨rfl, hx.open⟩,
    fun x hraw _ => ?_, fun hi => ?_, fun hl => ?_, fun _ => ⟨hlen, ?_⟩,
    fun hb => absurd (hb.symm.trans hbang) (by simp), fun _ _ => h.gap,
    fun hd => absurd (hd.symm.trans h.decimal) (by simp)⟩
  · show ({ c.candidates.markdown with orderedMarker := true } : Candidates) = _
    rw [hmark]
  · rw [hraw] at hlen
    simp at hlen
  · exact absurd (hi.symm.trans (congrArg (·.image) hmark)) (by simp)
  · exact absurd (hl.symm.trans (congrArg (·.lineMarker) hmark)) (by simp)
  · simpa [extend, setKind] using hdot

/-- A character is deferred behind the span. -/
theorem Inv.deferred (h : Inv e.u exact skip past c pos) (hc : ¬ c.Closed) (hget : c.raw[pos]? = some ch)
    (hash : c.inlineHashGap = false) (hdecimal : c.leadingDecimal = false)
    (hbang : c.candidates.bang = false) (hkind : Deferring c.pending.kind)
    (hparen : c.pending.kind = .math → c.candidates.leadingParen = false) (now : F) :
    Good e.u exact skip past c.raw pos (.done (c.defer ch pos now)) := by
  obtain ⟨hcore, hreach⟩ := h.core.defer hc h.reach hkind (Inv.next_lt hget) (fun _ => hget) now
  have hmark : c.candidates.markdown = {} := by
    refine h.markdown_eq (.inl ?_)
    rcases hkind with hk | hk | hk <;> rw [hk] <;> simp
  refine ⟨rfl, hcore, hreach, ?_, ?_, ?_⟩
  · refine .of_markdown_eq hmark hbang (fun hp hm => ?_) (fun hd => absurd hd (by simp [defer, hdecimal]))
    exact absurd hp (by simp [defer, hparen hm])
  · have htext := h.text_snoc hc hget
    simpa [defer, gapText] using htext
  · intro hh
    exact absurd hh (by simp [defer, hash])

/-- The span takes what was deferred and the character, and gets another kind. -/
theorem Inv.extendedOverGap (h : Inv e.u exact skip past c pos) (hc : ¬ c.Closed)
    (hget : c.raw[pos]? = some ch) (hash : c.inlineHashGap = false) (hdecimal : c.leadingDecimal = false)
    (hbang : c.candidates.bang = false) (hkind : c.pending.kind ≠ .markdown) (now : F) (kind : SpanKind) :
    Good e.u exact skip past c.raw pos (.done ((c.extendOverGap ch pos now).setKind kind)) := by
  obtain ⟨hcore, hreach⟩ := h.core.extendOverGap hc h.reach (Inv.next_lt hget) (fun _ => hget) now
  refine ⟨rfl, ⟨hcore.tiles, hcore.numbered, hcore.stop, hcore.gapAt, fun hg => absurd rfl hg, hcore.alone,
    hcore.single, hcore.plainReach⟩, hreach, ?_, ?_, ?_⟩
  · exact .of_markdown_eq (h.markdown_eq (.inl hkind)) hbang (fun _ _ => rfl)
      (fun hd => absurd hd (by simp [setKind, extendOverGap, hdecimal]))
  · have htext := h.text_snoc hc hget
    simpa [setKind, extendOverGap, gapText] using htext
  · intro hh
    exact absurd hh (by simp [setKind, extendOverGap, hash])

theorem scanOpenLink_good (h : Inv e.u exact skip past c pos) (hget : c.raw[pos]? = some ch)
    (hash : c.inlineHashGap = false) (hdecimal : c.leadingDecimal = false)
    (hbang : c.candidates.bang = false) (now : F) :
    Good e.u exact skip past c.raw pos (scanOpenLink c ch pos now) ∨ scanOpenLink c ch pos now = .next c := by
  unfold scanOpenLink
  dsimp only
  split
  · next hfire =>
    obtain ⟨hc, hkind, -⟩ := hfire
    have hgap := h.gap_eq (by rcases hkind with hk | hk | hk | hk <;> rw [hk] <;> rintro (h | h | h) <;> cases h)
    have hready : Ready e.u exact skip past c ch pos := ⟨h, hc, hgap, hget, hash, hdecimal⟩
    refine .inl (hready.takeOther ?_ ⟨rfl, rfl, rfl, rfl, hgap, rfl, rfl, rfl, rfl, rfl, rfl⟩ rfl hbang hdecimal)
    rcases hkind with hk | hk | hk | hk <;> rw [hk] <;> simp
  · exact .inr rfl

/-! ## No open span -/

/-- The bases of a keycap are ASCII characters. -/
theorem lexChar_keycapBase (u : UnicodeData) (h : isKeycapBase ch = true) : u.lexChar ch = ch := by
  refine u.lexChar_ascii ?_
  have hascii : "0123456789#*".toList.all (fun x => x.toNat < 128) = true := by decide
  exact of_decide_eq_true (List.all_eq_true.1 hascii ch (List.contains_iff_mem.1 h))

/-- A character that opens a span with a flag is no base of a keycap. -/
theorem not_keycapBase {u : UnicodeData} (h : isKeycapBase (u.lexChar ch) = false) :
    isKeycapBase ch = false := by
  cases hb : isKeycapBase ch with
  | false => rfl
  | true => rw [lexChar_keycapBase u hb, hb] at h; cases h

/-- The character opens a span. -/
theorem Inv.freshOpen (h : Inv e.u exact skip past c pos) (hc : c.Closed) (hget : c.raw[pos]? = some ch)
    (hash : c.inlineHashGap = false) (kind : SpanKind) (now : F) {k : Candidates}
    {decimal inString escape : Bool} {depth : Nat} (hsolo : k.Solo)
    (hkind : k.markdown ≠ {} → kind = .markdown ∧ isKeycapBase ch = false)
    (hordered : k.orderedMarker = false) (hbang : k.bang = false)
    (hdecimal : decimal = true → kind = .number) :
    Good e.u exact skip past c.raw pos (.done { c.openSpan ch pos kind now with
      candidates := k, leadingDecimal := decimal, jsonInString := inString, jsonEscape := escape,
      jsonDepth := depth }) := by
  obtain ⟨hcore, hreach, ho⟩ := h.core.openSpan hc (Inv.next_lt hget) (fun _ => hget) kind now
  have hgap := ho.pendingGap.trans (h.core.gap_of_closed hc)
  refine ⟨ho.source, ⟨hcore.tiles, hcore.numbered, hcore.stop, hcore.gapAt, hcore.gapOpen, hcore.alone,
    hcore.single, hcore.plainReach⟩, hreach, ?_, ?_, ?_⟩
  · refine ⟨hsolo, fun hne => ⟨ho.kind.trans (hkind hne).1, ?_⟩, fun x hx hbase => ?_, fun _ => ?_,
      fun _ => .inl ?_, fun h => ?_, fun h => ?_, fun _ _ => hgap,
      fun hd => ⟨hgap, ho.plain, ho.terminator, fun _ => ho.kind.trans (hdecimal hd)⟩⟩
    · show (c.openSpan ch pos kind now).pending.raw ≠ []
      rw [ho.raw]
      simp
    · by_contra hne
      have hx' : (c.openSpan ch pos kind now).pending.raw = [x] := hx
      rw [ho.raw, List.cons.injEq] at hx'
      rw [← hx'.1, (hkind hne).2] at hbase
      cases hbase
    · show (c.openSpan ch pos kind now).pending.raw.length = 1
      rw [ho.raw, List.length_singleton]
    · show (c.openSpan ch pos kind now).pending.raw.length = 1
      rw [ho.raw, List.length_singleton]
    · exact absurd (h.symm.trans hordered) (by simp)
    · exact absurd (h.symm.trans hbang) (by simp)
  · have hraw : (c.openSpan ch pos kind now).pending.raw ++ (c.openSpan ch pos kind now).gapText = [ch] := by
      simp [gapText, hgap, ho.raw]
    show (c.openSpan ch pos kind now).pending.raw ++ (c.openSpan ch pos kind now).gapText <+:
      (c.openSpan ch pos kind now).raw.drop (c.openSpan ch pos kind now).pending.start
    rw [hraw, ho.source, ho.start]
    obtain ⟨hlt, hch⟩ := List.getElem?_eq_some_iff.1 hget
    rw [List.drop_eq_getElem_cons hlt, hch]
    exact ⟨_, rfl⟩
  · intro hh
    exact absurd (hh.symm.trans (ho.inlineHashGap.trans hash)) (by simp)

/-- The character opens a span without a flag. -/
theorem Inv.freshPlain (h : Inv e.u exact skip past c pos) (hc : c.Closed) (hget : c.raw[pos]? = some ch)
    (hash : c.inlineHashGap = false) (hdecimal : c.leadingDecimal = false) (kind : SpanKind) (now : F)
    {inString escape : Bool} {depth : Nat} :
    Good e.u exact skip past c.raw pos (.done { c.openSpan ch pos kind now with
      jsonInString := inString, jsonEscape := escape, jsonDepth := depth }) := by
  obtain ⟨-, -, ho⟩ := h.core.openSpan hc (Inv.next_lt hget) (fun _ => hget) kind now
  have hmark := h.markdown_eq (.inr hc)
  rw [← ho.candidates] at hmark
  refine h.freshOpen hc hget hash kind now (.inl hmark) (fun hne => absurd hmark hne)
    (congrArg (·.orderedMarker) hmark) ?_ (fun hd => ?_)
  · rw [ho.candidates]
    exact h.bang_eq (.inr hc)
  · exact absurd (hd.symm.trans (ho.leadingDecimal.trans hdecimal)) (by simp)

/-- An inline hash is skipped, and waits for the whitespace behind it. -/
theorem Inv.freshHash (hskip : Skips e.u skip) (h : Inv e.u exact skip past c pos) (hc : c.Closed)
    (hget : c.raw[pos]? = some ch) (hash : c.inlineHashGap = false) (hlex : e.u.lexChar ch = '#')
    (hline : atLineStart c.raw pos = false) (committedRawEnd : Nat) :
    Good e.u exact skip past c.raw pos
      (.done { c.flushPlain with committedRawEnd, inlineHashGap := true }) := by
  have hkept := kept_flushPlain c
  have hinline : InlineHash e.u c.flushPlain.raw pos := by
    rw [hkept.raw]
    exact ⟨by simp [hget, hlex], hline⟩
  have hclosed := hkept.closed hc
  have hplain := flushPlain_plainBuffer c
  have hpass := h.flushPlain.skipAt hclosed hplain (by rw [hkept.raw]; exact Inv.next_lt hget)
    (hskip.hash hinline) (hkept.inlineHashGap.trans hash)
  exact ⟨hkept.raw, ⟨hpass.core.tiles, hpass.core.numbered, hpass.core.stop, hpass.core.gapAt,
      hpass.core.gapOpen, hpass.core.alone, hpass.core.single, hpass.core.plainReach⟩, hpass.reach,
    ⟨hpass.flags.solo, hpass.flags.kind, hpass.flags.opener, hpass.flags.image, hpass.flags.line,
      hpass.flags.ordered, hpass.flags.bang, hpass.flags.paren, hpass.flags.decimal⟩, hpass.text,
    fun _ => ⟨Nat.succ_pos pos, hinline, hclosed, hplain⟩⟩

/-- The character is emitted. -/
theorem Inv.freshEmit (h : Inv e.u exact skip past c pos) (hc : c.Closed) (hget : c.raw[pos]? = some ch)
    (hash : c.inlineHashGap = false) (hdecimal : c.leadingDecimal = false) (hglue : Glues c ch pos)
    (lang : LanguageKind) :
    Good e.u exact skip past c.raw pos (.done ({ c with currentLang := lang }.emitPlain e ch pos)) := by
  have hset := h.setAside c.jsonInString c.jsonEscape c.limitFallback c.jsonDepth c.committedRawEnd lang
  exact ⟨(kept_emitPlain e { c with currentLang := lang } ch pos).raw,
    (hset.emitPlain hc e (Inv.next_lt hget) (fun _ => hget) hglue hdecimal hash).1⟩

/-- A chain of tests is good if each of its ends is. -/
theorem Good.ite {src : Text} {p : Prop} [Decidable p] {a b : Committer F}
    (ha : p → Good e.u exact skip past src pos (.done a))
    (hb : ¬ p → Good e.u exact skip past src pos (.done b)) :
    Good e.u exact skip past src pos (.done (if p then a else b)) := by
  split
  · next hp => exact ha hp
  · next hp => exact hb hp

/-- A character that opens no construct. -/
theorem Inv.freshText (h : Inv e.u exact skip past c pos) (hc : c.Closed) (hget : c.raw[pos]? = some ch)
    (hash : c.inlineHashGap = false) (hdecimal : c.leadingDecimal = false)
    (hglue : opensLeadingDecimal e c ch pos = false → Glues c ch pos) (now : F) :
    Good e.u exact skip past c.raw pos (.done (c.freshText e ch pos now)) := by
  have hplain : ∀ kind, Good e.u exact skip past c.raw pos (.done (c.openSpan ch pos kind now)) :=
    fun kind => h.freshPlain hc hget hash hdecimal kind now
  unfold Committer.freshText
  refine .ite (fun _ => ?_) fun hpoint => ?_
  · obtain ⟨-, -, ho⟩ := h.core.openSpan hc (Inv.next_lt hget) (fun _ => hget) .number now
    have hmark := h.markdown_eq (.inr hc)
    have hbang := h.bang_eq (.inr hc)
    rw [← ho.candidates] at hmark hbang
    exact h.freshOpen hc hget hash .number now (.inl hmark) (fun hne => absurd hmark hne)
      (congrArg (·.orderedMarker) hmark) hbang (fun _ => rfl)
  have hemit := fun lang => h.freshEmit hc hget hash hdecimal (hglue (Bool.eq_false_iff.2 hpoint)) lang
  refine .ite (fun _ => hplain _) fun _ => ?_
  refine .ite (fun _ => hplain _) fun _ => ?_
  refine .ite (fun _ => hplain _) fun _ => ?_
  refine .ite (fun _ => hplain _) fun _ => ?_
  refine .ite (fun _ => hplain _) fun _ => ?_
  refine .ite (fun _ => hemit c.currentLang) fun _ => ?_
  refine .ite (fun _ => hemit c.currentLang) fun _ => ?_
  refine .ite (fun _ => hemit .zh) fun _ => ?_
  refine .ite (fun _ => hplain _) fun _ => ?_
  exact .ite (fun _ => hemit c.currentLang) fun _ => hplain _

/-- A character that opens a span with a flag of its own. -/
theorem Inv.freshFlagged (h : Inv e.u exact skip past c pos) (hc : c.Closed)
    (hget : c.raw[pos]? = some ch) (hash : c.inlineHashGap = false) (hdecimal : c.leadingDecimal = false)
    (now : F) {kind : SpanKind} {k : Candidates} (hsolo : k.Solo)
    (hkind : k.markdown ≠ {} → kind = .markdown ∧ isKeycapBase (e.u.lexChar ch) = false)
    (hordered : k.orderedMarker = false) (hbang : k.bang = false) :
    Good e.u exact skip past c.raw pos (.done (c.openFlagged ch pos kind now k)) := by
  obtain ⟨-, -, ho⟩ := h.core.openSpan hc (Inv.next_lt hget) (fun _ => hget) kind now
  refine h.freshOpen hc hget hash kind now hsolo (fun hne => ?_) hordered hbang (fun hd => ?_)
  · exact ⟨(hkind hne).1, not_keycapBase (hkind hne).2⟩
  · exact absurd (hd.symm.trans (ho.leadingDecimal.trans hdecimal)) (by simp)

/-- A character with no open span. -/
theorem Inv.fresh (hskip : Skips e.u skip) (h : Inv e.u exact skip past c pos) (hc : c.Closed)
    (hget : c.raw[pos]? = some ch) (hash : c.inlineHashGap = false) (hdecimal : c.leadingDecimal = false)
    (hfilter : e.u.filtered ch = false)
    (hglue : opensLeadingDecimal e c ch pos = false → Glues c ch pos) (now : F) :
    Good e.u exact skip past c.raw pos (.done (Committer.fresh e c ch pos now)) := by
  have hmark := h.markdown_eq (.inr hc)
  have hbang := h.bang_eq (.inr hc)
  have hordered : c.candidates.orderedMarker = false := congrArg (·.orderedMarker) hmark
  unfold Committer.fresh
  refine .ite (fun hemoji => ?_) fun _ => ?_
  · exact absurd hfilter (by simp [UnicodeData.filtered, hemoji])
  refine .ite (fun _ => ?_) fun _ => ?_
  · exact h.freshFlagged hc hget hash hdecimal now (.inl hmark) (fun hne => absurd hmark hne) hordered hbang
  refine .ite (fun _ => h.freshPlain hc hget hash hdecimal .json now) fun _ => ?_
  refine .ite (fun hlex => ?_) fun _ => ?_
  · refine h.freshFlagged hc hget hash hdecimal now (.inr (.inl ?_))
      (fun _ => ⟨rfl, by rw [hlex]; decide⟩) hordered hbang
    show ({ c.candidates.markdown with bracket := true } : Candidates) = _
    rw [hmark]
  refine .ite (fun hlex => ?_) fun _ => ?_
  · refine h.freshFlagged hc hget hash hdecimal now (.inr (.inr (.inr (.inr (.inr (.inl ?_))))))
      (fun _ => ⟨rfl, by rw [hlex.1]; decide⟩) hordered hbang
    show ({ c.candidates.markdown with image := true } : Candidates) = _
    rw [hmark]
  refine .ite (fun hlex => ?_) fun _ => ?_
  · refine h.freshFlagged hc hget hash hdecimal now (.inr (.inr (.inr (.inr (.inr (.inr ?_))))))
      (fun _ => ⟨rfl, by rw [hlex]; decide⟩) hordered hbang
    show ({ c.candidates.markdown with autolink := true } : Candidates) = _
    rw [hmark]
  refine .ite (fun _ => h.freshPlain hc hget hash hdecimal .markdown now) fun hstart => ?_
  refine .ite (fun hlex => ?_) fun _ => ?_
  · refine h.freshHash hskip hc hget hash hlex ?_ _
    cases hline : atLineStart c.raw pos with
    | false => rfl
    | true => exact absurd (by simp [hlex, hline]) hstart
  refine .ite (fun hlex => ?_) fun _ => h.freshText hc hget hash hdecimal hglue now
  · refine h.freshFlagged hc hget hash hdecimal now (.inr (.inr (.inr (.inl ?_))))
      (fun _ => ⟨rfl, ?_⟩) hordered hbang
    · show ({ c.candidates.markdown with lineMarker := true } : Candidates) = _
      rw [hmark]
    · have hnone : "-+>".toList.all (fun x => !isKeycapBase x) = true := by decide
      rw [Bool.and_eq_true] at hlex
      simpa using List.all_eq_true.1 hnone _ (List.contains_iff_mem.1 hlex.1)

theorem scanFresh_good (hskip : Skips e.u skip) (h : Inv e.u exact skip past c pos)
    (hget : c.raw[pos]? = some ch) (hash : c.inlineHashGap = false) (hdecimal : c.leadingDecimal = false)
    (hfilter : e.u.filtered ch = false)
    (hglue : c.Closed → opensLeadingDecimal e c ch pos = false → Glues c ch pos) (now : F) :
    Good e.u exact skip past c.raw pos (scanFresh e c ch pos now) ∨
      scanFresh e c ch pos now = .next c ∧ ¬ c.Closed := by
  unfold scanFresh
  split
  · next hc => exact .inl (h.fresh hskip hc hget hash hdecimal hfilter (hglue hc) now)
  · next hc => exact .inr ⟨rfl, hc⟩

/-- The flag of an inline hash is taken back. -/
theorem Inv.dropHashGap (h : Inv e.u exact skip past c pos) :
    Inv e.u exact skip past { c with inlineHashGap := false } pos :=
  ⟨⟨h.core.tiles, h.core.numbered, h.core.stop, h.core.gapAt, h.core.gapOpen, h.core.alone,
      h.core.single, h.core.plainReach⟩, h.reach,
    ⟨h.flags.solo, h.flags.kind, h.flags.opener, h.flags.image, h.flags.line, h.flags.ordered,
      h.flags.bang, h.flags.paren, h.flags.decimal⟩, h.text, fun hh => (by cases hh)⟩

end

section
variable [Zero F] [Sub F] [LT F] [DecidableLT F] {e : Env F} {exact cover : Prop}
  {skip : Text → Nat → Prop} {past : List TextCommit} {c d : Committer F} {ch : Char} {pos : Nat}

/-- The span takes the character and is closed at the lexical bound. -/
theorem Ready.takeLimit (h : Ready e.u exact skip past c ch pos) (hx : Extended c d ch pos)
    (hflags : Flags d) (hdecimal : d.leadingDecimal = false) :
    Good e.u exact skip past c.raw pos (.done (d.closeAtLimit e)) := by
  unfold closeAtLimit
  split
  · exact h.takeClose (d := { d with limitFallback := true }) ⟨hx.source, hx.raw, hx.start, hx.stop,
      hx.pendingGap, hx.plain, hx.terminator, hx.outbox, hx.commitFence, hx.nextCommitId,
      hx.inlineHashGap⟩ hdecimal .maxPending
  · exact h.take hx hflags

/-- The lexical bound does nothing where no span is open. -/
theorem Good.closeAtLimit {src : Text} (h : Good e.u exact skip past src pos (.done d)) (hc : d.Closed) :
    Good e.u exact skip past src pos (.done (d.closeAtLimit e)) := by
  unfold Committer.closeAtLimit
  split
  · rw [closePending_of_closed (show Closed { d with limitFallback := true } from hc)]
    exact ⟨h.1, h.2.setAside d.jsonInString d.jsonEscape true d.jsonDepth d.committedRawEnd d.currentLang⟩
  · exact h

theorem scanJson_good (h : Inv e.u exact skip past c pos) (hget : c.raw[pos]? = some ch)
    (hash : c.inlineHashGap = false) (hdecimal : c.leadingDecimal = false)
    (hbang : c.candidates.bang = false) (now : F) :
    Good e.u exact skip past c.raw pos (scanJson e c ch pos now) ∨ scanJson e c ch pos now = .next c := by
  unfold scanJson
  split
  · next hfire =>
    obtain ⟨hc, hkind⟩ := hfire
    refine .inl ?_
    have hgap := h.gap_eq (by rw [hkind]; rintro (h | h | h) <;> cases h)
    have hready : Ready e.u exact skip past c ch pos := ⟨h, hc, hgap, hget, hash, hdecimal⟩
    have hmd : c.pending.kind ≠ .markdown := by rw [hkind]; simp
    -- whatever happens to the state of the scanner, the span took the character
    have hkeep : ∀ (inString escape : Bool) (depth : Nat),
        Good e.u exact skip past c.raw pos (.done (Committer.closeAtLimit e { c.extend ch pos now with
          jsonInString := inString, jsonEscape := escape, jsonDepth := depth })) := by
      intro inString escape depth
      refine hready.takeLimit ⟨rfl, rfl, rfl, rfl, hgap, rfl, rfl, rfl, rfl, rfl, rfl⟩ ?_ hdecimal
      exact hready.flags hmd ⟨rfl, rfl, rfl, rfl, hgap, rfl, rfl, rfl, rfl, rfl, rfl⟩ rfl
        (fun hb => absurd hb (by simp [extend, hbang])) (fun hd => absurd hd (by simp [extend, hdecimal]))
    dsimp only
    split
    · exact hkeep _ _ _
    split
    · exact hkeep _ _ _
    split
    · exact hkeep _ _ _
    split
    · exact hkeep _ _ _
    split
    · split
      · exact (hready.takeClose (d := { c.extend ch pos now with
          jsonDepth := c.jsonDepth - 1 }) ⟨rfl, rfl, rfl, rfl, hgap, rfl, rfl, rfl, rfl, rfl, rfl⟩
          hdecimal .boundary).closeAtLimit (closePending_frame _ _ _).2
      · exact hkeep _ _ _
    · exact hkeep _ _ _
  · exact .inr rfl

theorem scanLeadingParen_good (h : Inv e.u exact skip past c pos) (hget : c.raw[pos]? = some ch)
    (hash : c.inlineHashGap = false) (hdecimal : c.leadingDecimal = false)
    (hbang : c.candidates.bang = false) (hok : CharOk exact cover e c ch pos)
    (hfilter : e.u.filtered ch = false) (hloose : ¬ cover → ∀ src i, skip src i) (now : F) :
    Good e.u exact skip past c.raw pos (scanLeadingParen e c ch pos now) ∨
      scanLeadingParen e c ch pos now = .next c ∧
        (¬ c.Closed → c.pending.kind = .math → c.candidates.leadingParen = false) := by
  unfold scanLeadingParen
  split
  · next hfire =>
    obtain ⟨hc, hkind, hparen⟩ := hfire
    refine .inl ?_
    have hgap := h.flags.paren hparen hkind
    have hready : Ready e.u exact skip past c ch pos := ⟨h, hc, hgap, hget, hash, hdecimal⟩
    have hmd : c.pending.kind ≠ .markdown := by rw [hkind]; simp
    dsimp only
    split
    · exact hready.takeOther hmd ⟨rfl, rfl, rfl, rfl, hgap, rfl, rfl, rfl, rfl, rfl, rfl⟩ rfl hbang hdecimal
    next hkeeps =>
    split
    · exact hready.takeOther hmd ⟨rfl, rfl, rfl, rfl, hgap, rfl, rfl, rfl, rfl, rfl, rfl⟩ rfl hbang hdecimal
    next hpromotes =>
    split
    · exact hready.takeOther hmd ⟨rfl, rfl, rfl, rfl, hgap, rfl, rfl, rfl, rfl, rfl, rfl⟩ rfl hbang hdecimal
    next hcode =>
    have hfails : parenFails e c.pending.raw ch :=
      ⟨Bool.eq_false_iff.2 hkeeps, Bool.eq_false_iff.2 hpromotes, Bool.eq_false_iff.2 hcode⟩
    obtain ⟨x, rest, hraw⟩ := List.exists_cons_of_ne_nil (show c.pending.raw ≠ [] from hc)
    refine hready.rollBack [x] [x] hraw (by simp) rfl (fun _ => rfl) ?_ ?_ (.inr ?_) .boundary
    · intro i hi hi'
      rcases Classical.em cover with hcover | hcover
      · have := hok.parenKept hcover hc hparen hkind hfilter hfails
        have := hready.end_eq
        rw [List.length_singleton] at hi
        omega
      · exact hloose hcover _ _
    · exact ⟨rfl, by simp [truncate, hraw], rfl, rfl, hgap, rfl, rfl, rfl, rfl, rfl, rfl, rfl⟩
    · simp [truncate, hkind]
  · next hfire =>
    refine .inr ⟨rfl, fun hc hk => ?_⟩
    exact Bool.eq_false_iff.2 fun hp => hfire ⟨hc, hk, hp⟩

/-! ## The general rules -/

/-- The open span is closed and the character emitted. -/
theorem Inv.closeAndEmit (h : Inv e.u exact skip past c pos) (hc : ¬ c.Closed)
    (hget : c.raw[pos]? = some ch) (hash : c.inlineHashGap = false)
    (hdecimal : c.leadingDecimal = false) :
    Good e.u exact skip past c.raw pos (.done (c.closeAndEmit e ch pos)) :=
  (h.close hc e .boundary).emitPlain hdecimal hash e hget

theorem scanSpace_good (h : Inv e.u exact skip past c pos) (hc : ¬ c.Closed)
    (hget : c.raw[pos]? = some ch) (hash : c.inlineHashGap = false) (hdecimal : c.leadingDecimal = false)
    (hbang : c.candidates.bang = false)
    (hparen : c.pending.kind = .math → c.candidates.leadingParen = false) (now : F) :
    Good e.u exact skip past c.raw pos (scanSpace e c ch pos now) ∨ scanSpace e c ch pos now = .next c := by
  unfold scanSpace
  split
  · refine .inl ?_
    split
    · next hkind =>
      have hdefer : Deferring c.pending.kind := by
        rcases hkind with hk | hk
        · exact .inr (.inr hk)
        · exact .inl hk
      exact h.deferred hc hget hash hdecimal hbang hdefer hparen now
    · exact h.closeAndEmit hc hget hash hdecimal
  · exact .inr rfl

theorem scanGap_good (h : Inv e.u exact skip past c pos) (hc : ¬ c.Closed)
    (hget : c.raw[pos]? = some ch) (hash : c.inlineHashGap = false) (hdecimal : c.leadingDecimal = false)
    (hbang : c.candidates.bang = false) (now : F) :
    Good e.u exact skip past c.raw pos (scanGap e c ch pos now) ∨
      scanGap e c ch pos now = .next c ∧ c.pendingGap = [] := by
  unfold scanGap
  dsimp only
  split
  · next hfire =>
    have hmd : c.pending.kind ≠ .markdown := by
      rcases hfire.2 with hk | hk | hk <;> rw [hk] <;> simp
    refine .inl ?_
    split
    · next hseparator =>
      have hkind := hseparator.1
      have hmath : c.pending.kind ≠ .math := by
        rcases hkind with hk | hk <;> rw [hk] <;> simp
      exact h.deferred hc hget hash hdecimal hbang (hkind.imp_right .inl) (fun hm => absurd hm hmath) now
    split
    · exact h.extendedOverGap hc hget hash hdecimal hbang hmd now _
    split
    · split
      · exact h.extendedOverGap hc hget hash hdecimal hbang hmd now _
      · exact h.extendedOverGap hc hget hash hdecimal hbang hmd now _
    · exact (h.close hc e .boundary).rescan hdecimal hash
  · next hfire =>
    refine .inr ⟨rfl, ?_⟩
    by_contra hgap
    exact hfire ⟨hgap, (h.core.gapOpen hgap).2⟩

theorem scanRightBoundary_good (h : Ready e.u exact skip past c ch pos)
    (hkind : c.pending.kind ≠ .markdown) (hbang : c.candidates.bang = false) (now : F) :
    Good e.u exact skip past c.raw pos (scanRightBoundary e c ch pos now) ∨
      scanRightBoundary e c ch pos now = .next c := by
  have hx : Extended c (c.extend ch pos now) ch pos :=
    ⟨rfl, rfl, rfl, rfl, h.gap, rfl, rfl, rfl, rfl, rfl, rfl⟩
  unfold scanRightBoundary
  dsimp only
  split
  · refine .inl ?_
    split
    · exact h.takeOther hkind hx rfl hbang h.decimal
    split
    · exact h.takeOther hkind hx.setKind rfl hbang h.decimal
    · exact h.inv.closeAndEmit h.isOpen h.get h.hash h.decimal
  · exact .inr rfl

theorem scanNonAscii_good (h : Ready e.u exact skip past c ch pos)
    (hkind : c.pending.kind ≠ .markdown) (hbang : c.candidates.bang = false) (now : F) :
    Good e.u exact skip past c.raw pos (scanNonAscii e c ch pos now) ∨
      scanNonAscii e c ch pos now = .next c := by
  have hx : Extended c (c.extend ch pos now) ch pos :=
    ⟨rfl, rfl, rfl, rfl, h.gap, rfl, rfl, rfl, rfl, rfl, rfl⟩
  have htake : ∀ kind, Good e.u exact skip past c.raw pos (.done ((c.extend ch pos now).setKind kind)) :=
    fun kind => h.takeOther hkind hx.setKind rfl hbang h.decimal
  unfold scanNonAscii
  dsimp only
  split
  · refine .inl ?_
    refine .ite (fun _ => h.takeOther hkind hx rfl hbang h.decimal) fun _ => ?_
    refine .ite (fun _ => htake _) fun _ => ?_
    refine .ite (fun _ => htake _) fun _ => ?_
    refine .ite (fun _ => htake _) fun _ => ?_
    refine .ite (fun _ => htake _) fun _ => ?_
    refine .ite (fun _ => ?_) fun _ => ?_
    · have hclose := h.inv.close h.isOpen e .boundary
      have hget := h.get
      rw [← hclose.source] at hget ⊢
      exact Inv.freshEmit (hclose.inv (fun _ => h.gap) h.hash) hclose.closed hget
        (hclose.inlineHashGap.trans h.hash) (hclose.leadingDecimal.trans h.decimal)
        (hclose.tight.glues ch) .zh
    refine .ite (fun _ => htake _) fun _ => ?_
    refine .ite (fun _ => htake _) fun _ => ?_
    exact h.inv.closeAndEmit h.isOpen h.get h.hash h.decimal
  · exact .inr rfl

/-- A text of digits holds no dot. -/
theorem dot_notMem_of_isDigits {u : UnicodeData} {raw : Text}
    (h : u.isDigits (u.compatibilitySpelling raw) = true) : '.' ∉ raw := by
  intro hdot
  have hall : (u.compatibilitySpelling raw).all u.isDigit = true := (Bool.and_eq_true_iff.1 h).2
  have hmem : '.' ∈ u.compatibilitySpelling raw := by
    refine List.mem_flatMap.2 ⟨'.', hdot, ?_⟩
    rw [if_neg (by decide), u.nfkc_ascii '.' (by decide)]
    exact List.mem_singleton.2 rfl
  have hdigit := List.all_eq_true.1 hall '.' hmem
  rw [u.isDigit_ascii '.' (by decide)] at hdigit
  exact absurd hdigit (by decide)

theorem scanRest_good (h : Ready e.u exact skip past c ch pos)
    (hkind : c.pending.kind ≠ .markdown) (hbang : c.candidates.bang = false) (now : F) :
    Good e.u exact skip past c.raw pos (scanRest e c ch pos now) := by
  have hx : Extended c (c.extend ch pos now) ch pos :=
    ⟨rfl, rfl, rfl, rfl, h.gap, rfl, rfl, rfl, rfl, rfl, rfl⟩
  have hclose := h.inv.closeAndEmit h.isOpen h.get h.hash h.decimal
  unfold scanRest
  refine .ite (fun _ => h.takeOther hkind hx.setKind rfl hbang h.decimal) fun _ => ?_
  refine .ite (fun _ => h.takeClose hx h.decimal .boundary) fun _ => ?_
  refine .ite (fun hseparator => ?_) fun _ => ?_
  · have hnumber := hseparator.2.1
    have hmath : c.pending.kind ≠ .math := by
      rcases hnumber with hk | hk <;> rw [hk] <;> simp
    exact h.inv.deferred h.isOpen h.get h.hash h.decimal hbang (hnumber.imp_right .inl)
      (fun hm => absurd hm hmath) now
  refine .ite (fun _ => ?_) fun _ => ?_
  · refine .ite (fun hword => ?_) fun _ => ?_
    · -- the exclamation mark waits for the next character
      exact h.take ⟨rfl, rfl, rfl, rfl, h.gap, rfl, rfl, rfl, rfl, rfl, rfl⟩
        (h.flags hkind ⟨rfl, rfl, rfl, rfl, h.gap, rfl, rfl, rfl, rfl, rfl, rfl⟩ rfl
          (fun _ => hword.2) (fun hd => absurd hd (by simp [extend, h.decimal])))
    refine .ite (fun hordered => ?_) fun _ => ?_
    · exact h.takeOrdered hkind hbang (dot_notMem_of_isDigits hordered.2.2.2) now
    refine .ite (fun hpoint => ?_) fun _ => ?_
    · exact h.take ⟨rfl, rfl, rfl, rfl, h.gap, rfl, rfl, rfl, rfl, rfl, rfl⟩
        (h.flags hkind ⟨rfl, rfl, rfl, rfl, h.gap, rfl, rfl, rfl, rfl, rfl, rfl⟩ rfl
          (fun hb => absurd hb (by simp [extend, hbang])) (fun _ => hpoint.2.1))
    refine .ite (fun _ => h.takeOther hkind hx rfl hbang h.decimal) fun _ => ?_
    exact .ite (fun _ => h.takeOther hkind hx rfl hbang h.decimal) fun _ => hclose
  · exact h.takeLimit hx.setKind (h.flags hkind hx.setKind rfl
      (fun hb => absurd hb (by simp [reclassify, setKind, extend, hbang]))
      (fun hd => absurd hd (by simp [reclassify, setKind, extend, h.decimal]))) h.decimal

/-! ## The whole character -/

theorem scanOnce_good (hskip : Skips e.u skip) (hloose : ¬ cover → ∀ src i, skip src i)
    (h : Inv e.u exact skip past c pos) (hget : c.raw[pos]? = some ch)
    (hok : CharOk exact cover e c ch pos) (now : F) :
    Good e.u exact skip past c.raw pos (scanOnce e c ch pos now) := by
  unfold scanOnce
  rcases scanHashGap_good hskip h hget with hgood | heq
  · exact hgood.andThen _
  rw [heq, Outcome.next_andThen]
  have h' := h.dropHashGap
  have hok' : CharOk exact cover e { c with inlineHashGap := false } ch pos :=
    ⟨hok.decimal, hok.ordered, hok.glue, hok.bang, hok.image, hok.autolink, hok.autolinkKept, hok.parenKept⟩
  have hget' : ({ c with inlineHashGap := false } : Committer F).raw[pos]? = some ch := hget
  have hash : ({ c with inlineHashGap := false } : Committer F).inlineHashGap = false := rfl
  show Good e.u exact skip past ({ c with inlineHashGap := false } : Committer F).raw pos _
  generalize ({ c with inlineHashGap := false } : Committer F) = c at *
  rcases scanEmoji_good hskip h' hget' hash with hgood | ⟨heq, hfilter⟩
  · exact hgood.andThen _
  rw [heq, Outcome.next_andThen]
  rcases scanLeadingDecimal_good h' hget' hash now hok'.decimal with hgood | ⟨heq, hdecimal⟩
  · exact hgood.andThen _
  rw [heq, Outcome.next_andThen]
  rcases scanBang_good h' hget' hash hdecimal now (fun he hb => hok'.bang he hb hfilter)
    with hgood | ⟨heq, hbang⟩
  · exact hgood.andThen _
  rw [heq, Outcome.next_andThen]
  rcases scanDelimiter_good h' hash hdecimal with hgood | heq
  · exact hgood.andThen _
  rw [heq, Outcome.next_andThen]
  rcases scanMarkdown_good h' hget' hash hdecimal hbang hok' hfilter hloose now with hgood | ⟨heq, hmarkdown⟩
  · exact hgood.andThen _
  rw [heq, Outcome.next_andThen]
  rcases scanJson_good h' hget' hash hdecimal hbang now with hgood | heq
  · exact hgood.andThen _
  rw [heq, Outcome.next_andThen]
  rcases scanOpenLink_good h' hget' hash hdecimal hbang now with hgood | heq
  · exact hgood.andThen _
  rw [heq, Outcome.next_andThen]
  rcases scanLeadingParen_good h' hget' hash hdecimal hbang hok' hfilter hloose now with hgood | ⟨heq, hparen⟩
  · exact hgood.andThen _
  rw [heq, Outcome.next_andThen]
  rcases scanFresh_good hskip h' hget' hash hdecimal hfilter hok'.glue now with hgood | ⟨heq, hopen⟩
  · exact hgood.andThen _
  rw [heq, Outcome.next_andThen]
  rcases scanSpace_good h' hopen hget' hash hdecimal hbang (hparen hopen) now with hgood | heq
  · exact hgood.andThen _
  rw [heq, Outcome.next_andThen]
  rcases scanGap_good h' hopen hget' hash hdecimal hbang now with hgood | ⟨heq, hgap⟩
  · exact hgood.andThen _
  rw [heq, Outcome.next_andThen]
  have hready : Ready e.u exact skip past c ch pos := ⟨h', hopen, hgap, hget', hash, hdecimal⟩
  have hkind := hmarkdown.resolve_left hopen
  rcases scanRightBoundary_good hready hkind hbang now with hgood | heq
  · exact hgood.andThen _
  rw [heq, Outcome.next_andThen]
  rcases scanNonAscii_good hready hkind hbang now with hgood | heq
  · exact hgood.andThen _
  rw [heq, Outcome.next_andThen]
  exact scanRest_good hready hkind hbang now

/-- One character keeps the invariant. -/
theorem scan_inv (hskip : Skips e.u skip) (hloose : ¬ cover → ∀ src i, skip src i)
    (h : Inv e.u exact skip past c pos) (hget : c.raw[pos]? = some ch)
    (hok : CharOk exact cover e c ch pos) (now : F) :
    (scan e c ch pos now).raw = c.raw ∧ Inv e.u exact skip past (scan e c ch pos now) (pos + 1) := by
  have hgood := scanOnce_good hskip hloose h hget hok now
  unfold scan
  cases hscan : scanOnce e c ch pos now with
  | done d =>
      rw [hscan] at hgood
      exact hgood
  | next d =>
      rw [hscan] at hgood
      exact hgood.elim
  | rescan d =>
      rw [hscan] at hgood
      obtain ⟨hraw, hinv, hclosed, htight, hdecimal, hash⟩ := hgood
      have hmark := hinv.markdown_eq (.inr hclosed)
      -- behind a close no flag is set, and the run of terminators ends at the character
      have hok' : CharOk exact cover e d ch pos :=
        ⟨fun hd => absurd (hd.symm.trans hdecimal) (by simp),
          fun ho => absurd (ho.symm.trans (congrArg (·.orderedMarker) hmark)) (by simp),
          fun _ _ => htight.glues ch,
          fun _ hb => absurd (hb.symm.trans (hinv.bang_eq (.inr hclosed))) (by simp),
          fun _ hi => absurd (hi.symm.trans (congrArg (·.image) hmark)) (by simp),
          fun _ ha => absurd (ha.symm.trans (congrArg (·.autolink) hmark)) (by simp),
          fun _ ha => absurd (ha.symm.trans (congrArg (·.autolink) hmark)) (by simp),
          fun _ hc => absurd hclosed hc⟩
      rw [← hraw] at hget
      have hgood' := scanOnce_good hskip hloose hinv hget hok' now
      obtain ⟨d', hdone⟩ := scanOnce_done (e := e) (c := d) hclosed hdecimal hash now
      rw [hdone, hraw] at hgood'
      dsimp only
      rw [hdone]
      exact hgood'

/-! ## The text of a packet -/

/-- Every character of the text meets its condition in the state it is scanned in. -/
def TextOk (exact cover : Prop) (e : Env F) (now : F) : Committer F → Text → Nat → Prop
  | _, [], _ => True
  | c, ch :: text, pos =>
      CharOk exact cover e c ch pos ∧ TextOk exact cover e now (scan e c ch pos now) text (pos + 1)

/-- The characters of a packet keep the invariant. -/
theorem append_inv (hskip : Skips e.u skip) (hloose : ¬ cover → ∀ src i, skip src i) (now : F)
    (text : Text) (h : Inv e.u exact skip past c pos) (htext : text <+: c.raw.drop pos)
    (hok : TextOk exact cover e now c text pos) :
    (append e now c text pos).raw = c.raw ∧
      Inv e.u exact skip past (append e now c text pos) (pos + text.length) := by
  induction text generalizing c pos with
  | nil => exact ⟨rfl, h⟩
  | cons ch text ih =>
      obtain ⟨rest, hrest⟩ := htext
      have hget : c.raw[pos]? = some ch := by
        rw [← Nat.add_zero pos, ← List.getElem?_drop, ← hrest]
        rfl
      obtain ⟨hraw, hinv⟩ := scan_inv hskip hloose h hget hok.1 now
      have hdrop : text <+: (scan e c ch pos now).raw.drop (pos + 1) := by
        rw [hraw, ← List.drop_drop, ← hrest]
        exact ⟨rest, rfl⟩
      obtain ⟨hraw', hinv'⟩ := ih hinv hdrop hok.2
      rw [List.length_cons, Nat.add_comm text.length, ← Nat.add_assoc]
      exact ⟨hraw'.trans hraw, hinv'⟩

end

end Committer

end StreamingTts.Frontend
