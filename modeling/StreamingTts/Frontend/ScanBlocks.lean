import StreamingTts.Frontend.ScanInvariant

/-!
# The blocks of the character loop keep the invariant

One lemma for each block of the loop body: it leaves the character to the next block, or its outcome
is good. `scanOnce_good` chains them, and `scan_inv` is the whole character.
-/

namespace StreamingTts.Frontend

namespace Committer

variable {F : Type}

section
variable {e : Env F} {exact : Prop} {skip : Text → Nat → Prop} {past : List TextCommit}
  {c : Committer F} {ch : Char} {pos : Nat}

/-! ## Skipped characters -/

theorem scanHashGap_good (hskip : Skips e.u skip) (h : Inv e.u exact skip past c pos)
    (hget : c.raw[pos]? = some ch) :
    Good e.u exact skip past c.raw pos (scanHashGap e c ch pos) ∨
      scanHashGap e c ch pos = .next { c with inlineHashGap := false } := by
  unfold scanHashGap
  split
  · next hh =>
    obtain ⟨hpos, hhash, hc, hplain⟩ := h.hash hh
    dsimp only
    split
    · next hspace =>
      refine .inl ⟨rfl, h.pass hc hplain (Inv.next_lt hget) ?_ rfl⟩
      have hsucc : pos - 1 + 1 = pos := by omega
      rw [← hsucc]
      exact hskip.space hhash (by rw [hsucc]; exact hget) hspace
    · exact .inr rfl
  · next hh =>
    refine .inr ?_
    cases c
    simp_all

/-- The last character of the open span is the one before the position. -/
theorem Inv.getLast (h : Inv e.u exact skip past c pos) (hgap : c.pendingGap = []) {x : Char}
    (hx : c.pending.raw.getLast? = some x) : c.raw[pos - 1]? = some x := by
  have hne : c.pending.raw ≠ [] := by
    intro hnil
    rw [hnil] at hx
    cases hx
  have hend := h.reach hne
  obtain ⟨rest, hrest⟩ := h.text
  simp only [gapText, hgap, List.map_nil, List.append_nil] at hend hrest
  have hlen : 0 < c.pending.raw.length := List.length_pos_iff.2 hne
  rw [List.getLast?_eq_getElem?] at hx
  have hidx : pos - 1 = c.pending.start + (c.pending.raw.length - 1) := by omega
  rw [hidx, ← List.getElem?_drop, ← hrest, List.getElem?_append_left (by omega)]
  exact hx

/-- A character is skipped, and nothing but the frontier changes. -/
theorem Inv.skipAt (h : Inv e.u exact skip past c pos) (hc : c.Closed) (hplain : c.plainBuffer = [])
    (hlt : pos < c.raw.length) (hskip : skip c.raw pos) (hash : c.inlineHashGap = false) :
    Inv e.u exact skip past c (pos + 1) := by
  refine h.pass hc hplain hlt hskip ?_
  cases c
  simp_all

/-- The base of a keycap is dropped with its mark. -/
theorem Inv.dropKeycap (hskip : Skips e.u skip) {d : Committer F} (h : Inv e.u exact skip past d (pos - 1))
    (hpos : 0 < pos) (hc : d.Closed) (hplain : d.plainBuffer = []) (hash : d.inlineHashGap = false)
    {x : Char} (hx : d.raw[pos - 1]? = some x) (hbase : isKeycapBase x = true)
    (hget : d.raw[pos]? = some ch) (hmark : isKeycapMark ch = true) (hfilter : e.u.filtered ch = true)
    (committedRawEnd : Nat) :
    Inv e.u exact skip past { d with committedRawEnd }.flushPlain (pos + 1) := by
  have hsucc : pos - 1 + 1 = pos := by omega
  have hlt := Inv.next_lt hget
  have hbaseSkip := hskip.keycap hx hbase (by rw [hsucc]; exact hget) hmark
  have h₁ := h.skipAt hc hplain (by omega) hbaseSkip hash
  rw [hsucc] at h₁
  have h₂ := h₁.skipAt hc hplain hlt (hskip.emoji hget hfilter) hash
  exact (h₂.setAside d.jsonInString d.jsonEscape d.limitFallback d.jsonDepth committedRawEnd
    d.currentLang).flushPlain

/-- A span of one keycap base is given up. -/
theorem Inv.giveUp [Zero F] (h : Inv e.u exact skip past c pos) (hgap : c.pendingGap = []) {x : Char}
    (hraw : c.pending.raw = [x]) (hbase : isKeycapBase x = true) (hash : c.inlineHashGap = false) :
    Inv e.u exact skip past ({ c with pending := .empty } : Committer F) (pos - 1) := by
  have hc : ¬ c.Closed := by
    intro hc
    have hnil : c.pending.raw = [] := hc
    rw [hraw] at hnil
    cases hnil
  have hend := h.reach hc
  simp only [gapText, hgap, hraw, List.map_nil, List.append_nil, List.length_singleton] at hend
  have hcore := h.core.abandon hc
  rw [show c.pending.start = pos - 1 by omega, ← hgap] at hcore
  refine ⟨hcore, fun hne => absurd rfl hne, ?_, by simp [gapText, hgap, Pending.empty], ?_⟩
  · refine .of_markdown_eq (h.flags.opener x hraw hbase) ?_ (fun _ _ => hgap) ?_
    · cases hb : c.candidates.bang with
      | false => rfl
      | true =>
          have hlen := (h.flags.bang hb).2
          rw [hraw] at hlen
          simp at hlen
    · intro hd
      obtain ⟨h₁, h₂, h₃, -⟩ := h.flags.decimal hd
      exact ⟨h₁, h₂, h₃, fun hne => absurd rfl hne⟩
  · intro hh
    have : c.inlineHashGap = true := hh
    rw [hash] at this
    cases this

/-! ## A decimal point, an exclamation mark and a delimiter -/

/-- The flag of a decimal point is taken back. -/
theorem Inv.dropDecimal (h : Inv e.u exact skip past c pos) :
    Inv e.u exact skip past { c with leadingDecimal := false } pos :=
  ⟨⟨h.core.tiles, h.core.numbered, h.core.stop, h.core.gapAt, h.core.gapOpen, h.core.alone,
      h.core.single, h.core.plainReach⟩, h.reach,
    ⟨h.flags.solo, h.flags.kind, h.flags.opener, h.flags.image, h.flags.line, h.flags.ordered,
      h.flags.bang, h.flags.paren, fun hd => (by cases hd)⟩, h.text, h.hash⟩

/-- A provisional decimal point becomes a run of terminators. -/
theorem Inv.moveDecimal [Zero F] (h : Inv e.u exact skip past c pos) (hd : c.leadingDecimal = true)
    (hash : c.inlineHashGap = false) (committedRawEnd : Nat) :
    Good e.u exact skip past c.raw pos (.rescan ({ c with
      leadingDecimal := false
      pending := .empty
      terminatorStart := c.pending.start
      terminatorBuffer := c.terminatorBuffer ++ c.pending.raw
      committedRawEnd } : Committer F)) := by
  obtain ⟨hgap, hplain, hterm, hkind⟩ := h.flags.decimal hd
  have hnumber : c.pending.kind ≠ .markdown ∨ c.Closed := by
    rcases Classical.em c.Closed with hc | hc
    · exact .inr hc
    · exact .inl (by rw [hkind hc]; simp)
  have hword : c.pending.kind ≠ .englishWord ∨ c.Closed := by
    rcases Classical.em c.Closed with hc | hc
    · exact .inr hc
    · exact .inl (by rw [hkind hc]; simp)
  have htiles := h.core.tiles
  refine ⟨rfl, ⟨⟨?_, h.core.numbered, fun hne => absurd rfl hne, by simp [hgap, Pending.empty],
    fun hne => absurd hgap hne, fun hne => absurd rfl hne, .inl hplain, fun hne => absurd hplain hne⟩,
    fun hne => absurd rfl hne, ?_, by simp [gapText, hgap, Pending.empty], ?_⟩, rfl, ?_, rfl, hash⟩
  · have hlayout : layout past ({ c with
        leadingDecimal := false
        pending := .empty
        terminatorStart := c.pending.start
        terminatorBuffer := c.terminatorBuffer ++ c.pending.raw
        committedRawEnd } : Committer F) = layout past c := by
      simp [layout, tail, gapText, Pending.empty, hplain, hterm, hgap]
    rw [hlayout]
    exact htiles
  · exact .of_markdown_eq (h.markdown_eq hnumber) (h.bang_eq hword) (fun _ _ => hgap)
      (fun hd => (by cases hd))
  · intro hh
    have : c.inlineHashGap = true := hh
    rw [hash] at this
    cases this
  · rcases Classical.em c.Closed with hc | hc
    · have hraw : c.pending.raw = [] := hc
      exact .inl (by simp [hterm, hraw])
    · have hend := h.reach hc
      simp only [gapText, hgap, List.map_nil, List.append_nil] at hend
      exact .inr (by simpa [hterm] using hend)

/-- Nothing is deferred behind a span of another kind. -/
theorem Inv.gap_eq (h : Inv e.u exact skip past c pos) (hk : ¬ Deferring c.pending.kind) :
    c.pendingGap = [] := by
  by_contra hg
  exact hk (h.core.gapOpen hg).2

end

section
variable [Zero F] [Sub F] [LT F] [DecidableLT F] {e : Env F} {exact cover : Prop}
  {skip : Text → Nat → Prop} {past : List TextCommit} {c : Committer F} {ch : Char} {pos : Nat}

/-- The open span is cut back and closed. -/
theorem Inv.closeCut (h : Inv e.u exact skip past c pos) (hc : ¬ c.Closed) (hgap : c.pendingGap = [])
    {t t' rest : Text} (hraw : c.pending.raw = t ++ rest) (hne : t' ≠ []) (hlen : t'.length = t.length)
    (hexact : exact → t' = t) {q : Nat} (hle : c.pending.start + t.length ≤ q) (hq : q ≤ pos)
    (hskip : ∀ i, c.pending.start + t.length ≤ i → i < q → skip c.raw i) {d : Committer F}
    (hcut : Cut c d t') (hend : c.pending.start + t.length = q ∨ d.pending.kind ≠ .englishWord)
    (reason : CloseReason) : ClosedAt exact skip past c (closePending e d reason) q := by
  have hcore := h.core.cut hc hgap hraw hne hlen hexact hle hq hskip hcut
  have hopen : ¬ d.Closed := by
    unfold Closed
    rw [hcut.raw]
    exact hne
  have hreach : Reach d q ∨ d.pendingGap = [] ∧ d.pending.kind ≠ .englishWord := by
    rcases hend with hend | hend
    · refine .inl fun _ => ?_
      simp only [gapText, hcut.pendingGap, hcut.raw, hcut.start, List.map_nil, List.append_nil, hlen]
      exact hend
    · exact .inr ⟨hcut.pendingGap, hend⟩
  have hclose := hcore.closePending hopen e reason hreach
  exact ⟨hclose.core, hclose.source.trans hcut.source, hclose.closed, hclose.candidates,
    hclose.leadingDecimal.trans hcut.leadingDecimal, hclose.inlineHashGap.trans hcut.inlineHashGap,
    hclose.tight, fun _ => hclose.quiet hcut.pendingGap⟩

/-- The open span without its last character, closed one position before. -/
theorem Inv.closeDropLast (h : Inv e.u exact skip past c pos) (hgap : c.pendingGap = [])
    (hlen : 2 ≤ c.pending.raw.length) {d : Committer F} (hcut : Cut c d c.pending.raw.dropLast)
    (reason : CloseReason) : ClosedAt exact skip past c (closePending e d reason) (pos - 1) := by
  have hne : c.pending.raw ≠ [] := List.length_pos_iff.1 (by omega)
  have hend := h.reach hne
  simp only [gapText, hgap, List.map_nil, List.append_nil] at hend
  have hdrop : c.pending.raw.dropLast ≠ [] :=
    List.length_pos_iff.1 (by rw [List.length_dropLast]; omega)
  exact h.closeCut hne hgap (List.dropLast_append_getLast hne).symm hdrop rfl (fun _ => rfl)
    (by rw [List.length_dropLast]; omega) (by omega)
    (fun i hi hi' => absurd hi (by rw [List.length_dropLast]; omega)) hcut
    (.inl (by rw [List.length_dropLast]; omega)) reason

theorem scanEmoji_good (hskip : Skips e.u skip) (h : Inv e.u exact skip past c pos)
    (hget : c.raw[pos]? = some ch) (hash : c.inlineHashGap = false) :
    Good e.u exact skip past c.raw pos (scanEmoji e c ch pos) ∨
      scanEmoji e c ch pos = .next c ∧ e.u.filtered ch = false := by
  unfold scanEmoji
  split
  · next hfilter =>
    refine .inl ?_
    split
    · next hkey =>
      obtain ⟨hc, hgap, hlast, hmark⟩ := hkey
      obtain ⟨x, hx, hbase⟩ := (Option.any_eq_true _ _).1 hlast
      have hxpos := h.getLast hgap hx
      have hend := h.reach hc
      have hlen : 0 < c.pending.raw.length := List.length_pos_iff.2 hc
      rw [List.length_append] at hend
      dsimp only
      split
      · next hlong =>
        have hstop := h.core.stop hc
        have hclose := h.closeDropLast hgap (by omega) (d := c.truncate c.pending.raw.dropLast
          (max c.pending.start (c.pending.stop - 1))) ⟨rfl, rfl, rfl, by
            simp only [truncate, List.length_dropLast]; omega, hgap, rfl, rfl, rfl, rfl, rfl, rfl, rfl⟩
          .boundary
        have hinv := hclose.inv (u := e.u) (fun _ => hgap) hash
        rw [← hclose.source] at hget hxpos
        refine ⟨?_, hinv.dropKeycap hskip (by omega) hclose.closed (hclose.quiet hgap).1
          (hclose.inlineHashGap.trans hash) hxpos hbase hget hmark hfilter _⟩
        exact (kept_flushPlain _).raw.trans hclose.source
      · next hshort =>
        have hraw : c.pending.raw = [x] := by
          obtain ⟨y, hy⟩ := List.length_eq_one_iff.1 (show c.pending.raw.length = 1 by omega)
          rw [hy] at hx ⊢
          cases hx
          rfl
        have hinv := h.giveUp hgap hraw hbase hash
        refine ⟨?_, hinv.dropKeycap hskip (by omega) rfl (h.core.alone hc).1 hash hxpos hbase hget hmark
          hfilter _⟩
        exact (kept_flushPlain _).raw
    · -- every other emoji closes the open span, if there is one
      have hstate : Inv e.u exact skip past (closePending e c .boundary) pos ∧
          (closePending e c .boundary).Closed ∧ (closePending e c .boundary).raw = c.raw ∧
          (closePending e c .boundary).inlineHashGap = false := by
        by_cases hc : c.Closed
        · rw [closePending_of_closed hc]
          exact ⟨h, hc, rfl, hash⟩
        · have hclose := h.close hc e .boundary
          exact ⟨hclose.inv (fun hd => (h.flags.decimal hd).1) hash, hclose.closed, hclose.source,
            hclose.inlineHashGap.trans hash⟩
      obtain ⟨hinv, hclosed, hraw, hhash⟩ := hstate
      have hkept := kept_flushPlain (closePending e c .boundary)
      rw [← hraw, ← hkept.raw] at hget
      refine ⟨hkept.raw.trans hraw, hinv.flushPlain.skipAt (hkept.closed hclosed)
        (flushPlain_plainBuffer _) (Inv.next_lt hget) (hskip.emoji hget hfilter)
        (hkept.inlineHashGap.trans hhash)⟩
  · next hfilter => exact .inr ⟨rfl, Bool.eq_false_iff.2 hfilter⟩

theorem scanLeadingDecimal_good (h : Inv e.u exact skip past c pos) (hget : c.raw[pos]? = some ch)
    (hash : c.inlineHashGap = false) (now : F)
    (hok : c.leadingDecimal = true → e.u.digitLike ch = true → ¬ c.Closed) :
    Good e.u exact skip past c.raw pos (scanLeadingDecimal e c ch pos now) ∨
      scanLeadingDecimal e c ch pos now = .next c ∧ c.leadingDecimal = false := by
  unfold scanLeadingDecimal
  split
  · next hd =>
    refine .inl ?_
    obtain ⟨hgap, hplain, hterm, hkind⟩ := h.flags.decimal hd
    split
    · next hdigit =>
      have hc := hok hd hdigit
      have hnumber := hkind hc
      refine ⟨rfl, h.extended hc hgap hget hash ⟨rfl, rfl, rfl, rfl, hgap, rfl, rfl, rfl, rfl, rfl, rfl⟩ ?_⟩
      exact .of_markdown_eq (h.markdown_eq (.inl (by rw [hnumber]; simp)))
        (h.bang_eq (.inl (by rw [hnumber]; simp))) (fun _ hm => (by cases hm)) (fun hd => (by cases hd))
    · split
      · exact h.moveDecimal hd hash _
      · by_cases hc : c.Closed
        · rw [closePending_of_closed (show Closed { c with leadingDecimal := false } from hc)]
          exact ⟨rfl, h.dropDecimal, hc, .inl hterm, rfl, hash⟩
        · exact (h.dropDecimal.close hc e .boundary).rescan rfl hash
  · next hd => exact .inr ⟨rfl, Bool.eq_false_iff.2 hd⟩

theorem scanBang_good (h : Inv e.u exact skip past c pos) (hget : c.raw[pos]? = some ch)
    (hash : c.inlineHashGap = false) (hdecimal : c.leadingDecimal = false) (now : F)
    (hok : exact → c.candidates.bang = true → ch ≠ '[' → c.pending.raw.getLast? = some '!') :
    Good e.u exact skip past c.raw pos (scanBang e c ch pos now) ∨
      scanBang e c ch pos now = .next c ∧ c.candidates.bang = false := by
  unfold scanBang
  split
  · next hfire =>
    obtain ⟨hc, hkind, hbang⟩ := hfire
    refine .inl ?_
    have hgap := h.gap_eq (by rw [hkind]; rintro (h | h | h) <;> cases h)
    have hmark := h.markdown_eq (.inl (by rw [hkind]; simp))
    dsimp only
    split
    · refine ⟨rfl, h.extended hc hgap hget hash ⟨rfl, rfl, rfl, rfl, hgap, rfl, rfl, rfl, rfl, rfl, rfl⟩ ?_⟩
      exact .of_markdown_eq hmark rfl (fun _ _ => hgap)
        (fun hd => absurd hd (by simp [extend, hdecimal]))
    · next hch =>
      have hlen := (h.flags.bang hbang).2
      have hstop := h.core.stop hc
      have hend := h.reach hc
      simp only [gapText, hgap, List.map_nil, List.append_nil] at hend
      have hclose := h.closeDropLast hgap hlen (d := { c.truncate c.pending.raw.dropLast
        (c.pending.stop - 1) with candidates := { c.candidates with bang := false } }) ⟨rfl, rfl, rfl, by
          simp only [truncate, List.length_dropLast]; omega, hgap, rfl, rfl, rfl, rfl, rfl, rfl, rfl⟩
        .boundary
      have hinv := hclose.inv (u := e.u) (fun _ => hgap) hash
      have hmarker : c.pending.stop - 1 = pos - 1 := by omega
      have hsucc : pos - 1 + 1 = pos := by omega
      have hlt := Inv.next_lt hget
      have hemit := hinv.emitPlain hclose.closed e (by rw [hclose.source]; omega)
        (fun hx => by rw [hclose.source]; exact h.getLast hgap (hok hx hbang hch))
        (hclose.tight.glues '!') (hclose.leadingDecimal.trans hdecimal) (hclose.inlineHashGap.trans hash)
      have hkept := kept_emitPlain e (closePending e { c.truncate c.pending.raw.dropLast
        (c.pending.stop - 1) with candidates := { c.candidates with bang := false } } .boundary) '!' (pos - 1)
      rw [hsucc] at hemit
      rw [← hmarker] at hemit hkept
      exact ⟨hkept.raw.trans hclose.source, hemit.1, hkept.closed hclose.closed, hemit.2,
        hkept.leadingDecimal.trans (hclose.leadingDecimal.trans hdecimal),
        hkept.inlineHashGap.trans (hclose.inlineHashGap.trans hash)⟩
  · next hfire =>
    refine .inr ⟨rfl, ?_⟩
    cases hb : c.candidates.bang with
    | false => rfl
    | true =>
        obtain ⟨hkind, hlen⟩ := h.flags.bang hb
        refine absurd ⟨?_, hkind, hb⟩ hfire
        intro hc
        have hraw : c.pending.raw = [] := hc
        rw [hraw] at hlen
        simp at hlen

theorem scanDelimiter_good (h : Inv e.u exact skip past c pos) (hash : c.inlineHashGap = false)
    (hdecimal : c.leadingDecimal = false) :
    Good e.u exact skip past c.raw pos (scanDelimiter e c ch) ∨ scanDelimiter e c ch = .next c := by
  unfold scanDelimiter
  dsimp only
  split
  · next hfire =>
    split
    · exact .inl ((h.close hfire.1 e .boundary).rescan hdecimal hash)
    · exact .inr rfl
  · exact .inr rfl

end

end Committer

end StreamingTts.Frontend
