import StreamingTts.Frontend.ScanMarkdown

/-!
# The second pass over a character

`_append` calls itself for a character that closed a span without being taken by it. In whatever state
the committer is, that second pass finds no open span and no flag, so it is done with the character and
never calls itself again: the two passes of `scan` are all of the recursion.
-/

namespace StreamingTts.Frontend

namespace Committer

variable {F : Type}

/-- What a block leaves if it found no flag of a decimal point or an inline hash. -/
def Settles : Outcome F → Prop
  | .done _ => True
  | .rescan d => d.Closed ∧ d.leadingDecimal = false ∧ d.inlineHashGap = false
  | .next d => d.leadingDecimal = false ∧ d.inlineHashGap = false

theorem Settles.andThen {o : Outcome F} {block : Committer F → Outcome F} (h : Settles o)
    (hb : ∀ d : Committer F, d.leadingDecimal = false → d.inlineHashGap = false → Settles (block d)) :
    Settles (o.andThen block) := by
  cases o with
  | done d => trivial
  | rescan d => exact h
  | next d => exact hb d h.1 h.2

theorem Settles.ite {p : Prop} [Decidable p] {a b : Outcome F} (ha : Settles a) (hb : Settles b) :
    Settles (if p then a else b) := by
  split
  · exact ha
  · exact hb

section
variable [Zero F] [Sub F] [LT F] [DecidableLT F] {e : Env F} {c d : Committer F} {ch : Char} {pos : Nat}

theorem settles_close (hdecimal : c.leadingDecimal = false) (hash : c.inlineHashGap = false)
    (reason : CloseReason) : Settles (.rescan (closePending e c reason)) := by
  obtain ⟨⟨-, hd, hh, -⟩, hc⟩ := closePending_frame e c reason
  exact ⟨hc, hd.trans hdecimal, hh.trans hash⟩

theorem settles_orderedMarker (hdecimal : c.leadingDecimal = false) (hash : c.inlineHashGap = false) :
    Settles (scanOrderedMarker e c) := by
  have hnext : Settles (.next c) := ⟨hdecimal, hash⟩
  refine .ite (.ite trivial (.ite trivial (.ite ?_ hnext))) hnext
  exact settles_close (by exact hdecimal) (by exact hash) _

theorem settles_bracket (hdecimal : c.leadingDecimal = false) (hash : c.inlineHashGap = false) :
    Settles (scanBracket e c ch pos) := by
  refine .ite ?_ (.ite (.ite ⟨hdecimal, hash⟩ ?_) ⟨hdecimal, hash⟩)
  · obtain ⟨inString, escape, hquotes⟩ := trackBracketQuote_eq c ch
      (c.pending.raw.tail.dropWhile e.u.isSpace).head?
    simp only [hquotes]
    exact .ite trivial (.ite trivial (.ite ⟨hdecimal, hash⟩ ⟨hdecimal, hash⟩))
  · exact settles_close (by exact hdecimal) (by exact hash) _

theorem settles_image (hdecimal : c.leadingDecimal = false) (hash : c.inlineHashGap = false) :
    Settles (scanImage e c) := by
  have hnext : Settles (.next c) := ⟨hdecimal, hash⟩
  refine .ite (.ite ⟨hdecimal, hash⟩ (.ite ?_ hnext)) hnext
  exact settles_close (by exact hdecimal) (by exact hash) _

theorem settles_autolink (hdecimal : c.leadingDecimal = false) (hash : c.inlineHashGap = false) :
    Settles (scanAutolink e c ch) := by
  refine .ite (.ite ⟨hdecimal, hash⟩ (.ite trivial ?_)) ⟨hdecimal, hash⟩
  exact settles_close (by exact hdecimal) (by exact hash) _

theorem settles_lineMarker (hdecimal : c.leadingDecimal = false) (hash : c.inlineHashGap = false) :
    Settles (scanLineMarker e c ch) := by
  have hnext : Settles (.next c) := ⟨hdecimal, hash⟩
  refine .ite (.ite trivial (.ite trivial (.ite trivial (.ite trivial (.ite trivial (.ite trivial
    (.ite ?_ hnext))))))) hnext
  exact settles_close (by exact hdecimal) (by exact hash) _

theorem settles_markdown (hdecimal : c.leadingDecimal = false) (hash : c.inlineHashGap = false) (now : F) :
    Settles (scanMarkdown e c ch pos now) := by
  refine .ite ?_ ⟨hdecimal, hash⟩
  have hfirst : Settles (scanOrderedMarker e (c.extend ch pos now)) := settles_orderedMarker hdecimal hash
  refine hfirst.andThen fun c hd hh => ?_
  refine (settles_bracket hd hh).andThen fun c hd hh => ?_
  refine (settles_image hd hh).andThen fun c hd hh => ?_
  refine (settles_autolink hd hh).andThen fun c hd hh => ?_
  refine (settles_lineMarker hd hh).andThen fun c hd hh => ?_
  exact .ite trivial trivial

/-- The blocks behind the flag of an inline hash. -/
theorem settles_rest (hdecimal : c.leadingDecimal = false) (hash : c.inlineHashGap = false) (now : F) :
    Settles ((scanBang e c ch pos now).andThen fun c =>
      (scanDelimiter e c ch).andThen fun c =>
      (scanMarkdown e c ch pos now).andThen fun c =>
      (scanJson e c ch pos now).andThen fun c =>
      (scanOpenLink c ch pos now).andThen fun c =>
      (scanLeadingParen e c ch pos now).andThen fun c =>
      (scanFresh e c ch pos now).andThen fun c =>
      (scanSpace e c ch pos now).andThen fun c =>
      (scanGap e c ch pos now).andThen fun c =>
      (scanRightBoundary e c ch pos now).andThen fun c =>
      (scanNonAscii e c ch pos now).andThen fun c =>
      scanRest e c ch pos now) := by
  have hbang : Settles (scanBang e c ch pos now) := by
    refine .ite (.ite trivial ?_) ⟨hdecimal, hash⟩
    obtain ⟨⟨-, hd, hh, -⟩, hc⟩ := closePending_frame e ({ c.truncate c.pending.raw.dropLast (c.pending.stop - 1)
      with candidates := { c.candidates with bang := false } } : Committer F) .boundary
    have hkept := kept_emitPlain e (closePending e ({ c.truncate c.pending.raw.dropLast
      (c.pending.stop - 1) with candidates := { c.candidates with bang := false } } : Committer F)
      .boundary) '!' (c.pending.stop - 1)
    exact ⟨hkept.closed hc, hkept.leadingDecimal.trans (hd.trans hdecimal),
      hkept.inlineHashGap.trans (hh.trans hash)⟩
  refine hbang.andThen fun c hd hh => ?_
  refine Settles.andThen ?_ fun c hd hh => ?_
  · exact .ite (.ite (settles_close hd hh _) ⟨hd, hh⟩) ⟨hd, hh⟩
  refine (settles_markdown hd hh now).andThen fun c hd hh => ?_
  refine Settles.andThen ?_ fun c hd hh => ?_
  · exact .ite trivial ⟨hd, hh⟩
  refine Settles.andThen ?_ fun c hd hh => ?_
  · exact .ite trivial ⟨hd, hh⟩
  refine Settles.andThen ?_ fun c hd hh => ?_
  · refine .ite (.ite trivial (.ite trivial (.ite trivial ?_))) ⟨hd, hh⟩
    exact settles_close (by exact hd) (by exact hh) _
  refine Settles.andThen ?_ fun c hd hh => ?_
  · exact .ite trivial ⟨hd, hh⟩
  refine Settles.andThen ?_ fun c hd hh => ?_
  · exact .ite (.ite trivial trivial) ⟨hd, hh⟩
  refine Settles.andThen ?_ fun c hd hh => ?_
  · exact .ite (.ite trivial (.ite trivial (.ite (.ite trivial trivial) (settles_close hd hh _)))) ⟨hd, hh⟩
  refine Settles.andThen ?_ fun c hd hh => ?_
  · exact .ite (.ite trivial (.ite trivial trivial)) ⟨hd, hh⟩
  refine Settles.andThen ?_ fun c hd hh => ?_
  · exact .ite trivial ⟨hd, hh⟩
  trivial

/-- A character is done where no span is open and no flag is set. -/
theorem scanOnce_done (hc : c.Closed) (hdecimal : c.leadingDecimal = false) (hash : c.inlineHashGap = false)
    (now : F) : ∃ d, scanOnce e c ch pos now = .done d := by
  unfold scanOnce
  have hopen : ¬ ¬ c.Closed := not_not_intro hc
  rw [scanHashGap, if_neg (by simp [hash]), Outcome.next_andThen]
  unfold scanEmoji
  split
  · rw [if_neg (fun h => hopen h.1)]
    exact ⟨_, rfl⟩
  rw [Outcome.next_andThen, scanLeadingDecimal, if_neg (by simp [hdecimal]), Outcome.next_andThen,
    scanBang, if_neg (fun h => hopen h.1), Outcome.next_andThen,
    scanDelimiter, if_neg (fun h => hopen h.1), Outcome.next_andThen,
    scanMarkdown, if_neg (fun h => hopen h.1), Outcome.next_andThen,
    scanJson, if_neg (fun h => hopen h.1), Outcome.next_andThen,
    scanOpenLink, if_neg (fun h => hopen h.1), Outcome.next_andThen,
    scanLeadingParen, if_neg (fun h => hopen h.1), Outcome.next_andThen,
    scanFresh, if_pos hc]
  exact ⟨_, rfl⟩

/-- The second pass is done with the character. -/
theorem scanOnce_rescan (now : F) (h : scanOnce e c ch pos now = .rescan d) :
    ∃ d', scanOnce e d ch pos now = .done d' := by
  have hsettles : Settles (scanOnce e c ch pos now) := by
    unfold scanOnce
    have hgap : (∃ d, scanHashGap e c ch pos = .done d) ∨
        ∃ d, scanHashGap e c ch pos = .next d ∧ d.inlineHashGap = false := by
      unfold scanHashGap
      split
      · dsimp only
        split
        · exact .inl ⟨_, rfl⟩
        · exact .inr ⟨_, rfl, rfl⟩
      · next hh => exact .inr ⟨_, rfl, Bool.eq_false_iff.2 hh⟩
    rcases hgap with ⟨d, hd⟩ | ⟨c, hc, hash⟩
    · rw [hd]
      trivial
    rw [hc, Outcome.next_andThen]
    unfold scanEmoji
    split
    · split
      · trivial
      · trivial
    rw [Outcome.next_andThen]
    unfold scanLeadingDecimal
    split
    · split
      · trivial
      split
      · exact ⟨rfl, rfl, hash⟩
      · exact settles_close rfl (by exact hash) _
    · next hdecimal =>
      exact settles_rest (Bool.eq_false_iff.2 hdecimal) hash now
  rw [h] at hsettles
  exact scanOnce_done hsettles.1 hsettles.2.1 hsettles.2.2 now

end

end Committer

end StreamingTts.Frontend
