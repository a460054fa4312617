import StreamingTts.Client.AudioPlayer

/-!
# The playback cursor is honest

The frames that the player counts as queued are those on their way to the worklet, in the worklet,
rendered and not yet reported, and reported on the way back (`Synced.sync`). So what the player counts as
played is what the worklet has rendered, less the reports that are still to come, and the worklet never
holds more than the player has allowed. A clear keeps that as long as nothing rendered is left to report,
and nothing is rendered before the worklet gets it.
-/

namespace StreamingTts.Client.AudioPlayer

open Resampler
open Lib (run Along)

/-! ## The resampler -/

theorem process_counts (rates : Rates) (r : ContinuousResampler) (chunk : List ℚ) :
    r.consumedFrames ≤ (Resampler.process rates r chunk).1.consumedFrames ∧
      (Resampler.process rates r chunk).1.consumedFrames
          + (Resampler.process rates r chunk).1.pending.length
        = r.consumedFrames + r.pending.length + chunk.length := by
  unfold Resampler.process
  split
  · next hempty =>
      subst hempty
      exact ⟨le_refl _, rfl⟩
  · simp only [List.length_drop, List.length_append]
    generalize (produce rates (r.pending ++ chunk) r.positionNumerator).2 / rates.destinationRate = ticks
    omega

theorem flush_counts (r : ContinuousResampler) :
    r.flush.1.consumedFrames = r.consumedFrames + r.pending.length ∧ r.flush.1.pending = [] := by
  unfold ContinuousResampler.flush
  cases hlast : r.pending.getLast? with
  | none =>
      have hempty := List.getLast?_eq_none_iff.1 hlast
      exact ⟨by simp [hempty], hempty⟩
  | some _ => exact ⟨rfl, rfl⟩

/-! ## Segments one behind the other -/

/-- Segments that lead from one source position to another. -/
def Chain : Int → List CursorSegment → Int → Prop
  | base, [], stop => base = stop
  | base, segment :: rest, stop =>
      segment.sourceStart = base ∧ base ≤ segment.sourceEnd ∧ 0 < segment.outputFrames ∧
        Chain segment.sourceEnd rest stop

/-- The frames of some segments. -/
def total (segments : List CursorSegment) : Nat := (segments.map CursorSegment.outputFrames).sum

@[simp] theorem total_nil : total [] = 0 := rfl

@[simp] theorem total_cons (segment : CursorSegment) (rest : List CursorSegment) :
    total (segment :: rest) = segment.outputFrames + total rest := by
  simp [total]

@[simp] theorem total_append (segments more : List CursorSegment) :
    total (segments ++ more) = total segments + total more := by
  simp [total]

/-- A segment none of which is consumed. -/
def fresh (segment : CursorSegment) : CursorSegment := { segment with consumedFrames := 0 }

section
variable {base mid stop : Int} {segments more done : List CursorSegment} {segment : CursorSegment}
  {j k : Nat}

theorem CursorSegment.place_zero (segment : CursorSegment) : segment.place 0 = segment.sourceStart := by
  simp [CursorSegment.place]

theorem CursorSegment.place_mono (h : segment.sourceStart ≤ segment.sourceEnd)
    (hpos : 0 < segment.outputFrames) (hle : j ≤ k) :
    segment.place j ≤ segment.place k := by
  have hlength : 0 ≤ segment.sourceEnd - segment.sourceStart := by omega
  have hj : 0 ≤ (segment.sourceEnd - segment.sourceStart) * j := by positivity
  have hk : 0 ≤ (segment.sourceEnd - segment.sourceStart) * k := by positivity
  unfold CursorSegment.place
  rw [Int.tdiv_eq_ediv_of_nonneg hj, Int.tdiv_eq_ediv_of_nonneg hk]
  have hmul : (segment.sourceEnd - segment.sourceStart) * (j : Int)
      ≤ (segment.sourceEnd - segment.sourceStart) * k :=
    mul_le_mul_of_nonneg_left (by exact_mod_cast hle) hlength
  have hdiv := Int.ediv_le_ediv (Int.natCast_pos.2 hpos) hmul
  omega

theorem CursorSegment.place_le (h : segment.sourceStart ≤ segment.sourceEnd)
    (hpos : 0 < segment.outputFrames) (hle : k ≤ segment.outputFrames) :
    segment.place k ≤ segment.sourceEnd := by
  refine (CursorSegment.place_mono h hpos hle).trans ?_
  unfold CursorSegment.place
  rw [Int.mul_tdiv_cancel _ (by omega)]
  omega

theorem place_zero (h : Chain base segments stop) : place base segments 0 = base := by
  cases segments with
  | nil => rfl
  | cons segment rest =>
      obtain ⟨hstart, -, hpos, -⟩ := h
      rw [place, if_pos hpos, CursorSegment.place_zero, hstart]

theorem place_mono (h : Chain base segments stop) (hle : j ≤ k) :
    place base segments j ≤ place base segments k := by
  induction segments generalizing base j k with
  | nil => exact le_refl _
  | cons segment rest ih =>
      obtain ⟨hstart, hend, hpos, hrest⟩ := h
      have hsegment : segment.sourceStart ≤ segment.sourceEnd := hstart ▸ hend
      unfold place
      by_cases hk : k < segment.outputFrames
      · rw [if_pos hk, if_pos (lt_of_le_of_lt hle hk)]
        exact CursorSegment.place_mono hsegment hpos hle
      rw [if_neg hk]
      by_cases hj : j < segment.outputFrames
      · rw [if_pos hj]
        refine (CursorSegment.place_le hsegment hpos hj.le).trans ?_
        calc segment.sourceEnd = place segment.sourceEnd rest 0 := (place_zero hrest).symm
          _ ≤ place segment.sourceEnd rest (k - segment.outputFrames) := ih hrest (Nat.zero_le _)
      · rw [if_neg hj]
        exact ih hrest (by omega)

theorem place_le (h : Chain base segments stop) (k : Nat) : place base segments k ≤ stop := by
  induction segments generalizing base k with
  | nil => exact h.le
  | cons segment rest ih =>
      obtain ⟨hstart, hend, hpos, hrest⟩ := h
      unfold place
      by_cases hk : k < segment.outputFrames
      · rw [if_pos hk]
        refine (CursorSegment.place_le (hstart ▸ hend) hpos hk.le).trans ?_
        calc segment.sourceEnd = place segment.sourceEnd rest 0 := (place_zero hrest).symm
          _ ≤ stop := ih hrest 0
      · rw [if_neg hk]
        exact ih hrest _

theorem Chain.append (h : Chain base segments mid) (hmore : Chain mid more stop) :
    Chain base (segments ++ more) stop := by
  induction segments generalizing base with
  | nil =>
      cases h
      exact hmore
  | cons segment rest ih => exact ⟨h.1, h.2.1, h.2.2.1, ih h.2.2.2⟩

theorem place_append (h : Chain base segments mid) (hmore : Chain mid more stop)
    (hle : k ≤ total segments) : place base (segments ++ more) k = place base segments k := by
  induction segments generalizing base k with
  | nil =>
      cases h
      have hk : k = 0 := by simpa using hle
      subst hk
      exact place_zero hmore
  | cons segment rest ih =>
      rw [total_cons] at hle
      simp only [List.cons_append, place]
      split
      · rfl
      · exact ih h.2.2.2 (by omega)

theorem place_behind (h : Chain base done mid) (rest : List CursorSegment) (k : Nat) :
    place base (done ++ rest) (total done + k) = place mid rest k := by
  induction done generalizing base with
  | nil =>
      cases h
      simp
  | cons segment more ih =>
      simp only [List.cons_append, place, total_cons]
      rw [if_neg (by omega), ← ih h.2.2.2]
      congr 1
      omega

theorem place_fresh (segments : List CursorSegment) (base : Int) (k : Nat) :
    place base (segments.map fresh) k = place base segments k := by
  induction segments generalizing base k with
  | nil => rfl
  | cons segment rest ih =>
      simp only [List.map_cons, place, ih]
      rfl

theorem chain_fresh : Chain base (segments.map fresh) stop ↔ Chain base segments stop := by
  induction segments generalizing base with
  | nil => rfl
  | cons segment rest ih => exact and_congr_right' (and_congr_right' (and_congr_right' ih))

@[simp] theorem total_fresh : total (segments.map fresh) = total segments := by
  unfold total
  rw [List.map_map]
  rfl

end

/-! ## Consuming -/

/-- The consumed frames of the first segment. -/
def begun : List CursorSegment → Nat
  | [] => 0
  | segment :: _ => segment.consumedFrames

/-- Only the first segment is begun, and it is not over. -/
def Begun : List CursorSegment → Prop
  | [] => True
  | segment :: rest => segment.consumedFrames < segment.outputFrames ∧
      ∀ other ∈ rest, other.consumedFrames = 0

theorem begun_of_fresh {segments : List CursorSegment}
    (h : ∀ other ∈ segments, other.consumedFrames = 0) : begun segments = 0 := by
  cases segments with
  | nil => rfl
  | cons segment rest => exact h segment List.mem_cons_self

theorem Begun.of_fresh {segments : List CursorSegment} {base stop : Int}
    (hchain : Chain base segments stop) (h : ∀ other ∈ segments, other.consumedFrames = 0) :
    Begun segments := by
  cases segments with
  | nil => trivial
  | cons segment rest =>
      refine ⟨?_, fun other hother => h other (List.mem_cons_of_mem _ hother)⟩
      rw [h segment List.mem_cons_self]
      exact hchain.2.2.1

/-- What the loop of `consume` leaves: the consumed segments are done, and the cursor stands behind the
consumed frames. -/
theorem consumeSegments_spec {segments : List CursorSegment} {mid stop played : Int} {n : Nat}
    (hchain : Chain mid segments stop) (hbegun : Begun segments)
    (hplayed : played = place mid segments (begun segments)) (hn : begun segments + n ≤ total segments) :
    ∃ done mid', segments.map fresh
        = done ++ (PlaybackCursorQueue.consumeSegments segments n played).1.map fresh ∧
      Chain mid done mid' ∧
      Chain mid' (PlaybackCursorQueue.consumeSegments segments n played).1 stop ∧
      Begun (PlaybackCursorQueue.consumeSegments segments n played).1 ∧
      total done + begun (PlaybackCursorQueue.consumeSegments segments n played).1
        = begun segments + n ∧
      (PlaybackCursorQueue.consumeSegments segments n played).2
        = place mid segments (begun segments + n) := by
  induction segments generalizing mid played n with
  | nil =>
      have hnone : n = 0 := by simpa [begun] using hn
      subst hnone
      exact ⟨[], mid, rfl, rfl, hchain, trivial, rfl, hplayed⟩
  | cons segment rest ih =>
      unfold PlaybackCursorQueue.consumeSegments
      by_cases hzero : n = 0
      · rw [if_pos hzero]
        subst hzero
        exact ⟨[], mid, rfl, rfl, hchain, hbegun, by simp, hplayed⟩
      rw [if_neg hzero]
      obtain ⟨hstart, hend, hpos, hrest⟩ := hchain
      obtain ⟨hopen, hfresh⟩ := hbegun
      have hhead : begun (segment :: rest) = segment.consumedFrames := rfl
      rw [hhead, total_cons] at hn
      rw [hhead]
      by_cases hover : segment.outputFrames ≤ segment.consumedFrames + n
      · have hmin : min (segment.outputFrames - segment.consumedFrames) n
            = segment.outputFrames - segment.consumedFrames := by omega
        rw [hmin, if_pos (by omega)]
        have hnobegun := begun_of_fresh hfresh
        obtain ⟨done, mid', hsplit, hdone, hleft, hbegun', hcount, hplace⟩ :=
          ih (n := n - (segment.outputFrames - segment.consumedFrames)) hrest
            (Begun.of_fresh hrest hfresh) (by rw [hnobegun, place_zero hrest]) (by omega)
        refine ⟨fresh segment :: done, mid', ?_, ⟨hstart, hend, hpos, hdone⟩, hleft, hbegun', ?_, ?_⟩
        · rw [List.map_cons, hsplit]
          rfl
        · rw [total_cons, Nat.add_assoc, hcount, hnobegun]
          simp only [fresh]
          omega
        · rw [hplace, hnobegun, place, if_neg (by omega)]
          congr 1
          omega
      · have hmin : min (segment.outputFrames - segment.consumedFrames) n = n := by omega
        rw [hmin, if_neg (by omega)]
        refine ⟨[], mid, rfl, rfl, ⟨hstart, hend, hpos, hrest⟩, ⟨by dsimp only; omega, hfresh⟩, ?_, ?_⟩
        · exact Nat.zero_add _
        · rw [place, if_pos (by omega)]

/-! ## The queues -/

/-- The frames in the worklet once it has received its messages. -/
def after : Nat → List ToWorklet → Nat
  | frames, [] => frames
  | frames, .push samples :: rest => after (frames + samples.length) rest
  | _, .clear :: rest => after 0 rest

/-- The worklet has room for every push on the way to it. -/
def Fits (maxFrames : Nat) : Nat → List ToWorklet → Prop
  | _, [] => True
  | frames, .push samples :: rest =>
      frames + samples.length ≤ maxFrames ∧ Fits maxFrames (frames + samples.length) rest
  | _, .clear :: rest => Fits maxFrames 0 rest

/-- The frames that are reported on the way to the player. -/
def reported : List ToPlayer → Nat
  | [] => 0
  | .consumed frames :: rest => frames + reported rest
  | _ :: rest => reported rest

section
variable {maxFrames frames frames' count : Nat} {messages : List ToWorklet} {samples : List ℚ}

theorem after_push :
    after frames (messages ++ [.push samples]) = after frames messages + samples.length := by
  induction messages generalizing frames with
  | nil => rfl
  | cons message rest ih => cases message <;> exact ih

theorem after_clear : after frames (messages ++ [.clear]) = 0 := by
  induction messages generalizing frames with
  | nil => rfl
  | cons message rest ih => cases message <;> exact ih

theorem after_sub (hclear : ToWorklet.clear ∉ messages) (hcount : count ≤ frames) :
    after (frames - count) messages + count = after frames messages := by
  induction messages generalizing frames with
  | nil => exact Nat.sub_add_cancel hcount
  | cons message rest ih =>
      cases message with
      | push samples =>
          have hrest : ToWorklet.clear ∉ rest := fun hmem => hclear (List.mem_cons_of_mem _ hmem)
          have hih : after (frames + samples.length - count) rest + count
              = after (frames + samples.length) rest := ih hrest (by omega)
          simp only [after]
          rw [← hih, Nat.sub_add_comm hcount]
      | clear => exact absurd List.mem_cons_self hclear

theorem Fits.push (h : Fits maxFrames frames messages)
    (hroom : after frames messages + samples.length ≤ maxFrames) :
    Fits maxFrames frames (messages ++ [.push samples]) := by
  induction messages generalizing frames with
  | nil => exact ⟨hroom, trivial⟩
  | cons message rest ih =>
      cases message with
      | push _ => exact ⟨h.1, ih h.2 hroom⟩
      | clear => exact ih h hroom

theorem Fits.clear (h : Fits maxFrames frames messages) :
    Fits maxFrames frames (messages ++ [.clear]) := by
  induction messages generalizing frames with
  | nil => trivial
  | cons message rest ih =>
      cases message with
      | push _ => exact ⟨h.1, ih h.2⟩
      | clear => exact ih h

theorem Fits.mono (h : Fits maxFrames frames messages) (hle : frames' ≤ frames) :
    Fits maxFrames frames' messages := by
  induction messages generalizing frames frames' with
  | nil => trivial
  | cons message rest ih =>
      cases message with
      | push samples =>
          have hstep : frames' + samples.length ≤ frames + samples.length := by omega
          exact ⟨hstep.trans h.1, ih h.2 hstep⟩
      | clear => exact h

theorem reported_append (first second : List ToPlayer) :
    reported (first ++ second) = reported first + reported second := by
  induction first with
  | nil => simp [reported]
  | cons message rest ih =>
      cases message with
      | consumed frames =>
          simp only [List.cons_append, reported, ih]
          omega
      | underrun => exact ih
      | overflow _ => exact ih

theorem reported_eq_zero {messages : List ToPlayer} (h : ∀ n, ToPlayer.consumed n ∉ messages) :
    reported messages = 0 := by
  induction messages with
  | nil => rfl
  | cons message rest ih =>
      have hrest := ih fun n hmem => h n (List.mem_cons_of_mem _ hmem)
      cases message with
      | consumed n => exact absurd List.mem_cons_self (h n)
      | underrun => exact hrest
      | overflow _ => exact hrest

end

/-! ## Rendering -/

/-- The frames of some chunks. -/
def frames (chunks : List (List ℚ)) : Nat := (chunks.map List.length).sum

@[simp] theorem frames_nil : frames [] = 0 := rfl

@[simp] theorem frames_cons (chunk : List ℚ) (rest : List (List ℚ)) :
    frames (chunk :: rest) = chunk.length + frames rest := by
  simp [frames]

@[simp] theorem frames_append (chunks more : List (List ℚ)) :
    frames (chunks ++ more) = frames chunks + frames more := by
  simp [frames]

/-- The offset lies in the first chunk. -/
def InFirst (offset : Nat) : List (List ℚ) → Prop
  | [] => offset = 0
  | chunk :: _ => offset ≤ chunk.length

theorem InFirst.le {offset : Nat} {chunks : List (List ℚ)} (h : InFirst offset chunks) :
    offset ≤ frames chunks := by
  cases chunks with
  | nil =>
      have hzero : offset = 0 := h
      omega
  | cons chunk rest =>
      have hle : offset ≤ chunk.length := h
      rw [frames_cons]
      omega

theorem InFirst.append {offset : Nat} {chunks : List (List ℚ)} (h : InFirst offset chunks)
    (samples : List ℚ) : InFirst offset (chunks ++ [samples]) := by
  cases chunks with
  | nil =>
      have hzero : offset = 0 := h
      subst hzero
      exact Nat.zero_le _
  | cons chunk rest => exact h

/-- What the loop of `process` takes off the chunks. -/
theorem render_spec {chunks : List (List ℚ)} {offset room : Nat} (h : InFirst offset chunks) :
    InFirst (Worklet.render chunks offset room).2.1 (Worklet.render chunks offset room).1 ∧
      frames (Worklet.render chunks offset room).1 + offset + (Worklet.render chunks offset room).2.2
        = frames chunks + (Worklet.render chunks offset room).2.1 := by
  induction chunks generalizing offset room with
  | nil => exact ⟨h, by simp [Worklet.render]⟩
  | cons chunk rest ih =>
      have hle : offset ≤ chunk.length := h
      unfold Worklet.render
      by_cases hroom : room = 0
      · rw [if_pos hroom]
        exact ⟨h, by simp⟩
      rw [if_neg hroom]
      generalize hcount : min room (chunk.length - offset) = count
      by_cases hover : offset + count = chunk.length
      · simp only [hover, if_true]
        have hzero : InFirst 0 rest := by
          cases rest with
          | nil => rfl
          | cons _ _ => exact Nat.zero_le _
        obtain ⟨hfirst, htaken⟩ := @ih 0 (room - count) hzero
        generalize Worklet.render rest 0 (room - count) = result at hfirst htaken ⊢
        obtain ⟨chunks, offset', more⟩ := result
        refine ⟨hfirst, ?_⟩
        rw [frames_cons]
        dsimp only at htaken ⊢
        omega
      · simp only [hover, if_false]
        refine ⟨?_, ?_⟩
        · show offset + count ≤ chunk.length
          omega
        · rw [frames_cons]
          omega

/-! ## The cursor and its history -/

/-- The cursor stands behind the first frames of what was pushed. -/
structure Consumed (base : Int) (pushed : List CursorSegment) (q : PlaybackCursorQueue) (c : Nat) :
    Prop where
  split : ∃ done mid, pushed = done ++ q.segments.map fresh ∧ Chain base done mid ∧
    Chain mid q.segments q.buffered ∧ c = total done + begun q.segments
  begun : Begun q.segments
  outputFrames : total q.segments = AudioPlayer.begun q.segments + q.outputFrames
  played : q.played = place base pushed c

section
variable {base stop : Int} {pushed : List CursorSegment} {q : PlaybackCursorQueue} {c n : Nat}

theorem Consumed.chain (h : Consumed base pushed q c) : Chain base pushed q.buffered := by
  obtain ⟨done, mid, rfl, hdone, hleft, -⟩ := h.split
  exact hdone.append (chain_fresh.2 hleft)

theorem Consumed.total_eq (h : Consumed base pushed q c) : total pushed = c + q.outputFrames := by
  obtain ⟨done, mid, rfl, -, -, rfl⟩ := h.split
  have hout := h.outputFrames
  rw [total_append, total_fresh]
  omega

theorem Consumed.clear (base : Int) : Consumed base [] (.clear base) 0 :=
  ⟨⟨[], base, rfl, rfl, rfl, rfl⟩, trivial, rfl, rfl⟩

/-- Frames are reported as consumed. -/
theorem Consumed.consume (h : Consumed base pushed q c) (hn : n ≤ q.outputFrames) :
    Consumed base pushed (q.consume n) (c + n) := by
  obtain ⟨done, mid, rfl, hdone, hleft, rfl⟩ := h.split
  have hplace : ∀ k, place base (done ++ q.segments.map fresh) (total done + k)
      = place mid q.segments k := by
    intro k
    rw [place_behind hdone, place_fresh]
  have hplayed : q.played = place mid q.segments (AudioPlayer.begun q.segments) := by
    rw [h.played, hplace]
  have hout := h.outputFrames
  obtain ⟨more, mid', hsplit, hmore, hleft', hbegun, hcount, hplayed'⟩ :=
    consumeSegments_spec (n := n) hleft h.begun hplayed (by omega)
  unfold PlaybackCursorQueue.consume
  generalize PlaybackCursorQueue.consumeSegments q.segments n q.played = result at *
  obtain ⟨segments, played⟩ := result
  have htotal : total q.segments = total more + total segments := by
    rw [← total_fresh, hsplit, total_append, total_fresh]
  refine ⟨⟨done ++ more, mid', ?_, hdone.append hmore, hleft', ?_⟩, hbegun, ?_, ?_⟩
  · rw [hsplit, List.append_assoc]
  · rw [total_append]
    dsimp only at hcount ⊢
    omega
  · dsimp only at hcount ⊢
    omega
  · dsimp only at hplayed' ⊢
    rw [hplayed', Nat.add_assoc, hplace]

theorem begun_concat (segments : List CursorSegment) {segment : CursorSegment}
    (h : segment.consumedFrames = 0) :
    AudioPlayer.begun (segments ++ [segment]) = AudioPlayer.begun segments := by
  cases segments with
  | nil => exact h
  | cons _ _ => rfl

/-- A segment is pushed behind the others. -/
theorem Consumed.push (h : Consumed base pushed q c) (hn : 0 < n) (hle : q.buffered ≤ stop) :
    Consumed base (pushed ++ [⟨n, 0, q.buffered, stop⟩])
      { segments := q.segments ++ [⟨n, 0, q.buffered, stop⟩], played := q.played, buffered := stop
        outputFrames := q.outputFrames + n } c := by
  have hlast : Chain q.buffered [⟨n, 0, q.buffered, stop⟩] stop := ⟨rfl, hle, hn, rfl⟩
  have hchain := h.chain
  have htotal := h.total_eq
  have hout := h.outputFrames
  refine ⟨?_, ?_, ?_, ?_⟩
  · obtain ⟨done, mid, rfl, hdone, hleft, rfl⟩ := h.split
    refine ⟨done, mid, ?_, hdone, hleft.append hlast, ?_⟩
    · rw [List.map_append, List.append_assoc]
      rfl
    · dsimp only
      rw [begun_concat _ rfl]
  · cases hsegments : q.segments with
    | nil =>
        refine ⟨hn, ?_⟩
        intro other hother
        cases hother
    | cons segment rest =>
        have hbegun := h.begun
        rw [hsegments] at hbegun
        refine ⟨hbegun.1, fun other hother => ?_⟩
        rcases List.mem_append.1 hother with hold | hnew
        · exact hbegun.2 other hold
        · rw [List.mem_singleton.1 hnew]
  · dsimp only
    rw [total_append, begun_concat _ rfl, total_cons, total_nil]
    dsimp only
    omega
  · dsimp only
    rw [place_append hchain hlast (by omega), h.played]

end

/-! ## The invariant -/

/-- The counts of the two threads agree. -/
structure Synced (config : Config) (s : System) : Prop where
  first : InFirst s.worklet.chunkOffset s.worklet.chunks
  queued : s.worklet.queuedFrames + s.worklet.chunkOffset = frames s.worklet.chunks
  sync : s.player.cursors.outputFrames = after s.worklet.queuedFrames s.toWorklet
    + reported s.toPlayer + s.worklet.consumedSinceReport
  fits : Fits config.maxFrames s.worklet.queuedFrames s.toWorklet
  consumed : ∃ c, Consumed s.base s.pushed s.player.cursors c ∧
    s.rendered = c + reported s.toPlayer + s.worklet.consumedSinceReport
  noOverflow : ∀ n, ToPlayer.overflow n ∉ s.toPlayer

/-- The cursor is not ahead of the resampler, nor the resampler of what was received. -/
structure PlayerOk (p : Player) : Prop where
  received : p.cursors.buffered ≤ p.receivedThrough
  ahead : ∀ rates r, p.resampler = some (rates, r) →
    p.cursors.buffered ≤ p.sourceBase + r.consumedFrames ∧
      p.sourceBase + r.consumedFrames + r.pending.length ≤ p.receivedThrough

/-- A call pushes nothing, or one segment for which there is room. -/
def Pushes (config : Config) (q : PlaybackCursorQueue) (answer : Answer) : Prop :=
  (answer.output = none ∧ answer.player.cursors = q) ∨
    ∃ output stop, answer.output = some output ∧ output ≠ [] ∧
      q.outputFrames + output.length ≤ config.maxFrames ∧ q.buffered ≤ stop ∧
      answer.player.cursors =
        { segments := q.segments ++ [⟨output.length, 0, q.buffered, stop⟩], played := q.played
          buffered := stop, outputFrames := q.outputFrames + output.length }

variable {config : Config} {s : System}

theorem Synced.answered {answer : Answer} (h : Synced config s)
    (hpushes : Pushes config s.player.cursors answer) : Synced config (s.answered answer) := by
  obtain ⟨c, hconsumed, hrendered⟩ := h.consumed
  rcases hpushes with ⟨hnone, hcursors⟩ | ⟨output, stop, hsome, hne, hroom, hle, hcursors⟩
  · have hsame : s.answered answer = { s with player := answer.player } := by
      simp [System.answered, hnone]
    rw [hsame]
    exact ⟨h.first, h.queued, by rw [hcursors]; exact h.sync, h.fits,
      ⟨c, by rw [hcursors]; exact hconsumed, hrendered⟩, h.noOverflow⟩
  · have hsync := h.sync
    refine ⟨h.first, h.queued, ?_, ?_, ⟨c, ?_, hrendered⟩, h.noOverflow⟩
    · simp only [System.answered, hcursors, hsome, Option.map_some, Option.toList_some, after_push]
      omega
    · simp only [System.answered, hsome, Option.map_some, Option.toList_some]
      exact h.fits.push (by omega)
    · simp only [System.answered, hcursors, hsome, Option.map_some, Option.toList_some]
      exact hconsumed.push (List.length_pos_iff.2 hne) hle

/-- A new stream begins when everything pushed is reported. -/
theorem Synced.renew (h : Synced config s) (hnone : s.player.cursors.outputFrames = 0) (cursor : Int) :
    Synced config { s with
      player := { s.player with cursors := .clear cursor }
      base := cursor, pushed := [], rendered := 0 } := by
  have hsync := h.sync
  refine ⟨h.first, h.queued, ?_, h.fits, ⟨0, .clear cursor, ?_⟩, h.noOverflow⟩
  · simp only [PlaybackCursorQueue.clear]
    omega
  · dsimp only
    omega

/-! ## The calls of the player -/

section
variable {p : Player} {rates : Rates} {r : ContinuousResampler} {output : List ℚ}

/-- The end of a call pushes its output. -/
theorem pushOutput_spec (hne : output ≠ [])
    (hroom : p.cursors.outputFrames + output.length ≤ config.maxFrames)
    (hle : p.cursors.buffered ≤ p.sourceBase + r.consumedFrames) :
    Pushes config p.cursors (p.pushOutput r output) ∧ (p.pushOutput r output).error = none ∧
      (p.pushOutput r output).player.resampler = p.resampler ∧
      (p.pushOutput r output).player.sourceBase = p.sourceBase ∧
      (p.pushOutput r output).player.receivedThrough = p.receivedThrough ∧
      (p.pushOutput r output).player.cursors.buffered = p.sourceBase + r.consumedFrames := by
  have hlength : output.length ≠ 0 := fun hzero => hne (List.length_eq_zero_iff.1 hzero)
  have hordered : ¬ (p.cursors.buffered ≠ p.cursors.buffered ∨
      p.sourceBase + (r.consumedFrames : Int) < p.cursors.buffered) := by omega
  unfold Player.pushOutput PlaybackCursorQueue.push
  rw [if_neg hlength, if_neg hordered]
  exact ⟨.inr ⟨output, _, rfl, hne, hroom, hle, rfl⟩, rfl, rfl, rfl, rfl, rfl⟩

/-- The resampler of a player has gone on, and the cursor with it. -/
theorem PlayerOk.of_resampler (hres : p.resampler = some (rates, r))
    (hbuffered : p.cursors.buffered ≤ p.sourceBase + r.consumedFrames)
    (hreceived : p.sourceBase + r.consumedFrames + r.pending.length ≤ p.receivedThrough) : PlayerOk p := by
  refine ⟨by omega, fun rates' r' hsome => ?_⟩
  rw [hres] at hsome
  cases hsome
  exact ⟨hbuffered, hreceived⟩

/-- `enqueue` behind the choice of the resampler, where nothing is refused late. -/
theorem accept_spec {pcm : Pcm} {sourceStart sourceEnd : Int} (hres : p.resampler = some (rates, r))
    (hok : PlayerOk p) (hlength : sourceEnd - sourceStart = pcm.samples.length)
    (hclean : sourceStart ≠ p.receivedThrough ∨ (pcm.valid = true ∧
      p.cursors.outputFrames + (Resampler.process rates r pcm.samples).2.length ≤ config.maxFrames)) :
    Pushes config p.cursors (p.accept config rates r pcm sourceStart sourceEnd) ∧
      PlayerOk (p.accept config rates r pcm sourceStart sourceEnd).player ∧
      ((p.accept config rates r pcm sourceStart sourceEnd).error ≠ none →
        sourceStart ≠ p.receivedThrough ∧
          (p.accept config rates r pcm sourceStart sourceEnd).player = p) := by
  unfold Player.accept
  by_cases hstart : sourceStart ≠ p.receivedThrough
  · rw [if_pos hstart]
    exact ⟨.inl ⟨rfl, rfl⟩, hok, fun _ => ⟨hstart, rfl⟩⟩
  obtain ⟨hvalid, hroom⟩ := hclean.resolve_left hstart
  obtain ⟨hbuffered, hreceived⟩ := hok.ahead rates r hres
  obtain ⟨hmono, hcount⟩ := process_counts rates r pcm.samples
  rw [if_neg hstart]
  simp only [hvalid, not_true_eq_false, if_false]
  generalize Resampler.process rates r pcm.samples = processed at hroom hmono hcount ⊢
  obtain ⟨r', output⟩ := processed
  dsimp only at hroom hmono hcount ⊢
  have hstop : sourceEnd = p.receivedThrough + pcm.samples.length := by omega
  rw [if_neg (by omega)]
  by_cases hempty : output = []
  · rw [if_pos hempty]
    exact ⟨.inl ⟨rfl, rfl⟩, .of_resampler rfl (by dsimp only; omega) (by dsimp only; omega),
      fun herror => absurd rfl herror⟩
  · rw [if_neg hempty]
    obtain ⟨hpushes, hnone, hresampler, hbase, hthrough, hcursor⟩ :=
      @pushOutput_spec config { p with receivedThrough := sourceEnd, resampler := some (rates, r') } r'
        output hempty hroom (by dsimp only; omega)
    refine ⟨hpushes, .of_resampler hresampler ?_ ?_, fun herror => absurd hnone herror⟩
    · rw [hcursor, hbase]
    · rw [hbase, hthrough]
      dsimp only
      omega

theorem flush_spec (hok : PlayerOk p) :
    Pushes config p.cursors (p.flush config) ∧ PlayerOk (p.flush config).player := by
  unfold Player.flush
  cases hres : p.resampler with
  | none => exact ⟨.inl ⟨rfl, rfl⟩, hok⟩
  | some resampler =>
      obtain ⟨rates, r⟩ := resampler
      obtain ⟨hbuffered, hreceived⟩ := hok.ahead rates r hres
      obtain ⟨hcount, hpending⟩ := flush_counts r
      dsimp only
      generalize r.flush = flushed at hcount hpending ⊢
      obtain ⟨r', output⟩ := flushed
      dsimp only at hcount hpending ⊢
      have hkept : PlayerOk { p with resampler := some (rates, r') } := by
        refine .of_resampler rfl (by dsimp only; omega) ?_
        dsimp only
        rw [hpending]
        simp only [List.length_nil]
        omega
      by_cases hempty : output = []
      · rw [if_pos hempty]
        exact ⟨.inl ⟨rfl, rfl⟩, hkept⟩
      rw [if_neg hempty]
      by_cases hfull : config.maxFrames < p.cursors.outputFrames + output.length
      · rw [if_pos hfull]
        exact ⟨.inl ⟨rfl, rfl⟩, hkept⟩
      rw [if_neg hfull]
      by_cases hall : p.sourceBase + (r'.consumedFrames : Int) ≠ p.receivedThrough
      · rw [if_pos hall]
        exact ⟨.inl ⟨rfl, rfl⟩, hkept⟩
      rw [if_neg hall]
      obtain ⟨hpushes, -, hresampler, hbase, hthrough, hcursor⟩ :=
        @pushOutput_spec config { p with resampler := some (rates, r') } r' output hempty
          (Nat.le_of_not_lt hfull) (by dsimp only; omega)
      refine ⟨hpushes, .of_resampler hresampler ?_ ?_⟩
      · rw [hcursor, hbase]
      · rw [hbase, hthrough, hpending]
        dsimp only
        simp only [List.length_nil]
        omega

end

/-! ## The steps that keep the cursor honest -/

/-- The resampler that `enqueue` is about to use. -/
def Player.chosen (config : Config) (p : Player) (sourceRate : Int) : Option (Rates × ContinuousResampler) :=
  if p.Renews sourceRate then (Rates.new sourceRate config.contextRate).toOption.map fun rates => (rates, {})
  else p.resampler

/-- What an event may meet. An `enqueue` is refused by its length, by its rate or by its start, or it is
taken: by a resampler that can be made, with samples in range, with room for its output, and with a new
stream that does not begin behind the cursor. A clear finds every rendered frame reported, and nothing is
rendered before the worklet has got it. -/
def Clean (config : Config) (s : System) : Event → Prop
  | .enqueue pcm sourceRate sourceStart sourceEnd =>
      sourceEnd - sourceStart ≠ pcm.samples.length ∨
      (s.player.Renews sourceRate ∧ 0 < s.player.cursors.outputFrames) ∨
      (¬ s.player.Renews sourceRate ∧ sourceStart ≠ s.player.receivedThrough) ∨
      (pcm.valid = true ∧ (s.player.Renews sourceRate → s.player.cursors.played ≤ sourceStart) ∧
        ∃ rates r, s.player.chosen config sourceRate = some (rates, r) ∧
          s.player.cursors.outputFrames + (Resampler.process rates r pcm.samples).2.length
            ≤ config.maxFrames)
  | .clear => (∀ n, ToPlayer.consumed n ∉ s.toPlayer) ∧ s.worklet.consumedSinceReport = 0
  | .workletProcesses _ => ToWorklet.clear ∈ s.toWorklet → s.worklet.chunks = []
  | _ => True

/-- What a call of `enqueue` comes to: what it pushes behind the stream that it goes on with or begins, and
that it changes nothing when it raises. -/
structure Enqueued (config : Config) (s next : System) (answer : Answer) : Prop where
  pushes : Pushes config next.player.cursors answer
  ok : PlayerOk answer.player
  atomic : answer.error ≠ none → answer.player = s.player
  played : s.player.cursors.played ≤ next.player.cursors.played

theorem Enqueued.refused (hok : PlayerOk s.player) (message : String) :
    Enqueued config s s ⟨some message, s.player, none⟩ :=
  ⟨.inl ⟨rfl, rfl⟩, hok, fun _ => rfl, le_refl _⟩

section
variable {pcm : Pcm} {sourceRate sourceStart sourceEnd : Int}

theorem enqueue_of_renews (hlength : sourceEnd - sourceStart = pcm.samples.length)
    (hrenews : s.player.Renews sourceRate) :
    s.player.enqueue config pcm sourceRate sourceStart sourceEnd =
      s.player.renew config pcm sourceRate sourceStart sourceEnd := by
  unfold Player.enqueue
  rw [if_neg (not_not.2 hlength)]
  rcases hrenews with hnone | hrate
  · rw [hnone]
  · rw [decide_eq_false hrate]
    cases s.player.resampler <;> rfl

theorem enqueue_of_keeps (hlength : sourceEnd - sourceStart = pcm.samples.length)
    (hkeeps : ¬ s.player.Renews sourceRate) :
    ∃ rates r, s.player.resampler = some (rates, r) ∧
      s.player.enqueue config pcm sourceRate sourceStart sourceEnd =
        s.player.accept config rates r pcm sourceStart sourceEnd := by
  have hrate : s.player.sourceRate = sourceRate := by
    by_contra hother
    exact hkeeps (.inr hother)
  cases hres : s.player.resampler with
  | none => exact absurd (.inl hres) hkeeps
  | some resampler =>
      refine ⟨resampler.1, resampler.2, rfl, ?_⟩
      unfold Player.enqueue
      rw [if_neg (not_not.2 hlength), hres, decide_eq_true hrate]

/-- A new stream begins. -/
theorem renew_enqueued {rates : Rates} {r : ContinuousResampler}
    (hlength : sourceEnd - sourceStart = pcm.samples.length) (hrenews : s.player.Renews sourceRate)
    (hzero : s.player.cursors.outputFrames = 0) (hvalid : pcm.valid = true)
    (hplayed : s.player.cursors.played ≤ sourceStart)
    (hchosen : s.player.chosen config sourceRate = some (rates, r))
    (hroom : s.player.cursors.outputFrames + (Resampler.process rates r pcm.samples).2.length
      ≤ config.maxFrames) :
    Enqueued config s (s.renewed config pcm sourceRate sourceStart sourceEnd)
      (s.player.renew config pcm sourceRate sourceStart sourceEnd) := by
  unfold Player.chosen at hchosen
  rw [if_pos hrenews] at hchosen
  cases hnew : Rates.new sourceRate config.contextRate with
  | error e =>
      rw [hnew] at hchosen
      cases hchosen
  | ok rates' =>
      rw [hnew] at hchosen
      obtain ⟨rfl, rfl⟩ : rates' = rates ∧ ({} : ContinuousResampler) = r := by
        simpa [Except.toOption] using hchosen
      have hsame : s.renewed config pcm sourceRate sourceStart sourceEnd =
          { s with
            player := { s.player with cursors := .clear sourceStart }
            base := sourceStart, pushed := [], rendered := 0 } :=
        if_pos ⟨hlength, hrenews, hzero, by rw [hnew]; rfl⟩
      unfold Player.renew
      rw [hsame, if_neg (by omega), hnew]
      dsimp only
      have hspec := @accept_spec config
        { resampler := some (rates', {}), sourceRate := sourceRate, sourceBase := sourceStart
          receivedThrough := sourceStart, cursors := .clear sourceStart }
        rates' {} pcm sourceStart sourceEnd rfl
        (.of_resampler rfl (by simp [PlaybackCursorQueue.clear]) (by simp)) hlength
        (.inr ⟨hvalid, by simpa [PlaybackCursorQueue.clear, hzero] using hroom⟩)
      exact ⟨hspec.1, hspec.2.1, fun herror => absurd rfl (hspec.2.2 herror).1, hplayed⟩

/-- A clean `enqueue` is refused at once or taken. -/
theorem enqueue_spec (hok : PlayerOk s.player)
    (hclean : Clean config s (.enqueue pcm sourceRate sourceStart sourceEnd)) :
    Enqueued config s (s.renewed config pcm sourceRate sourceStart sourceEnd)
      (s.player.enqueue config pcm sourceRate sourceStart sourceEnd) := by
  by_cases hlength : sourceEnd - sourceStart = pcm.samples.length
  swap
  · have hsame : s.renewed config pcm sourceRate sourceStart sourceEnd = s :=
      if_neg fun h => hlength h.1
    unfold Player.enqueue
    rw [hsame, if_pos hlength]
    exact .refused hok _
  have hclean := hclean.resolve_left (not_not.2 hlength)
  by_cases hrenews : s.player.Renews sourceRate
  · rw [enqueue_of_renews hlength hrenews]
    by_cases hqueued : 0 < s.player.cursors.outputFrames
    · have hsame : s.renewed config pcm sourceRate sourceStart sourceEnd = s :=
        if_neg fun h => absurd h.2.2.1 (by omega)
      unfold Player.renew
      rw [hsame, if_pos hqueued]
      exact .refused hok _
    rcases hclean with ⟨-, hq⟩ | ⟨hnot, -⟩ | ⟨hvalid, hplayed, rates, r, hchosen, hroom⟩
    · exact absurd hq hqueued
    · exact absurd hrenews hnot
    · exact renew_enqueued hlength hrenews (by omega) hvalid (hplayed hrenews) hchosen hroom
  · have hsame : s.renewed config pcm sourceRate sourceStart sourceEnd = s :=
      if_neg fun h => hrenews h.2.1
    obtain ⟨rates, r, hres, hchoice⟩ := enqueue_of_keeps hlength hrenews
    have hlate : sourceStart ≠ s.player.receivedThrough ∨ (pcm.valid = true ∧
        s.player.cursors.outputFrames + (Resampler.process rates r pcm.samples).2.length
          ≤ config.maxFrames) := by
      rcases hclean with ⟨hyes, -⟩ | ⟨-, hstart⟩ | ⟨hvalid, -, rates', r', hchosen, hroom⟩
      · exact absurd hyes hrenews
      · exact .inl hstart
      · unfold Player.chosen at hchosen
        rw [if_neg hrenews, hres] at hchosen
        cases hchosen
        exact .inr ⟨hvalid, hroom⟩
    obtain ⟨hpushes, hkept, hraises⟩ := accept_spec hres hok hlength hlate
    rw [hsame, hchoice]
    exact ⟨hpushes, hkept, fun herror => (hraises herror).2, le_refl _⟩

end

/-! ## The steps -/

theorem Synced.clear (h : Synced config s) (hclean : Clean config s .clear) :
    Synced config (step config s .clear) := by
  have hreported := reported_eq_zero hclean.1
  have hpending := hclean.2
  refine ⟨h.first, h.queued, ?_, h.fits.clear, ⟨0, .clear 0, ?_⟩, h.noOverflow⟩
  · simp only [step, Player.clear, PlaybackCursorQueue.clear, after_clear]
    omega
  · simp only [step]
    omega

theorem Synced.workletReceives (hmax : config.maxFrames ≤ config.maxQueuedFrames)
    (h : Synced config s) : Synced config (step config s .workletReceives) := by
  unfold step
  cases hqueue : s.toWorklet with
  | nil => exact h
  | cons message rest =>
      have hsync := h.sync
      have hfits := h.fits
      have hqueued := h.queued
      obtain ⟨c, hconsumed, hrendered⟩ := h.consumed
      rw [hqueue] at hsync hfits
      cases message with
      | push samples =>
          have hroom : ¬ config.maxQueuedFrames < s.worklet.queuedFrames + samples.length := by
            have hfit := hfits.1
            omega
          simp only [Worklet.receive, if_neg hroom, List.append_nil]
          refine ⟨h.first.append samples, ?_, hsync, hfits.2, ⟨c, hconsumed, hrendered⟩, h.noOverflow⟩
          simp only [frames_append, frames_cons, frames_nil]
          omega
      | clear =>
          simp only [Worklet.receive, List.append_nil]
          exact ⟨rfl, rfl, hsync, hfits, ⟨c, hconsumed, hrendered⟩, h.noOverflow⟩

/-- What one call of `process` reports and keeps. -/
theorem process_spec (w : Worklet) (outputLength : Nat) :
    reported (w.process outputLength).2.1 + (w.process outputLength).1.consumedSinceReport
        = w.consumedSinceReport + (w.process outputLength).2.2 ∧
      ∀ n, ToPlayer.overflow n ∉ (w.process outputLength).2.1 := by
  unfold Worklet.process
  generalize Worklet.render w.chunks w.chunkOffset outputLength = result
  obtain ⟨chunks, offset, count⟩ := result
  dsimp only
  refine ⟨?_, ?_⟩
  · split <;> split <;> simp [reported]
  · intro n
    split <;> split <;> simp

theorem Synced.workletProcesses {outputLength : Nat} (h : Synced config s)
    (hclean : Clean config s (.workletProcesses outputLength)) :
    Synced config (step config s (.workletProcesses outputLength)) := by
  obtain ⟨hfirst, hcount⟩ := @render_spec s.worklet.chunks s.worklet.chunkOffset outputLength h.first
  obtain ⟨hreports, hno⟩ := process_spec s.worklet outputLength
  have hsync := h.sync
  have hqueued := h.queued
  have hle := hfirst.le
  obtain ⟨c, hconsumed, hrendered⟩ := h.consumed
  have hchunks : (s.worklet.process outputLength).1.chunks
      = (Worklet.render s.worklet.chunks s.worklet.chunkOffset outputLength).1 := rfl
  have hoffset : (s.worklet.process outputLength).1.chunkOffset
      = (Worklet.render s.worklet.chunks s.worklet.chunkOffset outputLength).2.1 := rfl
  have hqueue : (s.worklet.process outputLength).1.queuedFrames = s.worklet.queuedFrames
      - (Worklet.render s.worklet.chunks s.worklet.chunkOffset outputLength).2.2 := rfl
  have hrender : (s.worklet.process outputLength).2.2
      = (Worklet.render s.worklet.chunks s.worklet.chunkOffset outputLength).2.2 := rfl
  have hafter : after (s.worklet.process outputLength).1.queuedFrames s.toWorklet
      + (s.worklet.process outputLength).2.2 = after s.worklet.queuedFrames s.toWorklet := by
    rw [hqueue, hrender]
    by_cases hclear : ToWorklet.clear ∈ s.toWorklet
    · have hnone : (Worklet.render s.worklet.chunks s.worklet.chunkOffset outputLength).2.2 = 0 := by
        rw [hclean hclear]
        rfl
      rw [hnone]
      rfl
    · exact after_sub hclear (by omega)
  refine ⟨hfirst, ?_, ?_, h.fits.mono ?_, ⟨c, hconsumed, ?_⟩, ?_⟩
  · simp only [step]
    rw [hchunks, hoffset, hqueue]
    omega
  · show s.player.cursors.outputFrames = after (s.worklet.process outputLength).1.queuedFrames s.toWorklet
      + reported (s.toPlayer ++ (s.worklet.process outputLength).2.1)
      + (s.worklet.process outputLength).1.consumedSinceReport
    rw [reported_append]
    omega
  · show (s.worklet.process outputLength).1.queuedFrames ≤ s.worklet.queuedFrames
    rw [hqueue]
    omega
  · show s.rendered + (s.worklet.process outputLength).2.2 = c
      + reported (s.toPlayer ++ (s.worklet.process outputLength).2.1)
      + (s.worklet.process outputLength).1.consumedSinceReport
    rw [reported_append]
    omega
  · intro n hmem
    rcases List.mem_append.1 hmem with hold | hnew
    · exact h.noOverflow n hold
    · exact hno n hnew

theorem Synced.playerReceives (h : Synced config s) : Synced config (step config s .playerReceives) := by
  unfold step
  have hsync := h.sync
  have hno := h.noOverflow
  obtain ⟨c, hconsumed, hrendered⟩ := h.consumed
  cases hqueue : s.toPlayer with
  | nil => exact h
  | cons message rest =>
      rw [hqueue] at hsync hrendered hno
      have hrest : ∀ n, ToPlayer.overflow n ∉ rest := fun n hmem => hno n (List.mem_cons_of_mem _ hmem)
      cases message with
      | consumed n =>
          simp only [reported] at hsync hrendered
          refine ⟨h.first, h.queued, ?_, h.fits, ⟨c + n, hconsumed.consume (by omega), ?_⟩, hrest⟩
          · simp only [PlaybackCursorQueue.consume]
            omega
          · dsimp only
            omega
      | underrun => exact ⟨h.first, h.queued, hsync, h.fits, ⟨c, hconsumed, hrendered⟩, hrest⟩
      | overflow _ => exact ⟨h.first, h.queued, hsync, h.fits, ⟨c, hconsumed, hrendered⟩, hrest⟩

theorem Synced.enqueue {pcm : Pcm} {sourceRate sourceStart sourceEnd : Int} (h : Synced config s)
    (hok : PlayerOk s.player) (hclean : Clean config s (.enqueue pcm sourceRate sourceStart sourceEnd)) :
    Synced config (step config s (.enqueue pcm sourceRate sourceStart sourceEnd)) := by
  refine Synced.answered ?_ (enqueue_spec hok hclean).pushes
  unfold System.renewed
  split
  · next hrenews => exact h.renew hrenews.2.2.1 sourceStart
  · exact h

/-- Every step keeps the counts in agreement, and the player in order. -/
theorem Synced.step (hmax : config.maxFrames ≤ config.maxQueuedFrames) (h : Synced config s)
    (hok : PlayerOk s.player) (e : Event) (hclean : Clean config s e) :
    Synced config (step config s e) ∧ PlayerOk (step config s e).player := by
  cases e with
  | enqueue pcm sourceRate sourceStart sourceEnd =>
      exact ⟨h.enqueue hok hclean, (enqueue_spec hok hclean).ok⟩
  | flush => exact ⟨h.answered (flush_spec hok).1, (flush_spec hok).2⟩
  | clear =>
      refine ⟨h.clear hclean, ⟨le_refl _, fun rates r hsome => ?_⟩⟩
      obtain ⟨resampler, -, hsame⟩ := Option.map_eq_some_iff.1 hsome
      cases hsame
      exact ⟨by simp [AudioPlayer.step, Player.clear, PlaybackCursorQueue.clear],
        by simp [AudioPlayer.step, Player.clear]⟩
  | workletReceives =>
      refine ⟨h.workletReceives hmax, ?_⟩
      unfold AudioPlayer.step
      cases s.toWorklet <;> exact hok
  | workletProcesses outputLength => exact ⟨h.workletProcesses hclean, hok⟩
  | playerReceives =>
      refine ⟨h.playerReceives, ?_⟩
      unfold AudioPlayer.step
      cases s.toPlayer with
      | nil => exact hok
      | cons message rest =>
          cases message with
          | consumed n => exact ⟨hok.received, hok.ahead⟩
          | underrun => exact hok
          | overflow _ => exact hok

/-! ## The cursor -/

/-- The reported cursor is in order, stands on rendered frames, and the worklet has refused nothing. -/
structure Honest (s : System) : Prop where
  played_le : s.player.cursors.played ≤ s.player.cursors.buffered
  buffered_le : s.player.cursors.buffered ≤ s.player.receivedThrough
  rendered : s.player.cursors.played ≤ place s.base s.pushed s.rendered
  noOverflow : ∀ n, ToPlayer.overflow n ∉ s.toPlayer

/-- A step takes the cursor back only by a clear, and an `enqueue` that raises changes nothing. -/
structure HonestStep (config : Config) (s : System) (e : Event) : Prop where
  forward : e ≠ .clear → s.player.cursors.played ≤ (step config s e).player.cursors.played
  atomic : ∀ pcm sourceRate sourceStart sourceEnd, e = .enqueue pcm sourceRate sourceStart sourceEnd →
    (s.player.enqueue config pcm sourceRate sourceStart sourceEnd).error ≠ none →
      (s.player.enqueue config pcm sourceRate sourceStart sourceEnd).player = s.player

theorem Synced.honest (h : Synced config s) (hok : PlayerOk s.player) : Honest s := by
  obtain ⟨c, hconsumed, hrendered⟩ := h.consumed
  refine ⟨?_, hok.received, ?_, h.noOverflow⟩
  · rw [hconsumed.played]
    exact place_le hconsumed.chain c
  · rw [hconsumed.played]
    exact place_mono hconsumed.chain (by omega)

theorem Pushes.played {q : PlaybackCursorQueue} {answer : Answer} (h : Pushes config q answer) :
    answer.player.cursors.played = q.played := by
  rcases h with ⟨-, hsame⟩ | ⟨_, _, -, -, -, -, hpushed⟩
  · rw [hsame]
  · rw [hpushed]

theorem Synced.honestStep (h : Synced config s) (hok : PlayerOk s.player) (e : Event)
    (hclean : Clean config s e) : HonestStep config s e := by
  refine ⟨fun hnot => ?_, ?_⟩
  · cases e with
    | enqueue pcm sourceRate sourceStart sourceEnd =>
        have henqueued := enqueue_spec hok hclean
        exact henqueued.played.trans henqueued.pushes.played.ge
    | flush => exact (flush_spec hok).1.played.ge
    | clear => exact absurd rfl hnot
    | workletReceives =>
        unfold AudioPlayer.step
        cases s.toWorklet <;> exact le_refl _
    | workletProcesses outputLength => exact le_refl _
    | playerReceives =>
        obtain ⟨c, hconsumed, -⟩ := h.consumed
        have hsync := h.sync
        unfold AudioPlayer.step
        cases hqueue : s.toPlayer with
        | nil => exact le_refl _
        | cons message rest =>
            rw [hqueue] at hsync
            cases message with
            | consumed n =>
                simp only [reported] at hsync
                have hmore : Consumed s.base s.pushed (s.player.cursors.consume n) (c + n) :=
                  hconsumed.consume (by omega)
                dsimp only
                rw [hconsumed.played, hmore.played]
                exact place_mono hconsumed.chain (Nat.le_add_right c n)
            | underrun => exact le_refl _
            | overflow _ => exact le_refl _
  · rintro pcm sourceRate sourceStart sourceEnd rfl herror
    exact (enqueue_spec hok hclean).atomic herror

theorem synced_init (config : Config) : Synced config {} :=
  ⟨rfl, rfl, rfl, trivial, ⟨0, .clear 0, rfl⟩, fun _ hmem => nomatch hmem⟩

theorem playerOk_init : PlayerOk {} := by
  refine ⟨le_refl _, fun rates r hsome => ?_⟩
  cases hsome

/-- In every run of clean steps, with a limit that the worklet takes over, the cursor is honest in every
state, and so is every clean step from there. -/
theorem playback_cursor_honest (config : Config) (hmax : config.maxFrames ≤ config.maxQueuedFrames)
    (events : List Event) (hclean : Along (step config) (Clean config) {} events) :
    Honest (run (step config) {} events) ∧
      ∀ e, Clean config (run (step config) {} events) e →
        HonestStep config (run (step config) {} events) e := by
  have hinv : ∀ (s : System), Synced config s → PlayerOk s.player →
      Along (step config) (Clean config) s events →
      Synced config (run (step config) s events) ∧ PlayerOk (run (step config) s events).player := by
    clear hclean
    induction events with
    | nil => exact fun s h hok _ => ⟨h, hok⟩
    | cons e rest ih =>
        intro s h hok hsteps
        obtain ⟨hnext, hnextOk⟩ := h.step hmax hok e hsteps.1
        exact ih _ hnext hnextOk hsteps.2
  obtain ⟨hsynced, hok⟩ := hinv {} (synced_init config) playerOk_init hclean
  exact ⟨hsynced.honest hok, fun e he => hsynced.honestStep hok e he⟩

/-- A context of 48 kHz with the limit of one hour. -/
def context48k : Config := ⟨48000, 48000 * 3600⟩

/-- One sample at 24 kHz, which the resampler keeps until the flush. -/
def oneSample : List Event := [.enqueue ⟨[0], true⟩ 24000 0 1, .flush]

theorem playback_cursor_honest_oneSample :
    context48k.maxFrames ≤ context48k.maxQueuedFrames ∧
      Along (step context48k) (Clean context48k) {} oneSample ∧
      Honest (run (step context48k) {} oneSample) := by
  have hclean : Along (step context48k) (Clean context48k) {} oneSample := by
    refine ⟨.inr (.inr (.inr ⟨rfl, fun _ => le_refl _, ⟨24000, 48000, by decide, by decide⟩, {}, rfl, ?_⟩)),
      trivial, trivial⟩
    decide +kernel
  exact ⟨by decide, hclean, (playback_cursor_honest context48k (by decide) oneSample hclean).1⟩

/-- The worklet has rendered a frame and reported it when the player is cleared, and the report counts for
the frame that comes next. -/
theorem cleared_in_flight : ¬ Honest (run (step context48k) {} (oneSample
    ++ [.workletReceives, .workletProcesses 128, .clear] ++ oneSample ++ [.playerReceives])) := by
  intro h
  have hrendered := h.rendered
  revert hrendered
  decide +kernel

end StreamingTts.Client.AudioPlayer
