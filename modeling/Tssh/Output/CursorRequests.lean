import Tssh.Output.Forward
import Tssh.Notif.OutputCache

/-! # Cursor Position Requests Across Boundaries

    Both caches remove the cursor position requests piece by piece when they are
    flushed: the server's cache from each line, the client's from each chunk.  A
    request that lies across a boundary stays.

    * A line of the **server** ends at a newline, at a carriage return, or where a
      read ends and the line has 1000 bytes already.  Only the last kind of
      boundary can lie inside a request (`cacheLines_boundary`).
    * A chunk of the **client** ends at a multiple of 64 KiB.

    `requests_removed_iff` gives the exact condition for both.
-/

open Go Pattern LTS

namespace Output

/-! ## Lines that are not continued -/

/-- The lines of `reads` if none are dropped. -/
def linesOf (reads : List Bytes) : List Bytes := reads.foldl cacheAll []

/-- The last line is long enough not to be continued. -/
def Long (lines : List Bytes) : Prop := ∃ last, lines.getLast? = some last ∧ 1000 ≤ last.length

/-- The lines end with a byte that is not part of a request. -/
def Separated (lines : List Bytes) : Prop := ∃ x b, lines.flatten = x ++ [b] ∧ b ∉ esc6n

theorem linesOf_concat (reads : List Bytes) (r : Bytes) :
    linesOf (reads ++ [r]) = cacheAll (linesOf reads) r := by
  simp [linesOf]

theorem linesOf_flatten (reads : List Bytes) : (linesOf reads).flatten = reads.flatten := by
  induction reads using List.reverseRecOn with
  | nil => rfl
  | append_singleton reads r ih =>
    rw [linesOf_concat, cacheAll_flatten, ih]
    simp

variable {lines : List Bytes} {s : State} {caller : Caller} {i : Nat} {line : Bytes}

/-- Lines behind a long one are cached as if it were not there. -/
theorem addLine_append (hlong : Long lines) (more : List Bytes) (line : Bytes) :
    addLine (lines ++ more) line = lines ++ addLine more line := by
  rcases List.eq_nil_or_concat more with rfl | ⟨more, last, rfl⟩
  · obtain ⟨last, hlast, hlen⟩ := hlong
    have hno : continues last line = false := by
      simp only [continues, Bool.and_eq_false_iff, decide_eq_false_iff_not]
      exact .inr (by omega)
    simp [addLine, hlast, hno]
  · rw [List.concat_eq_append, ← List.append_assoc, addLine_concat, addLine_concat]
    split <;> simp

theorem cacheLoop_append (hlong : Long lines) (fuel : Nat) (more : List Bytes) (buf : Bytes) :
    cacheLoop fuel (lines ++ more) buf = lines ++ cacheLoop fuel more buf := by
  induction fuel generalizing more buf with
  | zero => rfl
  | succ fuel ih =>
    rw [cacheLoop, cacheLoop]
    split
    · rfl
    · rw [addLine_append hlong, ih]

/-- A long line at the end of a read stays the end of a line. -/
theorem linesOf_append {pre : List Bytes} (hlong : Long (linesOf pre)) (post : List Bytes) :
    ∃ more, linesOf (pre ++ post) = linesOf pre ++ more := by
  induction post using List.reverseRecOn with
  | nil => exact ⟨[], by simp⟩
  | append_singleton post r ih =>
    obtain ⟨more, hmore⟩ := ih
    refine ⟨cacheAll more r, ?_⟩
    rw [← List.append_assoc, linesOf_concat, hmore]
    exact cacheLoop_append hlong r.length more r

/-! ## The boundaries between lines -/

/-- A boundary at the end of the reads `pre`, where the last line is long. -/
def LongCut (reads lines : List Bytes) : Prop :=
  ∃ pre post, reads = pre ++ post ∧ linesOf pre = lines ∧ Long lines

/-- Every boundary between lines follows a newline or a carriage return, or is a long cut. -/
def Bounded (reads lines : List Bytes) : Prop :=
  ∀ xs ys, lines = xs ++ ys → xs ≠ [] → ys ≠ [] → Separated xs ∨ LongCut reads xs

/-- Why a line is not continued. -/
theorem separated_or_long (lines : List Bytes) {last line : Bytes}
    (h : continues last line = false) :
    Separated (lines ++ [last]) ∨ Long (lines ++ [last]) := by
  have hends : ∀ b, last.getLast? = some b → b ∉ esc6n → Separated (lines ++ [last]) := by
    intro b hb hno
    obtain ⟨x, hx⟩ := List.getLast?_eq_some_iff.mp hb
    exact ⟨lines.flatten ++ x, b, by simp [hx], hno⟩
  by_cases hnewline : last.getLast? = some newline
  · exact .inl (hends newline hnewline (by decide))
  · by_cases hreturn : last.getLast? = some carriageReturn
    · exact .inl (hends carriageReturn hreturn (by decide))
    · refine .inr ⟨last, by simp, ?_⟩
      by_contra hshort
      simp [continues, hnewline, hreturn, Nat.lt_of_not_le hshort] at h

/-- One round of `cacheOutput`.  If a new line begins, the boundary before it lies behind the
    last round's line or at the end of the reads so far. -/
theorem addLine_bounded {reads lines : List Bytes} {r line : Bytes}
    (h : Bounded (reads ++ [r]) lines) (hlast : lines = linesOf reads ∨ Separated lines) :
    Bounded (reads ++ [r]) (addLine lines line) := by
  intro xs ys hsplit hxs hys
  rcases List.eq_nil_or_concat lines with rfl | ⟨before, last, rfl⟩
  · -- the first line has no boundary
    rw [addLine_nil] at hsplit
    have hlen := congrArg List.length hsplit
    have hx := List.length_pos_of_ne_nil hxs
    have hy := List.length_pos_of_ne_nil hys
    simp only [List.length_append, List.length_singleton] at hlen
    omega
  · rw [List.concat_eq_append] at *
    rw [addLine_concat] at hsplit
    obtain ⟨ys, y, rfl⟩ : ∃ ys' y, ys = ys' ++ [y] := by
      rcases List.eq_nil_or_concat ys with rfl | ⟨ys', y, rfl⟩
      · exact absurd rfl hys
      · exact ⟨ys', y, List.concat_eq_append⟩
    split at hsplit
    · -- the last line is continued, and the boundaries stay
      rw [← List.append_assoc] at hsplit
      obtain ⟨hbefore, -⟩ := List.append_inj' hsplit rfl
      exact h xs (ys ++ [last]) (by rw [hbefore, List.append_assoc]) hxs (by simp)
    · next hno =>
      have hall : before ++ [last] = xs ++ ys := by
        have hsplit' : (before ++ [last]) ++ [line] = (xs ++ ys) ++ [y] := by simpa using hsplit
        exact (List.append_inj' hsplit' rfl).1
      by_cases hnil : ys = []
      · rw [hnil, List.append_nil] at hall
        rw [← hall]
        rcases hlast with hreads | hsep
        · rcases separated_or_long before (Bool.eq_false_iff.mpr hno) with hsep | hlong
          · exact .inl hsep
          · exact .inr ⟨reads, [r], rfl, hreads.symm, hlong⟩
        · exact .inl hsep
      · exact h xs ys hall hxs hnil

/-- **The boundaries between cached lines.** -/
theorem cacheLines_boundary (reads : List Bytes) : Bounded reads (linesOf reads) := by
  induction reads using List.reverseRecOn with
  | nil =>
    intro xs ys hsplit hxs
    exact absurd (List.append_eq_nil_iff.mp hsplit.symm).1 hxs
  | append_singleton reads r ih =>
    have hstart : Bounded (reads ++ [r]) (linesOf reads) := by
      intro xs ys hsplit hxs hys
      rcases ih xs ys hsplit hxs hys with hsep | ⟨pre, post, hreads, hlines, hlong⟩
      · exact .inl hsep
      · exact .inr ⟨pre, post ++ [r], by rw [hreads, List.append_assoc], hlines, hlong⟩
    -- in the first round the lines are those of the reads before, then they end with a line
    -- that the last round has cut off
    have hloop := cacheLoop_induction
      (P := fun lines rest => Bounded (reads ++ [r]) lines ∧
        (rest ≠ [] → lines = linesOf reads ∨ Separated lines))
      (fun lines rest hne h => by
        refine ⟨addLine_bounded h.1 (h.2 hne), fun hrest => .inr ?_⟩
        obtain ⟨-, -, hend | ⟨x, b, hline, hb⟩⟩ := nextLine_spec hne
        · exact absurd hend hrest
        · exact ⟨lines.flatten ++ x, b, by rw [addLine_flatten, hline, List.append_assoc], hb⟩)
      (le_refl r.length) ⟨hstart, fun _ => .inl rfl⟩
    rw [linesOf_concat]
    exact hloop.1

/-- The server's cache removes every request if and only if no read ends inside a request with
    a line of 1000 bytes or more. -/
theorem filterLines_eq_iff (reads : List Bytes) :
    (linesOf reads).flatMap filterLine = removeAll esc6n reads.flatten ↔
      ∀ pre post, reads = pre ++ post → Straddles esc6n pre.flatten post.flatten →
        ¬ Long (linesOf pre) := by
  have hpieces := flatMap_removeAll_eq_iff esc6n_unbordered esc6n_ne_nil (linesOf reads)
  rw [linesOf_flatten] at hpieces
  refine Iff.trans hpieces ⟨?_, ?_⟩
  · rintro h pre post rfl hs hlong
    obtain ⟨more, hmore⟩ := linesOf_append hlong post
    have hflat := congrArg List.flatten hmore
    rw [linesOf_flatten, List.flatten_append, List.flatten_append, linesOf_flatten] at hflat
    apply h (linesOf pre) more hmore
    rw [linesOf_flatten, ← List.append_cancel_left hflat]
    exact hs
  · intro h xs ys hsplit hs
    have hxs : xs ≠ [] := by
      rintro rfl
      exact not_straddles_nil _ hs
    have hys : ys ≠ [] := by
      rintro rfl
      exact not_straddles_right_nil _ hs
    rcases cacheLines_boundary reads xs ys hsplit hxs hys with
      ⟨x, b, hx, hb⟩ | ⟨pre, post, rfl, hlines, hlong⟩
    · rw [hx] at hs
      exact not_straddles_of_notMem hb hs
    · have hpre : xs.flatten = pre.flatten := by rw [← hlines, linesOf_flatten]
      have hpost : ys.flatten = post.flatten := by
        have hflat := linesOf_flatten (pre ++ post)
        rw [hsplit, List.flatten_append, List.flatten_append, hpre] at hflat
        exact List.append_cancel_left hflat
      rw [hpre, hpost] at hs
      exact h pre post rfl hs (hlines ▸ hlong)

/-! ## What a flush hands over -/

variable {cfg : Config}

/-- What `flushOutput` sends of the cached lines, one after another. -/
def flushLines (cacheLines : List Bytes) : List Bytes :=
  (cacheLines.map filterLine).filter (· ≠ [])

theorem flushLines_flatten (cacheLines : List Bytes) :
    (flushLines cacheLines).flatten = cacheLines.flatMap filterLine :=
  List.flatten_filter_ne_nil.trans List.flatMap_def.symm

/-- `s` hands over `lines` and then has an empty cache, by steps of the mutex holder and the
    writer. -/
def HandsOver (cfg : Config) (s : State) (lines : List Bytes) : Prop :=
  ∃ ls s', runLabels (next cfg) s ls = some s' ∧ (∀ l ∈ ls, l = .advance ∨ l = .take) ∧
    s'.cache.cacheLines = [] ∧
    s'.taken ++ s'.ch.getD [] = s.taken ++ s.ch.getD [] ++ lines.flatMap filterLine

/-- One more step in front. -/
theorem HandsOver.cons {s t : State} {l : Label} {lines lines' : List Bytes}
    (h : HandsOver cfg t lines) (hl : l = .advance ∨ l = .take) (hstep : next cfg s l = some t)
    (hout : t.taken ++ t.ch.getD [] ++ lines.flatMap filterLine =
      s.taken ++ s.ch.getD [] ++ lines'.flatMap filterLine) : HandsOver cfg s lines' := by
  obtain ⟨ls, s', hrun, hls, hempty, htaken⟩ := h
  refine ⟨l :: ls, s', by simp [runLabels, hstep, hrun], ?_, hempty, htaken.trans hout⟩
  intro l' hl'
  rcases List.mem_cons.mp hl' with rfl | hl'
  · exact hl
  · exact hls l' hl'

theorem flush_end (hpc : s.pc = .flushAt caller (i + 1)) (hall : s.cache.cacheLines.length ≤ i) :
    HandsOver cfg s [] := by
  have hadvance : next cfg s .advance = some (s.flushedAll.leave caller) := by
    simp [next, State.advance, hpc, State.flushRound, List.getElem?_eq_none hall]
  refine ⟨[.advance], s.flushedAll.leave caller, by simp [runLabels, hadvance], by simp, ?_, ?_⟩
  · cases caller <;> rfl
  · cases caller <;> exact (List.append_nil _).symm

/-- The round of one line, with the channel empty or the line gone. -/
theorem flush_line (hpc : s.pc = .flushAt caller (i + 1))
    (hline : s.cache.cacheLines[i]? = some line) (hroom : s.ch = none ∨ filterLine line = []) :
    ∃ t, next cfg s .advance = some t ∧ t.pc = .flushAt caller (i + 2) ∧
      t.cache.cacheLines = s.cache.cacheLines ∧
      t.taken ++ t.ch.getD [] = s.taken ++ s.ch.getD [] ++ filterLine line := by
  by_cases hgone : filterLine line = []
  · refine ⟨{ s with flushed := s.flushed ++ [line], pc := .flushAt caller (i + 2) }, ?_, rfl, rfl, ?_⟩
    · simp [next, State.advance, hpc, State.flushRound, hline, hgone]
    · rw [hgone, List.append_nil]
  · have hch : s.ch = none := hroom.resolve_right hgone
    refine ⟨{ s with ch := some (filterLine line), flushed := s.flushed ++ [line],
                     pc := .flushAt caller (i + 2) }, ?_, rfl, rfl, ?_⟩
    · simp [next, State.advance, hpc, State.flushRound, hline, hgone, hch]
    · simp [hch]

/-- **A flush that no timeout interrupts** hands over the lines it has not passed yet and leaves
    an empty cache, the writer taking from the channel when it is full. -/
theorem flush_run (hpc : s.pc = .flushAt caller (i + 1)) :
    HandsOver cfg s (s.cache.cacheLines.drop i) := by
  -- by induction on the number of lines that are left
  obtain ⟨n, hn⟩ : ∃ n, s.cache.cacheLines.length ≤ i + n := ⟨s.cache.cacheLines.length, by omega⟩
  induction n generalizing s i with
  | zero =>
    rw [List.drop_eq_nil_of_le (by omega)]
    exact flush_end hpc (by omega)
  | succ n ih =>
    by_cases hlt : i < s.cache.cacheLines.length
    · have hline : s.cache.cacheLines[i]? = some s.cache.cacheLines[i] := List.getElem?_eq_getElem hlt
      have hdrop : s.cache.cacheLines.drop i =
          s.cache.cacheLines[i] :: s.cache.cacheLines.drop (i + 1) := List.drop_eq_getElem_cons hlt
      have hround : ∀ t : State, t.pc = .flushAt caller (i + 1) →
          t.cache.cacheLines = s.cache.cacheLines → t.ch = none →
          HandsOver cfg t (s.cache.cacheLines.drop i) := by
        intro t htpc htlines htch
        obtain ⟨t', hstep, hpc', hlines', hout⟩ :=
          flush_line htpc (by rw [htlines]; exact hline) (.inl htch)
        have hrest := ih hpc' (by rw [hlines', htlines]; omega)
        rw [hlines', htlines] at hrest
        apply hrest.cons (.inl rfl) hstep
        rw [hout, hdrop, List.flatMap_cons, List.append_assoc]
      match hch : s.ch with
      | none => exact hround s hpc rfl hch
      | some b =>
        have htake : next cfg s .take = some { s with ch := none, taken := s.taken ++ b } := by
          simp [next, hch]
        apply (hround { s with ch := none, taken := s.taken ++ b } hpc rfl rfl).cons (.inr rfl) htake
        simp [hch]
    · rw [List.drop_eq_nil_of_le (by omega)]
      exact flush_end hpc (by omega)

/-! ## Both caches -/

/-- The server's cache after `reads`. -/
def cacheReads (cfg : Config) (reads : List Bytes) : Cache := reads.foldl (cacheOutput cfg) .empty

theorem cacheReads_concat (reads : List Bytes) (r : Bytes) :
    cacheReads cfg (reads ++ [r]) = cacheOutput cfg (cacheReads cfg reads) r := by
  simp [cacheReads]

/-- If nothing is dropped, the cached lines are the lines of the reads. -/
theorem cacheReads_lines {reads : List Bytes} (h : (cacheReads cfg reads).dropped = []) :
    (cacheReads cfg reads).cacheLines = linesOf reads := by
  induction reads using List.reverseRecOn with
  | nil => rfl
  | append_singleton reads r ih =>
    rw [cacheReads_concat] at h ⊢
    obtain ⟨gone, hsplit, hdropped, -⟩ := cacheOutput_spec cfg (cacheReads cfg reads) r
    rw [hdropped] at h
    obtain ⟨hbefore, rfl⟩ := List.append_eq_nil_iff.mp h
    rw [ih hbefore] at hsplit
    rw [linesOf_concat, hsplit, List.nil_append]

theorem cacheReads_dropped {pre : List Bytes} (post : List Bytes)
    (h : (cacheReads cfg (pre ++ post)).dropped = []) : (cacheReads cfg pre).dropped = [] := by
  induction post using List.reverseRecOn with
  | nil => simpa using h
  | append_singleton post r ih =>
    rw [← List.append_assoc, cacheReads_concat] at h
    obtain ⟨gone, -, hdropped, -⟩ := cacheOutput_spec cfg (cacheReads cfg (pre ++ post)) r
    rw [hdropped] at h
    exact ih (List.append_eq_nil_iff.mp h).1

/-- **When all cursor position requests are removed.**  For output that is cached in `reads`:

    * the server's cache, if it drops nothing, removes all of them if and only if no read ends
      inside a request while the last cached line has 1000 bytes or more,
    * the client's cache, whose reads have at most 32 KiB, removes all of them if and only if
      none lies across a multiple of 64 KiB of the output. -/
theorem requests_removed_iff (cfg : Config) (reads : List Bytes) :
    ((cacheReads cfg reads).dropped = [] →
      ((flushLines (cacheReads cfg reads).cacheLines).flatten = removeAll esc6n reads.flatten ↔
        ∀ pre post, reads = pre ++ post → Straddles esc6n pre.flatten post.flatten →
          ∀ last, (cacheReads cfg pre).cacheLines.getLast? = some last → last.length < 1000)) ∧
    ((∀ r ∈ reads, r.length ≤ 32 * 1024) →
      ((Notif.flushOutput (reads.foldl Notif.appendOutput [])).flatten =
          removeAll esc6n reads.flatten ↔
        ∀ k, ¬ Straddles esc6n (reads.flatten.take (64 * 1024 * k))
          (reads.flatten.drop (64 * 1024 * k)))) := by
  constructor
  · intro hdropped
    rw [flushLines_flatten, cacheReads_lines hdropped, filterLines_eq_iff]
    constructor
    · rintro h pre post rfl hs last hlast
      rw [cacheReads_lines (cacheReads_dropped post hdropped)] at hlast
      by_contra hlong
      exact h pre post rfl hs ⟨last, hlast, Nat.le_of_not_lt hlong⟩
    · rintro h pre post rfl hs ⟨last, hlast, hlen⟩
      rw [← cacheReads_lines (cacheReads_dropped post hdropped)] at hlast
      have hshort := h pre post rfl hs last hlast
      omega
  · intro hreads
    apply Notif.flushOutput_eq_iff
    intro r hr
    exact (hreads r hr).trans (by decide)

/-- The limits of a usual session. -/
def usualConfig : Config := ⟨1000, 24, by decide⟩

/-- A request that is cut by the end of a read, in a short line. -/
def splitRequest : List Bytes := [[88, 10, 27, 91], [54, 110, 89]]

theorem requests_removed_short_line :
    (cacheReads usualConfig splitRequest).dropped = [] ∧
      (flushLines (cacheReads usualConfig splitRequest).cacheLines).flatten = [88, 10, 89] ∧
      (∀ pre post, splitRequest = pre ++ post → Straddles esc6n pre.flatten post.flatten →
        ∀ last, (cacheReads usualConfig pre).cacheLines.getLast? = some last → last.length < 1000) ∧
      (Notif.flushOutput (splitRequest.foldl Notif.appendOutput [])).flatten = [88, 10, 89] ∧
      (∀ k, ¬ Straddles esc6n (splitRequest.flatten.take (64 * 1024 * k))
        (splitRequest.flatten.drop (64 * 1024 * k))) := by
  have hdropped : (cacheReads usualConfig splitRequest).dropped = [] := by decide +kernel
  have hlines : (flushLines (cacheReads usualConfig splitRequest).cacheLines).flatten =
      [88, 10, 89] := by
    decide +kernel
  have hreads : ∀ r ∈ splitRequest, r.length ≤ 32 * 1024 := by decide
  have hchunks : (Notif.flushOutput (splitRequest.foldl Notif.appendOutput [])).flatten =
      [88, 10, 89] := by
    decide +kernel
  have hall : removeAll esc6n splitRequest.flatten = [88, 10, 89] := by decide +kernel
  obtain ⟨hserver, hclient⟩ := requests_removed_iff usualConfig splitRequest
  exact ⟨hdropped, hlines, (hserver hdropped).mp (hlines.trans hall.symm), hchunks,
    (hclient hreads).mp (hchunks.trans hall.symm)⟩

/-- A line of 1000 bytes that ends with the first byte of a request. -/
def requestAtLineEnd : List Bytes := [List.replicate 999 97 ++ [27], [91, 54, 110]]

/-- A chunk of 64 KiB that ends with the first byte of a request. -/
def requestAtChunkEnd : List Bytes :=
  [List.replicate 32768 97, List.replicate 32767 97 ++ [27], [91, 54, 110]]

/-- The first byte of a request at the end of a chunk. -/
theorem straddles_chunk {x y : Bytes} (hlen : (x ++ (y ++ [27])).length = Notif.chunkSize) :
    Straddles esc6n ([x, y ++ [27], [91, 54, 110]].flatten.take (Notif.chunkSize * 1))
      ([x, y ++ [27], [91, 54, 110]].flatten.drop (Notif.chunkSize * 1)) := by
  have hflat : [x, y ++ [27], [91, 54, 110]].flatten = (x ++ (y ++ [27])) ++ [91, 54, 110] := by
    simp
  rw [hflat, Nat.mul_one, List.take_left' hlen, List.drop_left' hlen, ← List.append_assoc]
  exact ⟨1, by decide, by decide, List.suffix_append (x ++ y) [27], List.prefix_rfl⟩

/-- Requests that stay in the output: one across the end of a long line of the server's cache,
    and one across the end of a chunk of the client's. -/
theorem request_kept_across_boundary :
    ((cacheReads usualConfig requestAtLineEnd).dropped = [] ∧
      (flushLines (cacheReads usualConfig requestAtLineEnd).cacheLines).flatten ≠
        removeAll esc6n requestAtLineEnd.flatten) ∧
    ((∀ r ∈ requestAtChunkEnd, r.length ≤ 32 * 1024) ∧
      (Notif.flushOutput (requestAtChunkEnd.foldl Notif.appendOutput [])).flatten ≠
        removeAll esc6n requestAtChunkEnd.flatten) := by
  have hreads : ∀ r ∈ requestAtChunkEnd, r.length ≤ 32 * 1024 := by
    intro r hr
    simp only [requestAtChunkEnd, List.mem_cons, List.not_mem_nil, or_false] at hr
    rcases hr with hr | hr | hr
    · rw [hr, List.length_replicate]
    · rw [hr, List.length_append, List.length_replicate, List.length_singleton]
    · rw [hr]
      decide
  have hfull : (List.replicate 32768 (97 : UInt8) ++ (List.replicate 32767 97 ++ [27])).length =
      Notif.chunkSize := by
    rw [List.length_append, List.length_append, List.length_replicate, List.length_replicate,
      List.length_singleton]
    rfl
  refine ⟨⟨by decide +kernel, by decide +kernel⟩, hreads, fun heq => ?_⟩
  have hsize : ∀ r ∈ requestAtChunkEnd, r.length ≤ Notif.chunkSize :=
    fun r hr => (hreads r hr).trans (by decide)
  exact (Notif.flushOutput_eq_iff hsize).mp heq 1 (straddles_chunk hfull)

end Output
