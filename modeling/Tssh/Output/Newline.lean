import Tssh.Output.Delivery

/-! # Caching Begins at the End of a Line

    Before `forwardOutput` caches output for a client that is away, the client
    should have been given a whole line, or three reads in a row without a
    newline.  `chHasNewLine` and `noNewLineCount` are there to see to it.

    * They are only reset when a cache that is not empty has been flushed.  A
      timeout in which nothing was cached leaves them set for the next one, whose
      first read is then cached in the middle of a line.
    * A read without a newline that finds the channel full is counted twice, so
      that two such reads may be enough.

    `cached_after_newline` says that in all other runs caching begins where it
    should.
-/

open Go LTS

namespace Output

variable {cfg : Config} {s s' t : State}

/-! ## The property -/

/-- The last byte handed to the client is a newline. -/
def State.Ended (s : State) : Prop := (s.taken ++ s.ch.getD []).getLast? = some newline

instance (s : State) : Decidable s.Ended :=
  inferInstanceAs (Decidable ((s.taken ++ s.ch.getD []).getLast? = some newline))

/-- Nothing is left over from an earlier timeout. -/
def State.Fresh (s : State) : Prop := s.chHasNewLine = false ∧ s.noNewLineCount = 0

instance (s : State) : Decidable s.Fresh :=
  inferInstanceAs (Decidable (s.chHasNewLine = false ∧ s.noNewLineCount = 0))

/-- A counted read does not find the channel full during a timeout, where it would be counted
    once more. -/
def Pc.countsOnce (timeout : Bool) : Pc → Bool
  | .full _ _ true => !timeout
  | _ => true

/-- The steps of runs with `keepPendingOutput` off in which the two variables mean what they
    say: they are not left over from an earlier timeout when one begins, unless there still is
    cached output, and no read that was counted finds the channel full during the timeout. -/
def Undisturbed (s : State) : Label → Prop
  | .keepPending keep => keep = false
  | .timeout => s.cache.cacheLines ≠ [] ∨ s.Fresh
  | .advance => s.pc.countsOnce s.timeout = true
  | _ => True

instance (s : State) : (l : Label) → Decidable (Undisturbed s l)
  | .keepPending keep => inferInstanceAs (Decidable (keep = false))
  | .timeout => inferInstanceAs (Decidable (s.cache.cacheLines ≠ [] ∨ s.Fresh))
  | .advance => inferInstanceAs (Decidable (s.pc.countsOnce s.timeout = true))
  | .read _ | .eof | .lock | .callback | .take | .reconnect => inferInstanceAs (Decidable True)

/-! ## The invariant -/

/-- What the two variables say between two buffers of a timeout without cached output. -/
def State.Settled (s : State) : Prop :=
  (s.chHasNewLine = true → s.Ended ∨ 3 ≤ s.quietReads) ∧
    (s.chHasNewLine = false → s.noNewLineCount ≤ s.quietReads)

/-- The buffer ends a line, and what remains of the read is cached behind it. -/
def EndsLine (buf : Bytes) : Prop := buf.getLast? = some newline

/-- What the two variables say while `buf` is being sent: the read was counted, or cut behind
    its newline, or it was on its way before the timeout. -/
def State.Sending (s : State) (buf : Bytes) (counted : Bool) : Prop :=
  if counted then s.chHasNewLine = false ∧ s.noNewLineCount ≤ s.quietReads + 1
  else (EndsLine buf ∧ s.chHasNewLine = true) ∨ s.Fresh

/-- What the two variables say at each place of the mutex holder. -/
def Pc.Orderly (s : State) : Pc → Prop
  | .handleKeep _ => s.cache.cacheLines = [] → s.chHasNewLine = true ∧ s.Settled
  | .direct _ => s.timeout = true → s.chHasNewLine = false ∧ s.Settled
  | .directKeep _ => s.chHasNewLine = false ∧ s.Settled
  | .send buf remaining counted | .full buf remaining counted =>
    (remaining ≠ [] → EndsLine buf) ∧ (counted = true → newline ∉ buf) ∧
      (s.timeout = true → s.Sending buf counted)
  | .fullKeep buf remaining counted | .drain buf remaining counted =>
    counted = false ∧ (remaining ≠ [] → EndsLine buf) ∧ (s.timeout = true → s.Sending buf false)
  | .waitReconnected .. => False
  | .resend _ buf remaining =>
    (remaining ≠ [] → EndsLine buf) ∧ (s.timeout = true → s.Sending buf false)
  | .flushAt .. | .flushFull .. => True
  | .free | .handle _ | .flush _ | .lastFlush | .lastWait =>
    s.timeout = true → s.cache.cacheLines = [] → s.Settled

structure OrderlyInv (s : State) : Prop where
  keep : s.keepPendingOutput = false
  pc : s.pc.Orderly s

theorem OrderlyInv.pcAt {pc : Pc} (h : OrderlyInv s) (hpc : s.pc = pc) : pc.Orderly s :=
  hpc ▸ h.pc

/-- One step does right: it keeps the invariant, and if it begins to cache, then where it
    should. -/
structure Orderly (s s' : State) : Prop where
  inv : OrderlyInv s'
  begins : s.cache.cacheLines = [] → s'.cache.cacheLines ≠ [] → s'.Ended ∨ 3 ≤ s'.quietReads

/-- A step that does not touch the cache. -/
theorem Orderly.of_same (h : OrderlyInv s') (hc : s'.cache.cacheLines = s.cache.cacheLines) :
    Orderly s s' :=
  ⟨h, fun hnil hne => absurd (hc.trans hnil) hne⟩

theorem State.Fresh.settled (h : s.Fresh) : s.Settled := by
  refine ⟨fun hline => ?_, fun _ => ?_⟩
  · rw [h.1] at hline
    exact absurd hline (by decide)
  · rw [h.2]
    exact Nat.zero_le _

/-! ## `handleBuffer` -/

variable {buf remaining : Bytes} {counted : Bool} {caller : Caller}

/-- The end of a send.  Output is only cached behind a newline. -/
theorem finish_orderly (hkeep : t.keepPendingOutput = false)
    (hsettled : t.timeout = true → t.cache.cacheLines = [] → t.Settled)
    (hended : remaining ≠ [] ∨ t.cache.cacheLines ≠ [] → t.Ended) :
    Orderly s (t.finish cfg remaining) := by
  unfold State.finish
  split
  · exact ⟨⟨hkeep, hsettled⟩, fun _ hne => .inl (hended (.inr hne))⟩
  · next hne =>
    refine ⟨⟨hkeep, ?_⟩, fun _ _ => .inl (hended (.inl hne))⟩
    intro _ hnil
    exact absurd (cacheOutput_eq_nil hnil).2.1 hne

theorem handleRest_orderly (hkeep : s.keepPendingOutput = false)
    (h : s.timeout = true → s.cache.cacheLines = [] → s.chHasNewLine = false ∧ s.Settled) :
    Orderly s (s.handleRest cfg buf) := by
  unfold State.handleRest
  split
  · next hnil => exact .of_same ⟨hkeep, fun htime => h htime hnil⟩ rfl
  · next hne =>
    -- there is cached output already, and it grows
    refine ⟨⟨hkeep, ?_⟩, fun hnil => absurd hnil hne⟩
    intro _ hnil
    exact absurd (cacheOutput_eq_nil hnil).1 hne

theorem EndsLine.newline_mem (h : EndsLine buf) : newline ∈ buf :=
  List.mem_of_getLast? h

theorem EndsLine.append (h : EndsLine buf) (x : Bytes) : EndsLine (x ++ buf) := by
  unfold EndsLine at *
  rw [List.getLast?_append, h]
  rfl

/-- Without a newline in what is sent, the read was not cut: nothing remains of it, and during
    a timeout nothing was counted before. -/
theorem resend_whole_orderly {buf remaining sent : Bytes} (h : OrderlyInv s)
    (hnil : s.cache.cacheLines = []) (hends : remaining ≠ [] → EndsLine buf)
    (hsending : s.timeout = true → s.Sending buf false) (hno : newline ∉ sent)
    (hbuf : newline ∈ buf → newline ∈ sent) :
    Orderly s (if s.noNewLineCount < 3 then
        { s.handOver sent with noNewLineCount := s.noNewLineCount + 1 }.finish cfg remaining
      else { s.handOver sent with chHasNewLine := true }.finish cfg remaining) := by
  have hwhole : ¬ EndsLine buf := fun hline => hno (hbuf hline.newline_mem)
  have hfresh : s.timeout = true → s.Fresh := by
    intro htime
    rcases hsending htime with hline | hfresh
    · exact absurd hline.1 hwhole
    · exact hfresh
  have hquiet : (s.handOver sent).quietReads = s.quietReads + 1 := if_neg hno
  have hcached : ¬ (remaining ≠ [] ∨ s.cache.cacheLines ≠ []) := by
    rintro (hne | hne)
    · exact hwhole (hends hne)
    · exact hne hnil
  split
  · apply finish_orderly
    · exact h.keep
    · intro htime _
      obtain ⟨hline, hcount⟩ := hfresh htime
      refine ⟨fun hset => ?_, fun _ => ?_⟩
      · rw [show s.chHasNewLine = true from hset] at hline
        cases hline
      · show s.noNewLineCount + 1 ≤ (s.handOver sent).quietReads
        omega
    · exact fun hc => absurd hc hcached
  · next hthree =>
    apply finish_orderly
    · exact h.keep
    · intro htime _
      have hcount := (hfresh htime).2
      omega
    · exact fun hc => absurd hc hcached

/-- With a newline in what is sent, the client has been given a whole line. -/
theorem resend_line_orderly {x left remaining : Bytes} (h : OrderlyInv s) :
    Orderly s ((if left = [] then { s.handOver (x ++ [newline]) with chHasNewLine := true }
      else { s.handOver (x ++ [newline]) with chHasNewLine := true }.cacheBuf cfg left).finish cfg
        remaining) := by
  have hline : EndsLine (x ++ [newline]) := List.getLast?_concat
  have hended : (s.handOver (x ++ [newline])).Ended := hline.append s.taken
  have hsettled : State.Settled { s.handOver (x ++ [newline]) with chHasNewLine := true } :=
    ⟨fun _ => .inl hended, fun hset => by cases hset⟩
  split
  · exact finish_orderly h.keep (fun _ _ => hsettled) (fun _ => hended)
  · exact finish_orderly h.keep (fun _ _ => hsettled) (fun _ => hended)

/-! ## `flushOutput` -/

/-- Leaving `flushOutput` with the two variables in order. -/
theorem leave_orderly (hkeep : t.keepPendingOutput = false)
    (h : t.timeout = true → t.cache.cacheLines = [] → t.Settled) : OrderlyInv (t.leave caller) := by
  match caller with
  | .handleBuffer => exact ⟨hkeep, h⟩
  | .onReconnected => exact ⟨hkeep, h⟩
  | .handleError => exact ⟨hkeep, h⟩

theorem leave_cacheLines (t : State) (caller : Caller) :
    (t.leave caller).cache.cacheLines = t.cache.cacheLines := by
  match caller with
  | .handleBuffer | .onReconnected | .handleError => rfl

/-! ## The steps of the mutex holder -/

section Steps

variable (h : OrderlyInv s) (hs' : s.advance cfg = some s')
include h hs'

theorem handle_orderly (hpc : s.pc = .handle buf) : Orderly s s' := by
  have hsettled : s.timeout = true → s.cache.cacheLines = [] → s.Settled :=
    h.pcAt hpc
  simp only [State.advance, hpc, Option.some.injEq] at hs'
  subst hs'
  split
  · next hline =>
    exact .of_same ⟨h.keep, fun hnil => ⟨hline.1, hsettled hline.2 hnil⟩⟩ rfl
  · next hline =>
    apply handleRest_orderly h.keep
    intro htime hnil
    refine ⟨?_, hsettled htime hnil⟩
    exact Bool.eq_false_iff.mpr (fun hset => hline ⟨hset, htime⟩)

theorem handleKeep_orderly (hpc : s.pc = .handleKeep buf) : Orderly s s' := by
  have hsettled : s.cache.cacheLines = [] → s.chHasNewLine = true ∧ s.Settled :=
    h.pcAt hpc
  have hkeep : ¬ s.keepPendingOutput = true := by simp [h.keep]
  simp only [State.advance, hpc, if_neg hkeep, Option.some.injEq] at hs'
  subst hs'
  refine ⟨⟨h.keep, fun _ hnil => (hsettled (cacheOutput_eq_nil hnil).1).2⟩, fun hnil _ => ?_⟩
  obtain ⟨hline, hset⟩ := hsettled hnil
  exact hset.1 hline

theorem direct_orderly (hpc : s.pc = .direct buf) : Orderly s s' := by
  have hsettled : s.timeout = true → s.chHasNewLine = false ∧ s.Settled :=
    h.pcAt hpc
  simp only [State.advance, hpc, Option.some.injEq] at hs'
  subst hs'
  split
  · next htime => exact .of_same ⟨h.keep, hsettled htime⟩ rfl
  · next htime =>
    exact .of_same ⟨h.keep, fun hne => absurd rfl hne, fun hc => (by cases hc),
      fun ht => absurd ht htime⟩ rfl

/-- The place where reads without a newline are counted. -/
theorem directKeep_orderly (hpc : s.pc = .directKeep buf) : Orderly s s' := by
  obtain ⟨hline, hsettled⟩ : s.chHasNewLine = false ∧ s.Settled :=
    h.pcAt hpc
  have hcount : s.noNewLineCount ≤ s.quietReads := hsettled.2 hline
  have hkeep : ¬ s.keepPendingOutput = true := by simp [h.keep]
  simp only [State.advance, hpc, if_neg hkeep, Option.some.injEq] at hs'
  subst hs'
  unfold State.cutBuffer
  split
  · next pos hpos =>
    obtain ⟨x, y, -, -, hcut⟩ := idxOf?_some hpos
    have hends : EndsLine (cutAt buf pos).1 := by
      rw [hcut]
      exact List.getLast?_concat
    exact .of_same ⟨h.keep, fun _ => hends, fun hc => (by cases hc), fun _ => .inl ⟨hends, rfl⟩⟩ rfl
  · next hno =>
    split
    · refine .of_same ⟨h.keep, fun hne => absurd rfl hne, fun _ => idxOf?_none hno, fun _ => ?_⟩ rfl
      show s.chHasNewLine = false ∧ s.noNewLineCount + 1 ≤ s.quietReads + 1
      exact ⟨hline, by omega⟩
    · -- three reads without a newline were counted
      have hthree : 3 ≤ s.quietReads := by omega
      exact ⟨⟨h.keep, fun _ _ => ⟨fun _ => .inr hthree, fun hfalse => by cases hfalse⟩⟩,
        fun _ _ => .inr hthree⟩

theorem send_orderly (hi : Inv cfg s) (hpc : s.pc = .send buf remaining counted) :
    Orderly s s' := by
  have hplace : s.reader = .busy ∧ s.cache.cacheLines = [] := hi.placeAt hpc
  obtain ⟨hends, hquiet, hsending⟩ := h.pcAt hpc
  match hch : s.ch with
  | some b =>
    simp only [State.advance, hpc, hch, Option.some.injEq] at hs'
    subst hs'
    exact .of_same ⟨h.keep, hends, hquiet, hsending⟩ rfl
  | none =>
    simp only [State.advance, hpc, hch, Option.some.injEq] at hs'
    subst hs'
    have hended : EndsLine buf → (s.handOver buf).Ended := fun hbuf => hbuf.append s.taken
    apply finish_orderly (s := s) (t := s.handOver buf) h.keep
    · intro htime _
      have hsend := hsending htime
      unfold State.Sending at hsend
      split at hsend
      · next hcounted =>
        -- a counted read is handed over
        obtain ⟨hline, hcount⟩ := hsend
        refine ⟨fun hset => ?_, fun _ => ?_⟩
        · rw [show s.chHasNewLine = true from hset] at hline
          cases hline
        · show s.noNewLineCount ≤ if newline ∈ buf then 0 else s.quietReads + 1
          rw [if_neg (hquiet hcounted)]
          exact hcount
      · rcases hsend with ⟨hbuf, hline⟩ | hfresh
        · refine ⟨fun _ => .inl (hended hbuf), fun hset => ?_⟩
          rw [show s.chHasNewLine = false from hset] at hline
          cases hline
        · exact State.Fresh.settled (s := s.handOver buf) hfresh
    · intro hcached
      rcases hcached with hne | hne
      · exact hended (hends hne)
      · exact absurd hplace.2 hne

theorem full_orderly (hok : Undisturbed s .advance) (hpc : s.pc = .full buf remaining counted) :
    Orderly s s' := by
  obtain ⟨hends, hquiet, hsending⟩ := h.pcAt hpc
  simp only [State.advance, hpc, Option.some.injEq] at hs'
  subst hs'
  split
  · next htime =>
    -- during the timeout only reads that were not counted get here
    cases counted with
    | true =>
      simp [Undisturbed, Pc.countsOnce, hpc, htime] at hok
    | false => exact .of_same ⟨h.keep, rfl, hends, hsending⟩ rfl
  · exact .of_same ⟨h.keep, hends, hquiet, hsending⟩ rfl

theorem fullKeep_orderly (hpc : s.pc = .fullKeep buf remaining counted) : Orderly s s' := by
  have hpcOrderly := h.pcAt hpc
  have hkeep : ¬ s.keepPendingOutput = true := by simp [h.keep]
  simp only [State.advance, hpc, if_neg hkeep, Option.some.injEq] at hs'
  subst hs'
  exact .of_same ⟨h.keep, hpcOrderly⟩ rfl

theorem drain_orderly (hpc : s.pc = .drain buf remaining counted) : Orderly s s' := by
  have hpcOrderly := h.pcAt hpc
  simp only [State.advance, hpc, Option.some.injEq] at hs'
  subst hs'
  exact .of_same ⟨h.keep, hpcOrderly.2⟩ rfl

theorem resend_orderly {received buf remaining : Bytes} (hi : Inv cfg s)
    (hpc : s.pc = .resend received buf remaining) :
    Orderly s s' := by
  have hplace : s.reader = .busy ∧ s.cache.cacheLines = [] ∧ s.ch = none := hi.placeAt hpc
  obtain ⟨hends, hsending⟩ := h.pcAt hpc
  simp only [State.advance, hpc, hplace.2.2, Option.some.injEq] at hs'
  subst hs'
  unfold State.resendBuffer
  split
  · next hno =>
    exact resend_whole_orderly h hplace.2.1 hends hsending (idxOf?_none hno)
      (List.mem_append_right received)
  · next pos hpos =>
    obtain ⟨x, y, -, -, hcut⟩ := idxOf?_some hpos
    simp only [hcut]
    exact resend_line_orderly h

theorem flush_orderly (hpc : s.pc = .flush caller) : Orderly s s' := by
  have hpcOrderly := h.pcAt hpc
  simp only [State.advance, hpc, Option.some.injEq] at hs'
  subst hs'
  split
  · exact .of_same (leave_orderly h.keep hpcOrderly) (leave_cacheLines s caller)
  · exact .of_same ⟨h.keep, trivial⟩ rfl

/-- During the loop there is cached output; at its end the two variables are reset. -/
theorem flushAt_orderly {i : Nat} (hi : Inv cfg s) (hpc : s.pc = .flushAt caller i) :
    Orderly s s' := by
  obtain ⟨-, hne, -⟩ := hi.placeAt hpc
  simp only [State.advance, hpc, Option.some.injEq] at hs'
  subst hs'
  refine ⟨?_, fun hnil => absurd hnil hne⟩
  cases i with
  | zero =>
    rw [State.flushRound]
    split
    · exact ⟨h.keep, trivial⟩
    · split <;> exact ⟨h.keep, trivial⟩
  | succ i =>
    rw [State.flushRound]
    split
    · apply leave_orderly
      · exact h.keep
      · intro _ _
        exact State.Fresh.settled (s := s.flushedAll) ⟨rfl, rfl⟩
    · split
      · exact ⟨h.keep, trivial⟩
      · split <;> exact ⟨h.keep, trivial⟩

theorem flushFull_orderly {i : Nat} (hi : Inv cfg s) (hpc : s.pc = .flushFull caller i) :
    Orderly s s' := by
  obtain ⟨-, hle, hne, -⟩ := hi.placeAt hpc
  simp only [State.advance, hpc, Option.some.injEq] at hs'
  subst hs'
  refine ⟨?_, fun hnil => absurd hnil hne⟩
  split
  · -- the line that was not passed is still cached
    apply leave_orderly
    · exact h.keep
    · exact fun _ hnil => absurd hnil (drop_passed_ne_nil hle hne)
  · exact ⟨h.keep, trivial⟩

theorem lastFlush_orderly (hpc : s.pc = .lastFlush) : Orderly s s' := by
  have hpcOrderly := h.pcAt hpc
  simp only [State.advance, hpc, Option.some.injEq] at hs'
  subst hs'
  split
  · exact .of_same ⟨h.keep, hpcOrderly⟩ rfl
  · split <;> exact .of_same ⟨h.keep, hpcOrderly⟩ rfl

theorem lastWait_orderly (hpc : s.pc = .lastWait) : Orderly s s' := by
  have hpcOrderly := h.pcAt hpc
  simp only [State.advance, hpc, Option.ite_none_left_eq_some, Option.some.injEq] at hs'
  obtain ⟨-, rfl⟩ := hs'
  exact .of_same ⟨h.keep, hpcOrderly⟩ rfl

end Steps

/-- **One step of the mutex holder** does right. -/
theorem advance_orderly (hi : Inv cfg s) (h : OrderlyInv s) (hok : Undisturbed s .advance)
    (hs' : s.advance cfg = some s') : Orderly s s' := by
  match hpc : s.pc with
  | .free => simp [State.advance, hpc] at hs'
  | .handle _ => exact handle_orderly h hs' hpc
  | .handleKeep _ => exact handleKeep_orderly h hs' hpc
  | .direct _ => exact direct_orderly h hs' hpc
  | .directKeep _ => exact directKeep_orderly h hs' hpc
  | .send .. => exact send_orderly h hs' hi hpc
  | .full .. => exact full_orderly h hs' hok hpc
  | .fullKeep .. => exact fullKeep_orderly h hs' hpc
  | .waitReconnected .. =>
    -- with `keepPendingOutput` off the reader never gets here
    exact (h.pcAt hpc).elim
  | .drain .. => exact drain_orderly h hs' hpc
  | .resend .. => exact resend_orderly h hs' hi hpc
  | .flush _ => exact flush_orderly h hs' hpc
  | .flushAt .. => exact flushAt_orderly h hs' hi hpc
  | .flushFull .. => exact flushFull_orderly h hs' hi hpc
  | .lastFlush => exact lastFlush_orderly h hs' hpc
  | .lastWait => exact lastWait_orderly h hs' hpc

/-! ## Whole runs -/

/-- What the two variables mean does not depend on the rest of the state. -/
structure SameLines (s s' : State) : Prop where
  line : s'.chHasNewLine = s.chHasNewLine
  count : s'.noNewLineCount = s.noNewLineCount
  quiet : s'.quietReads = s.quietReads
  cache : s'.cache.cacheLines = s.cache.cacheLines
  ended : s'.Ended ↔ s.Ended
  timeout : s'.timeout = true → s.timeout = true

theorem SameLines.settled (h : SameLines s s') (hs : s.Settled) : s'.Settled := by
  unfold State.Settled at *
  rw [h.line, h.count, h.quiet, h.ended]
  exact hs

theorem SameLines.sending (h : SameLines s s') (hs : s.Sending buf counted) :
    s'.Sending buf counted := by
  unfold State.Sending State.Fresh at *
  rw [h.line, h.count, h.quiet]
  exact hs

theorem SameLines.orderly (h : SameLines s s') {pc : Pc} (hpc : pc.Orderly s) : pc.Orderly s' := by
  have hbetween : (s.timeout = true → s.cache.cacheLines = [] → s.Settled) →
      s'.timeout = true → s'.cache.cacheLines = [] → s'.Settled := by
    intro hs htime hnil
    exact h.settled (hs (h.timeout htime) (h.cache ▸ hnil))
  have hsend : ∀ {buf counted}, (s.timeout = true → s.Sending buf counted) →
      s'.timeout = true → s'.Sending buf counted := by
    intro buf counted hs htime
    exact h.sending (hs (h.timeout htime))
  match pc with
  | .free | .handle _ | .flush _ | .lastFlush | .lastWait => exact hbetween hpc
  | .handleKeep _ =>
    intro hnil
    obtain ⟨hline, hset⟩ := hpc (h.cache ▸ hnil)
    exact ⟨h.line.trans hline, h.settled hset⟩
  | .direct _ =>
    intro htime
    obtain ⟨hline, hset⟩ := hpc (h.timeout htime)
    exact ⟨h.line.trans hline, h.settled hset⟩
  | .directKeep _ => exact ⟨h.line.trans hpc.1, h.settled hpc.2⟩
  | .send .. | .full .. => exact ⟨hpc.1, hpc.2.1, hsend hpc.2.2⟩
  | .resend .. => exact ⟨hpc.1, hsend hpc.2⟩
  | .fullKeep .. | .drain .. => exact ⟨hpc.1, hpc.2.1, hsend hpc.2.2⟩
  | .waitReconnected .. => exact hpc
  | .flushAt .. | .flushFull .. => trivial

theorem OrderlyInv.same (h : OrderlyInv s) (hlines : SameLines s s')
    (hkeep : s'.keepPendingOutput = false) (hpc : s'.pc = s.pc) : OrderlyInv s' :=
  ⟨hkeep, hpc ▸ hlines.orderly h.pc⟩

/-- A timeout that begins with nothing left over from an earlier one, or with cached output. -/
theorem timeout_orderly (hi : Inv cfg s) (h : OrderlyInv s)
    (hok : s.cache.cacheLines ≠ [] ∨ s.Fresh) :
    OrderlyInv { s with timeout := true, quietReads := 0 } := by
  refine ⟨h.keep, ?_⟩
  -- where nothing can be cached, the timeout finds the variables reset
  have hfresh : s.cache.cacheLines = [] → s.Fresh := fun hnil => hok.resolve_left (fun hne => hne hnil)
  have hsettled : s.Fresh → State.Settled { s with timeout := true, quietReads := 0 } :=
    State.Fresh.settled (s := { s with timeout := true, quietReads := 0 })
  show s.pc.Orderly _
  match hpc : s.pc with
  | .free | .handle _ | .flush _ | .lastFlush | .lastWait =>
    intro _ hnil
    exact hsettled (hfresh hnil)
  | .handleKeep _ =>
    intro hnil
    exact ⟨(h.pcAt hpc hnil).1, hsettled (hfresh hnil)⟩
  | .direct _ =>
    have hplace := hi.placeAt hpc
    intro _
    exact ⟨(hfresh hplace.2).1, hsettled (hfresh hplace.2)⟩
  | .directKeep _ =>
    have hplace := hi.placeAt hpc
    exact ⟨(hfresh hplace.2).1, hsettled (hfresh hplace.2)⟩
  | .send buf remaining counted | .full buf remaining counted =>
    obtain ⟨hends, hquiet, -⟩ := h.pcAt hpc
    obtain ⟨hline, hcount⟩ := hfresh (hi.placeAt hpc).2
    refine ⟨hends, hquiet, fun _ => ?_⟩
    match counted with
    | true =>
      show s.chHasNewLine = false ∧ s.noNewLineCount ≤ 0 + 1
      exact ⟨hline, by omega⟩
    | false => exact .inr ⟨hline, hcount⟩
  | .fullKeep .. | .drain .. =>
    obtain ⟨hcounted, hends, -⟩ := h.pcAt hpc
    exact ⟨hcounted, hends, fun _ => .inr (hfresh (hi.placeAt hpc).2)⟩
  | .resend .. =>
    exact ⟨(h.pcAt hpc).1, fun _ => .inr (hfresh (hi.placeAt hpc).2.1)⟩
  | .waitReconnected .. => exact h.pcAt hpc
  | .flushAt .. | .flushFull .. => trivial

theorem next_orderly {l : Label} (hi : Inv cfg s) (h : OrderlyInv s) (hok : Undisturbed s l)
    (hs' : next cfg s l = some s') : Orderly s s' := by
  cases l with
  | read buf | eof =>
    simp only [next, Option.ite_none_right_eq_some, Option.some.injEq] at hs'
    obtain ⟨-, rfl⟩ := hs'
    exact .of_same (h.same ⟨rfl, rfl, rfl, rfl, .rfl, id⟩ h.keep rfl) rfl
  | lock =>
    simp only [next, Option.ite_none_right_eq_some] at hs'
    obtain ⟨hpc, hlock⟩ := hs'
    have hpcOrderly := h.pcAt hpc
    cases hr : s.reader with
    | waiting | busy | returned => simp [State.lock, hr] at hlock
    | read buf | failed =>
      simp only [State.lock, hr, Option.some.injEq] at hlock
      subst hlock
      exact .of_same ⟨h.keep, hpcOrderly⟩ rfl
    | closing =>
      simp only [State.lock, hr, Option.some.injEq] at hlock
      subst hlock
      exact .of_same (h.same ⟨rfl, rfl, rfl, rfl, .rfl, id⟩ h.keep rfl) rfl
  | callback =>
    simp only [next, Option.ite_none_right_eq_some, Option.some.injEq] at hs'
    obtain ⟨hpc, rfl⟩ := hs'
    have hpcOrderly := h.pcAt hpc
    split
    · exact .of_same h rfl
    · exact .of_same ⟨h.keep, hpcOrderly⟩ rfl
  | advance => exact advance_orderly hi h hok hs'
  | take =>
    obtain ⟨buf, hch, rfl⟩ := Option.map_eq_some_iff.mp hs'
    -- the bytes handed to the client stay the same
    have hended : State.Ended { s with ch := none, taken := s.taken ++ buf } ↔ s.Ended := by
      simp [State.Ended, hch]
    exact .of_same (h.same ⟨rfl, rfl, rfl, rfl, hended, id⟩ h.keep rfl) rfl
  | timeout =>
    simp only [next, Option.ite_none_left_eq_some, Option.some.injEq] at hs'
    obtain ⟨-, rfl⟩ := hs'
    exact .of_same (timeout_orderly hi h hok) rfl
  | reconnect =>
    simp only [next, Option.ite_none_right_eq_some, Option.some.injEq] at hs'
    obtain ⟨-, rfl⟩ := hs'
    exact .of_same (h.same ⟨rfl, rfl, rfl, rfl, .rfl, fun ht => by cases ht⟩ h.keep rfl) rfl
  | keepPending keep =>
    simp only [next, Option.some.injEq] at hs'
    subst hs'
    exact .of_same (h.same ⟨rfl, rfl, rfl, rfl, .rfl, id⟩ hok rfl) rfl

theorem orderlyInv_start : OrderlyInv .start :=
  ⟨rfl, fun htime => by cases htime⟩

/-- The two variables mean what they say in every state of an undisturbed run. -/
theorem undisturbed_inv (hs : ((forwardOutput cfg).restrict Undisturbed).Reachable s) :
    OrderlyInv s := by
  apply System.invariant_with _ (K := Inv cfg) _ _ _ hs
  · intro s hreach
    exact forwardOutput_inv hreach.of_restrict
  · rintro _ rfl
    exact orderlyInv_start
  · intro s l s' hi h hstep
    exact (next_orderly hi h hstep.1 hstep.2).inv

/-- **Caching begins at the end of a line.**  In a run with `keepPendingOutput` off whose steps
    are all undisturbed, every step that begins to cache output does so when the last byte
    handed to the client is a newline, or three reads in a row without a newline have been
    handed over since the timeout began. -/
theorem cached_after_newline {l : Label}
    (hs : ((forwardOutput cfg).restrict Undisturbed).Reachable s)
    (hstep : ((forwardOutput cfg).restrict Undisturbed).step s l s')
    (hempty : s.cache.cacheLines = []) (hcached : s'.cache.cacheLines ≠ []) :
    (s'.taken ++ s'.ch.getD []).getLast? = some newline ∨ 3 ≤ s'.quietReads :=
  (next_orderly (forwardOutput_inv hs.of_restrict) (undisturbed_inv hs) hstep.1 hstep.2).begins
    hempty hcached

/-- The first read of a timeout, `a` and a newline and `b`, up to its send. -/
def cutInLine : List Label :=
  [.timeout, .read [97, 10, 98], .lock, .advance, .advance, .advance]

theorem cached_after_newline_first :
    ∃ s s', ((forwardOutput oneLineCache).restrict Undisturbed).Reachable s ∧
      ((forwardOutput oneLineCache).restrict Undisturbed).step s .advance s' ∧
      s.cache.cacheLines = [] ∧ s'.cache.cacheLines = [[98]] ∧
      ((s'.taken ++ s'.ch.getD []).getLast? = some newline ∨ 3 ≤ s'.quietReads) := by
  obtain ⟨s, s', hrun, hok, hnext, hempty, hcached⟩ :
      ∃ s s', runLabels (fun s l => if Undisturbed s l then next oneLineCache s l else none) .start
          cutInLine = some s ∧ Undisturbed s .advance ∧ next oneLineCache s .advance = some s' ∧
        s.cache.cacheLines = [] ∧ s'.cache.cacheLines = [[98]] :=
    ⟨_, _, rfl, by decide +kernel, rfl, by decide +kernel, by decide +kernel⟩
  have hs : ((forwardOutput oneLineCache).restrict Undisturbed).Reachable s :=
    .of_runLabels_restrict hrun
  exact ⟨s, s', hs, ⟨hok, hnext⟩, hempty, hcached,
    cached_after_newline hs ⟨hok, hnext⟩ hempty (by simp [hcached])⟩

/-- `keepPendingOutput` stays off. -/
def PendingOff (_ : State) (l : Label) : Prop := l ≠ .keepPending true

instance (s : State) (l : Label) : Decidable (PendingOff s l) :=
  inferInstanceAs (Decidable (l ≠ .keepPending true))

/-- A line is handed over in one timeout, and nothing is cached.  The client comes back and is
    given `p`; in the next timeout the program writes `x`. -/
def leftOverLine : List Label :=
  [.timeout, .read [97, 10], .lock, .advance, .advance, .advance, .advance, .take,
    .reconnect, .read [112], .lock, .advance, .advance, .advance,
    .timeout, .read [120], .lock, .advance]

/-- What is left over from the first timeout makes the first read of the second one go to the
    cache, behind `p`. -/
theorem cached_inside_line_left_over :
    ∃ s s', ((forwardOutput oneLineCache).restrict PendingOff).Reachable s ∧
      ((forwardOutput oneLineCache).restrict PendingOff).step s .advance s' ∧
      s.cache.cacheLines = [] ∧ s'.cache.cacheLines = [[120]] ∧
      (s'.taken ++ s'.ch.getD []).getLast? = some 112 ∧ s'.quietReads = 0 := by
  obtain ⟨s, s', hrun, hnext, hfacts⟩ :
      ∃ s s', runLabels (fun s l => if PendingOff s l then next oneLineCache s l else none) .start
          leftOverLine = some s ∧ next oneLineCache s .advance = some s' ∧
        s.cache.cacheLines = [] ∧ s'.cache.cacheLines = [[120]] ∧
        (s'.taken ++ s'.ch.getD []).getLast? = some 112 ∧ s'.quietReads = 0 :=
    ⟨_, _, rfl, rfl, by decide +kernel⟩
  exact ⟨s, s', .of_runLabels_restrict hrun, ⟨by simp [PendingOff], hnext⟩, hfacts⟩

end Output
