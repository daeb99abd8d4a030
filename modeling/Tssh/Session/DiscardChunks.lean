import Tssh.Session.PendingInput

/-! # Discarding Input Read in Chunks

    The input of a session is read in chunks, and the discard marker may be cut anywhere by
    them.  `forwardReads` is the loop of `forwardInput` over the chunks of an attached
    session, up to the first write to the program that fails.

    * `forwardReads_pending`: the run from a pending marker, by induction on the chunks.  What
      was collected so far does not contain the marker; the chunk that completes it switches
      to plain writing.
    * `discard_independent_of_chunks`: what is written and what is reported depends on the
      bytes only, not on the chunks.
-/

open Go

namespace Pending

variable {τ : Type}

/-- What a run of `forwardInput` leaves: the session, the `DiscardedInput` messages, and
    whether no write has failed. -/
structure Forwarded (τ : Type) where
  input : Input τ
  sent : List (List (Cell τ))
  ok : Bool
  deriving Repr

/-- The loop of `forwardInput`, for chunks that are read while the session is attached and no
    marker is set.  Each chunk comes with what the program takes before a write fails. -/
def forwardReads (c : Input τ) : List (List (Cell τ) × Nat) → Forwarded τ
  | [] => ⟨c, [], true⟩
  | (buf, accepts) :: reads =>
    match forwardInput c buf accepts with
    | (c', discarded, false) => ⟨c', discarded.toList, false⟩
    | (c', discarded, true) =>
      let rest := forwardReads c' reads
      { rest with sent := discarded.toList ++ rest.sent }

/-- All bytes of the chunks. -/
def allInput (reads : List (List (Cell τ) × Nat)) : List (Cell τ) := reads.flatMap (·.1)

@[simp] theorem allInput_cons (buf : List (Cell τ)) (accepts : Nat)
    (reads : List (List (Cell τ) × Nat)) :
    allInput ((buf, accepts) :: reads) = buf ++ allInput reads := by
  simp [allInput]

/-- The bytes without their tags. -/
def bytesOf (cells : List (Cell τ)) : Bytes := cells.map (·.byte)

@[simp] theorem bytesOf_append (a b : List (Cell τ)) : bytesOf (a ++ b) = bytesOf a ++ bytesOf b :=
  List.map_append

/-! ## Runs -/

/-- **Plain writing**: without a marker everything is written, or some first part of it before
    a write fails, and nothing is reported. -/
theorem forwardReads_plain (reads : List (List (Cell τ) × Nat)) :
    ∀ c : Input τ, c.discardMarker = none →
      (forwardReads c reads).sent = [] ∧
      ∃ part, part <+: allInput reads ∧ (forwardReads c reads).input.stdin = c.stdin ++ part ∧
        ((forwardReads c reads).ok = true → part = allInput reads) := by
  induction reads with
  | nil =>
    intro c _
    exact ⟨rfl, [], List.prefix_rfl, (List.append_nil _).symm, fun _ => rfl⟩
  | cons read reads ih =>
    obtain ⟨buf, accepts⟩ := read
    intro c hm
    have hround : forwardInput c buf accepts =
        ({ c with stdin := c.stdin ++ buf.take accepts }, none, decide (buf.length ≤ accepts)) := by
      simp [forwardInput, hm, Input.write]
    by_cases hfull : buf.length ≤ accepts
    · rw [decide_eq_true hfull, List.take_of_length_le hfull] at hround
      obtain ⟨hsent, part, hpart, hstdin, hok⟩ := ih { c with stdin := c.stdin ++ buf } hm
      simp only [forwardReads, hround]
      refine ⟨hsent, buf ++ part, ?_, ?_, ?_⟩
      · rw [allInput_cons]
        exact (List.prefix_append_right_inj buf).mpr hpart
      · rw [hstdin, List.append_assoc]
      · intro h
        rw [hok h, allInput_cons]
    · rw [decide_eq_false hfull] at hround
      simp only [forwardReads, hround]
      refine ⟨rfl, buf.take accepts, ?_, rfl, fun h => absurd h (by simp)⟩
      rw [allInput_cons]
      exact (List.take_prefix accepts buf).trans (List.prefix_append buf _)

/-- What is reported of the input before the marker. -/
def discardedBefore (before : List (Cell τ)) : List (List (Cell τ)) :=
  if before = [] then [] else [before]

/-- The marker was found in the input behind `before`: what came after it was written, or some
    first part of it before a write failed. -/
structure Switched (stdin before after : List (Cell τ)) (r : Forwarded τ) : Prop where
  written : ∃ part, part <+: after ∧ r.input.stdin = stdin ++ part ∧ (r.ok = true → part = after)
  reported : r.sent = discardedBefore before ∨ r.ok = false ∧ r.sent = []

/-- The chunk that completes the marker, and the chunks after it. -/
theorem forwardReads_found {m : Marker} {buffer buf : List (Cell τ)} {pos : Nat}
    (hpos : Pattern.indexOf m.bytes (bytesOf (buffer ++ buf)) = some pos)
    (stdin : List (Cell τ)) (accepts : Nat) (reads : List (List (Cell τ) × Nat)) :
    Switched stdin ((buffer ++ buf).take pos)
      ((buffer ++ buf).drop (pos + m.bytes.length) ++ allInput reads)
      (forwardReads ⟨some m, buffer, stdin⟩ ((buf, accepts) :: reads)) := by
  have hindex : Pattern.indexOf m.bytes ((buffer ++ buf).map (·.byte)) = some pos := hpos
  have hlen : pos ≤ (buffer ++ buf).length := by
    have hle := (Pattern.indexOf_eq_some hpos).length_le
    simp only [bytesOf, List.length_drop, List.length_map, Marker.length_bytes] at hle
    omega
  by_cases hfull : ((buffer ++ buf).drop (pos + m.bytes.length)).length ≤ accepts
  · have hround : forwardInput ⟨some m, buffer, stdin⟩ buf accepts =
        (⟨none, [], stdin ++ (buffer ++ buf).drop (pos + m.bytes.length)⟩,
          if 0 < pos then some ((buffer ++ buf).take pos) else none, true) := by
      simp only [forwardInput, discardPendingInput, hindex, if_pos hfull, if_true]
    obtain ⟨hsent, part, hpart, hstdin, hok⟩ := forwardReads_plain reads
      (⟨none, [], stdin ++ (buffer ++ buf).drop (pos + m.bytes.length)⟩ : Input τ) rfl
    simp only [forwardReads, hround]
    refine ⟨⟨_, (List.prefix_append_right_inj _).mpr hpart, ?_, ?_⟩, .inl ?_⟩
    · rw [hstdin, List.append_assoc]
    · intro h
      rw [hok h]
    · rw [hsent, discardedBefore, List.append_nil]
      by_cases hzero : 0 < pos
      · have hne : (buffer ++ buf).take pos ≠ [] := by
          intro hnil
          have h0 := congrArg List.length hnil
          rw [List.length_take_of_le hlen, List.length_nil] at h0
          omega
        rw [if_pos hzero, if_neg hne]
        rfl
      · obtain rfl : pos = 0 := by omega
        rfl
  · have hround : forwardInput ⟨some m, buffer, stdin⟩ buf accepts =
        (⟨some m, buffer ++ buf,
          stdin ++ ((buffer ++ buf).drop (pos + m.bytes.length)).take accepts⟩, none, false) := by
      simp only [forwardInput, discardPendingInput, hindex, if_neg hfull]
    simp only [forwardReads, hround]
    refine ⟨⟨_, ?_, rfl, fun h => absurd h (by simp)⟩, .inr ⟨rfl, rfl⟩⟩
    exact (List.take_prefix accepts _).trans (List.prefix_append _ _)

/-- **The run from a pending marker.**  `buffer` is what was collected; the marker is not in
    it.  Nothing happens until the chunk that completes the marker. -/
theorem forwardReads_pending (m : Marker) (stdin : List (Cell τ))
    (reads : List (List (Cell τ) × Nat)) :
    ∀ buffer : List (Cell τ), Pattern.indexOf m.bytes (bytesOf buffer) = none →
      (Pattern.indexOf m.bytes (bytesOf (buffer ++ allInput reads)) = none ∧
        (forwardReads ⟨some m, buffer, stdin⟩ reads).input.stdin = stdin ∧
        (forwardReads ⟨some m, buffer, stdin⟩ reads).sent = [] ∧
        (forwardReads ⟨some m, buffer, stdin⟩ reads).ok = true) ∨
      ∃ pos, Pattern.indexOf m.bytes (bytesOf (buffer ++ allInput reads)) = some pos ∧
        Switched stdin ((buffer ++ allInput reads).take pos)
          ((buffer ++ allInput reads).drop (pos + m.bytes.length))
          (forwardReads ⟨some m, buffer, stdin⟩ reads) := by
  induction reads with
  | nil =>
    intro buffer hbuffer
    refine .inl ⟨?_, rfl, rfl, rfl⟩
    simpa [allInput] using hbuffer
  | cons read reads ih =>
    obtain ⟨buf, accepts⟩ := read
    intro buffer _
    rw [allInput_cons, ← List.append_assoc]
    cases hpos : Pattern.indexOf m.bytes (bytesOf (buffer ++ buf)) with
    | none =>
      -- the marker is not complete yet: the chunk is collected
      have hround : forwardInput ⟨some m, buffer, stdin⟩ buf accepts =
          (⟨some m, buffer ++ buf, stdin⟩, none, true) := by
        have hindex : Pattern.indexOf m.bytes ((buffer ++ buf).map (·.byte)) = none := hpos
        simp only [forwardInput, discardPendingInput, hindex]
      have hrun : forwardReads ⟨some m, buffer, stdin⟩ ((buf, accepts) :: reads) =
          forwardReads ⟨some m, buffer ++ buf, stdin⟩ reads := by
        simp [forwardReads, hround]
      rw [hrun]
      exact ih (buffer ++ buf) hpos
    | some pos =>
      refine .inr ⟨pos, ?_, ?_⟩
      · rw [bytesOf_append]
        exact Pattern.indexOf_append hpos _
      · have hle : pos + m.bytes.length ≤ (buffer ++ buf).length := by
          have hfits := (Pattern.indexOf_eq_some hpos).length_le
          simp only [bytesOf, List.length_drop, List.length_map, Marker.length_bytes] at hfits ⊢
          omega
        rw [List.take_append_of_le_length (by omega), List.drop_append_of_le_length hle]
        exact forwardReads_found hpos stdin accepts reads

/-- No write fails if the program takes the whole input each time. -/
theorem forwardReads_ok (reads : List (List (Cell τ) × Nat)) :
    ∀ c : Input τ,
      (∀ read ∈ reads, c.discardedBuffer.length + (allInput reads).length ≤ read.2) →
      (forwardReads c reads).ok = true := by
  induction reads with
  | nil =>
    intro c _
    rfl
  | cons read reads ih =>
    obtain ⟨buf, accepts⟩ := read
    intro c htakes
    have haccepts := htakes (buf, accepts) List.mem_cons_self
    simp only [allInput_cons, List.length_append] at haccepts htakes
    have hround : (forwardInput c buf accepts).2.2 = true :=
      forwardInput_accepts (by rw [List.length_append]; omega)
    have hbuffer := (forwardInput_buffer_sublist c buf accepts).length_le
    rw [List.length_append] at hbuffer
    have hrest := ih (forwardInput c buf accepts).1 fun read hread => by
      have hle := htakes read (List.mem_cons_of_mem _ hread)
      omega
    rcases hresult : forwardInput c buf accepts with ⟨c', discarded, ok⟩
    rw [hresult] at hround hrest
    obtain rfl : ok = true := hround
    simp only [forwardReads, hresult, hrest]

/-! ## The result -/

/-- **Discarding does not depend on the chunks.**  From a pending marker and an empty buffer,
    for every input and every split of it into chunks:

    * if the marker does not occur, nothing is written and nothing is reported;
    * if it does, what comes after its first occurrence is written, and what comes before it is
      reported in one message, or not at all if there is nothing.  When a write to the program
      fails the loop ends there, with a first part written;
    * no write fails as long as the program takes what it is given. -/
theorem discard_independent_of_chunks (m : Marker) (stdin : List (Cell τ))
    (reads : List (List (Cell τ) × Nat)) :
    (¬ m.bytes <:+: bytesOf (allInput reads) →
      (forwardReads ⟨some m, [], stdin⟩ reads).input.stdin = stdin ∧
      (forwardReads ⟨some m, [], stdin⟩ reads).sent = []) ∧
    (∀ before mark after, allInput reads = before ++ mark ++ after → bytesOf mark = m.bytes →
      (∀ k < before.length, ¬ m.bytes <+: (bytesOf (allInput reads)).drop k) →
      ((forwardReads ⟨some m, [], stdin⟩ reads).ok = true →
        (forwardReads ⟨some m, [], stdin⟩ reads).input.stdin = stdin ++ after ∧
        (forwardReads ⟨some m, [], stdin⟩ reads).sent = if before = [] then [] else [before]) ∧
      ((forwardReads ⟨some m, [], stdin⟩ reads).ok = false →
        (∃ part, part <+: after ∧
          (forwardReads ⟨some m, [], stdin⟩ reads).input.stdin = stdin ++ part) ∧
        ((forwardReads ⟨some m, [], stdin⟩ reads).sent = (if before = [] then [] else [before]) ∨
          (forwardReads ⟨some m, [], stdin⟩ reads).sent = []))) ∧
    ((∀ read ∈ reads, (allInput reads).length ≤ read.2) →
      (forwardReads ⟨some m, [], stdin⟩ reads).ok = true) := by
  have hempty : Pattern.indexOf m.bytes (bytesOf ([] : List (Cell τ))) = none := by
    have hne : m.bytes ≠ [] := List.ne_nil_of_length_eq_add_one m.length_bytes
    simp [bytesOf, Pattern.indexOf, hne]
  have hrun := forwardReads_pending m stdin reads [] hempty
  rw [List.nil_append] at hrun
  refine ⟨?_, ?_, ?_⟩
  · intro hnot
    rcases hrun with ⟨_, hstdin, hsent, _⟩ | ⟨pos, hpos, _⟩
    · exact ⟨hstdin, hsent⟩
    · have hoccurs := (Pattern.indexOf_eq_some hpos).isInfix.trans (List.drop_suffix pos _).isInfix
      exact absurd hoccurs hnot
  · intro before mark after hinput hmark hfirst
    have hlen : m.bytes.length = mark.length := by rw [← hmark, bytesOf, List.length_map]
    have hat : m.bytes <+: (bytesOf (allInput reads)).drop before.length := by
      have hdrop : (bytesOf (allInput reads)).drop before.length = m.bytes ++ bytesOf after := by
        rw [hinput, List.append_assoc, bytesOf_append, bytesOf_append, hmark]
        exact List.drop_left' (List.length_map _)
      rw [hdrop]
      exact List.prefix_append _ _
    rcases hrun with ⟨hnone, _⟩ | ⟨pos, hpos, hswitched⟩
    · have hoccurs := hat.isInfix.trans (List.drop_suffix before.length _).isInfix
      exact absurd hoccurs (Pattern.indexOf_eq_none hnone)
    · -- both positions are the first one
      obtain rfl : pos = before.length := by
        rcases Nat.lt_trichotomy pos before.length with hlt | heq | hgt
        · exact absurd (Pattern.indexOf_eq_some hpos) (hfirst pos hlt)
        · exact heq
        · exact absurd hat (Pattern.indexOf_first hpos before.length hgt)
      have htake : (allInput reads).take before.length = before := by
        rw [hinput, List.append_assoc, List.take_left]
      have hdrop : (allInput reads).drop (before.length + m.bytes.length) = after := by
        rw [hinput, hlen, ← List.length_append, List.drop_left]
      rw [htake, hdrop] at hswitched
      obtain ⟨⟨part, hpart, hstdin, hfull⟩, hreported⟩ := hswitched
      refine ⟨fun hok => ⟨by rw [hstdin, hfull hok], ?_⟩, fun hfailed => ⟨⟨part, hpart, hstdin⟩, ?_⟩⟩
      · rcases hreported with hsent | ⟨hfailed, _⟩
        · exact hsent
        · rw [hok] at hfailed
          cases hfailed
      · rcases hreported with hsent | ⟨_, hsent⟩
        · exact .inl hsent
        · exact .inr hsent
  · intro htakes
    apply forwardReads_ok
    simpa using htakes

/-- The input `ab`, the marker in three pieces, `cd`. -/
example :
    let m : Marker := ⟨0, 7⟩
    let cells : Bytes → List (Cell Unit) := List.map fun b => ⟨b, ()⟩
    let r := forwardReads ⟨some m, [], []⟩
      [(cells ([97, 98] ++ m.bytes.take 3), 9), (cells ((m.bytes.drop 3).take 4), 9),
       (cells (m.bytes.drop 7 ++ [99]), 9), (cells [100], 9)]
    bytesOf r.input.stdin = [99, 100] ∧ r.sent.map bytesOf = [[97, 98]] := by
  decide +kernel

end Pending
