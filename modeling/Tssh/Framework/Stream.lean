import Tssh.Framework.Slice
import Mathlib.Data.List.Infix

/-! # Byte Streams Read and Written in Pieces

    * **Readers**: a byte stream that arrives in non-empty pieces.  `Read` returns
      bytes of one piece only, so that the pieces say where the reads are split, and
      where the pieces end `Read` returns an error.  `readFull` is `io.ReadFull` and
      `readAtLeast` is `io.ReadAtLeast`.
    * **Writers**: each `Write` takes as many bytes as it likes and may then fail.
      `writeAll` repeats `Write` until everything is taken.
    * **Frame codecs**: a way to write one frame and to receive one.  What is
      received from a stream of frames does not depend on how the reads are split
      (`FrameCodec.recvAll_of_eq`).
-/

namespace Go

/-! ## Readers -/

/-- What an `io.Reader` still has to deliver. -/
structure Reader where
  pieces : List Bytes
  nonempty : ∀ p ∈ pieces, p ≠ []

namespace Reader

/-- The bytes that are still to be read. -/
def rest (r : Reader) : Bytes := r.pieces.flatten

/-- A reader that is at its end. -/
def eof : Reader := ⟨[], by simp⟩

/-- The reader that delivers the given pieces, without the empty ones. -/
def ofPieces (ps : List Bytes) : Reader :=
  ⟨ps.filter (· ≠ []), by simp⟩

theorem rest_ofPieces (ps : List Bytes) : (ofPieces ps).rest = ps.flatten := by
  show (ps.filter (· ≠ [])).flatten = ps.flatten
  induction ps with
  | nil => rfl
  | cons p ps ih =>
    by_cases hp : p = []
    · simpa [hp] using ih
    · simpa [hp] using ih

/-- `Read` with a buffer of `n` bytes: at most `n` bytes of the first piece, and an
    error (`none`) where nothing is left. -/
def read (r : Reader) (n : Nat) : Option Bytes × Reader :=
  match r with
  | ⟨[], _⟩ => (none, eof)
  | ⟨p :: ps, h⟩ =>
    if hp : p.drop n = [] then
      (some (p.take n), ⟨ps, fun q hq => h q (List.mem_cons_of_mem _ hq)⟩)
    else
      (some (p.take n), ⟨p.drop n :: ps, by
        intro q hq
        rcases List.mem_cons.mp hq with rfl | hq
        · exact hp
        · exact h q (List.mem_cons_of_mem _ hq)⟩)

/-- What a `Read` can do: fail at the end of the stream, or take some of the next bytes. -/
theorem read_cases (r : Reader) (n : Nat) :
    (r.rest = [] ∧ r.read n = (none, eof)) ∨
    ∃ bs r', r.read n = (some bs, r') ∧ r.rest = bs ++ r'.rest ∧ bs.length ≤ n ∧
      (0 < n → bs ≠ []) := by
  match r with
  | ⟨[], _⟩ => exact .inl ⟨rfl, rfl⟩
  | ⟨p :: ps, h⟩ =>
    right
    have hne : 0 < n → p.take n ≠ [] := by
      intro hn htake
      rcases List.take_eq_nil_iff.mp htake with h0 | hp
      · omega
      · exact h p List.mem_cons_self hp
    by_cases hp : p.drop n = []
    · refine ⟨p.take n, ⟨ps, fun q hq => h q (List.mem_cons_of_mem _ hq)⟩, by simp [read, hp], ?_,
        List.length_take_le n p, hne⟩
      -- the piece ends inside the buffer
      have htake : p.take n = p := List.take_of_length_le (List.drop_eq_nil_iff.mp hp)
      simp [rest, htake]
    · refine ⟨p.take n, _, by simp only [read, hp, dite_false]; rfl, ?_, List.length_take_le n p, hne⟩
      show p ++ ps.flatten = p.take n ++ (p.drop n ++ ps.flatten)
      rw [← List.append_assoc, List.take_append_drop]

/-- A one-byte `Read`. -/
theorem read_one {r : Reader} {b : UInt8} {t : Bytes} (h : r.rest = b :: t) :
    ∃ r', r.read 1 = (some [b], r') ∧ r'.rest = t := by
  rcases r.read_cases 1 with ⟨hnil, _⟩ | ⟨bs, r', hread, hrest, hlen, hne⟩
  · simp [hnil] at h
  · match bs with
    | [] => exact absurd rfl (hne (by omega))
    | [c] =>
      rw [hrest] at h
      obtain ⟨rfl, ht⟩ := List.cons.inj h
      exact ⟨r', hread, ht⟩
    | _ :: _ :: _ => simp at hlen

theorem read_eof {r : Reader} (h : r.rest = []) (n : Nat) : r.read n = (none, eof) := by
  match r with
  | ⟨[], _⟩ => rfl
  | ⟨p :: ps, hne⟩ =>
    have hp : p = [] := (List.append_eq_nil_iff.mp h).1
    exact absurd hp (hne p List.mem_cons_self)

/-! ## `io.ReadFull` -/

/-- The loop of `io.ReadFull`, for `n` more bytes.  Every `Read` returns at least one
    byte, so `n` rounds are enough. -/
def readLoop : Nat → Nat → Reader → Option Bytes × Reader
  | _, 0, r => (some [], r)
  | 0, _ + 1, r => (none, r)
  | rounds + 1, n + 1, r =>
    match r.read (n + 1) with
    | (none, r') => (none, r')
    | (some bs, r') =>
      match readLoop rounds (n + 1 - bs.length) r' with
      | (none, r'') => (none, r'')
      | (some bs', r'') => (some (bs ++ bs'), r'')

/-- `io.ReadFull` with a buffer of `n` bytes. -/
def readFull (r : Reader) (n : Nat) : Option Bytes × Reader := readLoop n n r

theorem readLoop_of_append (a b : Bytes) :
    ∀ (rounds : Nat) (r : Reader), a.length ≤ rounds → r.rest = a ++ b →
      ∃ r', readLoop rounds a.length r = (some a, r') ∧ r'.rest = b := by
  intro rounds
  induction rounds generalizing a with
  | zero =>
    intro r ha hr
    have hnil : a = [] := List.length_eq_zero_iff.mp (by omega)
    subst hnil
    exact ⟨r, rfl, hr⟩
  | succ rounds ih =>
    intro r ha hr
    match a with
    | [] => exact ⟨r, rfl, hr⟩
    | x :: xs =>
      rcases r.read_cases (xs.length + 1) with ⟨hnil, _⟩ | ⟨bs, r', hread, hrest, hlen, hne⟩
      · simp [hnil] at hr
      · -- the bytes of this `Read` are the first ones of `a`
        obtain ⟨c, hc⟩ : bs <+: x :: xs :=
          List.prefix_of_prefix_length_le ⟨r'.rest, hrest.symm⟩ ⟨b, hr.symm⟩ (by simpa using hlen)
        have hpos : 0 < bs.length := List.length_pos_iff.mpr (hne (by omega))
        have hclen : bs.length + c.length = xs.length + 1 := by
          rw [← List.length_append, hc, List.length_cons]
        have hr' : r'.rest = c ++ b := by
          apply (List.append_right_inj bs).mp
          rw [← hrest, hr, ← hc, List.append_assoc]
        obtain ⟨r'', hloop, hrest''⟩ := ih c r' (by simp at ha; omega) hr'
        refine ⟨r'', ?_, hrest''⟩
        have hsub : xs.length + 1 - bs.length = c.length := by omega
        simp only [List.length_cons, readLoop, hread, hsub, hloop, hc]

/-- **`ReadFull` gets the next `n` bytes** wherever the reads are split. -/
theorem readFull_of_append {r : Reader} {a b : Bytes} (h : r.rest = a ++ b) :
    ∃ r', r.readFull a.length = (some a, r') ∧ r'.rest = b :=
  readLoop_of_append a b a.length r le_rfl h

theorem readLoop_of_short (n : Nat) :
    ∀ (rounds : Nat) (r : Reader), n ≤ rounds → r.rest.length < n →
      ∃ r', readLoop rounds n r = (none, r') ∧ r'.rest = [] := by
  intro rounds
  induction rounds generalizing n with
  | zero =>
    intro r hn hr
    omega
  | succ rounds ih =>
    intro r hn hr
    match n with
    | 0 => omega
    | n + 1 =>
      rcases r.read_cases (n + 1) with ⟨_, hread⟩ | ⟨bs, r', hread, hrest, hlen, hne⟩
      · exact ⟨eof, by simp [readLoop, hread], rfl⟩
      · have hpos : 0 < bs.length := List.length_pos_iff.mpr (hne (by omega))
        rw [hrest, List.length_append] at hr
        obtain ⟨r'', hloop, hrest''⟩ := ih (n + 1 - bs.length) r' (by omega) (by omega)
        exact ⟨r'', by simp only [readLoop, hread, hloop], hrest''⟩

/-- `ReadFull` fails where too few bytes are left, and has then read all of them. -/
theorem readFull_of_short {r : Reader} {n : Nat} (h : r.rest.length < n) :
    ∃ r', r.readFull n = (none, r') ∧ r'.rest = [] :=
  readLoop_of_short n n r le_rfl h

/-- `ReadFull` where the stream ends before the `n` bytes, and where it does not. -/
theorem readFull_cases (r : Reader) (n : Nat) :
    (r.rest.length < n ∧ ∃ r', r.readFull n = (none, r') ∧ r'.rest = []) ∨
    ∃ bs r', r.readFull n = (some bs, r') ∧ bs.length = n ∧ r.rest = bs ++ r'.rest := by
  rcases Nat.lt_or_ge r.rest.length n with hlt | hge
  · exact .inl ⟨hlt, readFull_of_short hlt⟩
  · have hlen : (r.rest.take n).length = n := List.length_take_of_le hge
    obtain ⟨r', hr', hrest⟩ :=
      readFull_of_append (r := r) (List.take_append_drop n r.rest).symm
    rw [hlen] at hr'
    exact .inr ⟨_, r', hr', hlen, by rw [hrest, List.take_append_drop]⟩

/-! ## `io.ReadAtLeast` -/

/-- The loop of `io.ReadAtLeast`: at least `least` more bytes, with room for `room`.  Every
    `Read` returns at least one byte, so `least` rounds are enough. -/
def readAtLeastLoop : Nat → Nat → Nat → Reader → Option Bytes × Reader
  | _, _, 0, r => (some [], r)
  | 0, _, _ + 1, r => (none, r)
  | rounds + 1, room, least + 1, r =>
    match r.read room with
    | (none, r') => (none, r')
    | (some bs, r') =>
      match readAtLeastLoop rounds (room - bs.length) (least + 1 - bs.length) r' with
      | (none, r'') => (none, r'')
      | (some bs', r'') => (some (bs ++ bs'), r'')

/-- `io.ReadAtLeast` with a buffer of `size` bytes. -/
def readAtLeast (r : Reader) (size least : Nat) : Option Bytes × Reader :=
  if size < least then (none, r) else readAtLeastLoop least size least r

theorem readAtLeastLoop_cases (rounds : Nat) :
    ∀ (room least : Nat) (r : Reader), least ≤ rounds → least ≤ room →
      (r.rest.length < least ∧ ∃ r', readAtLeastLoop rounds room least r = (none, r')) ∨
      ∃ bs r', readAtLeastLoop rounds room least r = (some bs, r') ∧ least ≤ bs.length ∧
        bs.length ≤ room ∧ r.rest = bs ++ r'.rest := by
  induction rounds with
  | zero =>
    intro room least r hrounds _
    obtain rfl : least = 0 := by omega
    exact .inr ⟨[], r, rfl, le_rfl, Nat.zero_le _, rfl⟩
  | succ rounds ih =>
    intro room least r hrounds hroom
    match least with
    | 0 => exact .inr ⟨[], r, rfl, le_rfl, Nat.zero_le _, rfl⟩
    | least + 1 =>
      rcases r.read_cases room with ⟨hnil, hread⟩ | ⟨bs, r', hread, hrest, hlen, hne⟩
      · exact .inl ⟨by simp [hnil], eof, by simp only [readAtLeastLoop, hread]⟩
      · have hpos : 0 < bs.length := List.length_pos_iff.mpr (hne (by omega))
        rcases ih (room - bs.length) (least + 1 - bs.length) r' (by omega) (by omega) with
          ⟨hshort, r'', hloop⟩ | ⟨bs', r'', hloop, hleast, hmost, hrest'⟩
        · left
          refine ⟨?_, r'', by simp only [readAtLeastLoop, hread, hloop]⟩
          rw [hrest, List.length_append]
          omega
        · right
          refine ⟨bs ++ bs', r'', by simp only [readAtLeastLoop, hread, hloop], ?_, ?_, ?_⟩
          · rw [List.length_append]
            omega
          · rw [List.length_append]
            omega
          · rw [hrest, hrest', List.append_assoc]

/-- **What `ReadAtLeast` gets**: it fails where the stream is too short, and otherwise takes
    some first part of the stream with a length between the two bounds. -/
theorem readAtLeast_cases (r : Reader) (size least : Nat) (h : least ≤ size) :
    (r.rest.length < least ∧ ∃ r', r.readAtLeast size least = (none, r')) ∨
    ∃ bs r', r.readAtLeast size least = (some bs, r') ∧ least ≤ bs.length ∧
      bs.length ≤ size ∧ r.rest = bs ++ r'.rest := by
  rw [readAtLeast, if_neg (by omega)]
  exact readAtLeastLoop_cases least size least r le_rfl h

end Reader

/-! ## Sequencing -/

section Attempt

variable {α β ε : Type}

/-- Go's `if err != nil { return … }` after a read: go on with what was read, or return the
    error `e`. -/
def attempt (x : Option α × Reader) (e : ε) (next : α → Reader → Except ε β × Reader) :
    Except ε β × Reader :=
  match x with
  | (none, r) => (.error e, r)
  | (some a, r) => next a r

@[simp] theorem attempt_none (r : Reader) (e : ε) (next : α → Reader → Except ε β × Reader) :
    attempt (none, r) e next = (.error e, r) := rfl

@[simp] theorem attempt_some (a : α) (r : Reader) (e : ε)
    (next : α → Reader → Except ε β × Reader) : attempt (some a, r) e next = next a r := rfl

end Attempt

/-! ## Writers -/

/-- The receiving end of a byte stream: what was taken so far, and how the next `Write`
    calls end, each with the number of bytes it takes and whether it fails. -/
structure Writer where
  sent : Bytes
  answers : List (Nat × Bool)

namespace Writer

/-- Repeat `Write` until all the data is taken; `false` is an error. -/
def writeLoop : List (Nat × Bool) → Bytes → Bytes → Bool × Writer
  | answers, sent, [] => (true, ⟨sent, answers⟩)
  | [], sent, data => (true, ⟨sent ++ data, []⟩)
  | (n, failed) :: answers, sent, data =>
    if failed then (false, ⟨sent ++ data.take n, answers⟩)
    else writeLoop answers (sent ++ data.take n) (data.drop n)

/-- Write all of the data. -/
def writeAll (w : Writer) (data : Bytes) : Bool × Writer := writeLoop w.answers w.sent data

theorem writeLoop_cases (answers : List (Nat × Bool)) (sent data : Bytes) :
    (∃ answers', writeLoop answers sent data = (true, ⟨sent ++ data, answers'⟩)) ∨
    ∃ part answers', part <+: data ∧
      writeLoop answers sent data = (false, ⟨sent ++ part, answers'⟩) := by
  induction answers generalizing sent data with
  | nil =>
    match data with
    | [] => exact .inl ⟨[], by simp [writeLoop]⟩
    | b :: data => exact .inl ⟨[], rfl⟩
  | cons answer answers ih =>
    obtain ⟨n, failed⟩ := answer
    match data with
    | [] => exact .inl ⟨_, by simp [writeLoop]; rfl⟩
    | b :: data =>
      cases failed with
      | true =>
        exact .inr ⟨(b :: data).take n, answers, List.take_prefix n _, by simp [writeLoop]⟩
      | false =>
        rcases ih (sent ++ (b :: data).take n) ((b :: data).drop n) with
          ⟨answers', h⟩ | ⟨part, answers', hpart, h⟩
        · left
          refine ⟨answers', ?_⟩
          rw [List.append_assoc, List.take_append_drop] at h
          simpa [writeLoop] using h
        · right
          refine ⟨(b :: data).take n ++ part, answers', ?_, ?_⟩
          · obtain ⟨t, ht⟩ := hpart
            exact ⟨t, by rw [List.append_assoc, ht, List.take_append_drop]⟩
          · simpa [writeLoop] using h

/-- **What `writeAll` writes**: all of the data, or on an error some first part of it. -/
theorem writeAll_cases (w : Writer) (data : Bytes) :
    (∃ w', w.writeAll data = (true, w') ∧ w'.sent = w.sent ++ data) ∨
    ∃ w' part, w.writeAll data = (false, w') ∧ part <+: data ∧ w'.sent = w.sent ++ part := by
  rcases writeLoop_cases w.answers w.sent data with ⟨answers, h⟩ | ⟨part, answers, hpart, h⟩
  · exact .inl ⟨_, h, rfl⟩
  · exact .inr ⟨_, part, h, hpart, rfl⟩

end Writer

/-! ## Frame codecs -/

/-- One frame of a stream: how it is written, how it is received, and that receiving
    undoes writing for the frames that are `valid`. -/
structure FrameCodec (α : Type) where
  enc : α → Bytes
  recv : Reader → Option α × Reader
  valid : α → Prop
  enc_ne_nil : ∀ a, valid a → enc a ≠ []
  recv_eof : ∀ r, r.rest = [] → (recv r).1 = none
  recv_enc : ∀ r a t, valid a → r.rest = enc a ++ t → ∃ r', recv r = (some a, r') ∧ r'.rest = t
  recv_short : ∀ r a, valid a → r.rest <+: enc a → r.rest ≠ enc a → (recv r).1 = none

namespace FrameCodec

variable {α : Type} (codec : FrameCodec α)

/-- Receive frames until the first error, at most the given number. -/
def recvLoop : Nat → Reader → List α
  | 0, _ => []
  | rounds + 1, r =>
    match codec.recv r with
    | (none, _) => []
    | (some a, r') => a :: recvLoop rounds r'

/-- Receive frames until the first error.  Every frame has at least one byte, so the
    number of rounds is enough. -/
def recvAll (r : Reader) : List α := codec.recvLoop r.rest.length r

/-- One round that gets a frame. -/
theorem recvLoop_of_append {rounds : Nat} {r : Reader} {a : α} {t : Bytes} (ha : codec.valid a)
    (hr : r.rest = codec.enc a ++ t) (hrounds : r.rest.length ≤ rounds) :
    ∃ rounds' r', codec.recvLoop rounds r = a :: codec.recvLoop rounds' r' ∧
      r'.rest = t ∧ t.length ≤ rounds' := by
  have hpos : 0 < (codec.enc a).length := List.length_pos_iff.mpr (codec.enc_ne_nil a ha)
  rw [hr, List.length_append] at hrounds
  obtain ⟨r', hrecv, hrest⟩ := codec.recv_enc r a t ha hr
  match rounds with
  | 0 => omega
  | rounds + 1 => exact ⟨rounds, r', by simp [recvLoop, hrecv], hrest, by omega⟩

/-- A round that gets no frame is the last one. -/
theorem recvLoop_of_none {r : Reader} (h : (codec.recv r).1 = none) (rounds : Nat) :
    codec.recvLoop rounds r = [] := by
  cases rounds with
  | zero => rfl
  | succ rounds =>
    obtain ⟨r', hr⟩ : ∃ r', codec.recv r = (none, r') := ⟨_, Prod.ext h rfl⟩
    simp [recvLoop, hr]

theorem recvLoop_complete (frames : List α) (hv : ∀ a ∈ frames, codec.valid a) :
    ∀ (rounds : Nat) (r : Reader), r.rest.length ≤ rounds → frames.flatMap codec.enc <+: r.rest →
      frames <+: codec.recvLoop rounds r := by
  induction frames with
  | nil =>
    intro rounds r _ _
    exact List.nil_prefix
  | cons a frames ih =>
    intro rounds r hrounds hr
    obtain ⟨t, ht⟩ := hr
    rw [List.flatMap_cons, List.append_assoc] at ht
    obtain ⟨rounds', r', hloop, hrest, hlen⟩ :=
      codec.recvLoop_of_append (hv a List.mem_cons_self) ht.symm hrounds
    rw [hloop]
    apply (List.prefix_cons_inj a).mpr
    exact ih (fun b hb => hv b (List.mem_cons_of_mem _ hb)) rounds' r' (hrest ▸ hlen)
      ⟨t, hrest.symm⟩

/-- **Every frame that arrived completely is received**, whatever follows it and wherever
    the reads are split. -/
theorem recvAll_complete {frames : List α} (hv : ∀ a ∈ frames, codec.valid a) {r : Reader}
    (hr : frames.flatMap codec.enc <+: r.rest) : frames <+: codec.recvAll r :=
  codec.recvLoop_complete frames hv _ r le_rfl hr

theorem recvLoop_sound (frames : List α) (hv : ∀ a ∈ frames, codec.valid a) :
    ∀ (rounds : Nat) (r : Reader), r.rest.length ≤ rounds → r.rest <+: frames.flatMap codec.enc →
      codec.recvLoop rounds r <+: frames := by
  induction frames with
  | nil =>
    intro rounds r _ hr
    have hnil : r.rest = [] := by simpa using hr
    rw [codec.recvLoop_of_none (codec.recv_eof r hnil)]
  | cons a frames ih =>
    intro rounds r hrounds hr
    have ha := hv a List.mem_cons_self
    rw [List.flatMap_cons] at hr
    by_cases hfull : codec.enc a <+: r.rest
    · obtain ⟨t, ht⟩ := hfull
      rw [← ht] at hr
      have htpre := (List.prefix_append_right_inj _).mp hr
      obtain ⟨rounds', r', hloop, hrest, hlen⟩ := codec.recvLoop_of_append ha ht.symm hrounds
      rw [hloop]
      apply (List.prefix_cons_inj a).mpr
      exact ih (fun b hb => hv b (List.mem_cons_of_mem _ hb)) rounds' r' (hrest ▸ hlen)
        (hrest ▸ htpre)
    · -- the stream ends inside the first frame
      have hshort : r.rest <+: codec.enc a := by
        rcases List.prefix_or_prefix_of_prefix hr (List.prefix_append (codec.enc a) _) with h | h
        · exact h
        · exact absurd h hfull
      have hne : r.rest ≠ codec.enc a := fun h => hfull (h ▸ List.prefix_refl _)
      rw [codec.recvLoop_of_none (codec.recv_short r a ha hshort hne)]
      exact List.nil_prefix

/-- **Nothing but the frames is received** from a stream that ends among them. -/
theorem recvAll_sound {frames : List α} (hv : ∀ a ∈ frames, codec.valid a) {r : Reader}
    (hr : r.rest <+: frames.flatMap codec.enc) : codec.recvAll r <+: frames :=
  codec.recvLoop_sound frames hv _ r le_rfl hr

/-- A stream that carries all of the frames and nothing else. -/
theorem recvAll_of_eq {frames : List α} (hv : ∀ a ∈ frames, codec.valid a) {r : Reader}
    (hr : r.rest = frames.flatMap codec.enc) : codec.recvAll r = frames := by
  have hsub := codec.recvAll_sound hv (r := r) (by rw [hr])
  have hall := codec.recvAll_complete hv (r := r) (by rw [hr])
  exact hsub.eq_of_length_le hall.length_le

end FrameCodec

end Go
