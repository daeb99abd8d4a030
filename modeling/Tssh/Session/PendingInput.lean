import Tssh.Framework.BigEndian
import Tssh.Framework.Pattern
import Tssh.Framework.System

/-! # Pending Input

    When a client reconnects, input that it sent before should not reach the program any
    more.  The server sets a fresh **discard marker** on every session
    (`enablePendingInputDiscard` in `tsshd/session.go`) and tells it to the client, which
    sends it in front of its next input.  Until the marker arrives `forwardInput` collects
    the input in `discardedBuffer`; then it reports what came before the marker to the client
    (`DiscardedInput`) and writes what came after it to the program.

    Here is the input side of one session, first as the functions of the source and then as
    all interleavings of attaches, detaches, reconnects and input.  Input bytes carry a tag that
    the code does not see: who sent them, and when.

    * `discarded_input_own`: a `DiscardedInput` message contains only bytes that this client
      sent since the current marker was set, in every run in which no input of the session is
      on the way whenever a marker is set.  Detaching resets the marker but not the buffer, and
      `forwardInput` may hold input of a client that is gone.
-/

open Go LTS

namespace Pending

/-! ## Markers -/

/-- A discard marker.  The code holds a pointer to its bytes, and compares pointers; `no`
    stands for the pointer. -/
structure Marker where
  no : Nat
  index : UInt32
  deriving DecidableEq, Repr

def Marker.bytes (m : Marker) : Bytes := [0xFF, 0xC0, 0xC1, 0xFF] ++ putUint32 m.index

@[simp] theorem Marker.length_bytes (m : Marker) : m.bytes.length = 8 := by
  simp [Marker.bytes]

/-- The loop of `getNextDiscardMarkerIndex` from byte `i - 1` down: a byte `;` or `\r` is
    counted up and the bytes after it start at zero. -/
def skipBytes (index : UInt32) : Nat → UInt32
  | 0 => index
  | i + 1 =>
    let shift := UInt32.ofNat (i * 8)
    let b := (index >>> shift) &&& 0xFF
    -- skip ; and \r for tmux
    if b = 0x3B ∨ b = 0x0D then ((index >>> shift) + 1) <<< shift else skipBytes index i

def getNextDiscardMarkerIndex (current : UInt32) : UInt32 := skipBytes (current + 1) 4

example : getNextDiscardMarkerIndex 0x0C = 0x0E ∧
    getNextDiscardMarkerIndex 0x0CFFFF = 0x0E0000 := by decide +kernel

/-! ## The input side of a session -/

/-- An input byte with its tag. -/
structure Cell (τ : Type) where
  byte : UInt8
  tag : τ
  deriving DecidableEq, Repr

variable {τ : Type}

/-- The fields of `sessionContext` that `forwardInput` works on.  `stdin` is what has been
    written to the program. -/
structure Input (τ : Type) where
  discardMarker : Option Marker
  discardedBuffer : List (Cell τ)
  stdin : List (Cell τ)
  deriving Repr

/-- `writeAll(c.stdin, buf)`; the program takes `accepts` bytes before the write fails. -/
def Input.write (c : Input τ) (buf : List (Cell τ)) (accepts : Nat) : Input τ × Bool :=
  ({ c with stdin := c.stdin ++ buf.take accepts }, decide (buf.length ≤ accepts))

/-- `discardPendingInput`: the new state, the input that is reported as discarded, and
    whether there was no error. -/
def discardPendingInput (c : Input τ) (buf : List (Cell τ)) (marker : Marker) (accepts : Nat) :
    Input τ × Option (List (Cell τ)) × Bool :=
  let buffer := c.discardedBuffer ++ buf
  match Pattern.indexOf marker.bytes (buffer.map (·.byte)) with
  | none => ({ c with discardedBuffer := buffer }, none, true)
  | some pos =>
    let remaining := buffer.drop (pos + marker.bytes.length)
    if remaining.length ≤ accepts then
      ({ discardMarker := if c.discardMarker = some marker then none else c.discardMarker
         discardedBuffer := []
         stdin := c.stdin ++ remaining },
       if 0 < pos then some (buffer.take pos) else none, true)
    else
      ({ c with discardedBuffer := buffer, stdin := c.stdin ++ remaining.take accepts },
       none, false)

/-- One round of `forwardInput` for input of an attached session. -/
def forwardInput (c : Input τ) (buf : List (Cell τ)) (accepts : Nat) :
    Input τ × Option (List (Cell τ)) × Bool :=
  match c.discardMarker with
  | some marker => discardPendingInput c buf marker accepts
  | none => ((c.write buf accepts).1, none, (c.write buf accepts).2)

/-- What a round does: the input is written, kept, or the marker is found and the input
    around it is reported and written. -/
theorem forwardInput_cases (c : Input τ) (buf : List (Cell τ)) (accepts : Nat) :
    (c.discardMarker = none ∧ ∃ ok, forwardInput c buf accepts =
      ({ c with stdin := c.stdin ++ buf.take accepts }, none, ok)) ∨
    ∃ marker, c.discardMarker = some marker ∧
      ((Pattern.indexOf marker.bytes ((c.discardedBuffer ++ buf).map (·.byte)) = none ∧
        forwardInput c buf accepts =
          ({ c with discardedBuffer := c.discardedBuffer ++ buf }, none, true)) ∨
      ∃ pos, Pattern.indexOf marker.bytes ((c.discardedBuffer ++ buf).map (·.byte)) = some pos ∧
        ((∃ n, forwardInput c buf accepts =
          ({ c with discardedBuffer := c.discardedBuffer ++ buf
                    stdin := c.stdin ++
                      ((c.discardedBuffer ++ buf).drop (pos + marker.bytes.length)).take n },
            none, false)) ∨
         forwardInput c buf accepts =
          ({ discardMarker := none
             discardedBuffer := []
             stdin := c.stdin ++ (c.discardedBuffer ++ buf).drop (pos + marker.bytes.length) },
            if 0 < pos then some ((c.discardedBuffer ++ buf).take pos) else none, true))) := by
  unfold forwardInput
  cases hm : c.discardMarker with
  | none =>
    left
    exact ⟨rfl, decide (buf.length ≤ accepts), by simp [Input.write, hm]⟩
  | some marker =>
    refine .inr ⟨marker, rfl, ?_⟩
    simp only [discardPendingInput, hm, if_true]
    cases hpos : Pattern.indexOf marker.bytes ((c.discardedBuffer ++ buf).map (·.byte)) with
    | none => exact .inl ⟨rfl, rfl⟩
    | some pos =>
      refine .inr ⟨pos, rfl, ?_⟩
      simp only
      split
      · exact .inr rfl
      · exact .inl ⟨accepts, rfl⟩

/-- With a program that accepts all of it, a round of `forwardInput` goes through. -/
theorem forwardInput_accepts {c : Input τ} {buf : List (Cell τ)} {accepts : Nat}
    (h : (c.discardedBuffer ++ buf).length ≤ accepts) :
    (forwardInput c buf accepts).2.2 = true := by
  have hbuf : buf.length ≤ accepts := by
    rw [List.length_append] at h
    omega
  unfold forwardInput
  cases c.discardMarker with
  | none => simpa [Input.write] using hbuf
  | some marker =>
    simp only [discardPendingInput]
    split
    · rfl
    · next pos _ =>
      have hrest : ((c.discardedBuffer ++ buf).drop (pos + marker.bytes.length)).length ≤
          accepts := by
        rw [List.length_drop]
        omega
      rw [if_pos hrest]

/-- The buffer holds only what was in it and what was read. -/
theorem forwardInput_buffer_sublist (c : Input τ) (buf : List (Cell τ)) (accepts : Nat) :
    (forwardInput c buf accepts).1.discardedBuffer.Sublist (c.discardedBuffer ++ buf) := by
  rcases forwardInput_cases c buf accepts with
    ⟨_, _, hf⟩ | ⟨m, _, ⟨_, hf⟩ | ⟨pos, _, ⟨n, hf⟩ | hf⟩⟩
  · rw [hf]
    exact List.sublist_append_left ..
  · rw [hf]
  · rw [hf]
  · rw [hf]
    exact List.nil_sublist _

/-- What `discardPendingInput` does: the input is kept, or the marker is found, and what was in
    front of it is reported. -/
theorem discardPendingInput_cases (c : Input τ) (buf : List (Cell τ)) (marker : Marker)
    (accepts : Nat) :
    (∃ stdin ok, discardPendingInput c buf marker accepts =
      ({ c with discardedBuffer := c.discardedBuffer ++ buf, stdin := stdin }, none, ok)) ∨
    ∃ stdin pos, discardPendingInput c buf marker accepts =
      (⟨if c.discardMarker = some marker then none else c.discardMarker, [], stdin⟩,
        if 0 < pos then some ((c.discardedBuffer ++ buf).take pos) else none, true) := by
  unfold discardPendingInput
  dsimp only
  split
  · exact .inl ⟨c.stdin, true, rfl⟩
  · next pos _ =>
    split
    · exact .inr ⟨_, pos, rfl⟩
    · exact .inl ⟨_, false, rfl⟩

/-! ## One session and its clients

    The clients use the session one after another, each over a stream of its own.
    `forwardInput` takes no lock: its read, its loads of the server pointer and of the marker,
    and what it does with the input are steps of their own, and so are the stores of
    `attachSession` and `detachAllSessions`, which hold `attachMutex`.  A read returns bytes of
    the stream that `ioStream` has then (`Tssh.Session.ReplaceableStream`). -/

/-- Who sent a byte, and how many markers the session had been given by then. -/
structure Tag where
  client : Nat
  markers : Nat
  deriving DecidableEq, Repr

/-- A `DiscardedInput` message to a client, sent when this marker was found. -/
structure Message where
  client : Nat
  marker : Nat
  input : List (Cell Tag)
  deriving Repr

/-- The stream of a client, with what it has sent and the server has not read. -/
structure Stream where
  client : Nat
  unread : List (Cell Tag)
  deriving Repr

/-- Where `forwardInput` is. -/
inductive Reader where
  | idle
  /-- It has read. -/
  | got (buf : List (Cell Tag))
  /-- It has found the session attached to the server of a client. -/
  | loaded (buf : List (Cell Tag)) (client : Nat)
  /-- It has loaded the marker. -/
  | marked (buf : List (Cell Tag)) (client : Nat) (marker : Option Marker)
  | stopped
  deriving DecidableEq, Repr

/-- The input that `forwardInput` has in its hands. -/
def Reader.buf : Reader → List (Cell Tag)
  | .got buf | .loaded buf _ | .marked buf _ _ => buf
  | _ => []

def Reader.after (ok : Bool) : Reader := if ok then .idle else .stopped

@[simp] theorem Reader.buf_after (ok : Bool) : (Reader.after ok).buf = [] := by
  cases ok <;> rfl

/-- What the holder of `attachMutex` has still to store: `detachAllSessions` the marker and the
    server, `attachSession` the stream. -/
inductive Holder where
  | none
  | unmark
  | unserve
  | connect
  deriving DecidableEq, Repr

/-- The session.  `stream` is the one that `ioStream` has or is about to get, `index` and
    `count` are the current marker index and the number of markers so far, `sent` is history. -/
structure State where
  server : Option Nat
  stream : Option Stream
  holder : Holder
  input : Input Tag
  reader : Reader
  index : UInt32
  count : Nat
  sent : List Message
  deriving Repr

def start : State where
  server := none
  stream := none
  holder := .none
  input := ⟨none, [], []⟩
  reader := .idle
  index := 0
  count := 0
  sent := []

/-- `reconnect` is the return of any client whose server does not keep pending input; it marks
    all sessions.  `send` is input of the client at the other end of the stream. -/
inductive Label where
  | attach (client : Nat)
  | connect
  | detach
  | unmark
  | unserve
  | reconnect
  | send (buf : Bytes)
  | read (n : Nat)
  | loadServer
  | loadMarker
  | forward (accepts : Nat)
  deriving DecidableEq, Repr

/-- The messages that a round of `forwardInput` sends. -/
def report (client : Nat) (marker : Marker) : Option (List (Cell Tag)) → List Message
  | none => []
  | some cells => [⟨client, marker.no, cells⟩]

def next (s : State) : Label → Option State
  -- `attachSession` stores the server before the stream, which the client may use by then
  | .attach k =>
    enabledIf (s.holder = .none ∧ s.server = none)
      { s with server := some k, stream := some ⟨k, []⟩, holder := .connect }
  | .connect => enabledIf (s.holder = .connect) { s with holder := .none }
  -- `detachAllSessions`; the buffer stays as it is
  | .detach => enabledIf (s.holder = .none) { s with stream := none, holder := .unmark }
  | .unmark =>
    enabledIf (s.holder = .unmark)
      { s with input := { s.input with discardMarker := none }, holder := .unserve }
  | .unserve => enabledIf (s.holder = .unserve) { s with server := none, holder := .none }
  | .reconnect =>
    let index := getNextDiscardMarkerIndex s.index
    some { s with index := index, count := s.count + 1
                  input := { s.input with discardMarker := some ⟨s.count, index⟩ } }
  | .send buf =>
    s.stream.map fun st =>
      let cells := buf.map fun b => ⟨b, st.client, s.count⟩
      { s with stream := some { st with unread := st.unread ++ cells } }
  -- `forwardInput`
  | .read n =>
    match s.stream with
    | none => none
    | some st =>
      enabledIf (s.reader = .idle ∧ s.holder ≠ .connect ∧ 0 < n ∧ st.unread ≠ [])
        { s with stream := some { st with unread := st.unread.drop n }
                 reader := .got (st.unread.take n) }
  | .loadServer =>
    match s.reader, s.server with
    | .got _, none => some { s with reader := .idle }
    | .got buf, some k => some { s with reader := .loaded buf k }
    | _, _ => none
  | .loadMarker =>
    match s.reader with
    | .loaded buf k => some { s with reader := .marked buf k s.input.discardMarker }
    | _ => none
  | .forward accepts =>
    match s.reader with
    | .marked buf _ none =>
      let r := s.input.write buf accepts
      some { s with input := r.1, reader := .after r.2 }
    | .marked buf k (some marker) =>
      let r := discardPendingInput s.input buf marker accepts
      some { s with input := r.1, reader := .after r.2.2
                    sent := s.sent ++ report k marker r.2.1 }
    | _ => none

def session : System State Label := .ofStep start next

/-! ## Whose bytes are reported -/

/-- The message contains only bytes that its client sent since its marker was set. -/
def Message.Own (msg : Message) : Prop :=
  ∀ c ∈ msg.input, c.tag.client = msg.client ∧ msg.marker < c.tag.markers

def State.unread (s : State) : List (Cell Tag) :=
  match s.stream with
  | none => []
  | some st => st.unread

/-- The input that `forwardInput` has read and not dealt with, and with it what it has not read. -/
def State.held (s : State) : List (Cell Tag) := s.input.discardedBuffer ++ s.reader.buf

def State.way (s : State) : List (Cell Tag) := s.held ++ s.unread

/-- A marker is set only while no input of the session is on the way. -/
def MarksQuiet (s : State) : Label → Prop
  | .reconnect => s.way = []
  | _ => True

instance (s : State) (l : Label) : Decidable (MarksQuiet s l) := by
  unfold MarksQuiet
  split <;> infer_instance

/-- What holds of the input on the way.  While a marker is set, what `forwardInput` holds is of
    the client that the session is attached to, and stays so: the pointer is stored only after
    the marker was reset. -/
structure Inv (s : State) : Prop where
  attached : ∀ st, s.stream = some st → s.server = some st.client ∧
    s.holder ≠ .unmark ∧ s.holder ≠ .unserve
  own : ∀ st, s.stream = some st → ∀ c ∈ st.unread, c.tag.client = st.client
  numbered : ∀ m, s.input.discardMarker = some m → m.no < s.count
  since : ∀ m, s.input.discardMarker = some m → ∀ c ∈ s.way, m.no < c.tag.markers
  held : ∀ m, s.input.discardMarker = some m → ∀ c ∈ s.held,
    s.server = some c.tag.client ∧ s.holder ≠ .unserve
  busy : s.reader.buf = [] → s.reader = .idle ∨ s.reader = .stopped
  loaded : ∀ buf k, s.reader = .loaded buf k → s.input.discardMarker ≠ none → s.server = some k
  marked : ∀ buf k m, s.reader = .marked buf k (some m) →
    ∀ c ∈ s.held, c.tag.client = k ∧ m.no < c.tag.markers
  sent : ∀ msg ∈ s.sent, msg.Own

theorem start_inv : Inv start where
  attached := nofun
  own := nofun
  numbered := nofun
  since := nofun
  held := nofun
  busy := fun _ => .inl rfl
  loaded := nofun
  marked := nofun
  sent := nofun

namespace Inv

variable {s s' : State}

section

variable (h : Inv s)
include h

/-- A reader that holds nothing has loaded nothing. -/
theorem reader_of_held (hheld : s.held = []) : s.reader = .idle ∨ s.reader = .stopped :=
  h.busy (List.append_eq_nil_iff.mp hheld).2

/-- Nothing is held for a server that is not there, while a marker is set. -/
theorem held_nil {m : Marker} (hm : s.input.discardMarker = some m)
    (hgone : s.server = none ∨ s.holder = .unserve) : s.held = [] := by
  rw [List.eq_nil_iff_forall_not_mem]
  intro c hc
  obtain ⟨hserver, hholder⟩ := h.held m hm c hc
  rcases hgone with hgone | hgone
  · exact absurd (hgone.symm.trans hserver) (Option.some_ne_none _).symm
  · exact hholder hgone

/-- The reader is done with its input: what is kept in the buffer was held before. -/
theorem done {input : Input Tag} {ok : Bool} {sent : List Message}
    (hmarker : input.discardMarker = s.input.discardMarker ∨ input.discardMarker = none)
    (hbuffer : ∀ c ∈ input.discardedBuffer, c ∈ s.held) (hsent : ∀ msg ∈ sent, msg.Own) :
    Inv { s with input := input, reader := .after ok, sent := sent } := by
  have hmark : ∀ m, input.discardMarker = some m → s.input.discardMarker = some m := by
    intro m hm
    rcases hmarker with hsame | hnone
    · exact hsame.symm.trans hm
    · exact absurd (hnone.symm.trans hm) (Option.some_ne_none _).symm
  have hheld : ∀ c ∈ input.discardedBuffer ++ (Reader.after ok).buf, c ∈ s.held := by
    rw [Reader.buf_after, List.append_nil]
    exact hbuffer
  refine ⟨h.attached, h.own, fun m hm => h.numbered m (hmark m hm), ?_, ?_, ?_, ?_, ?_, hsent⟩
  · intro m hm c hc
    apply h.since m (hmark m hm) c
    rcases List.mem_append.mp hc with hc | hc
    · exact List.mem_append_left _ (hheld c hc)
    · exact List.mem_append_right _ hc
  · exact fun m hm c hc => h.held m (hmark m hm) c (hheld c hc)
  · intro _
    cases ok with
    | true => exact .inl rfl
    | false => exact .inr rfl
  · intro buf k hreader
    cases ok <;> cases hreader
  · intro buf k m hreader
    cases ok <;> cases hreader

/-- `attachSession` or `detachAllSessions` stores the server, with no input of the old one held. -/
theorem setServer {server : Option Nat} {stream : Option Stream} {holder : Holder}
    (hgone : s.server = none ∨ s.holder = .unserve)
    (hunread : ∀ st, stream = some st → st.unread = [] ∧ server = some st.client ∧
      holder = .connect) : Inv { s with server := server, stream := stream, holder := holder } := by
  have hnil : ∀ m, s.input.discardMarker = some m → s.held = [] := fun m hm => h.held_nil hm hgone
  refine ⟨?_, ?_, h.numbered, ?_, ?_, h.busy, ?_, h.marked, h.sent⟩
  · intro st hst
    obtain ⟨-, hserver, rfl⟩ := hunread st hst
    exact ⟨hserver, Holder.noConfusion, Holder.noConfusion⟩
  · intro st hst c hc
    rw [(hunread st hst).1] at hc
    cases hc
  · -- the new stream is empty
    intro m hm c hc
    rcases List.mem_append.mp hc with hc | hc
    · exact h.since m hm c (List.mem_append_left _ hc)
    · cases hstream : stream with
      | none =>
        rw [State.unread, hstream] at hc
        cases hc
      | some st =>
        rw [State.unread, hstream] at hc
        dsimp only at hc
        rw [(hunread st hstream).1] at hc
        cases hc
  · intro m hm c hc
    have hc : c ∈ s.held := hc
    rw [hnil m hm] at hc
    cases hc
  · intro buf k hreader hm
    have hreader : s.reader = .loaded buf k := hreader
    obtain ⟨m, hm⟩ := Option.ne_none_iff_exists'.mp hm
    rcases h.reader_of_held (hnil m hm) with hidle | hidle <;> cases hidle.symm.trans hreader

/-- The stream is taken away; what it held is lost. -/
theorem detach : Inv { s with stream := none, holder := .unmark } := by
  refine ⟨nofun, nofun, h.numbered, ?_, ?_, h.busy, h.loaded, h.marked, h.sent⟩
  · intro m hm c hc
    apply h.since m hm c
    rcases List.mem_append.mp hc with hc | hc
    · exact List.mem_append_left _ hc
    · cases hc
  · exact fun m hm c hc => ⟨(h.held m hm c hc).1, Holder.noConfusion⟩

/-- Without a marker nothing has to be known of the input. -/
theorem unmark (hholder : s.holder = .unmark) :
    Inv { s with input := { s.input with discardMarker := none }, holder := .unserve } := by
  refine ⟨?_, h.own, nofun, nofun, nofun, h.busy, fun _ _ _ hm => absurd rfl hm, h.marked, h.sent⟩
  intro st hst
  exact absurd hholder (h.attached st hst).2.1

/-- A marker is set, with nothing on the way. -/
theorem reconnect (hquiet : s.way = []) (index : UInt32) :
    Inv { s with index := index, count := s.count + 1
                 input := { s.input with discardMarker := some ⟨s.count, index⟩ } } := by
  have hheld : s.held = [] := (List.append_eq_nil_iff.mp hquiet).1
  have hnone : ∀ c, c ∉ s.way := fun c hc => by
    rw [hquiet] at hc
    cases hc
  refine ⟨h.attached, h.own, ?_, ?_, ?_, h.busy, ?_, h.marked, h.sent⟩
  · intro m hm
    cases hm
    exact Nat.lt_succ_self _
  · exact fun m _ c hc => absurd hc (hnone c)
  · exact fun m _ c hc => absurd (List.mem_append_left _ hc) (hnone c)
  · intro buf k hreader _
    have hreader : s.reader = .loaded buf k := hreader
    rcases h.reader_of_held hheld with hidle | hidle <;> cases hidle.symm.trans hreader

/-- Input is sent after every marker that was set so far. -/
theorem send {st : Stream} (hst : s.stream = some st) (buf : Bytes) :
    Inv { s with stream := some { st with
      unread := st.unread ++ buf.map fun b => ⟨b, st.client, s.count⟩ } } := by
  refine ⟨?_, ?_, h.numbered, ?_, h.held, h.busy, h.loaded, h.marked, h.sent⟩
  · intro st' hst'
    cases hst'
    exact h.attached st hst
  · intro st' hst' c hc
    cases hst'
    rcases List.mem_append.mp hc with hc | hc
    · exact h.own st hst c hc
    · obtain ⟨b, -, rfl⟩ := List.mem_map.mp hc
      rfl
  · intro m hm c hc
    rcases List.mem_append.mp hc with hc | hc
    · exact h.since m hm c (List.mem_append_left _ hc)
    · rcases List.mem_append.mp hc with hc | hc
      · apply h.since m hm c
        rw [State.way, State.unread, hst]
        exact List.mem_append_right _ hc
      · obtain ⟨b, -, rfl⟩ := List.mem_map.mp hc
        exact h.numbered m hm

/-- Input moves from the stream into the hands of the reader. -/
theorem read {st : Stream} (hst : s.stream = some st) (hidle : s.reader = .idle) {n : Nat}
    (hn : 0 < n) (hunread : st.unread ≠ []) :
    Inv { s with stream := some { st with unread := st.unread.drop n }
                 reader := .got (st.unread.take n) } := by
  have hway : s.way = s.input.discardedBuffer ++ st.unread := by
    simp [State.way, State.held, State.unread, hidle, hst, Reader.buf]
  refine ⟨?_, ?_, h.numbered, ?_, ?_, ?_, nofun, nofun, h.sent⟩
  · intro st' hst'
    cases hst'
    exact h.attached st hst
  · intro st' hst' c hc
    cases hst'
    exact h.own st hst c (List.mem_of_mem_drop hc)
  · intro m hm c hc
    apply h.since m hm c
    rw [hway, ← List.take_append_drop n st.unread, ← List.append_assoc]
    exact hc
  · intro m hm c hc
    rcases List.mem_append.mp hc with hc | hc
    · exact h.held m hm c (List.mem_append_left _ hc)
    · obtain ⟨hserver, -, hholder⟩ := h.attached st hst
      rw [h.own st hst c (List.mem_of_mem_take hc)]
      exact ⟨hserver, hholder⟩
  · intro hnil
    rcases List.take_eq_nil_iff.mp hnil with hzero | hnil
    · exact absurd hzero (Nat.ne_of_gt hn)
    · exact absurd hnil hunread

/-- The reader goes on with what it holds. -/
theorem setReader {reader : Reader} (hbuf : reader.buf = s.reader.buf)
    (hbusy : s.reader ≠ .idle ∧ s.reader ≠ .stopped)
    (hloaded : ∀ buf k, reader = .loaded buf k → s.server = some k)
    (hmarked : ∀ buf k m, reader = .marked buf k (some m) →
      s.input.discardMarker = some m ∧ s.server = some k) : Inv { s with reader := reader } := by
  have hheld : { s with reader := reader }.held = s.held := by simp only [State.held, hbuf]
  have hway : { s with reader := reader }.way = s.way := by
    rw [State.way, hheld]
    rfl
  refine ⟨h.attached, h.own, h.numbered, ?_, ?_, ?_, fun buf k hr _ => hloaded buf k hr, ?_, h.sent⟩
  · rw [hway]
    exact h.since
  · rw [hheld]
    exact h.held
  · intro hnil
    rcases h.busy (hbuf.symm.trans hnil) with hidle | hidle
    · exact absurd hidle hbusy.1
    · exact absurd hidle hbusy.2
  · rw [hheld]
    intro buf k m hreader c hc
    obtain ⟨hm, hk⟩ := hmarked buf k m hreader
    refine ⟨?_, h.since m hm c (List.mem_append_left _ hc)⟩
    exact Option.some.inj ((h.held m hm c hc).1.symm.trans hk)

/-- The marker is looked for, and what is in front of it is reported. -/
theorem discard {buf : List (Cell Tag)} {k : Nat} {m : Marker}
    (hreader : s.reader = .marked buf k (some m)) (accepts : Nat) :
    Inv { s with
      input := (discardPendingInput s.input buf m accepts).1
      reader := .after (discardPendingInput s.input buf m accepts).2.2
      sent := s.sent ++ report k m (discardPendingInput s.input buf m accepts).2.1 } := by
  have hheld : s.held = s.input.discardedBuffer ++ buf := by rw [State.held, hreader]; rfl
  rcases discardPendingInput_cases s.input buf m accepts with
    ⟨stdin, ok, hr⟩ | ⟨stdin, pos, hr⟩
  · rw [hr]
    refine h.done (.inl rfl) ?_ (by simpa [report] using h.sent)
    rw [hheld]
    exact fun c hc => hc
  · rw [hr]
    refine h.done ?_ (fun c hc => absurd hc List.not_mem_nil) ?_
    · dsimp only
      split
      · exact .inr rfl
      · exact .inl rfl
    · intro msg hmsg
      rcases List.mem_append.mp hmsg with hmsg | hmsg
      · exact h.sent msg hmsg
      · dsimp only at hmsg
        split at hmsg
        · -- all that was held is of this client
          obtain rfl := List.mem_singleton.mp hmsg
          intro c hc
          apply h.marked buf k m hreader
          rw [hheld]
          exact List.mem_of_mem_take hc
        · cases hmsg

/-- **Step lemma**: every step of a run that meets the condition keeps the invariant. -/
theorem next {l : Label} (hok : MarksQuiet s l) (hn : next s l = some s') : Inv s' := by
  cases l with
  | attach k =>
    obtain ⟨⟨-, hserver⟩, rfl⟩ := enabledIf_eq_some hn
    refine h.setServer (.inl hserver) ?_
    intro st hst
    cases hst
    exact ⟨rfl, rfl, rfl⟩
  | connect =>
    obtain ⟨hholder, rfl⟩ := enabledIf_eq_some hn
    refine ⟨?_, h.own, h.numbered, h.since, ?_, h.busy, h.loaded, h.marked, h.sent⟩
    · exact fun st hst => ⟨(h.attached st hst).1, Holder.noConfusion, Holder.noConfusion⟩
    · exact fun m hm c hc => ⟨(h.held m hm c hc).1, Holder.noConfusion⟩
  | detach =>
    obtain ⟨-, rfl⟩ := enabledIf_eq_some hn
    exact h.detach
  | unmark =>
    obtain ⟨hholder, rfl⟩ := enabledIf_eq_some hn
    exact h.unmark hholder
  | unserve =>
    obtain ⟨hholder, rfl⟩ := enabledIf_eq_some hn
    refine h.setServer (.inr hholder) (fun st (hst : s.stream = some st) => ?_)
    exact absurd hholder (h.attached st hst).2.2
  | reconnect =>
    cases hn
    exact h.reconnect hok _
  | send buf =>
    obtain ⟨st, hst, rfl⟩ := Option.map_eq_some_iff.mp hn
    exact h.send hst buf
  | read n =>
    simp only [Pending.next] at hn
    split at hn
    · cases hn
    · next st hst =>
      obtain ⟨⟨hidle, -, hpos, hunread⟩, rfl⟩ := enabledIf_eq_some hn
      exact h.read hst hidle hpos hunread
  | loadServer =>
    simp only [Pending.next] at hn
    split at hn
    · -- the session is detached: the input is dropped
      cases hn
      have hdone : Inv { s with reader := .after true } :=
        h.done (.inl rfl) (fun c hc => List.mem_append_left _ hc) h.sent
      exact hdone
    · next buf k hreader hserver =>
      cases hn
      refine h.setReader (by rw [hreader]; rfl) (by rw [hreader]; simp) ?_ nofun
      intro buf' k' hloaded
      cases hloaded
      exact hserver
    · cases hn
  | loadMarker =>
    simp only [Pending.next] at hn
    split at hn
    · next buf k hreader =>
      cases hn
      refine h.setReader (by rw [hreader]; rfl) (by rw [hreader]; simp) nofun ?_
      intro buf' k' m hmarked
      injection hmarked with _ hk hm
      refine ⟨hm, hk ▸ h.loaded buf k hreader ?_⟩
      rw [hm]
      exact Option.some_ne_none m
    · cases hn
  | forward accepts =>
    simp only [Pending.next] at hn
    split at hn
    · cases hn
      exact h.done (.inl rfl) (fun c hc => List.mem_append_left _ hc) h.sent
    · next buf k m hreader =>
      cases hn
      exact h.discard hreader accepts
    · cases hn

end

/-- **Run lemma**. -/
theorem reachable (hs : (session.restrict MarksQuiet).Reachable s) : Inv s :=
  System.invariant_restrict start_inv (fun _ _ _ h => h.next) hs

end Inv

/-- **Discarded input is the client's own.**  In every run in which markers are set only while
    no input of the session is on the way, a `DiscardedInput` message contains only bytes that
    the client it is sent to has sent on this session since the current marker was set. -/
theorem discarded_input_own {s : State} (hs : (session.restrict MarksQuiet).Reachable s) :
    ∀ msg ∈ s.sent, ∀ c ∈ msg.input, c.tag.client = msg.client ∧ msg.marker < c.tag.markers :=
  (Inv.reachable hs).sent

/-- A read and what is done with it. -/
def round (n : Nat) : List Label := [.read n, .loadServer, .loadMarker, .forward 9]

/-- Client `1` reconnects and sends input before the marker. -/
def ownInput : List Label :=
  [.attach 1, .connect, .send [104]] ++ round 9 ++ [.reconnect, .send [105]] ++ round 9 ++
    [.send (Marker.bytes ⟨0, 1⟩ ++ [106])] ++ round 9

theorem discarded_input_own_reconnected :
    ∃ s, (session.restrict MarksQuiet).Reachable s ∧
      s.input.stdin.map (·.byte) = [104, 106] ∧
      s.sent.map (fun msg => (msg.client, msg.input.map (·.byte))) = [(1, [105])] ∧
      ∀ msg ∈ s.sent, ∀ c ∈ msg.input, c.tag.client = msg.client ∧ msg.marker < c.tag.markers := by
  obtain ⟨s, hrun, hstdin, hsent⟩ : ∃ s,
      runLabels (fun s l => if MarksQuiet s l then next s l else none) start ownInput = some s ∧
      s.input.stdin.map (·.byte) = [104, 106] ∧
      s.sent.map (fun msg => (msg.client, msg.input.map (·.byte))) = [(1, [105])] :=
    exists_of_runLabels (by decide +kernel)
  have hs := System.Reachable.of_runLabels_restrict hrun
  exact ⟨s, hs, hstdin, hsent, discarded_input_own hs⟩

/-- The session goes from a client to client `k`. -/
def takeover (k : Nat) : List Label := [.detach, .unmark, .unserve, .attach k, .connect]

/-- Client `1` types `pw` and never sends its marker; client `2` takes the session over and
    reconnects. -/
def takenOver : List Label :=
  [.attach 1, .connect, .reconnect, .send [112, 119]] ++ round 9 ++ takeover 2 ++
    [.reconnect, .send (Marker.bytes ⟨1, 2⟩)] ++ round 9

/-- What client `1` has typed is reported to client `2`. -/
theorem discarded_input_of_other_client :
    ∃ s, session.Reachable s ∧ ∃ msg ∈ s.sent, msg.client = 2 ∧
      msg.input = [⟨112, 1, 1⟩, ⟨119, 1, 1⟩] := by
  obtain ⟨s, hrun, hmsg⟩ : ∃ s, runLabels next start takenOver = some s ∧
      ∃ msg ∈ s.sent, msg.client = 2 ∧ msg.input = [⟨112, 1, 1⟩, ⟨119, 1, 1⟩] :=
    exists_of_runLabels (by decide +kernel)
  exact ⟨s, .of_runLabels (fun _ _ _ h => h) (.init rfl) hrun, hmsg⟩

/-- The same with an empty buffer: `pw` was read, and not dealt with, when the session went to
    client `2`. -/
example : (runLabels next start ([.attach 1, .connect, .send [112, 119], .read 9] ++ takeover 2 ++
    [.reconnect, .loadServer, .loadMarker, .forward 9, .send (Marker.bytes ⟨0, 1⟩)] ++
    round 9)).map (fun s => s.sent.map fun msg => (msg.client, msg.input.map (·.byte))) =
      some [(2, [112, 119])] := by decide +kernel

end Pending
