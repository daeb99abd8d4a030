import Tssh.Framework.System
import Tssh.Notif.TmuxCommands

/-! # Input of a tmux Integration over the Read Buffer

    `notifInterceptor.forwardInput` (`tssh/notif.go`) reads all input into one buffer.  While
    input is intercepted in a tmux integration, `handleUserInput` decodes the commands of a read
    and keeps the unfinished one in `tmuxLeftBuf`, to which the next read is appended.  After
    the interception the first read is appended to it too, and sent to a second goroutine that
    writes it to the server.

    `tmuxLeftBuf` is the last part of the input in place: it lies in the read buffer, with all
    the room behind it.  So the next `Read` overwrites it unless it ends before it starts, and an
    `append` in place leaves the result in the read buffer, which also holds for the input that
    is sent to the second goroutine.  Memory is explicit here, and every slice in use has as
    history the bytes it should show.

    * `tmux_input_intact`: the commands are those of the stream, the unfinished one is kept and
      the server gets it in front of the next read, in the runs in which no `Read` and no
      `append` writes into a slice in use (`Untouched`).
    * `second_read_overwrites`: two reads without `\r` in the first are enough otherwise.
-/

open LTS Go

namespace TmuxInput

/-! ## State -/

/-- The read buffer; its `size` is `32*1024` in the code. -/
def buffer (size : Nat) : Slice := { arr := 0, off := 0, len := size, cap := size }

/-- The parts of `notifInterceptor` that other goroutines use too. -/
structure Ui where
  interceptChan : List UInt8
  cursorPos : Option Bytes
  tmuxPaneId : Option Bytes
  exited : Bool
  deriving DecidableEq, Repr

/-- The reading goroutine: in `Read`; after it, with the length of what was read; in the loop
    that sends a slice to `inputBufChan`.  The bytes are history. -/
inductive Reader where
  | reading
  | got (n : Nat) (bs : Bytes)
  | sending (buf : Slice) (want : Bytes)
  deriving DecidableEq, Repr

/-- `writeAll` in the writing goroutine: the rest of its slice, and as history what this should
    be, what was written, and all that should be. -/
structure Writing where
  buf : Slice
  want : Bytes
  wrote : Bytes
  total : Bytes
  deriving DecidableEq, Repr

/-- A call of `writeAll` that has returned. -/
structure Written where
  total : Bytes
  wrote : Bytes
  failed : Bool
  deriving DecidableEq, Repr

/-- `forwardInput` with its two goroutines.  `stream` is what was typed since tmux interception
    began, `decoded` and `typed` are the commands and keys that were decoded from it. -/
structure State where
  heap : Heap
  reader : Reader
  tmuxLeftBuf : Option Slice
  inputBufChan : List (Slice × Bytes)
  writing : Option Writing
  ui : Ui
  stream : Bytes
  decoded : List Bytes
  typed : Bytes
  written : List Written

def start (size : Nat) (ui : Ui) : State where
  heap := ⟨[List.replicate size 0]⟩
  reader := .reading
  tmuxLeftBuf := none
  inputBufChan := []
  writing := none
  ui := ui
  stream := []
  decoded := []
  typed := []
  written := []

/-! ## Functions -/

/-- The end of `handleUserInput`: a key, or a cursor position. -/
def Ui.input (u : Ui) (buf : Bytes) : Ui :=
  match buf with
  | [b] =>
    if u.interceptChan.length < 1 then { u with interceptChan := u.interceptChan ++ [b] } else u
  | _ =>
    if buf.length > 5 ∧ buf[0]? = some 0x1b ∧ buf[1]? = some 0x5b ∧
        buf[buf.length - 1]? = some 0x52 then
      { u with cursorPos := some ((buf.take (buf.length - 1)).drop 2) }
    else u

/-- What `handleUserInput` does with a decoded input. -/
def Ui.decoded (u : Ui) (d : Decoded) : Ui :=
  if d.detach then { u with exited := true }
  else if d.paneId = [] then u
  else
    match u.tmuxPaneId with
    | none => { u with tmuxPaneId := some d.paneId }.input d.input
    | some paneId => if paneId ≠ d.paneId then u else u.input d.input

/-- `buf = append(ni.tmuxLeftBuf, buf...)` if there is something left. -/
def withLeft (s : State) (input : Slice) (extra : Nat) : Slice × Heap :=
  match s.tmuxLeftBuf with
  | some left => append s.heap left (input.bytes s.heap) extra
  | none => (input, s.heap)

/-- `handleUserInput` for input that should be `want`.  `tmux` is what it loads from `tmuxFlag`,
    `extra` the room of a new array of `append`. -/
def handleUserInput (s : State) (input : Slice) (want : Bytes) (tmux : Bool) (extra : Nat) :
    State :=
  if tmux then
    let buf := withLeft s input extra
    let d := handleAndDecodeTmuxInput (buf.1.bytes buf.2)
    { s with
      heap := buf.2
      tmuxLeftBuf := lastPart buf.1 (buf.1.bytes buf.2)
      ui := s.ui.decoded d
      stream := s.stream ++ want
      decoded := s.decoded ++ commands (buf.1.bytes buf.2)
      typed := s.typed ++ d.input }
  else
    -- not the commands of a tmux integration: the history of the stream ends
    { s with
      tmuxLeftBuf := none
      ui := s.ui.input (input.bytes s.heap)
      stream := []
      decoded := []
      typed := [] }

/-- The slice to send after a read that is not intercepted: appended to what is left, or a
    copy. -/
def inputBuf (s : State) (size n extra : Nat) : Slice × Heap :=
  match s.tmuxLeftBuf with
  | some left => append s.heap left (((buffer size).upTo n).bytes s.heap) extra
  | none =>
    let made := s.heap.alloc (List.replicate n 0)
    (made.1.upTo n, copy made.2 (made.1.upTo n) ((buffer size).upTo n))

/-- `dst.Write(data[m:])` returns `n`. -/
def Writing.write (w : Writing) (h : Heap) (n : Nat) : Writing :=
  { w with
    buf := w.buf.dropFront n
    want := w.want.drop n
    wrote := w.wrote ++ (w.buf.bytes h).take n }

/-! ## Steps -/

/-- A `Read`; `interceptFlag` is set after it, or not; a send to `inputBufChan`, or interception
    while that is full; the writing goroutine takes a slice, writes some bytes, comes to the end,
    or fails; other goroutines. -/
inductive Label where
  | read (bs : Bytes)
  | intercept (tmux : Bool) (extra : Nat)
  | forward (extra : Nat)
  | send
  | interceptFull (tmux : Bool) (extra : Nat)
  | take
  | write (n : Nat)
  | endWrite
  | failWrite
  | others (ui : Ui)
  deriving DecidableEq, Repr

variable (size : Nat)

def next (s : State) : Label → Option State
  | .read bs =>
    enabledIf (s.reader = .reading ∧ 0 < bs.length ∧ bs.length ≤ size)
      { s with heap := s.heap.store (buffer size).arr 0 bs, reader := .got bs.length bs }
  | .intercept tmux extra =>
    match s.reader with
    | .got n bs =>
      some { handleUserInput s ((buffer size).upTo n) bs tmux extra with reader := .reading }
    | _ => none
  | .forward extra =>
    match s.reader with
    | .got n bs =>
      -- the interception is over; another one starts a new stream
      some { s with
        heap := (inputBuf s size n extra).2
        reader := .sending (inputBuf s size n extra).1 (unfinished s.stream ++ bs)
        tmuxLeftBuf := none
        stream := []
        decoded := []
        typed := [] }
    | _ => none
  | .send =>
    match s.reader with
    | .sending buf want =>
      enabledIf (s.inputBufChan.length < 10)
        { s with inputBufChan := s.inputBufChan ++ [(buf, want)], reader := .reading }
    | _ => none
  | .interceptFull tmux extra =>
    match s.reader with
    | .sending buf want =>
      -- `default` of the `select`: only while the channel is full
      enabledIf (¬ s.inputBufChan.length < 10)
        { handleUserInput s buf want tmux extra with reader := .reading }
    | _ => none
  | .take =>
    match s.inputBufChan with
    | (buf, want) :: rest =>
      enabledIf (s.writing = none)
        { s with
          inputBufChan := rest
          writing := some { buf := buf, want := want, wrote := [], total := want } }
    | [] => none
  | .write n =>
    match s.writing with
    | some w =>
      enabledIf (n ≤ w.buf.len)
        { s with writing := some (w.write s.heap n) }
    | none => none
  | .endWrite =>
    match s.writing with
    | some w =>
      enabledIf (w.buf.len = 0)
        { s with
          writing := none
          written := s.written ++ [{ total := w.total, wrote := w.wrote, failed := false }] }
    | none => none
  | .failWrite =>
    match s.writing with
    | some w =>
      some { s with
        writing := none
        written := s.written ++ [{ total := w.total, wrote := w.wrote, failed := true }] }
    | none => none
  | .others ui => some { s with ui := ui }

/-- Any input in any reads, with interception going on and off at any time. -/
def inputRuns (ui : Ui) : System State Label := .ofStep (start size ui) (next size)

/-! ## Slices in use -/

/-- The slices that wait for the server. -/
def State.waiting (s : State) : List (Slice × Bytes) :=
  s.writing.toList.map (fun w => (w.buf, w.want)) ++ s.inputBufChan

/-- The slice that the reading goroutine sends. -/
def Reader.held : Reader → List (Slice × Bytes)
  | .sending buf want => [(buf, want)]
  | _ => []

/-- All slices in use with what they should show. -/
def State.held (s : State) : List (Slice × Bytes) :=
  s.waiting ++ s.reader.held ++ s.tmuxLeftBuf.toList.map (fun left => (left, unfinished s.stream))

/-- The bytes of the read buffer that a step writes: a `Read` its front, an `append` in place
    those behind `tmuxLeftBuf`. -/
def State.writes (s : State) : Label → Option (Nat × Nat)
  | .read bs => some (0, bs.length)
  | .intercept true _ | .forward _ =>
    match s.reader, s.tmuxLeftBuf with
    | .got n _, some left =>
      if left.arr = 0 ∧ left.len + n ≤ left.cap then some (left.off + left.len, n) else none
    | _, _ => none
  | _ => none

/-- The step writes into no slice in use. -/
def Untouched (s : State) (l : Label) : Prop :=
  ∀ r ∈ (s.writes l).toList, ∀ t ∈ s.held, t.1.Clear 0 r.1 r.2

instance (s : State) (l : Label) : Decidable (Untouched s l) :=
  inferInstanceAs (Decidable (∀ r ∈ (s.writes l).toList, ∀ t ∈ s.held, t.1.Clear 0 r.1 r.2))

/-- Slices that show what they should; two of them in one array only in the read buffer. -/
structure Holds (h : Heap) (l : List (Slice × Bytes)) : Prop where
  valid : ∀ t ∈ l, t.1.Valid h
  bytes : ∀ t ∈ l, t.1.bytes h = t.2
  apart : l.Pairwise (fun t u => t.1.arr = u.1.arr → t.1.arr = 0)

namespace Holds

variable {h h' : Heap} {l w : List (Slice × Bytes)} {t u : Slice × Bytes}

theorem mono (hl : Holds h l) (hkeep : ∀ t ∈ l, t.1.Valid h' ∧ t.1.bytes h' = t.1.bytes h) :
    Holds h' l where
  valid t ht := (hkeep t ht).1
  bytes t ht := (hkeep t ht).2.trans (hl.bytes t ht)
  apart := hl.apart

theorem of_concat (hl : Holds h (w ++ [t])) :
    Holds h w ∧ t.1.Valid h ∧ t.1.bytes h = t.2 ∧ ∀ x ∈ w, x.1.arr = t.1.arr → x.1.arr = 0 := by
  obtain ⟨hw, -, hcross⟩ := List.pairwise_append.mp hl.apart
  have ht : t ∈ w ++ [t] := List.mem_append_right _ List.mem_cons_self
  exact ⟨⟨fun x hx => hl.valid x (List.mem_append_left _ hx),
    fun x hx => hl.bytes x (List.mem_append_left _ hx), hw⟩, hl.valid t ht, hl.bytes t ht,
    fun x hx => hcross x hx t List.mem_cons_self⟩

theorem concat (hw : Holds h w) (hvalid : t.1.Valid h) (hbytes : t.1.bytes h = t.2)
    (hcross : ∀ x ∈ w, x.1.arr = t.1.arr → x.1.arr = 0) : Holds h (w ++ [t]) := by
  refine ⟨?_, ?_, ?_⟩
  · intro x hx
    rcases List.mem_append.mp hx with hx | hx
    · exact hw.valid x hx
    · rw [List.mem_singleton.mp hx]
      exact hvalid
  · intro x hx
    rcases List.mem_append.mp hx with hx | hx
    · exact hw.bytes x hx
    · rw [List.mem_singleton.mp hx]
      exact hbytes
  · refine List.pairwise_append.mpr ⟨hw.apart, List.pairwise_singleton _ _, ?_⟩
    intro x hx y hy
    rw [List.mem_singleton.mp hy]
    exact hcross x hx

/-- The first slice gets another place in its array. -/
theorem head (hl : Holds h (t :: l)) (hvalid : u.1.Valid h) (hbytes : u.1.bytes h = u.2)
    (harr : u.1.arr = t.1.arr) : Holds h (u :: l) := by
  obtain ⟨hcross, hapart⟩ := List.pairwise_cons.mp hl.apart
  refine ⟨?_, ?_, ?_⟩
  · intro x hx
    rcases List.mem_cons.mp hx with rfl | hx
    · exact hvalid
    · exact hl.valid x (List.mem_cons_of_mem _ hx)
  · intro x hx
    rcases List.mem_cons.mp hx with rfl | hx
    · exact hbytes
    · exact hl.bytes x (List.mem_cons_of_mem _ hx)
  · refine List.pairwise_cons.mpr ⟨?_, hapart⟩
    intro x hx hsame
    rw [harr] at hsame ⊢
    exact hcross x hx hsame

theorem tail (hl : Holds h (t :: l)) : Holds h l where
  valid x hx := hl.valid x (List.mem_cons_of_mem _ hx)
  bytes x hx := hl.bytes x (List.mem_cons_of_mem _ hx)
  apart := (List.pairwise_cons.mp hl.apart).2

/-- A `Read` into the front of the read buffer. -/
theorem store (hl : Holds h l) {bs : Bytes} (hfit : bs.length ≤ (h.array 0).length)
    (hclear : ∀ t ∈ l, t.1.Clear 0 0 bs.length) : Holds (h.store 0 0 bs) l := by
  have hroom : 0 + bs.length ≤ (h.array 0).length := by omega
  apply hl.mono
  intro t ht
  exact ⟨(hl.valid t ht).store hroom, (hl.valid t ht).bytes_store_clear hroom (hclear t ht)⟩

/-- An `append` to the last slice: it writes behind it in place, or makes a new array. -/
theorem append (hl : Holds h (w ++ [t])) (bs : Bytes) (extra : Nat)
    (hclear : t.1.arr = 0 → t.1.len + bs.length ≤ t.1.cap →
      ∀ x ∈ w, x.1.Clear 0 (t.1.off + t.1.len) bs.length) :
    Holds (Go.append h t.1 bs extra).2 (w ++ [((Go.append h t.1 bs extra).1, t.2 ++ bs)]) := by
  obtain ⟨hw, hvalid, hbytes, hcross⟩ := hl.of_concat
  obtain ⟨hresult, happended⟩ := append_result hvalid bs extra
  have hkept : Holds (Go.append h t.1 bs extra).2 w := by
    apply hw.mono
    intro x hx
    refine ⟨append_valid hvalid bs extra (hw.valid x hx),
      append_keeps hvalid bs extra (hw.valid x hx) ?_⟩
    -- a slice in the same array is in the read buffer
    intro hfits harr
    have hzero := hcross x hx harr
    exact hclear (harr.symm.trans hzero) hfits x hx hzero
  apply hkept.concat hresult (happended.trans (by rw [hbytes]))
  intro x hx harr
  rcases append_arr h t.1 bs extra with hsame | hnew
  · exact hcross x hx (harr.trans hsame)
  · have hlt := (hw.valid x hx).alloc
    have harr : x.1.arr = (Go.append h t.1 bs extra).1.arr := harr
    omega

/-- The unfinished command of the last slice takes its place. -/
theorem lastPart {buf : Slice} {bs : Bytes} (hl : Holds h (w ++ [(buf, bs)])) :
    Holds h (w ++ (TmuxInput.lastPart buf (buf.bytes h)).toList.map
      (fun left => (left, unfinished bs))) := by
  obtain ⟨hw, hvalid, hbytes, hcross⟩ := hl.of_concat
  cases hpart : TmuxInput.lastPart buf (buf.bytes h) with
  | none =>
    rw [Option.toList_none, List.map_nil, List.append_nil]
    exact hw
  | some part =>
    obtain ⟨hpartValid, hpartBytes, harr⟩ := lastPart_spec hvalid hpart
    have hbytes : buf.bytes h = bs := hbytes
    apply hw.concat hpartValid
    · rw [hpartBytes, hbytes]
    · intro x hx hsame
      exact hcross x hx (hsame.trans harr)

end Holds

/-! ## The invariant -/

structure Inv (s : State) : Prop where
  valid : (buffer size).Valid s.heap
  got : ∀ n bs, s.reader = .got n bs → n ≤ size ∧ ((buffer size).upTo n).bytes s.heap = bs
  sending : ∀ buf want, s.reader = .sending buf want → s.tmuxLeftBuf = none ∧ s.stream = []
  holds : Holds s.heap s.held
  left : s.tmuxLeftBuf = none → unfinished s.stream = []
  decoded : s.decoded = commands s.stream
  typed : s.typed = (handleAndDecodeTmuxInput s.stream).input
  writing : ∀ w, s.writing = some w → w.wrote ++ w.want = w.total
  written : ∀ d ∈ s.written, d.wrote <+: d.total ∧ (d.failed = false → d.wrote = d.total)

variable {size n : Nat} {s : State} {bs want : Bytes} {buf : Slice} {w : Writing}

theorem held_of_left {left : Slice} (hreader : s.reader.held = [])
    (hleft : s.tmuxLeftBuf = some left) : s.held = s.waiting ++ [(left, unfinished s.stream)] := by
  rw [State.held, hreader, hleft, List.append_nil]
  rfl

theorem held_of_none (hleft : s.tmuxLeftBuf = none) : s.held = s.waiting ++ s.reader.held := by
  rw [State.held, hleft]
  exact List.append_nil _

theorem held_of_got (hreader : s.reader = .got n bs) (hleft : s.tmuxLeftBuf = none) :
    s.held = s.waiting := by
  rw [held_of_none hleft, hreader]
  exact List.append_nil _

/-- A `Read` that reaches into no slice in use. -/
theorem Inv.read (hinv : Inv size s) (hfit : bs.length ≤ size) (hreader : s.reader = .reading)
    (hclear : ∀ t ∈ s.held, t.1.Clear 0 0 bs.length) :
    Inv size { s with heap := s.heap.store 0 0 bs, reader := .got bs.length bs } := by
  have hcap : 0 + size ≤ (s.heap.array 0).length := hinv.valid.cap_le
  have hfront : ((buffer size).upTo bs.length).Valid s.heap := hinv.valid.upTo hfit
  have hholds := hinv.holds.store (by omega) hclear
  refine ⟨hinv.valid.store (by omega), ?_, nofun, ?_, hinv.left, hinv.decoded, hinv.typed,
    hinv.writing, hinv.written⟩
  · intro n content heq
    cases heq
    refine ⟨hfit, ?_⟩
    -- what was read is the whole front
    exact hfront.bytes_store_all rfl
  · rw [State.held, hreader] at hholds
    exact hholds

/-- Input is decoded: the slice with the unfinished command in front takes the place of
    `tmuxLeftBuf`. -/
theorem Inv.decode (hinv : Inv size s) (buf : Slice × Heap) (hvalid : (buffer size).Valid buf.2)
    (hholds : Holds buf.2 (s.waiting ++ [(buf.1, unfinished s.stream ++ bs)])) (ui : Ui) :
    Inv size { s with
      heap := buf.2
      reader := .reading
      tmuxLeftBuf := lastPart buf.1 (buf.1.bytes buf.2)
      ui := ui
      stream := s.stream ++ bs
      decoded := s.decoded ++ commands (buf.1.bytes buf.2)
      typed := s.typed ++ (handleAndDecodeTmuxInput (buf.1.bytes buf.2)).input } := by
  have hbytes : buf.1.bytes buf.2 = unfinished s.stream ++ bs := hholds.of_concat.2.2.1
  refine ⟨hvalid, nofun, nofun, ?_, ?_, ?_, ?_, hinv.writing, hinv.written⟩
  · have hpart := hholds.lastPart
    rw [← unfinished_append] at hpart
    show Holds buf.2 (s.waiting ++ [] ++ _)
    rw [List.append_nil]
    exact hpart
  · intro hnone
    show unfinished (s.stream ++ bs) = []
    rw [unfinished_append, ← hbytes]
    exact lastPart_eq_none hnone
  · show s.decoded ++ commands (buf.1.bytes buf.2) = commands (s.stream ++ bs)
    rw [commands_append, hbytes, hinv.decoded]
  · show s.typed ++ (handleAndDecodeTmuxInput (buf.1.bytes buf.2)).input =
      (handleAndDecodeTmuxInput (s.stream ++ bs)).input
    rw [input_append, hbytes, hinv.typed]

/-- Input that is not decoded ends the stream. -/
theorem Inv.discard (hinv : Inv size s) (ui : Ui) :
    Inv size { s with
      reader := .reading
      tmuxLeftBuf := none
      ui := ui
      stream := []
      decoded := []
      typed := [] } := by
  have hwaiting : Holds s.heap s.waiting := by
    have hholds := hinv.holds
    rw [State.held, List.append_assoc] at hholds
    obtain ⟨hapart, -, -⟩ := List.pairwise_append.mp hholds.apart
    exact ⟨fun t ht => hholds.valid t (List.mem_append_left _ ht),
      fun t ht => hholds.bytes t (List.mem_append_left _ ht), hapart⟩
  refine ⟨hinv.valid, nofun, nofun, ?_, fun _ => unfinished_nil, ?_, ?_, hinv.writing,
    hinv.written⟩
  · rw [held_of_none rfl]
    show Holds s.heap (s.waiting ++ [])
    rw [List.append_nil]
    exact hwaiting
  · exact commands_nil.symm
  · exact input_nil.symm

/-- The step appends to `tmuxLeftBuf`. -/
def Label.appends : Label → Prop
  | .intercept true _ => True
  | .forward _ => True
  | _ => False

theorem Untouched.append {l : Label} (hok : Untouched s l) (hl : l.appends)
    (hreader : s.reader = .got n bs) {left : Slice} (hleft : s.tmuxLeftBuf = some left)
    (harr : left.arr = 0) (hfits : left.len + n ≤ left.cap) :
    ∀ t ∈ s.held, t.1.Clear 0 (left.off + left.len) n := by
  have hwrites : s.writes l = some (left.off + left.len, n) := by
    match l, hl with
    | .intercept true _, _ => simp [State.writes, hreader, hleft, harr, hfits]
    | .forward _, _ => simp [State.writes, hreader, hleft, harr, hfits]
  rw [Untouched, hwrites] at hok
  exact hok _ List.mem_cons_self

/-- What was read, behind what was left. -/
theorem Inv.append_left (hinv : Inv size s) {l : Label} (hok : Untouched s l) (hl : l.appends)
    (hreader : s.reader = .got n bs) {left : Slice} (hleft : s.tmuxLeftBuf = some left)
    (extra : Nat) :
    (buffer size).Valid (append s.heap left (((buffer size).upTo n).bytes s.heap) extra).2 ∧
      Holds (append s.heap left (((buffer size).upTo n).bytes s.heap) extra).2
        (s.waiting ++ [((append s.heap left (((buffer size).upTo n).bytes s.heap) extra).1,
          unfinished s.stream ++ bs)]) := by
  obtain ⟨hn, hbytes⟩ := hinv.got n bs hreader
  have hlen : bs.length = n := by
    rw [← hbytes]
    exact (hinv.valid.upTo hn).length_bytes
  have hheld : s.held = s.waiting ++ [(left, unfinished s.stream)] :=
    held_of_left (by rw [hreader]; rfl) hleft
  have hholds := hinv.holds
  rw [hheld] at hholds
  rw [hbytes]
  refine ⟨append_valid hholds.of_concat.2.1 bs extra hinv.valid, hholds.append bs extra ?_⟩
  intro harr hfits t ht
  rw [hlen] at hfits ⊢
  exact hok.append hl hreader hleft harr hfits t (hheld ▸ List.mem_append_left _ ht)

theorem Inv.intercept (hinv : Inv size s) (hreader : s.reader = .got n bs) {tmux : Bool}
    {extra : Nat} (hok : Untouched s (.intercept tmux extra)) :
    Inv size { handleUserInput s ((buffer size).upTo n) bs tmux extra with reader := .reading } := by
  cases tmux with
  | false => exact hinv.discard _
  | true =>
    obtain ⟨hn, hbytes⟩ := hinv.got n bs hreader
    refine hinv.decode (withLeft s ((buffer size).upTo n) extra) ?_ ?_ _
    · unfold withLeft
      split
      · next left hleft => exact (hinv.append_left hok trivial hreader hleft extra).1
      · exact hinv.valid
    · unfold withLeft
      split
      · next left hleft => exact (hinv.append_left hok trivial hreader hleft extra).2
      · next hleft =>
        -- the input itself, in the read buffer
        have hholds := hinv.holds
        rw [held_of_got hreader hleft] at hholds
        rw [hinv.left hleft]
        exact hholds.concat (hinv.valid.upTo hn) hbytes (fun x _ harr => harr)

theorem Inv.interceptFull (hinv : Inv size s) (hreader : s.reader = .sending buf want) (tmux : Bool)
    (extra : Nat) : Inv size { handleUserInput s buf want tmux extra with reader := .reading } := by
  obtain ⟨hleft, hstream⟩ := hinv.sending buf want hreader
  cases tmux with
  | false => exact hinv.discard _
  | true =>
    have hbuf : withLeft s buf extra = (buf, s.heap) := by rw [withLeft, hleft]
    refine hinv.decode (withLeft s buf extra) ?_ ?_ _
    · rw [hbuf]
      exact hinv.valid
    · have hholds := hinv.holds
      rw [held_of_none hleft, hreader] at hholds
      rw [hbuf, hstream, unfinished_nil]
      exact hholds

theorem Inv.forward (hinv : Inv size s) (hreader : s.reader = .got n bs) {extra : Nat}
    (hok : Untouched s (.forward extra)) :
    Inv size { s with
      heap := (inputBuf s size n extra).2
      reader := .sending (inputBuf s size n extra).1 (unfinished s.stream ++ bs)
      tmuxLeftBuf := none
      stream := []
      decoded := []
      typed := [] } := by
  have hbuf : (buffer size).Valid (inputBuf s size n extra).2 ∧
      Holds (inputBuf s size n extra).2
        (s.waiting ++ [((inputBuf s size n extra).1, unfinished s.stream ++ bs)]) := by
    unfold inputBuf
    split
    · next left hleft => exact hinv.append_left hok trivial hreader hleft extra
    · next hleft =>
      -- a copy in a new array
      obtain ⟨hn, hbytes⟩ := hinv.got n bs hreader
      obtain ⟨hle, hvalid, hcopy⟩ := copy_alloc_front (hinv.valid.upTo hn) (List.replicate n 0) rfl
        (by rw [List.length_replicate]; exact Nat.le_refl _)
      have hholds := hinv.holds
      rw [held_of_got hreader hleft] at hholds
      refine ⟨hinv.valid.mono hle, ?_⟩
      rw [hinv.left hleft]
      refine (hholds.mono (fun t ht =>
        ⟨(hholds.valid t ht).mono hle, (hholds.valid t ht).bytes_mono hle⟩)).concat hvalid
          (hcopy.trans hbytes) ?_
      intro x hx harr
      have hlt := (hholds.valid x hx).alloc
      have harr : x.1.arr = s.heap.arrays.length := harr
      omega
  refine ⟨hbuf.1, nofun, fun _ _ _ => ⟨rfl, rfl⟩, ?_, fun _ => unfinished_nil, ?_, ?_,
    hinv.writing, hinv.written⟩
  · rw [held_of_none rfl]
    exact hbuf.2
  · exact commands_nil.symm
  · exact input_nil.symm

theorem Inv.send (hinv : Inv size s) (hreader : s.reader = .sending buf want) :
    Inv size { s with inputBufChan := s.inputBufChan ++ [(buf, want)], reader := .reading } := by
  have hholds := hinv.holds
  refine ⟨hinv.valid, nofun, nofun, ?_, hinv.left, hinv.decoded, hinv.typed, hinv.writing,
    hinv.written⟩
  -- the slice goes from the end of those that wait to the end of the channel
  simp only [State.held, State.waiting, hreader, Reader.held, List.append_assoc,
    List.append_nil] at hholds ⊢
  exact hholds

/-- The slice that is written comes first. -/
theorem held_of_writing (hwriting : s.writing = some w) :
    s.held = (w.buf, w.want) :: { s with writing := none }.held := by
  simp only [State.held, State.waiting, hwriting]
  rfl

theorem Inv.writing_holds (hinv : Inv size s) (hwriting : s.writing = some w) :
    Holds s.heap ((w.buf, w.want) :: { s with writing := none }.held) ∧ w.buf.Valid s.heap ∧
      w.buf.bytes s.heap = w.want := by
  have hholds := hinv.holds
  rw [held_of_writing hwriting] at hholds
  exact ⟨hholds, hholds.valid (w.buf, w.want) List.mem_cons_self,
    hholds.bytes (w.buf, w.want) List.mem_cons_self⟩

theorem Inv.take (hinv : Inv size s) (hwriting : s.writing = none) {rest : List (Slice × Bytes)}
    (hchan : s.inputBufChan = (buf, want) :: rest) :
    Inv size { s with
      inputBufChan := rest
      writing := some { buf := buf, want := want, wrote := [], total := want } } := by
  have hholds := hinv.holds
  refine ⟨hinv.valid, hinv.got, hinv.sending, ?_, hinv.left, hinv.decoded, hinv.typed, ?_,
    hinv.written⟩
  · rw [State.held, State.waiting, hwriting, hchan] at hholds
    exact hholds
  · intro w hw
    cases hw
    rfl

theorem Inv.write (hinv : Inv size s) (hwriting : s.writing = some w) (hn : n ≤ w.buf.len) :
    Inv size { s with writing := some (w.write s.heap n) } := by
  obtain ⟨hholds, hvalid, hbytes⟩ := hinv.writing_holds hwriting
  refine ⟨hinv.valid, hinv.got, hinv.sending, ?_, hinv.left, hinv.decoded, hinv.typed, ?_,
    hinv.written⟩
  · rw [held_of_writing rfl]
    refine hholds.head (hvalid.dropFront hn) ?_ rfl
    show (w.buf.dropFront n).bytes s.heap = w.want.drop n
    rw [Slice.bytes_dropFront, hbytes]
  · intro w' hw'
    cases hw'
    show (w.wrote ++ (w.buf.bytes s.heap).take n) ++ w.want.drop n = w.total
    rw [hbytes, List.append_assoc, List.take_append_drop]
    exact hinv.writing w hwriting

/-- `writeAll` returns. -/
theorem Inv.stopWriting (hinv : Inv size s) (hwriting : s.writing = some w) {failed : Bool}
    (hall : failed = false → w.buf.len = 0) :
    Inv size { s with
      writing := none
      written := s.written ++ [{ total := w.total, wrote := w.wrote, failed := failed }] } := by
  obtain ⟨hholds, hvalid, hbytes⟩ := hinv.writing_holds hwriting
  have htotal := hinv.writing w hwriting
  refine ⟨hinv.valid, hinv.got, hinv.sending, hholds.tail, hinv.left, hinv.decoded, hinv.typed,
    nofun, ?_⟩
  intro d hd
  rcases List.mem_append.mp hd with hd | hd
  · exact hinv.written d hd
  · rw [List.mem_singleton.mp hd]
    refine ⟨⟨w.want, htotal⟩, ?_⟩
    intro hok
    have hlen := hvalid.length_bytes
    rw [hbytes, hall hok] at hlen
    rw [List.length_eq_zero_iff.mp hlen, List.append_nil] at htotal
    exact htotal

theorem Inv.next {s s' : State} {l : Label} (hinv : Inv size s) (hok : Untouched s l)
    (h : next size s l = some s') : Inv size s' := by
  cases l with
  | read bs =>
    obtain ⟨⟨hreader, -, hfit⟩, rfl⟩ := enabledIf_eq_some h
    -- by the condition no slice that is in use lies in what the read fills
    exact hinv.read hfit hreader (hok (0, bs.length) List.mem_cons_self)
  | intercept tmux extra =>
    simp only [TmuxInput.next] at h
    split at h
    · next n bs hreader =>
      cases h
      exact hinv.intercept hreader hok
    · cases h
  | forward extra =>
    simp only [TmuxInput.next] at h
    split at h
    · next n bs hreader =>
      cases h
      exact hinv.forward hreader hok
    · cases h
  | send =>
    simp only [TmuxInput.next] at h
    split at h
    · next buf want hreader =>
      obtain ⟨-, rfl⟩ := enabledIf_eq_some h
      exact hinv.send hreader
    · cases h
  | interceptFull tmux extra =>
    simp only [TmuxInput.next] at h
    split at h
    · next buf want hreader =>
      obtain ⟨-, rfl⟩ := enabledIf_eq_some h
      exact hinv.interceptFull hreader tmux extra
    · cases h
  | take =>
    simp only [TmuxInput.next] at h
    split at h
    · next buf want rest hchan =>
      obtain ⟨hwriting, rfl⟩ := enabledIf_eq_some h
      exact hinv.take hwriting hchan
    · cases h
  | write n =>
    simp only [TmuxInput.next] at h
    split at h
    · next w hwriting =>
      obtain ⟨hn, rfl⟩ := enabledIf_eq_some h
      exact hinv.write hwriting hn
    · cases h
  | endWrite =>
    simp only [TmuxInput.next] at h
    split at h
    · next w hwriting =>
      obtain ⟨hlen, rfl⟩ := enabledIf_eq_some h
      exact hinv.stopWriting hwriting (fun _ => hlen)
    · cases h
  | failWrite =>
    simp only [TmuxInput.next] at h
    split at h
    · next w hwriting =>
      cases h
      exact hinv.stopWriting hwriting nofun
    · cases h
  | others ui =>
    cases h
    -- the invariant does not speak of the rest of the interface
    exact ⟨hinv.valid, hinv.got, hinv.sending, hinv.holds, hinv.left, hinv.decoded, hinv.typed,
      hinv.writing, hinv.written⟩

theorem inv_start (ui : Ui) : Inv size (start size ui) := by
  have hlen : (List.replicate size (0 : UInt8)).length = size := List.length_replicate
  refine ⟨⟨Nat.zero_lt_one, Nat.le_refl _, ?_⟩, nofun, nofun, ⟨nofun, nofun, .nil⟩,
    fun _ => unfinished_nil, commands_nil.symm, input_nil.symm, nofun, nofun⟩
  show 0 + size ≤ (List.replicate size (0 : UInt8)).length
  omega

theorem inv_of_reachable {ui : Ui} (hs : ((inputRuns size ui).restrict Untouched).Reachable s) :
    Inv size s :=
  System.invariant_restrict (inv_start ui) (fun _ _ _ h => h.next) hs

/-! ## Reads against one read -/

/-- `tmuxLeftBuf` as it is in memory. -/
def State.leftBytes (s : State) : Bytes :=
  match s.tmuxLeftBuf with
  | some left => left.bytes s.heap
  | none => []

/-- The slice that the reading goroutine sends shows what it should. -/
theorem Inv.sending_bytes (hinv : Inv size s) (hreader : s.reader = .sending buf want) :
    buf.bytes s.heap = want := by
  have hmem : (buf, want) ∈ s.held := by
    rw [State.held, hreader]
    exact List.mem_append_left _ (List.mem_append_right _ List.mem_cons_self)
  exact hinv.holds.bytes _ hmem

/-- **The stream, not its reads, decides**, in the runs in which no step writes into a slice in
    use: at any time `tmuxLeftBuf` shows the unfinished command of what was typed; the commands
    and keys of all reads are those that one read of the whole stream gives; the first read after
    the interception is sent with the unfinished command in front; and the server gets what was
    sent, up to the end or up to an error. -/
theorem tmux_input_intact {ui : Ui} {s : State}
    (hs : ((inputRuns size ui).restrict Untouched).Reachable s) :
    s.leftBytes = unfinished s.stream ∧ s.decoded = commands s.stream ∧
      s.typed = (handleAndDecodeTmuxInput s.stream).input ∧
      (∀ n bs extra s', s.reader = .got n bs →
        ((inputRuns size ui).restrict Untouched).step s (.forward extra) s' →
        ∃ buf, s'.reader = .sending buf (unfinished s.stream ++ bs) ∧
          buf.bytes s'.heap = unfinished s.stream ++ bs) ∧
      ∀ d ∈ s.written, d.wrote <+: d.total ∧ (d.failed = false → d.wrote = d.total) := by
  have hinv := inv_of_reachable hs
  refine ⟨?_, hinv.decoded, hinv.typed, ?_, hinv.written⟩
  · unfold State.leftBytes
    split
    · next left hleft =>
      have hmem : (left, unfinished s.stream) ∈ s.held := by
        rw [State.held, hleft]
        exact List.mem_append_right _ List.mem_cons_self
      exact hinv.holds.bytes _ hmem
    · next hleft => exact (hinv.left hleft).symm
  · intro n bs extra s' hreader hstep
    have hsent : s'.reader = .sending (inputBuf s size n extra).1 (unfinished s.stream ++ bs) := by
      have hnext : next size s (.forward extra) = some s' := hstep.2
      simp only [TmuxInput.next, hreader] at hnext
      cases hnext
      rfl
    exact ⟨_, hsent, (hinv.next hstep.1 hstep.2).sending_bytes hsent⟩

def freshUi : Ui := { interceptChan := [], cursorPos := none, tmuxPaneId := none, exited := false }

/-- A command in two reads: the second overwrites the first, and the keys are lost. -/
theorem second_read_overwrites :
    ∃ s, (inputRuns (32 * 1024) freshUi).Reachable s ∧ s.stream = text "send -lt %1 xy\r" ∧
      s.decoded = [text "y", text "nd -lt %1 xy"] ∧
      commands s.stream = [text "send -lt %1 xy"] ∧ s.typed = [] ∧
      (handleAndDecodeTmuxInput s.stream).input = text "xy" := by
  obtain ⟨s, hrun, hs⟩ : ∃ s, runLabels (next (32 * 1024)) (start (32 * 1024) freshUi)
      [.read (text "send -lt %1 x"), .intercept true 0, .read (text "y\r"), .intercept true 0] =
        some s ∧ s.stream = text "send -lt %1 xy\r" ∧
      s.decoded = [text "y", text "nd -lt %1 xy"] ∧
      commands s.stream = [text "send -lt %1 xy"] ∧ s.typed = [] ∧
      (handleAndDecodeTmuxInput s.stream).input = text "xy" :=
    exists_of_runLabels (by decide +kernel)
  exact ⟨s, .of_runLabels (fun _ _ _ h => h) (.init rfl) hrun, hs⟩

/-- Reads that end before the unfinished command starts leave it alone; the interception ends
    before the last. -/
theorem short_reads_reach_server :
    ∃ s, (inputRuns (32 * 1024) freshUi).Reachable s ∧
      s.written.map Written.total = [text "send -lt %1 yz"] ∧
      ∀ d ∈ s.written, d.failed = false → d.wrote = d.total := by
  obtain ⟨s, hrun, htotal⟩ : ∃ s, runLabels
      (fun s l => if Untouched s l then next (32 * 1024) s l else none)
      (start (32 * 1024) freshUi)
      [.read (text "send -lt %1 x\rsend -l"), .intercept true 0, .read (text "t %1 y"),
        .intercept true 0, .read (text "z"), .forward 0, .send, .take, .write 10, .write 4,
        .endWrite] = some s ∧ s.written.map Written.total = [text "send -lt %1 yz"] :=
    exists_of_runLabels (by decide +kernel)
  have hs := System.Reachable.of_runLabels_restrict hrun
  exact ⟨s, hs.of_restrict, htotal, fun d hd => ((tmux_input_intact hs).2.2.2.2 d hd).2⟩

end TmuxInput
