import Tssh.Framework.System
import Tssh.Wire.Packets
import Mathlib.Logic.Function.Basic

/-! # Frames of Many TCP Connections

    In attachable mode the TCP front end (`tcpFrontendConn` in `tsshd/proxy_server.go`)
    reads the frames of all clients through one function.  Each connection has a goroutine
    `readLoop` that reads the two-byte length of the next frame, announces it on
    `frameSignalCh` and waits for an answer on its own unbuffered `ackCh`.  `readFrom`
    takes an announcement, reads the body from the connection it names, answers, and
    returns the packet.

    * The bytes of a connection arrive in pieces, so that a `Read` may return any number of
      them; a `Read` may also fail at any time, and fails once the connection is closed.
    * Connections are replaced (`setClientConn`) and closed at any time.
    * `sent` and `out` are history: the frames the peer has sent after its authentication
      packet, and the packets `readFrom` has returned for the connection.

    The invariant says who may read from a connection: its `readLoop`, an announcement that
    is still queued, or the one `readFrom` call that took it.
-/

open Go LTS Packets

namespace TcpFrames

/-! ## State -/

/-- Where the `readLoop` of a connection is.  `unused` is a connection that has not
    completed its handshake. -/
inductive Loop where
  | unused
  | check
  | header (buf : Bytes)
  | signal (length : Nat)
  | await
  | leave
  | done
  deriving DecidableEq, Repr

/-- A TCP connection.  `wire` are the bytes that were sent and not yet read. -/
structure Conn where
  client : Nat
  sent : List Bytes
  wire : Bytes
  closed : Bool
  loop : Loop
  out : List Bytes
  deriving Repr

/-- `tcpFrameSignal`; its client is the one of the connection, and so is its `ackCh`. -/
structure Signal where
  conn : Nat
  length : Nat
  deriving DecidableEq, Repr

/-- Where a call of `readFrom` is.  `ack` sends `nil` on the `ackCh` of the connection and
    returns the packet, or sends an error and waits for the next signal. -/
inductive Call where
  | idle
  | wait
  | body (signal : Signal) (buf : Bytes)
  | ack (conn : Nat) (packet : Option Bytes)
  deriving DecidableEq, Repr

/-- A goroutine that calls `readFrom`, with the length of its buffer. -/
structure Caller where
  size : Nat
  call : Call
  deriving Repr

structure State where
  conns : Nat → Conn
  clientConn : Nat → Option Nat
  frameSignalCh : List Signal
  callers : Nat → Caller

def start : State where
  conns := fun _ => ⟨0, [], [], false, .unused, []⟩
  clientConn := fun _ => none
  frameSignalCh := []
  callers := fun _ => ⟨0, .idle⟩

/-- The capacity of `frameSignalCh`. -/
def signalCap : Nat := 10

namespace State

def setConn (s : State) (c : Nat) (x : Conn) : State :=
  { s with conns := Function.update s.conns c x }

def setCall (s : State) (i : Nat) (call : Call) : State :=
  { s with callers := Function.update s.callers i { s.callers i with call := call } }

@[simp] theorem setConn_self (s : State) (c : Nat) (x : Conn) : (s.setConn c x).conns c = x := by
  simp [setConn]

@[simp] theorem setConn_ne (s : State) {c d : Nat} (x : Conn) (h : d ≠ c) :
    (s.setConn c x).conns d = s.conns d := by
  simp [setConn, h]

@[simp] theorem setConn_callers (s : State) (c : Nat) (x : Conn) :
    (s.setConn c x).callers = s.callers := rfl

@[simp] theorem setConn_frameSignalCh (s : State) (c : Nat) (x : Conn) :
    (s.setConn c x).frameSignalCh = s.frameSignalCh := rfl

@[simp] theorem setCall_conns (s : State) (i : Nat) (call : Call) :
    (s.setCall i call).conns = s.conns := rfl

@[simp] theorem setCall_frameSignalCh (s : State) (i : Nat) (call : Call) :
    (s.setCall i call).frameSignalCh = s.frameSignalCh := rfl

@[simp] theorem setCall_self (s : State) (i : Nat) (call : Call) :
    ((s.setCall i call).callers i).call = call := by
  simp [setCall]

@[simp] theorem setCall_ne (s : State) {i j : Nat} (call : Call) (h : j ≠ i) :
    (s.setCall i call).callers j = s.callers j := by
  simp [setCall, h]

end State

/-! ## Steps -/

/-- A scheduler decision.  The last argument of `loop` and `call` is the outcome of a
    `Read`, if the step is one: the number of bytes, or an error. -/
inductive Label where
  | connect (c client : Nat)
  | send (c : Nat) (frame : Bytes)
  | close (c : Nat)
  | writeFails (c : Nat)
  | loop (c : Nat) (read : Option Nat)
  | readFrom (i size : Nat)
  | call (i : Nat) (read : Option Nat)
  deriving DecidableEq, Repr

/-- The connection after the peer has sent one more frame. -/
def Conn.sendFrame (x : Conn) (frame : Bytes) : Conn :=
  { x with sent := x.sent ++ [frame], wire := x.wire ++ packetBytes frame }

/-- A `Read` that returns `n` bytes, into a buffer with room for `room`. -/
def Conn.read (x : Conn) (room n : Nat) : Option (Bytes × Conn) :=
  if x.closed = false ∧ 0 < n ∧ n ≤ room ∧ n ≤ x.wire.length then
    some (x.wire.take n, { x with wire := x.wire.drop n })
  else none

/-- `io.ReadFull`, one `Read` at a time: `full` when the buffer has `size` bytes. -/
inductive ReadStep where
  | full
  | more (buf : Bytes) (x : Conn)
  | failed

def Conn.readFull (x : Conn) (size : Nat) (buf : Bytes) (read : Option Nat) : Option ReadStep :=
  if buf.length = size then some .full
  else
    match read with
    | none => some .failed
    | some n => (x.read (size - buf.length) n).map fun (bs, x') => .more (buf ++ bs) x'

/-- The next step of `readLoop`. -/
def loopStep (s : State) (c : Nat) (read : Option Nat) : Option State :=
  let x := s.conns c
  match x.loop with
  | .check =>
    if s.clientConn x.client = some c then some (s.setConn c { x with loop := .header [] })
    else some (s.setConn c { x with loop := .leave })
  | .header buf =>
    match x.readFull 2 buf read with
    | some .full => some (s.setConn c { x with loop := .signal (uint16 buf).toNat })
    | some (.more buf' x') => some (s.setConn c { x' with loop := .header buf' })
    | some .failed => some (s.setConn c { x with loop := .leave })
    | none => none
  | .signal length =>
    if s.frameSignalCh.length < signalCap then
      some { s.setConn c { x with loop := .await } with
        frameSignalCh := s.frameSignalCh ++ [⟨c, length⟩] }
    else none
  | .leave =>
    -- the deferred function; only the owner of the connection closes it
    if s.clientConn x.client = some c then
      some { s.setConn c { x with closed := true, loop := .done } with
        clientConn := Function.update s.clientConn x.client none }
    else some (s.setConn c { x with loop := .done })
  | _ => none

/-- The next step of a `readFrom` call. -/
def callStep (s : State) (i : Nat) (read : Option Nat) : Option State :=
  match (s.callers i).call with
  | .wait =>
    match s.frameSignalCh with
    | [] => none
    | signal :: rest =>
      let s := { s with frameSignalCh := rest }
      if (s.callers i).size < signal.length then some (s.setCall i (.ack signal.conn none))
      else some (s.setCall i (.body signal []))
  | .body signal buf =>
    match (s.conns signal.conn).readFull signal.length buf read with
    | some .full => some (s.setCall i (.ack signal.conn (some buf)))
    | some (.more buf' x') =>
      some ((s.setConn signal.conn x').setCall i (.body signal buf'))
    | some .failed => some (s.setCall i (.ack signal.conn none))
    | none => none
  | .ack c packet =>
    -- `ackCh` is unbuffered: sender and receiver go on together
    let x := s.conns c
    if x.loop = .await then
      match packet with
      | some p =>
        some ((s.setConn c { x with loop := .check, out := x.out ++ [p] }).setCall i .idle)
      | none => some ((s.setConn c { x with loop := .leave }).setCall i .wait)
    else none
  | .idle => none

def next (s : State) : Label → Option State
  | .connect c client =>
    -- `setClientConn` and the start of `readLoop`; the old connection is closed by `close`
    if (s.conns c).loop = .unused then
      some { s.setConn c { s.conns c with client := client, loop := .check } with
        clientConn := Function.update s.clientConn client (some c) }
    else none
  | .send c frame =>
    if frame.length ≤ maxPacket then
      some (s.setConn c ((s.conns c).sendFrame frame))
    else none
  | .close c => some (s.setConn c { s.conns c with closed := true })
  | .writeFails c =>
    if s.clientConn (s.conns c).client = some c then
      some { s.setConn c { s.conns c with closed := true } with
        clientConn := Function.update s.clientConn (s.conns c).client none }
    else none
  | .loop c read => loopStep s c read
  | .readFrom i size =>
    if (s.callers i).call = .idle then
      some { s with callers := Function.update s.callers i ⟨size, .wait⟩ }
    else none
  | .call i read => callStep s i read

/-- The TCP front end in attachable mode. -/
def frontend : System State Label := System.ofStep start next

/-! ## Where a connection is read -/

namespace Conn

/-- The frames that are not returned yet are what is in `buf` and on the wire. -/
def Aligned (x : Conn) (buf : Bytes) : Prop :=
  ∃ todo, x.sent = x.out ++ todo ∧ buf ++ x.wire = todo.flatMap packetBytes

/-- The length of the next frame is read, and so is the part `buf` of its body. -/
def Pending (x : Conn) (length : Nat) (buf : Bytes) : Prop :=
  ∃ frame todo, x.sent = x.out ++ frame :: todo ∧ frame.length = length ∧
    buf ++ x.wire = frame ++ todo.flatMap packetBytes

/-- The next frame is read completely. -/
def Took (x : Conn) (packet : Bytes) : Prop :=
  ∃ todo, x.sent = x.out ++ packet :: todo ∧ x.wire = todo.flatMap packetBytes

/-- What `readLoop` knows of the connection. -/
def LoopOk (x : Conn) : Prop :=
  match x.loop with
  | .unused | .check => x.Aligned []
  | .header buf => x.Aligned buf
  | .signal length => x.Pending length []
  | .await | .leave | .done => True

/-- What a `readFrom` call knows of the connection it has taken. -/
def CallOk (x : Conn) : Call → Prop
  | .body signal buf => x.Pending signal.length buf
  | .ack _ (some packet) => x.Took packet
  | _ => True

theorem read_some {x y : Conn} {room n : Nat} {bs : Bytes} (h : x.read room n = some (bs, y)) :
    x.wire = bs ++ y.wire ∧ y = { x with wire := y.wire } := by
  rw [read] at h
  split at h
  · obtain ⟨rfl, rfl⟩ := Prod.mk.inj (Option.some.inj h)
    exact ⟨(List.take_append_drop n x.wire).symm, rfl⟩
  · cases h

variable {x : Conn} {buf : Bytes}

/-- What a step of `io.ReadFull` does. -/
theorem readFull_cases {size : Nat} {read : Option Nat} {r : ReadStep}
    (h : x.readFull size buf read = some r) :
    (r = .full ∧ buf.length = size) ∨ r = .failed ∨
    ∃ bs wire, r = .more (buf ++ bs) { x with wire := wire } ∧ x.wire = bs ++ wire := by
  unfold readFull at h
  by_cases hfull : buf.length = size
  · rw [if_pos hfull] at h
    exact .inl ⟨(Option.some.inj h).symm, hfull⟩
  · rw [if_neg hfull] at h
    right
    cases read with
    | none => exact .inl (Option.some.inj h).symm
    | some n =>
      obtain ⟨⟨bs, y⟩, hread, rfl⟩ := Option.map_eq_some_iff.mp h
      obtain ⟨hwire, hy⟩ := read_some hread
      refine .inr ⟨bs, y.wire, ?_, hwire⟩
      rw [← hy]

theorem Aligned.read {buf bs wire : Bytes} (h : x.Aligned buf) (hw : x.wire = bs ++ wire) :
    ({ x with wire := wire } : Conn).Aligned (buf ++ bs) := by
  obtain ⟨todo, hsent, hbytes⟩ := h
  exact ⟨todo, hsent, by rw [← hbytes, hw, List.append_assoc]⟩

theorem Pending.read {length : Nat} {buf bs wire : Bytes} (h : x.Pending length buf)
    (hw : x.wire = bs ++ wire) : ({ x with wire := wire } : Conn).Pending length (buf ++ bs) := by
  obtain ⟨frame, todo, hsent, hlen, hbytes⟩ := h
  exact ⟨frame, todo, hsent, hlen, by rw [← hbytes, hw, List.append_assoc]⟩

/-- **The two bytes of the header are the length of the next frame.** -/
theorem Aligned.pending (h : x.Aligned buf) (hbuf : buf.length = 2)
    (hfit : ∀ f ∈ x.sent, f.length ≤ maxPacket) : x.Pending (uint16 buf).toNat [] := by
  obtain ⟨todo, hsent, hbytes⟩ := h
  cases todo with
  | nil =>
    have hlen := congrArg List.length hbytes
    simp [hbuf] at hlen
  | cons frame todo =>
    have hframe : frame.length ≤ maxPacket := hfit frame (by simp [hsent])
    rw [List.flatMap_cons, packetBytes, List.append_assoc] at hbytes
    obtain ⟨rfl, hwire⟩ := List.append_inj hbytes (by simp [hbuf])
    refine ⟨frame, todo, hsent, ?_, hwire⟩
    rw [uint16_putUint16, toNat_uint16_length hframe]

/-- A body that has the announced length is the frame. -/
theorem Pending.took {length : Nat} (h : x.Pending length buf) (hbuf : buf.length = length) :
    x.Took buf := by
  obtain ⟨frame, todo, hsent, hlen, hbytes⟩ := h
  obtain ⟨rfl, hwire⟩ := List.append_inj hbytes (hbuf.trans hlen.symm)
  exact ⟨todo, hsent, hwire⟩

/-- Returning the packet moves on to the next frame. -/
theorem Took.returned {packet : Bytes} (h : x.Took packet) :
    ({ x with loop := .check, out := x.out ++ [packet] } : Conn).Aligned [] ∧
    x.out ++ [packet] <+: x.sent := by
  obtain ⟨todo, hsent, hwire⟩ := h
  exact ⟨⟨todo, by simp [hsent], hwire⟩, ⟨todo, by simp [hsent]⟩⟩

/-! ### The peer sends a frame -/

theorem Aligned.sendFrame (h : x.Aligned buf) (frame : Bytes) :
    (x.sendFrame frame).Aligned buf := by
  obtain ⟨todo, hsent, hbytes⟩ := h
  refine ⟨todo ++ [frame], by simp [Conn.sendFrame, hsent], ?_⟩
  simp [Conn.sendFrame, ← hbytes]

theorem Pending.sendFrame {length : Nat} (h : x.Pending length buf) (frame : Bytes) :
    (x.sendFrame frame).Pending length buf := by
  obtain ⟨f, todo, hsent, hlen, hbytes⟩ := h
  refine ⟨f, todo ++ [frame], by simp [Conn.sendFrame, hsent], hlen, ?_⟩
  rw [List.flatMap_append, ← List.append_assoc f, ← hbytes]
  simp [Conn.sendFrame]

theorem Took.sendFrame {packet : Bytes} (h : x.Took packet) (frame : Bytes) :
    (x.sendFrame frame).Took packet := by
  obtain ⟨todo, hsent, hwire⟩ := h
  exact ⟨todo ++ [frame], by simp [Conn.sendFrame, hsent], by simp [Conn.sendFrame, hwire]⟩

theorem LoopOk.sendFrame (h : x.LoopOk) (frame : Bytes) : (x.sendFrame frame).LoopOk := by
  unfold LoopOk at h ⊢
  show match x.loop with
    | .unused | .check => (x.sendFrame frame).Aligned []
    | .header buf => (x.sendFrame frame).Aligned buf
    | .signal length => (x.sendFrame frame).Pending length []
    | .await | .leave | .done => True
  cases hloop : x.loop with
  | unused => simp only [hloop] at h; exact h.sendFrame frame
  | check => simp only [hloop] at h; exact h.sendFrame frame
  | header buf => simp only [hloop] at h; exact h.sendFrame frame
  | signal length => simp only [hloop] at h; exact h.sendFrame frame
  | await => trivial
  | leave => trivial
  | done => trivial

theorem CallOk.sendFrame {call : Call} (h : x.CallOk call) (frame : Bytes) :
    (x.sendFrame frame).CallOk call := by
  cases call with
  | idle => trivial
  | wait => trivial
  | body signal buf => exact Pending.sendFrame h frame
  | ack c packet =>
    cases packet with
    | none => trivial
    | some packet => exact Took.sendFrame h frame

end Conn

/-! ## The invariant -/

/-- The connection a call has taken from the queue. -/
def Call.holds : Call → Option Nat
  | .body signal _ => some signal.conn
  | .ack c _ => some c
  | _ => none

/-- **A connection is read by one goroutine at a time.**  While `readLoop` does not wait for
    an answer the connection is neither queued nor taken; while it waits, the announcement is
    queued once, or one call has taken it. -/
structure Inv (s : State) : Prop where
  fits : ∀ c, ∀ f ∈ (s.conns c).sent, f.length ≤ maxPacket
  sound : ∀ c, (s.conns c).out <+: (s.conns c).sent
  loops : ∀ c, (s.conns c).LoopOk
  queue_nodup : (s.frameSignalCh.map Signal.conn).Nodup
  queued : ∀ g ∈ s.frameSignalCh,
    (s.conns g.conn).loop = .await ∧ (s.conns g.conn).Pending g.length []
  taken : ∀ i c, (s.callers i).call.holds = some c →
    (s.conns c).loop = .await ∧ c ∉ s.frameSignalCh.map Signal.conn ∧
    (s.conns c).CallOk (s.callers i).call
  apart : ∀ i j c, (s.callers i).call.holds = some c → (s.callers j).call.holds = some c → i = j

namespace Inv

variable {s : State} {c i : Nat} {x : Conn} {call : Call}

variable (h : Inv s)
include h

/-- A connection whose `readLoop` does not wait is not queued. -/
theorem not_queued (hloop : (s.conns c).loop ≠ .await) : c ∉ s.frameSignalCh.map Signal.conn := by
  intro hmem
  obtain ⟨g, hg, rfl⟩ := List.mem_map.mp hmem
  exact hloop (h.queued g hg).1

theorem not_taken (hloop : (s.conns c).loop ≠ .await) (i : Nat) :
    (s.callers i).call.holds ≠ some c :=
  fun hi => hloop (h.taken i c hi).1

/-- A connection may change if what the queue and the calls know of it stays true. -/
theorem setConn (hfits : ∀ f ∈ x.sent, f.length ≤ maxPacket) (hsound : x.out <+: x.sent)
    (hloop : x.LoopOk)
    (hqueued : ∀ g ∈ s.frameSignalCh, g.conn = c → x.loop = .await ∧ x.Pending g.length [])
    (htaken : ∀ i, (s.callers i).call.holds = some c →
      x.loop = .await ∧ x.CallOk (s.callers i).call) : Inv (s.setConn c x) where
  fits := by
    intro d
    by_cases hd : d = c
    · subst hd
      simpa using hfits
    · simpa [hd] using h.fits d
  sound := by
    intro d
    by_cases hd : d = c
    · subst hd
      simpa using hsound
    · simpa [hd] using h.sound d
  loops := by
    intro d
    by_cases hd : d = c
    · subst hd
      simpa using hloop
    · simpa [hd] using h.loops d
  queue_nodup := h.queue_nodup
  queued := by
    intro g hg
    by_cases hd : g.conn = c
    · simpa [hd] using hqueued g hg hd
    · simpa [hd] using h.queued g hg
  taken := by
    intro i d hi
    have hi' : (s.callers i).call.holds = some d := hi
    by_cases hd : d = c
    · subst hd
      obtain ⟨hawait, hcall⟩ := htaken i hi'
      exact ⟨by simpa using hawait, (h.taken i d hi').2.1,
        by simpa using hcall⟩
    · simpa [hd] using h.taken i d hi'
  apart := h.apart

/-- A connection that nobody waits for is changed by its own `readLoop` only. -/
theorem setConn_own (hown : (s.conns c).loop ≠ .await) (hfits : ∀ f ∈ x.sent, f.length ≤ maxPacket)
    (hsound : x.out <+: x.sent) (hloop : x.LoopOk) : Inv (s.setConn c x) := by
  apply h.setConn hfits hsound hloop
  · intro g hg hc
    exact absurd (List.mem_map.mpr ⟨g, hg, hc⟩) (h.not_queued hown)
  · intro i hi
    exact absurd hi (h.not_taken hown i)

/-- A call may change if it knows what it says of the connection it holds, and holds none
    that another call holds. -/
theorem setCall (htaken : ∀ c, call.holds = some c →
      (s.conns c).loop = .await ∧ c ∉ s.frameSignalCh.map Signal.conn ∧ (s.conns c).CallOk call)
    (hapart : ∀ c, call.holds = some c → ∀ j, (s.callers j).call.holds = some c → j = i) :
    Inv (s.setCall i call) where
  fits := h.fits
  sound := h.sound
  loops := h.loops
  queue_nodup := h.queue_nodup
  queued := h.queued
  taken := by
    intro j c hj
    by_cases hji : j = i
    · subst hji
      have hc : call.holds = some c := by simpa using hj
      simpa using htaken c hc
    · simpa [hji] using h.taken j c (by simpa [hji] using hj)
  apart := by
    intro j k c hj hk
    by_cases hji : j = i
    · by_cases hki : k = i
      · rw [hji, hki]
      · have hc : call.holds = some c := by simpa [hji] using hj
        have hk' : (s.callers k).call.holds = some c := by simpa [hki] using hk
        rw [hji, hapart c hc k hk']
    · have hj' : (s.callers j).call.holds = some c := by simpa [hji] using hj
      by_cases hki : k = i
      · have hc : call.holds = some c := by simpa [hki] using hk
        rw [hki, hapart c hc j hj']
      · exact h.apart j k c hj' (by simpa [hki] using hk)

/-- Who owns which connection does not matter for reading. -/
theorem setClientConn (f : Nat → Option Nat) : Inv { s with clientConn := f } :=
  ⟨h.fits, h.sound, h.loops, h.queue_nodup, h.queued, h.taken, h.apart⟩

/-- The buffer lengths of the calls do not matter either. -/
theorem setCallers {f : Nat → Caller} (hf : ∀ i, (f i).call = (s.callers i).call) :
    Inv { s with callers := f } where
  fits := h.fits
  sound := h.sound
  loops := h.loops
  queue_nodup := h.queue_nodup
  queued := h.queued
  taken := by
    intro i c hi
    rw [hf] at hi ⊢
    exact h.taken i c hi
  apart := by
    intro i j c hi hj
    rw [hf] at hi hj
    exact h.apart i j c hi hj

/-- `readLoop` puts the announcement of its connection into the queue. -/
theorem announce {c length : Nat} (hloop : (s.conns c).loop = .signal length) :
    Inv { s.setConn c { s.conns c with loop := .await } with
      frameSignalCh := s.frameSignalCh ++ [⟨c, length⟩] } := by
  have hown : (s.conns c).loop ≠ .await := by simp [hloop]
  have hpending : (s.conns c).Pending length [] := by simpa [Conn.LoopOk, hloop] using h.loops c
  have h' := h.setConn_own (x := { s.conns c with loop := .await }) hown (h.fits c) (h.sound c) trivial
  exact
    { fits := h'.fits
      sound := h'.sound
      loops := h'.loops
      queue_nodup := by
        show ((s.frameSignalCh ++ [Signal.mk c length]).map Signal.conn).Nodup
        rw [List.map_append, List.nodup_append]
        refine ⟨h.queue_nodup, by simp, ?_⟩
        intro d hd e he hde
        obtain rfl : e = c := by simpa using he
        exact h.not_queued hown (hde ▸ hd)
      queued := by
        intro g hg
        rcases List.mem_append.mp hg with hg | hg
        · exact h'.queued g hg
        · obtain rfl := List.mem_singleton.mp hg
          show ((s.setConn c _).conns c).loop = .await ∧ ((s.setConn c _).conns c).Pending length []
          rw [State.setConn_self]
          exact ⟨rfl, hpending⟩
      taken := by
        intro i d hi
        have hdc : d ≠ c := fun hdc => h.not_taken hown i (hdc ▸ hi)
        obtain ⟨hawait, hnot, hcall⟩ := h'.taken i d hi
        refine ⟨hawait, ?_, hcall⟩
        show d ∉ (s.frameSignalCh ++ [Signal.mk c length]).map Signal.conn
        have hnot' : d ∉ s.frameSignalCh.map Signal.conn := hnot
        simp only [List.map_append, List.map_cons, List.map_nil, List.mem_append,
          List.mem_singleton, not_or]
        exact ⟨hnot', hdc⟩
      apart := h.apart }

/-- A call takes the first announcement of the queue. -/
theorem take {g : Signal} {rest : List Signal} (hqueue : s.frameSignalCh = g :: rest)
    (hholds : call.holds = some g.conn) (hcall : (s.conns g.conn).CallOk call) :
    Inv ({ s with frameSignalCh := rest }.setCall i call) := by
  have hnodup : g.conn ∉ rest.map Signal.conn ∧ (rest.map Signal.conn).Nodup := by
    have hq := h.queue_nodup
    rw [hqueue, List.map_cons, List.nodup_cons] at hq
    exact hq
  have hmem : g ∈ s.frameSignalCh := by simp [hqueue]
  have h' : Inv { s with frameSignalCh := rest } :=
    { fits := h.fits
      sound := h.sound
      loops := h.loops
      queue_nodup := hnodup.2
      queued := fun g' hg' => h.queued g' (by rw [hqueue]; exact List.mem_cons_of_mem _ hg')
      taken := by
        intro j d hj
        obtain ⟨hawait, hnot, hok⟩ := h.taken j d hj
        rw [hqueue, List.map_cons, List.mem_cons, not_or] at hnot
        exact ⟨hawait, hnot.2, hok⟩
      apart := h.apart }
  apply h'.setCall
  · intro c hc
    obtain rfl : g.conn = c := Option.some.inj (hholds.symm.trans hc)
    exact ⟨(h.queued g hmem).1, hnodup.1, hcall⟩
  · -- the connection was queued, so no other call holds it
    intro c hc j hj
    obtain rfl : g.conn = c := Option.some.inj (hholds.symm.trans hc)
    exact absurd (List.mem_map.mpr ⟨g, hmem, rfl⟩) (h.taken j _ hj).2.1

/-- A call that holds a connection changes it and goes on with it, or lets go of it. -/
theorem exchange (hold : (s.callers i).call.holds = some c)
    (hfits : ∀ f ∈ x.sent, f.length ≤ maxPacket) (hsound : x.out <+: x.sent) (hloop : x.LoopOk)
    (hcall : ∀ d, call.holds = some d → d = c ∧ x.loop = .await ∧ x.CallOk call) :
    Inv ((s.setConn c x).setCall i call) := by
  have hnot := (h.taken i c hold).2.1
  -- no other call holds `c`
  have hother : ∀ j d, j ≠ i → (s.callers j).call.holds = some d → d ≠ c := by
    rintro j d hji hj rfl
    exact hji (h.apart j i d hj hold)
  -- let go first, so that only the queue and this call are concerned
  have hidle : Inv ((s.setCall i .idle).setConn c x) := by
    have hcalled : Inv (s.setCall i .idle) := h.setCall (by simp [Call.holds]) (by simp [Call.holds])
    apply hcalled.setConn hfits hsound hloop
    · intro g hg hc
      exact absurd (List.mem_map.mpr ⟨g, hg, hc⟩) hnot
    · intro j hj
      by_cases hji : j = i
      · simp [State.setCall, hji, Call.holds] at hj
      · exact absurd rfl (hother j c hji (by simpa [hji] using hj))
  have hset : (s.setConn c x).setCall i call =
      ((s.setCall i .idle).setConn c x).setCall i call := by
    simp [State.setCall, State.setConn]
  rw [hset]
  apply hidle.setCall
  · intro d hd
    obtain ⟨rfl, hawait, hok⟩ := hcall d hd
    exact ⟨by simpa using hawait, hnot, by simpa using hok⟩
  · intro d hd j hj
    obtain ⟨rfl, _, _⟩ := hcall d hd
    by_contra hji
    exact hother j d hji (by simpa [State.setCall, State.setConn, hji] using hj) rfl

end Inv

/-! ## Every step keeps it -/

section Steps

variable {s s' : State} {read : Option Nat} {i : Nat}

theorem loopStep_inv {c : Nat} (h : Inv s) (hstep : loopStep s c read = some s') : Inv s' := by
  have hloop := h.loops c
  unfold loopStep at hstep
  unfold Conn.LoopOk at hloop
  cases hl : (s.conns c).loop with
  | unused => simp [hl] at hstep
  | await => simp [hl] at hstep
  | done => simp [hl] at hstep
  | check =>
    simp only [hl] at hstep hloop
    have hown : (s.conns c).loop ≠ .await := by simp [hl]
    split at hstep
    · obtain rfl := Option.some.inj hstep
      exact h.setConn_own hown (h.fits c) (h.sound c) hloop
    · obtain rfl := Option.some.inj hstep
      exact h.setConn_own hown (h.fits c) (h.sound c) trivial
  | header buf =>
    simp only [hl] at hstep hloop
    have hown : (s.conns c).loop ≠ .await := by simp [hl]
    match hr : (s.conns c).readFull 2 buf read with
    | none => simp [hr] at hstep
    | some r =>
      rcases Conn.readFull_cases hr with ⟨rfl, hbuf⟩ | rfl | ⟨bs, wire, rfl, hwire⟩
      -- the header is there: it gives the length of the next frame
      · simp only [hr, Option.some.injEq] at hstep
        subst hstep
        exact h.setConn_own hown (h.fits c) (h.sound c) (hloop.pending hbuf (h.fits c))
      · simp only [hr, Option.some.injEq] at hstep
        subst hstep
        exact h.setConn_own hown (h.fits c) (h.sound c) trivial
      -- a part of the header
      · simp only [hr, Option.some.injEq] at hstep
        subst hstep
        exact h.setConn_own hown (h.fits c) (h.sound c) (hloop.read hwire)
  | signal length =>
    simp only [hl] at hstep
    split at hstep
    · obtain rfl := Option.some.inj hstep
      -- from here on the connection belongs to the call that takes the signal
      exact h.announce hl
    · cases hstep
  | leave =>
    simp only [hl] at hstep
    have hown : (s.conns c).loop ≠ .await := by simp [hl]
    split at hstep
    · obtain rfl := Option.some.inj hstep
      have hdone : Inv (s.setConn c { s.conns c with closed := true, loop := .done }) :=
        h.setConn_own hown (h.fits c) (h.sound c) trivial
      exact hdone.setClientConn _
    · obtain rfl := Option.some.inj hstep
      exact h.setConn_own hown (h.fits c) (h.sound c) trivial

/-- What the calls do with the connection they hold: read some of the body, finish, fail. -/
theorem body_inv {g : Signal} {buf : Bytes} (h : Inv s) (hcall : (s.callers i).call = .body g buf)
    (hstep : callStep s i read = some s') : Inv s' := by
  have hold : (s.callers i).call.holds = some g.conn := by rw [hcall]; rfl
  obtain ⟨hawait, _, hpending⟩ := h.taken i g.conn hold
  rw [hcall] at hpending
  have hkeep : s.setConn g.conn (s.conns g.conn) = s := by simp [State.setConn]
  simp only [callStep, hcall] at hstep
  match hr : (s.conns g.conn).readFull g.length buf read with
  | none => simp [hr] at hstep
  | some r =>
    rcases Conn.readFull_cases hr with ⟨rfl, hbuf⟩ | rfl | ⟨bs, wire, rfl, hwire⟩
    · simp only [hr, Option.some.injEq] at hstep
      subst hstep
      rw [← hkeep]
      apply h.exchange hold (h.fits _) (h.sound _) (h.loops _)
      intro d hd
      exact ⟨(Option.some.inj hd).symm, hawait, Conn.Pending.took hpending hbuf⟩
    · simp only [hr, Option.some.injEq] at hstep
      subst hstep
      rw [← hkeep]
      apply h.exchange hold (h.fits _) (h.sound _) (h.loops _)
      intro d hd
      exact ⟨(Option.some.inj hd).symm, hawait, trivial⟩
    · simp only [hr, Option.some.injEq] at hstep
      subst hstep
      apply h.exchange hold
      · exact h.fits g.conn
      · exact h.sound g.conn
      · simp [Conn.LoopOk, hawait]
      · intro d hd
        exact ⟨(Option.some.inj hd).symm, hawait, Conn.Pending.read hpending hwire⟩

/-- The answer on `ackCh`: the packet is returned and `readLoop` goes on to the next frame,
    or `readLoop` ends. -/
theorem ack_inv {i c : Nat} {packet : Option Bytes} (h : Inv s)
    (hcall : (s.callers i).call = .ack c packet) (hstep : callStep s i read = some s') :
    Inv s' := by
  have hold : (s.callers i).call.holds = some c := by rw [hcall]; rfl
  obtain ⟨hawait, _, htook⟩ := h.taken i c hold
  rw [hcall] at htook
  simp only [callStep, hcall, hawait, if_true] at hstep
  cases packet with
  | none =>
    obtain rfl := Option.some.inj hstep
    apply h.exchange hold
    · exact h.fits c
    · exact h.sound c
    · trivial
    · intro d hd
      cases hd
  | some p =>
    obtain rfl := Option.some.inj hstep
    obtain ⟨haligned, hprefix⟩ := Conn.Took.returned htook
    apply h.exchange hold
    · exact h.fits c
    · exact hprefix
    · exact haligned
    · intro d hd
      cases hd

theorem callStep_inv (h : Inv s) (hstep : callStep s i read = some s') : Inv s' := by
  cases hcall : (s.callers i).call with
  | idle => simp [callStep, hcall] at hstep
  | wait =>
    simp only [callStep, hcall] at hstep
    match hq : s.frameSignalCh with
    | [] => simp [hq] at hstep
    | g :: rest =>
      simp only [hq] at hstep
      split at hstep
      · obtain rfl := Option.some.inj hstep
        exact h.take hq rfl trivial
      · obtain rfl := Option.some.inj hstep
        exact h.take hq rfl (h.queued g (by simp [hq])).2
  | body g buf => exact body_inv h hcall hstep
  | ack c packet => exact ack_inv h hcall hstep

theorem send_inv (h : Inv s) (c : Nat) {frame : Bytes} (hfit : frame.length ≤ maxPacket) :
    Inv (s.setConn c ((s.conns c).sendFrame frame)) := by
  apply h.setConn
  · intro f hf
    rcases List.mem_append.mp hf with hf | hf
    · exact h.fits c f hf
    · rw [List.mem_singleton.mp hf]
      exact hfit
  · exact (h.sound c).trans (List.prefix_append _ _)
  · exact (h.loops c).sendFrame frame
  · rintro g hg rfl
    obtain ⟨hawait, hpending⟩ := h.queued g hg
    exact ⟨hawait, hpending.sendFrame frame⟩
  · intro i hi
    obtain ⟨hawait, _, hok⟩ := h.taken i c hi
    exact ⟨hawait, hok.sendFrame frame⟩

/-- Closing a connection does not change what was sent on it and read from it. -/
theorem close_inv (h : Inv s) (c : Nat) : Inv (s.setConn c { s.conns c with closed := true }) := by
  apply h.setConn
  · exact h.fits c
  · exact h.sound c
  · exact h.loops c
  · rintro g hg rfl
    exact h.queued g hg
  · intro i hi
    obtain ⟨hawait, _, hok⟩ := h.taken i c hi
    refine ⟨hawait, ?_⟩
    cases hcall : (s.callers i).call with
    | idle => trivial
    | wait => trivial
    | body g buf => rw [hcall] at hok; exact hok
    | ack d packet =>
      rw [hcall] at hok
      cases packet with
      | none => trivial
      | some p => exact hok

theorem next_inv {l : Label} (h : Inv s) (hstep : next s l = some s') : Inv s' := by
  cases l with
  | connect c client =>
    simp only [next, Option.ite_none_right_eq_some, Option.some.injEq] at hstep
    obtain ⟨hunused, rfl⟩ := hstep
    have haligned : (s.conns c).Aligned [] := by simpa [Conn.LoopOk, hunused] using h.loops c
    have hcheck : Inv (s.setConn c { s.conns c with client := client, loop := .check }) :=
      h.setConn_own (by simp [hunused]) (h.fits c) (h.sound c) haligned
    exact hcheck.setClientConn _
  | send c frame =>
    simp only [next, Option.ite_none_right_eq_some, Option.some.injEq] at hstep
    obtain ⟨hfit, rfl⟩ := hstep
    exact send_inv h c hfit
  | close c =>
    obtain rfl := Option.some.inj hstep
    exact close_inv h c
  | writeFails c =>
    simp only [next, Option.ite_none_right_eq_some, Option.some.injEq] at hstep
    obtain ⟨_, rfl⟩ := hstep
    exact (close_inv h c).setClientConn _
  | loop c read => exact loopStep_inv h hstep
  | readFrom i size =>
    simp only [next, Option.ite_none_right_eq_some, Option.some.injEq] at hstep
    obtain ⟨_, rfl⟩ := hstep
    have hwait : Inv (s.setCall i .wait) := h.setCall (by simp [Call.holds]) (by simp [Call.holds])
    apply hwait.setCallers
    intro j
    by_cases hji : j = i
    · simp [hji]
    · simp [hji]
  | call i read => exact callStep_inv h hstep

theorem start_inv : Inv start where
  fits := by simp [start]
  sound := by simp [start]
  loops := fun _ => ⟨[], rfl, rfl⟩
  queue_nodup := by simp [start]
  queued := by simp [start]
  taken := by simp [start, Call.holds]
  apart := by simp [start, Call.holds]

theorem frontend_inv (hs : frontend.Reachable s) : Inv s :=
  System.invariant_ofStep start_inv (fun _ _ _ => next_inv) hs

end Steps

/-! ## Main theorem -/

/-- **The packets `readFrom` returns for a connection are the first frames that were sent on
    it**, in order and byte for byte, whatever happens on the other connections; and a packet
    that a call has read completely is the next of these frames, with no byte of another
    connection in it. -/
theorem packets_are_first_frames {s : State} (hs : frontend.Reachable s) (c : Nat) :
    (s.conns c).out <+: (s.conns c).sent ∧
    ∀ i packet, (s.callers i).call = .ack c (some packet) →
      (s.conns c).out ++ [packet] <+: (s.conns c).sent := by
  have h := frontend_inv hs
  refine ⟨h.sound c, ?_⟩
  intro i packet hcall
  have hok := (h.taken i c (by rw [hcall]; rfl)).2.2
  rw [hcall] at hok
  exact (Conn.Took.returned hok).2

/-- Two connections whose frames are read in turns: both headers are read and announced
    before the first body, and the body of the first frame arrives in two pieces. -/
def twoConnections : List Label :=
  [.connect 0 7, .connect 1 8, .send 0 [1, 2, 3], .send 1 [9], .send 0 [4],
   .loop 0 none, .loop 1 none, .loop 0 (some 1), .loop 1 (some 2), .loop 0 (some 1),
   .loop 0 none, .loop 1 none, .loop 0 none, .loop 1 none,
   .readFrom 0 100, .call 0 none, .call 0 (some 2), .call 0 (some 1), .call 0 none, .call 0 none,
   .readFrom 0 100, .call 0 none, .call 0 (some 1), .close 0, .call 0 none, .call 0 none]

theorem packets_are_first_frames_two_connections :
    ∃ s, frontend.Reachable s ∧ (s.conns 0).out = [[1, 2, 3]] ∧
      (s.conns 0).sent = [[1, 2, 3], [4]] ∧ (s.conns 1).out = [[9]] ∧
      (s.conns 0).out <+: (s.conns 0).sent ∧ (s.conns 1).out <+: (s.conns 1).sent := by
  obtain ⟨s, hrun, h0, h1, h2⟩ : ∃ s, runLabels next start twoConnections = some s ∧
      (s.conns 0).out = [[1, 2, 3]] ∧ (s.conns 0).sent = [[1, 2, 3], [4]] ∧
      (s.conns 1).out = [[9]] :=
    exists_of_runLabels (by decide +kernel)
  have hs : frontend.Reachable s := .of_runLabels (fun _ _ _ h => h) (.init rfl) hrun
  exact ⟨s, hs, h0, h1, h2, (packets_are_first_frames hs 0).1, (packets_are_first_frames hs 1).1⟩

end TcpFrames
