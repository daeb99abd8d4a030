import Tssh.Framework.Chan
import Tssh.Framework.Slice
import Tssh.Framework.System
import Mathlib.Data.List.Basic
import Mathlib.Logic.Function.Basic

/-! # Reading a Packet Connection

    A `packetConn` (`tsshd/datagram.go`) receives packets on two ways: datagrams, which the
    worker of its forwarder puts into `channelCh`, and packets on a stream.  `Consume` and
    `Read` hold `readMutex`.  The first of them starts a goroutine that reads the stream: while
    a `Consume` has its callback in `consumeFn` the goroutine calls it itself, otherwise it
    puts the packet into `streamCh`, from where `Consume` and `Read` take it.

    Every atomic access is one step, of any number of `Consume`, `Read` and `Close` calls, of
    the goroutine and of the worker.  What the stream and the callbacks return is free.

    * `stream_packets_once`: every packet of the stream is handed out once, unless the
      connection is closed while the goroutine holds it; a callback is called at most once
      after its `Consume` has given it up.
-/

open LTS Go

namespace PacketConns

/-! ## State -/

/-- `io.EOF`, the error of a callback, or what `Read` copied. -/
inductive Result where
  | eof
  | err
  | data (buf : Bytes)
  deriving DecidableEq, Repr

/-- `Consume`, or `Read` with a buffer of `size` bytes. -/
inductive Kind where
  | consume
  | read (size : Nat)
  deriving DecidableEq, Repr

/-- Where a call of `Consume` or `Read` is.  Only `Consume` comes to `storeFn`, `callback` and
    `clearFn`. -/
inductive Call where
  | out
  | lock (kind : Kind)
  | testClosed (kind : Kind)
  | storeFn
  | startReader (kind : Kind)
  | select (kind : Kind)
  | callback
  | clearFn (r : Result)
  | unlock (r : Result)
  | returned (r : Result)
  deriving DecidableEq, Repr

/-- The call has given up its callback, or never had one. -/
def Call.gone : Call → Bool
  | .unlock _ => true
  | .returned _ => true
  | _ => false

/-- The call holds `readMutex`. -/
def Call.locked : Call → Bool
  | .out => false
  | .lock _ => false
  | .returned _ => false
  | _ => true

/-- The callback of the call is in `consumeFn`. -/
def Call.stored : Call → Bool
  | .startReader .consume => true
  | .select .consume => true
  | .callback => true
  | .clearFn _ => true
  | _ => false

/-- Where the goroutine of `startStreamReader` is, and the packet it holds. -/
inductive Reader where
  | unstarted
  | recv
  | load (buf : Bytes)
  | call (buf : Bytes) (i : Nat)
  | calling (i : Nat)
  | send (buf : Bytes)
  | close
  | ended
  deriving DecidableEq, Repr

/-- The packet that was read and not handed out yet. -/
def Reader.hand : Reader → List Bytes
  | .load buf => [buf]
  | .call buf _ => [buf]
  | .send buf => [buf]
  | _ => []

/-- Where a call of `Close` is. -/
inductive Closer where
  | out
  | cas
  | closeCh
  | removeChannel
  | closeStream
  | returned
  deriving DecidableEq, Repr

/-- `packetConn` with its goroutines.  `consumeFn` names the call whose callback it is.
    As history: the calls that were made, the packets `taken` from the stream, the packets
    `handed` out with the call that got each, the packets `dropped`, the datagrams that were
    `accepted` by `channelCh` and those that were handed out, and how often a callback was called
    after its `Consume` had given it up. -/
structure State where
  closed : Bool
  closeCh : Chan Unit
  readMutex : Option Nat
  streamCh : Chan Bytes
  channelCh : Option (Chan Bytes)
  consumeFn : Option Nat
  reader : Reader
  calls : Nat → Call
  closers : Nat → Closer
  streamClosed : Bool
  removed : Bool
  panic : Option Panic
  begun : List Kind
  taken : List Bytes
  handed : List (Nat × Bytes)
  dropped : List Bytes
  accepted : List Bytes
  datagrams : List (Nat × Bytes)
  late : Nat → Nat

/-- `newPacketConn`.  There is no channel where the forwarder has been closed before. -/
def newPacketConn (registered : Bool) : State where
  closed := false
  closeCh := .make 0
  readMutex := none
  streamCh := .make 1
  channelCh := if registered then some (.make 1024) else none
  consumeFn := none
  reader := .unstarted
  calls := fun _ => .out
  closers := fun _ => .out
  streamClosed := false
  removed := false
  panic := none
  begun := []
  taken := []
  handed := []
  dropped := []
  accepted := []
  datagrams := []
  late := fun _ => 0

def State.setCall (s : State) (i : Nat) (c : Call) : State :=
  { s with calls := Function.update s.calls i c }

def State.setCloser (s : State) (j : Nat) (c : Closer) : State :=
  { s with closers := Function.update s.closers j c }

/-! ## Functions -/

/-- `c.readerOnce.Do(c.startStreamReader)`. -/
def startStreamReader (s : State) : State :=
  match s.reader with
  | .unstarted => { s with reader := .recv }
  | _ => s

/-- After the test of `closed`. -/
def Kind.enter : Kind → Call
  | .consume => .storeFn
  | .read size => .startReader (.read size)

/-- After a channel has reported its end. -/
def Kind.atEnd : Kind → Call
  | .consume => .clearFn .eof
  | .read _ => .unlock .eof

/-- After a packet has come from a channel: `consumeFn(buf)`, or `copy(buffer, buf)`. -/
def Kind.received (buf : Bytes) : Kind → Call
  | .consume => .callback
  | .read size => .unlock (.data (buf.take size))

/-- The steps of call `i` that wait for nothing but the mutex. -/
def callStep (s : State) (i : Nat) : Option State :=
  match s.calls i with
  | .lock kind =>
    if s.readMutex = none then some ({ s with readMutex := some i }.setCall i (.testClosed kind))
    else none
  | .testClosed kind =>
    if s.closed then some (s.setCall i (.unlock .eof)) else some (s.setCall i kind.enter)
  | .storeFn => some ({ s with consumeFn := some i }.setCall i (.startReader .consume))
  | .startReader kind => some ((startStreamReader s).setCall i (.select kind))
  -- the deferred calls, the last one first
  | .clearFn r => some ({ s with consumeFn := none }.setCall i (.unlock r))
  | .unlock r => some ({ s with readMutex := none }.setCall i (.returned r))
  | _ => none

/-- The case of `channelCh` in the `select`. -/
def recvChannel (s : State) (i : Nat) : Option State :=
  match s.calls i, s.channelCh with
  | .select kind, some ch =>
    match ch.recv with
    | some (some buf, ch) =>
      some ({ s with
        channelCh := some ch
        datagrams := s.datagrams ++ [(i, buf)] }.setCall i (kind.received buf))
    | some (none, _) => some (s.setCall i kind.atEnd)
    | none => none
  -- a nil channel blocks for ever
  | _, _ => none

/-- The case of `streamCh` in the `select`. -/
def recvStream (s : State) (i : Nat) : Option State :=
  match s.calls i with
  | .select kind =>
    match s.streamCh.recv with
    | some (some buf, ch) =>
      some ({ s with
        streamCh := ch
        handed := s.handed ++ [(i, buf)] }.setCall i (kind.received buf))
    | some (none, _) => some (s.setCall i kind.atEnd)
    | none => none
  | _ => none

/-- The callback returns to the loop of `Consume`. -/
def callbackReturns (s : State) (i : Nat) (ok : Bool) : Option State :=
  match s.calls i with
  | .callback => some (s.setCall i (if ok then .select .consume else .clearFn .err))
  | _ => none

/-- `recvUdpPacket` returns a packet or an error. -/
def recvUdpPacket (s : State) (result : Option Bytes) : Option State :=
  match s.reader, result with
  | .recv, some buf => some { s with reader := .load buf, taken := s.taken ++ [buf] }
  | .recv, none => some { s with reader := .close }
  | _, _ => none

/-- The steps of the goroutine that wait for nothing. -/
def readerStep (s : State) : Option State :=
  match s.reader with
  | .load buf =>
    match s.consumeFn with
    | some i => some { s with reader := .call buf i }
    | none => some { s with reader := .send buf }
  | .call buf i =>
    some { s with
      reader := .calling i
      handed := s.handed ++ [(i, buf)]
      late := if (s.calls i).gone then Function.update s.late i (s.late i + 1) else s.late }
  | .close =>
    match s.streamCh.close with
    | .ok ch => some { s with streamCh := ch, reader := .ended }
    | .error p => some { s with panic := some p }
  | _ => none

/-- The callback returns to the goroutine, which ends with an error. -/
def readerReturns (s : State) (ok : Bool) : Option State :=
  match s.reader with
  | .calling _ => some { s with reader := if ok then .recv else .close }
  | _ => none

/-- `case c.streamCh <- append([]byte(nil), buffer[:n]...)`. -/
def readerSends (s : State) : Option State :=
  match s.reader with
  | .send buf =>
    match s.streamCh.send buf with
    | some (.ok ch) => some { s with streamCh := ch, reader := .recv }
    | some (.error p) => some { s with panic := some p }
    | none => none
  | _ => none

/-- `case <-c.closeCh`. -/
def readerStops (s : State) : Option State :=
  match s.reader with
  | .send buf =>
    if s.closeCh.closed then some { s with reader := .close, dropped := s.dropped ++ [buf] }
    else none
  | _ => none

/-- The worker of the forwarder delivers a datagram; a full channel loses it.  It does not send on
    a channel that it has closed, and closes none twice (`Tssh.Forward.UdpForwarder`): what would
    panic is no step here. -/
def datagram (s : State) (buf : Bytes) : Option State :=
  match s.channelCh with
  | some ch =>
    match ch.trySend buf with
    | .ok (ch, true) =>
      some { s with channelCh := some ch, accepted := s.accepted ++ [buf] }
    | .ok (_, false) => some s
    | .error _ => none
  | none => none

/-- The worker of the forwarder closes the channel. -/
def closeChannel (s : State) : Option State :=
  match s.channelCh with
  | some ch =>
    match ch.close with
    | .ok ch => some { s with channelCh := some ch }
    | .error _ => none
  | none => none

/-- One step of a `Close`. -/
def closeStep (s : State) (j : Nat) : Option State :=
  match s.closers j with
  | .cas =>
    if s.closed then some (s.setCloser j .returned)
    else some ({ s with closed := true }.setCloser j .closeCh)
  | .closeCh =>
    match s.closeCh.close with
    | .ok ch => some ({ s with closeCh := ch }.setCloser j .removeChannel)
    | .error p => some { s with panic := some p }
  | .removeChannel => some ({ s with removed := true }.setCloser j .closeStream)
  | .closeStream => some ({ s with streamClosed := true }.setCloser j .returned)
  | _ => none

/-! ## Steps -/

inductive Label where
  | call (i : Nat) (kind : Kind)
  | step (i : Nat)
  | recvChannel (i : Nat)
  | recvStream (i : Nat)
  | callbackReturns (i : Nat) (ok : Bool)
  | recvUdpPacket (result : Option Bytes)
  | reader
  | readerReturns (ok : Bool)
  | readerSends
  | readerStops
  | datagram (buf : Bytes)
  | closeChannel
  | close (j : Nat)
  | closeStep (j : Nat)
  deriving DecidableEq, Repr

def next (s : State) : Label → Option State
  | .call i kind =>
    enabledIf (s.calls i = .out)
      ({ s with begun := s.begun ++ [kind] }.setCall i (.lock kind))
  | .step i => callStep s i
  | .recvChannel i => recvChannel s i
  | .recvStream i => recvStream s i
  | .callbackReturns i ok => callbackReturns s i ok
  | .recvUdpPacket result => recvUdpPacket s result
  | .reader => readerStep s
  | .readerReturns ok => readerReturns s ok
  | .readerSends => readerSends s
  | .readerStops => readerStops s
  | .datagram buf => datagram s buf
  | .closeChannel => closeChannel s
  | .close j => enabledIf (s.closers j = .out) (s.setCloser j .cas)
  | .closeStep j => closeStep s j

/-- A packet connection with any calls, any packets and any datagrams. -/
def packetRuns (registered : Bool) : System State Label :=
  .ofStep (newPacketConn registered) next

/-! ## `Close` -/

/-- `closeCh` is closed by the one call that sets `closed`. -/
structure CloseInv (closed isShut : Bool) (closers : Nat → Closer) : Prop where
  shut : isShut = true → closed = true
  closing : ∀ j, closers j = .closeCh → closed = true ∧ isShut = false
  one : ∀ j k, closers j = .closeCh → closers k = .closeCh → j = k

namespace CloseInv

variable {closed shut : Bool} {closers : Nat → Closer}

/-- A step of a `Close` call that does not come to `close(c.closeCh)`. -/
theorem move (h : CloseInv closed shut closers) {j : Nat} {c : Closer} (hc : c ≠ .closeCh) :
    CloseInv closed shut (Function.update closers j c) := by
  have hold : ∀ k, Function.update closers j c k = .closeCh → closers k = .closeCh := by
    intro k hk
    by_cases heq : k = j
    · rw [heq, Function.update_self] at hk
      exact absurd hk hc
    · rwa [Function.update_of_ne heq] at hk
  exact ⟨h.shut, fun k hk => h.closing k (hold k hk),
    fun k l hk hl => h.one k l (hold k hk) (hold l hl)⟩

/-- The `CompareAndSwap` succeeds: nobody has closed the channel, or is about to. -/
theorem cas (h : CloseInv false shut closers) (j : Nat) :
    CloseInv true shut (Function.update closers j .closeCh) := by
  have hold : ∀ k, Function.update closers j .closeCh k = .closeCh → k = j := by
    intro k hk
    by_contra hne
    rw [Function.update_of_ne hne] at hk
    exact absurd (h.closing k hk).1 Bool.noConfusion
  refine ⟨fun _ => rfl, ?_, ?_⟩
  · intro k _
    refine ⟨rfl, Bool.eq_false_iff.mpr fun hshut => ?_⟩
    exact absurd (h.shut hshut) Bool.noConfusion
  · intro k l hk hl
    rw [hold k hk, hold l hl]

/-- `close(c.closeCh)`. -/
theorem close (h : CloseInv closed shut closers) {j : Nat} (hj : closers j = .closeCh) {c : Closer}
    (hc : c ≠ .closeCh) : CloseInv closed true (Function.update closers j c) := by
  have hnone : ∀ k, Function.update closers j c k ≠ .closeCh := by
    intro k hk
    by_cases heq : k = j
    · rw [heq, Function.update_self] at hk
      exact hc hk
    · rw [Function.update_of_ne heq] at hk
      exact heq (h.one k j hk hj)
  exact ⟨fun _ => (h.closing j hj).1, fun k hk => absurd hk (hnone k),
    fun k _ hk => absurd hk (hnone k)⟩

end CloseInv

/-! ## `readMutex` -/

/-- One call at a time holds the mutex, and the callback is that of the holder. -/
structure MutexInv (readMutex consumeFn : Option Nat) (calls : Nat → Call) : Prop where
  locked : ∀ i, (calls i).locked = true ↔ readMutex = some i
  stored : ∀ i, (calls i).stored = true ↔ consumeFn = some i

theorem Call.locked_of_stored {c : Call} (h : c.stored = true) : c.locked = true := by
  cases c with
  | startReader kind => rfl
  | select kind => rfl
  | callback => rfl
  | clearFn r => rfl
  | _ => cases h

theorem Call.not_gone_of_stored {c : Call} (h : c.stored = true) : c.gone = false := by
  cases c with
  | unlock r => cases h
  | returned r => cases h
  | _ => rfl

namespace MutexInv

variable {readMutex consumeFn : Option Nat} {calls : Nat → Call} {i : Nat}

theorem move (h : MutexInv readMutex consumeFn calls) {c : Call}
    (hlocked : c.locked = (calls i).locked) (hstored : c.stored = (calls i).stored) :
    MutexInv readMutex consumeFn (Function.update calls i c) := by
  refine ⟨fun k => ?_, fun k => ?_⟩
  · by_cases heq : k = i
    · rw [heq, Function.update_self, hlocked]
      exact h.locked i
    · rw [Function.update_of_ne heq]
      exact h.locked k
  · by_cases heq : k = i
    · rw [heq, Function.update_self, hstored]
      exact h.stored i
    · rw [Function.update_of_ne heq]
      exact h.stored k

/-- While call `i` holds the mutex, every callback in `consumeFn` is its own. -/
theorem owner (h : MutexInv readMutex consumeFn calls) (hi : readMutex = some i) {k : Nat}
    (hk : consumeFn = some k) : k = i := by
  have hlocked := Call.locked_of_stored ((h.stored k).mpr hk)
  exact Option.some.inj (((h.locked k).mp hlocked).symm.trans hi)

/-- `c.readMutex.Lock()`. -/
theorem lock (h : MutexInv none consumeFn calls) {c : Call} (hlocked : c.locked = true)
    (hstored : c.stored = false) : MutexInv (some i) consumeFn (Function.update calls i c) := by
  have hfree : ∀ k, (calls k).locked = false := fun k =>
    Bool.eq_false_iff.mpr fun hk => absurd ((h.locked k).mp hk) nofun
  have hnone : ∀ k, consumeFn ≠ some k := by
    intro k hk
    have hlocked := Call.locked_of_stored ((h.stored k).mpr hk)
    rw [hfree k] at hlocked
    cases hlocked
  refine ⟨fun k => ?_, fun k => ?_⟩
  · by_cases heq : k = i
    · rw [heq, Function.update_self, hlocked]
      simp
    · rw [Function.update_of_ne heq, hfree k, Option.some.injEq]
      exact ⟨nofun, fun h => absurd h.symm heq⟩
  · by_cases heq : k = i
    · rw [heq, Function.update_self, hstored]
      exact ⟨nofun, fun h => absurd h (hnone i)⟩
    · rw [Function.update_of_ne heq]
      exact h.stored k

/-- The holder puts its callback into `consumeFn`, or takes it out. -/
theorem setFn (h : MutexInv readMutex consumeFn calls) (hi : (calls i).locked = true) {c : Call}
    (hlocked : c.locked = true) {fn : Option Nat}
    (hfn : fn = if c.stored then some i else none) :
    MutexInv readMutex fn (Function.update calls i c) := by
  have hmutex := (h.locked i).mp hi
  refine ⟨fun k => ?_, fun k => ?_⟩
  · by_cases heq : k = i
    · rw [heq, Function.update_self, hlocked]
      exact ⟨fun _ => hmutex, fun _ => rfl⟩
    · rw [Function.update_of_ne heq]
      exact h.locked k
  · by_cases heq : k = i
    · rw [heq, Function.update_self, hfn]
      cases c.stored <;> simp
    · -- no other call has its callback there, before and after
      have hother : (calls k).stored = false := Bool.eq_false_iff.mpr fun hk =>
        heq (h.owner hmutex ((h.stored k).mp hk))
      rw [Function.update_of_ne heq, hother, hfn]
      cases c.stored
      · simp
      · simp only [Bool.false_eq_true, ↓reduceIte, Option.some.injEq, false_iff]
        exact fun h => heq h.symm

/-- `c.readMutex.Unlock()`. -/
theorem unlock (h : MutexInv readMutex consumeFn calls) (hi : (calls i).locked = true)
    (hunstored : (calls i).stored = false) {c : Call} (hlocked : c.locked = false)
    (hstored : c.stored = false) : MutexInv none consumeFn (Function.update calls i c) := by
  have hmutex := (h.locked i).mp hi
  refine ⟨fun k => ?_, fun k => ?_⟩
  · by_cases heq : k = i
    · rw [heq, Function.update_self, hlocked]
      exact ⟨nofun, nofun⟩
    · rw [Function.update_of_ne heq]
      refine ⟨fun hk => ?_, nofun⟩
      exact absurd (Option.some.inj (((h.locked k).mp hk).symm.trans hmutex)) heq
  · by_cases heq : k = i
    · rw [heq, Function.update_self, hstored, ← hunstored]
      exact h.stored i
    · rw [Function.update_of_ne heq]
      exact h.stored k

end MutexInv

/-! ## The invariant -/

/-- The call is in its `select`, or in the callback from there. -/
def Call.waits : Call → Bool
  | .select _ => true
  | .callback => true
  | _ => false

/-- Late calls of a callback: a callback that the goroutine holds has not been called late, and
    one that was is in `consumeFn` no more. -/
structure LateInv (calls : Nat → Call) (reader : Reader) (late : Nat → Nat) : Prop where
  once : ∀ i, late i ≤ 1
  gone : ∀ i, late i ≠ 0 → (calls i).gone = true
  holds : ∀ buf i, reader = .call buf i → late i = 0

/-- The datagrams that wait in `channelCh`. -/
def waiting : Option (Chan Bytes) → List Bytes
  | none => []
  | some ch => ch.queue

structure Inv (s : State) : Prop where
  calm : s.panic = none
  closing : CloseInv s.closed s.closeCh.closed s.closers
  mutex : MutexInv s.readMutex s.consumeFn s.calls
  started : ∀ i, (s.calls i).waits = true → s.reader ≠ .unstarted
  ended : s.streamCh.closed = true ↔ s.reader = .ended
  room : s.streamCh.cap = 1 ∧ s.streamCh.queue.length ≤ 1
  conserved :
    (s.handed.map Prod.snd ++ s.streamCh.queue ++ s.reader.hand ++ s.dropped).Perm s.taken
  dropped : s.dropped = [] ∨
    s.dropped.length = 1 ∧ s.closed = true ∧ (s.reader = .close ∨ s.reader = .ended)
  datagrams : s.datagrams.map Prod.snd ++ waiting s.channelCh = s.accepted
  late : LateInv s.calls s.reader s.late

namespace Inv

variable {s s' : State} {i : Nat}

theorem new (registered : Bool) : Inv (newPacketConn registered) := by
  refine ⟨rfl, ⟨nofun, nofun, nofun⟩, ⟨fun _ => ⟨nofun, nofun⟩, fun _ => ⟨nofun, nofun⟩⟩, nofun,
    ⟨nofun, nofun⟩, ⟨rfl, Nat.zero_le 1⟩, .refl _, .inl rfl, ?_,
    ⟨fun _ => Nat.zero_le 1, ?_, nofun⟩⟩
  · cases registered <;> rfl
  · intro i h
    exact absurd rfl h

/-- The goroutine ends with the packet it drops. -/
theorem undropped (hinv : Inv s) (hclose : s.reader ≠ .close) (hended : s.reader ≠ .ended) :
    s.dropped = [] := by
  rcases hinv.dropped with hnil | ⟨-, -, hstopped | hstopped⟩
  · exact hnil
  · exact absurd hstopped hclose
  · exact absurd hstopped hended

/-- A call goes on, with the mutex and `consumeFn` in step with it. -/
theorem changeCall (hinv : Inv s) {c : Call} {readMutex consumeFn : Option Nat}
    (hmutex : MutexInv readMutex consumeFn (Function.update s.calls i c))
    (hgone : (s.calls i).gone = true → c.gone = true)
    (hwaits : c.waits = true → s.reader ≠ .unstarted) :
    Inv ({ s with readMutex := readMutex, consumeFn := consumeFn }.setCall i c) := by
  refine { hinv with
    mutex := hmutex
    started := ?_
    late := ⟨hinv.late.once, ?_, hinv.late.holds⟩ }
  · intro k hk
    by_cases heq : k = i
    · subst heq
      simp only [State.setCall, Function.update_self] at hk
      exact hwaits hk
    · simp only [State.setCall, Function.update_of_ne heq] at hk
      exact hinv.started k hk
  · intro k hk
    by_cases heq : k = i
    · subst heq
      simp only [State.setCall, Function.update_self]
      exact hgone (hinv.late.gone k hk)
    · simp only [State.setCall, Function.update_of_ne heq]
      exact hinv.late.gone k hk

/-- A call goes on without touching the mutex or `consumeFn`. -/
theorem moveCall (hinv : Inv s) {c c' : Call} (hcall : s.calls i = c)
    (hlocked : c'.locked = c.locked) (hstored : c'.stored = c.stored)
    (hgone : c.gone = true → c'.gone = true) (hwaits : c'.waits = true → s.reader ≠ .unstarted) :
    Inv (s.setCall i c') := by
  subst hcall
  exact hinv.changeCall (hinv.mutex.move hlocked hstored) hgone hwaits

/-- The goroutine goes on; it has not dropped a packet so far. -/
theorem setReader (hinv : Inv s) {r r' : Reader} {streamCh : Chan Bytes}
    {handed : List (Nat × Bytes)} {taken : List Bytes} {late : Nat → Nat} (hreader : s.reader = r)
    (hbusy : r ≠ .close ∧ r ≠ .ended) (hgoes : r' ≠ .unstarted ∧ r' ≠ .ended)
    (hclosed : streamCh.closed = s.streamCh.closed)
    (hroom : streamCh.cap = 1 ∧ streamCh.queue.length ≤ 1)
    (hconserved : (handed.map Prod.snd ++ streamCh.queue ++ r'.hand ++ s.dropped).Perm taken)
    (hlate : LateInv s.calls r' late) :
    Inv { s with
      reader := r', streamCh := streamCh, handed := handed, taken := taken, late := late } := by
  subst hreader
  refine { hinv with
    started := fun _ _ => hgoes.1
    ended := ⟨fun h => ?_, fun h => absurd h hgoes.2⟩
    room := hroom
    conserved := hconserved
    dropped := .inl (hinv.undropped hbusy.1 hbusy.2)
    late := hlate }
  exact absurd (hinv.ended.mp (hclosed.symm.trans h)) hbusy.2

/-- It goes on with what it holds, and has not loaded a callback. -/
theorem moveReader (hinv : Inv s) {r r' : Reader} (hreader : s.reader = r)
    (hbusy : r ≠ .close ∧ r ≠ .ended) (hgoes : r' ≠ .unstarted ∧ r' ≠ .ended)
    (hhand : r'.hand = r.hand) (hcall : ∀ buf i, r' ≠ .call buf i) :
    Inv { s with reader := r' } := by
  refine hinv.setReader hreader hbusy hgoes rfl hinv.room ?_
    ⟨hinv.late.once, hinv.late.gone, fun buf i h => absurd h (hcall buf i)⟩
  rw [hhand, ← hreader]
  exact hinv.conserved

theorem startStreamReader (hinv : Inv s) :
    Inv (startStreamReader s) ∧ (PacketConns.startStreamReader s).reader ≠ .unstarted ∧
      (PacketConns.startStreamReader s).calls = s.calls := by
  unfold PacketConns.startStreamReader
  split
  · next hreader =>
    exact ⟨hinv.moveReader hreader (by simp) (by simp) rfl (by simp), nofun, rfl⟩
  · next hreader => exact ⟨hinv, fun h => hreader h, rfl⟩

section

variable (hinv : Inv s)
include hinv

theorem callStep (h : callStep s i = some s') : Inv s' := by
  unfold PacketConns.callStep at h
  cases hcall : s.calls i with
  | lock kind =>
    rw [hcall] at h
    simp only [Option.ite_none_right_eq_some, Option.some.injEq] at h
    obtain ⟨hfree, rfl⟩ := h
    have hmutex := hinv.mutex
    rw [hfree] at hmutex
    exact hinv.changeCall (hmutex.lock rfl rfl) (by simp [hcall, Call.gone]) (by simp [Call.waits])
  | testClosed kind =>
    simp only [hcall] at h
    split at h
    · cases h
      exact hinv.moveCall hcall rfl rfl (fun _ => rfl) (by simp [Call.waits])
    · cases h
      cases kind <;> exact hinv.moveCall hcall rfl rfl (by simp [Call.gone])
        (by simp [Kind.enter, Call.waits])
  | storeFn =>
    rw [hcall] at h
    cases h
    -- the call holds the mutex, so it may set the function
    exact hinv.changeCall (hinv.mutex.setFn (by rw [hcall]; rfl) rfl rfl)
      (by simp [hcall, Call.gone]) (by simp [Call.waits])
  | startReader kind =>
    rw [hcall] at h
    cases h
    obtain ⟨hstarted, hreader, hcalls⟩ := hinv.startStreamReader
    cases kind <;> exact hstarted.moveCall ((congrFun hcalls i).trans hcall) rfl rfl
      (by simp [Call.gone]) (fun _ => hreader)
  | clearFn r =>
    rw [hcall] at h
    cases h
    exact hinv.changeCall (hinv.mutex.setFn (by rw [hcall]; rfl) rfl rfl) (fun _ => rfl)
      (by simp [Call.waits])
  | unlock r =>
    rw [hcall] at h
    cases h
    exact hinv.changeCall (hinv.mutex.unlock (by rw [hcall]; rfl) (by rw [hcall]; rfl) rfl rfl)
      (fun _ => rfl) (by simp [Call.waits])
  | out => rw [hcall] at h; cases h
  | select kind => rw [hcall] at h; cases h
  | callback => rw [hcall] at h; cases h
  | returned r => rw [hcall] at h; cases h

/-- A call leaves its `select`, where it has got a packet or the end of a channel. -/
theorem leaveSelect {kind : Kind} (hcall : s.calls i = .select kind) :
    Inv (s.setCall i kind.atEnd) ∧ ∀ buf, Inv (s.setCall i (kind.received buf)) := by
  have hreader : s.reader ≠ .unstarted := hinv.started i (by rw [hcall]; rfl)
  -- `Consume` still has its callback in `consumeFn` then, and `Read` never had one
  have hmove : ∀ c : Call, c.locked = true → c.stored = (Call.select kind).stored →
      Inv (s.setCall i c) := fun c hlocked hstored =>
    hinv.moveCall hcall hlocked hstored (by simp [Call.gone]) (fun _ => hreader)
  refine ⟨?_, fun buf => ?_⟩
  · cases kind with
    | consume => exact hmove _ rfl rfl
    | read size => exact hmove _ rfl rfl
  · cases kind with
    | consume => exact hmove _ rfl rfl
    | read size => exact hmove _ rfl rfl

theorem recvChannel (h : recvChannel s i = some s') : Inv s' := by
  unfold PacketConns.recvChannel at h
  split at h
  · next kind ch hcall hch =>
    split at h
    · next buf ch' hrecv =>
      cases h
      obtain ⟨x, rest, hqueue, hr⟩ | ⟨-, -, hr⟩ := Chan.recv_cases hrecv
      · cases hr
        refine Inv.leaveSelect (s := { s with
          channelCh := some { ch with queue := rest }
          datagrams := s.datagrams ++ [(i, buf)] }) { hinv with datagrams := ?_ } hcall |>.2 buf
        rw [← hinv.datagrams, hch]
        simp [waiting, hqueue]
      · cases hr
    · cases h
      exact (hinv.leaveSelect hcall).1
    · cases h
  · cases h

theorem recvStream (h : recvStream s i = some s') : Inv s' := by
  unfold PacketConns.recvStream at h
  split at h
  · next kind hcall =>
    split at h
    · next buf ch' hrecv =>
      cases h
      obtain ⟨x, rest, hqueue, hr⟩ | ⟨-, -, hr⟩ := Chan.recv_cases hrecv
      · cases hr
        refine Inv.leaveSelect (s := { s with
          streamCh := { s.streamCh with queue := rest }
          handed := s.handed ++ [(i, buf)] })
          { hinv with room := ⟨hinv.room.1, ?_⟩, conserved := ?_ } hcall |>.2 buf
        · have hroom := hinv.room.2
          rw [hqueue, List.length_cons] at hroom
          exact Nat.le_of_succ_le hroom
        have hconserved := hinv.conserved
        rw [hqueue] at hconserved
        simpa using hconserved
      · cases hr
    · cases h
      exact (hinv.leaveSelect hcall).1
    · cases h
  · cases h

theorem callbackReturns {ok : Bool} (h : callbackReturns s i ok = some s') : Inv s' := by
  unfold PacketConns.callbackReturns at h
  split at h
  · next hcall =>
    cases h
    have hreader : s.reader ≠ .unstarted := hinv.started i (by rw [hcall]; rfl)
    cases ok <;> exact hinv.moveCall hcall rfl rfl (by simp [Call.gone]) (fun _ => hreader)
  · cases h

theorem recvUdpPacket {result : Option Bytes} (h : recvUdpPacket s result = some s') : Inv s' := by
  unfold PacketConns.recvUdpPacket at h
  split at h
  · next buf hreader =>
    cases h
    have hconserved := hinv.conserved
    rw [hreader] at hconserved
    refine hinv.setReader hreader (by simp) (by simp) rfl hinv.room ?_
      ⟨hinv.late.once, hinv.late.gone, by simp⟩
    rw [List.perm_iff_count] at hconserved ⊢
    intro p
    have hcount := hconserved p
    simp only [Reader.hand, List.append_nil, List.count_append] at hcount ⊢
    omega
  · next hreader =>
    cases h
    exact hinv.moveReader hreader (by simp) (by simp) rfl (by simp)
  · cases h

/-- The goroutine loads the callback of a call that goes on, so it has not been called late. -/
theorem loadFn {buf : Bytes} (hreader : s.reader = .load buf) (hfn : s.consumeFn = some i) :
    Inv { s with reader := .call buf i } := by
  have hconserved := hinv.conserved
  rw [hreader] at hconserved
  refine hinv.setReader hreader (by simp) (by simp) rfl hinv.room hconserved
    ⟨hinv.late.once, hinv.late.gone, ?_⟩
  intro buf' k hk
  cases hk
  by_contra hlate
  have hgone := hinv.late.gone i hlate
  rw [Call.not_gone_of_stored ((hinv.mutex.stored i).mpr hfn)] at hgone
  cases hgone

/-- The goroutine calls the callback it holds. -/
theorem callFn {buf : Bytes} (hreader : s.reader = .call buf i) :
    Inv { s with
      reader := .calling i
      handed := s.handed ++ [(i, buf)]
      late := if (s.calls i).gone then Function.update s.late i (s.late i + 1) else s.late } := by
  have hconserved := hinv.conserved
  rw [hreader] at hconserved
  have hzero := hinv.late.holds buf i hreader
  refine hinv.setReader hreader (by simp) (by simp) rfl hinv.room ?_ ⟨?_, ?_, by simp⟩
  · rw [List.perm_iff_count] at hconserved ⊢
    intro p
    have hcount := hconserved p
    simp only [Reader.hand, List.append_nil, List.count_append, List.map_append, List.map_cons,
      List.map_nil] at hcount ⊢
    omega
  · intro k
    show (if (s.calls i).gone then Function.update s.late i (s.late i + 1) else s.late) k ≤ 1
    split
    · by_cases heq : k = i
      · simp [heq, hzero]
      · rw [Function.update_of_ne heq]
        exact hinv.late.once k
    · exact hinv.late.once k
  · intro k hk
    by_cases heq : k = i
    · subst heq
      -- nothing is counted for a call that goes on
      by_contra hgone
      refine hk ?_
      show (if (s.calls k).gone then Function.update s.late k (s.late k + 1) else s.late) k = 0
      rw [if_neg hgone, hzero]
    · refine hinv.late.gone k fun hlate => hk ?_
      show (if (s.calls i).gone then Function.update s.late i (s.late i + 1) else s.late) k = 0
      split
      · rw [Function.update_of_ne heq, hlate]
      · exact hlate

theorem readerStep (h : readerStep s = some s') : Inv s' := by
  unfold PacketConns.readerStep at h
  split at h
  · next buf hreader =>
    split at h
    · next k hfn =>
      cases h
      exact hinv.loadFn hreader hfn
    · cases h
      exact hinv.moveReader hreader (by simp) (by simp) rfl (by simp)
  · next buf k hreader =>
    cases h
    exact hinv.callFn hreader
  · next hreader =>
    have hopen : s.streamCh.closed = false := by
      refine Bool.eq_false_iff.mpr fun hclosed => ?_
      have hended := hinv.ended.mp hclosed
      rw [hreader] at hended
      cases hended
    rw [Chan.close_of_open hopen] at h
    cases h
    have hconserved := hinv.conserved
    rw [hreader] at hconserved
    exact { hinv with
      started := fun _ _ => nofun
      ended := ⟨fun _ => rfl, fun _ => rfl⟩
      conserved := hconserved
      dropped := hinv.dropped.imp_right fun h => ⟨h.1, h.2.1, .inr rfl⟩
      late := ⟨hinv.late.once, hinv.late.gone, nofun⟩ }
  · cases h

theorem readerReturns {ok : Bool} (h : readerReturns s ok = some s') : Inv s' := by
  unfold PacketConns.readerReturns at h
  split at h
  · next k hreader =>
    cases h
    cases ok <;> exact hinv.moveReader hreader (by simp) (by simp) rfl (by simp)
  · cases h

theorem readerSends (h : readerSends s = some s') : Inv s' := by
  unfold PacketConns.readerSends at h
  split at h
  · next buf hreader =>
    have hended := hinv.ended
    have hconserved := hinv.conserved
    rw [hreader] at hended hconserved
    have hopen : s.streamCh.closed = false :=
      Bool.eq_false_iff.mpr fun hclosed => absurd (hended.mp hclosed) nofun
    split at h
    · next ch hsend =>
      cases h
      have hroom := Chan.send_fits hsend
      cases Chan.send_of_open hopen hsend
      refine hinv.setReader hreader (by simp) (by simp) rfl
        ⟨hinv.room.1, hinv.room.1 ▸ hroom.2⟩ ?_ ⟨hinv.late.once, hinv.late.gone, by simp⟩
      simpa [Reader.hand] using hconserved
    · next p hsend => cases Chan.send_of_open hopen hsend
    · cases h
  · cases h

theorem readerStops (h : readerStops s = some s') : Inv s' := by
  unfold PacketConns.readerStops at h
  split at h
  · next buf hreader =>
    simp only [Option.ite_none_right_eq_some, Option.some.injEq] at h
    obtain ⟨hshut, rfl⟩ := h
    have hended := hinv.ended
    have hconserved := hinv.conserved
    rw [hreader] at hended hconserved
    refine { hinv with
      started := fun _ _ => (by simp)
      ended := ⟨fun h => absurd (hended.mp h) (by simp), (by simp)⟩
      conserved := ?_
      dropped := .inr ⟨?_, hinv.closing.shut hshut, .inl rfl⟩
      late := ⟨hinv.late.once, hinv.late.gone, (by simp)⟩ }
    swap
    · rw [hinv.undropped (by simp [hreader]) (by simp [hreader])]
      rfl
    rw [List.perm_iff_count] at hconserved ⊢
    intro p
    have hcount := hconserved p
    simp only [Reader.hand, List.append_nil, List.count_append] at hcount ⊢
    omega
  · cases h

theorem datagram {buf : Bytes} (h : datagram s buf = some s') : Inv s' := by
  unfold PacketConns.datagram at h
  split at h
  · next ch hch =>
    split at h
    · next ch' hsend =>
      cases h
      refine { hinv with datagrams := ?_ }
      have hdatagrams := hinv.datagrams
      rw [hch] at hdatagrams
      have hopen : ch.closed = false := by
        refine Bool.eq_false_iff.mpr fun hclosed => ?_
        rw [Chan.trySend, if_pos hclosed] at hsend
        cases hsend
      rcases Chan.trySend_of_open hopen buf with hok | hfull
      · rw [hok] at hsend
        cases hsend
        simp only [waiting] at hdatagrams ⊢
        rw [← hdatagrams, List.append_assoc]
      · rw [hfull] at hsend
        cases hsend
    · cases h
      exact hinv
    · cases h
  · cases h

theorem closeChannel (h : closeChannel s = some s') : Inv s' := by
  unfold PacketConns.closeChannel at h
  split at h
  · next ch hch =>
    split at h
    · next ch' hclose =>
      cases h
      refine { hinv with datagrams := ?_ }
      have hdatagrams := hinv.datagrams
      rw [hch] at hdatagrams
      unfold Chan.close at hclose
      split at hclose
      · cases hclose
      · cases hclose
        exact hdatagrams
    · cases h
  · cases h

theorem closeStep {j : Nat} (h : closeStep s j = some s') : Inv s' := by
  unfold PacketConns.closeStep at h
  split at h
  · split at h
    · cases h
      exact { hinv with closing := hinv.closing.move nofun }
    · next hopen =>
      cases h
      have hclosing := hinv.closing
      rw [Bool.eq_false_iff.mpr hopen] at hclosing
      exact { hinv with
        closing := hclosing.cas j
        dropped := hinv.dropped.imp_right fun h => ⟨h.1, rfl, h.2.2⟩ }
  · next hcloser =>
    have hopen := (hinv.closing.closing j hcloser).2
    rw [Chan.close_of_open hopen] at h
    cases h
    exact { hinv with closing := hinv.closing.close hcloser nofun }
  · cases h
    exact { hinv with closing := hinv.closing.move nofun }
  · cases h
    exact { hinv with closing := hinv.closing.move nofun }
  · cases h

/-- **Every step keeps the invariant**. -/
theorem next {l : Label} (h : next s l = some s') : Inv s' := by
  cases l with
  | call i kind =>
    obtain ⟨hout, rfl⟩ := enabledIf_eq_some h
    exact Inv.moveCall (s := { s with begun := s.begun ++ [kind] }) { hinv with } hout rfl rfl
      (by simp [Call.gone]) nofun
  | step i => exact hinv.callStep h
  | recvChannel i => exact hinv.recvChannel h
  | recvStream i => exact hinv.recvStream h
  | callbackReturns i ok => exact hinv.callbackReturns h
  | recvUdpPacket result => exact hinv.recvUdpPacket h
  | reader => exact hinv.readerStep h
  | readerReturns ok => exact hinv.readerReturns h
  | readerSends => exact hinv.readerSends h
  | readerStops => exact hinv.readerStops h
  | datagram buf => exact hinv.datagram h
  | closeChannel => exact hinv.closeChannel h
  | close j =>
    obtain ⟨-, rfl⟩ := enabledIf_eq_some h
    exact { hinv with closing := hinv.closing.move nofun }
  | closeStep j => exact hinv.closeStep h

end

theorem reachable {registered : Bool} (hs : (packetRuns registered).Reachable s) : Inv s :=
  System.invariant_ofStep (Inv.new registered) (fun _ _ _ hinv => hinv.next) hs

end Inv

/-! ## Every packet once -/

/-- **Every packet is handed out once**, however the calls interleave.  The packets read from
    the stream are those handed out, one at most in `streamCh`, and one at most that the goroutine
    holds or has dropped, the latter only if the connection is closed; the datagrams of `channelCh`
    come out in their order.  A callback is called at most once after its `Consume`
    has given it up. -/
theorem stream_packets_once {registered : Bool} {s : State}
    (hs : (packetRuns registered).Reachable s) :
    s.panic = none ∧
      (s.handed.map Prod.snd ++ s.streamCh.queue ++ s.reader.hand ++ s.dropped).Perm s.taken ∧
      s.streamCh.queue.length ≤ 1 ∧ s.reader.hand.length + s.dropped.length ≤ 1 ∧
      (s.dropped ≠ [] → s.closed = true) ∧
      s.datagrams.map Prod.snd ++ waiting s.channelCh = s.accepted ∧
      ∀ i, s.late i ≤ 1 := by
  have hinv := Inv.reachable hs
  refine ⟨hinv.calm, hinv.conserved, hinv.room.2, ?_, ?_, hinv.datagrams, hinv.late.once⟩
  · have hhand : s.reader.hand.length ≤ 1 := by cases s.reader <;> simp [Reader.hand]
    rcases hinv.dropped with hnil | ⟨hone, -, hstopped | hstopped⟩
    · rw [hnil]
      exact hhand
    · rw [hstopped, hone]
      exact Nat.le_refl 1
    · rw [hstopped, hone]
      exact Nat.le_refl 1
  · intro hne
    rcases hinv.dropped with hnil | ⟨-, hclosed, -⟩
    · exact absurd hnil hne
    · exact hclosed

/-- A `Consume` that ends with an error of its callback on a datagram, while the goroutine has
    loaded the callback for a packet of the stream. -/
def lateCallback : List Label :=
  [.call 0 .consume, .step 0, .step 0, .step 0, .step 0, .recvUdpPacket (some [1]), .reader,
   .datagram [9], .recvChannel 0, .callbackReturns 0 false, .step 0, .step 0,
   .reader, .readerReturns true, .recvUdpPacket (some [2]), .reader]

/-- The callback is called after its `Consume` has returned, and the next packet waits. -/
theorem lateCallback_once :
    ∃ s, (packetRuns true).Reachable s ∧ s.calls 0 = .returned .err ∧ s.late 0 = 1 ∧
      s.handed = [(0, [1])] ∧ s.reader = .send [2] ∧
      (s.handed.map Prod.snd ++ s.streamCh.queue ++ s.reader.hand ++ s.dropped).Perm s.taken := by
  obtain ⟨s, hrun, hreturned, hlate, hhanded, hreader⟩ : ∃ s,
      runLabels next (newPacketConn true) lateCallback = some s ∧ s.calls 0 = .returned .err ∧
        s.late 0 = 1 ∧ s.handed = [(0, [1])] ∧ s.reader = .send [2] :=
    exists_of_runLabels (by decide +kernel)
  have hs : (packetRuns true).Reachable s := .of_runLabels (fun _ _ _ h => h) (.init rfl) hrun
  exact ⟨s, hs, hreturned, hlate, hhanded, hreader, (stream_packets_once hs).2.1⟩

end PacketConns
